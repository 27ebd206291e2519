import TimingNode.Proofs.RecordedWorld

namespace TimingNode.Proofs.CalibratorJournal

open TimingNode.Calibrator
open TimingNode.Proofs.CalibrationPrograms
open TimingNode.Proofs.CarriedPrograms
open TimingNode.Proofs.CarriedScan
open TimingNode.Proofs.RecordedWorld

/-- A world and the phases moved in it, to or from the store and to the reception path. -/
abbrev Journaled (σ : Type) :=
  Recorded fun (ask : Ask) (_ : σ) => Option.guard Ask.moves ask

variable {σ : Type}

abbrev plain (calibrator : Calibrator (Journaled σ)) : Calibrator σ :=
  imaged Recorded.world calibrator

variable [Shifter σ] [PulseSource σ]

theorem carries_journaled (deeds : List Ask) :
    Carries fun world : σ => (⟨world, deeds⟩ : Journaled σ) where
  command _ _ _ := rfl
  poll _ _ := rfl
  pulse _ := rfl

/-- A measurement scans the world in which the journal is kept, and the scan leaves no trace in the
journal. -/
theorem run_measure_journaled [CorrectionSink σ] (calibrator : Calibrator (Journaled σ)) :
    (Calibrator.measure : CalibrationM _ Error TransitionPhase).run.run calibrator =
      match Scan.start calibrator.config calibrator.world.world with
      | .error cause => some (.error (.invalidConfig cause), calibrator)
      | .ok (scan, started) =>
          (Scan.run calibrator.patience scan started).map fun (verdict, _, world) =>
            concluded { calibrator with world := ⟨world, calibrator.world.events⟩ } verdict := by
  have hcarries : Carries fun world : σ => (⟨world, calibrator.world.events⟩ : Journaled σ) :=
    carries_journaled _
  have hstart := hcarries.start calibrator.config calibrator.world.world
  change Scan.start calibrator.config calibrator.world = _ at hstart
  rw [run_measure, hstart]
  rcases Scan.start calibrator.config calibrator.world.world with cause | ⟨scan, started⟩
  · rfl
  · simp only [Except.map, hcarries.run, Option.map_map]
    rfl

end TimingNode.Proofs.CalibratorJournal
