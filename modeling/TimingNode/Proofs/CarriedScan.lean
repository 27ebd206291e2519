import TimingNode.Scan

/-!
Maps from one world to another that commute with the shifter and the pulse source. Such a map
carries scans along: in the image of a world a scan gives the answers that it gives in the world,
and what it leaves is the image of what it leaves there.
-/

namespace TimingNode.Proofs.CarriedScan

open TimingNode.Scan

variable {σ τ : Type} [Shifter σ] [PulseSource σ] [Shifter τ] [PulseSource τ]

/-- A map of worlds that goes with the answers and with the actions of the devices of a scan. -/
structure Carries (image : σ → τ) : Prop where
  command : ∀ channel phase world,
    Shifter.command channel phase (image world) = image (Shifter.command channel phase world)
  poll : ∀ channel world,
    Shifter.poll channel (image world) =
      ((Shifter.poll channel world).1, image (Shifter.poll channel world).2)
  pulse : ∀ world,
    PulseSource.pulse (image world) =
      ((PulseSource.pulse world).1, image (PulseSource.pulse world).2)

variable {image : σ → τ} (carries : Carries image)
include carries

theorem Carries.start (config : Config) (world : σ) :
    start config (image world) =
      (start config world).map fun started => (started.1, image started.2) := by
  rw [Scan.start, Scan.start]
  rcases config.validate with cause | _
  · rfl
  · dsimp only
    rw [carries.command]
    rfl

theorem Carries.step (scan : Scan) (world : σ) :
    scan.step (image world) =
      ((scan.step world).1, (scan.step world).2.1, image (scan.step world).2.2) := by
  rw [Scan.step, Scan.step, carries.poll]
  rcases Shifter.poll scan.config.channel world with ⟨_ | _, polled⟩
  · dsimp only
    rw [carries.pulse]
    rcases PulseSource.pulse polled with ⟨flip, pulsed⟩
    rcases scan.onPulse flip with ⟨answer, next, _ | phase⟩
    · rfl
    · simp only [carries.command]
  · rfl

theorem Carries.run (patience : Nat) (scan : Scan) (world : σ) :
    run patience scan (image world) =
      (run patience scan world).map fun ended => (ended.1, ended.2.1, image ended.2.2) := by
  induction patience generalizing scan world with
  | zero => rfl
  | succ patience ih =>
      rw [Scan.run, Scan.run, carries.step]
      rcases scan.step world with ⟨_ | _ | transition, next, later⟩
      · rfl
      · exact ih next later
      · rfl

end TimingNode.Proofs.CarriedScan
