import TimingNode.Proofs.ScanPulses

namespace TimingNode.Proofs.ScanUpdates

open TimingNode.Scan
open TimingNode.Proofs.ScanPulses

/-- A scan after any number of updates, and the flip bits that it took in them. Every update is made
among devices of its own, so it may meet any answer of a shifter and any bit of a source. -/
inductive Updated (scan : Scan) : List Bool → Scan → Prop where
  | none : Updated scan [] scan
  | busy {bits : List Bool} {later : Scan} {σ : Type} [Shifter σ] [PulseSource σ] {world : σ} :
      Updated scan bits later → (Shifter.poll later.config.channel world).1 = true →
      Updated scan bits (later.step world).2.1
  | pulse {bits : List Bool} {later : Scan} {σ : Type} [Shifter σ] [PulseSource σ]
      {world idle pulsed : σ} {bit : Bool} :
      Updated scan bits later → Shifter.poll later.config.channel world = (false, idle) →
      PulseSource.pulse idle = (bit, pulsed) →
      Updated scan (bits ++ [bit]) (later.step world).2.1

theorem Updated.invariant {motive : List Bool → Scan → Prop} {scan later : Scan} {bits : List Bool}
    (h : Updated scan bits later) (hnone : motive [] scan)
    (hbusy : ∀ {bits later}, motive bits later → motive bits later.onBusy.2)
    (hpulse : ∀ {bits later} bit, motive bits later →
      motive (bits ++ [bit]) (later.onPulse bit).2.1) :
    motive bits later := by
  induction h with
  | none => exact hnone
  | busy _ hpoll ih =>
      rw [step_eq_onBusy (Prod.ext hpoll rfl)]
      exact hbusy ih
  | pulse _ hpoll hflip ih =>
      rw [step_eq_onPulse hpoll hflip]
      exact hpulse _ ih

theorem Updated.config_eq {scan later : Scan} {bits : List Bool} (h : Updated scan bits later) :
    later.config = scan.config := by
  refine h.invariant (motive := fun _ later => later.config = scan.config) rfl ?_ ?_
  · intro bits later hconfig
    exact hconfig
  · intro bits later bit hconfig
    exact (config_onPulse later bit).trans hconfig

section Run

variable {σ : Type} [Shifter σ] [PulseSource σ] {begun scan ended : Scan} {bits : List Bool}

theorem Updated.step (h : Updated begun bits scan) (world : σ) :
    ∃ bits', Updated begun bits' (scan.step world).2.1 := by
  rcases hpoll : Shifter.poll scan.config.channel world with ⟨_ | _, polled⟩
  · exact ⟨_, h.pulse hpoll rfl⟩
  · exact ⟨bits, h.busy (congrArg Prod.fst hpoll)⟩

theorem Updated.exists_last_of_run {patience : Nat} {world world' : σ}
    {transition : TransitionPhase} (h : Updated begun bits scan)
    (hrun : run patience scan world = some (.ok transition, ended, world')) :
    ∃ bits' last now, Updated begun bits' last ∧
      last.step now = (.ok (.complete transition), ended, world') := by
  induction patience generalizing bits scan world with
  | zero => cases hrun
  | succ patience ih =>
      rw [run] at hrun
      rcases hstep : scan.step world with ⟨_ | _ | found, next, later⟩
      all_goals rw [hstep] at hrun
      · cases hrun
      · obtain ⟨bits', hnext⟩ := h.step world
        rw [hstep] at hnext
        exact ih hnext hrun
      · cases hrun
        exact ⟨bits, scan, world, h, hstep⟩

end Run

end TimingNode.Proofs.ScanUpdates
