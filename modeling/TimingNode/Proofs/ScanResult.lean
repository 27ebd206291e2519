import TimingNode.Node
import TimingNode.Scan
import TimingNode.Proofs.CircularMidpoint
import TimingNode.Proofs.ScanPulses
import TimingNode.Proofs.ScanTuning
import TimingNode.Proofs.ScanUpdates

namespace TimingNode.Proofs.ScanResult

open TimingNode.Scan
open TimingNode.Proofs.CircularMidpoint
open TimingNode.Proofs.ScanPulses
open TimingNode.Proofs.ScanTuning
open TimingNode.Proofs.ScanUpdates

section Result

variable {σ : Type} [Shifter σ] [PulseSource σ]

def JoinsEdges (config : Config) (phase : TransitionPhase) : Prop :=
  ∃ rising falling, phase = midpoint rising falling config.period.toNat

theorem JoinsEdges.lt_period {config : Config} {phase : TransitionPhase}
    (h : JoinsEdges config phase) (husable : Usable config) :
    phase.picoseconds < config.period.toNat := by
  obtain ⟨rising, falling, rfl⟩ := h
  have hstep := husable.step_lt
  have hrange := husable.range_lt
  exact picoseconds_midpoint_lt rising falling (by omega) (by omega)

theorem joinsEdges_of_step {scan : Scan} {world : σ} {phase : TransitionPhase}
    (h : (scan.step world).1 = .ok (.complete phase)) : JoinsEdges scan.config phase := by
  obtain ⟨bit, -, -, hverdict⟩ := exists_sample_of_complete h
  obtain ⟨rising, falling, -, -, hphase⟩ := verdict_eq_ok_iff.mp hverdict
  exact ⟨rising, falling, hphase⟩

theorem joinsEdges_of_run {patience : Nat} {scan scan' : Scan} {world world' : σ}
    {phase : TransitionPhase} (h : run patience scan world = some (.ok phase, scan', world')) :
    JoinsEdges scan.config phase := by
  obtain ⟨bits, last, now, hlast, hstep⟩ := Updated.none.exists_last_of_run h
  rw [← hlast.config_eq]
  exact joinsEdges_of_step (congrArg Prod.fst hstep)

theorem lt_period_of_run {config : Config} {patience : Nat} {scan scan' : Scan}
    {world started world' : σ} {phase : TransitionPhase}
    (hstart : start config world = .ok (scan, started))
    (hrun : run patience scan started = some (.ok phase, scan', world')) :
    phase.picoseconds < config.period.toNat ∧ config.period.toNat < 1 <<< 31 := by
  rw [start] at hstart
  split at hstart
  · cases hstart
  · rename_i hvalid
    cases hstart
    have husable := (validate_eq_ok_iff config).mp hvalid
    have hrange := husable.range_lt
    exact ⟨(joinsEdges_of_run hrun).lt_period husable, by omega⟩

end Result

section Kept

variable {σ : Type} [Shifter σ] [PulseSource σ]

/-- A relation between an earlier world and a later one that the shifter and the pulse source keep
to. -/
structure Keeps (related : σ → σ → Prop) : Prop where
  refl : ∀ world, related world world
  trans : ∀ {world between later}, related world between → related between later →
    related world later
  command : ∀ channel phase world, related world (Shifter.command channel phase world)
  poll : ∀ channel world, related world (Shifter.poll channel world).2
  pulse : ∀ world, related world (PulseSource.pulse world).2

variable {related : σ → σ → Prop} (keeps : Keeps related)
include keeps

theorem Keeps.start {config : Config} {scan : Scan} {world started : σ}
    (h : start config world = .ok (scan, started)) : related world started := by
  rw [Scan.start] at h
  split at h
  · cases h
  · cases h
    exact keeps.command _ _ world

theorem Keeps.step (scan : Scan) (world : σ) : related world (scan.step world).2.2 := by
  have hpoll := keeps.poll scan.config.channel world
  rw [Scan.step]
  generalize Shifter.poll scan.config.channel world = settling at hpoll ⊢
  rcases settling with ⟨_ | _, polled⟩
  · have hpulse := keeps.trans hpoll (keeps.pulse polled)
    dsimp only
    split
    · exact hpulse
    · exact keeps.trans hpulse (keeps.command _ _ _)
  · exact hpoll

theorem Keeps.run {patience : Nat} {scan scan' : Scan} {world world' : σ}
    {result : Except Failure TransitionPhase}
    (h : run patience scan world = some (result, scan', world')) : related world world' := by
  induction patience generalizing scan world with
  | zero => cases h
  | succ patience ih =>
      have hstepped := keeps.step scan world
      rw [Scan.run] at h
      rcases hstep : scan.step world with ⟨_ | _ | transition, next, later⟩
      all_goals
        rw [hstep] at h hstepped
      · cases h
        exact hstepped
      · exact keeps.trans hstepped (ih h)
      · cases h
        exact hstepped

end Kept

section Untouched

variable {σ β : Type} [Shifter σ] [PulseSource σ]

/-- A view of the world that neither the shifter nor the pulse source changes. -/
structure Untouched (view : σ → β) : Prop where
  command : ∀ channel phase world, view (Shifter.command channel phase world) = view world
  poll : ∀ channel world, view (Shifter.poll channel world).2 = view world
  pulse : ∀ world, view (PulseSource.pulse world).2 = view world

variable {view : σ → β} (untouched : Untouched view)
include untouched

theorem Untouched.keeps : Keeps fun world later : σ => view later = view world where
  refl _ := rfl
  trans h hlater := hlater.trans h
  command := untouched.command
  poll := untouched.poll
  pulse := untouched.pulse

theorem Untouched.start {config : Config} {scan : Scan} {world started : σ}
    (h : start config world = .ok (scan, started)) : view started = view world :=
  untouched.keeps.start h

theorem Untouched.run {patience : Nat} {scan scan' : Scan} {world world' : σ}
    {result : Except Failure TransitionPhase}
    (h : run patience scan world = some (result, scan', world')) : view world' = view world :=
  untouched.keeps.run h

end Untouched

theorem untouched_store {δ : Type} [Shifter δ] [PulseSource δ] :
    Untouched (Node.store : Node δ → Store) where
  command _ _ _ := rfl
  poll _ _ := rfl
  pulse _ := rfl

end TimingNode.Proofs.ScanResult
