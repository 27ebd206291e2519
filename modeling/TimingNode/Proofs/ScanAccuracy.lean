import TimingNode.Proofs.CircularMidpoint
import TimingNode.Proofs.EdgeLocation
import TimingNode.Proofs.ScanPulses

namespace TimingNode.Proofs.ScanAccuracy

open TimingNode.Phase
open TimingNode.Scan
open TimingNode.Proofs.CircularMidpoint
open TimingNode.Proofs.CircularPhase
open TimingNode.Proofs.EdgeDetection
open TimingNode.Proofs.EdgeLocation
open TimingNode.Proofs.ScanPulses
open TimingNode.Proofs.ScanTuning

theorem exists_phase?_after {config : Config} (husable : Usable config) (polarity : Polarity)
    (flip : Nat → Bool) (edge : Int) (width count : Nat) {position : Nat → Int} {slack : Nat}
    (hgrid : Grid config.step.toNat slack position) (hslack : slack ≤ runLength config)
    (hactive : runLength config + slack ≤ width)
    (hinactive : runLength config + slack + width ≤ config.period.toNat)
    (hflip : ∀ i, i < config.steps → (flip i == polarity.activeLevel) =
      level edge width config.period.toNat (position i))
    (hcount : config.steps ≤ count) :
    ∃ found lag cycles : Int,
      (after (.create polarity config) flip (cursorAt config) count).phase? = some found ∧
      lag + config.period.toNat * cycles = edge - found ∧
      1 - (slack : Int) ≤ lag ∧ lag ≤ config.step.toNat := by
  have hrange := husable.range_lt
  have hrangeEq := husable.range_eq
  have hsteps := range_le_steps_mul husable
  obtain ⟨found, lag, cycles, hfound, hlag, hlow, hhigh⟩ :=
    exists_track_found edge config.steps hgrid husable.step_pos
      husable.threshold_pos hactive hinactive (by rw [← runLength]; omega) (by
        intro i hi
        have hlt := (lt_steps_iff husable i).mp hi
        omega)
  refine ⟨found, lag, cycles, ?_, hlag, hlow, hhigh⟩
  obtain ⟨-, -, -, hdetection⟩ := after_create polarity config flip (cursorAt config) count
  have htrack : track config.threshold (Word.clampSigned 32 config.backdate)
      (fun i => flip i == polarity.activeLevel) (cursorAt config) config.steps = .found found := by
    rw [husable.clampSigned_backdate, ← hfound]
    exact track_congr hflip fun i hi => cursorAt_of_lt_steps husable hi
  rw [track_found_mono hcount htrack] at hdetection
  rw [EdgeDetector.phase?, hdetection]
  rfl

theorem not_level (edge : Int) {width period : Nat} (hpos : 0 < period) (hwidth : width ≤ period)
    (x : Int) : (!level edge width period x) = level (edge + width) (period - width) period x := by
  obtain ⟨offset, cycles, hoffset, hlow, hhigh⟩ :=
    exists_add_mul (x - edge) (by omega : (0 : Int) < period)
  by_cases hactive : offset < width
  · rw [level_eq_true offset cycles hoffset hlow hactive hwidth]
    symm
    refine level_eq_false (offset - width + period) (cycles - 1) ?_ (by omega) (by omega)
    rw [Int.mul_sub]
    omega
  · rw [level_eq_false offset cycles hoffset (by omega) hhigh]
    symm
    exact level_eq_true (offset - width) cycles (by omega) (by omega) (by omega) (by omega)

theorem exists_phases_after {config : Config} (husable : Usable config) (flip : Nat → Bool)
    (edge : Int) (width : Nat) {position : Nat → Int} {slack : Nat}
    (hgrid : Grid config.step.toNat slack position) (hslack : slack ≤ runLength config)
    (hactive : runLength config + slack ≤ width)
    (hinactive : runLength config + slack + width ≤ config.period.toNat)
    (hflip : ∀ i, i < config.steps →
      flip i = level edge width config.period.toNat (position i)) :
    ∃ rising falling lagRising lagFalling cyclesRising cyclesFalling : Int,
      (after (.create .rising config) flip (cursorAt config) (config.steps + 1)).phase? =
        some rising ∧
      (after (.create .falling config) flip (cursorAt config) (config.steps + 1)).phase? =
        some falling ∧
      (lagRising + config.period.toNat * cyclesRising = edge - rising ∧
        1 - (slack : Int) ≤ lagRising ∧ lagRising ≤ config.step.toNat) ∧
      lagFalling + config.period.toNat * cyclesFalling = edge + width - falling ∧
        1 - (slack : Int) ≤ lagFalling ∧ lagFalling ≤ config.step.toNat := by
  have hpos : 0 < config.period.toNat := Nat.zero_lt_of_lt husable.step_lt
  have hflipRising : ∀ i, i < config.steps → (flip i == Polarity.rising.activeLevel) =
      level edge width config.period.toNat (position i) := by
    intro i hi
    rw [hflip i hi]
    exact beq_true _
  have hflipFalling : ∀ i, i < config.steps → (flip i == Polarity.falling.activeLevel) =
      level (edge + width) (config.period.toNat - width) config.period.toNat (position i) := by
    intro i hi
    rw [hflip i hi, ← not_level edge hpos (by omega)]
    exact beq_false _
  obtain ⟨rising, lagRising, cyclesRising, hrising, hlagRising⟩ :=
    exists_phase?_after husable .rising flip edge width (config.steps + 1) hgrid hslack hactive
      hinactive hflipRising (Nat.le_succ _)
  obtain ⟨falling, lagFalling, cyclesFalling, hfalling, hlagFalling⟩ :=
    exists_phase?_after husable .falling flip (edge + width) (config.period.toNat - width)
      (config.steps + 1) hgrid hslack (by omega) (by omega) hflipFalling (Nat.le_succ _)
  exact ⟨rising, falling, lagRising, lagFalling, cyclesRising, cyclesFalling, hrising, hfalling,
    hlagRising, hlagFalling⟩

/-- A signal that is high for half a period from `edge` on gives a transition phase at most one step
before the edge. -/
theorem exists_verdictAfter {config : Config} (husable : Usable config) (flip : Nat → Bool)
    (edge : Int) {position : Nat → Int} {slack : Nat}
    (hgrid : Grid config.step.toNat slack position) (hslack : slack ≤ runLength config)
    (hrun : 2 * (runLength config + slack) ≤ config.period.toNat)
    (hflip : ∀ i, i < config.steps → flip i =
      level edge (config.period.toNat / 2) config.period.toNat (position i)) :
    ∃ transition : TransitionPhase,
      verdictAfter config flip (config.steps + 1) = .ok transition ∧
      transition.picoseconds < config.period.toNat ∧
      ∃ lag cycles : Int,
        lag + config.period.toNat * cycles = edge - transition.picoseconds ∧
        1 - (slack : Int) ≤ lag ∧ lag ≤ config.step.toNat := by
  have hpos : 0 < config.period.toNat := Nat.zero_lt_of_lt husable.step_lt
  have hword : config.period.toNat < 1 <<< 31 := by have := husable.range_lt; omega
  have hstep := husable.step_le_runLength
  have hstepPos := husable.step_pos
  obtain ⟨rising, falling, lagRising, lagFalling, cyclesRising, cyclesFalling, hrising, hfalling,
      ⟨hlagRising, hlowRising, hhighRising⟩, hlagFalling, hlowFalling, hhighFalling⟩ :=
    exists_phases_after husable flip edge (config.period.toNat / 2) hgrid hslack (by omega)
      (by omega) hflip
  refine ⟨midpoint rising falling config.period.toNat, ?_,
    picoseconds_midpoint_lt rising falling hpos hword,
    exists_midpoint_lag hpos husable.even hword hlagRising hlagFalling hlowRising hlowFalling
      hhighRising hhighFalling (by omega)⟩
  rw [verdictAfter, hrising, hfalling]

end TimingNode.Proofs.ScanAccuracy
