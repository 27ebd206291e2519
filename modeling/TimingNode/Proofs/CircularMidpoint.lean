import TimingNode.Proofs.CircularPhase
import TimingNode.Scan.Midpoint

/-!
The transition phase of two edges as the middle of the two samples of the rising edge that they are.
It lies as far before the true edge as the samples do, and it does not depend on where the period is
taken to begin.
-/

namespace TimingNode.Proofs.CircularMidpoint

open TimingNode.Phase
open TimingNode.Scan
open TimingNode.Proofs.CircularPhase

theorem two_mul_tdiv_two (x : Int) : (2 * x.tdiv 2 - x).natAbs ≤ 1 := by
  rcases Int.le_total 0 x with hx | hx
  · rw [Int.tdiv_eq_ediv_of_nonneg hx]
    omega
  · obtain ⟨y, rfl⟩ : ∃ y, x = -y := ⟨-x, by omega⟩
    rw [Int.neg_tdiv, Int.tdiv_eq_ediv_of_nonneg (by omega)]
    omega

theorem picoseconds_midpoint (rising falling : Int) {period : Nat} (hpos : 0 < period)
    (hperiod : period < 1 <<< 31) :
    (Scan.midpoint rising falling period).picoseconds =
      fold (((fold rising period : Int) +
        secondSample (fold rising period) (fold falling period) (period / 2 : Nat)).tdiv 2)
        period := by
  rw [Scan.midpoint]
  exact TransitionPhase.ofFolded_of_lt (Nat.lt_trans (fold_lt _ hpos) hperiod)

theorem picoseconds_midpoint_lt (rising falling : Int) {period : Nat} (hpos : 0 < period)
    (hperiod : period < 1 <<< 31) : (Scan.midpoint rising falling period).picoseconds < period := by
  rw [picoseconds_midpoint rising falling hpos hperiod]
  exact fold_lt _ hpos

theorem exists_midpoint_eq {period : Nat} (rising falling excess cycles : Int)
    (hpos : 0 < period) (heven : period % 2 = 0) (hperiod : period < 1 <<< 31)
    (hexcess : (period / 2 : Nat) + excess + period * cycles = falling - rising)
    (hlow : -((period / 2 : Nat) : Int) < excess) (hhigh : excess < (period / 2 : Nat)) :
    ∃ shift : Int, (2 * shift - excess).natAbs ≤ 1 ∧
      (Scan.midpoint rising falling period).picoseconds = fold (rising + shift) period := by
  have hperiodPos : (0 : Int) < period := by omega
  obtain ⟨low, turns, hrising, hrisingLow, hrisingHigh⟩ := exists_add_mul rising hperiodPos
  have hfoldRising : (fold rising period : Int) = low :=
    fold_of_add_mul turns hrising hrisingLow hrisingHigh
  have hsecond : secondSample (fold rising period) (fold falling period) (period / 2 : Nat) =
      low + excess := by
    by_cases hwrap : low + (period / 2 : Nat) + excess < period
    · have hfoldFalling : (fold falling period : Int) = low + (period / 2 : Nat) + excess := by
        refine fold_of_add_mul (turns + cycles) ?_ (by omega) hwrap
        rw [Int.mul_add]
        omega
      rw [hfoldRising, hfoldFalling, secondSample, if_pos (by omega)]
      omega
    · have hfoldFalling : (fold falling period : Int) =
          low + (period / 2 : Nat) + excess - period := by
        refine fold_of_add_mul (turns + cycles + 1) ?_ (by omega) (by omega)
        rw [Int.mul_add, Int.mul_add]
        omega
      rw [hfoldRising, hfoldFalling, secondSample, if_neg (by omega), if_pos (by omega)]
      omega
  refine ⟨(low + (low + excess)).tdiv 2 - low, ?_, ?_⟩
  · have hmean := two_mul_tdiv_two (low + (low + excess))
    omega
  · rw [picoseconds_midpoint rising falling hpos hperiod, hsecond, hfoldRising,
      show rising + ((low + (low + excess)).tdiv 2 - low) =
        (low + (low + excess)).tdiv 2 + turns * period by rw [Int.mul_comm turns]; omega,
      fold_add_mul]

/-- If both edges are dated too early by less than half a period, the middle is dated too early by
some lag between theirs. -/
theorem exists_midpoint_lag {rising falling edge lagRising lagFalling least greatest : Int}
    {cyclesRising cyclesFalling : Int} {period : Nat} (hpos : 0 < period)
    (heven : period % 2 = 0) (hperiod : period < 1 <<< 31)
    (hrising : lagRising + period * cyclesRising = edge - rising)
    (hfalling : lagFalling + period * cyclesFalling = edge + (period / 2 : Nat) - falling)
    (hleastRising : least ≤ lagRising) (hleastFalling : least ≤ lagFalling)
    (hgreatestRising : lagRising ≤ greatest) (hgreatestFalling : lagFalling ≤ greatest)
    (hclose : greatest - least < (period / 2 : Nat)) :
    ∃ lag cycles : Int, lag + period * cycles =
        edge - (Scan.midpoint rising falling period).picoseconds ∧
      least ≤ lag ∧ lag ≤ greatest := by
  obtain ⟨shift, hshift, hmidpoint⟩ := exists_midpoint_eq rising falling (lagRising - lagFalling)
    (cyclesRising - cyclesFalling) hpos heven hperiod (by rw [Int.mul_sub]; omega) (by omega)
    (by omega)
  obtain ⟨rest, turns, hrest, hrestLow, hrestHigh⟩ :=
    exists_add_mul (rising + shift) (by omega : (0 : Int) < period)
  have hfold := fold_of_add_mul turns hrest hrestLow hrestHigh
  refine ⟨lagRising - shift, cyclesRising + turns, ?_, by omega, by omega⟩
  rw [hmidpoint, hfold, Int.mul_add]
  omega

theorem picoseconds_midpoint_of_coincident {rising falling : Int} {period : Nat}
    (hpos : 0 < period) (hperiod : period < 1 <<< 31) (h : fold (falling - rising) period = 0) :
    (Scan.midpoint rising falling period).picoseconds = fold rising period := by
  have hdouble : ((fold rising period : Int) + fold rising period).tdiv 2 = fold rising period := by
    rw [Int.tdiv_eq_ediv_of_nonneg (by omega)]
    omega
  rw [picoseconds_midpoint rising falling hpos hperiod, fold_eq_of_fold_sub_eq_zero hpos h,
    secondSample, if_neg (Int.lt_irrefl _), if_neg (Int.lt_irrefl _), hdouble]
  exact fold_of_lt (fold_lt rising hpos)

theorem exists_shift_of_apart {rising falling : Int} {period : Nat} (hpos : 0 < period)
    (heven : period % 2 = 0) (hperiod : period < 1 <<< 31)
    (h : fold (falling - rising) period ≠ 0) :
    ∃ shift : Int,
      (2 * shift - ((fold (falling - rising) period : Int) - (period / 2 : Nat))).natAbs ≤ 1 ∧
      (Scan.midpoint rising falling period).picoseconds = fold (rising + shift) period := by
  have hlt := fold_lt (falling - rising) hpos
  obtain ⟨rest, cycles, hrest, hlow, hhigh⟩ :=
    exists_add_mul (falling - rising) (by omega : (0 : Int) < period)
  have hfold := fold_of_add_mul cycles hrest hlow hhigh
  exact exists_midpoint_eq rising falling
    ((fold (falling - rising) period : Int) - (period / 2 : Nat)) cycles hpos heven hperiod
    (by omega) (by omega) (by omega)

/-- Turning both edges turns the middle along, but for a picosecond of rounding. -/
theorem exists_slip_of_turn (rising falling turn : Int) {period : Nat} (hpos : 0 < period)
    (heven : period % 2 = 0) (hperiod : period < 1 <<< 31) :
    ∃ slip : Int, slip.natAbs ≤ 1 ∧
      (Scan.midpoint (rising + turn) (falling + turn) period).picoseconds =
        fold ((Scan.midpoint rising falling period).picoseconds + turn + slip) period := by
  have hdistance : falling + turn - (rising + turn) = falling - rising := by omega
  by_cases hcoincident : fold (falling - rising) period = 0
  · refine ⟨0, by decide, ?_⟩
    rw [picoseconds_midpoint_of_coincident hpos hperiod (by rw [hdistance]; exact hcoincident),
      picoseconds_midpoint_of_coincident hpos hperiod hcoincident, Int.add_zero,
      fold_fold_add rising turn hpos]
  · obtain ⟨shift, hshift, hmidpoint⟩ := exists_shift_of_apart hpos heven hperiod hcoincident
    obtain ⟨shift', hshift', hturned⟩ :=
      exists_shift_of_apart hpos heven hperiod (by rw [hdistance]; exact hcoincident)
    rw [hdistance] at hshift'
    refine ⟨shift' - shift, by omega, ?_⟩
    rw [hturned, hmidpoint, Int.add_assoc _ turn (shift' - shift), fold_fold_add _ _ hpos]
    congr 1
    omega

/-- The middle of two edges, wherever the period is taken to begin. Edges at one phase have that
phase for their middle. Any others have it above the rising edge by half of what their distance
exceeds half a period by, rounded either way. Whole periods do not move it, and it turns along with
both edges to within a picosecond. -/
theorem midpoint_circular (rising falling : Int) {period : Nat} (htwo : 2 ≤ period)
    (heven : period % 2 = 0) (hperiod : period < 1 <<< 31) :
    (Scan.midpoint rising falling period).picoseconds < period ∧
      (fold (falling - rising) period = 0 →
        (Scan.midpoint rising falling period).picoseconds = fold rising period) ∧
      (fold (falling - rising) period ≠ 0 → ∃ shift : Int,
        (2 * shift - ((fold (falling - rising) period : Int) - (period / 2 : Nat))).natAbs ≤ 1 ∧
        (Scan.midpoint rising falling period).picoseconds =
          fold (fold rising period + shift) period) ∧
      (∀ turns turns' : Int,
        Scan.midpoint (rising + turns * period) (falling + turns' * period) period =
          Scan.midpoint rising falling period) ∧
      ∀ turn : Int, ∃ slip : Int, slip.natAbs ≤ 1 ∧
        (Scan.midpoint (rising + turn) (falling + turn) period).picoseconds =
          fold ((Scan.midpoint rising falling period).picoseconds + turn + slip) period := by
  have hpos : 0 < period := Nat.lt_of_lt_of_le Nat.two_pos htwo
  refine ⟨picoseconds_midpoint_lt rising falling hpos hperiod,
    picoseconds_midpoint_of_coincident hpos hperiod, ?_, ?_,
    fun turn => exists_slip_of_turn rising falling turn hpos heven hperiod⟩
  · intro hapart
    obtain ⟨shift, hshift, hmidpoint⟩ := exists_shift_of_apart hpos heven hperiod hapart
    exact ⟨shift, hshift, by rw [hmidpoint, fold_fold_add _ _ hpos]⟩
  · intro turns turns'
    rw [Scan.midpoint, Scan.midpoint, fold_add_mul, fold_add_mul]

/-- Edges whose mean lies below zero: it is rounded up there, and down after a turn. -/
theorem midpoint_circular_below_zero :
    (Scan.midpoint 0 3 8).picoseconds < 8 ∧
      (∃ shift : Int, (2 * shift - ((3 : Nat) - (4 : Nat) : Int)).natAbs ≤ 1 ∧
        (Scan.midpoint 0 3 8).picoseconds = fold ((0 : Nat) + shift) 8) ∧
      ∃ slip : Int, slip.natAbs ≤ 1 ∧
        (Scan.midpoint (0 + 1) (3 + 1) 8).picoseconds =
          fold ((Scan.midpoint 0 3 8).picoseconds + 1 + slip) 8 := by
  obtain ⟨hlt, -, hapart, -, hturn⟩ :=
    midpoint_circular 0 3 (by decide : 2 ≤ 8) (by decide) (by decide)
  exact ⟨hlt, hapart (by decide), hturn 1⟩

end TimingNode.Proofs.CircularMidpoint
