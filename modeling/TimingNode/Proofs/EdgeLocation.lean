import Mathlib.Data.Nat.Find
import TimingNode.Proofs.CircularPhase
import TimingNode.Proofs.EdgeDetection

namespace TimingNode.Proofs.EdgeLocation

open TimingNode.Scan
open TimingNode.Proofs.CircularPhase
open TimingNode.Proofs.EdgeDetection

/-- The level of a signal that becomes active at `edge` and stays so for `width`. -/
def level (edge : Int) (width period : Nat) (x : Int) : Bool :=
  decide ((x - edge) % period < width)

/-- Sampling positions that never move backwards and fall short of whole multiples of the step by
at most `slack`. -/
structure Grid (step slack : Nat) (position : Nat → Int) : Prop where
  low : ∀ i : Nat, ((i * step : Nat) : Int) - slack ≤ position i
  high : ∀ i : Nat, position i ≤ (i * step : Nat)
  mono : ∀ i : Nat, position i ≤ position (i + 1)

theorem Grid.le {step slack : Nat} {position : Nat → Int} (hgrid : Grid step slack position)
    {i j : Nat} (hij : i ≤ j) : position i ≤ position j := by
  induction j with
  | zero =>
      obtain rfl := Nat.le_zero.mp hij
      exact Int.le_refl _
  | succ j ih =>
      rcases Nat.lt_or_eq_of_le hij with hlt | rfl
      · exact Int.le_trans (ih (by omega)) (hgrid.mono j)
      · exact Int.le_refl _

theorem grid_multiples (step : Nat) : Grid step 0 fun i => (i * step : Nat) where
  low i := by omega
  high i := Int.le_refl _
  mono i := by
    have hsucc := Nat.succ_mul i step
    simp only [Nat.succ_eq_add_one] at hsucc
    omega

theorem level_eq_true {edge x : Int} {width period : Nat} (offset cycles : Int)
    (hx : offset + period * cycles = x - edge) (hlow : 0 ≤ offset) (hhigh : offset < width)
    (hwidth : width ≤ period) : level edge width period x = true := by
  rw [level, emod_of_add_mul cycles hx hlow (by omega)]
  exact decide_eq_true hhigh

theorem level_eq_false {edge x : Int} {width period : Nat} (offset cycles : Int)
    (hx : offset + period * cycles = x - edge) (hlow : width ≤ offset) (hhigh : offset < period) :
    level edge width period x = false := by
  rw [level, emod_of_add_mul cycles hx (by omega) hhigh]
  exact decide_eq_false (by omega)

theorem exists_lag {step slack width period index : Nat} {position : Nat → Int} {edge : Int}
    (hgrid : Grid step slack position) (hperiod : 0 < period)
    (hbefore : level edge width period (position index) = false)
    (hafter : level edge width period (position (index + 1)) = true) :
    ∃ lag cycles : Int, lag + period * cycles = edge - (index * step : Nat) ∧
      1 - (slack : Int) ≤ lag ∧ lag ≤ step := by
  have hlow := hgrid.low index
  have hhigh := hgrid.high index
  have hnext := hgrid.high (index + 1)
  have hmono := hgrid.mono index
  rw [Nat.succ_mul] at hnext
  obtain ⟨offset, cycles, hoffset, hoffsetLow, hoffsetHigh⟩ :=
    exists_add_mul (position index - edge) (by omega : (0 : Int) < period)
  rw [level, emod_of_add_mul cycles hoffset hoffsetLow hoffsetHigh] at hbefore
  have hinactive := of_decide_eq_false hbefore
  by_cases hsame : offset + (position (index + 1) - position index) < period
  · have hstill : level edge width period (position (index + 1)) = false :=
      level_eq_false (offset + (position (index + 1) - position index)) cycles
        (by omega) (by omega) hsame
    rw [hstill] at hafter
    cases hafter
  · refine ⟨period - offset + (position index - (index * step : Nat)), -cycles - 1, ?_, ?_, ?_⟩
    · rw [Int.mul_sub, Int.mul_neg]
      omega
    · omega
    · omega

theorem exists_runs {step slack width period run : Nat} {position : Nat → Int} (edge : Int)
    (hgrid : Grid step slack position) (hstep : 0 < step) (hrun : 0 < run)
    (hactive : run * step + slack ≤ width) (hinactive : run * step + slack + width ≤ period) :
    ∃ start,
      (∀ i, start ≤ i → i < start + run → level edge width period (position i) = false) ∧
      (∀ i, start + run ≤ i → i < start + run + run →
        level edge width period (position i) = true) ∧
      (start + run + run) * step < period + 2 * (run * step) + slack + step := by
  have hrunStep : 0 < run * step := Nat.mul_pos hrun hstep
  obtain ⟨rest, cycles, hrest, hrestLow, hrestHigh⟩ :=
    exists_add_mul (edge - (run * step : Nat)) (by omega : (0 : Int) < period)
  obtain ⟨target, htarget⟩ : ∃ target : Int, target = (run * step : Nat) + rest := ⟨_, rfl⟩
  have hreached : ∃ i, target ≤ position i := by
    refine ⟨(target + slack).toNat, ?_⟩
    have hposition := hgrid.low (target + slack).toNat
    have hgrow := Nat.le_mul_of_pos_right (target + slack).toNat hstep
    omega
  obtain ⟨crossing, hcrossing⟩ : ∃ crossing, crossing = Nat.find hreached := ⟨_, rfl⟩
  have hat : target ≤ position crossing := hcrossing ▸ Nat.find_spec hreached
  have hbefore : ∀ i, i < crossing → position i < target := by
    intro i hi
    exact Int.not_le.mp (Nat.find_min hreached (hcrossing ▸ hi))
  have hlate : run ≤ crossing := by
    refine Nat.le_of_mul_le_mul_right ?_ hstep
    have hposition := hgrid.high crossing
    omega
  obtain ⟨start, rfl⟩ : ∃ start, crossing = start + run := ⟨crossing - run, by omega⟩
  have hlast := hbefore (start + run - 1) (by omega)
  have hlastLow := hgrid.low (start + run - 1)
  have hcrossingHigh := hgrid.high (start + run)
  have hsplit : (start + run) * step = (start + run - 1) * step + step := by
    rw [← Nat.succ_mul]
    congr 1
    omega
  have hstart : (start + run) * step = start * step + run * step := Nat.add_mul _ _ _
  refine ⟨start, ?_, ?_, ?_⟩
  · intro i hlow hhigh
    have hposition := hgrid.low i
    have hmultiple := Nat.mul_le_mul_right step hlow
    have hearly := hbefore i hhigh
    refine level_eq_false (position i - target + period) (-cycles - 1) ?_ ?_ ?_
    · rw [Int.mul_sub, Int.mul_neg]
      omega
    · omega
    · omega
  · intro i hlow hhigh
    have hposition := hgrid.high i
    have hmultiple := Nat.mul_le_mul_right step (by omega : i ≤ start + run - 1 + run)
    rw [Nat.add_mul] at hmultiple
    have hlater := hgrid.le hlow
    refine level_eq_true (position i - target) (-cycles) ?_ ?_ ?_ ?_
    · rw [Int.mul_neg]
      omega
    · omega
    · omega
    · omega
  · rw [Nat.add_mul]
    omega

/-- A detector that samples a periodic signal at the steps of a scan finds its edge, and dates it at
most one step before. -/
theorem exists_track_found {threshold : UInt32} {step slack width period : Nat}
    {position : Nat → Int} (edge : Int) (count : Nat) (hgrid : Grid step slack position)
    (hstep : 0 < step) (hthreshold : 0 < threshold.toNat)
    (hactive : threshold.toNat * step + slack ≤ width)
    (hinactive : threshold.toNat * step + slack + width ≤ period)
    (hcount : period + 2 * (threshold.toNat * step) + slack ≤ count * step)
    (hword : ∀ i, i < count → i * step < 1 <<< 31) :
    ∃ found lag cycles : Int,
      track threshold (threshold.toNat * step : Nat)
        (fun i => level edge width period (position i)) (fun i => (i * step : Nat)) count =
          .found found ∧
      lag + period * cycles = edge - found ∧ 1 - (slack : Int) ≤ lag ∧ lag ≤ step := by
  have hrunStep : 0 < threshold.toNat * step := Nat.mul_pos hthreshold hstep
  obtain ⟨start, hbefore, hafter, hend⟩ :=
    exists_runs edge hgrid hstep hthreshold hactive hinactive
  have hinTime : start + threshold.toNat + threshold.toNat ≤ count := by
    refine Nat.le_of_lt_succ (Nat.lt_of_mul_lt_mul_right (a := step) ?_)
    rw [Nat.succ_mul]
    omega
  obtain ⟨found, hfound⟩ := track_found_of_runs (threshold.toNat * step : Nat)
    (fun i => ((i * step : Nat) : Int)) hthreshold hbefore hafter
  have hfoundAll := track_found_mono hinTime hfound
  have hexplains := explains_track (threshold.toNat * step : Nat)
    (fun i => level edge width period (position i)) (fun i => ((i * step : Nat) : Int))
    hthreshold count
  rw [hfoundAll] at hexplains
  obtain ⟨last, hlast, hrun, hinactiveLast, hactiveLast, hedge⟩ := hexplains
  obtain ⟨lag, cycles, hlag, hlagLow, hlagHigh⟩ := exists_lag hgrid (by omega) hinactiveLast
    (hactiveLast (last - threshold.toNat + 1) (by omega) (by omega))
  have hmultiple : (last - threshold.toNat) * step = last * step - threshold.toNat * step :=
    Nat.sub_mul _ _ _
  have hle := Nat.mul_le_mul_right step hrun
  have hlastWord := hword last hlast
  dsimp only at hedge
  rw [Word.clampSigned_of_mem (by omega) (by omega)] at hedge
  exact ⟨found, lag, cycles, hfoundAll, by omega, hlagLow, hlagHigh⟩

end TimingNode.Proofs.EdgeLocation
