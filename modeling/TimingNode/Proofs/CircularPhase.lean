import TimingNode.Phase
import TimingNode.Timestamp.Reception

/-!
Residues modulo a reference period. A remainder is found by naming the number of whole periods,
so that what is left is linear arithmetic.
-/

namespace TimingNode.Proofs.CircularPhase

open TimingNode.Phase
open TimingNode.Reception

/-- The shorter way round the period from one phase to another. -/
def distance (x y : Int) (period : Nat) : Nat :=
  min (fold (x - y) period) (fold (y - x) period)

theorem emod_of_add_mul {x rest period : Int} (cycles : Int) (hx : rest + period * cycles = x)
    (hlow : 0 ≤ rest) (hhigh : rest < period) : x % period = rest :=
  ((Int.ediv_emod_unique (by omega)).mpr ⟨hx, hlow, hhigh⟩).2

theorem ediv_of_add_mul {x rest period : Int} (cycles : Int) (hx : rest + period * cycles = x)
    (hlow : 0 ≤ rest) (hhigh : rest < period) : x / period = cycles :=
  ((Int.ediv_emod_unique (by omega)).mpr ⟨hx, hlow, hhigh⟩).1

theorem exists_add_mul (x : Int) {period : Int} (hperiod : 0 < period) :
    ∃ rest cycles, rest + period * cycles = x ∧ 0 ≤ rest ∧ rest < period :=
  ⟨x % period, x / period, Int.emod_add_mul_ediv x period,
    Int.emod_nonneg x (by omega), Int.emod_lt_of_pos x hperiod⟩

theorem fold_of_add_mul {x rest : Int} {period : Nat} (cycles : Int)
    (hx : rest + period * cycles = x) (hlow : 0 ≤ rest) (hhigh : rest < period) :
    (fold x period : Int) = rest := by
  rw [cast_fold x (by omega)]
  exact emod_of_add_mul cycles hx hlow hhigh

theorem fold_fold_add (x y : Int) {period : Nat} (hperiod : 0 < period) :
    fold (fold x period + y) period = fold (x + y) period := by
  rw [← Int.natCast_inj, cast_fold _ hperiod, cast_fold _ hperiod, cast_fold _ hperiod,
    Int.emod_add_emod]

theorem fold_eq_of_fold_sub_eq_zero {x y : Int} {period : Nat} (hperiod : 0 < period)
    (h : fold (y - x) period = 0) : fold y period = fold x period := by
  have hzero := cast_fold (y - x) hperiod
  rw [h] at hzero
  rw [← Int.natCast_inj, cast_fold _ hperiod, cast_fold _ hperiod]
  exact Int.emod_eq_emod_iff_emod_sub_eq_zero.mpr hzero.symm

theorem emod_sub_of_add_mul {x rest origin period : Int} (cycles : Int)
    (hx : rest + period * cycles = x) (hlow : 0 ≤ rest) (hhigh : rest < period)
    (horiginLow : 0 ≤ origin) (horiginHigh : origin < period) :
    (x - origin) % period =
      if origin ≤ rest then rest - origin else rest - origin + period := by
  split
  · exact emod_of_add_mul cycles (by omega) (by omega) (by omega)
  · refine emod_of_add_mul (cycles - 1) ?_ (by omega) (by omega)
    rw [Int.mul_sub]
    omega

theorem lt_distance {x y rest : Int} {period margin : Nat} (cycles : Int)
    (hrest : rest + period * cycles = x - y) (hlow : margin < rest)
    (hhigh : rest + margin < period) : margin < distance x y period := by
  have hforward : (fold (x - y) period : Int) = rest :=
    fold_of_add_mul cycles hrest (by omega) (by omega)
  have hbackward : (fold (y - x) period : Int) = period - rest := by
    refine fold_of_add_mul (-cycles - 1) ?_ (by omega) (by omega)
    rw [Int.mul_sub, Int.mul_neg]
    omega
  rw [distance]
  omega

theorem insideWindow_iff {period : Nat} {x : Int} (base width : Int) (hwidth : 0 < width)
    (hshort : width < period) (hlow : 0 ≤ x) (hhigh : x < period) :
    insideWindow (base % period) ((base + width) % period) x = true ↔
      (x - base) % period ≤ width := by
  obtain ⟨low, cycles, hbase, hlow0, hlowP⟩ := exists_add_mul base (by omega : (0 : Int) < period)
  have hbaseMod : base % period = low := emod_of_add_mul cycles hbase hlow0 hlowP
  have hend : (base + width) % period = if low + width < period then low + width
      else low + width - period := by
    split
    · exact emod_of_add_mul cycles (by omega) (by omega) (by omega)
    · refine emod_of_add_mul (cycles + 1) ?_ (by omega) (by omega)
      rw [Int.mul_add]
      omega
  have hoffset : (x - base) % period = if low ≤ x then x - low else x - low + period := by
    rw [show x - base = x + period * -cycles - low by rw [Int.mul_neg]; omega]
    exact emod_sub_of_add_mul (-cycles) rfl hlow hhigh hlow0 hlowP
  rw [hbaseMod, hend, hoffset, insideWindow]
  split <;> split <;> split <;> simp only [decide_eq_true_eq] <;> omega

end TimingNode.Proofs.CircularPhase
