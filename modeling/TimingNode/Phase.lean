namespace TimingNode.Phase

/-- The phase in `[0, period)` that differs from `phase` by whole periods; zero when the period
is zero. -/
def fold (phase : Int) (period : Nat) : Nat :=
  if period = 0 then 0 else (phase % period).toNat

theorem fold_zero_period (phase : Int) : fold phase 0 = 0 := by
  simp [fold]

theorem fold_lt (phase : Int) {period : Nat} (hperiod : 0 < period) :
    fold phase period < period := by
  have hlow := Int.emod_nonneg phase (by omega : (period : Int) ≠ 0)
  have hhigh := Int.emod_lt_of_pos phase (by omega : (0 : Int) < period)
  simp only [fold]
  split <;> omega

theorem cast_fold (phase : Int) {period : Nat} (hperiod : 0 < period) :
    (fold phase period : Int) = phase % period := by
  have hlow := Int.emod_nonneg phase (by omega : (period : Int) ≠ 0)
  simp only [fold]
  split <;> omega

theorem fold_add_mul (phase cycles : Int) (period : Nat) :
    fold (phase + cycles * period) period = fold phase period := by
  simp [fold]

theorem fold_of_lt {phase period : Nat} (h : phase < period) :
    fold (phase : Int) period = phase := by
  have hmod : ((phase : Int) % period) = phase :=
    Int.emod_eq_of_lt (by omega) (by omega)
  simp only [fold, hmod]
  split <;> omega

end TimingNode.Phase
