import TimingNode.Loop.Config
import TimingNode.Proofs.EdgeLocation

namespace TimingNode.Proofs.UnitConversion

open TimingNode.Loop
open TimingNode.Proofs.EdgeLocation

structure Usable (config : Config) : Prop where
  modulus_ge : 2 ≤ config.modulus.toNat
  modulus_le : config.modulus.toNat ≤ 1 <<< 24
  period_pos : 0 < config.period.toNat

theorem usable_of_validate {config : Config} (h : config.validate = .ok ()) : Usable config := by
  rw [Config.validate] at h
  split at h
  · cases h
  · split at h
    · cases h
    · rename_i hmodulus hperiod
      refine ⟨by omega, by omega, Nat.pos_of_ne_zero fun hzero => hperiod ?_⟩
      exact UInt32.toNat_inj.mp hzero

def quotient (numerator denominator : Nat) (x : Int) : Int :=
  (x * numerator).tdiv denominator

theorem quotient_natCast (numerator denominator x : Nat) :
    quotient numerator denominator x = (x * numerator / denominator : Nat) := by
  rw [quotient, ← Int.natCast_mul, ← Int.ofNat_tdiv]

theorem quotient_neg (numerator denominator : Nat) (x : Int) :
    quotient numerator denominator (-x) = -quotient numerator denominator x := by
  rw [quotient, Int.neg_mul, Int.neg_tdiv, quotient]

theorem scale_eq {numerator denominator : Nat} {x : Int} (hdenominator : 0 < denominator)
    (hproduct : Word.FitsSigned 64 (x * numerator)) :
    Config.scale numerator denominator x =
      Word.clampSigned 32 (quotient numerator denominator x) := by
  obtain ⟨hlow, hhigh⟩ := hproduct
  rw [Config.scale, Nat.max_eq_left hdenominator, Word.clampSigned_of_mem hlow hhigh, quotient]

theorem scale_natCast {numerator denominator x : Nat} (hdenominator : 0 < denominator)
    (hproduct : x * numerator < 1 <<< 63) (hquotient : x * numerator / denominator < 1 <<< 31) :
    Config.scale numerator denominator x = (x * numerator / denominator : Nat) := by
  have hfits : Word.FitsSigned 64 ((x : Int) * numerator) := by
    rw [← Int.natCast_mul, Word.FitsSigned]
    omega
  rw [scale_eq hdenominator hfits, quotient_natCast]
  obtain ⟨whole, hwhole⟩ : ∃ whole, whole = x * numerator / denominator := ⟨_, rfl⟩
  rw [← hwhole] at hquotient ⊢
  exact Word.clampSigned_of_mem (by omega) (by omega)

/-- The position of a step after a trip to tag units and back. -/
def roundTrip (config : Config) (phase : Nat) : Nat :=
  phase * config.modulus.toNat / config.period.toNat * config.period.toNat /
    config.modulus.toNat

theorem roundTrip_le {config : Config} (husable : Usable config) (phase : Nat) :
    roundTrip config phase ≤ phase := by
  have hmodulus := husable.modulus_ge
  have hunits := Nat.div_mul_le_self (phase * config.modulus.toNat) config.period.toNat
  calc
    roundTrip config phase ≤ phase * config.modulus.toNat / config.modulus.toNat :=
      Nat.div_le_div_right hunits
    _ = phase := Nat.mul_div_cancel _ (by omega)

/-- What the trip loses is less than one unit and one picosecond together. -/
theorem mul_lt_roundTrip_mul {config : Config} (husable : Usable config) (phase : Nat) :
    phase * config.modulus.toNat < roundTrip config phase * config.modulus.toNat +
      (config.period.toNat + config.modulus.toNat) := by
  have hmodulus := husable.modulus_ge
  have hunits := Nat.lt_div_mul_add (a := phase * config.modulus.toNat) husable.period_pos
  have hback := Nat.lt_div_mul_add
    (a := phase * config.modulus.toNat / config.period.toNat * config.period.toNat)
    (by omega : 0 < config.modulus.toNat)
  rw [roundTrip]
  omega

theorem le_roundTrip {config : Config} (husable : Usable config)
    (hperiod : config.period.toNat ≤ config.modulus.toNat) (phase : Nat) :
    phase ≤ roundTrip config phase + 1 := by
  have hlost := mul_lt_roundTrip_mul husable phase
  refine Nat.le_of_lt_succ (Nat.lt_of_mul_lt_mul_right (a := config.modulus.toNat) ?_)
  rw [Nat.succ_mul, Nat.succ_mul]
  omega

theorem roundTrip_mono (config : Config) {phase later : Nat} (hle : phase ≤ later) :
    roundTrip config phase ≤ roundTrip config later :=
  Nat.div_le_div_right (Nat.mul_le_mul_right _
    (Nat.div_le_div_right (Nat.mul_le_mul_right _ hle)))

theorem grid_roundTrip {config : Config} (husable : Usable config)
    (hperiod : config.period.toNat ≤ config.modulus.toNat) (step : Nat) :
    Grid step 1 fun i => (roundTrip config (i * step) : Nat) where
  low i := by
    have hle := le_roundTrip husable hperiod (i * step)
    omega
  high i := by
    have hle := roundTrip_le husable (i * step)
    omega
  mono i := Int.ofNat_le.mpr (roundTrip_mono config (Nat.mul_le_mul_right _ (Nat.le_succ i)))

theorem picosecondsOfUnits_unitsOfPicoseconds {config : Config} (husable : Usable config)
    (hperiod : config.period.toNat ≤ config.modulus.toNat) {phase : Nat}
    (hphase : phase < 4 * config.period.toNat) :
    config.picosecondsOfUnits (Int32.ofInt (config.unitsOfPicoseconds phase)).toInt =
      roundTrip config phase := by
  have hmodulus := husable.modulus_le
  have hmodulusPos := husable.modulus_ge
  have hpos := husable.period_pos
  have hproduct : phase * config.modulus.toNat <
      4 * config.modulus.toNat * config.period.toNat := by
    calc
      phase * config.modulus.toNat < 4 * config.period.toNat * config.modulus.toNat :=
        Nat.mul_lt_mul_of_pos_right hphase (by omega)
      _ = 4 * config.modulus.toNat * config.period.toNat := Nat.mul_right_comm _ _ _
  have hunits : phase * config.modulus.toNat / config.period.toNat <
      4 * config.modulus.toNat := (Nat.div_lt_iff_lt_mul hpos).mpr hproduct
  have hsquare : 4 * config.modulus.toNat * config.period.toNat ≤ 4 * 1 <<< 24 * 1 <<< 24 :=
    Nat.mul_le_mul (by omega) (by omega)
  have hround := roundTrip_le husable phase
  rw [Config.unitsOfPicoseconds, scale_natCast hpos (by omega) (by omega)]
  rw [roundTrip] at hround ⊢
  obtain ⟨units, hunitsEq⟩ : ∃ units,
      units = phase * config.modulus.toNat / config.period.toNat := ⟨_, rfl⟩
  have hback := Nat.div_mul_le_self (phase * config.modulus.toNat) config.period.toNat
  rw [← hunitsEq] at hunits hround hback ⊢
  rw [Int32.toInt_ofInt_of_le (by omega) (by omega), Config.picosecondsOfUnits,
    scale_natCast (by omega) (by omega) (by omega)]

end TimingNode.Proofs.UnitConversion
