import TimingNode.Proofs.UnitConversion

namespace TimingNode.Proofs.ConversionLaw

open TimingNode.Loop
open TimingNode.Word
open TimingNode.Proofs.UnitConversion

section Word

theorem fitsSigned_toInt (x : Int32) : FitsSigned 32 x.toInt :=
  ⟨x.le_toInt, x.toInt_lt⟩

theorem fitsSigned_mul {x : Int} (hx : FitsSigned 32 x) (n : UInt32) :
    FitsSigned 64 (x * n.toNat) := by
  obtain ⟨hlow, hhigh⟩ := hx
  have hn := n.toNat_lt
  have hproduct : (x * n.toNat).natAbs ≤ 1 <<< 31 * (1 <<< 32 - 1) := by
    rw [Int.natAbs_mul, Int.natAbs_natCast]
    exact Nat.mul_le_mul (by omega) (by omega)
  rw [FitsSigned]
  omega

theorem toInt_neg {x : Int32} (hx : Int32.minValue < x) : (-x).toInt = -x.toInt := by
  have hlow := Int32.lt_iff_toInt_lt.mp hx
  have hhigh := x.toInt_lt
  rw [Int32.toInt_minValue] at hlow
  rw [Int32.toInt_neg]
  exact Int.bmod_eq_of_le (by omega) (by omega)

end Word

section Scale

theorem scale_mono (numerator denominator : Nat) {x y : Int} (h : x ≤ y) :
    Config.scale numerator denominator x ≤ Config.scale numerator denominator y := by
  apply clampSigned_mono
  refine Int.tdiv_le_tdiv (by omega) (clampSigned_mono 64 ?_)
  exact Int.mul_le_mul_of_nonneg_right h (Int.natCast_nonneg numerator)

variable {numerator denominator : UInt32}

theorem scale_eq_quotient {x : Int} (hdenominator : 0 < denominator.toNat)
    (hx : FitsSigned 32 x)
    (hfits : FitsSigned 32 (quotient numerator.toNat denominator.toNat x)) :
    Config.scale numerator.toNat denominator.toNat x =
      quotient numerator.toNat denominator.toNat x := by
  obtain ⟨hlow, hhigh⟩ := hfits
  rw [scale_eq hdenominator (fitsSigned_mul hx numerator), clampSigned_of_mem hlow hhigh]

theorem scale_toInt_neg {x : Int32} (hdenominator : 0 < denominator.toNat)
    (hx : Int32.minValue < x)
    (hfits : FitsSigned 32 (quotient numerator.toNat denominator.toNat x.toInt))
    (hneg : FitsSigned 32 (quotient numerator.toNat denominator.toNat (-x).toInt)) :
    Config.scale numerator.toNat denominator.toNat (-x).toInt =
      -Config.scale numerator.toNat denominator.toNat x.toInt := by
  rw [scale_eq_quotient hdenominator (fitsSigned_toInt _) hneg,
    scale_eq_quotient hdenominator (fitsSigned_toInt _) hfits, toInt_neg hx, quotient_neg]

end Scale

section Back

theorem exists_roundTrip (config : Config) (x : Int) :
    let back := quotient config.period.toNat config.modulus.toNat
      (quotient config.modulus.toNat config.period.toNat x)
    ∃ phase : Nat, (x = phase ∧ back = roundTrip config phase) ∨
      (x = -phase ∧ back = -roundTrip config phase) := by
  obtain ⟨phase, rfl | rfl⟩ := Int.eq_nat_or_neg x
  · refine ⟨phase, Or.inl ⟨rfl, ?_⟩⟩
    rw [quotient_natCast, quotient_natCast, roundTrip]
  · refine ⟨phase, Or.inr ⟨rfl, ?_⟩⟩
    rw [quotient_neg, quotient_neg, quotient_natCast, quotient_natCast, roundTrip]

variable {config : Config} (husable : Usable config) {x : Int} (hx : FitsSigned 32 x)
  (hfits : FitsSigned 32 (quotient config.modulus.toNat config.period.toNat x))
include husable hx hfits

theorem unitsOfPicoseconds_eq :
    config.unitsOfPicoseconds x = quotient config.modulus.toNat config.period.toNat x :=
  scale_eq_quotient husable.period_pos hx hfits

theorem fitsSigned_back :
    FitsSigned 32 (quotient config.period.toNat config.modulus.toNat
      (config.unitsOfPicoseconds x)) := by
  rw [unitsOfPicoseconds_eq husable hx hfits]
  obtain ⟨hlow, hhigh⟩ := hx
  -- A bound on the size alone would not do: the least number of a word has no opposite in it.
  obtain ⟨phase, ⟨rfl, hback⟩ | ⟨rfl, hback⟩⟩ := exists_roundTrip config x
  · have hle := roundTrip_le husable phase
    rw [hback, FitsSigned]
    omega
  · have hle := roundTrip_le husable phase
    rw [hback, FitsSigned]
    omega

theorem natAbs_back :
    (config.picosecondsOfUnits (config.unitsOfPicoseconds x)).natAbs =
      roundTrip config x.natAbs := by
  have hmodulus := husable.modulus_ge
  have hback := fitsSigned_back husable hx hfits
  rw [unitsOfPicoseconds_eq husable hx hfits] at hback ⊢
  rw [Config.picosecondsOfUnits, scale_eq_quotient (by omega) hfits hback]
  obtain ⟨phase, ⟨rfl, hround⟩ | ⟨rfl, hround⟩⟩ := exists_roundTrip config x
  · rw [hround, Int.natAbs_natCast, Int.natAbs_natCast]
  · rw [hround, Int.natAbs_neg, Int.natAbs_natCast, Int.natAbs_neg, Int.natAbs_natCast]

end Back

/-- The conversions of a tuning that a loop can use. No product leaves 64 bits, so a conversion
saturates where its rounded quotient leaves 32 bits. Both conversions keep the order; where neither
a number nor its opposite saturates, their conversions are opposites. A phase whose conversion does
not saturate does not on the way back either, and comes back no greater in size, and smaller by less
than the picoseconds of one tag unit and one more. -/
theorem conversions_keep_order_sign_and_size {config : Config}
    (hvalid : config.validate = .ok ()) :
    let modulus := config.modulus.toNat
    let period := config.period.toNat
    let units := config.unitsOfPicoseconds
    let picoseconds := config.picosecondsOfUnits
    (∀ x : Int32, FitsSigned 64 (x.toInt * modulus) ∧ FitsSigned 64 (x.toInt * period) ∧
      units x.toInt = clampSigned 32 (quotient modulus period x.toInt) ∧
      picoseconds x.toInt = clampSigned 32 (quotient period modulus x.toInt)) ∧
    (∀ x y : Int32, x ≤ y →
      units x.toInt ≤ units y.toInt ∧ picoseconds x.toInt ≤ picoseconds y.toInt) ∧
    (∀ x : Int32, Int32.minValue < x →
      (FitsSigned 32 (quotient modulus period x.toInt) →
        FitsSigned 32 (quotient modulus period (-x).toInt) →
        units (-x).toInt = -units x.toInt) ∧
      (FitsSigned 32 (quotient period modulus x.toInt) →
        FitsSigned 32 (quotient period modulus (-x).toInt) →
        picoseconds (-x).toInt = -picoseconds x.toInt)) ∧
    ∀ x : Int32, FitsSigned 32 (quotient modulus period x.toInt) →
      let back := picoseconds (units x.toInt)
      FitsSigned 64 (units x.toInt * period) ∧
      FitsSigned 32 (quotient period modulus (units x.toInt)) ∧
      back.natAbs ≤ x.toInt.natAbs ∧
      (x.toInt.natAbs - back.natAbs) * modulus < period + modulus ∧
      (period ≤ modulus → x.toInt.natAbs ≤ back.natAbs + 1) := by
  intro modulus period units picoseconds
  have husable := usable_of_validate hvalid
  have hperiod := husable.period_pos
  have hmodulus : 0 < config.modulus.toNat := by
    have hge := husable.modulus_ge
    omega
  refine ⟨?_, ?_, ?_, ?_⟩
  · intro x
    have hunits := fitsSigned_mul (fitsSigned_toInt x) config.modulus
    have hpicoseconds := fitsSigned_mul (fitsSigned_toInt x) config.period
    exact ⟨hunits, hpicoseconds, scale_eq hperiod hunits, scale_eq hmodulus hpicoseconds⟩
  · intro x y hle
    have htoInt := Int32.le_iff_toInt_le.mp hle
    exact ⟨scale_mono _ _ htoInt, scale_mono _ _ htoInt⟩
  · intro x hx
    exact ⟨scale_toInt_neg hperiod hx, scale_toInt_neg hmodulus hx⟩
  · intro x hfits back
    have hx := fitsSigned_toInt x
    have hback : back.natAbs = roundTrip config x.toInt.natAbs := natAbs_back husable hx hfits
    refine ⟨fitsSigned_mul (fitsSigned_clampSigned 32 _) config.period,
      fitsSigned_back husable hx hfits, ?_, ?_, ?_⟩
    · rw [hback]
      exact roundTrip_le husable _
    · have hle := Nat.mul_le_mul_right modulus (roundTrip_le husable x.toInt.natAbs)
      rw [hback, Nat.sub_mul]
      exact Nat.sub_lt_left_of_lt_add hle (mul_lt_roundTrip_mul husable _)
    · intro hle
      rw [hback]
      exact le_roundTrip husable hle _

/-- With eighty picoseconds to a unit the greatest number of units saturates, and half a unit is
lost on either side of zero. -/
theorem conversions_keep_order_sign_and_size_coarse :
    let config : Config := { modulus := 100, period := 8000 }
    (config.picosecondsOfUnits (3 : Int32).toInt = 240 ∧
      config.picosecondsOfUnits Int32.maxValue.toInt = Int32.maxValue.toInt ∧
      config.picosecondsOfUnits (3 : Int32).toInt ≤
        config.picosecondsOfUnits Int32.maxValue.toInt) ∧
      config.unitsOfPicoseconds (-12040 : Int32).toInt =
        -config.unitsOfPicoseconds (12040 : Int32).toInt ∧
      config.picosecondsOfUnits (config.unitsOfPicoseconds (-12040 : Int32).toInt) = -12000 ∧
      (12040 - 12000) * 100 < 8000 + 100 := by
  intro config
  obtain ⟨-, hmono, hneg, hback⟩ :=
    @conversions_keep_order_sign_and_size config (by decide)
  obtain ⟨-, hpicoseconds⟩ := hmono 3 Int32.maxValue (by decide)
  obtain ⟨hunits, -⟩ := hneg 12040 (by decide)
  obtain ⟨-, -, -, hlost, -⟩ := hback (-12040) (by decide)
  have hround : config.picosecondsOfUnits (config.unitsOfPicoseconds (-12040 : Int32).toInt) =
      -12000 := by decide
  rw [hround] at hlost
  exact ⟨⟨by decide, by decide, hpicoseconds⟩, hunits (by decide) (by decide), hround, hlost⟩

end TimingNode.Proofs.ConversionLaw
