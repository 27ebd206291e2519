import TimingNode.Loop.Config

namespace TimingNode.Proofs.LoopTuning

open TimingNode.Loop

structure Usable (config : Config) : Prop where
  two_le_modulus : 2 ≤ config.modulus.toNat
  modulus_le : config.modulus.toNat ≤ 0x1000000
  period_pos : 0 < config.period.toNat
  step_pos : 0 < config.step.toNat
  lockSamples_pos : 0 < config.lockSamples.toNat
  shiftStep_pos : 0 < config.shiftStep.toInt
  actuatorMin_lt : config.actuatorMin.toNat < config.actuatorMax.toNat

theorem validate_eq_ok_iff (config : Config) : config.validate = .ok () ↔ Usable config := by
  have hword (word : UInt32) : word = 0 ↔ word.toNat = 0 := UInt32.toNat_inj.symm
  have hstep : config.step = 0 ↔ config.step.toNat = 0 := UInt16.toNat_inj.symm
  have hshift : config.shiftStep ≤ 0 ↔ config.shiftStep.toInt ≤ 0 := Int32.le_iff_toInt_le
  rw [Config.validate]
  simp only [hword, hstep, hshift, UInt16.le_iff_toNat_le]
  constructor
  · intro h
    split at h
    · cases h
    split at h
    · cases h
    split at h
    · cases h
    split at h
    · cases h
    split at h
    · cases h
    split at h
    · cases h
    constructor <;> omega
  · rintro ⟨hlow, hhigh, hperiod, hstepPos, hsamples, hshiftPos, hactuator⟩
    rw [if_neg (by omega), if_neg (by omega), if_neg (by omega), if_neg (by omega),
      if_neg (by omega), if_neg (by omega)]

end TimingNode.Proofs.LoopTuning
