import TimingNode.Scan

namespace TimingNode.Proofs.ScanTuning

open TimingNode.Scan

def runLength (config : Config) : Nat :=
  config.threshold.toNat * config.step.toNat

structure Usable (config : Config) : Prop where
  even : config.period.toNat % 2 = 0
  step_pos : 0 < config.step.toNat
  step_lt : config.step.toNat < config.period.toNat
  threshold_pos : 0 < config.threshold.toNat
  range_lt : config.period.toNat + 3 * runLength config < 1 <<< 31

theorem checkedRange?_eq (config : Config) :
    config.checkedRange? =
      if config.period.toNat + 3 * runLength config < 1 <<< 32 then
        some (config.period.toNat + 3 * runLength config)
      else none := by
  rw [Config.checkedRange?, runLength]
  by_cases hbackdate : config.threshold.toNat * config.step.toNat < 1 <<< 32
  · by_cases hheadroom : config.threshold.toNat * config.step.toNat * 3 < 1 <<< 32
    · simp only [Word.fit?, hbackdate, hheadroom, if_true, Option.bind_eq_bind,
        Option.bind_some]
      rw [show config.threshold.toNat * config.step.toNat * 3 + config.period.toNat =
        config.period.toNat + 3 * (config.threshold.toNat * config.step.toNat) by omega]
    · simp only [Word.fit?, hbackdate, hheadroom, if_true, if_false, Option.bind_eq_bind,
        Option.bind_some, Option.bind_none]
      rw [if_neg (by omega)]
  · simp only [Word.fit?, hbackdate, if_false, Option.bind_eq_bind, Option.bind_none]
    rw [if_neg (by omega)]

theorem word_eq_zero_iff (word : UInt32) : word = 0 ↔ word.toNat = 0 := by
  rw [← UInt32.toNat_inj]
  rfl

theorem validate_eq_ok_iff (config : Config) : config.validate = .ok () ↔ Usable config := by
  rw [Config.validate, checkedRange?_eq]
  simp only [word_eq_zero_iff, UInt32.le_iff_toNat_le]
  constructor
  · intro h
    split at h
    · cases h
    split at h
    · cases h
    split at h
    · cases h
    split at h
    · split at h
      · rename_i hrange hlt
        split at hrange
        · cases hrange
          exact ⟨by omega, by omega, by omega, by omega, hlt⟩
        · cases hrange
      · cases h
    · cases h
  · rintro ⟨heven, hpos, hlt, hrun, hrange⟩
    rw [if_neg (by omega), if_neg (by omega), if_neg (by omega), if_pos (by omega)]
    simp only [hrange, if_true]

namespace Usable

variable {config : Config} (h : Usable config)

include h

theorem range_eq : config.range = config.period.toNat + 3 * runLength config := by
  have hrange := h.range_lt
  rw [Config.range, checkedRange?_eq, if_pos (by omega), Option.getD_some]

theorem backdate_eq : config.backdate = runLength config := by
  have hrange := h.range_lt
  rw [Config.backdate]
  exact Word.clampUnsigned_of_lt (by rw [runLength] at hrange; omega)

theorem clampSigned_backdate : Word.clampSigned 32 config.backdate = (runLength config : Nat) := by
  have hrange := h.range_lt
  rw [h.backdate_eq]
  exact Word.clampSigned_of_mem (by omega) (by omega)

theorem step_le_runLength : config.step.toNat ≤ runLength config :=
  Nat.le_mul_of_pos_left _ h.threshold_pos

end Usable

end TimingNode.Proofs.ScanTuning
