import TimingNode.Store.Eeprom
import TimingNode.Timestamp.Reception

namespace TimingNode.Proofs.StoredPhase

open TimingNode.Store
open TimingNode.TransitionPhase

def recovered (phase : TransitionPhase) : Option TransitionPhase :=
  if phase.picoseconds = greatest then none else some phase

theorem toWord_eq_erasedWord_iff (phase : TransitionPhase) :
    phase.toWord = erasedWord ↔ phase.picoseconds = greatest := by
  rw [← UInt32.toNat_inj, toNat_toWord]
  simp only [erasedWord, validFlag, greatest, UInt32.reduceToNat]
  omega

theorem ofWord?_toWord (phase : TransitionPhase) :
    ofWord? phase.toWord = recovered phase := by
  have hlt := phase.lt_limit
  simp only [ofWord?, recovered, toWord_eq_erasedWord_iff, toNat_toWord]
  split
  · rw [if_pos (by omega)]
  · rw [if_neg (by omega)]
    congr 1
    rcases phase with ⟨picoseconds, _⟩
    rw [ofFolded, TransitionPhase.mk.injEq, validFlag, Nat.add_mod_left]
    exact Nat.mod_eq_of_lt hlt

theorem toWord_of_ofWord? {word : UInt32} {phase : TransitionPhase}
    (h : ofWord? word = some phase) : phase.toWord = word := by
  have hword := word.toNat_lt
  rw [ofWord?] at h
  split at h
  · cases h
  · rename_i hvalid
    cases h
    rw [← UInt32.toNat_inj, toNat_toWord]
    simp only [validFlag, ofFolded, Nat.reduceShiftLeft] at hvalid ⊢
    omega

theorem recovered_of_ofWord? {word : UInt32} {phase : TransitionPhase}
    (h : ofWord? word = some phase) : recovered phase = some phase := by
  rw [← ofWord?_toWord, toWord_of_ofWord? h, h]

theorem exists_write?_eq_some {eeprom : Eeprom} {offset : Nat} (data : List UInt8)
    (hworking : eeprom.failing = false) (hfits : offset + data.length ≤ eeprom.bytes.length) :
    ∃ written, eeprom.write? offset data = some written ∧
      written.read? offset data.length = some data := by
  have hlength : (eeprom.bytes.take offset).length = offset := by
    rw [List.length_take]
    omega
  refine ⟨_, by rw [Eeprom.write?, if_neg (by simp [hworking]; omega)], ?_⟩
  rw [Eeprom.read?, if_neg]
  · rw [List.append_assoc, List.drop_append_of_le_length (by omega),
      List.drop_of_length_le (by omega), List.nil_append,
      List.take_append_of_le_length (Nat.le_refl _), List.take_length]
  · simp only [hworking, Bool.false_eq_true, List.length_append, List.length_drop, hlength,
      false_or]
    omega

theorem exists_write_eq_ok {store : EepromStore} (phase : TransitionPhase)
    (hworking : store.eeprom.failing = false)
    (hfits : store.offset + 4 ≤ store.eeprom.bytes.length) :
    ∃ written, store.write phase = .ok written ∧ written.read = .ok (recovered phase) := by
  obtain ⟨eeprom, hwrite, hread⟩ :=
    exists_write?_eq_some (WordBytes.encode phase.toWord) hworking hfits
  refine ⟨{ store with eeprom }, ?_, ?_⟩
  · rw [EepromStore.write, hwrite]
  · rw [WordBytes.length_encode] at hread
    rw [EepromStore.read]
    dsimp only
    rw [hread]
    dsimp only
    rw [WordBytes.decode_encode, ofWord?_toWord]

theorem read_of_write_eq_ok {store written : EepromStore} {phase : TransitionPhase}
    (h : store.write phase = .ok written) : written.read = .ok (recovered phase) := by
  by_cases hrefused : store.eeprom.failing ∨ store.eeprom.bytes.length < store.offset + 4
  · rw [EepromStore.write, Eeprom.write?, WordBytes.length_encode, if_pos hrefused] at h
    cases h
  · rw [not_or, Bool.not_eq_true, Nat.not_lt] at hrefused
    obtain ⟨written', hwritten, hread⟩ := exists_write_eq_ok phase hrefused.1 hrefused.2
    rw [h] at hwritten
    cases hwritten
    exact hread

theorem recovered_of_read {store : EepromStore} {phase : TransitionPhase}
    (h : store.read = .ok (some phase)) : recovered phase = some phase := by
  rw [EepromStore.read] at h
  split at h
  · cases h
  · injection h with hword
    exact recovered_of_ofWord? hword

/-- Everything that keeps a phase gives it back, unless it is the greatest one, which leaves
nothing. -/
theorem kept_phase_recovered (phase : TransitionPhase) (store : EepromStore)
    (reception : Reception) (hworking : store.eeprom.failing = false)
    (hfits : store.offset + 4 ≤ store.eeprom.bytes.length) :
    ofWord? phase.toWord = recovered phase ∧
      (∃ written, store.write phase = .ok written ∧ written.read = .ok (recovered phase)) ∧
      (reception.apply phase).active = recovered phase :=
  ⟨ofWord?_toWord phase, exists_write_eq_ok phase hworking hfits, ofWord?_toWord phase⟩

theorem kept_phase_recovered_next_to_greatest :
    ofWord? (toWord ⟨2147483646, by decide⟩) = some ⟨2147483646, by decide⟩ ∧
      (∃ written, (⟨.erased 4, 0⟩ : EepromStore).write ⟨2147483646, by decide⟩ = .ok written ∧
        written.read = .ok (some ⟨2147483646, by decide⟩)) ∧
      ((Reception.uncalibrated 8000).apply ⟨2147483646, by decide⟩).active =
        some ⟨2147483646, by decide⟩ :=
  kept_phase_recovered ⟨2147483646, by decide⟩ ⟨.erased 4, 0⟩ (.uncalibrated 8000)
    rfl (by decide)

/-- The greatest phase is accepted and written, but nothing keeps it. -/
theorem greatest_phase_lost :
    ofNat? greatest = .ok ⟨greatest, by decide⟩ ∧
      ofWord? (toWord ⟨greatest, by decide⟩) = none ∧
      (((⟨.erased 4, 0⟩ : EepromStore).write ⟨greatest, by decide⟩).bind fun written =>
        written.read) = .ok none ∧
      ((Reception.uncalibrated 8000).apply ⟨greatest, by decide⟩).active = none :=
  ⟨rfl, rfl, rfl, rfl⟩

end TimingNode.Proofs.StoredPhase
