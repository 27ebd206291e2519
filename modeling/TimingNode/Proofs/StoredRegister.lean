import TimingNode.Proofs.StoredPhase

namespace TimingNode.Proofs.StoredRegister

open TimingNode.Store
open TimingNode.TransitionPhase
open TimingNode.Proofs.StoredPhase

section Word

def wordAt (bytes : List UInt8) (offset : Nat) : Option UInt32 := do
  let first ← bytes[offset]?
  let second ← bytes[offset + 1]?
  let third ← bytes[offset + 2]?
  let fourth ← bytes[offset + 3]?
  return UInt32.ofNat
    (0x1000000 * first.toNat + 0x10000 * second.toNat + 0x100 * third.toNat + fourth.toNat)

theorem wordAt_congr {bytes bytes' : List UInt8} {offset : Nat}
    (h : ∀ i, offset ≤ i → i < offset + 4 → bytes[i]? = bytes'[i]?) :
    wordAt bytes offset = wordAt bytes' offset := by
  rw [wordAt, wordAt, h offset (by omega) (by omega), h (offset + 1) (by omega) (by omega),
    h (offset + 2) (by omega) (by omega), h (offset + 3) (by omega) (by omega)]

theorem wordAt_of_fits {bytes : List UInt8} {offset : Nat} (h : offset + 4 ≤ bytes.length) :
    ((bytes.drop offset).take 4).length = 4 ∧
      wordAt bytes offset = some (WordBytes.decode ((bytes.drop offset).take 4)) := by
  have hget (i : Nat) : bytes[offset + i]? = (bytes.drop offset)[i]? := List.getElem?_drop.symm
  have hlength : (bytes.drop offset).length = bytes.length - offset := List.length_drop
  rw [wordAt, ← Nat.add_zero offset, Nat.add_assoc, Nat.add_assoc, Nat.add_assoc, hget, hget, hget,
    hget, Nat.add_zero]
  generalize bytes.drop offset = tail at hlength ⊢
  rcases tail with _ | ⟨first, _ | ⟨second, _ | ⟨third, _ | ⟨fourth, rest⟩⟩⟩⟩
  iterate 4
    simp only [List.length_cons, List.length_nil] at hlength
    omega
  refine ⟨rfl, congrArg some (congrArg UInt32.ofNat ?_)⟩
  change _ = 256 * (256 * (256 * (256 * 0 + first.toNat) + second.toNat) + third.toNat) +
    fourth.toNat
  omega

end Word

section Transfers

/-- A memory that does not answer, or that has no room for the word. -/
def Refuses (store : EepromStore) : Prop :=
  store.eeprom.failing = true ∨ store.eeprom.bytes.length < store.offset + 4

instance (store : EepromStore) : Decidable (Refuses store) := by
  unfold Refuses
  infer_instance

def InWord (store : EepromStore) (i : Nat) : Prop :=
  store.offset ≤ i ∧ i < store.offset + 4

def overwritten (store : EepromStore) (data : List UInt8) : EepromStore :=
  { store with
    eeprom.bytes := store.eeprom.bytes.take store.offset ++ data ++
      store.eeprom.bytes.drop (store.offset + 4) }

theorem read_eq (store : EepromStore) :
    store.read =
      if Refuses store then .error .read
      else .ok ((wordAt store.eeprom.bytes store.offset).bind ofWord?) := by
  rw [EepromStore.read, Eeprom.read?]
  by_cases hrefuses : Refuses store
  · rw [if_pos hrefuses, if_pos (by exact hrefuses)]
  · have hfits := not_or.mp hrefuses
    rw [if_neg hrefuses, if_neg (by exact hrefuses), (wordAt_of_fits (by omega)).2]
    rfl

theorem write_eq (store : EepromStore) (phase : TransitionPhase) :
    store.write phase =
      if Refuses store then .error .write
      else .ok (overwritten store (WordBytes.encode phase.toWord)) := by
  rw [EepromStore.write, Eeprom.write?, WordBytes.length_encode]
  by_cases hrefuses : Refuses store
  · rw [if_pos hrefuses, if_pos (by exact hrefuses)]
  · rw [if_neg hrefuses, if_neg (by exact hrefuses)]
    rfl

theorem getElem?_overwritten {store : EepromStore} {data : List UInt8} (hdata : data.length = 4)
    (hfits : store.offset + 4 ≤ store.eeprom.bytes.length) {i : Nat} (hi : ¬ InWord store i) :
    (overwritten store data).eeprom.bytes[i]? = store.eeprom.bytes[i]? := by
  rw [InWord] at hi
  have htake : (store.eeprom.bytes.take store.offset).length = store.offset := by
    rw [List.length_take]
    omega
  rw [overwritten]
  dsimp only
  rw [List.append_assoc]
  by_cases hbefore : i < store.offset
  · rw [List.getElem?_append_left (by omega), List.getElem?_take_of_lt hbefore]
  · rw [List.getElem?_append_right (by omega), List.getElem?_append_right (by omega),
      List.getElem?_drop, htake, hdata]
    congr 1
    omega

theorem length_overwritten {store : EepromStore} {data : List UInt8} (hdata : data.length = 4)
    (hfits : store.offset + 4 ≤ store.eeprom.bytes.length) :
    (overwritten store data).eeprom.bytes.length = store.eeprom.bytes.length := by
  simp only [overwritten, List.length_append, List.length_take, List.length_drop]
  omega

theorem overwritten_self (store : EepromStore) :
    overwritten store ((store.eeprom.bytes.drop store.offset).take 4) = store := by
  rw [overwritten, ← List.drop_drop, List.append_assoc, List.take_append_drop,
    List.take_append_drop]

theorem write_of_read {store : EepromStore} {phase : TransitionPhase}
    (h : store.read = .ok (some phase)) : store.write phase = .ok store := by
  rw [read_eq] at h
  rw [write_eq]
  split
  · rename_i hrefuses
    rw [if_pos hrefuses] at h
    cases h
  · rename_i hrefuses
    have hfits := not_or.mp hrefuses
    obtain ⟨hlength, hword⟩ := wordAt_of_fits (show
      store.offset + 4 ≤ store.eeprom.bytes.length by omega)
    rw [if_neg hrefuses, hword] at h
    rw [toWord_of_ofWord? (Except.ok.inj h), WordBytes.encode_decode hlength, overwritten_self]

theorem getElem?_poke {eeprom : Eeprom} {offset : Nat} {data : List UInt8} {i : Nat}
    (h : ¬ (offset ≤ i ∧ i < offset + data.length)) :
    (eeprom.poke offset data).bytes[i]? = eeprom.bytes[i]? := by
  induction data generalizing eeprom offset with
  | nil => rfl
  | cons byte data ih =>
      rw [List.length_cons] at h
      rw [Eeprom.poke, ih (by omega), List.getElem?_set_ne (by omega)]

theorem getElem?_poke_congr {eeprom eeprom' : Eeprom} {i : Nat}
    (h : eeprom.bytes[i]? = eeprom'.bytes[i]?) (offset : Nat) (data : List UInt8) :
    (eeprom.poke offset data).bytes[i]? = (eeprom'.poke offset data).bytes[i]? := by
  induction data generalizing eeprom eeprom' offset with
  | nil => exact h
  | cons byte data ih =>
      refine ih ?_ (offset + 1)
      rw [List.getElem?_set', List.getElem?_set', h]

theorem poke_frame (eeprom : Eeprom) (offset : Nat) (data : List UInt8) :
    (eeprom.poke offset data).failing = eeprom.failing ∧
      (eeprom.poke offset data).bytes.length = eeprom.bytes.length := by
  induction data generalizing eeprom offset with
  | nil => exact ⟨rfl, rfl⟩
  | cons byte data ih =>
      obtain ⟨hfailing, hlength⟩ :=
        ih { eeprom with bytes := eeprom.bytes.set offset byte } (offset + 1)
      exact ⟨hfailing, hlength.trans List.length_set⟩

end Transfers

/-- What happens to a memory: a transfer of the phase, a failure that comes or goes, or bytes put
there by other means. -/
inductive Call where
  | read
  | write (phase : TransitionPhase)
  | setFailing (failing : Bool)
  | poke (offset : Nat) (data : List UInt8)

inductive Event where
  | read (result : Except Error (Option TransitionPhase))
  | write (phase : TransitionPhase) (result : Except Error Unit)
  | setFailing (failing : Bool)
  | poke (offset : Nat) (data : List UInt8)

namespace Call

def perform (store : EepromStore) : Call → Event × EepromStore
  | .read =>
      let (result, store) := TransitionStore.read store
      (.read result, store)
  | .write phase =>
      let (result, store) := TransitionStore.write phase store
      (.write phase result, store)
  | .setFailing failing => (.setFailing failing, { store with eeprom.failing := failing })
  | .poke offset data =>
      (.poke offset data, { store with eeprom := store.eeprom.poke offset data })

def isPoke : Call → Bool
  | .poke _ _ => true
  | _ => false

def PokesWord (store : EepromStore) : Call → Prop
  | .poke offset data => ∃ i, InWord store i ∧ offset ≤ i ∧ i < offset + data.length
  | _ => False

end Call

/-- The event leaves other bytes in the word, or may do so. -/
def Event.Overwrites (store : EepromStore) : Event → Prop
  | .write _ (.ok ()) => True
  | .poke offset data => (Call.poke offset data).PokesWord store
  | _ => False

def performAll (store : EepromStore) : List Call → List Event × EepromStore
  | [] => ([], store)
  | call :: calls =>
      let (event, store) := call.perform store
      let (events, store) := performAll store calls
      (event :: events, store)

theorem perform_write (store : EepromStore) (phase : TransitionPhase) :
    (Call.write phase).perform store =
      if Refuses store then (.write phase (.error .write), store)
      else (.write phase (.ok ()), overwritten store (WordBytes.encode phase.toWord)) := by
  have hwrite := write_eq store phase
  by_cases hrefuses : Refuses store
  · rw [if_pos hrefuses] at hwrite ⊢
    simp only [Call.perform, TransitionStore.write, hwrite]
  · rw [if_neg hrefuses] at hwrite ⊢
    simp only [Call.perform, TransitionStore.write, hwrite]

section Frame

theorem place_perform (store : EepromStore) (call : Call) :
    (call.perform store).2.offset = store.offset ∧
      (call.perform store).2.eeprom.bytes.length = store.eeprom.bytes.length := by
  cases call with
  | read | setFailing => exact ⟨rfl, rfl⟩
  | write phase =>
      rw [perform_write]
      split
      · exact ⟨rfl, rfl⟩
      · rename_i hrefuses
        have hfits := not_or.mp hrefuses
        exact ⟨rfl, length_overwritten (WordBytes.length_encode _) (by omega)⟩
  | poke offset data => exact ⟨rfl, (poke_frame store.eeprom offset data).2⟩

/-- Two memories that have their word in one place, and the same bytes outside of it. -/
structure AgreeOutside (store other : EepromStore) : Prop where
  offset_eq : store.offset = other.offset
  bytes_eq : ∀ i, ¬ InWord store i → store.eeprom.bytes[i]? = other.eeprom.bytes[i]?

theorem AgreeOutside.perform {store other : EepromStore} (h : AgreeOutside store other)
    (call : Call) :
    AgreeOutside (call.perform store).2
      (if call.isPoke then (call.perform other).2 else other) := by
  cases call with
  | read | setFailing => exact ⟨h.offset_eq, h.bytes_eq⟩
  | write phase =>
      refine ⟨(place_perform store _).1.trans h.offset_eq, fun i hi => ?_⟩
      rw [InWord, (place_perform store _).1] at hi
      rw [perform_write]
      split
      · exact h.bytes_eq i hi
      · rename_i hrefuses
        have hfits := not_or.mp hrefuses
        exact (getElem?_overwritten (WordBytes.length_encode _) (by omega) hi).trans
          (h.bytes_eq i hi)
  | poke offset data =>
      exact ⟨h.offset_eq, fun i hi => getElem?_poke_congr (h.bytes_eq i hi) offset data⟩

theorem AgreeOutside.performAll {store other : EepromStore} (h : AgreeOutside store other)
    (calls : List Call) :
    AgreeOutside (performAll store calls).2
      (StoredRegister.performAll other (calls.filter Call.isPoke)).2 := by
  induction calls generalizing store other with
  | nil => exact h
  | cons call calls ih =>
      have hcall := h.perform call
      rw [List.filter_cons]
      split
      · rename_i hpoke
        rw [if_pos hpoke] at hcall
        exact ih hcall
      · rename_i hpoke
        rw [if_neg hpoke] at hcall
        exact ih hcall

end Frame

/-- A register for a phase, on a medium that may have no room for it or fail. -/
structure Register where
  content : Option TransitionPhase
  fits : Bool
  failing : Bool
deriving DecidableEq

namespace Register

def refuses (register : Register) : Bool :=
  register.failing || !register.fits

def perform (register : Register) : Call → Event × Register
  | .read => (.read (if register.refuses then .error .read else .ok register.content), register)
  | .write phase =>
      if register.refuses then (.write phase (.error .write), register)
      else (.write phase (.ok ()), { register with content := recovered phase })
  | .setFailing failing => (.setFailing failing, { register with failing })
  | .poke offset data => (.poke offset data, register)

def performAll (register : Register) : List Call → List Event × Register
  | [] => ([], register)
  | call :: calls =>
      let (event, register) := register.perform call
      let (events, register) := performAll register calls
      (event :: events, register)

def ofStore (store : EepromStore) : Register :=
  { content := (wordAt store.eeprom.bytes store.offset).bind ofWord?
    fits := decide (store.offset + 4 ≤ store.eeprom.bytes.length)
    failing := store.eeprom.failing }

theorem refuses_ofStore (store : EepromStore) :
    (ofStore store).refuses = true ↔ Refuses store := by
  simp [refuses, ofStore, Refuses]

end Register

open Register

theorem content_overwritten {store : EepromStore} {phase : TransitionPhase}
    (h : store.write phase = .ok (overwritten store (WordBytes.encode phase.toWord))) :
    (ofStore (overwritten store (WordBytes.encode phase.toWord))).content = recovered phase := by
  have hread := read_of_write_eq_ok h
  rw [read_eq] at hread
  split at hread
  · cases hread
  · exact Except.ok.inj hread

/-- A memory takes the steps of the register that it stands for, unless bytes are put into the
word. -/
theorem ofStore_perform {store : EepromStore} {call : Call} (h : ¬ call.PokesWord store) :
    (ofStore store).perform call = ((call.perform store).1, ofStore (call.perform store).2) := by
  cases call with
  | read =>
      change _ = (Event.read store.read, ofStore store)
      rw [Register.perform, read_eq]
      simp only [refuses_ofStore]
      rfl
  | write phase =>
      have hwrite := write_eq store phase
      rw [Register.perform, perform_write]
      simp only [refuses_ofStore]
      by_cases hrefuses : Refuses store
      · rw [if_pos hrefuses, if_pos hrefuses]
      · rw [if_neg hrefuses] at hwrite
        have hfits := not_or.mp hrefuses
        have hcontent := content_overwritten hwrite
        rw [if_neg hrefuses, if_neg hrefuses, ← hcontent]
        simp only [ofStore, length_overwritten (WordBytes.length_encode phase.toWord)
          (show store.offset + 4 ≤ store.eeprom.bytes.length by omega)]
        rfl
  | setFailing failing => rfl
  | poke offset data =>
      obtain ⟨hfailing, hlength⟩ := poke_frame store.eeprom offset data
      have hword : wordAt (store.eeprom.poke offset data).bytes store.offset =
          wordAt store.eeprom.bytes store.offset :=
        wordAt_congr fun i hlow hhigh =>
          getElem?_poke fun hpoked => h ⟨i, ⟨hlow, hhigh⟩, hpoked⟩
      simp only [Register.perform, Call.perform, ofStore, hfailing, hlength, hword]

theorem ofStore_performAll {store : EepromStore} {calls : List Call}
    (h : ∀ call ∈ calls, ¬ call.PokesWord store) :
    (ofStore store).performAll calls =
      ((performAll store calls).1, ofStore (performAll store calls).2) := by
  induction calls generalizing store with
  | nil => rfl
  | cons call calls ih =>
      have hcall := ofStore_perform (h call List.mem_cons_self)
      have hoffset := (place_perform store call).1
      have hrest : ∀ later ∈ calls, ¬ later.PokesWord (call.perform store).2 := by
        intro later hlater hpokes
        refine h later (List.mem_cons_of_mem _ hlater) ?_
        cases later with
        | poke offset data =>
            rw [Call.PokesWord] at hpokes ⊢
            simpa only [InWord, hoffset] using hpokes
        | read | write | setFailing => exact hpokes
      rw [Register.performAll, hcall]
      dsimp only
      rw [ih hrest]
      rfl

theorem poke_mem_performAll {store : EepromStore} {calls : List Call} {offset : Nat}
    {data : List UInt8} (h : Call.poke offset data ∈ calls) :
    Event.poke offset data ∈ (performAll store calls).1 := by
  induction calls generalizing store with
  | nil => cases h
  | cons call calls ih =>
      rcases List.mem_cons.mp h with rfl | hlater
      · exact List.mem_cons_self
      · exact List.mem_cons_of_mem _ (ih hlater)

theorem Register.content_of_read {register : Register} {calls : List Call}
    (h : ∀ phase, Event.write phase (.ok ()) ∉ (register.performAll calls).1)
    {result : Option TransitionPhase}
    (hread : Event.read (.ok result) ∈ (register.performAll calls).1) :
    result = register.content := by
  induction calls generalizing register with
  | nil => cases hread
  | cons call calls ih =>
      have hlater (phase : TransitionPhase) :
          Event.write phase (.ok ()) ∉ ((register.perform call).2.performAll calls).1 :=
        fun hmem => h phase (List.mem_cons_of_mem _ hmem)
      have hcons : Event.read (.ok result) = (register.perform call).1 ∨
          Event.read (.ok result) ∈ ((register.perform call).2.performAll calls).1 :=
        List.mem_cons.mp hread
      rcases hcons with hnow | hread
      · cases call with
        | read =>
            injection hnow with hanswer
            split at hanswer
            · cases hanswer
            · exact Except.ok.inj hanswer
        | write phase =>
            rw [Register.perform] at hnow
            split at hnow <;> cases hnow
        | setFailing | poke => cases hnow
      · have hcontent := ih hlater hread
        cases call with
        | read | setFailing | poke => exact hcontent
        | write phase =>
            by_cases hrefuses : register.refuses = true
            · rw [Register.perform, if_pos hrefuses] at hcontent
              exact hcontent
            · have hhead : (register.perform (.write phase)).1 ≠ .write phase (.ok ()) :=
                fun hwritten => h phase (hwritten ▸ List.mem_cons_self)
              rw [Register.perform, if_neg hrefuses] at hhead
              exact absurd rfl hhead

theorem content_of_read {store : EepromStore} {calls : List Call}
    (h : ∀ event ∈ (performAll store calls).1, ¬ event.Overwrites store)
    {result : Option TransitionPhase}
    (hread : Event.read (.ok result) ∈ (performAll store calls).1) :
    result = (ofStore store).content := by
  have hpokes : ∀ call ∈ calls, ¬ call.PokesWord store := by
    intro call hcall hpokes
    cases call with
    | poke offset data => exact h _ (poke_mem_performAll hcall) hpokes
    | read | write | setFailing => exact hpokes
  have hevents := congrArg Prod.fst (ofStore_performAll hpokes)
  refine Register.content_of_read (fun phase hwritten => ?_) (hevents ▸ hread)
  exact h _ (hevents ▸ hwritten) (show Event.Overwrites store (.write phase (.ok ())) from trivial)

theorem place_performAll (store : EepromStore) (calls : List Call) :
    (performAll store calls).2.offset = store.offset ∧
      (performAll store calls).2.eeprom.bytes.length = store.eeprom.bytes.length := by
  induction calls generalizing store with
  | nil => exact ⟨rfl, rfl⟩
  | cons call calls ih =>
      obtain ⟨hoffset, hlength⟩ := place_perform store call
      exact ⟨(ih _).1.trans hoffset, (ih _).2.trans hlength⟩

/-- A memory as those see it who read, write and change it. -/
structure ActsAsRegister (store : EepromStore) : Prop where
  read_eq_error_iff : store.read = .error .read ↔ Refuses store
  read_of_answering : ¬ Refuses store →
    ∃ word, wordAt store.eeprom.bytes store.offset = some word ∧ store.read = .ok (ofWord? word)
  write_of_refusing : Refuses store → ∀ phase,
    (Call.write phase).perform store = (.write phase (.error .write), store)
  write_of_answering : ¬ Refuses store → ∀ phase, ∃ written,
    (Call.write phase).perform store = (.write phase (.ok ()), written) ∧
      written.eeprom.failing = store.eeprom.failing ∧ AgreeOutside written store
  /-- As long as no bytes are put into the word, everything is answered as the register does. -/
  refines : ∀ calls, (∀ call ∈ calls, ¬ call.PokesWord store) →
    (performAll store calls).1 = ((ofStore store).performAll calls).1
  /-- A phase that was written is read until the word is overwritten, if it can be kept at all. -/
  kept : ∀ phase written, phase.picoseconds ≠ greatest →
    (Call.write phase).perform store = (.write phase (.ok ()), written) →
    ∀ calls, (∀ event ∈ (performAll written calls).1, ¬ event.Overwrites written) →
    ∀ result, Event.read (.ok result) ∈ (performAll written calls).1 → result = some phase
  rewritten : ∀ phase, store.read = .ok (some phase) →
    (Call.write phase).perform store = (.write phase (.ok ()), store)

theorem content_of_written {store written : EepromStore} {phase : TransitionPhase}
    (hphase : phase.picoseconds ≠ greatest)
    (h : (Call.write phase).perform store = (.write phase (.ok ()), written)) :
    (ofStore written).content = some phase := by
  have hwrite := write_eq store phase
  rw [perform_write] at h
  split at h
  · cases h
  · rename_i hrefuses
    rw [if_neg hrefuses] at hwrite
    cases h
    rw [content_overwritten hwrite, recovered, if_neg hphase]

theorem actsAsRegister (store : EepromStore) : ActsAsRegister store := by
  refine ⟨?_, ?_, ?_, ?_, ?_, ?_, ?_⟩
  · rw [read_eq]
    by_cases hrefuses : Refuses store
    · simp [hrefuses]
    · simp [hrefuses]
  · intro hanswers
    have hfits := not_or.mp hanswers
    refine ⟨_, (wordAt_of_fits (by omega)).2, ?_⟩
    rw [read_eq, if_neg hanswers, (wordAt_of_fits (by omega)).2, Option.bind_some]
  · intro hrefuses phase
    rw [perform_write, if_pos hrefuses]
  · intro hanswers phase
    have hfits := not_or.mp hanswers
    refine ⟨overwritten store (WordBytes.encode phase.toWord), ?_, rfl, rfl, ?_⟩
    · rw [perform_write, if_neg hanswers]
    · exact fun i hi => getElem?_overwritten (WordBytes.length_encode _) (by omega) hi
  · exact fun calls hpokes => congrArg Prod.fst (ofStore_performAll hpokes).symm
  · intro phase written hphase hwritten calls hcalls result hread
    rw [content_of_read hcalls hread, content_of_written hphase hwritten]
  · intro phase hread
    simp only [Call.perform, TransitionStore.write, write_of_read hread]

/-- After any calls, whatever bytes it began with, a memory acts as the register that its word
stands for. The bytes around the word are those that were put there by other means. -/
theorem memory_acts_as_register (store : EepromStore) (calls : List Call) :
    ActsAsRegister (performAll store calls).2 ∧
      (performAll store calls).2.offset = store.offset ∧
      (performAll store calls).2.eeprom.bytes.length = store.eeprom.bytes.length ∧
      AgreeOutside (performAll store calls).2
        (performAll store (calls.filter Call.isPoke)).2 :=
  ⟨actsAsRegister _, (place_performAll store calls).1, (place_performAll store calls).2,
    AgreeOutside.performAll ⟨rfl, fun _ _ => rfl⟩ calls⟩

example :
    (performAll ⟨.erased 6, 1⟩ [.write ⟨5, by decide⟩, .setFailing true, .write ⟨7, by decide⟩,
      .read, .setFailing false, .poke 0 [1], .read, .poke 0 [1, 0], .read]).1 =
      [.write ⟨5, by decide⟩ (.ok ()), .setFailing true, .write ⟨7, by decide⟩ (.error .write),
        .read (.error .read), .setFailing false, .poke 0 [1], .read (.ok (some ⟨5, by decide⟩)),
        .poke 0 [1, 0], .read (.ok none)] :=
  rfl

end TimingNode.Proofs.StoredRegister
