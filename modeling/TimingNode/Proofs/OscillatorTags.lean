import TimingNode.Proofs.PlantTick

namespace TimingNode.Proofs.OscillatorTags

open TimingNode.Plant
open TimingNode.Tag
open TimingNode.Word
open TimingNode.Proofs.PlantTick
open TimingNode.Proofs.RegisterWord

/-- The register words of successive ticks, one tick for each actuator code, if all of them have an
answer. -/
def wordsOf? (oscillator : Oscillator) : List UInt16 → Except Fault (List (List UInt32))
  | [] => .ok []
  | actuator :: actuators => do
      let (words, oscillator) ← oscillator.tick? actuator.toNat
      return words :: (← wordsOf? oscillator actuators)

def ticked (config : Loop.Config) (balance : UInt16) (count : Nat) : Oscillator :=
  { Oscillator.create config balance with
    reference := Oscillator.advancePerTick * count % config.modulus.toNat }

/-- The tags of one tick of a run, the first tick being number one. -/
structure TickTags (config : Loop.Config) (balance : UInt16) (tick : Nat) (actuator : UInt16)
    (reference output : Tag) : Prop where
  reference_channel : reference.channel = Wiring.referenceChannel
  reference_value : reference.value.toNat = 1000 * tick % config.modulus.toNat
  reference_lt : reference.value.toNat < config.modulus.toNat
  output_channel : output.channel = Wiring.outputChannel
  output_value : (output.value.toNat : Int) =
    ((1000 * tick : Nat) + balance.toNat - actuator.toNat : Int) % config.modulus.toNat
  output_lt : output.value.toNat < config.modulus.toNat
  sum_fits : FitsSigned 64 (reference.value.toNat + balance.toNat)
  difference_fits : FitsSigned 64 (reference.value.toNat + balance.toNat - actuator.toNat)

section Run

variable (config : Loop.Config) (balance : UInt16)

theorem create_eq_ticked : Oscillator.create config balance = ticked config balance 0 := by
  rw [ticked, Nat.mul_zero, Nat.zero_mod]
  rfl

theorem referenceAfter_ticked (count : Nat) :
    referenceAfter (ticked config balance count) =
      Oscillator.advancePerTick * (count + 1) % config.modulus.toNat := by
  change (Oscillator.advancePerTick * count % config.modulus.toNat + Oscillator.advancePerTick) %
    config.modulus.toNat = _
  rw [Nat.mod_add_mod, Nat.mul_succ]

theorem ticked_succ (count : Nat) :
    ticked config balance (count + 1) =
      { ticked config balance count with
        reference := referenceAfter (ticked config balance count) } := by
  rw [referenceAfter_ticked]
  rfl

theorem outputAt_ticked (hpos : 0 < config.modulus.toNat) (count actuator : Nat) :
    (outputAt (ticked config balance count) actuator : Int) =
      ((Oscillator.advancePerTick * (count + 1) : Nat) + balance.toNat - actuator : Int) %
        config.modulus.toNat := by
  change (Phase.fold ((referenceAfter (ticked config balance count) : Int) + balance.toNat -
    actuator) config.modulus.toNat : Int) = _
  rw [Phase.cast_fold _ hpos, referenceAfter_ticked, Int.natCast_emod, Int.add_sub_assoc,
    Int.emod_add_emod, Int.add_sub_assoc]

variable {config} (hpos : 0 < config.modulus.toNat) (hmodulus : config.modulus.toNat ≤ 0x1000000)
include hpos hmodulus

theorem tick?_ticked (count actuator : Nat) :
    (ticked config balance count).tick? actuator =
      .ok (((ticked config balance count).tick actuator).1, ticked config balance (count + 1)) := by
  rw [tick?_eq_ok hpos hmodulus (Nat.mod_lt _ hpos), ticked_succ]
  rfl

theorem wordsOf?_ticked (count : Nat) (actuators : List UInt16) :
    wordsOf? (ticked config balance count) actuators =
      .ok (actuators.mapIdx fun tick actuator =>
        ((ticked config balance (count + tick)).tick actuator.toNat).1) := by
  induction actuators generalizing count with
  | nil => rfl
  | cons actuator actuators ih =>
      have hlater (tick : Nat) : count + 1 + tick = count + (tick + 1) := by omega
      rw [wordsOf?, tick?_ticked balance hpos hmodulus, List.mapIdx_cons, Nat.add_zero]
      change (do return _ :: (← wordsOf? (ticked config balance (count + 1)) actuators)) = _
      rw [ih]
      simp only [hlater]
      rfl

theorem tickTags_ticked (tick : Nat) (actuator : UInt16) :
    ∃ reference output,
      ((ticked config balance tick).tick actuator.toNat).1.map ofRegister = [reference, output] ∧
        TickTags config balance (tick + 1) actuator reference output := by
  have hreference : referenceAfter (ticked config balance tick) < config.modulus.toNat :=
    referenceAfter_lt hpos
  have houtput : outputAt (ticked config balance tick) actuator.toNat < config.modulus.toNat :=
    outputAt_lt hpos _
  have hreferenceValue := toNat_ofNat_phase (Nat.lt_of_lt_of_le hreference hmodulus)
  have houtputValue := toNat_ofNat_phase (Nat.lt_of_lt_of_le houtput hmodulus)
  have hbalance := balance.toNat_lt
  have hactuator := actuator.toNat_lt
  refine ⟨_, _, map_ofRegister_tick hpos hmodulus _, ?_⟩
  exact {
    reference_channel := rfl
    reference_value := by
      rw [hreferenceValue, referenceAfter_ticked, Oscillator.advancePerTick]
    reference_lt := by
      rw [hreferenceValue]
      exact hreference
    output_channel := rfl
    output_value := by
      rw [houtputValue, outputAt_ticked config balance hpos, Oscillator.advancePerTick]
    output_lt := by
      rw [houtputValue]
      exact houtput
    sum_fits := by
      rw [hreferenceValue, FitsSigned]
      omega
    difference_fits := by
      rw [hreferenceValue, FitsSigned]
      omega }

end Run

/-- The words of a run carry its tags. With a modulus that fits the value of a register word, every
tick has an answer, and its two words are read back as the reference after that many advances and
the output at its actuator code. Any tag that fits a register word is read back from it, and any
word is rebuilt from the tag that is read from it, with its top bit clear. -/
theorem words_carry_tags {config : Loop.Config} (hlow : 2 ≤ config.modulus.toNat)
    (hhigh : config.modulus.toNat ≤ 0x1000000) (balance : UInt16) (actuators : List UInt16) :
    (∃ words, wordsOf? (.create config balance) actuators = .ok words ∧
      words.length = actuators.length ∧
      ∀ tick actuator, actuators[tick]? = some actuator → ∃ reference output,
        words[tick]?.map (List.map ofRegister) = some [reference, output] ∧
        TickTags config balance (tick + 1) actuator reference output) ∧
    (∀ tag : Tag, tag.channel.toNat < 0x80 → tag.value.toNat < 0x1000000 →
      ofRegister tag.toRegister = tag) ∧
    ∀ word : UInt32, (ofRegister word).toRegister = word &&& 0x7FFFFFFF := by
  have hpos : 0 < config.modulus.toNat := Nat.lt_of_lt_of_le Nat.two_pos hlow
  have hwords := wordsOf?_ticked balance hpos hhigh 0 actuators
  rw [← create_eq_ticked] at hwords
  refine ⟨⟨_, hwords, List.length_mapIdx, ?_⟩, fun _ => ofRegister_toRegister,
    toRegister_ofRegister⟩
  intro tick actuator hactuator
  obtain ⟨reference, output, hmap, htags⟩ := tickTags_ticked balance hpos hhigh tick actuator
  refine ⟨reference, output, ?_, htags⟩
  rw [List.getElem?_mapIdx, hactuator, Option.map_some, Option.map_some, Nat.zero_add, hmap]

theorem words_carry_tags_greatest :
    let config : Loop.Config := { modulus := 0x1000000 }
    ∃ words, wordsOf? (.create config 0) [1001, 0] = .ok words ∧
      words[0]?.map (List.map ofRegister) = some [⟨1, 1000⟩, ⟨0, 0xFFFFFF⟩] ∧
      TickTags config 0 1 1001 ⟨1, 1000⟩ ⟨0, 0xFFFFFF⟩ ∧
      ofRegister (toRegister ⟨0x7F, 0xFFFFFF⟩) = ⟨0x7F, 0xFFFFFF⟩ := by
  intro config
  obtain ⟨⟨words, hwords, -, htags⟩, hread, -⟩ :=
    @words_carry_tags config (by decide) (by decide) 0 [1001, 0]
  obtain ⟨reference, output, hmap, hfirst⟩ := htags 0 1001 rfl
  have hcomputed : wordsOf? (.create config 0) [1001, 0] =
    .ok [[0x10003E8, 0xFFFFFF], [0x10007D0, 0x7D0]] := by cbv
  rw [hcomputed] at hwords
  cases hwords
  cases hmap
  exact ⟨_, hcomputed, rfl, hfirst, hread _ (by decide) (by decide)⟩

end TimingNode.Proofs.OscillatorTags
