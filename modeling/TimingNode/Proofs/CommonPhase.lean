import Mathlib.Data.Int.ModEq
import Mathlib.Data.List.Forall2
import TimingNode.Proofs.LoopInputs
import TimingNode.Proofs.PublishedLoop

namespace TimingNode.Proofs.CommonPhase

open TimingNode.Loop
open TimingNode.Proofs.LoopInputs
open TimingNode.Proofs.LoopTags
open TimingNode.Proofs.LoopTuning
open TimingNode.Proofs.PublishedLoop
open TimingNode.Proofs.SteeringArithmetic

def withoutTags (loop : Loop) : Loop :=
  { loop with tagCount := 0, lastTag := 0, referencePhase := none }

theorem eq_of_withoutTags_eq {loop other : Loop} (h : withoutTags other = withoutTags loop) :
    other = { loop with
      tagCount := other.tagCount, lastTag := other.lastTag
      referencePhase := other.referencePhase } := by
  cases loop
  cases other
  simp only [withoutTags, Loop.mk.injEq] at h ⊢
  simp only [h, and_self]

theorem withoutTags_trackLock (loop : Loop) :
    withoutTags loop.trackLock = (withoutTags loop).trackLock := by
  by_cases hband : loop.phaseError.natAbs ≤ loop.config.lockBand.toNat
  · rw [trackLock, if_pos hband]
    exact (if_pos hband).symm
  · rw [trackLock, if_neg hband]
    exact (if_neg hband).symm

theorem withoutTags_compareWith (loop : Loop) (reference : Nat) (value : UInt32) :
    withoutTags (loop.compareWith reference value) =
      (withoutTags loop).compareWith reference value :=
  withoutTags_trackLock (measured loop reference value)

theorem compareWith_congr (loop : Loop) (hmodulus : 0 < loop.config.modulus.toNat)
    {reference later : Nat} {value laterValue : UInt32}
    (h : (laterValue.toNat : Int) - later ≡ value.toNat - reference
      [ZMOD loop.config.modulus.toNat]) :
    loop.compareWith later laterValue = loop.compareWith reference value := by
  rw [compareWith, compareWith, wrap_eq_of_emod_eq hmodulus h]

theorem onTag_eq_compared {loop : Loop} {tag : Tag} {phase : Nat} {target : Int32}
    (hrunning : loop.running = true) (hreference : loop.reference ≠ some tag.channel)
    (houtput : tag.channel = loop.config.outputChannel) (hsteers : loop.mode.steers = true)
    (hphase : loop.referencePhase = some phase) :
    let compared :=
      compareWith { loop with tagCount := loop.tagCount + 1, lastTag := tag.value } phase tag.value
    loop.onTag target tag = (compared, some compared.actuator) := by
  obtain ⟨channel, value⟩ := tag
  obtain rfl : channel = loop.config.outputChannel := houtput
  exact onTag_eq_compareWith hrunning hreference hsteers hphase target value

/-- Phases of which one is a constant offset later than the other, up to whole turns. -/
def Later (modulus : Nat) (offset : Int) (phase later : Nat) : Prop :=
  (later : Int) ≡ phase + offset [ZMOD modulus]

theorem rel_of_rel_zero {modulus : Nat} {offset : Int} {phase middle later : Option Nat}
    (h : Option.Rel (Later modulus offset) phase later)
    (hmiddle : Option.Rel (Later modulus 0) middle later) :
    Option.Rel (Later modulus offset) phase middle := by
  cases h with
  | none =>
      cases hmiddle
      exact .none
  | some hlater =>
      cases hmiddle with
      | some hmiddle =>
          rw [Later, Int.add_zero] at hmiddle
          exact .some (hmiddle.symm.trans hlater)

/-- Loops that differ in what they remember of single tags, one with a later reference phase. -/
structure Alike (offset : Int) (loop other : Loop) : Prop where
  withoutTags_eq : withoutTags other = withoutTags loop
  phase_rel : Option.Rel (Later loop.config.modulus.toNat offset) loop.referencePhase
    other.referencePhase

structure Delayed (modulus : Nat) (offset : Int) (tag other : Tag) : Prop where
  channel_eq : other.channel = tag.channel
  value_rel : Later modulus offset tag.value.toNat other.value.toNat

theorem delayed_refl (modulus : Nat) (tag : Tag) : Delayed modulus 0 tag tag := by
  refine ⟨rfl, ?_⟩
  rw [Later, Int.add_zero]

namespace Alike

variable {offset : Int} {loop other : Loop} (h : Alike offset loop other)
include h

theorem duty_eq : duty other = duty loop := by
  change duty (withoutTags other) = duty (withoutTags loop)
  rw [h.withoutTags_eq]

theorem config_eq : other.config = loop.config :=
  congrArg Duty.config h.duty_eq

theorem mode_eq : other.mode = loop.mode :=
  congrArg Duty.mode h.duty_eq

theorem reference_eq : other.reference = loop.reference :=
  congrArg Duty.reference h.duty_eq

theorem running_eq : other.running = loop.running :=
  congrArg Duty.running h.duty_eq

theorem actuator_eq : other.actuator = loop.actuator := by
  change (withoutTags other).actuator = (withoutTags loop).actuator
  rw [h.withoutTags_eq]

theorem counted (tagCount tagCount' lastTag lastTag' : UInt32) :
    Alike offset { loop with tagCount, lastTag }
      { other with tagCount := tagCount', lastTag := lastTag' } :=
  ⟨h.withoutTags_eq, h.phase_rel⟩

theorem of_alike_zero {third : Loop} (hthird : Alike 0 third other) : Alike offset loop third := by
  have hphase := hthird.phase_rel
  rw [← hthird.config_eq, h.config_eq] at hphase
  exact ⟨hthird.withoutTags_eq.symm.trans h.withoutTags_eq,
    rel_of_rel_zero h.phase_rel hphase⟩

theorem onTag_of_foreign {tag : Tag} (hreference : loop.reference ≠ some tag.channel)
    (houtput : tag.channel ≠ loop.config.outputChannel) (hrunning : loop.running = true)
    (target : Int32) :
    (loop.onTag target tag).2 = none ∧ Alike offset (loop.onTag target tag).1 other := by
  obtain ⟨lastTag, htag⟩ :=
    exists_onTag_eq_counted hrunning hreference (Or.inl houtput) target
  rw [htag]
  exact ⟨rfl, h.withoutTags_eq, h.phase_rel⟩

theorem onReference {value later : UInt32}
    (hlater : Later loop.config.modulus.toNat offset value.toNat later.toNat) (target : Int32) :
    Alike offset (loop.onReference target value) (other.onReference target later) := by
  constructor
  · change withoutTags ((withoutTags other).onReference target later) =
      withoutTags ((withoutTags loop).onReference target later)
    rw [h.withoutTags_eq]
  · refine .some ?_
    rw [Later, h.config_eq, Int.natCast_mod, Int.natCast_mod]
    exact (Int.mod_modEq _ _).trans (hlater.trans ((Int.mod_modEq _ _).symm.add_right offset))

theorem compareWith (hmodulus : 0 < loop.config.modulus.toNat) {phase laterPhase : Nat}
    {value later : UInt32}
    (hphase : Later loop.config.modulus.toNat offset phase laterPhase)
    (hlater : Later loop.config.modulus.toNat offset value.toNat later.toNat) :
    Alike offset (loop.compareWith phase value) (other.compareWith laterPhase later) := by
  have hdifference : (later.toNat : Int) - laterPhase ≡ value.toNat - phase
      [ZMOD loop.config.modulus.toNat] := by
    have hsub := hlater.sub hphase
    rwa [add_sub_add_right_eq_sub] at hsub
  constructor
  · rw [withoutTags_compareWith, withoutTags_compareWith, h.withoutTags_eq]
    exact compareWith_congr (withoutTags loop) hmodulus hdifference
  · have hconfig : (loop.compareWith phase value).config = loop.config :=
      congrArg Duty.config (duty_compareWith loop phase value)
    rw [referencePhase_compareWith, referencePhase_compareWith, hconfig]
    exact h.phase_rel

theorem onTag_of_output (hmodulus : 0 < loop.config.modulus.toNat) (hrunning : loop.running = true)
    {tag later : Tag} (hreference : loop.reference ≠ some tag.channel)
    (houtput : tag.channel = loop.config.outputChannel)
    (hlater : Delayed loop.config.modulus.toNat offset tag later) (target : Int32) :
    (other.onTag target later).2 = (loop.onTag target tag).2 ∧
      Alike offset (loop.onTag target tag).1 (other.onTag target later).1 := by
  have hrunning' : other.running = true := h.running_eq.trans hrunning
  have hreference' : other.reference ≠ some later.channel := by
    rwa [h.reference_eq, hlater.channel_eq]
  have houtput' : later.channel = other.config.outputChannel := by
    rw [hlater.channel_eq, houtput, h.config_eq]
  -- The tag makes a comparison for both loops or for neither.
  have hidle (hquiet : loop.mode.steers = false ∨
      loop.referencePhase = none ∧ other.referencePhase = none) :
      (other.onTag target later).2 = (loop.onTag target tag).2 ∧
        Alike offset (loop.onTag target tag).1 (other.onTag target later).1 := by
    obtain ⟨lastTag, htag⟩ := exists_onTag_eq_counted hrunning hreference
      (Or.inr (hquiet.imp_right And.left)) target
    obtain ⟨lastTag', htag'⟩ := exists_onTag_eq_counted hrunning' hreference'
      (Or.inr (h.mode_eq ▸ hquiet.imp_right And.right)) target
    rw [htag, htag']
    exact ⟨rfl, h.counted _ _ _ _⟩
  by_cases hsteers : loop.mode.steers = true
  · have hrel := h.phase_rel
    generalize hphase : loop.referencePhase = phase at hrel
    generalize hphase' : other.referencePhase = phase' at hrel
    cases hrel with
    | none => exact hidle (Or.inr ⟨hphase, hphase'⟩)
    | some hrel =>
        rw [onTag_eq_compared hrunning hreference houtput hsteers hphase,
          onTag_eq_compared hrunning' hreference' houtput' (h.mode_eq ▸ hsteers) hphase']
        have halike := (h.counted (loop.tagCount + 1) (other.tagCount + 1) tag.value
          later.value).compareWith hmodulus hrel hlater.value_rel
        exact ⟨congrArg some halike.actuator_eq, halike⟩
  · exact hidle (Or.inl (Bool.eq_false_iff.mpr hsteers))

theorem onTag {reference : UInt8} (hmodulus : 0 < loop.config.modulus.toNat)
    (hrunning : loop.running = true) (hreference : loop.reference = some reference)
    (hother : reference ≠ loop.config.outputChannel) {tag later : Tag}
    (htag : tag.channel = reference ∨ tag.channel = loop.config.outputChannel)
    (hlater : Delayed loop.config.modulus.toNat offset tag later) (target : Int32) :
    (other.onTag target later).2 = (loop.onTag target tag).2 ∧
      Alike offset (loop.onTag target tag).1 (other.onTag target later).1 := by
  rcases htag with hchannel | houtput
  · obtain ⟨channel, value⟩ := tag
    obtain ⟨laterChannel, laterValue⟩ := later
    obtain ⟨rfl, hvalue⟩ := hlater
    obtain rfl : laterChannel = reference := hchannel
    rw [onTag_of_reference hrunning hreference,
      onTag_of_reference (h.running_eq.trans hrunning) (h.reference_eq.trans hreference)]
    have hcounted := h.counted (loop.tagCount + 1) (other.tagCount + 1) loop.lastTag other.lastTag
    exact ⟨rfl, hcounted.onReference hvalue target⟩
  · refine h.onTag_of_output hmodulus hrunning ?_ houtput hlater target
    rw [hreference, houtput]
    exact fun heq => hother (Option.some.inj heq)

end Alike

/-- Whether a loop of the given tuning and reference looks at the value of a tag. -/
def heeds (config : Config) (reference : UInt8) (tag : Tag) : Bool :=
  tag.channel == reference || tag.channel == config.outputChannel

section Runs

variable {config : Config} {mode : Mode} {reference : UInt8} {offset : Int}
  (hmodulus : 0 < config.modulus.toNat) (hother : reference ≠ config.outputChannel)
include hmodulus hother

theorem onTags_of_delayed {steering other : Steering}
    (h : InService config mode reference steering) (halike : Alike offset steering.loop other.loop)
    (htarget : other.registers.target = steering.registers.target) {tags later : List Tag}
    (hlater : List.Forall₂ (Delayed config.modulus.toNat offset)
      (tags.filter (heeds config reference)) later) :
    (other.onTags later).2 = (steering.onTags tags).2 ∧
      Alike offset (steering.onTags tags).1.loop (other.onTags later).1.loop := by
  induction tags generalizing steering other later with
  | nil =>
      cases hlater
      exact ⟨rfl, halike⟩
  | cons tag tags ih =>
      obtain ⟨hloop, hcode⟩ := steering.onTag_eq tag
      by_cases htag : heeds config reference tag = true
      · rw [List.filter_cons_of_pos htag] at hlater
        cases hlater with
        | @cons _ delayed _ rest hdelayed hrest =>
            obtain ⟨hloop', hcode'⟩ := other.onTag_eq delayed
            rw [heeds, Bool.or_eq_true, beq_iff_eq, beq_iff_eq] at htag
            rw [← h.config_eq] at hmodulus hother htag hdelayed
            obtain ⟨hcodes, hnext⟩ := halike.onTag hmodulus h.running h.reference_eq hother htag
              hdelayed steering.registers.target
            rw [htarget] at hloop' hcode'
            rw [← hloop, ← hloop'] at hnext
            rw [← hcode, ← hcode'] at hcodes
            obtain ⟨hlast, hend⟩ := ih (h.onTag tag) hnext
              (by rw [other.target_onTag, steering.target_onTag, htarget]) hrest
            simp only [Steering.onTags, hcodes, hlast]
            exact ⟨trivial, hend⟩
      · rw [List.filter_cons_of_neg htag] at hlater
        rw [heeds, Bool.or_eq_true, beq_iff_eq, beq_iff_eq, not_or, ← h.config_eq] at htag
        obtain ⟨hsilent, hnext⟩ := halike.onTag_of_foreign (h.reference_ne (Ne.symm htag.1)) htag.2
          h.running steering.registers.target
        rw [← hloop] at hnext
        rw [← hcode] at hsilent
        obtain ⟨hlast, hend⟩ := ih (h.onTag tag) hnext (by rw [steering.target_onTag, htarget])
          hlater
        simp only [Steering.onTags, hsilent, hlast]
        exact ⟨rfl, hend⟩

end Runs

/-- Two loops of which one has met the same phases later: whatever they show but the tag count and
the latest output tag is the same. -/
structure SteeredAlike (modulus : Nat) (offset : Int) (steering other : Steering) : Prop where
  loop_eq : other.loop = { steering.loop with
    tagCount := other.loop.tagCount, lastTag := other.loop.lastTag
    referencePhase := other.loop.referencePhase }
  phase_rel : Option.Rel (Later modulus offset) steering.loop.referencePhase
    other.loop.referencePhase
  registers_eq : other.registers = { steering.registers with
    status := { steering.registers.status with
      tagCount := other.loop.tagCount, lastTag := other.loop.lastTag } }

theorem Alike.steeredAlike {offset : Int} {steering other : Steering}
    (h : Alike offset steering.loop other.loop) (hpublished : Published steering)
    (hpublished' : Published other) (htarget : other.registers.target = steering.registers.target) :
    SteeredAlike steering.loop.config.modulus.toNat offset steering other := by
  have hloop := eq_of_withoutTags_eq h.withoutTags_eq
  have hstatus : other.registers.status = { steering.registers.status with
      tagCount := other.loop.tagCount, lastTag := other.loop.lastTag } := by
    rw [hpublished.status_eq, hpublished'.status_eq]
    exact congrArg Loop.status hloop
  have hcurrent : other.registers.current = steering.registers.current := by
    rw [hpublished.current_eq, hpublished'.current_eq, hloop]
  refine ⟨hloop, h.phase_rel, ?_⟩
  rcases hregisters : other.registers with ⟨status, target, current⟩
  rw [hregisters] at hstatus htarget hcurrent
  dsimp only at hstatus htarget hcurrent
  rw [hstatus, htarget, hcurrent]

/-- From one initialisation and start on, two streams of tags whose reference and output tags differ
by one constant phase, up to whole turns, give the same codes and leave the same loop. It does not
matter which tags of other channels are among them. -/
theorem delayed_stream_steers_alike {steering ready : Steering} {mode : Mode} {reference : UInt8}
    {actuator : Nat} (hvalid : steering.loop.config.validate = .ok ())
    (hinit : steering.init mode reference actuator = .ok ready) {offset : Int}
    {tags later : List Tag}
    (hlater : List.Forall₂ (Delayed steering.loop.config.modulus.toNat offset)
      (tags.filter (heeds steering.loop.config reference))
      (later.filter (heeds steering.loop.config reference))) :
    let steered := ready.start.onTags tags
    let steeredLater := ready.start.onTags later
    steeredLater.2 = steered.2 ∧
      SteeredAlike steering.loop.config.modulus.toNat offset steered.1 steeredLater.1 := by
  intro steered steeredLater
  have husable := (validate_eq_ok_iff _).mp hvalid
  have hmodulus : 0 < steering.loop.config.modulus.toNat :=
    Nat.lt_of_lt_of_le Nat.two_pos husable.two_le_modulus
  obtain ⟨hstart, hother, -, -, hnone⟩ := inService_start husable hinit
  have hfresh (delay : Int) : Alike delay ready.start.loop ready.start.loop := by
    refine ⟨rfl, ?_⟩
    rw [hnone]
    exact .none
  have hitself : List.Forall₂ (Delayed steering.loop.config.modulus.toNat 0)
      (later.filter (heeds steering.loop.config reference))
      (later.filter (heeds steering.loop.config reference)) :=
    List.forall₂_same.mpr fun tag _ => delayed_refl _ tag
  -- Both streams are compared with the second one without the tags that are not heeded.
  obtain ⟨hcodes, halike⟩ := onTags_of_delayed hmodulus hother hstart (hfresh offset) rfl hlater
  obtain ⟨hcodes', halike'⟩ := onTags_of_delayed hmodulus hother hstart (hfresh 0) rfl hitself
  have hpublished : Published ready.start := (published_init hinit).start
  have hconfig : steered.1.loop.config = steering.loop.config :=
    (congrArg Duty.config (duty_onTags ready.start tags)).trans hstart.config_eq
  refine ⟨hcodes'.symm.trans hcodes, ?_⟩
  rw [← hconfig]
  exact (halike.of_alike_zero halike').steeredAlike (hpublished.onTags tags)
    (hpublished.onTags later) (by rw [target_onTags, target_onTags])

def striding : Steering :=
  ⟨.stopped { modulus := 4095, shiftStep := 5000, lockSamples := 2 } .slave none 0,
    ⟨.fresh 0 0, -12000, 0⟩⟩

def early : List Tag :=
  [⟨0, 9⟩, ⟨1, 100⟩, ⟨7, 4000⟩, ⟨0, 40⟩, ⟨1, 4000⟩, ⟨0, 4294967295⟩, ⟨0, 3000⟩]

/-- The tags of the stream above 1000 units later and some turns apart, with other foreign tags. -/
def late : List Tag :=
  [⟨0, 1009⟩, ⟨1, 5195⟩, ⟨0, 1040⟩, ⟨1, 905⟩, ⟨6, 1⟩, ⟨6, 2⟩, ⟨0, 9445⟩, ⟨0, 4000⟩]

theorem delayed_stream_steers_alike_striding :
    ∃ ready, striding.init .slave 1 32768 = .ok ready ∧
      (ready.start.onTags early).2 = [32776, 32768, 32776] ∧
      (ready.start.onTags late).2 = (ready.start.onTags early).2 ∧
      SteeredAlike 4095 1000 (ready.start.onTags early).1 (ready.start.onTags late).1 := by
  obtain ⟨ready, hready⟩ : ∃ ready, striding.init .slave 1 32768 = .ok ready := ⟨_, rfl⟩
  have hvalid : striding.loop.config.validate = .ok () := by decide
  have hlater : List.Forall₂ (Delayed striding.loop.config.modulus.toNat 1000)
      (early.filter (heeds striding.loop.config 1)) (late.filter (heeds striding.loop.config 1)) :=
    .cons ⟨rfl, rfl⟩ (.cons ⟨rfl, rfl⟩ (.cons ⟨rfl, rfl⟩ (.cons ⟨rfl, rfl⟩ (.cons ⟨rfl, rfl⟩
      (.cons ⟨rfl, rfl⟩ .nil)))))
  obtain ⟨hcodes, hsteered⟩ := delayed_stream_steers_alike hvalid hready hlater
  refine ⟨ready, hready, ?_, hcodes, hsteered⟩
  cases hready
  decide

end TimingNode.Proofs.CommonPhase
