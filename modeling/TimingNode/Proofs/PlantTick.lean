import TimingNode.Plant
import TimingNode.Proofs.LoopTags
import TimingNode.Proofs.RegisterWord
import TimingNode.Proofs.SteeringArithmetic

namespace TimingNode.Proofs.PlantTick

open TimingNode.Loop
open TimingNode.Tag
open TimingNode.Plant
open TimingNode.Proofs.LoopTags
open TimingNode.Proofs.RegisterWord
open TimingNode.Proofs.SteeringArithmetic

variable {depth : Nat}

def referenceAfter (oscillator : Oscillator) : Nat :=
  (oscillator.reference + Oscillator.advancePerTick) % oscillator.modulus

def outputAt (oscillator : Oscillator) (actuator : Nat) : Nat :=
  Phase.fold ((referenceAfter oscillator : Int) + oscillator.balance - actuator)
    oscillator.modulus

def tagsOf (oscillator : Oscillator) (actuator : Nat) : List Tag :=
  [⟨Wiring.referenceChannel, UInt32.ofNat (referenceAfter oscillator)⟩,
    ⟨Wiring.outputChannel, UInt32.ofNat (outputAt oscillator actuator)⟩]

theorem referenceAfter_lt {oscillator : Oscillator} (hpos : 0 < oscillator.modulus) :
    referenceAfter oscillator < oscillator.modulus :=
  Nat.mod_lt _ hpos

theorem outputAt_lt {oscillator : Oscillator} (hpos : 0 < oscillator.modulus) (actuator : Nat) :
    outputAt oscillator actuator < oscillator.modulus :=
  Phase.fold_lt _ hpos

theorem toNat_ofNat_phase {phase : Nat} (hphase : phase < 0x1000000) :
    (UInt32.ofNat phase).toNat = phase :=
  UInt32.toNat_ofNat_of_lt' (Nat.lt_trans hphase (by decide))

theorem ofRegister_word {channel : UInt8} {phase : Nat} (hchannel : channel.toNat < 0x80)
    (hphase : phase < 0x1000000) :
    ofRegister (Oscillator.word channel phase) = ⟨channel, UInt32.ofNat phase⟩ := by
  refine ofRegister_toRegister hchannel ?_
  rw [toNat_ofNat_phase hphase]
  exact hphase

theorem map_ofRegister_tick {oscillator : Oscillator} (hpos : 0 < oscillator.modulus)
    (hmodulus : oscillator.modulus ≤ 0x1000000) (actuator : Nat) :
    (oscillator.tick actuator).1.map ofRegister = tagsOf oscillator actuator := by
  have hreference := referenceAfter_lt hpos
  have houtput := outputAt_lt hpos actuator
  change [ofRegister (Oscillator.word Wiring.referenceChannel (referenceAfter oscillator)),
    ofRegister (Oscillator.word Wiring.outputChannel (outputAt oscillator actuator))] = _
  rw [ofRegister_word (by decide) (by omega), ofRegister_word (by decide) (by omega)]
  rfl

theorem tick?_eq_ok {oscillator : Oscillator} (hpos : 0 < oscillator.modulus)
    (hmodulus : oscillator.modulus ≤ 0x1000000)
    (hreference : oscillator.reference < oscillator.modulus) (actuator : Nat) :
    oscillator.tick? actuator = .ok (oscillator.tick actuator) := by
  have hfits : ¬ 1 <<< 32 ≤ oscillator.reference + Oscillator.advancePerTick := by
    rw [Oscillator.advancePerTick]
    omega
  rw [Oscillator.tick?, if_neg hfits, if_neg (by omega)]

/-- A queue into which tags were pushed, some perhaps in vain. -/
def offerAll (fifo : Fifo depth) (tags : List Tag) : Fifo depth :=
  tags.foldl (fun fifo tag => (fifo.push tag).2) fifo

theorem offerAll_spec (fifo : Fifo depth) (tags : List Tag) :
    (offerAll fifo tags).queue = (fifo.queue ++ tags).take depth ∧
      (offerAll fifo tags).overrun =
        (fifo.overrun || decide (depth < fifo.queue.length + tags.length)) := by
  have hle := fifo.length_le
  induction tags generalizing fifo with
  | nil =>
      refine ⟨?_, ?_⟩
      · rw [List.append_nil, List.take_of_length_le hle]
        rfl
      · rw [List.length_nil, decide_eq_false (by omega), Bool.or_false]
        rfl
  | cons tag tags ih =>
      obtain ⟨hqueue, hoverrun⟩ := ih (fifo.push tag).2 (fifo.push tag).2.length_le
      change (offerAll (fifo.push tag).2 tags).queue = _ ∧
        (offerAll (fifo.push tag).2 tags).overrun = _
      rw [hqueue, hoverrun]
      by_cases hroom : fifo.queue.length < depth
      · obtain ⟨-, hpushed, hkept⟩ := Fifo.push_of_lt tag hroom
        rw [hpushed, hkept, List.append_assoc, List.length_append, Nat.add_assoc,
          Nat.add_comm [tag].length]
        exact ⟨rfl, rfl⟩
      · obtain ⟨-, hpushed, hlost⟩ := Fifo.push_of_full tag hroom
        rw [hpushed, hlost, List.take_append_of_le_length (by omega),
          List.take_append_of_le_length (by omega), List.length_cons, Bool.true_or,
          decide_eq_true (by omega), Bool.or_true]
        exact ⟨rfl, rfl⟩

theorem foldl_push (service : Service depth) (tags : List Tag) :
    tags.foldl (fun service tag => (service.push tag).2) service =
      { service with fifo := offerAll service.fifo tags } := by
  induction tags generalizing service with
  | nil => rfl
  | cons tag tags ih => exact ih (service.push tag).2

theorem foldl_pushRegister (service : Service depth) (words : List UInt32) :
    words.foldl (fun service word => (service.pushRegister word).2) service =
      { service with fifo := offerAll service.fifo (words.map ofRegister) } := by
  rw [← foldl_push, List.foldl_map]
  rfl

theorem tick_eq {plant : Plant depth} (hpos : 0 < plant.oscillator.modulus)
    (hmodulus : plant.oscillator.modulus ≤ 0x1000000) :
    plant.tick = Plant.drain
      { service := ⟨plant.service.toSteering, offerAll plant.service.fifo
          (tagsOf plant.oscillator plant.service.loop.actuator)⟩
        oscillator := { plant.oscillator with reference := referenceAfter plant.oscillator }
        codes := plant.codes } := by
  rw [tick]
  dsimp only
  rw [offer, foldl_pushRegister, map_ofRegister_tick hpos hmodulus]
  rfl

theorem tick_of_room {plant : Plant depth} (hoverrun : plant.service.fifo.overrun = false)
    (hroom : plant.service.fifo.queue.length + 2 ≤ depth)
    (hpos : 0 < plant.oscillator.modulus) (hmodulus : plant.oscillator.modulus ≤ 0x1000000) :
    let handled := plant.service.toSteering.onTags
      (plant.service.fifo.queue ++ tagsOf plant.oscillator plant.service.loop.actuator)
    plant.tick = (.ok (plant.service.fifo.queue.length + 2), {
      service := ⟨handled.1, .empty depth⟩
      oscillator := { plant.oscillator with reference := referenceAfter plant.oscillator }
      codes := plant.codes ++ handled.2 }) := by
  obtain ⟨hqueue, hlatched⟩ := offerAll_spec plant.service.fifo
    (tagsOf plant.oscillator plant.service.loop.actuator)
  have hlength : (tagsOf plant.oscillator plant.service.loop.actuator).length = 2 := rfl
  rw [List.take_of_length_le (by rw [List.length_append]; omega)] at hqueue
  rw [hoverrun, hlength, Bool.false_or, decide_eq_false (by omega)] at hlatched
  dsimp only
  rw [tick_eq hpos hmodulus, Plant.drain, Service.drain, if_neg (by simp [hlatched])]
  dsimp only
  rw [hqueue, List.length_append, hlength]
  rfl

theorem tick_of_empty {plant : Plant depth} (hdepth : 2 ≤ depth)
    (hfifo : plant.service.fifo = .empty depth) (hpos : 0 < plant.oscillator.modulus)
    (hmodulus : plant.oscillator.modulus ≤ 0x1000000) :
    let handled := plant.service.toSteering.onTags
      (tagsOf plant.oscillator plant.service.loop.actuator)
    plant.tick = (.ok 2, {
      service := ⟨handled.1, .empty depth⟩
      oscillator := { plant.oscillator with reference := referenceAfter plant.oscillator }
      codes := plant.codes ++ handled.2 }) := by
  have hqueue : plant.service.fifo.queue = [] := congrArg Fifo.queue hfifo
  have htick := tick_of_room (congrArg Fifo.overrun hfifo)
    (show plant.service.fifo.queue.length + 2 ≤ depth by rw [hqueue]; exact hdepth) hpos hmodulus
  rw [hqueue] at htick
  exact htick

theorem tick_of_overrun {plant : Plant depth} (hfaulted : plant.service.loop.faulted = false)
    (hfull : plant.service.fifo.overrun = true ∨ depth < plant.service.fifo.queue.length + 2)
    (hpos : 0 < plant.oscillator.modulus) (hmodulus : plant.oscillator.modulus ≤ 0x1000000) :
    plant.tick = (.error .overrun, {
      service := ⟨plant.service.toSteering.halt, offerAll plant.service.fifo
        (tagsOf plant.oscillator plant.service.loop.actuator)⟩
      oscillator := { plant.oscillator with reference := referenceAfter plant.oscillator }
      codes := plant.codes }) := by
  have hlatched := (offerAll_spec plant.service.fifo
    (tagsOf plant.oscillator plant.service.loop.actuator)).2
  have hlength : (tagsOf plant.oscillator plant.service.loop.actuator).length = 2 := rfl
  have hoverrun : (plant.service.fifo.overrun ||
      decide (depth < plant.service.fifo.queue.length + 2)) = true := by
    simpa only [Bool.or_eq_true, decide_eq_true_eq] using hfull
  rw [hlength, hoverrun] at hlatched
  rw [tick_eq hpos hmodulus, Plant.drain, Service.drain, if_pos hlatched]
  dsimp only
  rw [hfaulted, if_neg Bool.false_ne_true]
  simp

/-- Between the two tags of a tick lies as much as between the balance and the actuator. -/
theorem wrap_outputAt_sub_referenceAfter {config : Config} {oscillator : Oscillator}
    (hmodulus : oscillator.modulus = config.modulus.toNat) (hpos : 0 < config.modulus.toNat)
    (actuator : Nat) :
    config.wrap ((outputAt oscillator actuator : Int) - referenceAfter oscillator) =
      config.wrap ((oscillator.balance : Int) - actuator) := by
  apply wrap_eq_of_emod_eq hpos
  rw [outputAt, Phase.cast_fold _ (by omega), hmodulus, Int.emod_sub_emod]
  congr 1
  omega

theorem tick_of_duty {config : Config} {mode : Mode} {plant : Plant depth} (hdepth : 2 ≤ depth)
    (hfifo : plant.service.fifo = .empty depth)
    (hmodulus : plant.oscillator.modulus = config.modulus.toNat)
    (hpos : 0 < config.modulus.toNat) (hle : config.modulus.toNat ≤ 0x1000000)
    (hduty : duty plant.service.loop = ⟨config, mode, some Wiring.referenceChannel, true, false⟩)
    (houtput : config.outputChannel = Wiring.outputChannel) (hsteers : mode.steers = true) :
    plant.tick.1 = .ok 2 ∧ plant.tick.2.service.fifo = .empty depth ∧
      plant.tick.2.oscillator =
        { plant.oscillator with reference := referenceAfter plant.oscillator } ∧
      plant.tick.2.service.registers.target = plant.service.registers.target ∧
      plant.tick.2.service.registers.status = plant.tick.2.service.loop.status ∧
      plant.tick.2.service.loop =
        (paired plant.service.loop plant.service.registers.target
          (UInt32.ofNat (referenceAfter plant.oscillator))
          (UInt32.ofNat (outputAt plant.oscillator plant.service.loop.actuator))).compareWith
            (referenceAfter plant.oscillator)
            (UInt32.ofNat (outputAt plant.oscillator plant.service.loop.actuator)) := by
  have hreference : referenceAfter plant.oscillator < config.modulus.toNat := by
    rw [← hmodulus]
    exact referenceAfter_lt (by omega)
  have hconfig : plant.service.loop.config = config := congrArg Duty.config hduty
  have hchannel : plant.service.loop.config.outputChannel = Wiring.outputChannel := by
    rw [hconfig, houtput]
  obtain ⟨htarget, hstatus, hloop⟩ := onTags_pair (congrArg Duty.running hduty)
    (congrArg Duty.reference hduty) (by rw [hchannel]; decide)
    ((congrArg (fun duty => duty.mode.steers) hduty).trans hsteers)
    (UInt32.ofNat (referenceAfter plant.oscillator))
    (UInt32.ofNat (outputAt plant.oscillator plant.service.loop.actuator))
  rw [hchannel] at htarget hstatus hloop
  rw [hconfig, toNat_ofNat_phase (by omega), Nat.mod_eq_of_lt hreference] at hloop
  rw [tick_of_empty hdepth hfifo (by omega) (by omega), tagsOf]
  exact ⟨rfl, rfl, rfl, htarget, hstatus, hloop⟩

theorem ticks_succ (count : Nat) (plant : Plant depth) :
    plant.ticks (count + 1) = (plant.ticks count).tick.2 := by
  induction count generalizing plant with
  | zero => rfl
  | succ count ih => exact ih plant.tick.2

end TimingNode.Proofs.PlantTick
