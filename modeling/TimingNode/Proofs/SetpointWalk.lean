import Mathlib.Algebra.Order.Floor.Div
import TimingNode.Proofs.LoopInputs
import TimingNode.Proofs.PublishedLoop

namespace TimingNode.Proofs.SetpointWalk

open TimingNode.Loop
open TimingNode.Proofs.HaltedLoop
open TimingNode.Proofs.LoopInputs
open TimingNode.Proofs.LoopTags
open TimingNode.Proofs.LoopTuning
open TimingNode.Proofs.PublishedLoop
open TimingNode.Proofs.SteeringArithmetic

def left (step distance : Int) (count : Nat) : Int :=
  distance.sign * max 0 (distance.natAbs - count * step)

theorem left_zero (step distance : Int) : left step distance 0 = distance := by
  have habs : max 0 ((distance.natAbs : Int) - (0 : Nat) * step) = distance.natAbs := by omega
  rw [left, habs, Int.sign_mul_natAbs]

theorem left_ne_zero_iff {step : Int} (hstep : 0 < step) (distance : Int) (count : Nat) :
    left step distance count ≠ 0 ↔ count < distance.natAbs ⌈/⌉ step.toNat := by
  obtain ⟨size, rfl⟩ := Int.eq_ofNat_of_zero_le (Int.le_of_lt hstep)
  rw [Int.toNat_natCast, ← Nat.not_le, ceilDiv_le_iff_le_mul (Int.natCast_pos.mp hstep), left,
    Int.mul_ne_zero_iff, Ne, Int.sign_eq_zero_iff_zero, Nat.mul_comm size, ← Int.natCast_mul]
  generalize count * size = walked
  omega

section Walk

variable {config : Config} (hstep : 0 < config.shiftStep.toInt) (target setpoint : Int32)
include hstep

theorem toInt_walk_eq_add :
    (walk config target setpoint).toInt = setpoint.toInt +
      (target.toInt - setpoint.toInt).sign *
        min config.shiftStep.toInt (target.toInt - setpoint.toInt).natAbs := by
  rw [toInt_walk hstep]
  rcases Int.lt_trichotomy (target.toInt - setpoint.toInt) 0 with hneg | hzero | hpos
  · rw [Int.sign_eq_neg_one_of_neg hneg, if_neg (by omega)]
    omega
  · rw [hzero, if_neg (by omega), Int.sign_zero]
    omega
  · rw [Int.sign_eq_one_of_pos hpos, if_pos (by omega)]
    omega

theorem sub_walk_eq_left {distance : Int} {count : Nat}
    (h : target.toInt - setpoint.toInt = left config.shiftStep.toInt distance count) :
    target.toInt - (walk config target setpoint).toInt =
      left config.shiftStep.toInt distance (count + 1) := by
  have hsucc : ((count + 1 : Nat) : Int) * config.shiftStep.toInt =
      count * config.shiftStep.toInt + config.shiftStep.toInt := by
    rw [Int.natCast_succ, Int.add_mul, Int.one_mul]
  rw [left] at h ⊢
  rw [toInt_walk hstep, hsucc]
  generalize (count : Int) * config.shiftStep.toInt = walked at h ⊢
  rcases Int.lt_trichotomy distance 0 with hneg | rfl | hpos
  · rw [Int.sign_eq_neg_one_of_neg hneg] at h ⊢
    split <;> omega
  · rw [Int.sign_zero] at h ⊢
    split <;> omega
  · rw [Int.sign_eq_one_of_pos hpos] at h ⊢
    split <;> omega

end Walk

def refers (reference : Option UInt8) : Input → Bool
  | .tag received => reference == some received.channel
  | .target _ => false

theorem duty_feed (steering : Steering) (input : Input) :
    duty (feed steering input).loop = duty steering.loop := by
  cases input with
  | tag received =>
      rw [feed, (steering.onTag_eq received).1]
      exact duty_onTag steering.loop _ received
  | target units => rfl

theorem duty_feedAll (steering : Steering) (inputs : List Input) :
    duty (feedAll steering inputs).loop = duty steering.loop := by
  induction inputs generalizing steering with
  | nil => rfl
  | cons input inputs ih => exact (ih _).trans (duty_feed steering input)

theorem feedAll_append (steering : Steering) (inputs : List Input) (input : Input) :
    feedAll steering (inputs ++ [input]) = feed (feedAll steering inputs) input := by
  simp [feedAll]

theorem setpoint_feed_of_not_refers {steering : Steering} {input : Input}
    (h : refers steering.loop.reference input = false) :
    (feed steering input).loop.setpoint = steering.loop.setpoint := by
  cases input with
  | tag received =>
      rw [feed, (steering.onTag_eq received).1]
      exact (onTag_of_not_reference _ (by simpa [refers] using h)).1
  | target units => rfl

theorem setpoint_feed_of_refers {steering : Steering} {input : Input}
    (hrunning : steering.loop.running = true)
    (h : refers steering.loop.reference input = true) :
    (feed steering input).loop.setpoint =
        walk steering.loop.config steering.registers.target steering.loop.setpoint ∧
      (feed steering input).registers.target = steering.registers.target := by
  cases input with
  | tag received =>
      rw [feed, steering.target_onTag, (steering.onTag_eq received).1,
        onTag_of_reference hrunning (by simpa [refers] using h)]
      exact ⟨rfl, rfl⟩
  | target units => cases h

theorem feedAll_of_constant {steering : Steering} (hrunning : steering.loop.running = true)
    (hstep : 0 < steering.loop.config.shiftStep.toInt) {inputs : List Input}
    (hconstant : ∀ units, .target units ∈ inputs → units = steering.registers.target) :
    (feedAll steering inputs).registers.target = steering.registers.target ∧
      steering.registers.target.toInt - (feedAll steering inputs).loop.setpoint.toInt =
        left steering.loop.config.shiftStep.toInt
          (steering.registers.target.toInt - steering.loop.setpoint.toInt)
          (inputs.countP (refers steering.loop.reference)) := by
  induction inputs using List.reverseRecOn with
  | nil => exact ⟨rfl, (left_zero _ _).symm⟩
  | append_singleton inputs input ih =>
      obtain ⟨htarget, hleft⟩ := ih fun units hunits => hconstant units (by simp [hunits])
      have hduty := duty_feedAll steering inputs
      have hreference : (feedAll steering inputs).loop.reference = steering.loop.reference :=
        congrArg Duty.reference hduty
      rw [feedAll_append, List.countP_append, List.countP_singleton]
      by_cases hrefers : refers steering.loop.reference input = true
      · obtain ⟨hsetpoint, hheld⟩ := setpoint_feed_of_refers
          ((congrArg Duty.running hduty).trans hrunning) (hreference ▸ hrefers)
        have hconfig : (feedAll steering inputs).loop.config = steering.loop.config :=
          congrArg Duty.config hduty
        rw [if_pos hrefers, hsetpoint, hheld, htarget, hconfig]
        exact ⟨rfl, sub_walk_eq_left hstep _ _ hleft⟩
      · have hother : refers (feedAll steering inputs).loop.reference input = false := by
          rw [hreference]
          exact Bool.eq_false_iff.mpr hrefers
        rw [if_neg hrefers, Nat.add_zero, setpoint_feed_of_not_refers hother]
        refine ⟨?_, hleft⟩
        cases input with
        | tag received => exact (Steering.target_onTag _ received).trans htarget
        | target units => exact hconstant units (by simp)

theorem published_feedAll {steering : Steering} (h : Published steering) (inputs : List Input) :
    Published (feedAll steering inputs) := by
  induction inputs generalizing steering with
  | nil => exact h
  | cons input inputs ih =>
      cases input with
      | tag received => exact ih (h.onTag received)
      | target units => exact ih ⟨h.status_eq, h.current_eq⟩

def isBusy (config : Config) (steering : Steering) : Bool :=
  (Shifter.poll config.outputChannel (⟨config, steering.registers⟩ : SetpointShifter)).1

theorem isBusy_iff {steering : Steering} (h : Published steering) (config : Config) :
    isBusy config steering = true ↔
      steering.registers.target.toInt - steering.loop.setpoint.toInt ≠ 0 := by
  simp only [isBusy, Shifter.poll, Registers.isShifting, Registers.isMoving, h.current_eq,
    beq_self_eq_true, Bool.true_and, bne_iff_ne, ne_eq, ← Int32.toInt_inj]
  omega

/-- In whatever state a loop is in service, and whatever tags and commands have reached it since, no
input but a reference tag moves its setpoint, and a reference tag moves it toward the setpoint
commanded then, by a step or by what is left. Under a constant command the distance left after any
number of reference tags is known, and the shifter is busy up to the one that covers the rest. -/
theorem setpoint_walks_to_target {config : Config} {registers : Registers} {created : Steering}
    (hcreate : Steering.create config registers = .ok created) (operations : List Operation)
    (hrunning : (performAll created operations).1.loop.running = true) (inputs : List Input) :
    let started := (performAll created operations).1
    let fed := feedAll started inputs
    let ahead := fed.registers.target.toInt - fed.loop.setpoint.toInt
    (∀ input, refers started.loop.reference input = false →
        (feed fed input).loop.setpoint = fed.loop.setpoint) ∧
      (∀ input, refers started.loop.reference input = true →
        (feed fed input).loop.setpoint.toInt =
          fed.loop.setpoint.toInt + ahead.sign * min config.shiftStep.toInt ahead.natAbs) ∧
      ((∀ units, .target units ∈ inputs → units = started.registers.target) →
        let distance := started.registers.target.toInt - started.loop.setpoint.toInt
        let count := inputs.countP (refers started.loop.reference)
        started.registers.target.toInt - fed.loop.setpoint.toInt =
            distance.sign * max 0 (distance.natAbs - count * config.shiftStep.toInt) ∧
          (isBusy config fed = true ↔
            count < distance.natAbs ⌈/⌉ config.shiftStep.toInt.toNat)) := by
  intro started fed ahead
  obtain ⟨hcreated, hconfig, hvalid⟩ := published_create hcreate
  have hstep : 0 < config.shiftStep.toInt := ((validate_eq_ok_iff config).mp hvalid).shiftStep_pos
  have hstarted : started.loop.config = config :=
    (config_performAll created operations).trans hconfig
  have hduty : duty fed.loop = duty started.loop := duty_feedAll started inputs
  have hreference : fed.loop.reference = started.loop.reference := congrArg Duty.reference hduty
  have hpublished : Published fed := published_feedAll (hcreated.performAll operations) inputs
  refine ⟨?_, ?_, ?_⟩
  · intro input hinput
    exact setpoint_feed_of_not_refers (hreference ▸ hinput)
  · intro input hinput
    obtain ⟨hsetpoint, -⟩ := setpoint_feed_of_refers
      ((congrArg Duty.running hduty).trans hrunning) (hreference ▸ hinput)
    have hfed : fed.loop.config = config := (congrArg Duty.config hduty).trans hstarted
    rw [hsetpoint, hfed]
    exact toInt_walk_eq_add hstep _ _
  · intro hconstant distance count
    obtain ⟨htarget, hleft⟩ := feedAll_of_constant hrunning (hstarted ▸ hstep) hconstant
    rw [hstarted] at hleft
    refine ⟨hleft, ?_⟩
    rw [isBusy_iff hpublished config, ← left_ne_zero_iff hstep, ← hleft, htarget]

def widest : Config :=
  { shiftStep := 2147483647 }

/-- What takes a loop to the greatest setpoint and commands the least one. -/
def turnedBack : List Operation :=
  [.init .slave 1 32768, .start, .setTarget 2147483647, .tag ⟨1, 0⟩, .setTarget (-2147483648)]

/-- Two reference tags, after which one unit of the whole 32 bits is left. -/
def twoSteps : List Input :=
  [.tag ⟨1, 5⟩, .tag ⟨0, 9⟩, .target (-2147483648), .tag ⟨1, 7⟩, .tag ⟨6, 0⟩]

theorem setpoint_walks_to_target_widest :
    ∃ created, Steering.create widest .fresh = .ok created ∧
      let started := (performAll created turnedBack).1
      let nearby := feedAll started twoSteps
      let arrived := feedAll started (twoSteps ++ [.tag ⟨1, 8⟩])
      started.loop.setpoint.toInt = 2147483647 ∧
        started.registers.target.toInt - nearby.loop.setpoint.toInt = -1 ∧
        isBusy widest nearby = true ∧
        started.registers.target.toInt - arrived.loop.setpoint.toInt = 0 ∧
        isBusy widest arrived = false := by
  obtain ⟨created, hcreate⟩ : ∃ created, Steering.create widest .fresh = .ok created := ⟨_, rfl⟩
  have hrunning : (performAll created turnedBack).1.loop.running = true := by
    cases hcreate
    decide
  have hgreatest : (performAll created turnedBack).1.loop.setpoint.toInt = 2147483647 := by
    cases hcreate
    decide
  have hleast : (performAll created turnedBack).1.registers.target = -2147483648 := by
    cases hcreate
    decide
  have hleastInt : (performAll created turnedBack).1.registers.target.toInt = -2147483648 := by
    cases hcreate
    decide
  have hreference : (performAll created turnedBack).1.loop.reference = some 1 := by
    cases hcreate
    decide
  obtain ⟨-, -, hnearby⟩ := setpoint_walks_to_target hcreate turnedBack hrunning twoSteps
  obtain ⟨-, -, harrived⟩ :=
    setpoint_walks_to_target hcreate turnedBack hrunning (twoSteps ++ [.tag ⟨1, 8⟩])
  obtain ⟨hone, hbusy⟩ := hnearby (by simp [twoSteps, hleast])
  obtain ⟨hnone, hidle⟩ := harrived (by simp [twoSteps, hleast])
  rw [hgreatest, hleastInt, hreference] at hone hbusy hnone hidle
  refine ⟨created, hcreate, hgreatest, ?_, hbusy.mpr (by decide), ?_, ?_⟩
  · rw [hleastInt, hone]
    decide
  · rw [hleastInt, hnone]
    decide
  · rw [← Bool.not_eq_true, hidle]
    decide

end TimingNode.Proofs.SetpointWalk
