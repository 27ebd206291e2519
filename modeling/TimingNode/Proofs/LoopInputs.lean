import TimingNode.Proofs.LoopTags
import TimingNode.Proofs.LoopTuning
import TimingNode.Proofs.SteeringArithmetic

namespace TimingNode.Proofs.LoopInputs

open TimingNode.Loop
open TimingNode.Proofs.LoopTags
open TimingNode.Proofs.LoopTuning
open TimingNode.Proofs.SteeringArithmetic

inductive Input where
  | tag (received : Tag)
  | target (units : Int32)

def feed (steering : Steering) : Input → Steering
  | .tag received => (steering.onTag received).1
  | .target units => steering.setTarget units

def feedAll (steering : Steering) (inputs : List Input) : Steering :=
  inputs.foldl feed steering

/-- The reference tags among the inputs, oldest first: the setpoint commanded when the tag arrives,
`target` until the first command, and the value of the tag. -/
def references (reference : UInt8) : (target : Int32) → List Input → List (Int32 × UInt32)
  | _, [] => []
  | _, .target units :: inputs => references reference units inputs
  | target, .tag received :: inputs =>
      if reference = received.channel then
        (target, received.value) :: references reference target inputs
      else references reference target inputs

/-- The setpoint one step nearer to a target, and at the target if that is within a step. -/
def approach (step target setpoint : Int) : Int :=
  if setpoint < target then min (setpoint + step) target else max (setpoint - step) target

def walked (config : Config) (setpoint : Int) (seen : List (Int32 × UInt32)) : Int :=
  seen.foldl (fun setpoint tag => approach config.shiftStep.toInt tag.1.toInt setpoint) setpoint

structure InService (config : Config) (mode : Mode) (reference : UInt8) (steering : Steering) :
    Prop where
  duty_eq : duty steering.loop = ⟨config, mode, some reference, true, false⟩
  min_le : config.actuatorMin.toNat ≤ steering.loop.actuator
  le_max : steering.loop.actuator ≤ config.actuatorMax.toNat

namespace InService

variable {config : Config} {mode : Mode} {reference : UInt8} {steering : Steering}
  (h : InService config mode reference steering)
include h

theorem config_eq : steering.loop.config = config :=
  congrArg Duty.config h.duty_eq

theorem mode_eq : steering.loop.mode = mode :=
  congrArg Duty.mode h.duty_eq

theorem running : steering.loop.running = true :=
  congrArg Duty.running h.duty_eq

theorem reference_eq : steering.loop.reference = some reference :=
  congrArg Duty.reference h.duty_eq

theorem reference_ne {channel : UInt8} (hne : reference ≠ channel) :
    steering.loop.reference ≠ some channel := by
  rw [h.reference_eq]
  exact fun heq => hne (Option.some.inj heq)

theorem onTag (received : Tag) : InService config mode reference (steering.onTag received).1 := by
  have hloop := (steering.onTag_eq received).1
  have hmem : config.actuatorMin.toNat ≤ (steering.onTag received).1.loop.actuator ∧
      (steering.onTag received).1.loop.actuator ≤ config.actuatorMax.toNat := by
    rw [hloop]
    rcases actuator_onTag steering.loop steering.registers.target received with
      ⟨-, hactuator⟩ | ⟨phaseError, -, hactuator⟩
    · rw [hactuator]
      exact ⟨h.min_le, h.le_max⟩
    · rw [hactuator, h.config_eq]
      exact steer_mem h.min_le h.le_max phaseError
  constructor
  · rw [hloop, duty_onTag, h.duty_eq]
  · exact hmem.1
  · exact hmem.2

theorem feed (input : Input) : InService config mode reference (feed steering input) := by
  cases input with
  | tag received => exact h.onTag received
  | target units => exact ⟨h.duty_eq, h.min_le, h.le_max⟩

theorem setpoint_onReference (hstep : 0 < config.shiftStep.toInt) (value : UInt32) :
    (steering.onTag ⟨reference, value⟩).1.loop.setpoint.toInt =
      approach config.shiftStep.toInt steering.registers.target.toInt
        steering.loop.setpoint.toInt := by
  rw [(steering.onTag_eq _).1, onTag_of_reference h.running h.reference_eq, ← h.config_eq]
  rw [← h.config_eq] at hstep
  exact toInt_walk hstep _ _

theorem referencePhase_onReference (value : UInt32) :
    (steering.onTag ⟨reference, value⟩).1.loop.referencePhase =
      some (value.toNat % config.modulus.toNat) := by
  rw [(steering.onTag_eq _).1, onTag_of_reference h.running h.reference_eq, ← h.config_eq]
  rfl

theorem onTag_of_ne {received : Tag} (hne : reference ≠ received.channel) :
    (steering.onTag received).1.loop.setpoint = steering.loop.setpoint ∧
      (steering.onTag received).1.loop.referencePhase = steering.loop.referencePhase := by
  rw [(steering.onTag_eq received).1]
  exact onTag_of_not_reference _ (h.reference_ne hne)

end InService

theorem InService.feedAll {config : Config} {mode : Mode} {reference : UInt8} {steering : Steering}
    (h : InService config mode reference steering) (inputs : List Input) :
    InService config mode reference (feedAll steering inputs) := by
  induction inputs generalizing steering with
  | nil => exact h
  | cons input inputs ih => exact ih (h.feed input)

theorem setpoint_feedAll {config : Config} {mode : Mode} {reference : UInt8} {steering : Steering}
    (h : InService config mode reference steering) (hstep : 0 < config.shiftStep.toInt)
    (inputs : List Input) :
    (feedAll steering inputs).loop.setpoint.toInt =
      walked config steering.loop.setpoint.toInt
        (references reference steering.registers.target inputs) := by
  induction inputs generalizing steering with
  | nil => rfl
  | cons input inputs ih =>
      refine (ih (h.feed input)).trans ?_
      cases input with
      | target units => rfl
      | tag received =>
          rw [feed, steering.target_onTag, references]
          split
          · rename_i heq
            subst heq
            rw [h.setpoint_onReference hstep]
            rfl
          · rename_i hne
            rw [(h.onTag_of_ne hne).1]

theorem referencePhase_feedAll {config : Config} {mode : Mode} {reference : UInt8}
    {steering : Steering} (h : InService config mode reference steering) (inputs : List Input) :
    (feedAll steering inputs).loop.referencePhase =
      ((references reference steering.registers.target inputs).getLast?.map
        fun tag => tag.2.toNat % config.modulus.toNat).or steering.loop.referencePhase := by
  induction inputs generalizing steering with
  | nil => rfl
  | cons input inputs ih =>
      refine (ih (h.feed input)).trans ?_
      cases input with
      | target units => rfl
      | tag received =>
          rw [feed, steering.target_onTag, references]
          split
          · rename_i heq
            subst heq
            rw [h.referencePhase_onReference, List.getLast?_cons]
            cases (references received.channel steering.registers.target inputs).getLast? <;> rfl
          · rename_i hne
            rw [(h.onTag_of_ne hne).2]

theorem inService_start {steering ready : Steering} {mode : Mode} {reference : UInt8}
    {actuator : Nat} (husable : Usable steering.loop.config)
    (hinit : steering.init mode reference actuator = .ok ready) :
    InService steering.loop.config mode reference ready.start ∧
      reference ≠ steering.loop.config.outputChannel ∧
      ready.start.registers.target = steering.registers.target ∧
      ready.start.loop.setpoint = 0 ∧ ready.start.loop.referencePhase = none := by
  rw [Steering.init] at hinit
  split at hinit
  · cases hinit
  · rename_i hreference
    cases hinit
    obtain ⟨hmin, hmax⟩ := Actuator.clamp_mem steering.loop.config actuator
      (UInt16.le_iff_toNat_le.mpr (Nat.le_of_lt husable.actuatorMin_lt))
    exact ⟨⟨rfl, hmin, hmax⟩, hreference, rfl, rfl, rfl⟩

end TimingNode.Proofs.LoopInputs
