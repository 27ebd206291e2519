import TimingNode.Proofs.LoopTags

/-!
A loop after a fatal error. It stays out of service until it is started or initialised again, and
it reports the error until it is initialised. The error itself holds nothing back: a loop that is
started after a halt steers as if it had not been halted.
-/

namespace TimingNode.Proofs.HaltedLoop

open TimingNode.Loop
open TimingNode.Proofs.LoopTags

inductive Operation where
  | init (mode : Mode) (reference : UInt8) (actuator : Nat)
  | start
  | halt
  | tag (tag : Tag)
  | setTarget (units : Int32)

/-- The loop after an operation, and the code that it gave. A rejected initialisation changes
nothing. -/
def Operation.perform : Operation → Steering → Steering × Option Nat
  | .init mode reference actuator, steering =>
      ((steering.init mode reference actuator).toOption.getD steering, none)
  | .start, steering => (steering.start, none)
  | .halt, steering => (steering.halt, none)
  | .tag received, steering => steering.onTag received
  | .setTarget units, steering => (steering.setTarget units, none)

def performAll (steering : Steering) : List Operation → Steering × List Nat
  | [] => (steering, [])
  | operation :: operations =>
      let (steering, code) := operation.perform steering
      let (steering, codes) := performAll steering operations
      (steering, code.toList ++ codes)

def Operation.initialises (config : Config) : Operation → Bool
  | .init _ reference _ => reference != config.outputChannel
  | _ => false

/-- Whether an operation puts a loop of the given tuning back into service. -/
def Operation.readmits (config : Config) (operation : Operation) : Bool :=
  operation matches .start || operation.initialises config

theorem perform_init_of_not_initialises {mode : Mode} {reference : UInt8} {actuator : Nat}
    {steering : Steering}
    (h : (Operation.init mode reference actuator).initialises steering.loop.config = false) :
    (Operation.init mode reference actuator).perform steering = (steering, none) := by
  rw [Operation.initialises, bne_eq_false_iff_eq] at h
  rw [Operation.perform, Steering.init, if_pos h]
  rfl

theorem onTag_of_stopped {steering : Steering} (tag : Tag) (h : steering.loop.running = false) :
    steering.onTag tag = (steering, none) := by
  rw [Steering.onTag, if_neg (Bool.eq_false_iff.mp h)]

structure OutOfService (config : Config) (actuator : Nat) (steering : Steering) : Prop where
  config_eq : steering.loop.config = config
  stopped : steering.loop.running = false
  unlocked : steering.loop.locked = false
  actuator_eq : steering.loop.actuator = actuator
  status_eq : steering.registers.status = steering.loop.status

theorem outOfService_halt (steering : Steering) :
    OutOfService steering.loop.config steering.loop.actuator steering.halt :=
  ⟨rfl, rfl, rfl, rfl, rfl⟩

theorem OutOfService.perform {config : Config} {actuator : Nat} {steering : Steering}
    (h : OutOfService config actuator steering) {operation : Operation}
    (hoperation : operation.readmits config = false) :
    OutOfService config actuator (operation.perform steering).1 ∧
      (operation.perform steering).2 = none := by
  cases operation with
  | init mode reference code =>
      rw [perform_init_of_not_initialises (by rw [h.config_eq]; exact hoperation)]
      exact ⟨h, rfl⟩
  | start => cases hoperation
  | halt => exact ⟨⟨h.config_eq, rfl, rfl, h.actuator_eq, rfl⟩, rfl⟩
  | tag received =>
      rw [Operation.perform, onTag_of_stopped received h.stopped]
      exact ⟨h, rfl⟩
  | setTarget units =>
      exact ⟨⟨h.config_eq, h.stopped, h.unlocked, h.actuator_eq, h.status_eq⟩, rfl⟩

theorem OutOfService.performAll {config : Config} {actuator : Nat} {steering : Steering}
    (h : OutOfService config actuator steering) {operations : List Operation}
    (hoperations : ∀ operation ∈ operations, operation.readmits config = false) :
    OutOfService config actuator (performAll steering operations).1 ∧
      (performAll steering operations).2 = [] := by
  induction operations generalizing steering with
  | nil => exact ⟨h, rfl⟩
  | cons operation operations ih =>
      obtain ⟨hnext, hcode⟩ := h.perform (hoperations operation (by simp))
      obtain ⟨hlast, hcodes⟩ := ih hnext fun later hlater => hoperations later (by simp [hlater])
      refine ⟨hlast, ?_⟩
      simp only [HaltedLoop.performAll, hcode, hcodes]
      rfl

structure Faulted (config : Config) (steering : Steering) : Prop where
  config_eq : steering.loop.config = config
  faulted : steering.loop.faulted = true
  published : steering.registers.status.faulted = true

theorem faulted_halt (steering : Steering) : Faulted steering.loop.config steering.halt :=
  ⟨rfl, rfl, rfl⟩

theorem Faulted.onTag {config : Config} {steering : Steering} (h : Faulted config steering)
    (tag : Tag) : Faulted config (steering.onTag tag).1 := by
  have hduty := duty_onTag steering.loop steering.registers.target tag
  have hconfig := (congrArg Duty.config hduty).trans h.config_eq
  have hfaulted := (congrArg Duty.faulted hduty).trans h.faulted
  rw [Steering.onTag]
  split
  · dsimp only
    split <;> exact ⟨hconfig, hfaulted, hfaulted⟩
  · exact h

theorem Faulted.perform {config : Config} {steering : Steering} (h : Faulted config steering)
    {operation : Operation} (hoperation : operation.initialises config = false) :
    Faulted config (operation.perform steering).1 := by
  cases operation with
  | init mode reference actuator =>
      rw [perform_init_of_not_initialises (by rw [h.config_eq]; exact hoperation)]
      exact h
  | start => exact ⟨h.config_eq, h.faulted, h.faulted⟩
  | halt => exact ⟨h.config_eq, rfl, rfl⟩
  | tag received => exact h.onTag received
  | setTarget units => exact ⟨h.config_eq, h.faulted, h.published⟩

theorem Faulted.performAll {config : Config} {steering : Steering} (h : Faulted config steering)
    {operations : List Operation}
    (hoperations : ∀ operation ∈ operations, operation.initialises config = false) :
    Faulted config (performAll steering operations).1 := by
  induction operations generalizing steering with
  | nil => exact h
  | cons operation operations ih =>
      exact ih (h.perform (hoperations operation (by simp)))
        fun later hlater => hoperations later (by simp [hlater])

/-- Loops that may differ in their record of an error and a lock, under one commanded setpoint. -/
def SameSteering (steering other : Steering) : Prop :=
  other.registers.target = steering.registers.target ∧
    ∃ faulted locked, other.loop = { steering.loop with faulted, locked }

theorem SameSteering.onTag {steering other : Steering} (h : SameSteering steering other)
    (tag : Tag) :
    SameSteering (steering.onTag tag).1 (other.onTag tag).1 ∧
      (other.onTag tag).2 = (steering.onTag tag).2 := by
  obtain ⟨htarget, faulted, locked, hloop⟩ := h
  obtain ⟨held, hheld⟩ :=
    exists_onTag_eq steering.loop faulted locked steering.registers.target tag
  rw [← hloop, ← htarget] at hheld
  refine ⟨⟨?_, faulted, held, ?_⟩, ?_⟩
  · rw [steering.target_onTag, other.target_onTag, htarget]
  · rw [(steering.onTag_eq tag).1, (other.onTag_eq tag).1, hheld, htarget]
  · rw [(steering.onTag_eq tag).2, (other.onTag_eq tag).2, hheld, htarget]

theorem SameSteering.onTags {steering other : Steering} (h : SameSteering steering other)
    (tags : List Tag) :
    SameSteering (steering.onTags tags).1 (other.onTags tags).1 ∧
      (other.onTags tags).2 = (steering.onTags tags).2 := by
  induction tags generalizing steering other with
  | nil => exact ⟨h, rfl⟩
  | cons tag tags ih =>
      obtain ⟨hnext, hcode⟩ := h.onTag tag
      obtain ⟨hlast, hcodes⟩ := ih hnext
      refine ⟨hlast, ?_⟩
      simp only [Steering.onTags, hcode, hcodes]

/-- After a halt the error is reported until the next accepted initialisation, and as long as the
loop is not started either, tags give no code and move nothing. A start gives the codes that it
would have given without the halt. -/
theorem halted_until_readmitted (steering : Steering) {operations : List Operation}
    (hoperations : ∀ operation ∈ operations,
      operation.initialises steering.loop.config = false) (tags : List Tag) :
    Faulted steering.loop.config (performAll steering.halt operations).1 ∧
      ((∀ operation ∈ operations, operation.readmits steering.loop.config = false) →
        OutOfService steering.loop.config steering.loop.actuator
            (performAll steering.halt operations).1 ∧
          (performAll steering.halt operations).2 = []) ∧
      (steering.halt.start.onTags tags).2 = (steering.start.onTags tags).2 := by
  have hsame : SameSteering steering.start steering.halt.start := ⟨rfl, true, false, rfl⟩
  exact ⟨(faulted_halt steering).performAll hoperations,
    fun hreadmits => (outOfService_halt steering).performAll hreadmits, (hsame.onTags tags).2⟩

def working : Steering :=
  (performAll ⟨.stopped { lockSamples := 1 } .slave none Actuator.midScale, .fresh⟩
    [.init .slave 1 32768, .start, .tag ⟨1, 0⟩, .tag ⟨0, 5⟩]).1

/-- What a node may still do to a halted loop without taking it into service again. -/
def meddling : List Operation :=
  [.tag ⟨0, 10⟩, .init .slave 0 7, .setTarget 3, .tag ⟨1, 9⟩, .halt, .tag ⟨0, 10⟩]

theorem halted_until_readmitted_working :
    Faulted working.loop.config (performAll working.halt meddling).1 ∧
      (OutOfService working.loop.config working.loop.actuator
          (performAll working.halt meddling).1 ∧
        (performAll working.halt meddling).2 = []) ∧
      (working.halt.start.onTags [⟨0, 10⟩, ⟨1, 9⟩, ⟨0, 3⟩]).2 =
        (working.start.onTags [⟨0, 10⟩, ⟨1, 9⟩, ⟨0, 3⟩]).2 := by
  obtain ⟨hfaulted, hidle, hcodes⟩ :=
    halted_until_readmitted working (by decide : ∀ operation ∈ meddling, _) _
  exact ⟨hfaulted, hidle (by decide), hcodes⟩

/-- A halted loop that is started again moves its actuator and reports a lock, still faulted. -/
theorem steered_after_halt :
    let (restarted, codes) := performAll working.halt [.start, .tag ⟨0, 10⟩]
    codes = [32784] ∧ restarted.loop.actuator ≠ working.halt.loop.actuator ∧
      restarted.registers.status.actuator = 32784 ∧
      restarted.registers.status.locked = true ∧ restarted.registers.status.faulted = true := by
  decide

end TimingNode.Proofs.HaltedLoop
