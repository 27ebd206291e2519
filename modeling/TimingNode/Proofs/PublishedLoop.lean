import TimingNode.Proofs.HaltedLoop

namespace TimingNode.Proofs.PublishedLoop

open TimingNode.Loop
open TimingNode.Proofs.HaltedLoop
open TimingNode.Proofs.LoopTags

structure Published (steering : Steering) : Prop where
  status_eq : steering.registers.status = steering.loop.status
  current_eq : steering.registers.current = steering.loop.setpoint

theorem published_publishSetpoint (loop : Loop) (registers : Registers) :
    Published (.publishSetpoint loop registers) :=
  ⟨rfl, rfl⟩

theorem published_create {config : Config} {registers : Registers} {created : Steering}
    (h : Steering.create config registers = .ok created) :
    Published created ∧ created.loop.config = config ∧ config.validate = .ok () := by
  rw [Steering.create] at h
  split at h
  · cases h
  · rename_i hvalid
    cases h
    exact ⟨published_publishSetpoint _ registers, rfl, hvalid⟩

theorem published_init {steering ready : Steering} {mode : Mode} {reference : UInt8}
    {actuator : Nat} (h : steering.init mode reference actuator = .ok ready) :
    Published ready := by
  rw [Steering.init] at h
  split at h
  · cases h
  · cases h
    exact published_publishSetpoint _ steering.registers

namespace Published

variable {steering : Steering} (h : Published steering)
include h

theorem start : Published steering.start :=
  ⟨rfl, h.current_eq⟩

theorem onTag (received : Tag) : Published (steering.onTag received).1 := by
  by_cases hrunning : steering.loop.running = true
  · exact ⟨status_onTag hrunning received, current_onTag h.current_eq received⟩
  · rw [onTag_of_stopped received (eq_false_of_ne_true hrunning)]
    exact h

theorem perform (operation : Operation) : Published (operation.perform steering).1 := by
  cases operation with
  | init mode reference actuator =>
      rw [Operation.perform]
      rcases hinit : steering.init mode reference actuator with rejection | ready
      · exact h
      · exact published_init hinit
  | start => exact h.start
  | halt => exact ⟨rfl, h.current_eq⟩
  | tag received => exact h.onTag received
  | setTarget units => exact ⟨h.status_eq, h.current_eq⟩

end Published

theorem Published.onTags {steering : Steering} (h : Published steering) (tags : List Tag) :
    Published (steering.onTags tags).1 := by
  induction tags generalizing steering with
  | nil => exact h
  | cons tag tags ih => exact ih (h.onTag tag)

theorem Published.performAll {steering : Steering} (h : Published steering)
    (operations : List Operation) : Published (performAll steering operations).1 := by
  induction operations generalizing steering with
  | nil => exact h
  | cons operation operations ih => exact ih (h.perform operation)

theorem config_perform (steering : Steering) (operation : Operation) :
    (operation.perform steering).1.loop.config = steering.loop.config := by
  cases operation with
  | init mode reference actuator =>
      rw [Operation.perform, Steering.init]
      split <;> rfl
  | start => rfl
  | halt => rfl
  | tag received =>
      rw [Operation.perform, (steering.onTag_eq received).1]
      exact congrArg Duty.config (duty_onTag steering.loop _ received)
  | setTarget units => rfl

theorem config_performAll (steering : Steering) (operations : List Operation) :
    (performAll steering operations).1.loop.config = steering.loop.config := by
  induction operations generalizing steering with
  | nil => rfl
  | cons operation operations ih => exact (ih _).trans (config_perform steering operation)

end TimingNode.Proofs.PublishedLoop
