import TimingNode.Proofs.LoopTags
import TimingNode.Loop.Service

namespace TimingNode.Proofs.ServiceCalls

open TimingNode.Loop
open TimingNode.Tag
open TimingNode.Proofs.LoopTags

variable {depth : Nat}

inductive Call where
  | push (tag : Tag)
  | pushRegister (word : UInt32)
  | drain
  | restart (mode : Mode) (reference : UInt8) (actuator : Nat)
  | resetFifo
  | setTarget (units : Int32)

inductive Answer where
  | pushed (result : Except Overrun Unit)
  | drained (result : Except Overrun Nat)
  | restarted (result : Except Rejection Unit)
  | done

/-- A code written to the converter, and whether it is the first of a new start. -/
structure Write where
  code : Nat
  anew : Bool
deriving DecidableEq

def steered (code : Nat) : Write := ⟨code, false⟩

structure Effect (depth : Nat) where
  service : Service depth
  answer : Answer
  writes : List Write

def Call.perform (service : Service depth) : Call → Effect depth
  | .push tag =>
      let (result, service) := service.push tag
      ⟨service, .pushed result, []⟩
  | .pushRegister word =>
      let (result, service) := service.pushRegister word
      ⟨service, .pushed result, []⟩
  | .drain =>
      let drained := service.drain
      ⟨drained.service, .drained drained.outcome, drained.codes.map steered⟩
  | .restart mode reference actuator =>
      match service.restart mode reference actuator with
      | .error rejection => ⟨service, .restarted (.error rejection), []⟩
      | .ok (service, code) => ⟨service, .restarted (.ok ()), [⟨code, true⟩]⟩
  | .resetFifo => ⟨service.resetFifo, .done, []⟩
  | .setTarget units => ⟨service.setTarget units, .done, []⟩

def performAll (service : Service depth) : List Call → Service depth × List Write
  | [] => (service, [])
  | call :: calls =>
      let effect := call.perform service
      let (service, writes) := performAll effect.service calls
      (service, effect.writes ++ writes)

/-- The service after an accepted restart, of which only the commanded setpoint and the tuning are
older than the restart. -/
def restarted (service : Service depth) (mode : Mode) (reference : UInt8) (actuator : Nat) :
    Service depth :=
  { toSteering := (Steering.publishSetpoint
      (.stopped service.loop.config mode (some reference) actuator) service.registers).start
    fifo := .empty depth }

theorem restart_eq (service : Service depth) (mode : Mode) (reference : UInt8) (actuator : Nat) :
    service.restart mode reference actuator =
      if reference = service.loop.config.outputChannel then .error .referenceIsOutput
      else .ok (restarted service mode reference actuator,
        Actuator.clamp service.loop.config actuator) := by
  rw [Service.restart, Steering.init]
  by_cases hreference : reference = service.loop.config.outputChannel
  · rw [if_pos hreference, if_pos hreference]
  · rw [if_neg hreference, if_neg hreference]
    rfl

theorem perform_restart_of_ne {service : Service depth} {reference : UInt8} (mode : Mode)
    (actuator : Nat) (haccepted : reference ≠ service.loop.config.outputChannel) :
    (Call.restart mode reference actuator).perform service =
      ⟨restarted service mode reference actuator, .restarted (.ok ()),
        [⟨Actuator.clamp service.loop.config actuator, true⟩]⟩ := by
  rw [Call.perform, restart_eq, if_neg haccepted]

theorem perform_restart_of_eq {service : Service depth} {reference : UInt8} (mode : Mode)
    (actuator : Nat) (hrejected : reference = service.loop.config.outputChannel) :
    (Call.restart mode reference actuator).perform service =
      ⟨service, .restarted (.error .referenceIsOutput), []⟩ := by
  rw [Call.perform, restart_eq, if_pos hrejected]

theorem config_perform (service : Service depth) (call : Call) :
    (call.perform service).service.loop.config = service.loop.config := by
  cases call with
  | push tag => rfl
  | pushRegister word => rfl
  | drain =>
      rw [Call.perform, Service.drain]
      split
      · dsimp only
        split <;> rfl
      · exact congrArg Duty.config (duty_onTags service.toSteering service.fifo.queue)
  | restart mode reference actuator =>
      by_cases hreference : reference = service.loop.config.outputChannel
      · rw [perform_restart_of_eq mode actuator hreference]
      · rw [perform_restart_of_ne mode actuator hreference]
        rfl
  | resetFifo => rfl
  | setTarget units => rfl

theorem config_performAll (service : Service depth) (calls : List Call) :
    (performAll service calls).1.loop.config = service.loop.config := by
  induction calls generalizing service with
  | nil => rfl
  | cons call calls ih => exact (ih _).trans (config_perform service call)

end TimingNode.Proofs.ServiceCalls
