import TimingNode.Proofs.ServiceCalls

namespace TimingNode.Proofs.FreshRestart

open TimingNode.Loop
open TimingNode.Tag
open TimingNode.Proofs.ServiceCalls

variable {depth : Nat}

/-- What a caller sees of one call: its answer, the codes written, and afterwards the published
status, the setpoint of the loop and the published setpoint. -/
structure Observation where
  answer : Answer
  writes : List Write
  status : Status
  setpoint : Int32
  current : Int32

def observe (service : Service depth) : List Call → List Observation
  | [] => []
  | call :: calls =>
      let effect := call.perform service
      { answer := effect.answer
        writes := effect.writes
        status := effect.service.registers.status
        setpoint := effect.service.loop.setpoint
        current := effect.service.registers.current } :: observe effect.service calls

theorem restarted_congr {service other : Service depth}
    (hconfig : other.loop.config = service.loop.config)
    (htarget : other.registers.target = service.registers.target) (mode : Mode)
    (reference : UInt8) (actuator : Nat) :
    restarted other mode reference actuator = restarted service mode reference actuator := by
  rw [restarted, restarted, hconfig, Steering.publishSetpoint, Steering.publishSetpoint,
    Steering.publish, Steering.publish, htarget]

theorem perform_restart_congr {service other : Service depth}
    (hconfig : other.loop.config = service.loop.config)
    (htarget : other.registers.target = service.registers.target) (mode : Mode)
    {reference : UInt8} (actuator : Nat)
    (haccepted : reference ≠ service.loop.config.outputChannel) :
    (Call.restart mode reference actuator).perform other =
      (Call.restart mode reference actuator).perform service := by
  rw [perform_restart_of_ne mode actuator haccepted,
    perform_restart_of_ne mode actuator (by rwa [hconfig]), restarted_congr hconfig htarget,
    hconfig]

/-- After an accepted restart, no sequence of calls tells apart two services with one tuning and one
commanded setpoint, whatever queues and loops they began with and whatever was called before. -/
theorem restart_forgets {steering other : Steering}
    (hconfig : other.loop.config = steering.loop.config) (fifo otherFifo : Fifo depth)
    (calls others : List Call) (mode : Mode) {reference : UInt8} (actuator : Nat)
    (haccepted : reference ≠ steering.loop.config.outputChannel)
    (htarget :
      (performAll (Service.create other otherFifo).1 others).1.registers.target =
        (performAll (Service.create steering fifo).1 calls).1.registers.target)
    (further : List Call) :
    ∃ first later, first.answer = .restarted (.ok ()) ∧
      observe (performAll (Service.create steering fifo).1 calls).1
          (.restart mode reference actuator :: further) = first :: later ∧
      observe (performAll (Service.create other otherFifo).1 others).1
          (.restart mode reference actuator :: further) = first :: later := by
  have hlast := config_performAll (Service.create steering fifo).1 calls
  have hotherLast := config_performAll (Service.create other otherFifo).1 others
  have haccepted' : reference ≠
      (performAll (Service.create steering fifo).1 calls).1.loop.config.outputChannel := by
    rw [hlast]
    exact haccepted
  have hperform := perform_restart_congr (hotherLast.trans (hconfig.trans hlast.symm)) htarget mode
    actuator haccepted'
  refine ⟨_, _, ?_, rfl, ?_⟩
  · rw [perform_restart_of_ne mode actuator haccepted']
  · rw [observe, hperform]

def eager : Steering :=
  Steering.start ⟨.stopped { lockSamples := 1 } .slave (some 1) 32768, .fresh⟩

/-- A halted loop of the same tuning, on registers that another loop has left behind. -/
def abandoned : Steering :=
  Steering.halt ⟨.stopped { lockSamples := 1 } .freeRunning none 7, ⟨.fresh 3 9, 20, -4⟩⟩

/-- A lock, and then an overrun of a queue of two. -/
def troubles : List Call :=
  [.push ⟨1, 0⟩, .push ⟨0, 5⟩, .drain, .setTarget 20, .push ⟨1, 0⟩, .push ⟨0, 5⟩, .push ⟨0, 5⟩,
    .drain]

def relaunch : List Observation :=
  [⟨.restarted (.ok ()), [⟨40000, true⟩], .fresh 0 40000, 0, 0⟩,
    ⟨.pushed (.ok ()), [], .fresh 0 40000, 0, 0⟩,
    ⟨.pushed (.ok ()), [], .fresh 0 40000, 0, 0⟩,
    ⟨.drained (.ok 2), [⟨39992, false⟩],
      { channel := 0, tagCount := 2, lastTag := 8, measuredPhase := 5, phaseError := -11
        actuator := 39992, locked := true, faulted := false }, 16, 16⟩]

theorem restart_forgets_troubles :
    observe (performAll (Service.create eager (.empty 2)).1 troubles).1
        [.restart .slave 1 40000, .push ⟨1, 3⟩, .push ⟨0, 8⟩, .drain] = relaunch ∧
      observe (performAll (Service.create abandoned ((Fifo.empty 2).push ⟨0, 1⟩).2).1 []).1
        [.restart .slave 1 40000, .push ⟨1, 3⟩, .push ⟨0, 8⟩, .drain] = relaunch := by
  have hconfig : abandoned.loop.config = eager.loop.config := rfl
  have haccepted : (1 : UInt8) ≠ eager.loop.config.outputChannel := by decide
  have htarget : (Service.create abandoned ((Fifo.empty 2).push ⟨0, 1⟩).2).1.registers.target =
      (performAll (Service.create eager (.empty 2)).1 troubles).1.registers.target := by
    decide
  obtain ⟨first, later, -, hfirst, hother⟩ := restart_forgets hconfig (.empty 2)
    ((Fifo.empty 2).push ⟨0, 1⟩).2 troubles [] .slave 40000 haccepted htarget
    [.push ⟨1, 3⟩, .push ⟨0, 8⟩, .drain]
  have hobserved : observe (performAll (Service.create eager (.empty 2)).1 troubles).1
      [.restart .slave 1 40000, .push ⟨1, 3⟩, .push ⟨0, 8⟩, .drain] = relaunch := rfl
  exact ⟨hobserved, hother.trans (hfirst.symm.trans hobserved)⟩

end TimingNode.Proofs.FreshRestart
