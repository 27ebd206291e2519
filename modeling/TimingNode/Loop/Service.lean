import TimingNode.Loop.Steering
import TimingNode.Tag.Fifo

/-!
The tag service: the consumer of the tag queue, which runs the loop on every tag in order of
arrival and outputs every new actuator code. An overrun halts the loop until a restart.
-/

namespace TimingNode.Loop

structure Service (depth : Nat) extends Steering where
  fifo : Tag.Fifo depth
deriving DecidableEq

namespace Service

variable {depth : Nat}

/-- What draining the queue gives: the service afterwards, the codes to output in order, and the
number of tags consumed. -/
structure Drained (depth : Nat) where
  service : Service depth
  codes : List Nat
  outcome : Except Tag.Overrun Nat

/-- Joins a loop to a queue. Its present actuator code is to be output at once. -/
def create (steering : Steering) (fifo : Tag.Fifo depth) : Service depth × Nat :=
  ({ toSteering := steering, fifo }, steering.loop.actuator)

/-- Runs the loop on all queued tags. After an overrun none is handed out, and the loop is
halted. -/
def drain (service : Service depth) : Drained depth :=
  if service.fifo.overrun then
    { service :=
        if service.loop.faulted then service
        else { service with toSteering := service.toSteering.halt }
      codes := []
      outcome := .error .overrun }
  else
    let (steering, codes) := service.toSteering.onTags service.fifo.queue
    { service := { toSteering := steering, fifo := service.fifo.reset }
      codes
      outcome := .ok service.fifo.queue.length }

/-- Discards the queued tags and runs the loop anew from `actuator`, which is output before it
starts. A rejected reference changes nothing. -/
def restart (service : Service depth) (mode : Mode) (reference : UInt8) (actuator : Nat) :
    Except Rejection (Service depth × Nat) :=
  match service.toSteering.init mode reference actuator with
  | .error rejection => .error rejection
  | .ok steering =>
      .ok ({ toSteering := steering.start, fifo := service.fifo.reset }, steering.loop.actuator)

def push (service : Service depth) (tag : Tag) : Except Tag.Overrun Unit × Service depth :=
  let (result, fifo) := service.fifo.push tag
  (result, { service with fifo })

def pushRegister (service : Service depth) (word : UInt32) :
    Except Tag.Overrun Unit × Service depth :=
  service.push (.ofRegister word)

def resetFifo (service : Service depth) : Service depth :=
  { service with fifo := service.fifo.reset }

def setTarget (service : Service depth) (units : Int32) : Service depth :=
  { service with toSteering := service.toSteering.setTarget units }

end Service

end TimingNode.Loop
