import TimingNode.Loop.Service
import TimingNode.Plant.Oscillator

namespace TimingNode

structure Plant (depth : Nat) where
  service : Loop.Service depth
  oscillator : Plant.Oscillator
  /-- Every code output, oldest first. -/
  codes : Array Nat

namespace Plant

variable {depth : Nat}

def create (service : Loop.Service depth × Nat) (oscillator : Oscillator) : Plant depth :=
  { service := service.1, oscillator, codes := #[service.2] }

def restart (plant : Plant depth) (mode : Loop.Mode) (reference : UInt8) (actuator : Nat) :
    Except Loop.Rejection (Plant depth) :=
  match plant.service.restart mode reference actuator with
  | .error rejection => .error rejection
  | .ok (service, code) => .ok { plant with service, codes := plant.codes.push code }

def drain (plant : Plant depth) : Except Tag.Overrun Nat × Plant depth :=
  let drained := plant.service.drain
  (drained.outcome,
    { plant with service := drained.service, codes := plant.codes ++ drained.codes })

/-- Queues the tags of register words; an overrun stays latched in the queue. -/
def offer (plant : Plant depth) (words : List UInt32) : Plant depth :=
  { plant with
    service := words.foldl (fun service word => (service.pushRegister word).2) plant.service }

/-- One reference period: the oscillator ticks at the present actuator code, both tags are queued
and the service consumes them. -/
def tick (plant : Plant depth) : Except Tag.Overrun Nat × Plant depth :=
  let (words, oscillator) := plant.oscillator.tick plant.service.loop.actuator
  ({ plant with oscillator }.offer words).drain

def ticks : (count : Nat) → Plant depth → Plant depth
  | 0, plant => plant
  | count + 1, plant => ticks count plant.tick.2

end Plant

end TimingNode
