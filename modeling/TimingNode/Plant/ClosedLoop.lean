import TimingNode.Bench.LimitedConsole
import TimingNode.Plant
import TimingNode.Plant.Receiver

/-!
The devices of a node whose phase shifter is its own steering loop. The plant runs on while the
shifter is busy and while the node waits, and at no other time.
-/

namespace TimingNode.Plant

structure ClosedLoop where
  plant : Plant Wiring.fifoDepth
  receiver : Receiver
  console : Bench.LimitedConsole
  ticksPerWait : Nat
  ticks : Nat

namespace ClosedLoop

/-- The devices around a new loop, which runs as a slave from the code `actuator` against an
oscillator with its balance at `balance`. The receiver has its transition at `transition`. -/
def create (config : Loop.Config) (actuator : Nat) (balance : UInt16)
    (transition ticksPerWait : Nat) : Except Loop.Rejection ClosedLoop := do
  let steering ← Loop.Steering.create config .fresh
  let stopped : Plant Wiring.fifoDepth :=
    .create (Loop.Service.create steering (.empty Wiring.fifoDepth)) (.create config balance)
  let plant ← stopped.restart .slave Wiring.referenceChannel actuator
  return {
    plant
    receiver := { config, transition }
    console := .unlimited
    ticksPerWait
    ticks := 0 }

def config (closed : ClosedLoop) : Loop.Config :=
  closed.plant.service.loop.config

def registers (closed : ClosedLoop) : Loop.Registers :=
  closed.plant.service.registers

def advance (count : Nat) (closed : ClosedLoop) : ClosedLoop :=
  { closed with plant := closed.plant.ticks count, ticks := closed.ticks + count }

def setRegisters (registers : Loop.Registers) (closed : ClosedLoop) : ClosedLoop :=
  { closed with
    plant := { closed.plant with service := { closed.plant.service with registers } } }

/-- A busy answer takes one tick of the plant. -/
instance : Shifter ClosedLoop where
  command channel phase closed :=
    closed.setRegisters (closed.registers.commandPhase closed.config channel phase)
  poll channel closed :=
    if closed.registers.isShifting closed.config channel then (true, closed.advance 1)
    else (false, closed)

instance : PulseSource ClosedLoop where
  pulse closed := (closed.receiver.flipAt closed.registers.current, closed)

instance : Link ClosedLoop where
  poll closed := (true, closed)

/-- The lock is that of the loop, which runs already. -/
instance : Pll ClosedLoop where
  start closed := closed
  poll closed := (closed.registers.status.locked, closed)

instance : Delay ClosedLoop where
  wait _ closed := closed.advance closed.ticksPerWait

instance : Console ClosedLoop where
  write text closed :=
    let (accepted, console) := Console.write text closed.console
    (accepted, { closed with console })

end ClosedLoop

end TimingNode.Plant
