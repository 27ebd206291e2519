import TimingNode.Device
import TimingNode.Loop.Config

namespace TimingNode.Loop

structure Status where
  channel : UInt8
  /-- Tags since the start, of all channels. -/
  tagCount : UInt32
  lastTag : UInt32
  /-- Latest phase of the output after the reference. -/
  measuredPhase : Int
  /-- Latest phase of the output after the setpoint. -/
  phaseError : Int
  actuator : Nat
  locked : Bool
  faulted : Bool
deriving DecidableEq

def Status.fresh (channel : UInt8) (actuator : Nat) : Status :=
  { channel, actuator
    tagCount := 0
    lastTag := 0
    measuredPhase := 0
    phaseError := 0
    locked := false
    faulted := false }

/-- The published status, the commanded setpoint and the setpoint in force. -/
structure Registers where
  status : Status
  target : Int32
  current : Int32
deriving DecidableEq

namespace Registers

def fresh : Registers := ⟨.fresh 0 0, 0, 0⟩

def setTarget (units : Int32) (registers : Registers) : Registers :=
  { registers with target := units }

def isMoving (registers : Registers) : Bool :=
  registers.current != registers.target

/-- Commands a phase in picoseconds as a setpoint. Only the output channel can be shifted. -/
def commandPhase (config : Config) (channel : UInt8) (phase : Int) (registers : Registers) :
    Registers :=
  if channel = config.outputChannel then
    registers.setTarget (Int32.ofInt (config.unitsOfPicoseconds phase))
  else registers

def isShifting (config : Config) (channel : UInt8) (registers : Registers) : Bool :=
  channel == config.outputChannel && registers.isMoving

def trackedPhase (config : Config) (registers : Registers) : Int :=
  config.picosecondsOfUnits registers.status.measuredPhase

end Registers

structure SetpointShifter where
  config : Config
  registers : Registers
deriving DecidableEq

instance : Shifter SetpointShifter where
  command channel phase shifter :=
    { shifter with registers := shifter.registers.commandPhase shifter.config channel phase }
  poll channel shifter := (shifter.registers.isShifting shifter.config channel, shifter)

end TimingNode.Loop
