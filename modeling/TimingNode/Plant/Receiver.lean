import TimingNode.Loop.Registers
import TimingNode.Phase

namespace TimingNode.Plant

structure Receiver where
  config : Loop.Config
  transition : Nat
deriving DecidableEq

namespace Receiver

/-- The flip bit while the loop steers to `setpoint`: high for half a period from the transition
on. -/
def flipAt (receiver : Receiver) (setpoint : Int32) : Bool :=
  let period := receiver.config.period.toNat
  let phase := receiver.config.picosecondsOfUnits setpoint.toInt
  Phase.fold (phase - receiver.transition) period < period / 2

end Receiver

structure ShiftedReceiver where
  receiver : Receiver
  shifter : Loop.SetpointShifter
deriving DecidableEq

namespace ShiftedReceiver

instance : Shifter ShiftedReceiver where
  command channel phase shifted :=
    { shifted with shifter := Shifter.command channel phase shifted.shifter }
  poll channel shifted :=
    let (busy, shifter) := Shifter.poll channel shifted.shifter
    (busy, { shifted with shifter })

instance : PulseSource ShiftedReceiver where
  pulse shifted :=
    (shifted.receiver.flipAt shifted.shifter.registers.current, shifted)

end ShiftedReceiver

end TimingNode.Plant
