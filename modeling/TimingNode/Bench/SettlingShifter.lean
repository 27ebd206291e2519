import TimingNode.Device
import TimingNode.Word

namespace TimingNode.Bench

structure SettlingShifter where
  /-- Busy answers after each command; the greatest word means that it never settles. -/
  settling : UInt32
  remaining : UInt32
  phase : Int
  busyPolls : Nat
  commands : Array (UInt8 × Int)
deriving DecidableEq

namespace SettlingShifter

def never : UInt32 := 0xFFFFFFFF

def create (settling : UInt32) : SettlingShifter :=
  { settling, remaining := 0, phase := 0, busyPolls := 0, commands := #[] }

def command (channel : UInt8) (phase : Int) (shifter : SettlingShifter) : SettlingShifter :=
  { shifter with
    phase
    remaining := shifter.settling
    commands := shifter.commands.push (channel, phase) }

def poll (shifter : SettlingShifter) : Bool × SettlingShifter :=
  if shifter.remaining = 0 then (false, shifter)
  else
    (true,
      { shifter with
        remaining := if shifter.remaining = never then never else shifter.remaining - 1
        busyPolls := Word.clampUnsigned 32 (shifter.busyPolls + 1) })

instance : Shifter SettlingShifter where
  command := command
  poll _ := poll

end SettlingShifter

end TimingNode.Bench
