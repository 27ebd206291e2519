import TimingNode.Fault
import TimingNode.Loop.Config
import TimingNode.Phase
import TimingNode.Tag
import TimingNode.Wiring

/-!
The oscillator of the plant. In each reference period it gives a reference tag and an output tag,
and the output leads the reference by as many units as the actuator is below the balance code.
-/

namespace TimingNode.Plant

/-- An oscillator that is in phase with the reference at the actuator code `balance`. -/
structure Oscillator where
  modulus : Nat
  balance : Nat
  reference : Nat
deriving DecidableEq

namespace Oscillator

def advancePerTick : Nat := 1000

def create (config : Loop.Config) (balance : UInt16) : Oscillator :=
  { modulus := config.modulus.toNat, balance := balance.toNat, reference := 0 }

def word (channel : UInt8) (phase : Nat) : UInt32 :=
  Tag.toRegister { channel, value := UInt32.ofNat phase }

/-- One reference period at an actuator code: the words of the reference and the output tag. -/
def tick (oscillator : Oscillator) (actuator : Nat) : List UInt32 × Oscillator :=
  let reference := (oscillator.reference + advancePerTick) % oscillator.modulus
  let output := Phase.fold ((reference : Int) + oscillator.balance - actuator) oscillator.modulus
  ([word Wiring.referenceChannel reference, word Wiring.outputChannel output],
    { oscillator with reference })

/-- A tick has no answer when the modulus is zero or the reference leaves its 32-bit word. -/
def tick? (oscillator : Oscillator) (actuator : Nat) :
    Except Fault (List UInt32 × Oscillator) :=
  if 1 <<< 32 ≤ oscillator.reference + advancePerTick then .error .counterOverflow
  else if oscillator.modulus = 0 then .error .zeroModulus
  else .ok (oscillator.tick actuator)

end Oscillator

end TimingNode.Plant
