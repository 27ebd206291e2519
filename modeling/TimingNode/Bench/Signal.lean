import TimingNode.Bench.SettlingShifter
import TimingNode.Fault
import TimingNode.Phase

namespace TimingNode.Bench

/-- A square wave that is high from its rising to its falling edge, modulo the period. -/
structure SquareWave where
  period : Nat
  rising : Nat
  falling : Nat
  /-- Phases at which the level is inverted. -/
  glitches : List Int
deriving DecidableEq

namespace SquareWave

def create (period rising falling : Nat) (glitches : List Int) : Except Fault SquareWave :=
  if period = 0 then .error .zeroPeriod
  else .ok { period, rising := rising % period, falling := falling % period, glitches }

def constant (period : Nat) (level : Bool) (glitches : List Int) : Except Fault SquareWave :=
  if period = 0 then .error .zeroPeriod
  else
    .ok { period
          rising := if level then 0 else period
          falling := if level then period else 0
          glitches }

def isHighAt (wave : SquareWave) (phase : Int) : Bool :=
  let folded := Phase.fold phase wave.period
  if wave.rising ≤ wave.falling then
    decide (wave.rising ≤ folded ∧ folded < wave.falling)
  else decide (wave.rising ≤ folded ∨ folded < wave.falling)

/-- The flip bit sampled at a phase, inverted at exactly the phases of the glitches. -/
def flipAt (wave : SquareWave) (phase : Int) : Bool :=
  if phase ∈ wave.glitches then !wave.isHighAt phase else wave.isHighAt phase

end SquareWave

inductive Waveform where
  | square (wave : SquareWave)
  /-- One bit for each pulse, and the same again from the first bit on. -/
  | script (bits : Array Bool)
deriving DecidableEq

structure Signal where
  waveform : Waveform
  pulses : Nat
deriving DecidableEq

namespace Signal

def sampleAt (signal : Signal) (phase : Int) : Bool × Signal :=
  let flip :=
    match signal.waveform with
    | .square wave => wave.flipAt phase
    | .script bits => bits[signal.pulses % bits.size]?.getD false
  (flip, { signal with pulses := signal.pulses + 1 })

end Signal

structure Rig where
  shifter : SettlingShifter
  signal : Signal
deriving DecidableEq

namespace Rig

instance : Shifter Rig where
  command channel phase rig := { rig with shifter := rig.shifter.command channel phase }
  poll _ rig :=
    let (busy, shifter) := rig.shifter.poll
    (busy, { rig with shifter })

instance : PulseSource Rig where
  pulse rig :=
    let (flip, signal) := rig.signal.sampleAt rig.shifter.phase
    (flip, { rig with signal })

end Rig

end TimingNode.Bench
