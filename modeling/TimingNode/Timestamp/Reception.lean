import TimingNode.Fault
import TimingNode.Phase.Transition
import TimingNode.Timestamp

/-!
Reception timestamps. Two counters, one on each edge of the reference clock, latch the arrival of a
frame. Within a quarter period of the transition phase the rising counter cannot be trusted, so the
falling one is used there, and the measured phase is counted from the transition.
-/

namespace TimingNode

/-- What the hardware latches on arrival: coarse time, the measured phase of the recovered clock,
and whether the rising counter was one tick ahead of the falling one. -/
structure RawTimestamp where
  seconds : Int
  nanoseconds : Nat
  measuredPhase : Nat
  counterAhead : Bool

/-- A reception path: the reference period and the stored word of the active transition phase, where
zero means that none was set. -/
structure Reception where
  period : Nat
  word : UInt32
deriving DecidableEq

namespace Reception

/-- Membership of `x` in the circular interval that runs upwards from `low` to `high`. -/
def insideWindow (low high x : Int) : Bool :=
  if low < high then decide (low ≤ x ∧ x ≤ high) else decide (x ≤ high ∨ low ≤ x)

/-- Cycles to add to the coarse time: near the transition one is taken away where the rising counter
ran ahead, and one is added where the phase has not passed the transition. -/
def cycleCorrection (counterAhead : Bool) (transition period : Nat) (phase : Int) : Int :=
  let low := ((transition : Int) - (period / 4 : Nat)) % period
  let high := ((transition : Int) + (period / 4 : Nat)) % period
  if insideWindow low high phase then
    (if insideWindow low transition phase then 1 else 0) - (if counterAhead then 1 else 0)
  else 0

/-- The arrival time that a raw timestamp stands for, given the transition phase and a non-zero
reference period, both in picoseconds. -/
def arrival (raw : RawTimestamp) (transition period : Nat) : Timestamp :=
  let phase : Int := period - 1 - raw.measuredPhase
  let cycles := cycleCorrection raw.counterAhead transition period phase
  Timestamp.ofParts raw.seconds
    (raw.nanoseconds + cycles * (period / Timestamp.picosecondsPerNanosecond : Nat))
    (period - 1 - (phase - transition - 1) % period)

def arrival? (raw : RawTimestamp) (transition period : Nat) : Except Fault Timestamp :=
  if period = 0 then .error .zeroPeriod else .ok (arrival raw transition period)

def defaultPeriod : Nat := 8000

def uncalibrated (period : Nat) : Reception := ⟨period, 0⟩

def active (reception : Reception) : Option TransitionPhase :=
  TransitionPhase.ofWord? reception.word

def apply (phase : TransitionPhase) (reception : Reception) : Reception :=
  { reception with word := phase.toWord }

def correct (reception : Reception) (raw : RawTimestamp) : Except Fault (Option Timestamp) :=
  match reception.active with
  | none => .ok none
  | some phase => (arrival? raw phase.picoseconds reception.period).map some

end Reception

end TimingNode
