import TimingNode.Device
import TimingNode.Scan.EdgeDetector
import TimingNode.Scan.Midpoint

/-!
The calibration scan. The shifter is moved through one period and some headroom in equal steps; at
each settled phase one calibration pulse is sampled for a rising and a falling edge, and at the end
of the range the two edges are joined into the transition phase.
-/

namespace TimingNode

inductive Scan.Failure where
  /-- The shifter answered busy more often in a row than the tuning accepts. -/
  | shifterTimeout
  | rangeExhausted
deriving DecidableEq

inductive Scan.Progress where
  | underway
  | complete (transition : TransitionPhase)
deriving DecidableEq

structure Scan where
  config : Scan.Config
  rising : Scan.EdgeDetector
  falling : Scan.EdgeDetector
  /-- The phase that the shifter was last commanded to. -/
  cursor : Int
  /-- Busy answers since the last idle one. -/
  busyPolls : Nat
deriving DecidableEq

namespace Scan

variable {σ : Type}

def create (config : Config) : Scan :=
  { config
    rising := .create .rising config
    falling := .create .falling config
    cursor := 0
    busyPolls := 0 }

/-- The phase at which the scan is evaluated. -/
def range (scan : Scan) : Int :=
  Word.clampSigned 32 scan.config.range

def stride (scan : Scan) : Int :=
  Word.clampSigned 32 scan.config.step.toNat

/-- Checks the tuning and moves the shifter to phase zero. A rejected tuning moves nothing. -/
def start [Shifter σ] (config : Config) (world : σ) : Except ConfigError (Scan × σ) :=
  match config.validate with
  | .error cause => .error cause
  | .ok () => .ok (create config, Shifter.command config.channel 0 world)

def verdict (scan : Scan) : Except Failure TransitionPhase :=
  match scan.rising.phase?, scan.falling.phase? with
  | some rising, some falling => .ok (midpoint rising falling scan.config.period.toNat)
  | _, _ => .error .rangeExhausted

def onBusy (scan : Scan) : Except Failure Progress × Scan :=
  let busyPolls := Word.clampUnsigned 32 (scan.busyPolls + 1)
  let answer :=
    if scan.config.busyLimit.toNat < busyPolls then .error .shifterTimeout else .ok .underway
  (answer, { scan with busyPolls })

def sample (scan : Scan) (flip : Bool) : Scan :=
  { scan with
    rising := scan.rising.sample flip scan.cursor
    falling := scan.falling.sample flip scan.cursor
    busyPolls := 0 }

/-- A pulse at the end of the range gives the verdict; any other moves the cursor by one stride, and
the shifter is to follow it to the phase returned. -/
def onPulse (scan : Scan) (flip : Bool) : Except Failure Progress × Scan × Option Int :=
  let scan := scan.sample flip
  if scan.range ≤ scan.cursor then
    (scan.verdict.map .complete, scan, none)
  else
    let cursor := Word.clampSigned 32 (scan.cursor + scan.stride)
    (.ok .underway, { scan with cursor }, some cursor)

/-- One scan step: a poll of the shifter and, if that has settled, one pulse. -/
def step [Shifter σ] [PulseSource σ] (scan : Scan) (world : σ) :
    Except Failure Progress × Scan × σ :=
  match Shifter.poll scan.config.channel world with
  | (true, world) =>
      let (answer, scan) := scan.onBusy
      (answer, scan, world)
  | (false, world) =>
      let (flip, world) := PulseSource.pulse world
      match scan.onPulse flip with
      | (answer, scan, none) => (answer, scan, world)
      | (answer, scan, some phase) =>
          (answer, scan, Shifter.command scan.config.channel phase world)

/-- Scan steps up to a verdict or a failure, but no more than `patience` of them: `none` says that
the scan is not over by then. -/
def run [Shifter σ] [PulseSource σ] :
    (patience : Nat) → Scan → σ → Option (Except Failure TransitionPhase × Scan × σ)
  | 0, _, _ => none
  | patience + 1, scan, world =>
      match scan.step world with
      | (.error failure, scan, world) => some (.error failure, scan, world)
      | (.ok (.complete transition), scan, world) => some (.ok transition, scan, world)
      | (.ok .underway, scan, world) => run patience scan world

end Scan

end TimingNode
