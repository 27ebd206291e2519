import TimingNode.Loop.Actuator
import TimingNode.Loop.Registers
import TimingNode.Tag

/-!
The steering loop. Every tag of the output channel is compared with the latest reference tag, and
the actuator moves one step in the direction of the phase error. The setpoint walks to the
commanded one at every reference tag, so the output phase moves smoothly. A run of errors within
the band gains the lock and a run outside it loses the lock.
-/

namespace TimingNode

inductive Loop.Mode where
  /-- An external reference. -/
  | grandmaster
  /-- Nothing: tags are counted and the actuator is held. -/
  | freeRunning
  /-- The recovered clock of the link. -/
  | slave
deriving DecidableEq

namespace Loop.Mode

def name : Mode → String
  | .grandmaster => "grandmaster"
  | .freeRunning => "free-running master"
  | .slave => "slave"

def steers : Mode → Bool
  | .freeRunning => false
  | .grandmaster | .slave => true

end Loop.Mode

structure Loop where
  config : Loop.Config
  mode : Loop.Mode
  /-- Channel of the reference tags, none before the first initialisation. -/
  reference : Option UInt8
  running : Bool
  faulted : Bool
  /-- Latest reference tag, modulo the tag modulus. -/
  referencePhase : Option Nat
  setpoint : Int32
  actuator : Nat
  /-- Comparisons in band since the last one out of band. -/
  inBandRun : Nat
  /-- Comparisons out of band since the last one in band. -/
  outBandRun : Nat
  locked : Bool
  tagCount : UInt32
  lastTag : UInt32
  measuredPhase : Int
  phaseError : Int
deriving DecidableEq

namespace Loop

/-- A stopped loop that has seen no tag. The actuator starts as near to `actuator` as allowed. -/
def stopped (config : Config) (mode : Mode) (reference : Option UInt8) (actuator : Nat) : Loop :=
  { config, mode, reference
    running := false
    faulted := false
    referencePhase := none
    setpoint := 0
    actuator := Actuator.clamp config actuator
    inBandRun := 0
    outBandRun := 0
    locked := false
    tagCount := 0
    lastTag := 0
    measuredPhase := 0
    phaseError := 0 }

def status (loop : Loop) : Status :=
  { channel := loop.config.outputChannel
    tagCount := loop.tagCount
    lastTag := loop.lastTag
    measuredPhase := loop.measuredPhase
    phaseError := loop.phaseError
    actuator := loop.actuator
    locked := loop.locked
    faulted := loop.faulted }

/-- The setpoint one step nearer to `target`, and at the target if that is within a step. -/
def walk (config : Config) (target setpoint : Int32) : Int32 :=
  let step := config.shiftStep.toInt
  Int32.ofInt <|
    if setpoint < target then min (Word.clampSigned 32 (setpoint.toInt + step)) target.toInt
    else max (Word.clampSigned 32 (setpoint.toInt - step)) target.toInt

def onReference (loop : Loop) (target : Int32) (value : UInt32) : Loop :=
  { loop with
    referencePhase := some (value.toNat % loop.config.modulus.toNat)
    setpoint := walk loop.config target loop.setpoint }

/-- Counts the latest comparison into the run it belongs to. A full run in band gains the lock, and
a full run out of band loses it. -/
def trackLock (loop : Loop) : Loop :=
  if loop.phaseError.natAbs ≤ loop.config.lockBand.toNat then
    let inBandRun := Word.clampUnsigned 32 (loop.inBandRun + 1)
    { loop with
      inBandRun
      outBandRun := 0
      locked := loop.locked || decide (loop.config.lockSamples.toNat ≤ inBandRun) }
  else
    let outBandRun := Word.clampUnsigned 32 (loop.outBandRun + 1)
    { loop with
      inBandRun := 0
      outBandRun
      locked := loop.locked && !decide (loop.config.lockSamples.toNat ≤ outBandRun) }

def compareWith (loop : Loop) (reference : Nat) (value : UInt32) : Loop :=
  let measuredPhase := loop.config.wrap ((value.toNat : Int) - reference)
  let phaseError := loop.config.wrap (measuredPhase - loop.setpoint.toInt)
  trackLock { loop with
    measuredPhase
    phaseError
    actuator := Actuator.steer loop.config phaseError loop.actuator }

/-- An output tag is remembered. If the loop steers and a reference is known it is compared, and the
actuator code that results is to be output. -/
def onOutput (loop : Loop) (value : UInt32) : Loop × Option Nat :=
  let loop := { loop with lastTag := value }
  match loop.mode.steers, loop.referencePhase with
  | true, some reference =>
      let loop := loop.compareWith reference value
      (loop, some loop.actuator)
  | _, _ => (loop, none)

/-- One tag, under the setpoint commanded at the time. A loop that does not run ignores it. -/
def onTag (loop : Loop) (target : Int32) (tag : Tag) : Loop × Option Nat :=
  if loop.running then
    let loop := { loop with tagCount := loop.tagCount + 1 }
    if loop.reference = some tag.channel then (loop.onReference target tag.value, none)
    else if tag.channel = loop.config.outputChannel then loop.onOutput tag.value
    else (loop, none)
  else (loop, none)

end Loop

end TimingNode
