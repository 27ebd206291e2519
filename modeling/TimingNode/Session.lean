import TimingNode.Node
import TimingNode.Plant.ClosedLoop
import TimingNode.Shell

namespace TimingNode.Session

abbrev ClosedShell := Shell (Node Plant.ClosedLoop)

/-- The shell of a new node with default tunings and an erased memory, whose receiver has its
transition at 2500 ps and whose oscillator is in balance 400 codes above mid-scale. -/
def start : Except String ClosedShell := do
  let store := Store.eeprom { eeprom := .erased 8192, offset := Store.EepromStore.i2cOffset }
  match Plant.ClosedLoop.create {} Loop.Actuator.midScale 33168 2500 100 with
  | .error rejection => throw rejection.message
  | .ok devices =>
      match Calibrator.create {} (Node.uncalibrated devices store Reception.defaultPeriod) with
      | .error error => throw (Shell.Error.calibration error).message
      | .ok calibrator => return Shell.create calibrator {}

def echo (line : String) (shell : ClosedShell) : ClosedShell :=
  let world := (Console.write (line ++ "\n") shell.calibrator.world).2
  { shell with calibrator := { shell.calibrator with world } }

/-- Runs lines one after the other, each after a prompt, up to the first command that fails. -/
def replay : List String → ClosedShell → ExceptT String Option ClosedShell
  | [], shell => return shell
  | line :: lines, shell => do
      let (result, shell) ← (echo ("wrc# " ++ line) shell).execute line
      match result with
      | .error error => throw error.message
      | .ok (.unknown name) => replay lines (echo ("unknown command: " ++ name) shell)
      | .ok _ => replay lines shell

def transcript (shell : ClosedShell) : String :=
  shell.calibrator.world.devices.console.text

def arrival (raw : RawTimestamp) (shell : ClosedShell) : Option String :=
  match shell.calibrator.world.reception.correct raw with
  | .ok (some arrival) =>
      some <|
        s!"RX timestamp {raw.seconds}s {raw.nanoseconds}ns {raw.measuredPhase}ps " ++
        s!"linearized to {arrival.seconds.toInt}s {arrival.nanoseconds}ns {arrival.phase}ps"
  | _ => none

end TimingNode.Session
