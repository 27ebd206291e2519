import TimingNode.Shell.Calibration

namespace TimingNode

structure Shell (σ : Type) where
  calibrator : Calibrator σ
  limits : Shell.Limits
  tracking : Bool

namespace Shell

variable {σ : Type}

def create (calibrator : Calibrator σ) (limits : Limits) : Shell σ :=
  { calibrator, limits, tracking := Tracking.onByDefault }

inductive Reply where
  | blank
  | transition (phase : TransitionPhase)
  | tracking (enabled : Bool)
  | unknown (name : String)
deriving DecidableEq

variable [Link σ] [Pll σ] [Delay σ] [Console σ] [Shifter σ] [PulseSource σ]
  [TransitionStore σ] [CorrectionSink σ]

/-- Runs one command; `none` if a scan in it is endless. -/
def dispatch (shell : Shell σ) (command : Command) :
    Option (Except Error Reply × Shell σ) :=
  if command.name = "calibration" then do
    let (result, calibrator) ← (Calibration.run shell.limits command.arguments).run.run
      shell.calibrator
    return (result.map .transition, { shell with calibrator })
  else if command.name = "ptrack" then
    let (result, tracking, world) :=
      Tracking.run command.arguments shell.tracking shell.calibrator.world
    some (result.map .tracking,
      { shell with tracking, calibrator := { shell.calibrator with world } })
  else some (.ok (.unknown command.name), shell)

def execute (shell : Shell σ) (line : String) : Option (Except Error Reply × Shell σ) :=
  match Command.ofLine line with
  | .error error => some (.error error, shell)
  | .ok none => some (.ok .blank, shell)
  | .ok (some command) => shell.dispatch command

end Shell

end TimingNode
