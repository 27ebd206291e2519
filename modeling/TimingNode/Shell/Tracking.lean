import TimingNode.Device
import TimingNode.Shell.Command

namespace TimingNode.Shell

variable {σ : Type}

def sayLine [Console σ] (text : String) (world : σ) : Except Error Unit × σ :=
  let (accepted, world) := Console.write (text ++ "\n") world
  (if accepted then .ok () else .error .output, world)

namespace Tracking

def onByDefault : Bool := true

/-- The position of the switch after the command, which looks at its first argument only. -/
def switched (arguments : List String) (enabled : Bool) : Bool :=
  match arguments with
  | [] => enabled
  | word :: _ =>
      if isKeyword "enable" word then true
      else if isKeyword "disable" word then false
      else enabled

def report (enabled : Bool) : String :=
  if enabled then "phase tracking ON" else "phase tracking OFF"

/-- Switches as asked and reports the position. The switch moves even if the report fails. -/
def run [Console σ] (arguments : List String) (enabled : Bool) (world : σ) :
    Except Error Bool × Bool × σ :=
  let enabled := switched arguments enabled
  let (result, world) := sayLine (report enabled) world
  (result.map fun _ => enabled, enabled, world)

end Tracking

end TimingNode.Shell
