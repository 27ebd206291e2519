import TimingNode.Session

namespace TimingNode.Session

def lines : List String := ["calibration", "calibration", "ptrack disable", "ptrack"]

def sample : RawTimestamp :=
  { seconds := 1, nanoseconds := 800, measuredPhase := 5499, counterAhead := true }

end TimingNode.Session

open TimingNode in
def main : IO UInt32 := do
  match (do Session.replay Session.lines (← Session.start) : ExceptT String Option _).run with
  | some (.ok shell) =>
      IO.print (Session.transcript shell)
      if let some line := Session.arrival Session.sample shell then IO.println line
      return 0
  | some (.error message) =>
      IO.eprintln message
      return 1
  | none => return 1
