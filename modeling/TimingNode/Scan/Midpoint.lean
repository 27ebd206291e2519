import TimingNode.Phase
import TimingNode.Phase.Transition

namespace TimingNode.Scan

/-- The falling edge moved by half a period towards the rising one: a second sample of the rising
edge. Equal edges give the rising edge itself. -/
def secondSample (rising falling half : Int) : Int :=
  if rising < falling then falling - half
  else if falling < rising then falling + half
  else rising

/-- The mean of the rising edge and its second sample, rounded toward zero and folded into the
period. -/
def midpoint (rising falling : Int) (period : Nat) : TransitionPhase :=
  let rising : Int := Phase.fold rising period
  let falling : Int := Phase.fold falling period
  let second := secondSample rising falling (period / 2 : Nat)
  .ofFolded (Phase.fold ((rising + second).tdiv 2) period)

end TimingNode.Scan
