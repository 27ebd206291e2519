import TimingNode.Bench.Countdown
import TimingNode.Bench.LimitedConsole
import TimingNode.Bench.Signal

namespace TimingNode

structure Bench where
  rig : Bench.Rig
  link : Bench.CountdownLink
  pll : Bench.CountdownPll
  console : Bench.LimitedConsole
  waits : Nat
  waited : Nat
deriving DecidableEq

namespace Bench

instance : Shifter Bench where
  command channel phase bench :=
    { bench with rig := Shifter.command channel phase bench.rig }
  poll channel bench :=
    let (busy, rig) := Shifter.poll channel bench.rig
    (busy, { bench with rig })

instance : PulseSource Bench where
  pulse bench :=
    let (flip, rig) := PulseSource.pulse bench.rig
    (flip, { bench with rig })

instance : Link Bench where
  poll bench :=
    let (up, link) := Link.poll bench.link
    (up, { bench with link })

instance : Pll Bench where
  start bench := { bench with pll := Pll.start bench.pll }
  poll bench :=
    let (locked, pll) := Pll.poll bench.pll
    (locked, { bench with pll })

instance : Delay Bench where
  wait milliseconds bench :=
    { bench with waits := bench.waits + 1, waited := bench.waited + milliseconds.toNat }

instance : Console Bench where
  write text bench :=
    let (accepted, console) := Console.write text bench.console
    (accepted, { bench with console })

end Bench

end TimingNode
