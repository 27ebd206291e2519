import TimingNode.Device

namespace TimingNode.Bench

/-- A link that is up from the poll with number `upAfter` on, counted from zero. -/
structure CountdownLink where
  upAfter : Option Nat
  polls : Nat
deriving DecidableEq

namespace CountdownLink

def create (upAfter : Option Nat) : CountdownLink := ⟨upAfter, 0⟩

instance : Link CountdownLink where
  poll link :=
    (link.upAfter.any (· ≤ link.polls), { link with polls := link.polls + 1 })

end CountdownLink

/-- A PLL that is locked from the poll with number `locksAfter` after its latest start on. -/
structure CountdownPll where
  locksAfter : Option Nat
  pollsSinceStart : Nat
  starts : Nat
deriving DecidableEq

namespace CountdownPll

def create (locksAfter : Option Nat) : CountdownPll := ⟨locksAfter, 0, 0⟩

instance : Pll CountdownPll where
  start pll := { pll with pollsSinceStart := 0, starts := pll.starts + 1 }
  poll pll :=
    (decide (0 < pll.starts) && pll.locksAfter.any (· ≤ pll.pollsSinceStart),
      { pll with pollsSinceStart := pll.pollsSinceStart + 1 })

end CountdownPll

end TimingNode.Bench
