import TimingNode.Device

namespace TimingNode.Store

/-- A value in memory, with switches that make every read or every write fail. -/
structure MemoryStore where
  value : Option TransitionPhase
  failReads : Bool
  failWrites : Bool
  writes : Nat
deriving DecidableEq

namespace MemoryStore

def empty : MemoryStore := ⟨none, false, false, 0⟩

def holding (phase : TransitionPhase) : MemoryStore := ⟨some phase, false, false, 0⟩

def unreachable : MemoryStore := ⟨none, true, true, 0⟩

instance : TransitionStore MemoryStore where
  read store := (if store.failReads then .error .read else .ok store.value, store)
  write phase store :=
    if store.failWrites then (.error .write, store)
    else (.ok (), { store with value := some phase, writes := store.writes + 1 })

end MemoryStore

end TimingNode.Store
