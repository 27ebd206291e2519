import TimingNode.Store.Eeprom
import TimingNode.Store.Memory

namespace TimingNode

inductive Store where
  | memory (store : Store.MemoryStore)
  | eeprom (store : Store.EepromStore)
deriving DecidableEq

namespace Store

instance : TransitionStore Store where
  read
    | .memory store =>
        let (result, store) := TransitionStore.read store
        (result, .memory store)
    | .eeprom store =>
        let (result, store) := TransitionStore.read store
        (result, .eeprom store)
  write phase
    | .memory store =>
        let (result, store) := TransitionStore.write phase store
        (result, .memory store)
    | .eeprom store =>
        let (result, store) := TransitionStore.write phase store
        (result, .eeprom store)

end Store

end TimingNode
