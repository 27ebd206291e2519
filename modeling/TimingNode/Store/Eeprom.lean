import TimingNode.Device

namespace TimingNode.Store

namespace WordBytes

def encode (word : UInt32) : List UInt8 :=
  [word.toNat >>> 24, word.toNat >>> 16, word.toNat >>> 8, word.toNat].map UInt8.ofNat

def decode (bytes : List UInt8) : UInt32 :=
  UInt32.ofNat (bytes.foldl (fun value byte => 256 * value + byte.toNat) 0)

@[simp] theorem length_encode (word : UInt32) : (encode word).length = 4 :=
  rfl

theorem decode_encode (word : UInt32) : decode (encode word) = word := by
  have hword := word.toNat_lt
  apply UInt32.toNat_inj.mp
  simp only [decode, encode, List.map_cons, List.map_nil, List.foldl_cons, List.foldl_nil,
    UInt8.toNat_ofNat', UInt32.toNat_ofNat']
  omega

theorem encode_decode {bytes : List UInt8} (h : bytes.length = 4) :
    encode (decode bytes) = bytes := by
  match bytes, h with
  | [first, second, third, fourth], _ =>
      have hfirst := first.toNat_lt
      have hsecond := second.toNat_lt
      have hthird := third.toNat_lt
      have hfourth := fourth.toNat_lt
      simp only [encode, decode, List.foldl_cons, List.foldl_nil, List.map_cons,
        List.map_nil, List.cons.injEq, and_true, ← UInt8.toNat_inj, UInt8.toNat_ofNat',
        UInt32.toNat_ofNat']
      omega

end WordBytes

structure Eeprom where
  bytes : List UInt8
  failing : Bool
deriving DecidableEq

namespace Eeprom

def erased (size : Nat) : Eeprom := ⟨List.replicate size 0xFF, false⟩

def read? (eeprom : Eeprom) (offset length : Nat) : Option (List UInt8) :=
  if eeprom.failing ∨ eeprom.bytes.length < offset + length then none
  else some ((eeprom.bytes.drop offset).take length)

def write? (eeprom : Eeprom) (offset : Nat) (data : List UInt8) : Option Eeprom :=
  if eeprom.failing ∨ eeprom.bytes.length < offset + data.length then none
  else
    some { eeprom with
      bytes := eeprom.bytes.take offset ++ data ++ eeprom.bytes.drop (offset + data.length) }

/-- The memory with `data` from `offset` on as far as it reaches, put there by other means than a
transfer. -/
def poke (eeprom : Eeprom) (offset : Nat) : List UInt8 → Eeprom
  | [] => eeprom
  | byte :: data => poke { eeprom with bytes := eeprom.bytes.set offset byte } (offset + 1) data

end Eeprom

structure EepromStore where
  eeprom : Eeprom
  offset : Nat
deriving DecidableEq

namespace EepromStore

def i2cOffset : Nat := 4096

def oneWireOffset : Nat := 512

def read (store : EepromStore) : Except Error (Option TransitionPhase) :=
  match store.eeprom.read? store.offset 4 with
  | none => .error .read
  | some bytes => .ok (TransitionPhase.ofWord? (WordBytes.decode bytes))

def write (store : EepromStore) (phase : TransitionPhase) : Except Error EepromStore :=
  match store.eeprom.write? store.offset (WordBytes.encode phase.toWord) with
  | none => .error .write
  | some eeprom => .ok { store with eeprom }

instance : TransitionStore EepromStore where
  read store := (store.read, store)
  write phase store :=
    match store.write phase with
    | .error error => (.error error, store)
    | .ok store => (.ok (), store)

end EepromStore

end TimingNode.Store
