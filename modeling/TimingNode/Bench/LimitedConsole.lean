import TimingNode.Device

namespace TimingNode.Bench

structure LimitedConsole where
  text : String
  /-- Bytes that the console has room for, none for no limit. -/
  room : Option Nat
  /-- The number, counted from one, of the coming line end that is refused. -/
  reject : Option Nat
deriving DecidableEq

namespace LimitedConsole

def unlimited : LimitedConsole := ⟨"", none, none⟩

def accepts (console : LimitedConsole) (c : Char) : Bool :=
  console.room.all (console.text.utf8ByteSize + c.utf8Size ≤ ·) &&
    !(c == '\n' && console.reject == some 1)

def take (console : LimitedConsole) (c : Char) : Bool × LimitedConsole :=
  let reject := if c = '\n' then console.reject.map (· - 1) else console.reject
  if console.accepts c then (true, { console with text := console.text.push c, reject })
  else (false, { console with reject })

/-- Takes characters up to the first one that is refused. -/
def takeAll : List Char → LimitedConsole → Bool × LimitedConsole
  | [], console => (true, console)
  | c :: cs, console =>
      match console.take c with
      | (true, console) => takeAll cs console
      | (false, console) => (false, console)

instance : Console LimitedConsole where
  write text := takeAll text.toList

end LimitedConsole

end TimingNode.Bench
