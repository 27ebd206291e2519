namespace TimingNode

structure Tag where
  channel : UInt8
  value : UInt32
deriving DecidableEq

namespace Tag

/-- The bits of a register word that hold the value. -/
def valueMask : UInt32 := 0x00FFFFFF

/-- The bits of a channel number that a register word has room for. -/
def channelMask : UInt32 := 0x7F

def ofRegister (word : UInt32) : Tag :=
  { channel := ((word >>> 24) &&& channelMask).toUInt8
    value := word &&& valueMask }

def toRegister (tag : Tag) : UInt32 :=
  (tag.channel.toUInt32 <<< 24) ||| (tag.value &&& valueMask)

end Tag

end TimingNode
