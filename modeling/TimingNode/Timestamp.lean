import TimingNode.Word

namespace TimingNode

/-- A moment in whole seconds, nanoseconds of the second and picoseconds of the nanosecond. -/
structure Timestamp where
  seconds : Int64
  nanoseconds : Nat
  phase : Nat
  nanoseconds_lt : nanoseconds < 1_000_000_000
  phase_lt : phase < 1000
deriving DecidableEq

namespace Timestamp

def picosecondsPerNanosecond : Nat := 1000

def picosecondsPerSecond : Nat := 1_000_000_000_000

def toPicoseconds (t : Timestamp) : Int :=
  t.seconds.toInt * picosecondsPerSecond + t.nanoseconds * picosecondsPerNanosecond + t.phase

/-- The timestamp `total` picoseconds after the epoch. Seconds that leave 64 bits stop at the
nearest end, and the part below a second is kept. -/
def ofPicoseconds (total : Int) : Timestamp :=
  let part := (total % picosecondsPerSecond).toNat
  { seconds := Int64.ofInt (Word.clampSigned 64 (total / picosecondsPerSecond))
    nanoseconds := part / picosecondsPerNanosecond
    phase := part % picosecondsPerNanosecond
    nanoseconds_lt := by
      simp only [part, picosecondsPerSecond, picosecondsPerNanosecond]
      omega
    phase_lt := Nat.mod_lt part (by decide) }

/-- The timestamp of parts that need not be in range: each carries into the next. -/
def ofParts (seconds nanoseconds phase : Int) : Timestamp :=
  ofPicoseconds
    (seconds * picosecondsPerSecond + nanoseconds * picosecondsPerNanosecond + phase)

theorem toPicoseconds_ofPicoseconds {total : Int}
    (hlow : -(1 <<< 63 : Nat) ≤ total / picosecondsPerSecond)
    (hhigh : total / picosecondsPerSecond < (1 <<< 63 : Nat)) :
    (ofPicoseconds total).toPicoseconds = total := by
  have hclamp : Word.clampSigned 64 (total / picosecondsPerSecond) =
      total / picosecondsPerSecond :=
    Word.clampSigned_of_mem (by simpa using hlow) (by simpa using hhigh)
  have hseconds : (Int64.ofInt (total / picosecondsPerSecond)).toInt =
      total / picosecondsPerSecond :=
    Int64.toInt_ofInt_of_le (by simpa using hlow) (by simpa using hhigh)
  simp only [toPicoseconds, ofPicoseconds, hclamp, hseconds]
  simp only [picosecondsPerSecond, picosecondsPerNanosecond]
  omega

instance : Ord Timestamp where
  compare a b :=
    (compare a.seconds.toInt b.seconds.toInt).then <|
      (compare a.nanoseconds b.nanoseconds).then (compare a.phase b.phase)

instance : Sub Timestamp where
  sub a b := ofPicoseconds (Word.clampSigned 128 (a.toPicoseconds - b.toPicoseconds))

end Timestamp

end TimingNode
