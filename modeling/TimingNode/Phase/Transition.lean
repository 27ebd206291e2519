namespace TimingNode

/-- A phase in picoseconds that leaves the top bit of a 32-bit word free. -/
structure TransitionPhase where
  picoseconds : Nat
  lt_limit : picoseconds < 1 <<< 31
deriving DecidableEq

structure OutOfRange where
  value : Nat
  least : Nat
  greatest : Nat
deriving DecidableEq

def OutOfRange.message : OutOfRange → String
  | ⟨value, least, greatest⟩ => s!"value {value} outside [{least}, {greatest}]"

namespace TransitionPhase

def greatest : Nat := 1 <<< 31 - 1

/-- The bit of a stored word that says it holds a phase. -/
def validFlag : Nat := 1 <<< 31

def erasedWord : UInt32 := 0xFFFFFFFF

def ofNat? (value : Nat) : Except OutOfRange TransitionPhase :=
  if h : value < 1 <<< 31 then .ok ⟨value, h⟩ else .error ⟨value, 0, greatest⟩

/-- The transition phase of a value already folded into a period, which keeps its low 31 bits. -/
def ofFolded (value : Nat) : TransitionPhase :=
  ⟨value % (1 <<< 31), Nat.mod_lt _ (by decide)⟩

def toWord (phase : TransitionPhase) : UInt32 :=
  UInt32.ofNat (validFlag + phase.picoseconds)

/-- The phase that a stored word holds. An erased word and a word without the flag hold none. -/
def ofWord? (word : UInt32) : Option TransitionPhase :=
  if word = erasedWord ∨ word.toNat < validFlag then none else some (ofFolded word.toNat)

theorem ofNat?_eq_ok_iff {value : Nat} {phase : TransitionPhase} :
    ofNat? value = .ok phase ↔ phase.picoseconds = value := by
  rcases phase with ⟨picoseconds, hlt⟩
  simp only [ofNat?]
  split
  · simp [eq_comm]
  · simp only [reduceCtorEq, false_iff]
    omega

theorem ofFolded_of_lt {value : Nat} (h : value < 1 <<< 31) :
    (ofFolded value).picoseconds = value :=
  Nat.mod_eq_of_lt h

theorem toNat_toWord (phase : TransitionPhase) :
    phase.toWord.toNat = validFlag + phase.picoseconds := by
  have h := phase.lt_limit
  simp only [toWord, validFlag, UInt32.toNat_ofNat']
  omega

end TransitionPhase

end TimingNode
