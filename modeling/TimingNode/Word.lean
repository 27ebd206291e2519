namespace TimingNode.Word

/-- The nearest integer to `x` that a signed word of `width` bits holds. -/
def clampSigned (width : Nat) (x : Int) : Int :=
  let bound : Nat := 1 <<< (width - 1)
  max (-(bound : Int)) (min x ((bound : Int) - 1))

def FitsSigned (width : Nat) (x : Int) : Prop :=
  -((1 <<< (width - 1) : Nat) : Int) ≤ x ∧ x < ((1 <<< (width - 1) : Nat) : Int)

instance (width : Nat) (x : Int) : Decidable (FitsSigned width x) :=
  inferInstanceAs (Decidable (_ ∧ _))

def clampUnsigned (width n : Nat) : Nat :=
  min n (1 <<< width - 1)

def fit? (width n : Nat) : Option Nat :=
  if n < 1 <<< width then some n else none

theorem clampSigned_of_mem {width : Nat} {x : Int}
    (hlow : -((1 <<< (width - 1) : Nat) : Int) ≤ x)
    (hhigh : x < ((1 <<< (width - 1) : Nat) : Int)) : clampSigned width x = x := by
  simp only [clampSigned]
  omega

theorem fitsSigned_clampSigned (width : Nat) (x : Int) :
    FitsSigned width (clampSigned width x) := by
  have hbound := Nat.two_pow_pos (width - 1)
  rw [← Nat.one_shiftLeft] at hbound
  simp only [FitsSigned, clampSigned]
  omega

theorem clampSigned_mono (width : Nat) {x y : Int} (h : x ≤ y) :
    clampSigned width x ≤ clampSigned width y := by
  simp only [clampSigned]
  omega

theorem clampUnsigned_of_lt {width n : Nat} (h : n < 1 <<< width) :
    clampUnsigned width n = n := by
  simp only [clampUnsigned]
  omega

theorem clampUnsigned_mono (width : Nat) {n m : Nat} (h : n ≤ m) :
    clampUnsigned width n ≤ clampUnsigned width m := by
  simp only [clampUnsigned]
  omega

theorem clampUnsigned_succ_le {width n m : Nat} (h : clampUnsigned width n ≤ m) :
    clampUnsigned width (n + 1) ≤ clampUnsigned width (m + 1) := by
  simp only [clampUnsigned] at h ⊢
  omega

theorem clampUnsigned_clampUnsigned_succ (width n : Nat) :
    clampUnsigned width (clampUnsigned width n + 1) = clampUnsigned width (n + 1) := by
  simp only [clampUnsigned]
  omega

theorem le_clampUnsigned_iff {width m : Nat} (h : m < 1 <<< width) (n : Nat) :
    m ≤ clampUnsigned width n ↔ m ≤ n := by
  simp only [clampUnsigned]
  omega

theorem fit?_eq_some_iff {width n m : Nat} :
    fit? width n = some m ↔ n < 1 <<< width ∧ n = m := by
  simp [fit?]

end TimingNode.Word
