import TimingNode.Timestamp

namespace TimingNode.Proofs.TimestampOrder

open TimingNode.Timestamp

def Fits (total : Int) : Prop :=
  Word.FitsSigned 64 (total / picosecondsPerSecond)

def parts (t : Timestamp) : Int × Int × Int :=
  (t.seconds.toInt, t.nanoseconds, t.phase)

theorem eq_of_parts_eq {a b : Timestamp} (h : parts a = parts b) : a = b := by
  rcases a with ⟨seconds, nanoseconds, phase, _, _⟩
  rcases b with ⟨seconds', nanoseconds', phase', _, _⟩
  simp only [parts, Prod.mk.injEq, Int.natCast_inj] at h
  obtain ⟨hseconds, rfl, rfl⟩ := h
  obtain rfl := Int64.toInt_inj.mp hseconds
  rfl

section Totals

theorem toPicoseconds_ediv (t : Timestamp) :
    t.toPicoseconds / picosecondsPerSecond = t.seconds.toInt := by
  have hnanoseconds := t.nanoseconds_lt
  have hphase := t.phase_lt
  simp only [toPicoseconds, picosecondsPerSecond, picosecondsPerNanosecond]
  omega

theorem toPicoseconds_emod (t : Timestamp) :
    t.toPicoseconds % picosecondsPerSecond =
      (t.nanoseconds * picosecondsPerNanosecond + t.phase : Nat) := by
  have hnanoseconds := t.nanoseconds_lt
  have hphase := t.phase_lt
  simp only [toPicoseconds, picosecondsPerSecond, picosecondsPerNanosecond]
  omega

theorem fits_toPicoseconds (t : Timestamp) : Fits t.toPicoseconds := by
  have hlow := t.seconds.le_toInt
  have hhigh := t.seconds.toInt_lt
  rw [Fits, toPicoseconds_ediv]
  constructor <;> omega

theorem toPicoseconds_ofPicoseconds_iff (total : Int) :
    Fits total ↔ (ofPicoseconds total).toPicoseconds = total := by
  constructor
  · rintro ⟨hlow, hhigh⟩
    exact toPicoseconds_ofPicoseconds hlow hhigh
  · intro h
    rw [← h]
    exact fits_toPicoseconds _

theorem parts_ofPicoseconds (total : Int) :
    parts (ofPicoseconds total) =
      (Word.clampSigned 64 (total / picosecondsPerSecond),
        total % picosecondsPerSecond / picosecondsPerNanosecond,
        total % picosecondsPerSecond % picosecondsPerNanosecond) := by
  have hpart := Int.emod_nonneg total (by decide : (picosecondsPerSecond : Int) ≠ 0)
  simp only [parts, ofPicoseconds, Prod.mk.injEq, Int.natCast_ediv, Int.natCast_emod,
    Int.toNat_of_nonneg hpart, and_true]
  refine Int64.toInt_ofInt_of_le ?_ ?_ <;> simp only [Word.clampSigned] <;> omega

theorem ofPicoseconds_toPicoseconds (t : Timestamp) : ofPicoseconds t.toPicoseconds = t := by
  have hlow := t.seconds.le_toInt
  have hhigh := t.seconds.toInt_lt
  have hphase := t.phase_lt
  apply eq_of_parts_eq
  rw [parts_ofPicoseconds, toPicoseconds_ediv, toPicoseconds_emod, parts,
    Word.clampSigned_of_mem (by omega) (by omega)]
  simp only [picosecondsPerNanosecond, Prod.mk.injEq, true_and]
  constructor <;> omega

theorem toPicoseconds_inj {a b : Timestamp} : a = b ↔ a.toPicoseconds = b.toPicoseconds := by
  constructor
  · rintro rfl
    rfl
  · intro h
    rw [← ofPicoseconds_toPicoseconds a, h, ofPicoseconds_toPicoseconds]

theorem seconds_ofPicoseconds_neg_iff (total : Int) :
    (ofPicoseconds total).seconds < 0 ↔ total < 0 := by
  have hseconds : (ofPicoseconds total).seconds.toInt =
      Word.clampSigned 64 (total / picosecondsPerSecond) :=
    congrArg Prod.fst (parts_ofPicoseconds total)
  rw [Int64.lt_iff_toInt_lt, hseconds, Int64.toInt_zero]
  simp only [Word.clampSigned, picosecondsPerSecond]
  omega

end Totals

section Order

theorem compare_mul_add {high high' low low' radix : Int} (hlow : 0 ≤ low) (hlow' : 0 ≤ low')
    (hradix : low < radix) (hradix' : low' < radix) :
    compare (high * radix + low) (high' * radix + low') =
      (compare high high').then (compare low low') := by
  rcases Int.lt_trichotomy high high' with hlt | rfl | hgt
  · have hcarry := Int.mul_le_mul_of_nonneg_right (Int.add_one_le_of_lt hlt)
      (by omega : 0 ≤ radix)
    rw [Int.add_mul] at hcarry
    rw [Int.compare_eq_lt.mpr hlt, Ordering.lt_then]
    exact Int.compare_eq_lt.mpr (by omega)
  · rw [Int.compare_eq_eq.mpr rfl, Ordering.eq_then]
    simp only [compare, compareOfLessAndEq, Int.add_lt_add_iff_left, Int.add_right_inj]
  · have hcarry := Int.mul_le_mul_of_nonneg_right (Int.add_one_le_of_lt hgt)
      (by omega : 0 ≤ radix)
    rw [Int.add_mul] at hcarry
    rw [Int.compare_eq_gt.mpr hgt, Ordering.gt_then]
    exact Int.compare_eq_gt.mpr (by omega)

theorem compare_natCast (m n : Nat) : compare (m : Int) n = compare m n := by
  simp only [compare, compareOfLessAndEq, Int.ofNat_lt, Int.natCast_inj]

theorem compare_eq_compare_toPicoseconds (a b : Timestamp) :
    compare a b = compare a.toPicoseconds b.toPicoseconds := by
  have hdigits (t : Timestamp) : t.toPicoseconds =
      (t.seconds.toInt * 1_000_000_000 + t.nanoseconds) * 1000 + t.phase := by
    simp only [toPicoseconds, picosecondsPerSecond, picosecondsPerNanosecond]
    omega
  have hnanoseconds := a.nanoseconds_lt
  have hnanoseconds' := b.nanoseconds_lt
  have hphase := a.phase_lt
  have hphase' := b.phase_lt
  rw [hdigits, hdigits, compare_mul_add (by omega) (by omega) (by omega) (by omega),
    compare_mul_add (by omega) (by omega) (by omega) (by omega), compare_natCast,
    compare_natCast, Ordering.then_assoc]
  rfl

end Order

section Difference

theorem sub_eq (a b : Timestamp) : a - b = ofPicoseconds (a.toPicoseconds - b.toPicoseconds) := by
  obtain ⟨hlow, hhigh⟩ := fits_toPicoseconds a
  obtain ⟨hlow', hhigh'⟩ := fits_toPicoseconds b
  simp only [picosecondsPerSecond] at hlow hhigh hlow' hhigh'
  change ofPicoseconds (Word.clampSigned 128 (a.toPicoseconds - b.toPicoseconds)) = _
  rw [Word.clampSigned_of_mem (by omega) (by omega)]

theorem seconds_sub_neg_iff (a b : Timestamp) : (a - b).seconds < 0 ↔ compare a b = .lt := by
  rw [sub_eq, seconds_ofPicoseconds_neg_iff, compare_eq_compare_toPicoseconds, Int.compare_eq_lt]
  omega

end Difference

section Width

def wide? (x : Int) : Option Int :=
  if Word.FitsSigned 128 x then some x else none

/-- The total of parts, if every product and sum fits 128 bits. -/
def wideTotal? (seconds nanoseconds phase : Int) : Option Int := do
  let whole ← wide? (seconds * picosecondsPerSecond)
  let fine ← wide? (nanoseconds * picosecondsPerNanosecond)
  let coarse ← wide? (whole + fine)
  wide? (coarse + phase)

def wideParts? (total : Int) : Option (Int × Int × Int) := do
  let seconds ← wide? (total / picosecondsPerSecond)
  let part ← wide? (total % picosecondsPerSecond)
  let nanoseconds ← wide? (part / picosecondsPerNanosecond)
  let phase ← wide? (part % picosecondsPerNanosecond)
  return (Word.clampSigned 64 seconds, nanoseconds, phase)

def wideDifference? (a b : Timestamp) : Option (Int × Int × Int) := do
  let total ← wideTotal? a.seconds.toInt a.nanoseconds a.phase
  let total' ← wideTotal? b.seconds.toInt b.nanoseconds b.phase
  let difference ← wide? (total - total')
  wideParts? difference

theorem wide?_of_mem {x : Int} (hlow : -(1 <<< 127 : Nat) ≤ x) (hhigh : x < (1 <<< 127 : Nat)) :
    wide? x = some x :=
  if_pos ⟨hlow, hhigh⟩

theorem wideTotal?_of_mem {seconds nanoseconds phase : Int}
    (hseconds : seconds.natAbs ≤ 1 <<< 63) (hnanoseconds : nanoseconds.natAbs ≤ 1 <<< 63)
    (hphase : phase.natAbs ≤ 1 <<< 63) :
    wideTotal? seconds nanoseconds phase = some
      (seconds * picosecondsPerSecond + nanoseconds * picosecondsPerNanosecond + phase) := by
  simp only [wideTotal?, picosecondsPerSecond, picosecondsPerNanosecond, Option.bind_eq_bind]
  rw [wide?_of_mem (by omega) (by omega), Option.bind_some, wide?_of_mem (by omega) (by omega),
    Option.bind_some, wide?_of_mem (by omega) (by omega), Option.bind_some,
    wide?_of_mem (by omega) (by omega)]

theorem wideTotal?_toPicoseconds (t : Timestamp) :
    wideTotal? t.seconds.toInt t.nanoseconds t.phase = some t.toPicoseconds := by
  have hlow := t.seconds.le_toInt
  have hhigh := t.seconds.toInt_lt
  have hnanoseconds := t.nanoseconds_lt
  have hphase := t.phase_lt
  exact wideTotal?_of_mem (by omega) (by omega) (by omega)

theorem wideParts?_of_mem {total : Int} (hlow : -(1 <<< 127 : Nat) ≤ total)
    (hhigh : total < (1 <<< 127 : Nat)) :
    wideParts? total = some (parts (ofPicoseconds total)) := by
  rw [parts_ofPicoseconds]
  simp only [wideParts?, picosecondsPerSecond, picosecondsPerNanosecond, Option.bind_eq_bind]
  rw [wide?_of_mem (by omega) (by omega), Option.bind_some, wide?_of_mem (by omega) (by omega),
    Option.bind_some, wide?_of_mem (by omega) (by omega), Option.bind_some,
    wide?_of_mem (by omega) (by omega)]
  rfl

theorem wideDifference?_eq (a b : Timestamp) : wideDifference? a b = some (parts (a - b)) := by
  obtain ⟨hlow, hhigh⟩ := fits_toPicoseconds a
  obtain ⟨hlow', hhigh'⟩ := fits_toPicoseconds b
  simp only [picosecondsPerSecond] at hlow hhigh hlow' hhigh'
  simp only [wideDifference?, Option.bind_eq_bind]
  rw [wideTotal?_toPicoseconds, Option.bind_some, wideTotal?_toPicoseconds, Option.bind_some,
    wide?_of_mem (by omega) (by omega), Option.bind_some,
    wideParts?_of_mem (by omega) (by omega), sub_eq]

end Width

/-- Timestamps stand for integers of picoseconds. One built of any parts is in range, and has the
total of the parts if and only if its whole seconds fit; a timestamp is recovered from its total.
The order of timestamps is that of their totals, and a difference is in range, negative in its
seconds if and only if it is one below zero, and exact if and only if its whole seconds fit. All of
this is computed without a number that leaves 128 bits. -/
theorem timestamps_stand_for_totals (seconds nanoseconds phase : Int64) (a b : Timestamp) :
    let total := seconds.toInt * 1_000_000_000_000 + nanoseconds.toInt * 1000 + phase.toInt
    let built := ofParts seconds.toInt nanoseconds.toInt phase.toInt
    let difference := a.toPicoseconds - b.toPicoseconds
    (built.nanoseconds < 1_000_000_000 ∧ built.phase < 1000) ∧
      (Fits total ↔ built.toPicoseconds = total) ∧
      (wideTotal? seconds.toInt nanoseconds.toInt phase.toInt).bind wideParts? =
        some (parts built) ∧
      ofPicoseconds a.toPicoseconds = a ∧
      wideTotal? a.seconds.toInt a.nanoseconds a.phase = some a.toPicoseconds ∧
      compare a b = compare a.toPicoseconds b.toPicoseconds ∧
      (a = b ↔ a.toPicoseconds = b.toPicoseconds) ∧
      ((a - b).nanoseconds < 1_000_000_000 ∧ (a - b).phase < 1000) ∧
      ((a - b).seconds < 0 ↔ compare a b = .lt) ∧
      (Fits difference ↔ (a - b).toPicoseconds = difference) ∧
      wideDifference? a b = some (parts (a - b)) := by
  intro total built difference
  have hseconds := seconds.le_toInt
  have hseconds' := seconds.toInt_lt
  have hnanoseconds := nanoseconds.le_toInt
  have hnanoseconds' := nanoseconds.toInt_lt
  have hphase := phase.le_toInt
  have hphase' := phase.toInt_lt
  have hwide : wideTotal? seconds.toInt nanoseconds.toInt phase.toInt = some total :=
    wideTotal?_of_mem (by omega) (by omega) (by omega)
  refine ⟨⟨built.nanoseconds_lt, built.phase_lt⟩, toPicoseconds_ofPicoseconds_iff total, ?_,
    ofPicoseconds_toPicoseconds a, wideTotal?_toPicoseconds a,
    compare_eq_compare_toPicoseconds a b, toPicoseconds_inj,
    ⟨(a - b).nanoseconds_lt, (a - b).phase_lt⟩, seconds_sub_neg_iff a b, ?_,
    wideDifference?_eq a b⟩
  · rw [hwide, Option.bind_some]
    exact wideParts?_of_mem (by omega) (by omega)
  · rw [sub_eq]
    exact toPicoseconds_ofPicoseconds_iff difference

end TimingNode.Proofs.TimestampOrder
