import Mathlib.Data.Nat.Find
import TimingNode.Proofs.EdgeDetection

namespace TimingNode.Proofs.EdgeRuns

open TimingNode.Scan
open TimingNode.Proofs.EdgeDetection

/-- The `threshold` samples up to `last` have a level, and none of them comes before `start`. -/
def FullRun (threshold : Nat) (level : Nat → Bool) (start last : Nat) : Prop :=
  start + threshold ≤ last + 1 ∧ ∀ back, back < threshold → level (last - back) = true

def FirstFullRun (threshold : Nat) (level : Nat → Bool) (start last : Nat) : Prop :=
  FullRun threshold level start last ∧
    ∀ earlier, earlier < last → ¬ FullRun threshold level start earlier

instance (threshold : Nat) (level : Nat → Bool) (start last : Nat) :
    Decidable (FullRun threshold level start last) :=
  inferInstanceAs (Decidable (_ ∧ _))

instance (threshold : Nat) (level : Nat → Bool) (start last : Nat) :
    Decidable (FirstFullRun threshold level start last) :=
  inferInstanceAs (Decidable (_ ∧ _))

theorem fullRun_iff_forall (threshold : Nat) (level : Nat → Bool) (start last : Nat) :
    FullRun threshold level start last ↔ start + threshold ≤ last + 1 ∧
      ∀ i, last < i + threshold → i ≤ last → level i = true := by
  constructor
  · rintro ⟨hroom, hlevel⟩
    refine ⟨hroom, ?_⟩
    intro i hlow hhigh
    rw [← Nat.sub_sub_self hhigh]
    exact hlevel (last - i) (by omega)
  · rintro ⟨hroom, hlevel⟩
    refine ⟨hroom, ?_⟩
    intro back hback
    exact hlevel (last - back) (by omega) (Nat.sub_le last back)

/-- The length of the run with a level that `seen` samples from `start` on end with. -/
def trailing (level : Nat → Bool) (start : Nat) : (seen : Nat) → Nat
  | 0 => 0
  | seen + 1 => if level (start + seen) then trailing level start seen + 1 else 0

theorem le_trailing_iff (level : Nat → Bool) (start seen threshold : Nat) :
    threshold ≤ trailing level start seen ↔
      threshold ≤ seen ∧ ∀ back, back < threshold → level (start + seen - 1 - back) = true := by
  induction seen generalizing threshold with
  | zero =>
      rw [trailing]
      constructor
      · intro hle
        exact ⟨hle, fun back hback => absurd hback (by omega)⟩
      · exact And.left
  | succ seen ih =>
      cases threshold with
      | zero => simp
      | succ threshold =>
          rw [trailing]
          by_cases hlast : level (start + seen) = true
          · rw [if_pos hlast, Nat.succ_le_succ_iff, ih]
            constructor
            · rintro ⟨hroom, hlevel⟩
              refine ⟨Nat.succ_le_succ hroom, ?_⟩
              intro back hback
              cases back with
              | zero => exact hlast
              | succ back =>
                  rw [show start + (seen + 1) - 1 - (back + 1) = start + seen - 1 - back by omega]
                  exact hlevel back (by omega)
            · rintro ⟨hroom, hlevel⟩
              refine ⟨Nat.le_of_succ_le_succ hroom, ?_⟩
              intro back hback
              rw [show start + seen - 1 - back = start + (seen + 1) - 1 - (back + 1) by omega]
              exact hlevel (back + 1) (by omega)
          · rw [if_neg hlast]
            constructor
            · intro hle
              omega
            · rintro ⟨_, hlevel⟩
              exact absurd (hlevel 0 (Nat.succ_pos _)) hlast

theorem fullRun_add_iff (threshold : Nat) (level : Nat → Bool) (start seen : Nat) :
    FullRun threshold level start (start + seen) ↔
      threshold ≤ trailing level start (seen + 1) := by
  rw [FullRun, le_trailing_iff, Nat.add_assoc, Nat.add_le_add_iff_left]
  rfl

theorem fullRun_iff (threshold : Nat) (level : Nat → Bool) (last : Nat) :
    FullRun threshold level 0 last ↔ threshold ≤ trailing level 0 (last + 1) := by
  have hadd := fullRun_add_iff threshold level 0 last
  rwa [Nat.zero_add] at hadd

theorem le_of_fullRun {threshold : Nat} {level : Nat → Bool} {start last : Nat}
    (hthreshold : 0 < threshold) (h : FullRun threshold level start last) : start ≤ last := by
  have hroom := h.1
  omega

theorem exists_firstFullRun {threshold : Nat} {level : Nat → Bool} {start seen : Nat}
    (hsome : ¬ ∀ last, last < seen → ¬ FullRun threshold level start last) :
    ∃ first, first < seen ∧ FirstFullRun threshold level start first := by
  have hex : ∃ last, last < seen ∧ FullRun threshold level start last := by
    by_contra hnone
    exact hsome fun last hlast hfull => hnone ⟨last, hlast, hfull⟩
  obtain ⟨hlt, hfull⟩ := Nat.find_spec hex
  refine ⟨Nat.find hex, hlt, hfull, ?_⟩
  intro earlier hearlier hrun
  exact Nat.find_min hex hearlier ⟨Nat.lt_trans hearlier hlt, hrun⟩

theorem trailing_lt {threshold : Nat} {level : Nat → Bool} {start seen : Nat}
    (hthreshold : 0 < threshold)
    (hshort : ∀ last, last < start + seen → ¬ FullRun threshold level start last) :
    trailing level start seen < threshold := by
  cases seen with
  | zero => exact hthreshold
  | succ seen =>
      have hlast := hshort (start + seen) (Nat.lt_succ_self _)
      rw [fullRun_add_iff] at hlast
      exact Nat.lt_of_not_le hlast

section Track

variable {threshold : UInt32} {backdate : Int} {active : Nat → Bool} {phase : Nat → Int}

/-- Before the first full run, the run counter is the length of the run that the samples end with,
and the sample that completes the run moves the detector on. -/
theorem advance_waiting {seen : Nat} (position : Int)
    (hrun : trailing (! active ·) 0 seen < threshold.toNat) :
    (EdgeDetector.advance threshold backdate (active seen) position
        (.waiting (trailing (! active ·) 0 seen))).2 =
      if threshold.toNat ≤ trailing (! active ·) 0 (seen + 1) then .armed 0
      else .waiting (trailing (! active ·) 0 (seen + 1)) := by
  have hword := threshold.toNat_lt
  rw [EdgeDetector.advance, Word.clampUnsigned_of_lt (by omega), trailing, Nat.zero_add]
  cases active seen <;> rfl

theorem advance_armed {start seen : Nat} (position : Int)
    (hrun : trailing active start seen < threshold.toNat) :
    (EdgeDetector.advance threshold backdate (active (start + seen)) position
        (.armed (trailing active start seen))).2 =
      if threshold.toNat ≤ trailing active start (seen + 1) then
        .found (Word.clampSigned 32 (position - backdate))
      else .armed (trailing active start (seen + 1)) := by
  have hword := threshold.toNat_lt
  rw [EdgeDetector.advance, Word.clampUnsigned_of_lt (by omega), trailing]
  cases active (start + seen) with
  | true =>
      simp only [if_true, ← Nat.not_lt]
      split <;> rfl
  | false =>
      simp only [Bool.false_eq_true, if_false]
      rw [if_neg (by omega)]

theorem track_eq_waiting (hthreshold : 0 < threshold.toNat) {count : Nat}
    (hshort : ∀ last, last < count → ¬ FullRun threshold.toNat (! active ·) 0 last) :
    track threshold backdate active phase count = .waiting (trailing (! active ·) 0 count) := by
  induction count with
  | zero => rfl
  | succ count ih =>
      have hrun : trailing (! active ·) 0 count < threshold.toNat :=
        trailing_lt hthreshold fun last hlast => hshort last (by omega)
      have hnext := hshort count (Nat.lt_succ_self count)
      rw [fullRun_iff] at hnext
      rw [track, ih (fun last hlast => hshort last (by omega)), advance_waiting _ hrun,
        if_neg hnext]

theorem track_eq_armed_zero (hthreshold : 0 < threshold.toNat) {last : Nat}
    (hfirst : FirstFullRun threshold.toNat (! active ·) 0 last) :
    track threshold backdate active phase (last + 1) = .armed 0 := by
  obtain ⟨hfull, hshort⟩ := hfirst
  have hrun : trailing (! active ·) 0 last < threshold.toNat :=
    trailing_lt hthreshold fun earlier hearlier => hshort earlier (by omega)
  rw [fullRun_iff] at hfull
  rw [track, track_eq_waiting hthreshold hshort, advance_waiting _ hrun, if_pos hfull]

theorem track_eq_armed (hthreshold : 0 < threshold.toNat) {start : Nat}
    (harmed : track threshold backdate active phase start = .armed 0) {seen : Nat}
    (hshort : ∀ last, last < start + seen → ¬ FullRun threshold.toNat active start last) :
    track threshold backdate active phase (start + seen) = .armed (trailing active start seen) := by
  induction seen with
  | zero => exact harmed
  | succ seen ih =>
      have hrun := trailing_lt hthreshold (fun last hlast => hshort last (Nat.lt_succ_of_lt hlast))
      have hnext := hshort (start + seen) (Nat.lt_succ_self _)
      rw [fullRun_add_iff] at hnext
      rw [← Nat.add_assoc, track, ih (fun last hlast => hshort last (Nat.lt_succ_of_lt hlast)),
        advance_armed _ hrun, if_neg hnext]

theorem track_eq_found (hthreshold : 0 < threshold.toNat) {start last : Nat}
    (harmed : track threshold backdate active phase start = .armed 0)
    (hfirst : FirstFullRun threshold.toNat active start last) :
    track threshold backdate active phase (last + 1) =
      .found (Word.clampSigned 32 (phase last - backdate)) := by
  obtain ⟨hfull, hshort⟩ := hfirst
  obtain ⟨seen, rfl⟩ := Nat.exists_eq_add_of_le (le_of_fullRun hthreshold hfull)
  rw [fullRun_add_iff] at hfull
  rw [track, track_eq_armed hthreshold harmed hshort,
    advance_armed _ (trailing_lt hthreshold hshort), if_pos hfull]

end Track

inductive Stage where
  | waiting
  | armed
  | found
deriving DecidableEq

def stage : Detection → Stage
  | .waiting _ => .waiting
  | .armed _ => .armed
  | .found _ => .found

def view (detector : EdgeDetector) : Stage × Bool × Option Int :=
  (stage detector.detection, detector.isDone, detector.phase?)

theorem view_of_detection {detector : EdgeDetector} {detection : Detection}
    (h : detector.detection = detection) :
    view detector = (stage detection, detection.phase?.isSome, detection.phase?) := by
  rw [← h]
  rfl

def hasLevel (flip : Nat → Bool) (value : Bool) (i : Nat) : Bool :=
  flip i == value

theorem not_hasLevel (flip : Nat → Bool) (value : Bool) :
    (! hasLevel flip value ·) = hasLevel flip (! value) := by
  funext i
  rw [hasLevel, hasLevel]
  cases flip i <;> cases value <;> rfl

section View

variable {polarity : Polarity} {threshold : UInt32} {backdate : Int} {flip : Nat → Bool}
  {phase : Nat → Int} {seen first : Nat} (hthreshold : 0 < threshold.toNat)
include hthreshold

theorem view_eq_waiting
    (hshort : ∀ last, last < seen →
      ¬ FullRun threshold.toNat (hasLevel flip (! polarity.activeLevel)) 0 last) :
    view (after (fresh polarity threshold backdate) flip phase seen) = (.waiting, false, none) := by
  rw [← not_hasLevel] at hshort
  have hdetection := (after_fresh polarity threshold backdate flip phase seen).2.2.2
  rw [view_of_detection (hdetection.trans (track_eq_waiting hthreshold hshort))]
  rfl

theorem view_eq_armed
    (hfirst : FirstFullRun threshold.toNat (hasLevel flip (! polarity.activeLevel)) 0 first)
    (hle : first < seen)
    (hshort : ∀ last, last < seen →
      ¬ FullRun threshold.toNat (hasLevel flip polarity.activeLevel) (first + 1) last) :
    view (after (fresh polarity threshold backdate) flip phase seen) = (.armed, false, none) := by
  rw [← not_hasLevel] at hfirst
  obtain ⟨later, rfl⟩ := Nat.exists_eq_add_of_le (Nat.succ_le_of_lt hle)
  have hdetection := (after_fresh polarity threshold backdate flip phase (first + 1 + later)).2.2.2
  rw [view_of_detection (hdetection.trans
    (track_eq_armed hthreshold (track_eq_armed_zero hthreshold hfirst) hshort))]
  rfl

theorem view_eq_found {second : Nat}
    (hfirst : FirstFullRun threshold.toNat (hasLevel flip (! polarity.activeLevel)) 0 first)
    (hsecond : FirstFullRun threshold.toNat (hasLevel flip polarity.activeLevel) (first + 1) second)
    (hle : second < seen) :
    view (after (fresh polarity threshold backdate) flip phase seen) =
      (.found, true, some (Word.clampSigned 32 (phase second - backdate))) := by
  rw [← not_hasLevel] at hfirst
  have hdetection := (after_fresh polarity threshold backdate flip phase seen).2.2.2
  rw [view_of_detection (hdetection.trans (track_found_mono hle
    (track_eq_found hthreshold (track_eq_armed_zero hthreshold hfirst) hsecond)))]
  rfl

/-- What a detector shows is decided by the two runs that its samples contain. -/
theorem view_cases (polarity : Polarity) (backdate : Int) (flip : Nat → Bool) (phase : Nat → Int)
    (seen : Nat) :
    ((∀ last, last < seen →
        ¬ FullRun threshold.toNat (hasLevel flip (! polarity.activeLevel)) 0 last) ∧
      view (after (fresh polarity threshold backdate) flip phase seen) =
        (.waiting, false, none)) ∨
    ∃ first, first < seen ∧
      FirstFullRun threshold.toNat (hasLevel flip (! polarity.activeLevel)) 0 first ∧
      (((∀ last, last < seen →
          ¬ FullRun threshold.toNat (hasLevel flip polarity.activeLevel) (first + 1) last) ∧
        view (after (fresh polarity threshold backdate) flip phase seen) =
          (.armed, false, none)) ∨
      ∃ second, second < seen ∧
        FirstFullRun threshold.toNat (hasLevel flip polarity.activeLevel) (first + 1) second ∧
        view (after (fresh polarity threshold backdate) flip phase seen) =
          (.found, true, some (Word.clampSigned 32 (phase second - backdate)))) := by
  by_cases hbefore : ∀ last, last < seen →
      ¬ FullRun threshold.toNat (hasLevel flip (! polarity.activeLevel)) 0 last
  · exact Or.inl ⟨hbefore, view_eq_waiting hthreshold hbefore⟩
  · obtain ⟨first, hlt, hfirst⟩ := exists_firstFullRun hbefore
    refine Or.inr ⟨first, hlt, hfirst, ?_⟩
    by_cases hbeyond : ∀ last, last < seen →
        ¬ FullRun threshold.toNat (hasLevel flip polarity.activeLevel) (first + 1) last
    · exact Or.inl ⟨hbeyond, view_eq_armed hthreshold hfirst hlt hbeyond⟩
    · obtain ⟨second, hltSecond, hsecond⟩ := exists_firstFullRun hbeyond
      exact Or.inr ⟨second, hltSecond, hsecond, view_eq_found hthreshold hfirst hsecond hltSecond⟩

end View

theorem update_fst_eq (detector : EdgeDetector) (flip : Nat → Bool) (phase : Nat → Int) (i : Nat) :
    ((after detector flip phase i).update (flip i) (phase i)).1 =
      (view (after detector flip phase (i + 1))).2.1 := by
  rw [EdgeDetector.update_fst, after_succ]
  rfl

/-- A detector waits until the first full run of the level before the edge, and is then armed until
the first full run of the level after it among the later samples. From there on it shows the phase
of the sample that completed this run, dated back, whatever it sees. An update answers that the edge
is found from the very sample that completed the run, and with no earlier one. -/
theorem runs_decide_detection (polarity : Polarity) (threshold : UInt32) (backdate : Int)
    (flip : Nat → Bool) (phase : Nat → Int) (hthreshold : 1 ≤ threshold) :
    let before := fun i => flip i != polarity.activeLevel
    let beyond := fun i => flip i == polarity.activeLevel
    let detector := after (fresh polarity threshold backdate) flip phase
    let viewAt := fun i => view (detector (i + 1))
    let answerAt := fun i => ((detector i).update (flip i) (phase i)).1
    (∀ i, (∀ last, last ≤ i → ¬ FullRun threshold.toNat before 0 last) →
      viewAt i = (.waiting, false, none) ∧ answerAt i = false) ∧
    ∀ first, FirstFullRun threshold.toNat before 0 first →
      (∀ i, first ≤ i → (∀ last, last ≤ i → ¬ FullRun threshold.toNat beyond (first + 1) last) →
        viewAt i = (.armed, false, none) ∧ answerAt i = false) ∧
      ∀ second, FirstFullRun threshold.toNat beyond (first + 1) second →
        (∀ i, second ≤ i →
          viewAt i = (.found, true, some (Word.clampSigned 32 (phase second - backdate)))) ∧
        ∀ i, answerAt i = true ↔ second ≤ i := by
  intro before beyond detector viewAt answerAt
  have hpos : 0 < threshold.toNat := UInt32.le_iff_toNat_le.mp hthreshold
  have hbefore : before = hasLevel flip (! polarity.activeLevel) := not_hasLevel flip _
  have hanswer {i : Nat} {seen : Stage} {found : Bool} {edge : Option Int}
      (hview : viewAt i = (seen, found, edge)) : answerAt i = found := by
    rw [show answerAt i = (viewAt i).2.1 from update_fst_eq _ flip phase i, hview]
  rw [hbefore]
  have hwaiting (i : Nat) (hshort : ∀ last, last ≤ i → ¬ FullRun threshold.toNat _ 0 last) :
      viewAt i = (.waiting, false, none) :=
    view_eq_waiting hpos fun last hlast => hshort last (Nat.le_of_lt_succ hlast)
  refine ⟨fun i hshort => ⟨hwaiting i hshort, hanswer (hwaiting i hshort)⟩, ?_⟩
  intro first hfirst
  have harmed (i : Nat) (hle : first ≤ i)
      (hshort : ∀ last, last ≤ i → ¬ FullRun threshold.toNat beyond (first + 1) last) :
      viewAt i = (.armed, false, none) :=
    view_eq_armed hpos hfirst (Nat.lt_succ_of_le hle) fun last hlast =>
      hshort last (Nat.le_of_lt_succ hlast)
  refine ⟨fun i hle hshort => ⟨harmed i hle hshort, hanswer (harmed i hle hshort)⟩, ?_⟩
  intro second hsecond
  have hfound (i : Nat) (hle : second ≤ i) :
      viewAt i = (.found, true, some (Word.clampSigned 32 (phase second - backdate))) :=
    view_eq_found hpos hfirst hsecond (Nat.lt_succ_of_le hle)
  refine ⟨hfound, fun i => ⟨?_, fun hle => hanswer (hfound i hle)⟩⟩
  intro htrue
  by_contra hearly
  have hfalse : answerAt i = false := by
    by_cases hle : first ≤ i
    · exact hanswer (harmed i hle fun last hlast => hsecond.2 last (by omega))
    · exact hanswer (hwaiting i fun last hlast => hfirst.2 last (by omega))
  rw [hfalse] at htrue
  cases htrue

def glitchy (i : Nat) : Bool :=
  [false, true, false, false, true, false, true, true, false, false].getD i false

theorem runs_decide_detection_glitchy :
    let detector := after (fresh .rising 2 150) glitchy (fun i => 100 * (i : Int))
    let viewAt := fun i => view (detector (i + 1))
    let answerAt := fun i => ((detector i).update (glitchy i) (100 * (i : Int))).1
    viewAt 2 = (.waiting, false, none) ∧ answerAt 2 = false ∧
      viewAt 6 = (.armed, false, none) ∧ answerAt 6 = false ∧ answerAt 7 = true ∧
      viewAt 9 = (.found, true, some 550) ∧ answerAt 9 = true := by
  obtain ⟨hwaiting, hlater⟩ := runs_decide_detection .rising 2 150 glitchy
    (fun i => 100 * (i : Int)) (by decide)
  obtain ⟨harmed, hsecond⟩ := hlater 3 (by decide)
  obtain ⟨hfound, hanswer⟩ := hsecond 7 (by decide)
  obtain ⟨hview, hnone⟩ := hwaiting 2 (by decide)
  obtain ⟨hviewArmed, hnoneArmed⟩ := harmed 6 (by decide) (by decide)
  exact ⟨hview, hnone, hviewArmed, hnoneArmed, (hanswer 7).mpr (Nat.le_refl 7),
    hfound 9 (by decide), (hanswer 9).mpr (by decide)⟩

end TimingNode.Proofs.EdgeRuns
