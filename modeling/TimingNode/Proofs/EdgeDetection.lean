import TimingNode.Scan.EdgeDetector

namespace TimingNode.Proofs.EdgeDetection

open TimingNode.Scan

/-- The detection after each sample of a sequence, given which samples have the level after the
edge. -/
def track (threshold : UInt32) (backdate : Int) (active : Nat → Bool) (phase : Nat → Int) :
    Nat → Detection
  | 0 => .waiting 0
  | count + 1 =>
      (EdgeDetector.advance threshold backdate (active count) (phase count)
        (track threshold backdate active phase count)).2

def after (detector : EdgeDetector) (flip : Nat → Bool) (phase : Nat → Int) (count : Nat) :
    EdgeDetector :=
  detector.sampleAll ((List.range count).map fun i => (flip i, phase i))

theorem after_succ (detector : EdgeDetector) (flip : Nat → Bool) (phase : Nat → Int)
    (count : Nat) :
    after detector flip phase (count + 1) =
      (after detector flip phase count).sample (flip count) (phase count) := by
  simp only [after, EdgeDetector.sampleAll, List.range_succ, List.map_append, List.foldl_append,
    List.map_cons, List.map_nil, List.foldl_cons, List.foldl_nil]

/-- A sample leaves the edge that is known, or it completes one and dates it back from itself. -/
theorem phase?_sample (detector : EdgeDetector) (flip : Bool) (phase : Int) :
    (detector.sample flip phase).phase? = detector.phase? ∨
      detector.phase? = none ∧ (detector.sample flip phase).phase? =
        some (Word.clampSigned 32 (phase - detector.backdate)) := by
  rcases detector with ⟨polarity, threshold, backdate, run | run | edge, previous⟩
  · left
    simp only [EdgeDetector.sample, EdgeDetector.update, EdgeDetector.advance, EdgeDetector.phase?]
    repeat' split
    all_goals rfl
  · simp only [EdgeDetector.sample, EdgeDetector.update, EdgeDetector.advance, EdgeDetector.phase?]
    repeat' split
    · exact Or.inl rfl
    · exact Or.inr ⟨rfl, rfl⟩
    · exact Or.inl rfl
  · exact Or.inl rfl

def fresh (polarity : Polarity) (threshold : UInt32) (backdate : Int) : EdgeDetector :=
  { polarity, threshold, backdate, detection := .waiting 0, previous := none }

theorem after_fresh (polarity : Polarity) (threshold : UInt32) (backdate : Int)
    (flip : Nat → Bool) (phase : Nat → Int) (count : Nat) :
    (after (fresh polarity threshold backdate) flip phase count).polarity = polarity ∧
      (after (fresh polarity threshold backdate) flip phase count).threshold = threshold ∧
      (after (fresh polarity threshold backdate) flip phase count).backdate = backdate ∧
      (after (fresh polarity threshold backdate) flip phase count).detection =
        track threshold backdate (fun i => flip i == polarity.activeLevel) phase count := by
  induction count with
  | zero => exact ⟨rfl, rfl, rfl, rfl⟩
  | succ count ih =>
      obtain ⟨hpolarity, hthreshold, hbackdate, hdetection⟩ := ih
      rw [after_succ]
      refine ⟨hpolarity, hthreshold, hbackdate, ?_⟩
      simp only [EdgeDetector.sample, EdgeDetector.update, hpolarity, hthreshold, hbackdate,
        hdetection, track]

theorem after_create (polarity : Polarity) (config : Config) (flip : Nat → Bool)
    (phase : Nat → Int) (count : Nat) :
    (after (.create polarity config) flip phase count).polarity = polarity ∧
      (after (.create polarity config) flip phase count).threshold = config.threshold ∧
      (after (.create polarity config) flip phase count).backdate =
        Word.clampSigned 32 config.backdate ∧
      (after (.create polarity config) flip phase count).detection =
        track config.threshold (Word.clampSigned 32 config.backdate)
          (fun i => flip i == polarity.activeLevel) phase count :=
  after_fresh polarity config.threshold (Word.clampSigned 32 config.backdate) flip phase count

theorem track_congr {threshold : UInt32} {backdate : Int} {active active' : Nat → Bool}
    {phase phase' : Nat → Int} {count : Nat}
    (hactive : ∀ i, i < count → active i = active' i)
    (hphase : ∀ i, i < count → phase i = phase' i) :
    track threshold backdate active phase count =
      track threshold backdate active' phase' count := by
  induction count with
  | zero => rfl
  | succ count ih =>
      rw [track, track, hactive count (by omega), hphase count (by omega),
        ih (fun i hi => hactive i (by omega)) (fun i hi => hphase i (by omega))]

/-- What a detection says about the samples that led to it. -/
def Explains (threshold : UInt32) (backdate : Int) (active : Nat → Bool) (phase : Nat → Int)
    (count : Nat) : Detection → Prop
  | .waiting run => run < threshold.toNat ∧ run ≤ count
  | .armed run =>
      run < threshold.toNat ∧ threshold.toNat + run ≤ count ∧
        active (count - run - 1) = false ∧
        ∀ i, count - run ≤ i → i < count → active i = true
  | .found edge =>
      ∃ last, last < count ∧ threshold.toNat ≤ last ∧
        active (last - threshold.toNat) = false ∧
        (∀ i, last - threshold.toNat < i → i ≤ last → active i = true) ∧
        edge = Word.clampSigned 32 (phase last - backdate)

theorem explains_advance {threshold : UInt32} {backdate : Int} {active : Nat → Bool}
    {phase : Nat → Int} {count : Nat} {detection : Detection}
    (h : Explains threshold backdate active phase count detection) :
    Explains threshold backdate active phase (count + 1)
      (EdgeDetector.advance threshold backdate (active count) (phase count) detection).2 := by
  have hword := threshold.toNat_lt
  cases detection with
  | waiting run =>
      obtain ⟨hrun, hcount⟩ := h
      rw [EdgeDetector.advance, Word.clampUnsigned_of_lt (by omega)]
      cases hactive : active count with
      | true =>
          simp only [if_true, Nat.le_zero]
          rw [if_neg (by omega)]
          exact ⟨by omega, by omega⟩
      | false =>
          simp only [Bool.false_eq_true, if_false]
          split
          · refine ⟨by omega, by omega, hactive, ?_⟩
            intro i hlow hhigh
            omega
          · exact ⟨by omega, by omega⟩
  | armed run =>
      obtain ⟨hrun, hcount, hbefore, hafter⟩ := h
      rw [EdgeDetector.advance, Word.clampUnsigned_of_lt (by omega)]
      cases hactive : active count with
      | true =>
          have hfull : ∀ i, count - run ≤ i → i ≤ count → active i = true := by
            intro i hlow hhigh
            rcases Nat.lt_or_eq_of_le hhigh with hlt | rfl
            · exact hafter i hlow hlt
            · exact hactive
          simp only [if_true]
          split
          · refine ⟨by omega, by omega, ?_, fun i hlow hhigh => hfull i (by omega) (by omega)⟩
            rwa [show count + 1 - (run + 1) - 1 = count - run - 1 by omega]
          · refine ⟨count, by omega, by omega, ?_,
              fun i hlow hhigh => hfull i (by omega) hhigh, rfl⟩
            rwa [show count - threshold.toNat = count - run - 1 by omega]
      | false =>
          simp only [Bool.false_eq_true, if_false]
          refine ⟨by omega, by omega, hactive, ?_⟩
          intro i hlow hhigh
          omega
  | found edge =>
      obtain ⟨last, hlast, hrest⟩ := h
      exact ⟨last, by omega, hrest⟩

theorem explains_track {threshold : UInt32} (backdate : Int) (active : Nat → Bool)
    (phase : Nat → Int) (hthreshold : 0 < threshold.toNat) (count : Nat) :
    Explains threshold backdate active phase count
      (track threshold backdate active phase count) := by
  induction count with
  | zero => exact ⟨hthreshold, Nat.le_refl 0⟩
  | succ count ih => exact explains_advance ih

theorem track_of_inactive {threshold : UInt32} (backdate : Int) {active : Nat → Bool}
    (phase : Nat → Int) {start : Nat} (hthreshold : 0 < threshold.toNat) (seen : Nat)
    (hinactive : ∀ i, start ≤ i → i < start + seen → active i = false) :
    (∃ run, track threshold backdate active phase (start + seen) = .waiting run ∧ seen ≤ run) ∨
      (∃ run, track threshold backdate active phase (start + seen) = .armed run ∧
        (0 < seen → run = 0)) ∨
      ∃ edge, track threshold backdate active phase (start + seen) = .found edge := by
  have hword := threshold.toNat_lt
  induction seen with
  | zero =>
      cases htrack : track threshold backdate active phase (start + 0) with
      | waiting run => exact Or.inl ⟨run, rfl, Nat.zero_le run⟩
      | armed run => exact Or.inr (Or.inl ⟨run, rfl, by omega⟩)
      | found edge => exact Or.inr (Or.inr ⟨edge, rfl⟩)
  | succ seen ih =>
      have hlevel := hinactive (start + seen) (by omega) (by omega)
      have hexplains := explains_track backdate active phase hthreshold (start + seen)
      rw [← Nat.add_assoc, track, hlevel]
      rcases ih (fun i hlow hhigh => hinactive i hlow (by omega)) with
        ⟨run, hrun, hle⟩ | ⟨run, hrun, -⟩ | ⟨edge, hedge⟩
      · rw [hrun] at hexplains ⊢
        obtain ⟨hshort, -⟩ := hexplains
        simp only [EdgeDetector.advance, Bool.false_eq_true, if_false]
        rw [Word.clampUnsigned_of_lt (by omega)]
        split
        · exact Or.inr (Or.inl ⟨0, rfl, fun _ => rfl⟩)
        · exact Or.inl ⟨run + 1, rfl, by omega⟩
      · rw [hrun]
        exact Or.inr (Or.inl ⟨0, rfl, fun _ => rfl⟩)
      · rw [hedge]
        exact Or.inr (Or.inr ⟨edge, rfl⟩)

theorem track_of_inactive_run {threshold : UInt32} (backdate : Int) {active : Nat → Bool}
    (phase : Nat → Int) {start : Nat} (hthreshold : 0 < threshold.toNat)
    (hinactive : ∀ i, start ≤ i → i < start + threshold.toNat → active i = false) :
    track threshold backdate active phase (start + threshold.toNat) = .armed 0 ∨
      ∃ edge, track threshold backdate active phase (start + threshold.toNat) = .found edge := by
  have hexplains := explains_track backdate active phase hthreshold (start + threshold.toNat)
  rcases track_of_inactive backdate phase hthreshold threshold.toNat hinactive with
    ⟨run, hrun, hle⟩ | ⟨run, hrun, hzero⟩ | hfound
  · rw [hrun] at hexplains
    obtain ⟨hshort, -⟩ := hexplains
    omega
  · rw [hrun, hzero hthreshold]
    exact Or.inl rfl
  · exact Or.inr hfound

theorem track_of_active {threshold : UInt32} {backdate : Int} {active : Nat → Bool}
    {phase : Nat → Int} {start : Nat}
    (harmed : track threshold backdate active phase start = .armed 0) (seen : Nat)
    (hseen : seen ≤ threshold.toNat)
    (hactive : ∀ i, start ≤ i → i < start + seen → active i = true) :
    track threshold backdate active phase (start + seen) = .armed seen ∨
      ∃ edge, track threshold backdate active phase (start + seen) = .found edge := by
  have hword := threshold.toNat_lt
  induction seen with
  | zero => exact Or.inl harmed
  | succ seen ih =>
      have hlevel := hactive (start + seen) (by omega) (by omega)
      rw [← Nat.add_assoc, track, hlevel]
      rcases ih (by omega) (fun i hlow hhigh => hactive i hlow (by omega)) with
        hrun | ⟨edge, hedge⟩
      · rw [hrun, EdgeDetector.advance, Word.clampUnsigned_of_lt (by omega), if_pos rfl]
        dsimp only
        split
        · exact Or.inl rfl
        · exact Or.inr ⟨_, rfl⟩
      · rw [hedge]
        exact Or.inr ⟨edge, rfl⟩

theorem track_found_mono {threshold : UInt32} {backdate : Int} {active : Nat → Bool}
    {phase : Nat → Int} {count later : Nat} {edge : Int} (hle : count ≤ later)
    (hfound : track threshold backdate active phase count = .found edge) :
    track threshold backdate active phase later = .found edge := by
  induction later with
  | zero =>
      rw [Nat.le_zero.mp hle] at hfound
      exact hfound
  | succ later ih =>
      rcases Nat.lt_or_eq_of_le hle with hlt | rfl
      · rw [track, ih (by omega), EdgeDetector.advance]
      · exact hfound

theorem track_found_of_runs {threshold : UInt32} (backdate : Int) {active : Nat → Bool}
    (phase : Nat → Int) {start : Nat} (hthreshold : 0 < threshold.toNat)
    (hinactive : ∀ i, start ≤ i → i < start + threshold.toNat → active i = false)
    (hactive : ∀ i, start + threshold.toNat ≤ i →
      i < start + threshold.toNat + threshold.toNat → active i = true) :
    ∃ edge, track threshold backdate active phase
      (start + threshold.toNat + threshold.toNat) = .found edge := by
  rcases track_of_inactive_run backdate phase hthreshold hinactive with harmed | ⟨edge, hedge⟩
  · have hexplains := explains_track backdate active phase hthreshold
      (start + threshold.toNat + threshold.toNat)
    rcases track_of_active harmed threshold.toNat (Nat.le_refl _) hactive with hrun | hfound
    · rw [hrun] at hexplains
      obtain ⟨hshort, -⟩ := hexplains
      omega
    · exact hfound
  · exact ⟨edge, track_found_mono (Nat.le_add_right _ _) hedge⟩

end TimingNode.Proofs.EdgeDetection
