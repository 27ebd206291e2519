import TimingNode.Proofs.CircularPhase

namespace TimingNode.Proofs.FoldedTransition

open TimingNode.Reception
open TimingNode.Proofs.CircularPhase

/-- The cycles by which the correction for a transition exceeds that for the folded one. From a
period on there is one too many at the phases that have just passed the folded transition and, where
the window of that transition begins in the period before, one too few at those that have not. -/
def slip (transition period : Nat) (phase : Int) : Int :=
  if transition < period then 0
  else if period / 4 ≤ transition % period then
    if (transition % period : Nat) < phase ∧
      phase ≤ (transition % period + period / 4 : Nat) then 1 else 0
  else
    if phase ≤ (transition % period : Nat) then -1 else 0

theorem slip_mem (transition period : Nat) (phase : Int) :
    -1 ≤ slip transition period phase ∧ slip transition period phase ≤ 1 := by
  rw [slip]
  split
  · omega
  · split <;> split <;> omega

theorem cast_mod_add_emod (transition period : Nat) (offset : Int) :
    (((transition % period : Nat) : Int) + offset) % period =
      ((transition : Int) + offset) % period := by
  rw [Int.natCast_emod, Int.emod_add_emod]

theorem cast_mod_sub_emod (transition period : Nat) (offset : Int) :
    (((transition % period : Nat) : Int) - offset) % period =
      ((transition : Int) - offset) % period :=
  cast_mod_add_emod transition period (-offset)

theorem window_low (transition : Nat) {period : Nat} (hquarter : 0 < period / 4) :
    ((transition : Int) - (period / 4 : Nat)) % period =
      if period / 4 ≤ transition % period then
        ((transition % period : Nat) : Int) - (period / 4 : Nat)
      else ((transition % period : Nat) : Int) - (period / 4 : Nat) + period := by
  have hfolded : transition % period < period := Nat.mod_lt _ (by omega)
  rw [← cast_mod_sub_emod]
  split
  · exact emod_of_add_mul 0 (by omega) (by omega) (by omega)
  · exact emod_of_add_mul (-1) (by omega) (by omega) (by omega)

theorem window_high (transition : Nat) {period : Nat} (hquarter : 0 < period / 4) :
    ((transition : Int) + (period / 4 : Nat)) % period =
      if transition % period + period / 4 < period then
        ((transition % period : Nat) : Int) + (period / 4 : Nat)
      else ((transition % period : Nat) : Int) + (period / 4 : Nat) - period := by
  have hfolded : transition % period < period := Nat.mod_lt _ (by omega)
  rw [← cast_mod_add_emod]
  split
  · exact emod_of_add_mul 0 (by omega) (by omega) (by omega)
  · exact emod_of_add_mul 1 (by omega) (by omega) (by omega)

theorem cycleCorrection_eq_add_slip (ahead : Bool) (transition : Nat) {period : Nat} {phase : Int}
    (hquarter : 0 < period / 4) (hlow : 0 ≤ phase) (hhigh : phase < period) :
    cycleCorrection ahead transition period phase =
      cycleCorrection ahead (transition % period) period phase +
        slip transition period phase := by
  by_cases hlt : transition < period
  · rw [Nat.mod_eq_of_lt hlt, slip, if_pos hlt, Int.add_zero]
  have hfolded : transition % period < period := Nat.mod_lt _ (by omega)
  have hbelow := window_low transition hquarter
  have habove := window_high transition hquarter
  simp only [cycleCorrection, cast_mod_sub_emod, cast_mod_add_emod, slip, if_neg hlt]
  -- Both corrections look at one window, and only in its part up to the transition they differ.
  generalize ((transition : Int) - (period / 4 : Nat)) % period = low at hbelow ⊢
  generalize ((transition : Int) + (period / 4 : Nat)) % period = high at habove ⊢
  have hinner : insideWindow low transition phase = true ↔ low ≤ phase := by
    rw [insideWindow]
    split <;> simp only [decide_eq_true_eq] <;> omega
  by_cases hbefore : period / 4 ≤ transition % period
  · rw [if_pos hbefore] at hbelow
    have hfoldedInner : insideWindow low (transition % period : Nat) phase = true ↔
        low ≤ phase ∧ phase ≤ (transition % period : Nat) := by
      rw [insideWindow, if_pos (by omega), decide_eq_true_eq]
    have houter : insideWindow low high phase = true ↔
        low ≤ phase ∧ phase ≤ (transition % period + period / 4 : Nat) ∨
          phase ≤ high ∧ high < low := by
      rw [insideWindow]
      split at habove <;> split <;> simp only [decide_eq_true_eq] <;> omega
    simp only [houter, hinner, hfoldedInner, if_pos hbefore]
    repeat' split
    all_goals omega
  · rw [if_neg hbefore] at hbelow
    rw [if_pos (by omega)] at habove
    have hfoldedInner : insideWindow low (transition % period : Nat) phase = true ↔
        phase ≤ (transition % period : Nat) ∨ low ≤ phase := by
      rw [insideWindow, if_neg (by omega), decide_eq_true_eq]
    have houter : insideWindow low high phase = true ↔ phase ≤ high ∨ low ≤ phase := by
      rw [insideWindow, if_neg (by omega), decide_eq_true_eq]
    simp only [houter, hinner, hfoldedInner, if_neg hbefore]
    repeat' split
    all_goals omega

def cycle (period : Nat) : Nat :=
  period / Timestamp.picosecondsPerNanosecond * Timestamp.picosecondsPerNanosecond

theorem emod_eq_of_ofPicoseconds_eq {first second : Int}
    (h : Timestamp.ofPicoseconds first = Timestamp.ofPicoseconds second) :
    first % Timestamp.picosecondsPerSecond = second % Timestamp.picosecondsPerSecond := by
  have hnanoseconds := congrArg Timestamp.nanoseconds h
  have hphase := congrArg Timestamp.phase h
  simp only [Timestamp.ofPicoseconds, Timestamp.picosecondsPerSecond,
    Timestamp.picosecondsPerNanosecond] at hnanoseconds hphase ⊢
  omega

theorem exists_arrival_eq (raw : RawTimestamp) (transition : Nat) {period : Nat}
    (hmeasured : raw.measuredPhase < period) :
    ∃ total, arrival raw (transition % period) period = .ofPicoseconds total ∧
      arrival raw transition period = .ofPicoseconds
        (total + slip transition period (period - 1 - raw.measuredPhase) * cycle period) := by
  refine ⟨_, rfl, ?_⟩
  have hfine : ((period : Int) - 1 - raw.measuredPhase - (transition % period : Nat) - 1) % period =
      ((period : Int) - 1 - raw.measuredPhase - transition - 1) % period := by
    rw [Int.natCast_emod, Int.sub_sub, Int.sub_sub _ (transition : Int), Int.add_comm _ 1,
      Int.add_comm _ 1, ← Int.sub_sub, ← Int.sub_sub, Int.sub_emod_emod]
  rw [arrival, Timestamp.ofParts, hfine]
  congr 1
  by_cases hshort : period / Timestamp.picosecondsPerNanosecond = 0
  · simp [hshort, cycle]
  · rw [Timestamp.picosecondsPerNanosecond] at hshort
    rw [cycleCorrection_eq_add_slip raw.counterAhead transition (by omega) (by omega) (by omega),
      cycle]
    simp only [Int.add_mul, Int.natCast_mul, Int.mul_assoc]
    omega

/-- An arrival is the same for a transition and for the folded one, unless the correction slips a
cycle between them, which a period of less than a nanosecond does not show. A slip moves the arrival
by that one cycle. -/
theorem arrival_folds_iff (raw : RawTimestamp) (transition : Nat) {period : Nat}
    (hword : period < 1 <<< 32) (hmeasured : raw.measuredPhase < period) :
    (∃ total, arrival? raw (transition % period) period = .ok (.ofPicoseconds total) ∧
      arrival? raw transition period = .ok (.ofPicoseconds
        (total + slip transition period (period - 1 - raw.measuredPhase) * cycle period))) ∧
    (arrival? raw transition period = arrival? raw (transition % period) period ↔
      slip transition period (period - 1 - raw.measuredPhase) = 0 ∨
        period < Timestamp.picosecondsPerNanosecond) := by
  obtain ⟨total, hfolded, harrival⟩ := exists_arrival_eq raw transition hmeasured
  have hperiod : period ≠ 0 := by omega
  simp only [arrival?, if_neg hperiod, hfolded, harrival]
  refine ⟨⟨total, rfl, rfl⟩, ?_⟩
  obtain ⟨hleast, hmost⟩ :=
    slip_mem transition period (period - 1 - raw.measuredPhase)
  generalize slip transition period (period - 1 - raw.measuredPhase) = slipped at hleast hmost ⊢
  constructor
  · intro heq
    have hmod := emod_eq_of_ofPicoseconds_eq (Except.ok.inj heq)
    rw [cycle] at hmod
    simp only [Timestamp.picosecondsPerSecond, Timestamp.picosecondsPerNanosecond] at hmod ⊢
    obtain rfl | rfl | rfl : slipped = -1 ∨ slipped = 0 ∨ slipped = 1 := by omega
    all_goals omega
  · rintro (rfl | hshort)
    · simp
    · have hcycle : cycle period = 0 := by
        rw [cycle, Nat.div_eq_of_lt hshort, Nat.zero_mul]
      rw [hcycle]
      simp

theorem arrival_folds_iff_at_transition :
    arrival? ⟨7, 800, 4353, true⟩ 2147483646 8000 =
        arrival? ⟨7, 800, 4353, true⟩ (2147483646 % 8000) 8000 ∧
      arrival? ⟨7, 800, 4352, true⟩ 2147483646 8000 ≠
        arrival? ⟨7, 800, 4352, true⟩ (2147483646 % 8000) 8000 := by
  have hat := (arrival_folds_iff ⟨7, 800, 4353, true⟩ 2147483646
    (by decide : 8000 < 1 <<< 32) (by decide)).2
  have hpast := (arrival_folds_iff ⟨7, 800, 4352, true⟩ 2147483646
    (by decide : 8000 < 1 <<< 32) (by decide)).2
  exact ⟨hat.mpr (by decide), fun heq => absurd (hpast.mp heq) (by decide)⟩

/-- A thousand picoseconds past the transition, the arrival comes out a cycle later unless the
transition is folded. -/
theorem arrival_a_cycle_late :
    arrival? ⟨7, 800, 4999, false⟩ 10000 8000 ≠
        arrival? ⟨7, 800, 4999, false⟩ (10000 % 8000) 8000 ∧
      (arrival? ⟨7, 800, 4999, false⟩ 10000 8000).map Timestamp.toPicoseconds =
        .ok 7000000815000 ∧
      (arrival? ⟨7, 800, 4999, false⟩ (10000 % 8000) 8000).map Timestamp.toPicoseconds =
        .ok 7000000807000 := by
  refine ⟨fun heq => ?_, rfl, rfl⟩
  have htotal := congrArg (Except.map Timestamp.toPicoseconds) heq
  cases htotal

end TimingNode.Proofs.FoldedTransition
