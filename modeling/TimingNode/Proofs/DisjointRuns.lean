import TimingNode.Proofs.CircularPhase
import TimingNode.Proofs.EdgeRuns

/-!
The two detectors of a scan on the same samples. The run that completes one edge has the level
before the other edge, so it takes the other detector out of waiting, and the runs that complete
both edges have no sample in common. So the edges lie at least a full run apart.
-/

namespace TimingNode.Proofs.DisjointRuns

open TimingNode.Phase
open TimingNode.Scan
open TimingNode.Proofs.EdgeDetection
open TimingNode.Proofs.EdgeRuns

section Runs

variable {threshold : Nat} {flip : Nat → Bool} {value : Bool} {start start' last last' : Nat}

theorem fullRun_zero {level : Nat → Bool} (h : FullRun threshold level start last) :
    FullRun threshold level 0 last := by
  obtain ⟨hroom, hlevel⟩ := h
  exact ⟨by omega, hlevel⟩

theorem add_le_of_fullRun (hthreshold : 0 < threshold) (hle : last ≤ last')
    (h : FullRun threshold (hasLevel flip value) start last)
    (h' : FullRun threshold (hasLevel flip (! value)) start' last') :
    last + threshold ≤ last' := by
  by_contra hshort
  have hvalue := h.2 0 hthreshold
  have hother := h'.2 (last' - last) (by omega)
  rw [Nat.sub_zero, hasLevel, beq_iff_eq] at hvalue
  rw [Nat.sub_sub_self hle, hasLevel, hvalue] at hother
  cases value <;> cases hother

theorem apart_of_fullRun (hthreshold : 0 < threshold)
    (h : FullRun threshold (hasLevel flip value) start last)
    (h' : FullRun threshold (hasLevel flip (! value)) start' last') :
    last + threshold ≤ last' ∨ last' + threshold ≤ last := by
  rcases Nat.le_total last last' with hle | hle
  · exact Or.inl (add_le_of_fullRun hthreshold hle h h')
  · rw [← Bool.not_not value] at h
    exact Or.inr (add_le_of_fullRun hthreshold hle h' h)

end Runs

section Detector

variable {polarity : Polarity} {threshold : UInt32} {backdate : Int} {flip : Nat → Bool}
  {phase : Nat → Int} {seen last : Nat} (hthreshold : 0 < threshold.toNat)
include hthreshold

theorem stage_ne_waiting
    (hfull : FullRun threshold.toNat (hasLevel flip (! polarity.activeLevel)) 0 last)
    (hlast : last < seen) :
    stage (after (fresh polarity threshold backdate) flip phase seen).detection ≠ .waiting := by
  change (view (after (fresh polarity threshold backdate) flip phase seen)).1 ≠ .waiting
  rcases view_cases hthreshold polarity backdate flip phase seen with ⟨hbefore, -⟩ |
    ⟨first, -, -, ⟨-, hview⟩ | ⟨second, -, -, hview⟩⟩
  · exact absurd hfull (hbefore last hlast)
  · rw [hview]
    rintro ⟨⟩
  · rw [hview]
    rintro ⟨⟩

theorem exists_runs_of_found {edge : Int}
    (hfound : (after (fresh polarity threshold backdate) flip phase seen).phase? = some edge) :
    ∃ first second, second < seen ∧
      FullRun threshold.toNat (hasLevel flip (! polarity.activeLevel)) 0 first ∧
      FullRun threshold.toNat (hasLevel flip polarity.activeLevel) (first + 1) second ∧
      edge = Word.clampSigned 32 (phase second - backdate) := by
  change (view (after (fresh polarity threshold backdate) flip phase seen)).2.2 = _ at hfound
  rcases view_cases hthreshold polarity backdate flip phase seen with ⟨-, hview⟩ |
    ⟨first, -, hfirst, ⟨-, hview⟩ | ⟨second, hlt, hsecond, hview⟩⟩
  · rw [hview] at hfound
    cases hfound
  · rw [hview] at hfound
    cases hfound
  · rw [hview] at hfound
    exact ⟨first, second, hlt, hfirst.1, hsecond.1, (Option.some.inj hfound).symm⟩

theorem stage_ne_waiting_of_found {edge : Int}
    (hfound : (after (fresh polarity threshold backdate) flip phase seen).phase? = some edge)
    (other : Polarity) :
    stage (after (fresh other threshold backdate) flip phase seen).detection ≠ .waiting := by
  obtain ⟨first, second, hlt, hbefore, hbeyond, -⟩ := exists_runs_of_found hthreshold hfound
  have hle := le_of_fullRun hthreshold hbeyond
  by_cases hlevel : other.activeLevel = polarity.activeLevel
  · rw [← hlevel] at hbefore
    exact stage_ne_waiting hthreshold hbefore (by omega)
  · rw [Bool.eq_not.mpr fun h => hlevel h.symm] at hbeyond
    exact stage_ne_waiting hthreshold (fullRun_zero hbeyond) hlt

end Detector

section Edges

theorem exists_sample_of_found {polarity : Polarity} {config : Config} {flip : Nat → Bool}
    {count : Nat} {edge : Int} (hthreshold : 0 < config.threshold.toNat)
    (hphases : ∀ i, i < count → i * config.step.toNat < 1 <<< 31)
    (hfound : (after (.create polarity config) flip
      (fun i => (i * config.step.toNat : Nat)) count).phase? = some edge) :
    ∃ before, config.threshold.toNat ≤ before + 1 ∧ edge = (before * config.step.toNat : Nat) ∧
      FullRun config.threshold.toNat (hasLevel flip polarity.activeLevel) 0
        (before + config.threshold.toNat) := by
  obtain ⟨first, last, hlast, hinactive, hactive, hedge⟩ :=
    exists_runs_of_found hthreshold hfound
  have hroom := hinactive.1
  have hroom' := hactive.1
  obtain ⟨before, rfl⟩ : ∃ before, last = before + config.threshold.toNat :=
    ⟨last - config.threshold.toNat, by omega⟩
  have hphase := hphases _ hlast
  rw [Nat.add_mul] at hphase
  have hbackdate : Word.clampSigned 32 config.backdate =
      (config.threshold.toNat * config.step.toNat : Nat) := by
    rw [Config.backdate, Word.clampUnsigned_of_lt (by omega)]
    exact Word.clampSigned_of_mem (by omega) (by omega)
  refine ⟨before, by omega, ?_, fullRun_zero hactive⟩
  rw [hedge, hbackdate, Nat.add_mul, Word.clampSigned_of_mem (by omega) (by omega)]
  omega

theorem mul_le_natAbs_sub {before before' run : Nat} (step : Nat)
    (h : before + run + run ≤ before' + run ∨ before' + run + run ≤ before + run) :
    run * step ≤ (((before * step : Nat) : Int) - (before' * step : Nat)).natAbs := by
  rcases h with hle | hle
  · have hmul := Nat.mul_le_mul_right step (Nat.le_of_add_le_add_right hle)
    rw [Nat.add_mul] at hmul
    omega
  · have hmul := Nat.mul_le_mul_right step (Nat.le_of_add_le_add_right hle)
    rw [Nat.add_mul] at hmul
    omega

theorem exists_turns_of_fold_eq {x y : Int} {period : Nat} (hperiod : 0 < period)
    (h : fold x period = fold y period) : ∃ turns : Int, x = y + turns * period := by
  have hmod : x % period = y % period := by
    rw [← cast_fold x hperiod, ← cast_fold y hperiod, h]
  obtain ⟨turns, hturns⟩ :=
    Int.dvd_of_emod_eq_zero (Int.emod_eq_emod_iff_emod_sub_eq_zero.mp hmod)
  exact ⟨turns, by rw [Int.mul_comm]; omega⟩

end Edges

/-- Both detectors of a scan on the same samples, at the multiples of the step. When one has found
its edge the other waits no more. When both have, each edge comes at least a full run less one step
after phase zero, and there is at least a full run between them. Step and period are not zero in a
tuning that a scan accepts, so edges that fall together within the period are a whole number of
periods apart, and not zero of them. -/
theorem detectors_find_disjoint_runs {config : Config} (flip : Nat → Bool) (count : Nat)
    (hthreshold : 1 ≤ config.threshold)
    (hphases : ∀ i, i < count → i * config.step.toNat < 1 <<< 31) :
    let threshold := config.threshold.toNat
    let step := config.step.toNat
    let detector := fun polarity =>
      after (.create polarity config) flip (fun i => (i * step : Nat)) count
    (∀ polarity other, (detector polarity).isDone = true →
      stage (detector other).detection ≠ .waiting) ∧
    ∀ rising falling, (detector .rising).phase? = some rising →
      (detector .falling).phase? = some falling →
      ((threshold - 1) * step : Nat) ≤ rising ∧ ((threshold - 1) * step : Nat) ≤ falling ∧
      threshold * step ≤ (rising - falling).natAbs ∧
      ∀ period, 0 < period → 0 < step → fold rising period = fold falling period →
        ∃ turns : Int, turns ≠ 0 ∧ rising = falling + turns * period := by
  intro threshold step detector
  have hpos : 0 < config.threshold.toNat := UInt32.le_iff_toNat_le.mp hthreshold
  constructor
  · intro polarity other hdone
    obtain ⟨edge, hfound⟩ := Option.isSome_iff_exists.mp hdone
    exact stage_ne_waiting_of_found hpos hfound other
  · intro rising falling hrising hfalling
    obtain ⟨before, hbefore, rfl, hrun⟩ := exists_sample_of_found hpos hphases hrising
    obtain ⟨before', hbefore', rfl, hrun'⟩ := exists_sample_of_found hpos hphases hfalling
    have hapart := mul_le_natAbs_sub config.step.toNat (apart_of_fullRun hpos hrun hrun')
    refine ⟨?_, ?_, hapart, ?_⟩
    · exact Int.ofNat_le.mpr (Nat.mul_le_mul_right step (Nat.sub_le_of_le_add hbefore))
    · exact Int.ofNat_le.mpr (Nat.mul_le_mul_right step (Nat.sub_le_of_le_add hbefore'))
    · intro period hperiod hstep hfold
      obtain ⟨turns, hturns⟩ := exists_turns_of_fold_eq hperiod hfold
      refine ⟨turns, ?_, hturns⟩
      rintro rfl
      have hrunPos : 0 < config.threshold.toNat * config.step.toNat := Nat.mul_pos hpos hstep
      omega

def edgesApart (i : Nat) : Bool :=
  [false, false, true, false, true, true, false, false, false].getD i false

theorem detectors_find_disjoint_runs_glitchy :
    let config : Config := { period := 200, step := 100, threshold := 2 }
    let detector := fun polarity count =>
      after (.create polarity config) edgesApart (fun i => (i * 100 : Nat)) count
    ((detector .rising 6).isDone = true ∧ stage (detector .falling 6).detection ≠ .waiting) ∧
      (detector .rising 9).phase? = some 300 ∧ (detector .falling 9).phase? = some 500 ∧
      2 * 100 ≤ ((300 : Int) - 500).natAbs ∧
      ∃ turns : Int, turns ≠ 0 ∧ (300 : Int) = 500 + turns * (200 : Nat) := by
  intro config detector
  obtain ⟨hstage, -⟩ :=
    @detectors_find_disjoint_runs config edgesApart 6 (by decide) (by decide)
  obtain ⟨-, hedges⟩ :=
    @detectors_find_disjoint_runs config edgesApart 9 (by decide) (by decide)
  obtain ⟨-, -, hapart, hturns⟩ := hedges 300 500 (by decide) (by decide)
  exact ⟨⟨by decide, hstage .rising .falling (by decide)⟩, by decide, by decide, hapart,
    hturns 200 (by decide) (by decide) (by decide)⟩

end TimingNode.Proofs.DisjointRuns
