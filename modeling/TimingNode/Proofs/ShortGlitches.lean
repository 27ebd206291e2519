import TimingNode.Proofs.EdgeRuns
import TimingNode.Proofs.LockstepScans
import TimingNode.Proofs.SquareWaveScan

/-!
Glitches that a scan does not notice. As long as they keep away from the start and from the changes
of the level, and never fill a run, every full run of the disturbed samples is one of the clean
samples, and the runs that move a detector on are the same. So both detectors go through their
stages at the same samples, and a scan comes to the same verdict.
-/

namespace TimingNode.Proofs.ShortGlitches

open TimingNode.Bench
open TimingNode.Scan
open TimingNode.Proofs.EdgeDetection
open TimingNode.Proofs.EdgeRuns
open TimingNode.Proofs.LockstepScans
open TimingNode.Proofs.ScanPulses
open TimingNode.Proofs.SquareWaveScan

def disturbed (clean glitch : Nat → Bool) (i : Nat) : Bool :=
  clean i ^^ glitch i

/-- Glitches among `count` samples that spare the first `threshold` samples and, around each change
of the level, the last sample before it and the first `threshold` samples after it, and of which no
`threshold` come in a row. -/
structure Harmless (threshold count : Nat) (clean glitch : Nat → Bool) : Prop where
  start : ∀ i, i < count → i < threshold → glitch i = false
  change : ∀ i, i < count → 0 < i ∧ clean (i - 1) ≠ clean i →
    ∀ j, j < count → i ≤ j + 1 → j < i + threshold → glitch j = false
  short : ∀ i, i < count → i + threshold ≤ count → ∃ j, j < threshold ∧ glitch (i + j) = false

theorem disturbed_of_quiet {clean glitch : Nat → Bool} {i : Nat} (hquiet : glitch i = false) :
    disturbed clean glitch i = clean i := by
  rw [disturbed, hquiet, Bool.xor_false]

theorem eq_of_steady {flip : Nat → Bool} {low high : Nat}
    (hsteady : ∀ i, low ≤ i → i < high → flip i = flip (i + 1)) {i : Nat} (hlow : low ≤ i)
    (hhigh : i ≤ high) : flip i = flip high := by
  induction high with
  | zero => rw [Nat.le_zero.mp hhigh]
  | succ high ih =>
      rcases Nat.lt_or_eq_of_le hhigh with hlt | rfl
      · have hle : i ≤ high := Nat.le_of_lt_succ hlt
        rw [ih (fun j hj hjhigh => hsteady j hj (Nat.lt_succ_of_lt hjhigh)) hle]
        exact hsteady high (Nat.le_trans hlow hle) (Nat.lt_succ_self high)
      · rfl

section Harmless

variable {threshold count : Nat} {clean glitch : Nat → Bool}
  (h : Harmless threshold count clean glitch) (hthreshold : 0 < threshold)
include h hthreshold

theorem fullRun_of_disturbed {value : Bool} {start last : Nat} (hlast : last < count)
    (hfull : FullRun threshold (hasLevel (disturbed clean glitch) value) start last) :
    FullRun threshold (hasLevel clean value) start last := by
  rw [fullRun_iff_forall] at hfull ⊢
  obtain ⟨hroom, hlevel⟩ := hfull
  have hvalue : ∀ i, last < i + threshold → i ≤ last → disturbed clean glitch i = value := by
    intro i hlow hhigh
    exact beq_iff_eq.mp (hlevel i hlow hhigh)
  -- There are no glitches around a change of the level, so the run cannot lie across one.
  have hsteady : ∀ i, last + 1 - threshold ≤ i → i < last → clean i = clean (i + 1) := by
    intro i hlow hhigh
    by_contra hchange
    have hquiet := h.change (i + 1) (by omega) ⟨Nat.succ_pos i, hchange⟩
    have hhere := hvalue i (by omega) (by omega)
    have hnext := hvalue (i + 1) (by omega) (by omega)
    rw [disturbed_of_quiet (hquiet i (by omega) (by omega) (by omega))] at hhere
    rw [disturbed_of_quiet (hquiet (i + 1) (by omega) (by omega) (by omega))] at hnext
    exact hchange (hhere.trans hnext.symm)
  -- Inside a level, a sample of the run that is not a glitch tells which level it is.
  obtain ⟨back, hback, hfree⟩ := h.short (last + 1 - threshold) (by omega) (by omega)
  have hfound := hvalue (last + 1 - threshold + back) (by omega) (by omega)
  rw [disturbed_of_quiet hfree, eq_of_steady hsteady (by omega) (by omega)] at hfound
  refine ⟨hroom, ?_⟩
  intro i hlow hhigh
  rw [hasLevel, eq_of_steady hsteady (by omega) hhigh]
  exact beq_iff_eq.mpr hfound

theorem quiet_of_firstFullRun {value : Bool} {start last : Nat} (hlast : last < count)
    (hstart : ∀ before, start = before + 1 → clean before ≠ value)
    (hfirst : FirstFullRun threshold (hasLevel clean value) start last) {i : Nat}
    (hlow : last < i + threshold) (hhigh : i ≤ last) : glitch i = false := by
  obtain ⟨hfull, hshort⟩ := hfirst
  rw [fullRun_iff_forall] at hfull
  obtain ⟨hroom, hlevel⟩ := hfull
  by_cases hbegin : last < threshold
  · exact h.start i (by omega) (by omega)
  · obtain ⟨before, rfl⟩ : ∃ before, last = before + threshold := ⟨last - threshold, by omega⟩
    have hafter : clean (before + 1) = value :=
      beq_iff_eq.mp (hlevel (before + 1) (by omega) (by omega))
    have hbefore : clean before ≠ value := by
      intro hvalue
      by_cases hinside : start ≤ before
      · refine hshort (before + threshold - 1) (by omega) ?_
        rw [fullRun_iff_forall]
        refine ⟨by omega, ?_⟩
        intro j hjlow hjhigh
        rcases Nat.lt_or_eq_of_le (by omega : before ≤ j) with hlt | rfl
        · exact hlevel j (by omega) (by omega)
        · exact beq_iff_eq.mpr hvalue
      · exact hstart before (by omega) hvalue
    rw [← hafter] at hbefore
    exact h.change (before + 1) (by omega) ⟨Nat.succ_pos before, hbefore⟩ i (by omega)
      (by omega) (by omega)

theorem firstFullRun_disturbed {value : Bool} {start last : Nat} (hlast : last < count)
    (hstart : ∀ before, start = before + 1 → clean before ≠ value)
    (hfirst : FirstFullRun threshold (hasLevel clean value) start last) :
    FirstFullRun threshold (hasLevel (disturbed clean glitch) value) start last := by
  have hquiet (i : Nat) := quiet_of_firstFullRun h hthreshold hlast hstart hfirst (i := i)
  obtain ⟨hfull, hshort⟩ := hfirst
  refine ⟨?_, ?_⟩
  · rw [fullRun_iff_forall] at hfull ⊢
    obtain ⟨hroom, hlevel⟩ := hfull
    refine ⟨hroom, ?_⟩
    intro i hlow hhigh
    rw [hasLevel, disturbed_of_quiet (hquiet i hlow hhigh)]
    exact hlevel i hlow hhigh
  · intro earlier hearlier hdisturbed
    exact hshort earlier hearlier
      (fullRun_of_disturbed h hthreshold (Nat.lt_trans hearlier hlast) hdisturbed)

end Harmless

theorem view_disturbed {threshold : UInt32} {count : Nat} {clean glitch : Nat → Bool}
    (h : Harmless threshold.toNat count clean glitch) (hthreshold : 0 < threshold.toNat)
    (polarity : Polarity) (backdate : Int) (phase : Nat → Int) {seen : Nat}
    (hseen : seen ≤ count) :
    view (after (fresh polarity threshold backdate) (disturbed clean glitch) phase seen) =
      view (after (fresh polarity threshold backdate) clean phase seen) := by
  rcases view_cases hthreshold polarity backdate clean phase seen with ⟨hbefore, hview⟩ |
    ⟨first, hlt, hfirst, ⟨hbeyond, hview⟩ | ⟨second, hltSecond, hsecond, hview⟩⟩
  · rw [hview, view_eq_waiting hthreshold]
    intro last hlast hfull
    exact hbefore last hlast (fullRun_of_disturbed h hthreshold (by omega) hfull)
  · have hfirst' := firstFullRun_disturbed h hthreshold (by omega) (by simp) hfirst
    rw [hview, view_eq_armed hthreshold hfirst' hlt]
    intro last hlast hfull
    exact hbeyond last hlast (fullRun_of_disturbed h hthreshold (by omega) hfull)
  · have hfirst' := firstFullRun_disturbed h hthreshold (by omega) (by simp) hfirst
    have hlevel : ∀ before, first + 1 = before + 1 → clean before ≠ polarity.activeLevel := by
      intro before hbefore
      have hinactive := beq_iff_eq.mp (hfirst.1.2 0 hthreshold)
      rw [Nat.sub_zero] at hinactive
      rw [← Nat.succ.inj hbefore, hinactive]
      simp
    have hsecond' := firstFullRun_disturbed h hthreshold (by omega) hlevel hsecond
    rw [hview, view_eq_found hthreshold hfirst' hsecond' hltSecond]

theorem phase?_disturbed {config : Config} {count : Nat} {clean glitch : Nat → Bool}
    (h : Harmless config.threshold.toNat count clean glitch)
    (hthreshold : 0 < config.threshold.toNat) (polarity : Polarity) (phase : Nat → Int) {seen : Nat}
    (hseen : seen ≤ count) :
    (after (.create polarity config) (disturbed clean glitch) phase seen).phase? =
      (after (.create polarity config) clean phase seen).phase? :=
  congrArg (fun shown => shown.2.2) (view_disturbed h hthreshold polarity _ phase hseen)

/-- Harmless glitches do not show. A detector of either polarity is in the same stage after every
sample, with or without them, and finds its edge at the same phase. And a scan gives the same answer
after the same polls in two worlds whose shifters answer alike, and of whose sources one gives the
clean bits and the other the disturbed ones. -/
theorem harmless_glitches_unnoticed {threshold : UInt32} {count : Nat} {clean glitch : Nat → Bool}
    (hthreshold : 1 ≤ threshold) (h : Harmless threshold.toNat count clean glitch) :
    (∀ (polarity : Polarity) (backdate : Int) (phase : Nat → Int) (seen : Nat), seen ≤ count →
      view (after (fresh polarity threshold backdate) (disturbed clean glitch) phase seen) =
        view (after (fresh polarity threshold backdate) clean phase seen)) ∧
    ∀ {σ τ : Type} [Shifter σ] [PulseSource σ] [Shifter τ] [PulseSource τ] (config : Config)
      (abreast : Nat → σ → τ → Prop) (world : σ) (other : τ),
      config.validate = .ok () → config.threshold = threshold → config.steps < count →
      Lockstep config clean (disturbed clean glitch) abreast →
      abreast 0 (Shifter.command config.channel 0 world)
        (Shifter.command config.channel 0 other) →
      ∀ patience, answer? config patience world = answer? config patience other := by
  have hpos : 0 < threshold.toNat := UInt32.le_iff_toNat_le.mp hthreshold
  refine ⟨fun polarity backdate phase seen => view_disturbed h hpos polarity backdate phase, ?_⟩
  intro σ τ _ _ _ _ config abreast world other hvalid heq hcount hlockstep hbegun patience
  subst heq
  refine hlockstep.answer?_eq hvalid ?_ hbegun patience
  rw [verdictAfter, verdictAfter, phase?_disturbed h hpos .rising _ hcount,
    phase?_disturbed h hpos .falling _ hcount]

structure SideBySide (config : Config) (wave wave' : SquareWave) (pulse : Nat) (rig rig' : Rig) :
    Prop where
  shifter_eq : rig'.shifter = rig.shifter
  phase_eq : rig.shifter.phase = cursorAt config pulse
  waveform_eq : rig.signal.waveform = .square wave
  waveform_eq' : rig'.signal.waveform = .square wave'

theorem lockstep_sideBySide (config : Config) (wave wave' : SquareWave) :
    Lockstep config (flips config wave) (flips config wave') (SideBySide config wave wave') where
  poll := by
    intro pulse rig rig' hside
    have hphase : rig.shifter.poll.2.phase = rig.shifter.phase := by
      rw [SettlingShifter.poll]
      split <;> rfl
    refine ⟨rig.shifter.poll.1, { rig with shifter := rig.shifter.poll.2 },
      { rig' with shifter := rig.shifter.poll.2 }, rfl, ?_, ⟨rfl, hphase.trans hside.phase_eq,
      hside.waveform_eq, hside.waveform_eq'⟩⟩
    simp only [Shifter.poll, hside.shifter_eq]
  pulse := by
    intro pulse rig rig' _ hside
    refine ⟨{ rig with signal := { rig.signal with pulses := rig.signal.pulses + 1 } },
      { rig' with signal := { rig'.signal with pulses := rig'.signal.pulses + 1 } }, ?_, ?_,
      ⟨?_, rfl, hside.waveform_eq, hside.waveform_eq'⟩⟩
    · simp only [PulseSource.pulse, Signal.sampleAt, hside.waveform_eq, hside.phase_eq, flips]
    · simp only [PulseSource.pulse, Signal.sampleAt, hside.waveform_eq', hside.shifter_eq,
        hside.phase_eq, flips]
    · exact congrArg (SettlingShifter.command config.channel (cursorAt config (pulse + 1)))
        hside.shifter_eq

theorem sideBySide_begun (config : Config) (shifter : SettlingShifter) (wave wave' : SquareWave) :
    SideBySide config wave wave' 0
      (Shifter.command config.channel 0 (⟨shifter, ⟨.square wave, 0⟩⟩ : Rig))
      (Shifter.command config.channel 0 (⟨shifter, ⟨.square wave', 0⟩⟩ : Rig)) :=
  ⟨rfl, (sampled_create config (flips config wave)).cursor_eq, rfl, rfl⟩

theorem flips_eq_disturbed (config : Config) (wave : SquareWave) :
    flips config wave = disturbed (flips config { wave with glitches := [] })
      (fun i => decide (cursorAt config i ∈ wave.glitches)) := by
  funext i
  rw [flips, disturbed, flips, SquareWave.flipAt, SquareWave.flipAt, if_neg List.not_mem_nil]
  split
  · rename_i hglitch
    rw [decide_eq_true hglitch, Bool.xor_true]
    rfl
  · rename_i hquiet
    rw [decide_eq_false hquiet, Bool.xor_false]
    rfl

/-- Glitches in both levels and close to both edges of a wave from 2500 to 6500. -/
def scattered : SquareWave :=
  ⟨8000, 2500, 6500, [1000, 2200, 2300, 4000, 6200, 6300]⟩

theorem harmless_scattered :
    Harmless (5 : UInt32).toNat 96 (flips {} { scattered with glitches := [] })
      (fun i => decide (cursorAt {} i ∈ scattered.glitches)) where
  start := by decide +kernel
  change := by decide +kernel
  short := by decide +kernel

theorem harmless_glitches_unnoticed_scattered :
    answer? {} 300 (⟨.create 2, ⟨.square { scattered with glitches := [] }, 0⟩⟩ : Rig) =
        some (.ok ⟨2400, by decide⟩) ∧
      answer? {} 300 (⟨.create 2, ⟨.square scattered, 0⟩⟩ : Rig) =
        some (.ok ⟨2400, by decide⟩) := by
  have hthreshold : (1 : UInt32) ≤ 5 := by decide
  have hlockstep := lockstep_sideBySide {} { scattered with glitches := [] } scattered
  rw [flips_eq_disturbed {} scattered] at hlockstep
  obtain ⟨-, hscans⟩ := harmless_glitches_unnoticed hthreshold harmless_scattered
  have hsame := hscans {} _ _ _ rfl rfl (by decide) hlockstep
    (sideBySide_begun {} (.create 2) _ _) 300
  have hfound : answer? {} 300 (⟨.create 2, ⟨.square { scattered with glitches := [] }, 0⟩⟩ : Rig) =
      some (.ok ⟨2400, by decide⟩) := by
    decide +kernel
  exact ⟨hfound, hsame.symm.trans hfound⟩

end TimingNode.Proofs.ShortGlitches
