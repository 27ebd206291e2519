import TimingNode.Proofs.CircularMidpoint
import TimingNode.Proofs.ExactPhases

namespace TimingNode.Proofs.TuningLimits

open TimingNode.Phase
open TimingNode.Scan
open TimingNode.Word
open TimingNode.Proofs.CircularMidpoint
open TimingNode.Proofs.ExactPhases (onSchedule_of_updated)
open TimingNode.Proofs.ScanPulses
open TimingNode.Proofs.ScanTuning
open TimingNode.Proofs.ScanUpdates

def fullRange (config : Config) : Nat :=
  config.period.toNat + 3 * config.threshold.toNat * config.step.toNat

theorem fullRange_eq (config : Config) :
    fullRange config = config.period.toNat + 3 * runLength config := by
  rw [fullRange, runLength, Nat.mul_assoc]

theorem usable_iff (config : Config) :
    Usable config ↔
      config.period.toNat % 2 = 0 ∧ 0 < config.period.toNat ∧ 0 < config.step.toNat ∧
      config.step.toNat < config.period.toNat ∧ 1 ≤ config.threshold.toNat ∧
      fullRange config ≤ 0x7FFFFFFF := by
  rw [fullRange_eq]
  constructor
  · rintro ⟨heven, hstep, hlt, hthreshold, hrange⟩
    exact ⟨heven, Nat.lt_trans hstep hlt, hstep, hlt, hthreshold, Nat.le_of_lt_succ hrange⟩
  · rintro ⟨heven, -, hstep, hlt, hthreshold, hrange⟩
    exact ⟨heven, hstep, hlt, hthreshold, Nat.lt_succ_of_le hrange⟩

/-- The numbers that a tuning gives to a scan are the unbounded ones, and each fits the word that it
is kept in. -/
structure WithinLimits (config : Config) : Prop where
  product_fits : fit? 32 (config.threshold.toNat * config.step.toNat) =
    some (config.threshold.toNat * config.step.toNat)
  checkedRange?_eq : config.checkedRange? = some (fullRange config)
  range_eq : config.range = fullRange config
  backdate_eq : config.backdate = config.threshold.toNat * config.step.toNat
  range_fits : FitsSigned 32 config.range
  step_fits : FitsSigned 32 config.step.toNat
  backdate_fits : FitsSigned 32 config.backdate

/-- A scan that works with the unbounded numbers of its tuning. -/
structure Unlimited (config : Config) (scan : Scan) : Prop where
  range_eq : scan.range = fullRange config
  stride_eq : scan.stride = config.step.toNat
  backdate_eq : ∀ detector ∈ [scan.rising, scan.falling],
    detector.backdate = (config.threshold.toNat * config.step.toNat : Nat)

def uncut (rising falling : Int) (period : Nat) : Nat :=
  fold (((fold rising period : Int) +
    secondSample (fold rising period) (fold falling period) (period / 2 : Nat)).tdiv 2) period

/-- A transition phase below the period that joins both edges of a scan and has all bits of their
middle. -/
def Whole (period : Nat) (scan : Scan) (transition : TransitionPhase) : Prop :=
  transition.picoseconds < period ∧
    ∃ rising falling, scan.rising.phase? = some rising ∧ scan.falling.phase? = some falling ∧
      transition = .ofFolded (uncut rising falling period) ∧
      transition.picoseconds = uncut rising falling period

theorem withinLimits_of_usable {config : Config} (h : Usable config) : WithinLimits config := by
  have hrange := h.range_lt
  have hstep := h.step_lt
  have hfull := fullRange_eq config
  have hproduct : config.threshold.toNat * config.step.toNat < 1 <<< 31 := by
    rw [runLength] at hrange
    omega
  exact {
    product_fits := fit?_eq_some_iff.mpr ⟨by omega, rfl⟩
    checkedRange?_eq := by
      rw [checkedRange?_eq, if_pos (by omega), hfull]
    range_eq := by
      rw [h.range_eq, hfull]
    backdate_eq := h.backdate_eq
    range_fits := by
      rw [h.range_eq, FitsSigned]
      omega
    step_fits := by
      rw [FitsSigned]
      omega
    backdate_fits := by
      rw [h.backdate_eq, FitsSigned]
      omega }

theorem unlimited_of_updated {config : Config} (h : Usable config) {bits : List Bool} {scan : Scan}
    (hscan : Updated (create config) bits scan) : Unlimited config scan := by
  have hlimits := withinLimits_of_usable h
  have hschedule := onSchedule_of_updated h hscan
  constructor
  · rw [Scan.range, hschedule.config_eq, clampSigned_of_mem hlimits.range_fits.1
      hlimits.range_fits.2, hlimits.range_eq]
  · rw [Scan.stride, hschedule.config_eq, clampSigned_of_mem hlimits.step_fits.1
      hlimits.step_fits.2]
  · simpa using ⟨hschedule.rising.backdate_eq, hschedule.falling.backdate_eq⟩

section Answers

variable {σ : Type} [Shifter σ] [PulseSource σ] {config : Config} (h : Usable config)
  {bits : List Bool} {scan : Scan} (hscan : Updated (create config) bits scan) {world : σ}
  {transition : TransitionPhase}
include h hscan

theorem whole_of_step (hanswer : (scan.step world).1 = .ok (.complete transition)) :
    Whole config.period.toNat (scan.step world).2.1 transition := by
  have hpos : 0 < config.period.toNat := Nat.lt_trans h.step_pos h.step_lt
  have hperiod : config.period.toNat < 1 <<< 31 :=
    Nat.lt_of_le_of_lt (Nat.le_add_right _ _) h.range_lt
  obtain ⟨bit, -, hnext, hverdict⟩ := exists_sample_of_complete hanswer
  obtain ⟨rising, falling, hrising, hfalling, rfl⟩ := verdict_eq_ok_iff.mp hverdict
  have hconfig : (scan.sample bit).config = config := (onSchedule_of_updated h hscan).config_eq
  rw [hnext, hconfig]
  exact ⟨picoseconds_midpoint_lt rising falling hpos hperiod, rising, falling, hrising, hfalling,
    rfl, picoseconds_midpoint rising falling hpos hperiod⟩

theorem whole_of_run {patience : Nat} {ended : Scan} {later : σ}
    (hrun : run patience scan world = some (.ok transition, ended, later)) :
    Whole config.period.toNat ended transition := by
  obtain ⟨bits', last, now, hlast, hstep⟩ := hscan.exists_last_of_run hrun
  have hwhole := whole_of_step h hlast (congrArg Prod.fst hstep)
  rw [hstep] at hwhole
  exact hwhole

end Answers

/-- A tuning is accepted if and only if, over unbounded numbers, its period has a half, its step is
below the period, it asks for a sample and its range is a signed phase. With such a tuning no number
is replaced by a limit of its word: the range and the back-dating distance are exact and fit the
words that a scan and its detectors keep them in, and every scan begun with it, whatever devices it
meets, answers only transition phases that lie below the period and have lost no bit. -/
theorem accepted_iff_sound (config : Config) :
    (config.validate = .ok () ↔
      config.period.toNat % 2 = 0 ∧ 0 < config.period.toNat ∧ 0 < config.step.toNat ∧
      config.step.toNat < config.period.toNat ∧ 1 ≤ config.threshold.toNat ∧
      config.period.toNat + 3 * config.threshold.toNat * config.step.toNat ≤ 0x7FFFFFFF) ∧
    (config.validate = .ok () →
      WithinLimits config ∧
      ∀ (σ : Type) [Shifter σ] [PulseSource σ] (world : σ),
        ∃ begun started, start config world = .ok (begun, started) ∧
        ∀ bits scan, Updated begun bits scan → Unlimited config scan ∧
          ∀ (τ : Type) [Shifter τ] [PulseSource τ] (now : τ) (transition : TransitionPhase),
            ((scan.step now).1 = .ok (.complete transition) →
              Whole config.period.toNat (scan.step now).2.1 transition) ∧
            ∀ patience ended later, run patience scan now = some (.ok transition, ended, later) →
              Whole config.period.toNat ended transition) := by
  constructor
  · rw [validate_eq_ok_iff]
    exact usable_iff config
  · intro hvalid
    have husable := (validate_eq_ok_iff config).mp hvalid
    refine ⟨withinLimits_of_usable husable, fun σ _ _ world => ?_⟩
    refine ⟨create config, Shifter.command config.channel 0 world, by rw [start, hvalid], ?_⟩
    intro bits scan hscan
    refine ⟨unlimited_of_updated husable hscan, fun τ _ _ now transition => ⟨?_, ?_⟩⟩
    · exact whole_of_step husable hscan
    · intro patience ended later hrun
      exact whole_of_run husable hscan hrun

/-- The tuning with the widest step of those whose range ends at the last signed phase. -/
def widest : Config :=
  { period := 536870914, step := 536870911, threshold := 1 }

/-- A tuning whose back-dating distance is zero in a word that wraps. -/
def wrapping : Config :=
  { period := 4, step := 2, threshold := 0x80000000 }

def pulsingRig : Bench.Rig :=
  ⟨.create 0, ⟨.script #[false, true, false], 0⟩⟩

theorem accepted_iff_sound_at_limit :
    fullRange widest = 0x7FFFFFFF ∧ widest.validate = .ok () ∧ widest.range = 0x7FFFFFFF ∧
      Unlimited widest (create widest) ∧
      (∃ ended rig,
        run 6 (create widest) pulsingRig = some (.ok ⟨134217727, by decide⟩, ended, rig) ∧
        Whole widest.period.toNat ended ⟨134217727, by decide⟩) ∧
      wrapping.validate ≠ .ok () := by
  obtain ⟨hiff, hexact⟩ := accepted_iff_sound widest
  obtain ⟨hlimits, hscans⟩ := hexact (hiff.mpr (by decide))
  obtain ⟨begun, started, hstart, hscan⟩ := hscans Bench.Rig pulsingRig
  cases hstart
  obtain ⟨hunlimited, hanswers⟩ := hscan [] (create widest) .none
  obtain ⟨ended, rig, hrun⟩ : ∃ ended rig,
      run 6 (create widest) pulsingRig = some (.ok ⟨134217727, by decide⟩, ended, rig) :=
    ⟨_, _, rfl⟩
  refine ⟨rfl, hiff.mpr (by decide), hlimits.range_eq, hunlimited, ⟨ended, rig, hrun, ?_⟩, ?_⟩
  · exact (hanswers Bench.Rig pulsingRig _).2 6 ended rig hrun
  · intro hvalid
    exact absurd ((accepted_iff_sound wrapping).1.mp hvalid) (by decide)

end TimingNode.Proofs.TuningLimits
