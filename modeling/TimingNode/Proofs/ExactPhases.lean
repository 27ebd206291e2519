import TimingNode.Bench.Signal
import TimingNode.Proofs.EdgeDetection
import TimingNode.Proofs.RecordedScan
import TimingNode.Proofs.ScanUpdates

/-!
The phases of a scan against unbounded arithmetic. On every tuning that a scan accepts its detectors
count and subtract exactly, and every pulse after which the scan goes on is at a multiple of the
step. Only the last sum can leave its word: a range within the signed phases may end less than one
step below their limit, and then the last pulse is taken at that limit.
-/

namespace TimingNode.Proofs.ExactPhases

open TimingNode.Scan
open TimingNode.Proofs.EdgeDetection
open TimingNode.Proofs.RecordedScan
open TimingNode.Proofs.ScanPulses
open TimingNode.Proofs.ScanTuning
open TimingNode.Proofs.ScanUpdates

/-- The numbers that a detector comes to for a sample at a phase fit their words: the run with one
sample more and, where that can complete the edge, the phase dated back. -/
def Fits (detector : EdgeDetector) (phase : Int) : Prop :=
  match detector.detection with
  | .waiting run => run + 1 < 1 <<< 32
  | .armed run =>
      run + 1 < 1 <<< 32 ∧ -(1 <<< 31 : Nat) ≤ phase - detector.backdate ∧
        phase - detector.backdate < (1 <<< 31 : Nat)
  | .found _ => True

structure Tuned (config : Config) (detector : EdgeDetector) : Prop where
  threshold_eq : detector.threshold = config.threshold
  backdate_eq : detector.backdate = runLength config
  run_lt : ∀ run, detector.detection = .waiting run ∨ detector.detection = .armed run →
    run < config.threshold.toNat

theorem tuned_create {config : Config} (husable : Usable config) (polarity : Polarity) :
    Tuned config (.create polarity config) where
  threshold_eq := rfl
  backdate_eq := husable.clampSigned_backdate
  run_lt := by
    rintro run (hrun | hrun) <;> cases hrun
    exact husable.threshold_pos

theorem run_lt_of_advance {threshold : UInt32} {backdate phase : Int} {active : Bool}
    {detection : Detection} {run : Nat} (hpos : 0 < threshold.toNat)
    (h : (EdgeDetector.advance threshold backdate active phase detection).2 = .waiting run ∨
      (EdgeDetector.advance threshold backdate active phase detection).2 = .armed run) :
    run < threshold.toNat := by
  cases detection with
  | waiting seen =>
      dsimp only [EdgeDetector.advance] at h
      generalize (if active then 0 else Word.clampUnsigned 32 (seen + 1)) = next at h
      split at h <;> rcases h with h | h <;> cases h <;> omega
  | armed seen =>
      dsimp only [EdgeDetector.advance] at h
      split at h
      · split at h <;> rcases h with h | h <;> cases h
        assumption
      · rcases h with h | h <;> cases h
        exact hpos
  | found edge => rcases h with h | h <;> cases h

theorem Tuned.sample {config : Config} {detector : EdgeDetector} (h : Tuned config detector)
    (husable : Usable config) (flip : Bool) (phase : Int) :
    Tuned config (detector.sample flip phase) where
  threshold_eq := h.threshold_eq
  backdate_eq := h.backdate_eq
  run_lt run hrun := by
    have hpos := husable.threshold_pos
    rw [← h.threshold_eq] at hpos ⊢
    exact run_lt_of_advance hpos hrun

theorem Tuned.fits {config : Config} {detector : EdgeDetector} (h : Tuned config detector)
    (husable : Usable config) {phase : Int} (hlow : 0 ≤ phase) (hhigh : phase < (1 <<< 31 : Nat)) :
    Fits detector phase := by
  have hword := config.threshold.toNat_lt
  have hrange := husable.range_lt
  have hrun := h.run_lt
  rw [Fits, h.backdate_eq]
  split
  · rename_i run heq
    have hlt := hrun run (Or.inl heq)
    omega
  · rename_i run heq
    have hlt := hrun run (Or.inr heq)
    omega
  · trivial

theorem Tuned.eq_sub_of_found {config : Config} {detector : EdgeDetector}
    (h : Tuned config detector) (husable : Usable config) {flip : Bool} {phase edge : Int}
    (hlow : 0 ≤ phase) (hhigh : phase < (1 <<< 31 : Nat)) (hnone : detector.phase? = none)
    (hfound : (detector.sample flip phase).phase? = some edge) :
    edge = phase - (runLength config : Nat) := by
  have hrange := husable.range_lt
  rcases phase?_sample detector flip phase with hsame | ⟨-, hlate⟩
  · rw [hfound, hnone] at hsame
    cases hsame
  · rw [hfound, h.backdate_eq] at hlate
    rw [Option.some.inj hlate]
    exact Word.clampSigned_of_mem (by omega) (by omega)

/-- A scan of which every pulse so far was taken at the next multiple of the step, up to the end of
the range. -/
structure OnSchedule (config : Config) (bits : List Bool) (scan : Scan) : Prop where
  config_eq : scan.config = config
  cursor_eq : scan.cursor = cursorAt config (min bits.length config.steps)
  rising : Tuned config scan.rising
  falling : Tuned config scan.falling

theorem onSchedule_create {config : Config} (husable : Usable config) :
    OnSchedule config [] (create config) where
  config_eq := rfl
  cursor_eq := by
    rw [List.length_nil, Nat.zero_min, cursorAt, Nat.zero_mul]
    rfl
  rising := tuned_create husable .rising
  falling := tuned_create husable .falling

section Schedule

variable {config : Config} {bits : List Bool} {scan : Scan} (h : OnSchedule config bits scan)
include h

theorem OnSchedule.range_le_cursor_iff (husable : Usable config) :
    scan.range ≤ scan.cursor ↔ config.steps ≤ bits.length := by
  rw [range, h.cursor_eq, h.config_eq, range_le_cursorAt_iff husable]
  omega

theorem OnSchedule.onBusy : OnSchedule config bits scan.onBusy.2 :=
  ⟨h.config_eq, h.cursor_eq, h.rising, h.falling⟩

theorem OnSchedule.onPulse (husable : Usable config) (bit : Bool) :
    OnSchedule config (bits ++ [bit]) (scan.onPulse bit).2.1 := by
  have hend := h.range_le_cursor_iff husable
  have hrising := h.rising.sample husable bit scan.cursor
  have hfalling := h.falling.sample husable bit scan.cursor
  by_cases hpulses : config.steps ≤ bits.length
  · rw [onPulse_of_end (hend.mpr hpulses)]
    refine ⟨h.config_eq, ?_, hrising, hfalling⟩
    rw [List.length_append, List.length_singleton, Nat.min_eq_right (by omega)]
    rw [← Nat.min_eq_right hpulses]
    exact h.cursor_eq
  · rw [onPulse_of_not_end (fun hle => hpulses (hend.mp hle))]
    refine ⟨h.config_eq, ?_, hrising, hfalling⟩
    rw [List.length_append, List.length_singleton, Nat.min_eq_left (by omega)]
    rw [← cursorAt_succ husable, ← Nat.min_eq_left (Nat.le_of_not_le hpulses), ← h.cursor_eq,
      stride, h.config_eq]

end Schedule

theorem onSchedule_of_updated {config : Config} (husable : Usable config) {bits : List Bool}
    {scan : Scan} (h : Updated (create config) bits scan) : OnSchedule config bits scan :=
  h.invariant (onSchedule_create husable) (fun hscan => hscan.onBusy)
    fun bit hscan => hscan.onPulse husable bit

theorem cursorAt_mem (config : Config) (pulse : Nat) :
    0 ≤ cursorAt config pulse ∧ cursorAt config pulse < (1 <<< 31 : Nat) := by
  simp only [cursorAt, Word.clampSigned]
  omega

theorem OnSchedule.onPulse_of_underway {config : Config} {bits : List Bool} {scan : Scan}
    (h : OnSchedule config bits scan) (husable : Usable config) {bit : Bool}
    (hunderway : (scan.onPulse bit).1 = .ok .underway) :
    bits.length < config.steps ∧
      scan.cursor = (bits.length * config.step.toNat : Nat) ∧
      (scan.onPulse bit).2.1.cursor = cursorAt config (bits.length + 1) ∧
      (scan.onPulse bit).2.2 = some (cursorAt config (bits.length + 1)) := by
  have hend : ¬ scan.range ≤ scan.cursor := by
    intro hend
    rw [onPulse_of_end hend] at hunderway
    rcases hverdict : (scan.sample bit).verdict with _ | _ <;> rw [hverdict] at hunderway <;>
      cases hunderway
  have hlt : bits.length < config.steps :=
    Nat.lt_of_not_le fun hle => hend ((h.range_le_cursor_iff husable).mpr hle)
  have hcursor := h.cursor_eq
  rw [Nat.min_eq_left (Nat.le_of_lt hlt)] at hcursor
  have hnext : Word.clampSigned 32 (scan.cursor + scan.stride) =
      cursorAt config (bits.length + 1) := by
    rw [hcursor, stride, h.config_eq, cursorAt_succ husable]
  rw [onPulse_of_not_end hend, hnext]
  exact ⟨hlt, hcursor.trans (cursorAt_of_lt_steps husable hlt), rfl, rfl⟩

/-- Every pulse after which a scan goes on moves the cursor by exactly one step, and the shifter is
commanded to exactly that cursor. -/
def AdvancesExactly (config : Config) : Prop :=
  ∀ (bits : List Bool) (scan : Scan), Updated (create config) bits scan →
    ∀ (σ : Type) [Shifter σ] [PulseSource σ] (world idle pulsed : σ) (bit : Bool),
      Shifter.poll scan.config.channel world = (false, idle) →
      PulseSource.pulse idle = (bit, pulsed) → (scan.step world).1 = .ok .underway →
      (scan.step world).2.1.cursor = scan.cursor + config.step.toNat ∧
        (scan.step world).2.2 =
          Shifter.command config.channel (scan.cursor + config.step.toNat) pulsed

def restingRig : Bench.Rig :=
  ⟨.create 0, ⟨.script #[], 0⟩⟩

theorem exists_updated (config : Config) (count : Nat) :
    ∃ bits scan, bits.length = count ∧ Updated (create config) bits scan := by
  induction count with
  | zero => exact ⟨[], _, rfl, .none⟩
  | succ count ih =>
      obtain ⟨bits, scan, hlength, hscan⟩ := ih
      have hnext : Updated (create config) (bits ++ [_]) (scan.step restingRig).2.1 :=
        hscan.pulse rfl rfl
      exact ⟨_, _, by rw [List.length_append, hlength]; rfl, hnext⟩

theorem advancesExactly_iff {config : Config} (husable : Usable config) :
    AdvancesExactly config ↔ config.steps * config.step.toNat < 1 <<< 31 := by
  have hpositive : 0 < config.steps := by
    have hperiod := husable.step_lt
    rw [lt_steps_iff husable, husable.range_eq]
    omega
  constructor
  · intro hexact
    -- The last step of the cursor is the one that may leave the signed phases.
    obtain ⟨last, hlast⟩ := Nat.exists_eq_add_of_lt hpositive
    rw [Nat.zero_add] at hlast
    obtain ⟨bits, scan, hlength, hscan⟩ := exists_updated config last
    have hschedule := onSchedule_of_updated husable hscan
    have hend : ¬ scan.range ≤ scan.cursor := by
      rw [hschedule.range_le_cursor_iff husable]
      omega
    have hstep : scan.step restingRig = _ := step_eq_onPulse rfl rfl
    have hunderway : (scan.step restingRig).1 = .ok .underway := by
      rw [hstep, onPulse_of_not_end hend]
    obtain ⟨hmoved, -⟩ := hexact bits scan hscan _ restingRig _ _ _ rfl rfl hunderway
    rw [hstep] at hunderway hmoved
    obtain ⟨-, hcursor, hnext, -⟩ := hschedule.onPulse_of_underway husable hunderway
    have hmem := (cursorAt_mem config (bits.length + 1)).2
    rw [← hnext, hmoved, hcursor, hlength] at hmem
    rw [hlast, Nat.succ_mul]
    omega
  · intro hfits bits scan hscan σ _ _ world idle pulsed bit hpoll hpulse hunderway
    have hschedule := onSchedule_of_updated husable hscan
    have hstep := step_eq_onPulse hpoll hpulse
    rw [hstep] at hunderway ⊢
    obtain ⟨hlt, hcursor, hnext, hcommand⟩ := hschedule.onPulse_of_underway husable hunderway
    have hexact : cursorAt config (bits.length + 1) = scan.cursor + config.step.toNat := by
      have hle : (bits.length + 1) * config.step.toNat ≤ config.steps * config.step.toNat :=
        Nat.mul_le_mul_right config.step.toNat hlt
      rw [cursorAt, hcursor, Word.clampSigned_of_mem (by omega) (by omega), Nat.succ_mul]
      rfl
    rw [hcommand, hnext, hexact, hschedule.config_eq]
    exact ⟨rfl, rfl⟩

/-- What the next update of a scan that has taken the given bits comes to in its words is exact: the
runs and the dated phases of the detectors, the cursor at which a pulse is taken that leaves the
scan underway, and the busy polls below the largest limit. -/
structure Exact (config : Config) (bits : List Bool) (scan : Scan) : Prop where
  fits : ∀ detector ∈ [scan.rising, scan.falling], Fits detector scan.cursor
  edge_eq : ∀ detector ∈ [scan.rising, scan.falling], ∀ flip edge, detector.phase? = none →
    (detector.sample flip scan.cursor).phase? = some edge →
    edge = scan.cursor - (runLength config : Nat)
  cursor_eq : ∀ bit, (scan.onPulse bit).1 = .ok .underway →
    scan.cursor = (bits.length * config.step.toNat : Nat)
  busyPolls_eq : config.busyLimit.toNat + 1 < 1 <<< 32 → scan.onBusy.1 = .ok .underway →
    scan.onBusy.2.busyPolls = scan.busyPolls + 1

theorem OnSchedule.exact {config : Config} {bits : List Bool} {scan : Scan}
    (h : OnSchedule config bits scan) (husable : Usable config) : Exact config bits scan := by
  obtain ⟨hlow, hhigh⟩ := cursorAt_mem config (min bits.length config.steps)
  rw [← h.cursor_eq] at hlow hhigh
  have htuned : ∀ detector ∈ [scan.rising, scan.falling], Tuned config detector := by
    simpa using ⟨h.rising, h.falling⟩
  constructor
  · intro detector hdetector
    exact (htuned detector hdetector).fits husable hlow hhigh
  · intro detector hdetector flip edge hnone hfound
    exact (htuned detector hdetector).eq_sub_of_found husable hlow hhigh hnone hfound
  · intro bit hunderway
    exact (h.onPulse_of_underway husable hunderway).2.1
  · intro hlimit hunderway
    have hwithin : ¬ config.busyLimit.toNat < Word.clampUnsigned 32 (scan.busyPolls + 1) := by
      intro hlt
      rw [← h.config_eq] at hlt
      rw [Scan.onBusy, if_pos hlt] at hunderway
      cases hunderway
    rw [Word.clampUnsigned] at hwithin
    change Word.clampUnsigned 32 (scan.busyPolls + 1) = _
    rw [Word.clampUnsigned]
    omega

/-- The phases of a scan on a usable tuning are exact but for its last one. Whatever the shifter and
the source do, no run, no dated phase and no busy poll leaves its word, and each pulse that leaves
the scan underway is at its multiple of the step. The cursor always advances by exactly one step,
and the shifter with it, if and only if the first multiple of the step at the end of the range is
still a signed phase. -/
theorem scan_phases_exact {config : Config} (hvalid : config.validate = .ok ()) :
    (∀ bits scan, Updated (create config) bits scan → Exact config bits scan) ∧
      (AdvancesExactly config ↔ config.steps * config.step.toNat < 1 <<< 31) ∧
      (config.steps * config.step.toNat < 1 <<< 31 →
        ∀ bits scan, Updated (create config) bits scan →
          scan.cursor = (min bits.length config.steps * config.step.toNat : Nat)) := by
  have husable := (validate_eq_ok_iff config).mp hvalid
  refine ⟨fun bits scan hscan => (onSchedule_of_updated husable hscan).exact husable,
    advancesExactly_iff husable, fun hfits bits scan hscan => ?_⟩
  have hle := Nat.mul_le_mul_right config.step.toNat (Nat.min_le_right bits.length config.steps)
  rw [(onSchedule_of_updated husable hscan).cursor_eq, cursorAt,
    Word.clampSigned_of_mem (by omega) (by omega)]

/-- A range that ends at the limit of the signed phases, on a multiple of the step. -/
def snug : Config :=
  { period := 2147483640, step := 2, threshold := 1 }

/-- A range that ends at the limit of the signed phases, just past a multiple of the step. -/
def wide : Config :=
  { period := 536870912, step := 536870911, threshold := 1 }

theorem scan_phases_exact_at_limit : AdvancesExactly snug ∧ ¬ AdvancesExactly wide := by
  have hsnug : snug.validate = .ok () := rfl
  have hwide : wide.validate = .ok () := rfl
  obtain ⟨-, hadvances, -⟩ := scan_phases_exact hsnug
  obtain ⟨-, hstops, -⟩ := scan_phases_exact hwide
  exact ⟨hadvances.mpr (by decide), fun hexact => absurd (hstops.mp hexact) (by decide)⟩

/-- The fifth pulse leaves a scan underway whose cursor has moved by three picoseconds instead of a
step. -/
theorem last_cursor_saturates :
    let begun : Bench.Rig := Shifter.command wide.channel 0 restingRig
    let (_, before, _) := runFor 4 (create wide) begun
    let (answer, after, rig) := runFor 5 (create wide) begun
    wide.validate = .ok () ∧ answer = .ok .underway ∧ before.cursor = 2147483644 ∧
      after.cursor = 2147483647 ∧ rig.shifter.phase = 2147483647 ∧
      after.cursor ≠ before.cursor + wide.step.toNat :=
  ⟨rfl, rfl, rfl, rfl, rfl, by decide⟩

end TimingNode.Proofs.ExactPhases
