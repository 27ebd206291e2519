import TimingNode.Proofs.EdgeDetection
import TimingNode.Proofs.FlipVerdict
import TimingNode.Proofs.RecordedScan
import TimingNode.Proofs.ScanUpdates

/-!
Updates of a scan that has given its verdict. The cursor stays at the end of the range and the
shifter is not commanded again, but every pulse is still sampled there. A transition phase that was
answered stands; an exhausted range is answered until the late samples complete the edges that were
missing, and then it gives way to a transition phase.
-/

namespace TimingNode.Proofs.LateVerdict

open TimingNode.Scan
open TimingNode.Proofs.EdgeDetection
open TimingNode.Proofs.FlipVerdict (brisk)
open TimingNode.Proofs.RecordedScan
open TimingNode.Proofs.ScanPulses
open TimingNode.Proofs.ScanUpdates

/-- The verdict of a scan after further flip bits sampled at its cursor. -/
def verdictOn (scan : Scan) (bits : List Bool) : Except Failure TransitionPhase :=
  (bits.foldl Scan.sample scan).verdict

/-- The phase of an edge that is completed by a sample at the cursor of a scan. -/
def lateEdge (scan : Scan) (detector : EdgeDetector) : Int :=
  Word.clampSigned 32 (scan.cursor - detector.backdate)

theorem verdict_eq_exhausted_iff (scan : Scan) :
    scan.verdict = .error .rangeExhausted ↔ ¬ (scan.rising.isDone ∧ scan.falling.isDone) := by
  rw [verdict, EdgeDetector.isDone, EdgeDetector.isDone]
  rcases scan.rising.phase? with _ | rising
  · simp
  · rcases scan.falling.phase? with _ | falling
    · simp
    · simp

section Samples

theorem foldl_sample_eq (scan : Scan) (bits : List Bool) :
    (bits.foldl Scan.sample scan).config = scan.config ∧
      (bits.foldl Scan.sample scan).cursor = scan.cursor ∧
      (bits.foldl Scan.sample scan).rising =
        scan.rising.sampleAll (bits.map fun bit => (bit, scan.cursor)) ∧
      (bits.foldl Scan.sample scan).falling =
        scan.falling.sampleAll (bits.map fun bit => (bit, scan.cursor)) := by
  induction bits generalizing scan with
  | nil => exact ⟨rfl, rfl, rfl, rfl⟩
  | cons bit bits ih => exact ih (scan.sample bit)

theorem phase?_sampleAll_map (detector : EdgeDetector) (phase : Int) (bits : List Bool) :
    (detector.sampleAll (bits.map fun bit => (bit, phase))).phase? = detector.phase? ∨
      detector.phase? = none ∧
        (detector.sampleAll (bits.map fun bit => (bit, phase))).phase? =
          some (Word.clampSigned 32 (phase - detector.backdate)) := by
  induction bits generalizing detector with
  | nil => exact Or.inl rfl
  | cons bit bits ih =>
      rw [List.map_cons, EdgeDetector.sampleAll_cons]
      rcases phase?_sample detector bit phase with hsame | ⟨hnone, hfound⟩
      · rw [← hsame]
        exact ih (detector.sample bit phase)
      · rcases ih (detector.sample bit phase) with hlater | ⟨hmissing, -⟩
        · exact Or.inr ⟨hnone, hlater.trans hfound⟩
        · rw [hfound] at hmissing
          cases hmissing

theorem verdictOn_of_ok {scan : Scan} {transition : TransitionPhase}
    (h : scan.verdict = .ok transition) (bits : List Bool) :
    verdictOn scan bits = .ok transition := by
  obtain ⟨rising, falling, hrising, hfalling, rfl⟩ := verdict_eq_ok_iff.mp h
  obtain ⟨hconfig, -, hrisingOn, hfallingOn⟩ := foldl_sample_eq scan bits
  refine verdict_eq_ok_iff.mpr ⟨rising, falling, ?_, ?_, by rw [hconfig]⟩
  · rcases phase?_sampleAll_map scan.rising scan.cursor bits with hsame | ⟨hnone, -⟩
    · rw [hrisingOn, hsame, hrising]
    · rw [hrising] at hnone
      cases hnone
  · rcases phase?_sampleAll_map scan.falling scan.cursor bits with hsame | ⟨hnone, -⟩
    · rw [hfallingOn, hsame, hfalling]
    · rw [hfalling] at hnone
      cases hnone

/-- Once late samples of an exhausted range have made both edges known, the verdict on them stands,
and an edge that was missing lies one full run before the end of the range. -/
theorem verdictOn_of_late_edges {scan : Scan} (h : scan.verdict = .error .rangeExhausted)
    {bits : List Bool} {rising falling : Int}
    (hrising : (bits.foldl Scan.sample scan).rising.phase? = some rising)
    (hfalling : (bits.foldl Scan.sample scan).falling.phase? = some falling) :
    (∀ more, verdictOn scan (bits ++ more) =
        .ok (midpoint rising falling scan.config.period.toNat)) ∧
      (scan.rising.phase? = none ∧ rising = lateEdge scan scan.rising ∨
        scan.falling.phase? = none ∧ falling = lateEdge scan scan.falling) := by
  obtain ⟨hconfig, -, hrisingOn, hfallingOn⟩ := foldl_sample_eq scan bits
  constructor
  · intro more
    rw [verdictOn, List.foldl_append]
    refine verdictOn_of_ok (verdict_eq_ok_iff.mpr ⟨rising, falling, hrising, hfalling, ?_⟩) more
    rw [hconfig]
  rw [hrisingOn] at hrising
  rw [hfallingOn] at hfalling
  rcases phase?_sampleAll_map scan.rising scan.cursor bits with hknown | ⟨hnone, hlate⟩
  · rcases phase?_sampleAll_map scan.falling scan.cursor bits with hknown' | ⟨hnone, hlate⟩
    · -- Both edges were known before the late samples, so the range was not exhausted.
      rw [hknown] at hrising
      rw [hknown'] at hfalling
      have hok := verdict_eq_ok_iff.mpr ⟨rising, falling, hrising, hfalling, rfl⟩
      rw [h] at hok
      cases hok
    · exact Or.inr ⟨hnone, Option.some.inj (hfalling.symm.trans hlate)⟩
  · exact Or.inl ⟨hnone, Option.some.inj (hrising.symm.trans hlate)⟩

end Samples

theorem eq_foldl_sample_of_updated {ended later : Scan} {bits : List Bool}
    (h : Updated ended bits later) (hend : ended.range ≤ ended.cursor) :
    ∃ busyPolls, later = { bits.foldl Scan.sample ended with busyPolls } := by
  refine h.invariant (motive := fun bits later =>
    ∃ busyPolls, later = { bits.foldl Scan.sample ended with busyPolls }) ⟨_, rfl⟩ ?_ ?_
  · rintro bits _ ⟨busyPolls, rfl⟩
    exact ⟨_, rfl⟩
  · rintro bits _ bit ⟨busyPolls, rfl⟩
    obtain ⟨hconfig, hcursor, -, -⟩ := foldl_sample_eq ended bits
    rw [onPulse_of_end]
    · rw [List.foldl_append]
      exact ⟨0, rfl⟩
    · simpa only [range, hconfig, hcursor] using hend

/-- An update of a scan that has ended and has taken further flip bits since: it commands nothing
and moves no cursor, a busy poll is only counted, and a pulse gives the verdict on the bits, its own
included, that both detectors have sampled. -/
structure Late {σ : Type} [Shifter σ] [PulseSource σ] (ended : Scan) (bits : List Bool)
    (later : Scan) (world : σ) : Prop where
  cursor_eq : (later.step world).2.1.cursor = ended.cursor
  of_busy : ∀ polled, Shifter.poll later.config.channel world = (true, polled) →
    (later.step world).2.2 = polled ∧
      ((later.step world).1 = .ok .underway ∨ (later.step world).1 = .error .shifterTimeout)
  of_idle : ∀ idle bit pulsed, Shifter.poll later.config.channel world = (false, idle) →
    PulseSource.pulse idle = (bit, pulsed) →
    (later.step world).2.2 = pulsed ∧
      (later.step world).2.1 = (bits ++ [bit]).foldl Scan.sample ended ∧
      (later.step world).1 = (verdictOn ended (bits ++ [bit])).map .complete

theorem late_of_updated {σ : Type} [Shifter σ] [PulseSource σ] {ended later : Scan}
    {bits : List Bool} (h : Updated ended bits later) (hend : ended.range ≤ ended.cursor)
    (world : σ) : Late ended bits later world := by
  obtain ⟨busyPolls, hlater⟩ := eq_foldl_sample_of_updated h hend
  obtain ⟨hconfig, hcursor, -, -⟩ := foldl_sample_eq ended bits
  have hlaterCursor : later.cursor = ended.cursor := by
    rw [hlater, ← hcursor]
  have hlaterEnd : later.range ≤ later.cursor := by
    rw [hlaterCursor, range, hlater, hconfig]
    exact hend
  have hsample (bit : Bool) : later.sample bit = (bits ++ [bit]).foldl Scan.sample ended := by
    rw [hlater, List.foldl_append]
    rfl
  have hidle (idle : σ) (bit : Bool) (pulsed : σ)
      (hpoll : Shifter.poll later.config.channel world = (false, idle))
      (hpulse : PulseSource.pulse idle = (bit, pulsed)) :
      later.step world =
        ((verdictOn ended (bits ++ [bit])).map .complete, later.sample bit, pulsed) := by
    rw [step_eq_onPulse hpoll hpulse, onPulse_of_end hlaterEnd, verdictOn, ← hsample]
    rfl
  have hbusy (polled : σ) (hpoll : Shifter.poll later.config.channel world = (true, polled)) :
      later.step world = (later.onBusy.1, later.onBusy.2, polled) :=
    step_eq_onBusy hpoll
  constructor
  · rcases hpoll : Shifter.poll later.config.channel world with ⟨_ | _, polled⟩
    · rcases hpulse : PulseSource.pulse polled with ⟨bit, pulsed⟩
      rw [hidle polled bit pulsed hpoll hpulse]
      exact hlaterCursor
    · rw [hbusy polled hpoll]
      exact hlaterCursor
  · intro polled hpoll
    rw [hbusy polled hpoll]
    exact ⟨rfl, onBusy_answer later⟩
  · intro idle bit pulsed hpoll hpulse
    rw [hidle idle bit pulsed hpoll hpulse]
    exact ⟨rfl, hsample bit, rfl⟩

/-- What a scan answers once it has given a verdict, whatever its shifter and its source do. A
transition phase is answered again on every pulse. An exhausted range is answered until the bits
sampled since have made both edges known, of which one then is the end of the range dated back; the
transition phase between these edges is answered from there on. -/
theorem answers_after_verdict {σ τ : Type} [Shifter σ] [PulseSource σ] [Shifter τ] [PulseSource τ]
    {scan : Scan} {world : σ} {verdict : Except Failure TransitionPhase}
    (hanswer : (scan.step world).1 = verdict.map .complete)
    (hverdict : verdict ≠ .error .shifterTimeout) {bits : List Bool} {later : Scan}
    (hlater : Updated (scan.step world).2.1 bits later) (now : τ) :
    let ended := (scan.step world).2.1
    ended.range ≤ ended.cursor ∧ Late ended bits later now ∧
      (∀ transition, verdict = .ok transition → ∀ more, verdictOn ended more = .ok transition) ∧
      (verdict = .error .rangeExhausted → ∀ more,
        let seen := more.foldl Scan.sample ended
        (verdictOn ended more = .error .rangeExhausted ↔
          ¬ (seen.rising.isDone ∧ seen.falling.isDone)) ∧
        ∀ rising falling, seen.rising.phase? = some rising → seen.falling.phase? = some falling →
          (∀ rest, verdictOn ended (more ++ rest) =
            .ok (midpoint rising falling scan.config.period.toNat)) ∧
          (ended.rising.phase? = none ∧ rising = lateEdge ended ended.rising ∨
            ended.falling.phase? = none ∧ falling = lateEdge ended ended.falling)) := by
  obtain ⟨bit, hend, hended, rfl⟩ := exists_sample_of_verdict hanswer hverdict
  rw [hended] at hlater ⊢
  refine ⟨hend, late_of_updated hlater hend now, fun _ hok => verdictOn_of_ok hok, ?_⟩
  intro hexhausted more
  refine ⟨verdict_eq_exhausted_iff _, ?_⟩
  intro rising falling hrising hfalling
  exact verdictOn_of_late_edges hexhausted hrising hfalling

/-- A scan before the last of its six pulses, on a shifter that is never busy. -/
def nearEnd (bits : Array Bool) : Scan × Bench.Rig :=
  (runFor 5 (create brisk)
    (Shifter.command brisk.channel 0 (⟨.create 0, ⟨.script bits, 0⟩⟩ : Bench.Rig))).2

def answer (state : Scan × Bench.Rig) : Except Failure Progress :=
  (state.1.step state.2).1

def next (state : Scan × Bench.Rig) : Scan × Bench.Rig :=
  (state.1.step state.2).2

/-- A level that changes twice, but only after the end of the range. -/
def tardy : Scan × Bench.Rig :=
  nearEnd #[false, false, false, false, false, false, true, false]

def timely : Scan × Bench.Rig :=
  nearEnd #[false, false, true, true, false, true]

theorem answers_after_verdict_timely :
    answer timely = .ok (.complete ⟨2, by decide⟩) ∧
      (∀ more, verdictOn (next timely).1 more = .ok ⟨2, by decide⟩) ∧
      answer tardy = .error .rangeExhausted ∧
      Late (next tardy).1 [true] (next (next tardy)).1 (next (next tardy)).2 ∧
      verdictOn (next tardy).1 [true] = .error .rangeExhausted ∧
      (∀ rest, verdictOn (next tardy).1 ([true, false] ++ rest) = .ok ⟨0, by decide⟩) ∧
      (next tardy).1.cursor = 10 ∧ (8 = lateEdge (next tardy).1 (next tardy).1.rising ∨
        8 = lateEdge (next tardy).1 (next tardy).1.falling) := by
  have hfound : answer timely = (Except.ok ⟨2, by decide⟩ : Except Failure _).map .complete := rfl
  have hexhausted : answer tardy =
    (Except.error .rangeExhausted : Except Failure TransitionPhase).map .complete := rfl
  obtain ⟨-, -, hstands, -⟩ := answers_after_verdict hfound (by simp) .none (next timely).2
  obtain ⟨-, hlate, -, hgives⟩ := answers_after_verdict hexhausted (by simp)
    (.pulse .none rfl rfl : Updated _ [true] (next (next tardy)).1) (next (next tardy)).2
  obtain ⟨hrising, -⟩ := hgives rfl [true]
  obtain ⟨-, hboth⟩ := hgives rfl [true, false]
  obtain ⟨hjoined, hedge⟩ := hboth 8 8 rfl rfl
  exact ⟨rfl, hstands _ rfl, rfl, hlate, hrising.mpr (by decide), hjoined, rfl,
    hedge.imp And.right And.right⟩

/-- Two pulses after its end an exhausted range has turned into a transition phase. -/
theorem exhausted_range_gives_way :
    brisk.validate = .ok () ∧ answer tardy = .error .rangeExhausted ∧
      answer (next tardy) = .error .rangeExhausted ∧
      answer (next (next tardy)) = .ok (.complete ⟨0, by decide⟩) :=
  ⟨rfl, rfl, rfl, rfl⟩

end TimingNode.Proofs.LateVerdict
