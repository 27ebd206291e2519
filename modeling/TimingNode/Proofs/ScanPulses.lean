import TimingNode.Proofs.EdgeDetection
import TimingNode.Proofs.ScanTuning

namespace TimingNode.Proofs.ScanPulses

open TimingNode.Scan
open TimingNode.Proofs.EdgeDetection
open TimingNode.Proofs.ScanTuning

variable {σ : Type} [Shifter σ] [PulseSource σ]

def cursorAt (config : Config) (pulse : Nat) : Int :=
  Word.clampSigned 32 (pulse * config.step.toNat : Nat)

structure Sampled (config : Config) (flip : Nat → Bool) (count : Nat) (scan : Scan) : Prop where
  config_eq : scan.config = config
  cursor_eq : scan.cursor = cursorAt config count
  rising_eq : scan.rising = after (.create .rising config) flip (cursorAt config) count
  falling_eq : scan.falling = after (.create .falling config) flip (cursorAt config) count

def verdictAfter (config : Config) (flip : Nat → Bool) (count : Nat) :
    Except Failure TransitionPhase :=
  match (after (.create .rising config) flip (cursorAt config) count).phase?,
    (after (.create .falling config) flip (cursorAt config) count).phase? with
  | some rising, some falling => .ok (midpoint rising falling config.period.toNat)
  | _, _ => .error .rangeExhausted

theorem sampled_create (config : Config) (flip : Nat → Bool) :
    Sampled config flip 0 (create config) :=
  ⟨rfl, by rw [cursorAt, Nat.zero_mul]; rfl, rfl, rfl⟩

theorem lt_steps_iff {config : Config} (husable : Usable config) (count : Nat) :
    count < config.steps ↔ count * config.step.toNat < config.range := by
  have hstep := husable.step_pos
  rw [Config.steps, Nat.lt_iff_add_one_le, Nat.le_div_iff_mul_le hstep, Nat.succ_mul]
  omega

theorem range_le_steps_mul {config : Config} (husable : Usable config) :
    config.range ≤ config.steps * config.step.toNat :=
  Nat.not_lt.mp fun hlt => Nat.lt_irrefl _ ((lt_steps_iff husable config.steps).mpr hlt)

theorem cursorAt_of_lt_steps {config : Config} (husable : Usable config) {pulse : Nat}
    (hpulse : pulse < config.steps) :
    cursorAt config pulse = (pulse * config.step.toNat : Nat) := by
  have hlt := (lt_steps_iff husable pulse).mp hpulse
  have hrange := husable.range_lt
  rw [husable.range_eq] at hlt
  exact Word.clampSigned_of_mem (by omega) (by omega)

theorem cursorAt_succ {config : Config} (husable : Usable config) (count : Nat) :
    Word.clampSigned 32 (cursorAt config count + Word.clampSigned 32 config.step.toNat) =
      cursorAt config (count + 1) := by
  have hstep := husable.step_lt
  have hrange := husable.range_lt
  simp only [cursorAt, Word.clampSigned, Nat.succ_mul]
  omega

theorem range_le_cursorAt_iff {config : Config} (husable : Usable config) (count : Nat) :
    Word.clampSigned 32 config.range ≤ cursorAt config count ↔ config.steps ≤ count := by
  have hrange := husable.range_lt
  have hrangeEq := husable.range_eq
  rw [← Nat.not_lt, lt_steps_iff husable]
  simp only [cursorAt, Word.clampSigned]
  omega

theorem Sampled.range_le_cursor_iff {config : Config} {flip : Nat → Bool} {count : Nat}
    {scan : Scan} (h : Sampled config flip count scan) (husable : Usable config) :
    scan.range ≤ scan.cursor ↔ config.steps ≤ count := by
  rw [h.cursor_eq, Scan.range, h.config_eq, range_le_cursorAt_iff husable]

theorem Sampled.sample {config : Config} {flip : Nat → Bool} {count : Nat} {scan : Scan}
    (h : Sampled config flip count scan) :
    (scan.sample (flip count)).config = config ∧
      (scan.sample (flip count)).cursor = cursorAt config count ∧
      (scan.sample (flip count)).rising =
        after (.create .rising config) flip (cursorAt config) (count + 1) ∧
      (scan.sample (flip count)).falling =
        after (.create .falling config) flip (cursorAt config) (count + 1) := by
  refine ⟨h.config_eq, h.cursor_eq, ?_, ?_⟩
  · rw [after_succ, ← h.rising_eq, ← h.cursor_eq]
    rfl
  · rw [after_succ, ← h.falling_eq, ← h.cursor_eq]
    rfl

theorem step_eq_onBusy {scan : Scan} {world world' : σ}
    (hpoll : Shifter.poll scan.config.channel world = (true, world')) :
    scan.step world = (scan.onBusy.1, scan.onBusy.2, world') := by
  rw [step, hpoll]

theorem config_onPulse (scan : Scan) (flip : Bool) :
    (scan.onPulse flip).2.1.config = scan.config := by
  dsimp only [onPulse]
  split <;> rfl

theorem onPulse_of_not_end {scan : Scan} (hend : ¬ scan.range ≤ scan.cursor) (flip : Bool) :
    scan.onPulse flip = (.ok .underway,
      { scan.sample flip with cursor := Word.clampSigned 32 (scan.cursor + scan.stride) },
      some (Word.clampSigned 32 (scan.cursor + scan.stride))) := by
  have hsampled : ¬ (scan.sample flip).range ≤ (scan.sample flip).cursor := hend
  rw [onPulse, if_neg hsampled]
  rfl

theorem onPulse_of_end {scan : Scan} (hend : scan.range ≤ scan.cursor) (flip : Bool) :
    scan.onPulse flip = ((scan.sample flip).verdict.map .complete, scan.sample flip, none) := by
  have hsampled : (scan.sample flip).range ≤ (scan.sample flip).cursor := hend
  rw [onPulse, if_pos hsampled]

theorem step_eq_onPulse {scan : Scan} {world idle pulsed : σ} {flip : Bool}
    (hpoll : Shifter.poll scan.config.channel world = (false, idle))
    (hpulse : PulseSource.pulse idle = (flip, pulsed)) :
    scan.step world = ((scan.onPulse flip).1, (scan.onPulse flip).2.1,
      (scan.onPulse flip).2.2.elim pulsed fun phase =>
        Shifter.command scan.config.channel phase pulsed) := by
  have hconfig := config_onPulse scan flip
  rw [step, hpoll]
  dsimp only
  rw [hpulse]
  generalize scan.onPulse flip = outcome at hconfig ⊢
  rcases outcome with ⟨answer, next, _ | phase⟩
  · rfl
  · dsimp only at hconfig ⊢
    rw [hconfig]
    rfl

theorem onBusy_answer (scan : Scan) :
    scan.onBusy.1 = .ok .underway ∨ scan.onBusy.1 = .error .shifterTimeout := by
  simp only [onBusy]
  split
  · exact Or.inr rfl
  · exact Or.inl rfl

theorem Sampled.onBusy {config : Config} {flip : Nat → Bool} {count : Nat} {scan : Scan}
    (h : Sampled config flip count scan) : Sampled config flip count scan.onBusy.2 :=
  ⟨h.config_eq, h.cursor_eq, h.rising_eq, h.falling_eq⟩

theorem step_cases_of_idle {scan : Scan} {world idle pulsed : σ} {flip : Bool}
    (hpoll : Shifter.poll scan.config.channel world = (false, idle))
    (hpulse : PulseSource.pulse idle = (flip, pulsed)) :
    (∃ answer scan', scan.step world = (answer, scan', pulsed) ∧
      scan'.config = scan.config ∧ scan'.cursor = scan.cursor) ∨
    ∃ scan', scan.step world =
        (.ok .underway, scan', Shifter.command scan.config.channel scan'.cursor pulsed) ∧
      scan'.config = scan.config := by
  rw [step_eq_onPulse hpoll hpulse]
  by_cases hend : scan.range ≤ scan.cursor
  · rw [onPulse_of_end hend]
    exact Or.inl ⟨_, _, rfl, rfl, rfl⟩
  · rw [onPulse_of_not_end hend]
    exact Or.inr ⟨_, rfl, rfl⟩

theorem step_of_busy {scan : Scan} {world world' : σ}
    (hpoll : Shifter.poll scan.config.channel world = (true, world'))
    (hlimit : scan.busyPolls < scan.config.busyLimit.toNat) :
    scan.step world =
      (.ok .underway, { scan with busyPolls := scan.busyPolls + 1 }, world') := by
  have hword := scan.config.busyLimit.toNat_lt
  rw [step_eq_onBusy hpoll]
  simp only [onBusy]
  rw [Word.clampUnsigned_of_lt (by omega), if_neg (by omega)]

theorem step_of_timeout {scan : Scan} {world world' : σ}
    (hpoll : Shifter.poll scan.config.channel world = (true, world'))
    (hlimit : scan.busyPolls = scan.config.busyLimit.toNat)
    (hword : scan.config.busyLimit.toNat + 1 < 1 <<< 32) :
    scan.step world =
      (.error .shifterTimeout, { scan with busyPolls := scan.busyPolls + 1 }, world') := by
  rw [step_eq_onBusy hpoll]
  simp only [onBusy]
  rw [Word.clampUnsigned_of_lt (by omega), if_pos (by omega)]

theorem step_of_pulse {config : Config} {flip : Nat → Bool} {count : Nat} {scan : Scan}
    {world idle pulsed : σ} (h : Sampled config flip count scan) (husable : Usable config)
    (hcount : count < config.steps)
    (hpoll : Shifter.poll config.channel world = (false, idle))
    (hpulse : PulseSource.pulse idle = (flip count, pulsed)) :
    ∃ scan', scan.step world = (.ok .underway, scan',
        Shifter.command config.channel (cursorAt config (count + 1)) pulsed) ∧
      Sampled config flip (count + 1) scan' ∧ scan'.busyPolls = 0 := by
  obtain ⟨hconfig, -, hrising, hfalling⟩ := h.sample
  have hend : ¬ scan.range ≤ scan.cursor := by
    rw [h.range_le_cursor_iff husable]
    exact Nat.not_le_of_lt hcount
  have hnext : Word.clampSigned 32 (scan.cursor + scan.stride) = cursorAt config (count + 1) := by
    rw [h.cursor_eq, stride, h.config_eq, cursorAt_succ husable]
  refine ⟨{ scan.sample (flip count) with cursor := cursorAt config (count + 1) }, ?_,
    ⟨hconfig, rfl, hrising, hfalling⟩, rfl⟩
  rw [step_eq_onPulse (h.config_eq.symm ▸ hpoll) hpulse, onPulse_of_not_end hend, hnext,
    h.config_eq]
  rfl

theorem step_of_last_pulse {config : Config} {flip : Nat → Bool} {count : Nat} {scan : Scan}
    {world idle pulsed : σ} (h : Sampled config flip count scan) (husable : Usable config)
    (hcount : config.steps ≤ count)
    (hpoll : Shifter.poll config.channel world = (false, idle))
    (hpulse : PulseSource.pulse idle = (flip count, pulsed)) :
    scan.step world = ((verdictAfter config flip (count + 1)).map .complete,
      scan.sample (flip count), pulsed) := by
  obtain ⟨hconfig, -, hrising, hfalling⟩ := h.sample
  have hend : scan.range ≤ scan.cursor := (h.range_le_cursor_iff husable).mpr hcount
  rw [step_eq_onPulse (h.config_eq.symm ▸ hpoll) hpulse, onPulse_of_end hend, verdict, hconfig,
    hrising, hfalling]
  rfl

theorem verdict_eq_ok_iff {scan : Scan} {transition : TransitionPhase} :
    scan.verdict = .ok transition ↔
      ∃ rising falling, scan.rising.phase? = some rising ∧ scan.falling.phase? = some falling ∧
        transition = midpoint rising falling scan.config.period.toNat := by
  rw [verdict]
  split
  · rename_i rising falling hrising hfalling
    simp [hrising, hfalling, eq_comm]
  · rename_i hmissing
    simp only [reduceCtorEq, false_iff]
    rintro ⟨rising, falling, hrising, hfalling, -⟩
    exact hmissing rising falling hrising hfalling

theorem map_complete_inj {verdict other : Except Failure TransitionPhase}
    (h : verdict.map Progress.complete = other.map .complete) : verdict = other := by
  rcases verdict with _ | _ <;> rcases other with _ | _ <;> cases h <;> rfl

theorem exists_sample_of_verdict {scan : Scan} {world : σ}
    {verdict : Except Failure TransitionPhase}
    (hanswer : (scan.step world).1 = verdict.map .complete)
    (hverdict : verdict ≠ .error .shifterTimeout) :
    ∃ bit, scan.range ≤ scan.cursor ∧ (scan.step world).2.1 = scan.sample bit ∧
      verdict = (scan.sample bit).verdict := by
  rcases hpoll : Shifter.poll scan.config.channel world with ⟨_ | _, polled⟩
  · rcases hpulse : PulseSource.pulse polled with ⟨bit, pulsed⟩
    rw [step_eq_onPulse hpoll hpulse] at hanswer ⊢
    refine ⟨bit, ?_⟩
    by_cases hend : scan.range ≤ scan.cursor
    · rw [onPulse_of_end hend] at hanswer ⊢
      exact ⟨hend, rfl, (map_complete_inj hanswer).symm⟩
    · rw [onPulse_of_not_end hend] at hanswer
      rcases verdict with _ | _ <;> cases hanswer
  · rw [step_eq_onBusy hpoll] at hanswer
    rcases onBusy_answer scan with hbusy | hbusy
    · rw [hbusy] at hanswer
      rcases verdict with _ | _ <;> cases hanswer
    · rw [hbusy] at hanswer
      rcases verdict with failure | _
      · cases hanswer
        exact absurd rfl hverdict
      · cases hanswer

theorem exists_sample_of_complete {scan : Scan} {world : σ} {transition : TransitionPhase}
    (hanswer : (scan.step world).1 = .ok (.complete transition)) :
    ∃ bit, scan.range ≤ scan.cursor ∧ (scan.step world).2.1 = scan.sample bit ∧
      (scan.sample bit).verdict = .ok transition := by
  have hfound : (scan.step world).1 =
    (Except.ok transition : Except Failure TransitionPhase).map .complete := hanswer
  obtain ⟨bit, hend, hnext, hverdict⟩ := exists_sample_of_verdict hfound (by simp)
  exact ⟨bit, hend, hnext, hverdict.symm⟩

theorem run_of_underway {scan scan' : Scan} {world world' : σ} (patience : Nat)
    (hstep : scan.step world = (.ok .underway, scan', world')) :
    run (patience + 1) scan world = run patience scan' world' := by
  rw [run, hstep]

theorem run_of_last {scan scan' : Scan} {world world' : σ}
    {verdict : Except Failure TransitionPhase} (patience : Nat)
    (hstep : scan.step world = (verdict.map .complete, scan', world')) :
    run (patience + 1) scan world = some (verdict, scan', world') := by
  rw [run, hstep]
  cases verdict <;> rfl

end TimingNode.Proofs.ScanPulses
