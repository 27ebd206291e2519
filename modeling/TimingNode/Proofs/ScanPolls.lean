import TimingNode.Proofs.FlipVerdict

namespace TimingNode.Proofs.ScanPolls

open TimingNode.Scan
open TimingNode.Proofs.FlipVerdict (brisk scripted)
open TimingNode.Proofs.RecordedScan
open TimingNode.Proofs.RecordedWorld
open TimingNode.Proofs.ScanPulses
open TimingNode.Proofs.ScanTuning

/-- What the polls in a record were answered, `true` for busy. -/
def answers (events : List Ask) : List Bool :=
  events.filterMap fun
    | .settling busy => some busy
    | _ => none

def pulses (events : List Ask) : Nat :=
  events.countP (· matches .pulse _)

/-- As many busy answers in a row as the tuning does not accept. -/
def stuck (config : Config) : List Bool :=
  .replicate (config.busyLimit.toNat + 1) true

@[simp] theorem answers_nil : answers [] = [] :=
  rfl

@[simp] theorem answers_poll (busy : Bool) (rest : List Ask) :
    answers (.settling busy :: rest) = busy :: answers rest :=
  rfl

@[simp] theorem answers_pulse (flip : Bool) (rest : List Ask) :
    answers (.pulse flip :: rest) = answers rest :=
  rfl

@[simp] theorem answers_command (channel : UInt8) (phase : Int) (rest : List Ask) :
    answers (.command channel phase :: rest) = answers rest :=
  rfl

@[simp] theorem answers_append (first second : List Ask) :
    answers (first ++ second) = answers first ++ answers second :=
  List.filterMap_append

@[simp] theorem pulses_nil : pulses [] = 0 :=
  rfl

@[simp] theorem pulses_poll (busy : Bool) (rest : List Ask) :
    pulses (.settling busy :: rest) = pulses rest :=
  List.countP_cons_of_neg Bool.false_ne_true

@[simp] theorem pulses_pulse (flip : Bool) (rest : List Ask) :
    pulses (.pulse flip :: rest) = pulses rest + 1 :=
  List.countP_cons_of_pos rfl

@[simp] theorem pulses_command (channel : UInt8) (phase : Int) (rest : List Ask) :
    pulses (.command channel phase :: rest) = pulses rest :=
  List.countP_cons_of_neg Bool.false_ne_true

@[simp] theorem pulses_append (first second : List Ask) :
    pulses (first ++ second) = pulses first + pulses second :=
  List.countP_append

theorem replicate_succ_suffix_busy (count : Nat) (before : List Bool) :
    List.replicate (count + 1) true <:+ before ++ [true] ↔
      List.replicate count true <:+ before := by
  simp [List.replicate_succ', List.suffix_concat_iff]

theorem not_replicate_succ_suffix_idle (count : Nat) (before : List Bool) :
    ¬ List.replicate (count + 1) true <:+ before ++ [false] := by
  simp [List.replicate_succ', List.suffix_concat_iff]

theorem not_stuck_append_idle {config : Config} {before : List Bool}
    (h : ¬ stuck config <:+: before) : ¬ stuck config <:+: before ++ [false] := by
  rw [List.infix_concat_iff, not_or]
  exact ⟨not_replicate_succ_suffix_idle _ before, h⟩

structure Polled (config : Config) (scan : Scan) (events : List Ask) : Prop where
  config_eq : scan.config = config
  cursor_eq : scan.cursor = cursorAt config (pulses events)
  pulses_le : pulses events ≤ config.steps
  busyPolls_le : scan.busyPolls ≤ config.busyLimit.toNat
  /-- The counter is the length of the streak of busy answers that the record ends with. -/
  suffix_iff : ∀ count, .replicate count true <:+ answers events ↔ count ≤ scan.busyPolls
  length_le : (answers events).length ≤
    pulses events * (config.busyLimit.toNat + 1) + scan.busyPolls
  not_stuck : ¬ stuck config <:+: answers events

/-- A record of a scan that has ended with a verdict: it holds a bounded number of polls and pulses,
and the shifter was stuck only if that is the verdict, and only with the last poll. -/
structure Ending (config : Config) (verdict : Except Failure TransitionPhase)
    (events : List Ask) : Prop where
  length_le : (answers events).length ≤ (config.busyLimit.toNat + 1) * (config.steps + 1)
  pulses_le : pulses events ≤ config.steps + 1
  timeout_iff : verdict = .error .shifterTimeout ↔ stuck config <:+: answers events
  timeout_last : verdict = .error .shifterTimeout → stuck config <:+ answers events
  not_before : ¬ stuck config <:+: (answers events).dropLast

section Invariant

variable {config : Config} {scan : Scan} {events : List Ask}

theorem polled_create (config : Config) :
    Polled config (create config) [.command config.channel 0] where
  config_eq := rfl
  cursor_eq := by
    rw [cursorAt, pulses_command, pulses_nil, Nat.zero_mul]
    rfl
  pulses_le := Nat.zero_le _
  busyPolls_le := Nat.zero_le _
  suffix_iff count := by simp [create]
  length_le := Nat.zero_le _
  not_stuck := by simp [stuck]

theorem Polled.length_lt (h : Polled config scan events) :
    (answers events).length < (config.busyLimit.toNat + 1) * (config.steps + 1) := by
  have hmul := Nat.mul_le_mul_right (config.busyLimit.toNat + 1) h.pulses_le
  have hlength := h.length_le
  have hbusy := h.busyPolls_le
  rw [Nat.mul_comm, Nat.succ_mul]
  omega

theorem Polled.onPulse_of_lt (h : Polled config scan events) (husable : Usable config)
    (hlt : pulses events < config.steps) (bit : Bool) :
    ∃ scan', scan.onPulse bit = (.ok .underway, scan', some scan'.cursor) ∧
      scan'.config = config ∧ scan'.cursor = cursorAt config (pulses events + 1) ∧
      scan'.busyPolls = 0 := by
  have hend : ¬ scan.range ≤ scan.cursor := by
    rw [range, h.config_eq, h.cursor_eq, range_le_cursorAt_iff husable]
    exact Nat.not_le_of_lt hlt
  refine ⟨{ scan.sample bit with cursor := cursorAt config (pulses events + 1) }, ?_,
    h.config_eq, rfl, rfl⟩
  rw [onPulse_of_not_end hend, ← cursorAt_succ husable, ← h.cursor_eq, ← h.config_eq]
  rfl

theorem Polled.onPulse_of_eq (h : Polled config scan events) (husable : Usable config)
    (heq : pulses events = config.steps) (bit : Bool) :
    ∃ verdict : Except Failure TransitionPhase,
      scan.onPulse bit = (verdict.map .complete, scan.sample bit, none) ∧
        verdict ≠ .error .shifterTimeout := by
  have hend : scan.range ≤ scan.cursor := by
    rw [range, h.config_eq, h.cursor_eq, range_le_cursorAt_iff husable]
    exact Nat.le_of_eq heq.symm
  refine ⟨(scan.sample bit).verdict, onPulse_of_end hend bit, ?_⟩
  rw [verdict]
  split <;> simp

theorem Polled.append_busy (h : Polled config scan events)
    (hlt : scan.busyPolls < config.busyLimit.toNat) :
    Polled config { scan with busyPolls := scan.busyPolls + 1 } (events ++ [.settling true]) where
  config_eq := h.config_eq
  cursor_eq := by simpa using h.cursor_eq
  pulses_le := by simpa using h.pulses_le
  busyPolls_le := hlt
  suffix_iff
    | 0 => by simp
    | count + 1 => by
        have hbusy := replicate_succ_suffix_busy count (answers events)
        simpa [h.suffix_iff] using hbusy
  length_le := by simpa [← Nat.add_assoc] using h.length_le
  not_stuck := by
    have hfull : ¬ stuck config <:+ answers events ++ [true] := by
      rw [stuck, replicate_succ_suffix_busy, h.suffix_iff]
      exact Nat.not_le_of_lt hlt
    simpa [List.infix_concat_iff] using ⟨hfull, h.not_stuck⟩

theorem Polled.append_pulse (h : Polled config scan events) {scan' : Scan}
    (hlt : pulses events < config.steps) (hconfig : scan'.config = config)
    (hcursor : scan'.cursor = cursorAt config (pulses events + 1)) (hbusy : scan'.busyPolls = 0)
    (bit : Bool) (channel : UInt8) (phase : Int) :
    Polled config scan'
      (events ++ [.settling false] ++ [.pulse bit] ++ [.command channel phase]) where
  config_eq := hconfig
  cursor_eq := by simpa using hcursor
  pulses_le := by simpa using Nat.succ_le_of_lt hlt
  busyPolls_le := by
    rw [hbusy]
    exact Nat.zero_le _
  suffix_iff
    | 0 => by simp
    | count + 1 => by
        have hidle := not_replicate_succ_suffix_idle count (answers events)
        simpa [hbusy] using hidle
  length_le := by
    have hlength : (answers events).length + 1 ≤
        pulses events * (config.busyLimit.toNat + 1) + (config.busyLimit.toNat + 1) :=
      Nat.add_le_add_right (Nat.le_trans h.length_le (Nat.add_le_add_left h.busyPolls_le _)) 1
    simpa [hbusy, Nat.succ_mul] using hlength
  not_stuck := by simpa using not_stuck_append_idle h.not_stuck

theorem Polled.ending_of_timeout (h : Polled config scan events)
    (heq : scan.busyPolls = config.busyLimit.toNat) :
    Ending config (.error .shifterTimeout) (events ++ [.settling true]) := by
  have hlast : stuck config <:+ answers events ++ [true] := by
    rw [stuck, replicate_succ_suffix_busy, h.suffix_iff]
    exact Nat.le_of_eq heq.symm
  constructor
  · simpa using Nat.succ_le_of_lt h.length_lt
  · simpa using Nat.le_succ_of_le h.pulses_le
  · simpa using hlast.isInfix
  · simpa using hlast
  · simpa using h.not_stuck

theorem Polled.ending_of_verdict (h : Polled config scan events)
    {verdict : Except Failure TransitionPhase} (hverdict : verdict ≠ .error .shifterTimeout)
    (bit : Bool) : Ending config verdict (events ++ [.settling false] ++ [.pulse bit]) := by
  constructor
  · simpa using Nat.succ_le_of_lt h.length_lt
  · simpa using h.pulses_le
  · simpa [hverdict] using not_stuck_append_idle h.not_stuck
  · intro htimeout
    exact absurd htimeout hverdict
  · simpa using h.not_stuck

end Invariant

section Run

variable {σ : Type} [Shifter σ] [PulseSource σ] {config : Config}

/-- One step is one poll. It leaves a scan that goes on, or it ends the scan. -/
theorem Polled.step_cases {scan : Scan} {logged : Logged σ}
    (h : Polled config scan logged.events) (husable : Usable config)
    (hlimit : config.busyLimit.toNat + 1 < 1 <<< 32) :
    ∃ scan' logged',
      (answers logged'.events).length = (answers logged.events).length + 1 ∧
      (scan.step logged = (.ok .underway, scan', logged') ∧
          Polled config scan' logged'.events ∨
        ∃ verdict : Except Failure TransitionPhase,
          scan.step logged = (verdict.map .complete, scan', logged') ∧
            Ending config verdict logged'.events) := by
  rcases logged with ⟨world, events⟩
  have hconfig := h.config_eq
  rcases hpoll : Shifter.poll scan.config.channel world with ⟨_ | _, polled⟩
  · rcases hpulse : PulseSource.pulse polled with ⟨bit, pulsed⟩
    have hstep := step_logged_of_idle events hpoll hpulse
    rcases Nat.lt_or_eq_of_le h.pulses_le with hlt | heq
    · obtain ⟨scan', honPulse, hconfig', hcursor, hbusy⟩ := h.onPulse_of_lt husable hlt bit
      rw [honPulse] at hstep
      have hnext := h.append_pulse hlt hconfig' hcursor hbusy bit scan'.config.channel scan'.cursor
      exact ⟨_, _, by simp, Or.inl ⟨hstep, hnext⟩⟩
    · obtain ⟨verdict, honPulse, hverdict⟩ := h.onPulse_of_eq husable heq bit
      rw [honPulse] at hstep
      exact ⟨_, _, by simp, Or.inr ⟨verdict, hstep, h.ending_of_verdict hverdict bit⟩⟩
  · have hanswer := poll_logged events hpoll
    rcases Nat.lt_or_eq_of_le h.busyPolls_le with hlt | heq
    · have hstep := step_of_busy hanswer (hconfig ▸ hlt)
      exact ⟨_, _, by simp, Or.inl ⟨hstep, h.append_busy hlt⟩⟩
    · have hstep := step_of_timeout hanswer (hconfig ▸ heq) (hconfig ▸ hlimit)
      exact ⟨_, _, by simp, Or.inr ⟨.error .shifterTimeout, hstep, h.ending_of_timeout heq⟩⟩

theorem Polled.exists_ending (husable : Usable config)
    (hlimit : config.busyLimit.toNat + 1 < 1 <<< 32) (left : Nat) {scan : Scan}
    {logged : Logged σ} (h : Polled config scan logged.events)
    (hleft : (config.busyLimit.toNat + 1) * (config.steps + 1) ≤
      (answers logged.events).length + left) :
    ∃ verdict ended final, Ending config verdict final.events ∧
      (answers logged.events).length < (answers final.events).length ∧
      ∀ patience, run patience scan logged =
        if (answers final.events).length ≤ (answers logged.events).length + patience then
          some (verdict, ended, final)
        else none := by
  -- Every step adds a poll, and a scan that goes on has not yet made as many as the bound.
  induction left generalizing scan logged with
  | zero => exact absurd h.length_lt (Nat.not_lt_of_le hleft)
  | succ left ih =>
      obtain ⟨scan', logged', hlength, ⟨hstep, hnext⟩ | ⟨verdict, hstep, hends⟩⟩ :=
        h.step_cases husable hlimit
      · obtain ⟨verdict, ended, final, hends, hlater, hrun⟩ := ih hnext (by omega)
        refine ⟨verdict, ended, final, hends, by omega, fun patience => ?_⟩
        cases patience with
        | zero =>
            rw [if_neg (by omega)]
            rfl
        | succ patience =>
            rw [run_of_underway patience hstep, hrun, hlength, Nat.add_right_comm]
            rfl
      · refine ⟨verdict, scan', logged', hends, by omega, fun patience => ?_⟩
        cases patience with
        | zero =>
            rw [if_neg (by omega)]
            rfl
        | succ patience => rw [run_of_last patience hstep, if_pos (by omega)]

def afterPolls (channel : UInt8) : (count : Nat) → σ → σ
  | 0, world => world
  | count + 1, world => afterPolls channel count (Shifter.poll channel world).2

def BusyForEver (channel : UInt8) (world : σ) : Prop :=
  ∀ count, (Shifter.poll channel (afterPolls channel count world)).1 = true

theorem run_of_busyForEver (hlimit : config.busyLimit.toNat = 1 <<< 32 - 1) (patience : Nat)
    {scan : Scan} {world : σ} (hconfig : scan.config = config)
    (hbusy : BusyForEver config.channel world) : run patience scan world = none := by
  induction patience generalizing scan world with
  | zero => rfl
  | succ patience ih =>
      have hpoll : Shifter.poll scan.config.channel world =
          (true, (Shifter.poll config.channel world).2) := by
        rw [hconfig]
        exact Prod.ext (hbusy 0) rfl
      -- The counter saturates at the limit, so it is never above it.
      have hanswer : scan.onBusy.1 = .ok .underway := by
        have hword : Word.clampUnsigned 32 (scan.busyPolls + 1) ≤ 1 <<< 32 - 1 :=
          Nat.min_le_right _ _
        simp only [onBusy, hconfig, hlimit]
        rw [if_neg (Nat.not_lt_of_le hword)]
      have hstep := step_eq_onBusy hpoll
      rw [hanswer] at hstep
      rw [run_of_underway patience hstep]
      exact ih hconfig fun count => hbusy (count + 1)

/-- A scan on a usable tuning ends, whatever its shifter and its source do. There is one pulse more
than steps to the end of the range, and before each of them no more busy answers than the tuning
accepts; one more in a row is a timeout at once, and there is no other cause of one. At the largest
busy limit there is no bound: a shifter that is always busy keeps a scan underway for any number of
polls. -/
theorem scan_ends_in_bounded_polls (hvalid : config.validate = .ok ()) (world : σ) :
    start config world = .ok (create config, Shifter.command config.channel 0 world) ∧
    (config.busyLimit.toNat < 1 <<< 32 - 1 →
      ∃ verdict ended final, Ending config verdict final.events ∧ ∀ patience,
        run patience (create config) (Shifter.command config.channel 0 world) =
            (if (answers final.events).length ≤ patience then some (verdict, ended, final.world)
            else none) ∧
          run patience (create config) (begun config world) =
            if (answers final.events).length ≤ patience then some (verdict, ended, final)
            else none) ∧
    (config.busyLimit.toNat = 1 <<< 32 - 1 →
      BusyForEver config.channel (Shifter.command config.channel 0 world) → ∀ patience,
        run patience (create config) (Shifter.command config.channel 0 world) = none) := by
  have husable := (validate_eq_ok_iff config).mp hvalid
  refine ⟨by rw [start, hvalid], ?_, ?_⟩
  · intro hlimit
    have hbegun : Polled config (create config) (begun config world).events :=
      polled_create config
    obtain ⟨verdict, ended, final, hends, -, hrun⟩ := hbegun.exists_ending husable
      (Nat.add_lt_of_lt_sub hlimit) _ (Nat.le_add_left _ _)
    have hnone : (answers (begun config world).events).length = 0 := rfl
    rw [hnone] at hrun
    simp only [Nat.zero_add] at hrun
    refine ⟨verdict, ended, final, hends, fun patience => ⟨?_, hrun patience⟩⟩
    have hplain := run_logged patience (create config) (begun config world)
    rw [hrun patience] at hplain
    refine hplain.trans ?_
    split <;> rfl
  · intro hlimit hbusy patience
    exact run_of_busyForEver hlimit patience rfl hbusy

end Run

theorem poll_of_never {rig : Bench.Rig}
    (h : rig.shifter.remaining = Bench.SettlingShifter.never) (channel : UInt8) :
    (Shifter.poll channel rig).1 = true ∧
      (Shifter.poll channel rig).2.shifter.remaining = Bench.SettlingShifter.never := by
  simp [Shifter.poll, Bench.SettlingShifter.poll, h, Bench.SettlingShifter.never]

theorem busyForEver_of_never {rig : Bench.Rig}
    (h : rig.shifter.remaining = Bench.SettlingShifter.never) (channel : UInt8) :
    BusyForEver channel rig := by
  intro count
  induction count generalizing rig with
  | zero => exact (poll_of_never h channel).1
  | succ count ih => exact ih (poll_of_never h channel).2

def boundless : Config :=
  { brisk with busyLimit := 0xFFFFFFFF }

theorem scan_ends_in_bounded_polls_at_limits :
    (∃ verdict, ∃ final : Logged Bench.Rig, Ending brisk verdict final.events ∧
      (answers final.events).length = (2 + 1) * (5 + 1)) ∧
    (∃ final : Logged Bench.Rig, Ending brisk (.error .shifterTimeout) final.events ∧
      (answers final.events).length = 3) ∧
    ∀ patience, run patience (create boundless)
      (Shifter.command boundless.channel 0 (scripted Bench.SettlingShifter.never)) = none := by
  have hvalid : brisk.validate = .ok () := rfl
  have hboundless : boundless.validate = .ok () := rfl
  refine ⟨?_, ?_, ?_⟩
  · obtain ⟨-, hbounded, -⟩ := scan_ends_in_bounded_polls hvalid (scripted 2)
    obtain ⟨verdict, ended, final, hends, hrun⟩ := hbounded (by decide)
    refine ⟨verdict, final, hends, Nat.le_antisymm hends.length_le (Nat.lt_of_not_le ?_)⟩
    intro hle
    have hearly := (hrun 17).2
    rw [if_pos hle] at hearly
    cases hearly
  · obtain ⟨-, hbounded, -⟩ := scan_ends_in_bounded_polls hvalid (scripted 3)
    obtain ⟨verdict, ended, final, hends, hrun⟩ := hbounded (by decide)
    have hlast := (hrun 3).2
    split at hlast
    · cases hlast
      exact ⟨_, hends, rfl⟩
    · cases hlast
  · obtain ⟨-, -, hunbounded⟩ :=
      scan_ends_in_bounded_polls hboundless (scripted Bench.SettlingShifter.never)
    exact hunbounded rfl (busyForEver_of_never rfl _)

end TimingNode.Proofs.ScanPolls
