import TimingNode.Loop.Service
import TimingNode.Plant.Receiver
import TimingNode.Proofs.RecordedWorld
import TimingNode.Proofs.ScanAccuracy
import TimingNode.Proofs.UnitConversion

/-!
A scan that shares its registers with running loops. The scan alone commands setpoints, the loops
alone move the setpoint in force, and the two take turns in any order. The main statement says that
every pulse is taken at the setpoint commanded for it, and that the scan either gives up waiting or
finds the transition within one step.
-/

namespace TimingNode.Proofs.SharedSetpoint

open TimingNode.Loop
open TimingNode.Phase
open TimingNode.Plant
open TimingNode.Scan
open TimingNode.Proofs.CircularPhase
open TimingNode.Proofs.EdgeLocation
open TimingNode.Proofs.RecordedWorld
open TimingNode.Proofs.ScanAccuracy
open TimingNode.Proofs.ScanPulses
open TimingNode.Proofs.ScanTuning
open TimingNode.Proofs.UnitConversion

inductive LoopAction where
  | tag (tag : Tag)
  | halt
  | start
  | init (mode : Mode) (reference : UInt8) (actuator : Nat)
  | restart (mode : Mode) (reference : UInt8) (actuator : Nat)

/-- A rejected reference channel leaves the loop and the registers as they are. -/
def LoopAction.perform : LoopAction → Steering → Steering
  | .tag received, steering => (steering.onTag received).1
  | .halt, steering => steering.halt
  | .start, steering => steering.start
  | .init mode reference actuator, steering =>
      (steering.init mode reference actuator).toOption.getD steering
  | .restart mode reference actuator, steering =>
      match (Service.create steering (.empty 0)).1.restart mode reference actuator with
      | .ok (service, _) => service.toSteering
      | .error _ => steering

theorem target_perform (action : LoopAction) (steering : Steering) :
    (action.perform steering).registers.target = steering.registers.target := by
  cases action with
  | tag received => exact steering.target_onTag received
  | halt => rfl
  | start => rfl
  | init mode reference actuator =>
      cases hinit : steering.init mode reference actuator with
      | error rejection =>
          rw [LoopAction.perform, hinit]
          rfl
      | ok ready =>
          rw [LoopAction.perform, hinit]
          exact Steering.target_init hinit
  | restart mode reference actuator =>
      simp only [LoopAction.perform, Service.restart, Service.create]
      cases hinit : steering.init mode reference actuator with
      | error rejection => rfl
      | ok ready =>
          change ready.registers.target = steering.registers.target
          exact Steering.target_init hinit

/-- A pulse is noted as the setpoint in force, any other ask of a scan is not. -/
def pulseSetpoint : Ask → ShiftedReceiver → Option Int32
  | .pulse _, shared => some shared.shifter.registers.current
  | _, _ => none

/-- A scan on a shared receiver, the loops that publish into its registers, the pulses so far with
the cursor and the setpoint at which each was taken, and the first answer that ended the scan. -/
structure Calibration where
  scan : Scan
  shared : ShiftedReceiver
  loops : List Loop
  pulses : List (Int × Int32)
  answer : Except Failure Progress

inductive Turn where
  | update
  | act (index : Nat) (action : LoopAction)
  | join (tuning : Loop.Config)

namespace Calibration

def begin (config : Scan.Config) (shared : ShiftedReceiver) (loops : List Loop) :
    Except ConfigError Calibration :=
  (Scan.start config shared).map fun (scan, shared) =>
    { scan, shared, loops, pulses := [], answer := .ok .underway }

def registers (calibration : Calibration) : Registers :=
  calibration.shared.shifter.registers

def publish (steering : Steering) (calibration : Calibration) (loops : List Loop) :
    Calibration :=
  { calibration with
    loops
    shared := { calibration.shared with
      shifter := { calibration.shared.shifter with registers := steering.registers } } }

def update (calibration : Calibration) : Calibration :=
  let (answer, scan, recorded) :=
    calibration.scan.step (⟨calibration.shared, []⟩ : Recorded pulseSetpoint)
  { calibration with
    scan
    shared := recorded.world
    pulses := calibration.pulses ++ recorded.events.map (calibration.scan.cursor, ·)
    answer := if calibration.answer matches .ok .underway then answer else calibration.answer }

def turn (calibration : Calibration) : Turn → Calibration
  | .update => calibration.update
  | .act index action =>
      match calibration.loops[index]? with
      | none => calibration
      | some loop =>
          let steering := action.perform ⟨loop, calibration.registers⟩
          calibration.publish steering (calibration.loops.set index steering.loop)
  | .join tuning =>
      match Steering.create tuning calibration.registers with
      | .error _ => calibration
      | .ok steering => calibration.publish steering (calibration.loops ++ [steering.loop])

def play (calibration : Calibration) (turns : List Turn) : Calibration :=
  turns.foldl turn calibration

end Calibration

def setpointAt (tuning : Loop.Config) (phase : Int) : Int32 :=
  Int32.ofInt (tuning.unitsOfPicoseconds phase)

theorem poll_shared (channel : UInt8) (shared : ShiftedReceiver) :
    Shifter.poll channel shared =
      (shared.shifter.registers.isShifting shared.shifter.config channel, shared) := rfl

theorem poll_eq_of_fst {channel : UInt8} {shared : ShiftedReceiver} {busy : Bool}
    (h : (Shifter.poll channel shared).1 = busy) :
    Shifter.poll channel shared = (busy, shared) :=
  Prod.ext h rfl

theorem step_recorded (scan : Scan) (shared : ShiftedReceiver) :
    scan.step (⟨shared, []⟩ : Recorded pulseSetpoint) =
      ((scan.step shared).1, (scan.step shared).2.1, ⟨(scan.step shared).2.2,
        if (Shifter.poll scan.config.channel shared).1 then []
          else [shared.shifter.registers.current]⟩) := by
  have hrecorded : Shifter.poll scan.config.channel (⟨shared, []⟩ : Recorded pulseSetpoint) =
      ((Shifter.poll scan.config.channel shared).1, ⟨shared, []⟩) := rfl
  cases hpoll : (Shifter.poll scan.config.channel shared).1 with
  | true =>
      rw [hpoll] at hrecorded
      rw [step_eq_onBusy (poll_eq_of_fst hpoll), step_eq_onBusy hrecorded]
      rfl
  | false =>
      have hpulse : PulseSource.pulse (⟨shared, []⟩ : Recorded pulseSetpoint) =
          ((PulseSource.pulse shared).1, ⟨shared, [shared.shifter.registers.current]⟩) := rfl
      rw [hpoll] at hrecorded
      rw [step_eq_onPulse (poll_eq_of_fst hpoll) rfl, step_eq_onPulse hrecorded hpulse]
      rcases scan.onPulse (PulseSource.pulse shared).1 with ⟨answer, next, _ | phase⟩ <;> rfl

theorem update_eq (calibration : Calibration) :
    calibration.update =
      { calibration with
        scan := (calibration.scan.step calibration.shared).2.1
        shared := (calibration.scan.step calibration.shared).2.2
        pulses := calibration.pulses ++
          if (Shifter.poll calibration.scan.config.channel calibration.shared).1 then []
          else [(calibration.scan.cursor, calibration.registers.current)]
        answer := if calibration.answer matches .ok .underway then
          (calibration.scan.step calibration.shared).1 else calibration.answer } := by
  rw [Calibration.update, step_recorded]
  dsimp only
  split <;> rfl

/-- What holds of the registers and of the pulses between any two turns, also after the scan has
answered. -/
structure Commanded (config : Scan.Config) (tuning : Loop.Config) (transition : Nat)
    (calibration : Calibration) : Prop where
  config_eq : calibration.scan.config = config
  receiver_eq : calibration.shared.receiver = ⟨tuning, transition⟩
  tuning_eq : calibration.shared.shifter.config = tuning
  target_eq : calibration.registers.target = setpointAt tuning calibration.scan.cursor
  pulses_eq : ∀ pulse ∈ calibration.pulses, pulse.2 = setpointAt tuning pulse.1

theorem Commanded.current_eq {config : Scan.Config} {tuning : Loop.Config} {transition : Nat}
    {calibration : Calibration} (h : Commanded config tuning transition calibration)
    (hchannel : config.channel = tuning.outputChannel)
    (hidle : (Shifter.poll calibration.scan.config.channel calibration.shared).1 = false) :
    calibration.registers.current = setpointAt tuning calibration.scan.cursor := by
  rw [poll_shared, h.config_eq, h.tuning_eq, Registers.isShifting, hchannel,
    beq_self_eq_true, Bool.true_and, Registers.isMoving, bne_eq_false_iff_eq] at hidle
  exact hidle.trans h.target_eq

theorem Commanded.publish {config : Scan.Config} {tuning : Loop.Config} {transition : Nat}
    {calibration : Calibration} (h : Commanded config tuning transition calibration)
    {steering : Steering} (loops : List Loop)
    (htarget : steering.registers.target = calibration.registers.target) :
    Commanded config tuning transition (calibration.publish steering loops) :=
  ⟨h.config_eq, h.receiver_eq, h.tuning_eq, htarget.trans h.target_eq, h.pulses_eq⟩

theorem Commanded.update {config : Scan.Config} {tuning : Loop.Config} {transition : Nat}
    {calibration : Calibration} (h : Commanded config tuning transition calibration)
    (hchannel : config.channel = tuning.outputChannel) :
    Commanded config tuning transition calibration.update := by
  rw [update_eq]
  cases hpoll : (Shifter.poll calibration.scan.config.channel calibration.shared).1 with
  | true =>
      rw [step_eq_onBusy (poll_eq_of_fst hpoll)]
      refine ⟨h.config_eq, h.receiver_eq, h.tuning_eq, h.target_eq, ?_⟩
      simpa using h.pulses_eq
  | false =>
      have hcurrent := h.current_eq hchannel hpoll
      have hpulses : ∀ pulse ∈ calibration.pulses ++
          [(calibration.scan.cursor, calibration.registers.current)],
          pulse.2 = setpointAt tuning pulse.1 := by
        intro pulse hmem
        rcases List.mem_append.mp hmem with hold | hnew
        · exact h.pulses_eq pulse hold
        · rw [List.mem_singleton.mp hnew]
          exact hcurrent
      rcases step_cases_of_idle (poll_eq_of_fst hpoll)
          (rfl : PulseSource.pulse calibration.shared = _) with
        ⟨answer, scan, hstep, hconfig, hcursor⟩ | ⟨scan, hstep, hconfig⟩
      · rw [hstep]
        refine ⟨hconfig.trans h.config_eq, h.receiver_eq, h.tuning_eq, ?_, hpulses⟩
        change calibration.registers.target = setpointAt tuning scan.cursor
        rw [hcursor]
        exact h.target_eq
      · rw [hstep]
        refine ⟨hconfig.trans h.config_eq, h.receiver_eq, h.tuning_eq, ?_, hpulses⟩
        change (calibration.registers.commandPhase calibration.shared.shifter.config
          calibration.scan.config.channel scan.cursor).target = setpointAt tuning scan.cursor
        rw [h.tuning_eq, h.config_eq, Registers.commandPhase, if_pos hchannel]
        rfl

theorem Commanded.turn {config : Scan.Config} {tuning : Loop.Config} {transition : Nat}
    {calibration : Calibration} (h : Commanded config tuning transition calibration)
    (hchannel : config.channel = tuning.outputChannel) (turn : Turn) :
    Commanded config tuning transition (calibration.turn turn) := by
  cases turn with
  | update => exact h.update hchannel
  | act index action =>
      rw [Calibration.turn]
      split
      · exact h
      · exact h.publish _ (target_perform action _)
  | join other =>
      rw [Calibration.turn]
      split
      · exact h
      · rename_i steering hcreate
        refine h.publish _ ?_
        rw [Steering.create] at hcreate
        split at hcreate
        · cases hcreate
        · cases hcreate
          rfl

/-- Tunings of a scan and of the loop that is its shifter that fit each other and the receiver. -/
structure Compatible (config : Scan.Config) (tuning : Loop.Config) (transition : Nat) : Prop where
  valid : config.validate = .ok ()
  tuning_valid : tuning.validate = .ok ()
  channel_eq : config.channel = tuning.outputChannel
  period_eq : config.period = tuning.period
  period_le : tuning.period.toNat ≤ tuning.modulus.toNat
  transition_lt : transition < config.period.toNat
  run_le : 2 * ((config.threshold.toNat + 1) * config.step.toNat) ≤ config.period.toNat

def flips (config : Scan.Config) (tuning : Loop.Config) (transition pulse : Nat) : Bool :=
  Receiver.flipAt ⟨tuning, transition⟩ (setpointAt tuning (cursorAt config pulse))

theorem flipAt_eq_level (tuning : Loop.Config) (transition : Nat) (setpoint : Int32)
    (hpos : 0 < tuning.period.toNat) :
    Receiver.flipAt ⟨tuning, transition⟩ setpoint =
      level transition (tuning.period.toNat / 2) tuning.period.toNat
        (tuning.picosecondsOfUnits setpoint.toInt) := by
  rw [Receiver.flipAt, level, ← cast_fold _ hpos]
  exact decide_eq_decide.mpr Int.ofNat_lt.symm

/-- The answers that leave open or report a transition at most one step before the true one. -/
def Accurate (config : Scan.Config) (transition : Nat) : Except Failure Progress → Prop
  | .ok .underway | .error .shifterTimeout => True
  | .error .rangeExhausted => False
  | .ok (.complete found) =>
      found.picoseconds < config.period.toNat ∧
        fold (transition - found.picoseconds) config.period.toNat ≤ config.step.toNat

theorem Compatible.accurate_verdict {config : Scan.Config} {tuning : Loop.Config}
    {transition : Nat} (h : Compatible config tuning transition) :
    Accurate config transition
      ((verdictAfter config (flips config tuning transition) (config.steps + 1)).map
        .complete) := by
  have husable := (validate_eq_ok_iff config).mp h.valid
  have hconversion := usable_of_validate h.tuning_valid
  have hperiod : config.period.toNat = tuning.period.toNat := by rw [h.period_eq]
  have hstep := husable.step_pos
  have hstepLt := husable.step_lt
  have hrunLe := h.run_le
  rw [Nat.add_one_mul config.threshold.toNat] at hrunLe
  have hstepLe := husable.step_le_runLength
  have hrunEq : runLength config = config.threshold.toNat * config.step.toNat := rfl
  obtain ⟨found, hverdict, hfoundLt, lag, cycles, hlag, hlow, hhigh⟩ :=
    exists_verdictAfter husable (flips config tuning transition) transition
      (grid_roundTrip hconversion h.period_le config.step.toNat) (by omega) (by omega) (by
        intro i hi
        have hlt := (lt_steps_iff husable i).mp hi
        rw [husable.range_eq] at hlt
        rw [flips, flipAt_eq_level _ _ _ hconversion.period_pos, setpointAt,
          cursorAt_of_lt_steps husable hi,
          picosecondsOfUnits_unitsOfPicoseconds hconversion h.period_le (by omega), hperiod])
  rw [hverdict]
  refine ⟨hfoundLt, ?_⟩
  have hfold := fold_of_add_mul cycles hlag (by omega) (by omega)
  omega

theorem map_complete_ne_underway (verdict : Except Failure TransitionPhase) :
    verdict.map Progress.complete ≠ .ok .underway := by
  intro hunderway
  cases verdict with
  | error failure => cases hunderway
  | ok found => cases hunderway

/-- What holds of the scan between any two turns up to its first answer. -/
structure OnCourse (config : Scan.Config) (tuning : Loop.Config) (transition : Nat)
    (calibration : Calibration) : Prop where
  accurate : Accurate config transition calibration.answer
  pulses_le : calibration.answer = .ok .underway → calibration.pulses.length ≤ config.steps
  sampled : calibration.answer = .ok .underway →
    Sampled config (flips config tuning transition) calibration.pulses.length calibration.scan

theorem OnCourse.update {config : Scan.Config} {tuning : Loop.Config} {transition : Nat}
    {calibration : Calibration} (h : OnCourse config tuning transition calibration)
    (hcompatible : Compatible config tuning transition)
    (hcommanded : Commanded config tuning transition calibration) :
    OnCourse config tuning transition calibration.update := by
  have husable := (validate_eq_ok_iff config).mp hcompatible.valid
  rw [update_eq]
  by_cases hanswer : calibration.answer = .ok .underway
  · have hcount := h.pulses_le hanswer
    have hscan := h.sampled hanswer
    simp only [hanswer, if_true]
    cases hpoll : (Shifter.poll calibration.scan.config.channel calibration.shared).1 with
    | true =>
        rw [step_eq_onBusy (poll_eq_of_fst hpoll), if_pos rfl, List.append_nil]
        rcases onBusy_answer calibration.scan with hbusyAnswer | hbusyAnswer
        · rw [hbusyAnswer]
          exact ⟨trivial, fun _ => hcount, fun _ => hscan.onBusy⟩
        · rw [hbusyAnswer]
          refine ⟨trivial, ?_, ?_⟩
          · intro hunderway
            cases hunderway
          · intro hunderway
            cases hunderway
    | false =>
        have hcurrent := hcommanded.current_eq hcompatible.channel_eq hpoll
        rw [hcommanded.config_eq] at hpoll
        have hidle := poll_eq_of_fst hpoll
        have hpulse : PulseSource.pulse calibration.shared =
            (flips config tuning transition calibration.pulses.length, calibration.shared) := by
          change (calibration.shared.receiver.flipAt calibration.registers.current, _) = _
          rw [hcurrent, hcommanded.receiver_eq, hscan.cursor_eq]
          rfl
        rw [if_neg Bool.false_ne_true]
        by_cases hlast : calibration.pulses.length < config.steps
        · obtain ⟨scan, hstep, hsampled, -⟩ := step_of_pulse hscan husable hlast hidle hpulse
          rw [hstep]
          refine ⟨trivial, fun _ => ?_, fun _ => ?_⟩
          · rw [List.length_append]
            exact hlast
          · rw [List.length_append]
            exact hsampled
        · have hstep := step_of_last_pulse hscan husable (Nat.le_of_not_lt hlast) hidle hpulse
          rw [show calibration.pulses.length = config.steps by omega] at hstep
          rw [hstep]
          exact ⟨hcompatible.accurate_verdict,
            fun hunderway => absurd hunderway (map_complete_ne_underway _),
            fun hunderway => absurd hunderway (map_complete_ne_underway _)⟩
  · have hsettled : (calibration.answer matches .ok .underway) = false := by
      split
      · rename_i heq
        exact absurd heq hanswer
      · rfl
    rw [hsettled, if_neg Bool.false_ne_true]
    exact ⟨h.accurate, fun hunderway => absurd hunderway hanswer,
      fun hunderway => absurd hunderway hanswer⟩

theorem OnCourse.turn {config : Scan.Config} {tuning : Loop.Config} {transition : Nat}
    {calibration : Calibration} (h : OnCourse config tuning transition calibration)
    (hcompatible : Compatible config tuning transition)
    (hcommanded : Commanded config tuning transition calibration) (turn : Turn) :
    OnCourse config tuning transition (calibration.turn turn) := by
  cases turn with
  | update => exact h.update hcompatible hcommanded
  | act index action =>
      rw [Calibration.turn]
      split
      · exact h
      · exact ⟨h.accurate, h.pulses_le, h.sampled⟩
  | join other =>
      rw [Calibration.turn]
      split
      · exact h
      · exact ⟨h.accurate, h.pulses_le, h.sampled⟩

theorem commanded_onCourse_play {config : Scan.Config} {tuning : Loop.Config} {transition : Nat}
    (hcompatible : Compatible config tuning transition) (turns : List Turn) :
    ∀ {calibration : Calibration}, Commanded config tuning transition calibration →
      OnCourse config tuning transition calibration →
        Commanded config tuning transition (calibration.play turns) ∧
          OnCourse config tuning transition (calibration.play turns) := by
  induction turns with
  | nil =>
      intro calibration hcommanded hcourse
      exact ⟨hcommanded, hcourse⟩
  | cons turn turns ih =>
      intro calibration hcommanded hcourse
      rw [Calibration.play, List.foldl_cons, ← Calibration.play]
      exact ih (hcommanded.turn hcompatible.channel_eq turn)
        (hcourse.turn hcompatible hcommanded turn)

theorem exists_begin {config : Scan.Config} {tuning : Loop.Config} {transition : Nat}
    (hcompatible : Compatible config tuning transition) (registers : Registers)
    (loops : List Loop) :
    ∃ begun, Calibration.begin config ⟨⟨tuning, transition⟩, ⟨tuning, registers⟩⟩ loops =
        .ok begun ∧
      Commanded config tuning transition begun ∧ OnCourse config tuning transition begun := by
  refine ⟨⟨Scan.create config, Shifter.command config.channel 0 ⟨⟨tuning, transition⟩,
    ⟨tuning, registers⟩⟩, loops, [], .ok .underway⟩, ?_, ?_, ?_⟩
  · rw [Calibration.begin, Scan.start, hcompatible.valid]
    rfl
  · refine ⟨rfl, rfl, rfl, ?_, ?_⟩
    · change (registers.commandPhase tuning config.channel 0).target = setpointAt tuning 0
      rw [Registers.commandPhase, if_pos hcompatible.channel_eq]
      rfl
    · intro pulse hmem
      cases hmem
  · exact ⟨trivial, fun _ => Nat.zero_le _, fun _ => sampled_create config _⟩

/-- Whatever the loops do, every pulse is taken at the setpoint commanded for it, and the first
answer that ends the scan is a timeout or a phase at most one step before the transition. No scan
goes on beyond its number of pulses. -/
theorem pulses_and_answer_of_shared_setpoint {config : Scan.Config} {tuning : Loop.Config}
    {transition : Nat} (hcompatible : Compatible config tuning transition) (registers : Registers)
    (loops : List Loop) (turns : List Turn) :
    ∃ begun, Calibration.begin config ⟨⟨tuning, transition⟩, ⟨tuning, registers⟩⟩ loops =
        .ok begun ∧
      (∀ pulse ∈ (begun.play turns).pulses, pulse.2 = setpointAt tuning pulse.1) ∧
      Accurate config transition (begun.play turns).answer ∧
      ((begun.play turns).answer = .ok .underway →
        (begun.play turns).pulses.length ≤ config.steps) := by
  obtain ⟨begun, hbegin, hcommanded, hcourse⟩ := exists_begin hcompatible registers loops
  obtain ⟨hplayed, hanswered⟩ := commanded_onCourse_play hcompatible turns hcommanded hcourse
  exact ⟨begun, hbegin, hplayed.pulses_eq, hanswered.accurate, hanswered.pulses_le⟩

def coarse : Scan.Config :=
  { period := 8, step := 2, threshold := 1 }

/-- Two tag units make a picosecond, and the setpoint moves by as much at a reference tag. -/
def gentle : Loop.Config :=
  { period := 8, modulus := 16, shiftStep := 2 }

/-- Two reference tags take the setpoint to the next phase, where it is sampled. An update on the
way finds the shifter busy. -/
def climb : List Turn :=
  [.act 0 (.tag ⟨1, 5⟩), .update, .act 0 (.tag ⟨0, 3⟩), .act 0 (.tag ⟨1, 9⟩), .update]

/-- The setpoint is left half way between the third and the fourth phase. -/
def approach : List Turn :=
  [.update, .act 0 .start, .act 0 (.tag ⟨1, 5⟩), .update] ++ climb ++ climb ++
    [.act 0 (.tag ⟨1, 12⟩)]

def reset : Turn :=
  .act 0 (.init .grandmaster 1 40)

/-- The loop walks up from zero again. Another one that joins later throws the setpoint back once
more and then moves it in its turn. -/
def recovery : List Turn :=
  [.update, .act 0 .start] ++ List.replicate 5 (.act 0 (.tag ⟨1, 2⟩)) ++
    [.update, .act 0 (.tag ⟨1, 3⟩), .update, .join gentle, .act 1 (.init .slave 2 12),
      .act 1 .start, .act 1 (.tag ⟨2, 7⟩), .update] ++ climb ++ climb ++ climb ++ climb

theorem pulses_and_answer_of_shared_setpoint_disturbed :
    Compatible coarse gentle 3 ∧
      ∃ begun, Calibration.begin coarse ⟨⟨gentle, 3⟩, ⟨gentle, ⟨.fresh 0 0, 0, 3⟩⟩⟩
          [.stopped gentle .slave (some 1) 12] = .ok begun ∧
        (begun.play approach).registers.current = 10 ∧
        (begun.play (approach ++ [reset])).registers.current = 0 ∧
        (begun.play (approach ++ reset :: recovery)).pulses =
          [(0, 0), (2, 4), (4, 8), (6, 12), (8, 16), (10, 20), (12, 24), (14, 28)] ∧
        (begun.play (approach ++ reset :: recovery)).answer = .ok (.complete ⟨2, by decide⟩) ∧
        (∀ pulse ∈ (begun.play (approach ++ reset :: recovery)).pulses,
          pulse.2 = setpointAt gentle pulse.1) ∧
        Accurate coarse 3 (begun.play (approach ++ reset :: recovery)).answer ∧
        ((begun.play (approach ++ reset :: recovery)).answer = .ok .underway →
          (begun.play (approach ++ reset :: recovery)).pulses.length ≤ coarse.steps) := by
  have hcompatible : Compatible coarse gentle 3 :=
    ⟨rfl, rfl, rfl, rfl, by decide, by decide, by decide⟩
  obtain ⟨begun, hbegin, hpulses, hanswer⟩ := pulses_and_answer_of_shared_setpoint
    hcompatible ⟨.fresh 0 0, 0, 3⟩ [.stopped gentle .slave (some 1) 12]
    (approach ++ reset :: recovery)
  refine ⟨hcompatible, begun, hbegin, ?_, ?_, ?_, ?_, hpulses, hanswer⟩
  all_goals cases hbegin
  · rfl
  · rfl
  · decide +kernel
  · decide +kernel

end TimingNode.Proofs.SharedSetpoint
