import TimingNode.Proofs.CommandConduct

namespace TimingNode.Proofs.CalibrationCommand

open TimingNode.Calibrator
open TimingNode.Shell
open TimingNode.Shell.Calibration
open TimingNode.Proofs.CalibrationPrograms
open TimingNode.Proofs.CarriedPrograms
open TimingNode.Proofs.CommandConduct
open TimingNode.Proofs.CommandLog
open TimingNode.Proofs.RecordedScan
open TimingNode.Proofs.RecordedWorld
open TimingNode.Proofs.RecordedWorld.Ask
open TimingNode.Proofs.ScanResult
open TimingNode.Proofs.StoredCalibration

variable {σ ε ε' α β : Type} [Link σ] [Pll σ] [Delay σ] [Console σ] [Shifter σ] [PulseSource σ]
  [TransitionStore σ] [CorrectionSink σ]

section Steps

/-- A program comes, after some asks, to go on as another one. -/
structure Comes (program : CalibrationM (Logged σ) ε α) (before : Calibrator (Logged σ))
    (asks : List Ask) (next : CalibrationM (Logged σ) ε α) (after : Calibrator (Logged σ)) :
    Prop where
  run_eq : program.run.run before = next.run.run after
  extended : Extends before after asks

variable {before between after : Calibrator (Logged σ)} {asks later : List Ask}

theorem Comes.trans {program next rest : CalibrationM (Logged σ) ε α}
    (h : Comes program before asks next between) (hlater : Comes next between later rest after) :
    Comes program before (asks ++ later) rest after where
  run_eq := h.run_eq.trans hlater.run_eq
  extended := h.extended.trans hlater.extended

theorem Comes.bind {program program' : CalibrationM (Logged σ) ε β}
    (h : Comes program before asks program' after) (next : β → CalibrationM (Logged σ) ε α) :
    Comes (program >>= next) before asks (program' >>= next) after where
  run_eq := by
    change (program.run.run before).bind _ = (program'.run.run after).bind _
    rw [h.run_eq]
  extended := h.extended

theorem Comes.adapt {program program' : CalibrationM (Logged σ) ε α}
    (h : Comes program before asks program' after) (wrap : ε → ε') :
    Comes (ExceptT.adapt wrap program) before asks (ExceptT.adapt wrap program') after where
  run_eq := by
    change (program.run.run before).bind _ = (program'.run.run after).bind _
    rw [h.run_eq]
  extended := h.extended

theorem comes_bind {program : CalibrationM (Logged σ) ε β}
    {next : β → CalibrationM (Logged σ) ε α} {value : β}
    (hyields : Yields program before (.ok value) after) (h : Extends before after asks) :
    Comes (program >>= next) before asks (next value) after where
  run_eq := by
    change (program.run.run before).bind _ = _
    rw [hyields]
    rfl
  extended := h

theorem comes_act {action : Logged σ → β × Logged σ} {answer : β} {world : Logged σ}
    (next : β → CalibrationM (Logged σ) ε α) (before : Calibrator (Logged σ))
    (haction : action before.world = (answer, world)) (h : Asked before.world world asks)
    (hpushes : pushes asks = []) :
    Comes (act action >>= next) before asks (next answer) { before with world } :=
  comes_bind (yields_act haction) (extends_of_asked h hpushes)

theorem comes_start (next : Unit → CalibrationM (Logged σ) ε α) (before : Calibrator (Logged σ)) :
    Comes (act (fun world => ((), Pll.start world)) >>= next) before [.start] (next ())
      { before with world := Pll.start before.world } :=
  comes_act next before rfl (asked_of_spares fun _ _ hspares => hspares _) rfl

theorem awaitReady_asked {poll : Logged σ → Bool × Logged σ} {ask : Bool → Ask}
    (hpoll : ∀ logged, Asked logged (poll logged).2 [ask (poll logged).1]) (interval : UInt32)
    (polls : Nat) (logged : Logged σ) :
    ∃ wait : Wait polls, (awaitReady interval poll polls logged).1 = wait.ready ∧
      Asked logged (awaitReady interval poll polls logged).2
        (waiting interval ask wait.vain wait.ready) := by
  induction polls generalizing logged with
  | zero => exact ⟨⟨0, (poll logged).1, Nat.le_refl 0, fun _ => rfl⟩, rfl, hpoll logged⟩
  | succ polls ih =>
      have hpolled := hpoll logged
      rw [awaitReady]
      generalize poll logged = polled at hpolled ⊢
      rcases polled with ⟨_ | _, polled⟩
      · obtain ⟨wait, hready, hasked⟩ := ih (Delay.wait interval polled)
        refine ⟨⟨wait.vain + 1, wait.ready, Nat.succ_le_succ wait.vain_le, ?_⟩, hready, ?_⟩
        · exact fun h => congrArg (· + 1) (wait.vain_eq h)
        · exact (hpolled.trans (asked_wait interval polled)).trans hasked
      · exact ⟨⟨0, true, Nat.zero_le _, by simp⟩, rfl, hpolled⟩

variable {accepts : σ → Prop} (accepting : Accepting accepts)
include accepting

theorem comes_say (text : String) (next : Unit → CalibrationM (Logged σ) Shell.Error α)
    {before : Calibrator (Logged σ)} (haccepts : accepts before.world.world) :
    ∃ after, accepts after.world.world ∧
      Comes (say text >>= next) before [.say (text ++ "\n")] (next ()) after := by
  have hwrite : Console.write (text ++ "\n") before.world =
      (true, (Console.write (text ++ "\n") before.world).2) :=
    Prod.ext (accepting.write _ _ haccepts) rfl
  have hasked : Asked before.world (Console.write (text ++ "\n") before.world).2
      [.say (text ++ "\n")] := asked_of_spares fun _ _ hspares => hspares _
  have hextends := extends_of_asked hasked rfl
  exact ⟨_, accepting.after hextends haccepts, comes_bind (yields_say hwrite) hextends⟩

theorem comes_unless (ready : Bool) (text : String)
    (next : Unit → CalibrationM (Logged σ) Shell.Error α) {before : Calibrator (Logged σ)}
    (haccepts : accepts before.world.world) :
    ∃ after, accepts after.world.world ∧
      Comes (if ready = true then next () else say text >>= next) before
        (if ready then [] else [.say (text ++ "\n")]) (next ()) after := by
  cases ready with
  | false => exact comes_say accepting text next haccepts
  | true => exact ⟨before, haccepts, rfl, .refl before⟩

theorem comes_wait {poll : Logged σ → Bool × Logged σ} {ask : Bool → Ask}
    (hpoll : ∀ logged, Asked logged (poll logged).2 [ask (poll logged).1])
    (interval : UInt32) (hpushes : ∀ vain ready, pushes (waiting interval ask vain ready) = [])
    (polls : Nat) (line timeout : String)
    (next : Unit → CalibrationM (Logged σ) Shell.Error α) {before : Calibrator (Logged σ)}
    (haccepts : accepts before.world.world) :
    ∃ (wait : Wait polls) (after : Calibrator (Logged σ)), accepts after.world.world ∧
      Comes
        (do
          say line
          unless ← act (awaitReady interval poll polls) do say timeout
          next ())
        before (wait.asks interval ask line timeout) (next ()) after := by
  obtain ⟨told, htold, hsay⟩ := comes_say accepting line
    (fun _ => do
      unless ← act (awaitReady interval poll polls) do say timeout
      next ()) haccepts
  obtain ⟨wait, hready, hasked⟩ := awaitReady_asked hpoll interval polls told.world
  have hextends := extends_of_asked hasked (hpushes wait.vain wait.ready)
  obtain ⟨after, hafter, hunless⟩ :=
    comes_unless accepting wait.ready timeout next (accepting.after hextends htold)
  refine ⟨wait, after, hafter, (hsay.trans ?_).trans hunless⟩
  exact comes_bind (yields_act (Prod.ext hready rfl)) hextends

end Steps

section Runs

variable {before between after : Calibrator (Logged σ)} {asks later : List Ask}

/-- A program ends, or its scan is endless. Its asks until then, or until any time in the endless
scan, go with its result, or with none. -/
def Performs (program : CalibrationM (Logged σ) ε α) (before : Calibrator (Logged σ))
    (talk : Option (Except ε α) → List Ask → Prop) : Prop :=
  (∃ result after asks, Yields program before result after ∧ Extends before after asks ∧
      talk (some result) asks) ∨
    program.run.run before = none ∧ ∃ (scanning : Calibrator (Logged σ)) (scan : Scan)
      (started : Logged σ),
      Scan.start scanning.config scanning.world = .ok (scan, started) ∧
      Scan.run scanning.patience scan started = none ∧
      ∀ count, ∃ asks, Extends before { scanning with world := (runFor count scan started).2.2 }
        asks ∧ talk none asks

theorem Performs.mono {program : CalibrationM (Logged σ) ε α}
    {talk talk' : Option (Except ε α) → List Ask → Prop} (h : Performs program before talk)
    (htalk : ∀ result asks, talk result asks → talk' result asks) :
    Performs program before talk' := by
  rcases h with ⟨result, after, asks, hyields, hextends, hasks⟩ |
    ⟨hnone, scanning, scan, started, hstart, hrun, hcount⟩
  · exact Or.inl ⟨result, after, asks, hyields, hextends, htalk _ _ hasks⟩
  · refine Or.inr ⟨hnone, scanning, scan, started, hstart, hrun, fun count => ?_⟩
    obtain ⟨asks, hextends, hasks⟩ := hcount count
    exact ⟨asks, hextends, htalk _ _ hasks⟩

theorem Comes.performs {program next : CalibrationM (Logged σ) ε α}
    {talk : Option (Except ε α) → List Ask → Prop} (h : Comes program before asks next between)
    (hnext : Performs next between fun result later => talk result (asks ++ later)) :
    Performs program before talk := by
  rcases hnext with ⟨result, after, later, hyields, hextends, hlater⟩ |
    ⟨hnone, scanning, scan, started, hstart, hrun, hcount⟩
  · exact Or.inl ⟨result, after, _, h.run_eq.trans hyields, h.extended.trans hextends, hlater⟩
  · refine Or.inr ⟨h.run_eq.trans hnone, scanning, scan, started, hstart, hrun, fun count => ?_⟩
    obtain ⟨later, hextends, hlater⟩ := hcount count
    exact ⟨_, h.extended.trans hextends, hlater⟩

def conclude (phase : TransitionPhase) : CalibrationM (Logged σ) Shell.Error TransitionPhase := do
  say s!"t24p value is {phase.picoseconds} ps, storing to EEPROM"
  ExceptT.adapt .calibration (keep phase)
  return phase

def lockAwaited : CalibrationM (Logged σ) Shell.Error TransitionPhase := do
  say "Calibrating RX timestamper..."
  ExceptT.adapt .calibration measureLocked >>= conclude

def linkAwaited (limits : Limits) : CalibrationM (Logged σ) Shell.Error TransitionPhase := do
  act fun world => ((), Pll.start world)
  say "Locking PLL..."
  unless ← act (awaitReady limits.pollInterval Pll.poll limits.lockPolls.toNat) do
    say "lock timeout"
  lockAwaited

theorem retrieve_asked (before : Calibrator (Logged σ)) :
    (∃ phase after, (TransitionStore.read before.world.world).1 = .ok (some phase) ∧
        Yields retrieve before (.ok (some phase)) after ∧
        Extends before after ([.read (.ok (some phase))] ++ [.push phase])) ∨
      ∃ answer result after, (TransitionStore.read before.world.world).1 = answer ∧
        (∀ phase, answer ≠ .ok (some phase)) ∧ (∀ phase, result ≠ .ok (some phase)) ∧
        Yields retrieve before result after ∧ Extends before after [.read answer] := by
  have hasked := asked_read before.world
  have hanswer : (TransitionStore.read before.world.world).1 =
    (TransitionStore.read before.world).1 := rfl
  rcases hread : TransitionStore.read before.world with ⟨error | _ | phase, world⟩
  all_goals
    rw [hread] at hasked hanswer
    have hextends := extends_of_asked hasked rfl
  · exact Or.inr ⟨_, _, _, hanswer, by simp, by simp, yields_retrieve_error hread, hextends⟩
  · exact Or.inr ⟨_, _, _, hanswer, by simp, by simp, yields_retrieve_empty hread, hextends⟩
  · exact Or.inl ⟨phase, _, hanswer, yields_retrieve hread,
      hextends.trans (extends_activated phase _)⟩

variable {accepts : σ → Prop} (accepting : Accepting accepts)
include accepting

theorem comes_prepared (limits : Limits) (haccepts : accepts before.world.world) :
    ∃ (preparation : Preparation limits) (after : Calibrator (Logged σ)),
      accepts after.world.world ∧
      Comes (measureAndKeep limits) before preparation.asks
        (ExceptT.adapt .calibration measureLocked >>= conclude) after := by
  obtain ⟨link, up, hup, hlink⟩ := comes_wait accepting asked_link limits.pollInterval
    (fun _ _ => (filterMap_waiting ..).trans (by simp)) limits.linkPolls.toNat
    "Waiting for link..." "link timeout" (fun _ => linkAwaited limits) haccepts
  have hstart : Comes (linkAwaited limits) up [.start] _ _ := comes_start _ up
  obtain ⟨lock, locked, hlocked, hlock⟩ := comes_wait accepting asked_lock limits.pollInterval
    (fun _ _ => (filterMap_waiting ..).trans (by simp)) limits.lockPolls.toNat
    "Locking PLL..." "lock timeout" (fun _ => lockAwaited) (accepting.after hstart.extended hup)
  obtain ⟨after, hafter, hsay⟩ := comes_say accepting "Calibrating RX timestamper..."
    (fun _ => ExceptT.adapt .calibration measureLocked >>= conclude) hlocked
  exact ⟨⟨link, lock⟩, after, hafter, ((hlink.trans hstart).trans hlock).trans hsay⟩

theorem yields_conclude (phase : TransitionPhase) (haccepts : accepts before.world.world) :
    ∃ answer after, Yields (conclude phase) before
        ((answer.mapError fun _ => .calibration .storeUnavailable).map fun _ => phase) after ∧
      Extends before after [.say (measuredLine phase), .write phase answer] := by
  obtain ⟨told, -, hsay⟩ := comes_say accepting _
    (fun _ => ExceptT.adapt .calibration (keep phase) >>= fun _ => pure phase) haccepts
  have hasked := asked_write phase told.world
  rcases hwrite : TransitionStore.write phase told.world with ⟨answer, written⟩
  rw [hwrite] at hasked
  have hkeep := yields_adapt Shell.Error.calibration (yields_keep hwrite)
  refine ⟨answer, _, hsay.run_eq.trans ?_, hsay.extended.trans (extends_of_asked hasked rfl)⟩
  rcases answer with error | _
  · exact yields_bind_error hkeep
  · exact yields_bind hkeep rfl

theorem performs_measure (haccepts : accepts before.world.world) :
    Performs (ExceptT.adapt .calibration Calibrator.measure >>= conclude) before
      fun result asks => ∃ scan completion, (∀ ask ∈ scan, ask.measures) ∧
        Completion result completion ∧ asks = scan ++ completion := by
  have hmeasure := run_measure before
  rcases hstart : Scan.start before.config before.world with cause | ⟨scan, started⟩
  all_goals
    rw [hstart] at hmeasure
    dsimp only at hmeasure
  · refine Or.inl ⟨_, _, _, ?_, .refl before, [], [], nofun, .rejected cause, rfl⟩
    exact yields_bind_error (yields_adapt _ hmeasure)
  have hscanned {ended : Logged σ} (h : Scanned started ended) :
      ∃ asks, (∀ ask ∈ asks, ask.measures) ∧
        Extends before { before with world := ended } asks := by
    obtain ⟨asks, hasks, hasked⟩ := keeps_scanned.trans (keeps_scanned.start hstart) h
    exact ⟨asks, hasks, extends_of_asked hasked (pushes_of_measures hasks)⟩
  rcases hrun : Scan.run before.patience scan started with _ | ⟨failure | phase, scan', scanned⟩
  all_goals rw [hrun] at hmeasure
  · refine Or.inr ⟨?_, before, scan, started, hstart, hrun, fun count => ?_⟩
    · exact run_bind_eq_none (run_adapt_eq_none hmeasure _) _
    · -- Each step of an endless scan adds to the log what a scan may ask.
      obtain ⟨asks, hasks, hextends⟩ := hscanned (keeps_runFor keeps_scanned count scan started)
      exact ⟨asks, hextends, asks, [], hasks, .endless, (List.append_nil asks).symm⟩
  · obtain ⟨asks, hasks, hextends⟩ := hscanned (keeps_scanned.run hrun)
    refine Or.inl ⟨_, _, asks, ?_, hextends, asks, [], hasks, .failed failure,
      (List.append_nil asks).symm⟩
    exact yields_bind_error (yields_adapt _ hmeasure)
  · obtain ⟨asks, hasks, hextends⟩ := hscanned (keeps_scanned.run hrun)
    have hactivated := hextends.trans
      (extends_activated phase { before with world := scanned })
    obtain ⟨answer, after, hconclude, hconcluded⟩ :=
      yields_conclude accepting phase (accepting.after hactivated haccepts)
    refine Or.inl ⟨_, after, _, ?_, hactivated.trans hconcluded, asks, _, hasks,
      .measured phase answer, List.append_assoc ..⟩
    exact yields_bind (yields_adapt _ hmeasure) hconclude

theorem performs_measureLocked (haccepts : accepts before.world.world) :
    Performs (ExceptT.adapt .calibration measureLocked >>= conclude) before Ending := by
  have hpolled := asked_link before.world
  rcases hlink : Link.poll before.world with ⟨_ | _, polled⟩
  all_goals rw [hlink] at hpolled
  · refine Or.inl ⟨_, _, _, ?_, extends_of_asked hpolled rfl, .linkDown⟩
    exact yields_bind_error (yields_adapt _ (yields_linkDown hlink))
  have hlocked := asked_lock polled
  rcases hlock : Pll.poll polled with ⟨_ | _, locked⟩
  all_goals rw [hlock] at hlocked
  · refine Or.inl ⟨_, _, _, ?_, extends_of_asked (hpolled.trans hlocked) rfl, .pllUnlocked⟩
    exact yields_bind_error (yields_adapt _ (yields_pllUnlocked hlink hlock))
  · have hcleared : Comes measureLocked before ([.link true] ++ [.lock true]) Calibrator.measure
        { before with world := locked } := by
      refine Comes.trans (comes_act _ before hlink hpolled rfl) ?_
      exact comes_act _ { before with world := polled } hlock hlocked rfl
    have hmeasure := performs_measure accepting (accepting.after hcleared.extended haccepts)
    refine ((hcleared.adapt _).bind _).performs (hmeasure.mono ?_)
    rintro result _ ⟨scan, completion, hscan, hcompletion, rfl⟩
    rw [← List.append_assoc]
    exact .cleared hscan hcompletion

theorem performs_measureAndKeep {limits : Limits} {arguments : List String} {opening : List Ask}
    (hopening : Opening arguments opening)
    {program : CalibrationM (Logged σ) Shell.Error TransitionPhase}
    (h : Comes program before opening (measureAndKeep limits) between)
    (haccepts : accepts between.world.world) :
    Performs program before (Conversation limits arguments) := by
  obtain ⟨preparation, after, hafter, hprepared⟩ := comes_prepared accepting limits haccepts
  have hmeasure := performs_measureLocked accepting hafter
  refine (h.trans hprepared).performs (hmeasure.mono fun _ _ hending => ?_)
  exact .measured hopening preparation hending

theorem yields_run_of_stored (limits : Limits) {phase : TransitionPhase}
    (hretrieve : Yields retrieve before (.ok (some phase)) between)
    (hextends : Extends before between ([.read (.ok (some phase))] ++ [.push phase]))
    (haccepts : accepts before.world.world) :
    ∃ after, Yields (run limits []) before (.ok phase) after ∧
      Extends before after [.read (.ok (some phase)), .push phase, .say (foundLine phase)] := by
  obtain ⟨after, -, hsay⟩ := comes_say accepting
    s!"Found phase transition in EEPROM: {phase.picoseconds}ps" (fun _ => pure phase)
    (accepting.after hextends haccepts)
  exact ⟨after, yields_bind (yields_attempt hretrieve) hsay.run_eq, hextends.trans hsay.extended⟩

omit accepting in
theorem yields_run_of_unknown (limits : Limits) {arguments : List String}
    (h : Unknown arguments) (before : Calibrator (Logged σ)) :
    Yields (run limits arguments) before (.error .invalidArgument) before := by
  rcases arguments with _ | ⟨word, _ | ⟨second, rest⟩⟩
  · cases h
  · rw [run, if_neg h]
    rfl
  · rfl

theorem performs_run (limits : Limits) (arguments : List String)
    (haccepts : accepts before.world.world) :
    Performs (run limits arguments) before (Conversation limits arguments) := by
  rcases arguments with _ | ⟨word, _ | ⟨second, rest⟩⟩
  · rcases retrieve_asked before with ⟨phase, between, -, hretrieve, hextends⟩ |
      ⟨answer, result, between, -, hanswer, hresult, hretrieve, hextends⟩
    · obtain ⟨after, hrun, hextends⟩ :=
        yields_run_of_stored accepting limits hretrieve hextends haccepts
      exact Or.inl ⟨_, after, _, hrun, hextends, .stored phase⟩
    · obtain ⟨after, hafter, hsay⟩ := comes_say accepting "Measuring t2/t4 phase transition..."
        (fun _ => measureAndKeep limits) (accepting.after hextends haccepts)
      have hopened : Comes (run limits []) before
          ([.read answer] ++ [.say ("Measuring t2/t4 phase transition..." ++ "\n")])
          (measureAndKeep limits) after := by
        refine (comes_bind (yields_attempt hretrieve) hextends).trans ?_
        rcases result with error | _ | phase
        · exact hsay
        · exact hsay
        · exact absurd rfl (hresult phase)
      exact performs_measureAndKeep accepting (.unstored hanswer) hopened hafter
  · by_cases hword : isKeyword "force" word
    · refine performs_measureAndKeep accepting (.forced hword) ⟨?_, .refl before⟩ haccepts
      rw [run, if_pos hword]
    · have hunknown : Unknown [word] := hword
      exact Or.inl ⟨_, before, [], yields_run_of_unknown limits hunknown before, .refl before,
        .unknown hunknown⟩
  · have hunknown : Unknown (word :: second :: rest) := trivial
    exact Or.inl ⟨_, before, [], yields_run_of_unknown limits hunknown before, .refl before,
      .unknown hunknown⟩

end Runs

/-- One run of the command with any limits, any arguments and any calibrator, whatever the link, the
PLL, the store and the devices of the scan answer, as long as the console takes every text. The run
ends with a result, or its scan is endless and it has none; its asks keep to its conduct by then,
and at any time of an endless scan. Where it is refused the measurement, the active phase is as it
was, and so is all that only a write or a push changes. A stored phase, when there is no argument,
is made active and reported, and nothing else is asked; other arguments than `force` are an error,
and nothing is asked at all. The log by which this is told makes no difference to the run. -/
theorem run_keeps_conduct {accepts : σ → Prop} (accepting : Accepting accepts) (limits : Limits)
    (arguments : List String) {before : Calibrator (Logged σ)}
    (haccepts : accepts before.world.world) :
    (run limits arguments).run.run (imaged Recorded.world before) =
        ((run limits arguments).run.run before).map
          (fun ended => (ended.1, imaged Recorded.world ended.2)) ∧
      Performs (run limits arguments) before (Conduct limits) ∧
      (∀ result after, Refused (some result) → Yields (run limits arguments) before result after →
        after.current = before.current ∧ ∀ (β : Type) (view : σ → β), Kept view →
          view after.world.world = view before.world.world) ∧
      (∀ phase, arguments = [] →
        (TransitionStore.read before.world.world).1 = .ok (some phase) →
          ∃ after, Yields (run limits arguments) before (.ok phase) after ∧
            after.current = some phase ∧
            Extends before after
              [.read (.ok (some phase)), .push phase, .say (foundLine phase)]) ∧
      (Unknown arguments →
        Yields (run limits arguments) before (.error .invalidArgument) before) := by
  have hperforms : Performs (run limits arguments) before (Conduct limits) :=
    (performs_run accepting limits arguments haccepts).mono fun _ _ => Conversation.conduct
  refine ⟨follows_run limits arguments before, hperforms, ?_, ?_, ?_⟩
  · intro result after hrefused hyields
    rcases hperforms with ⟨result, after', asks, hyields', hextends, hconduct⟩ | ⟨hnone, -⟩
    · -- A program has one outcome, so the run is the one that keeps to its conduct.
      cases Option.some.inj (hyields.symm.trans hyields')
      obtain ⟨hwrites, hpushes⟩ := hconduct.refused hrefused
      refine ⟨?_, fun β view kept => hextends.kept hwrites hpushes kept⟩
      rw [hextends.current_eq, hpushes]
      rfl
    · cases hnone.symm.trans hyields
  · rintro phase rfl hread
    rcases retrieve_asked before with ⟨phase', between, hread', hretrieve, hextends⟩ |
      ⟨answer, _, _, hread', hanswer, -⟩
    · cases hread.symm.trans hread'
      obtain ⟨after, hrun, hextends⟩ :=
        yields_run_of_stored accepting limits hretrieve hextends haccepts
      exact ⟨after, hrun, hextends.current_eq, hextends⟩
    · exact absurd (hread'.symm.trans hread) (hanswer phase)
  · exact fun h => yields_run_of_unknown limits h before

section Bench

open TimingNode.Bench

def Unlimited (node : Node Bench) : Prop :=
  node.devices.console.room = none ∧ node.devices.console.reject = none

theorem takeAll_limits (cs : List Char) (console : LimitedConsole) :
    (LimitedConsole.takeAll cs console).2.room = console.room ∧
      ((LimitedConsole.takeAll cs console).2.reject = none ↔ console.reject = none) := by
  induction cs generalizing console with
  | nil => simp [LimitedConsole.takeAll]
  | cons c cs ih =>
      have htake : (console.take c).2.room = console.room ∧
          ((console.take c).2.reject = none ↔ console.reject = none) := by
        rw [LimitedConsole.take]
        split <;> split <;> simp
      rw [LimitedConsole.takeAll]
      generalize console.take c = answer at htake ⊢
      rcases answer with ⟨_ | _, taken⟩
      · exact htake
      · exact ⟨(ih taken).1.trans htake.1, (ih taken).2.trans htake.2⟩

theorem takeAll_unlimited (cs : List Char) {console : LimitedConsole} (hroom : console.room = none)
    (hreject : console.reject = none) : (LimitedConsole.takeAll cs console).1 = true := by
  induction cs generalizing console with
  | nil => rfl
  | cons c cs ih =>
      have htake : console.take c = (true, { console with text := console.text.push c }) := by
        simp [LimitedConsole.take, LimitedConsole.accepts, hroom, hreject]
      rw [LimitedConsole.takeAll, htake]
      exact ih hroom hreject

theorem accepting_unlimited : Accepting Unlimited where
  write text node haccepts := takeAll_unlimited text.toList haccepts.1 haccepts.2
  spared ask := by
    cases ask with
    | say text =>
        intro node
        obtain ⟨hroom, hreject⟩ := takeAll_limits text.toList node.devices.console
        exact propext (and_congr (iff_of_eq (congrArg (· = none) hroom)) hreject)
    | settling => exact fun _ _ => rfl
    | _ => exact fun _ => rfl

/-- A new calibrator as it is booted, on a node whose link and PLL never come up. -/
def cutOff : Calibrator (Logged (Node Bench)) :=
  { booted (offline 0) (.eeprom ⟨.erased 4, 0⟩) with
    world := ⟨(booted (offline 0) (.eeprom ⟨.erased 4, 0⟩)).world, []⟩ }

theorem kept_node : Kept fun node : Node Bench => (node.store, node.reception, node.pushed) := by
  intro ask hwrites hpushes
  cases ask with
  | read answer =>
      rintro ⟨devices, _ | _, reception, pushed⟩
      · rfl
      · rfl
  | write => cases hwrites
  | push => cases hpushes
  | settling => exact fun _ _ => rfl
  | _ => exact fun _ => rfl

/-- With a bound of two waits for the link and of one for the lock, the command polls the link four
times and the lock twice and waits three times, so no bound on these can be lower. -/
theorem run_keeps_conduct_cutOff :
    Accepting Unlimited ∧ Unlimited cutOff.world.world ∧
      ∃ (after : Calibrator (Logged (Node Bench))) (asks : List Ask),
        Yields (run ⟨100, 2, 1⟩ ["force"]) (imaged Recorded.world cutOff)
          (.error (.calibration .linkDown)) (imaged Recorded.world after) ∧
        Conduct ⟨100, 2, 1⟩ (some (.error (.calibration .linkDown))) asks ∧
        links asks = [false, false, false, false] ∧ locks asks = [false, false] ∧
        waits asks = [100, 100, 100] ∧ after.current = cutOff.current ∧
        after.world.world.store = cutOff.world.world.store := by
  have haccepts : Unlimited cutOff.world.world := ⟨rfl, rfl⟩
  have hrun : Yields (run ⟨100, 2, 1⟩ ["force"]) cutOff (.error (.calibration .linkDown)) _ := rfl
  obtain ⟨hplain, hperforms, hrefused, -⟩ :=
    run_keeps_conduct accepting_unlimited ⟨100, 2, 1⟩ ["force"] haccepts
  obtain ⟨hcurrent, hview⟩ := hrefused _ _ (Or.inl rfl) hrun
  have hstore := congrArg Prod.fst (hview _ _ kept_node)
  rw [hrun] at hplain
  rcases hperforms with ⟨result, after, asks, hyields, hextends, hconduct⟩ | ⟨hnone, -⟩
  · cases Option.some.inj (hrun.symm.trans hyields)
    have hasks := hextends.log_eq
    change _ = asks at hasks
    subst hasks
    exact ⟨accepting_unlimited, haccepts, _, _, hplain, hconduct, rfl, rfl, rfl, hcurrent, hstore⟩
  · cases hnone.symm.trans hrun

end Bench

end TimingNode.Proofs.CalibrationCommand
