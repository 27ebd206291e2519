import TimingNode.Proofs.CalibratorCalls
import TimingNode.Proofs.ScanResult
import TimingNode.Proofs.StoredCalibration

namespace TimingNode.Proofs.CalibratorPolicy

open TimingNode.Calibrator
open TimingNode.Proofs.CalibrationPrograms
open TimingNode.Proofs.CalibratorCalls
open TimingNode.Proofs.CalibratorJournal
open TimingNode.Proofs.CarriedPrograms
open TimingNode.Proofs.RecordedWorld
open TimingNode.Proofs.RecordedWorld.Ask
open TimingNode.Proofs.ScanResult
open TimingNode.Proofs.StoredCalibration

section Performed

variable {σ : Type} [Link σ] [Pll σ] [Shifter σ] [PulseSource σ] [TransitionStore σ]

/-- A view of the world that only writing to the store and pushing a phase change. -/
structure Spared {β : Type} (view : σ → β) : Prop extends Untouched view where
  link : ∀ world, view (Link.poll world).2 = view world
  pll : ∀ world, view (Pll.poll world).2 = view world
  read : ∀ world, view (TransitionStore.read world).2 = view world

theorem spared_node {δ : Type} [Link δ] [Pll δ] [Shifter δ] [PulseSource δ] :
    Spared fun node : Node δ => (node.store, node.reception, node.pushed) where
  command _ _ _ := rfl
  poll _ _ := rfl
  pulse _ := rfl
  link _ := rfl
  pll _ := rfl
  read node := by
    rcases node with ⟨devices, _ | _, reception, pushed⟩
    · rfl
    · rfl

/-- The deeds between two states of a calibrator. The last push is the active phase, and without a
push or a write nothing is changed that only these can change. -/
structure Extends (before after : Calibrator (Journaled σ)) (deeds : List Ask) : Prop where
  config_eq : after.config = before.config
  deeds_eq : after.world.events = before.world.events ++ deeds
  current_eq : after.current = (pushes deeds).getLast?.or before.current
  view_eq : pushes deeds = [] → writes deeds = [] → ∀ (β : Type) (view : σ → β), Spared view →
    view after.world.world = view before.world.world

theorem Extends.trans {before between after : Calibrator (Journaled σ)} {deeds later : List Ask}
    (h : Extends before between deeds) (hlater : Extends between after later) :
    Extends before after (deeds ++ later) where
  config_eq := hlater.config_eq.trans h.config_eq
  deeds_eq := by rw [hlater.deeds_eq, h.deeds_eq, List.append_assoc]
  current_eq := by
    rw [hlater.current_eq, h.current_eq, pushes_append, List.getLast?_append, Option.or_assoc]
  view_eq hpushes hwrites β view spared := by
    rw [pushes_append] at hpushes
    rw [writes_append] at hwrites
    obtain ⟨hpushes, hpushes'⟩ := List.append_eq_nil_iff.mp hpushes
    obtain ⟨hwrites, hwrites'⟩ := List.append_eq_nil_iff.mp hwrites
    exact (hlater.view_eq hpushes' hwrites' β view spared).trans
      (h.view_eq hpushes hwrites β view spared)

theorem extends_silent {before : Calibrator (Journaled σ)} {world : σ}
    (h : ∀ (β : Type) (view : σ → β), Spared view → view world = view before.world.world) :
    Extends before { before with world := ⟨world, before.world.events⟩ } [] where
  config_eq := rfl
  deeds_eq := (List.append_nil _).symm
  current_eq := rfl
  view_eq _ _ := h

theorem extends_read {before : Calibrator (Journaled σ)}
    {answer : Except Store.Error (Option TransitionPhase)} {world : σ}
    (h : TransitionStore.read before.world.world = (answer, world)) :
    Extends before { before with world := ⟨world, before.world.events ++ [.read answer]⟩ }
      [.read answer] where
  config_eq := rfl
  deeds_eq := rfl
  current_eq := rfl
  view_eq _ _ _ view spared := (congrArg (view ·.2) h).symm.trans (spared.read _)

variable [CorrectionSink σ]

theorem extends_activated (phase : TransitionPhase) (before : Calibrator (Journaled σ)) :
    Extends before (activated phase before) [.push phase] where
  config_eq := rfl
  deeds_eq := rfl
  current_eq := rfl
  view_eq hpushes := nomatch hpushes

theorem yields_measure (before : Calibrator (Journaled σ)) {verdict : Verdict}
    (h : scanVerdict? (plain before) = some verdict) :
    ∃ after, Yields Calibrator.measure before (verdict.mapError .scan) after ∧
      Extends before after (measurement verdict) := by
  change (Scan.start before.config before.world.world).toOption.bind _ = _ at h
  simp only [Yields, run_measure_journaled]
  rcases hstart : Scan.start before.config before.world.world with cause | ⟨scan, started⟩
  · rw [hstart] at h
    cases h
  rw [hstart] at h
  change (Scan.run before.patience scan started).bind _ = _ at h
  obtain ⟨⟨_, scan', scanned⟩, hrun, hverdict⟩ := Option.bind_eq_some_iff.mp h
  cases hverdict
  simp only [hrun]
  have hscan : Extends before { before with world := ⟨scanned, before.world.events⟩ } [] :=
    extends_silent fun _ _ spared => (spared.run hrun).trans (spared.start hstart)
  rcases verdict with failure | phase
  · exact ⟨_, rfl, hscan⟩
  · exact ⟨_, rfl, hscan.trans (extends_activated phase _)⟩

theorem yields_retrieve_journaled (before : Calibrator (Journaled σ)) :
    ∃ result after deeds, Yields retrieve before result after ∧ Extends before after deeds ∧
      Retrieval result deeds := by
  rcases hread : TransitionStore.read before.world.world with ⟨error | _ | phase, world⟩
  all_goals
    have hextends := extends_read hread
    have hjournaled := Recorded.onWorld_of_eq .read hread
  · exact ⟨_, _, _, yields_retrieve_error hjournaled, hextends, .refused error⟩
  · exact ⟨_, _, _, yields_retrieve_empty hjournaled, hextends, .empty⟩
  · exact ⟨_, _, _, yields_retrieve hjournaled, hextends.trans (extends_activated phase _),
      .found phase⟩

omit [CorrectionSink σ] in
theorem yields_keep_journaled (phase : TransitionPhase) (before : Calibrator (Journaled σ)) :
    ∃ answer after, Yields (keep phase) before (answer.mapError fun _ => .storeUnavailable) after ∧
      Extends before after [.write phase answer] := by
  rcases hwrite : TransitionStore.write phase before.world.world with ⟨answer, world⟩
  exact ⟨answer, _, yields_keep (Recorded.onWorld_of_eq _ hwrite), rfl, rfl, rfl,
    fun _ hwrites => nomatch hwrites⟩

def Performs (call : Call) (before : Calibrator (Journaled σ)) : Prop :=
  ∃ result after deeds, Yields call.program before result after ∧ Extends before after deeds ∧
    Outcome call (call.verdict? (plain before)) result deeds

theorem performs_slave {before : Calibrator (Journaled σ)}
    (hvalid : before.config.validate = .ok ())
    (hends : (Call.calibrate .slave).Ends (plain before)) :
    Performs (.calibrate .slave) before := by
  obtain ⟨verdict, hverdict⟩ := hends.exists_verdict rfl hvalid
  obtain ⟨between, hmeasure, hmeasured⟩ := yields_measure before hverdict
  have hattempt : Yields (attempt Calibrator.measure : CalibrationM _ Error _) _ _ _ :=
    yields_attempt hmeasure
  have hcall : (Call.calibrate .slave).verdict? (plain before) = some verdict := hverdict
  rw [Performs, hcall]
  -- Only an exhausted range leads on to the store; a phase is active before it is written.
  rcases verdict with (_ | _) | phase
  · have hslave : Yields (calibrateSlave : CalibrationM (Journaled σ) _ _) before _ between :=
      yields_bind hattempt rfl
    exact ⟨_, between, _, yields_map some hslave, hmeasured, .slaveTimedOut⟩
  · obtain ⟨result, after, deeds, hretrieve, hretrieved, h⟩ := yields_retrieve_journaled between
    have hslave : Yields (calibrateSlave : CalibrationM (Journaled σ) _ _) before
        (required (.scan .rangeExhausted) result) after :=
      yields_bind hattempt (yields_required (fun _ => rfl) rfl hretrieve h)
    exact ⟨_, after, deeds, yields_map some hslave, hmeasured.trans hretrieved, .slaveFellBack h⟩
  · obtain ⟨answer, after, hkeep, hkept⟩ := yields_keep_journaled phase between
    have hslave : Yields (calibrateSlave : CalibrationM (Journaled σ) _ _) before
        ((answer.mapError fun _ => .storeUnavailable).map fun _ => phase) after := by
      refine yields_bind hattempt ?_
      rcases answer with error | _
      · exact yields_bind_error hkeep
      · exact yields_bind hkeep rfl
    exact ⟨_, after, _, yields_map some hslave, hmeasured.trans hkept, .slaveMeasured phase answer⟩

theorem performs_master (before : Calibrator (Journaled σ)) :
    Performs (.calibrate .master) before := by
  obtain ⟨result, after, deeds, hretrieve, hretrieved, h⟩ := yields_retrieve_journaled before
  have hmaster : Yields (calibrateMaster : CalibrationM (Journaled σ) _ _) before
      (required .storeUnavailable result) after :=
    yields_required (fun _ => rfl) rfl hretrieve h
  exact ⟨_, after, deeds, yields_map some hmaster, hretrieved, .master h⟩

theorem performs_measure {before : Calibrator (Journaled σ)}
    (hvalid : before.config.validate = .ok ()) (hends : Call.measure.Ends (plain before)) :
    Performs .measure before := by
  obtain ⟨verdict, hverdict⟩ := hends.exists_verdict rfl hvalid
  obtain ⟨after, hmeasure, hmeasured⟩ := yields_measure before hverdict
  have hcall : Call.measure.verdict? (plain before) = some verdict := hverdict
  rw [Performs, hcall]
  exact ⟨_, after, _, yields_map some hmeasure, hmeasured, .measured verdict (Or.inl rfl)⟩

theorem performs_measureLocked {before : Calibrator (Journaled σ)}
    (hvalid : before.config.validate = .ok ()) (hends : Call.measureLocked.Ends (plain before)) :
    Performs .measureLocked before := by
  rw [Performs, Call.verdict?]
  rcases hlink : Link.poll before.world.world with ⟨_ | _, polled⟩
  all_goals
    have hpolled : Extends before { before with world := ⟨polled, before.world.events⟩ } [] :=
      extends_silent fun _ view spared => (congrArg (view ·.2) hlink).symm.trans (spared.link _)
    have hlink' := Recorded.onWorld_of_eq .link hlink
  · rw [scanning?_linkDown hlink]
    exact ⟨_, _, _, yields_map some (yields_linkDown hlink'), hpolled, .linkDown⟩
  rcases hpll : Pll.poll polled with ⟨_ | _, locked⟩
  all_goals
    have hready : Extends before { before with world := ⟨locked, before.world.events⟩ } [] :=
      hpolled.trans <| extends_silent fun _ view spared =>
        (congrArg (view ·.2) hpll).symm.trans (spared.pll _)
    have hpll' : Pll.poll (⟨polled, before.world.events⟩ : Journaled σ) = _ :=
      Recorded.onWorld_of_eq _ hpll
  · rw [scanning?_pllUnlocked hlink hpll]
    exact ⟨_, _, _, yields_map some (yields_pllUnlocked hlink' hpll'), hready, .pllUnlocked⟩
  · have hscanning := scanning?_locked (plain before) hlink hpll
    obtain ⟨verdict, hverdict⟩ := hends.exists_verdict hscanning hvalid
    obtain ⟨after, hmeasure, hmeasured⟩ :=
      yields_measure { before with world := ⟨locked, before.world.events⟩ } hverdict
    rw [hscanning, Option.bind_some, hverdict]
    exact ⟨_, after, _, yields_map some (yields_measureLocked hlink' hpll' hmeasure),
      hready.trans hmeasured, .measured verdict (Or.inr rfl)⟩

theorem performs_keep (phase : TransitionPhase) (before : Calibrator (Journaled σ)) :
    Performs (.keep phase) before := by
  obtain ⟨answer, after, hkeep, hkept⟩ := yields_keep_journaled phase before
  exact ⟨_, after, _, yields_map (fun _ => none) hkeep, hkept, .kept phase answer⟩

theorem performs {call : Call} {before : Calibrator (Journaled σ)}
    (hvalid : before.config.validate = .ok ()) (hends : call.Ends (plain before)) :
    Performs call before := by
  cases call with
  | calibrate role =>
      cases role with
      | master => exact performs_master before
      | slave => exact performs_slave hvalid hends
  | measure => exact performs_measure hvalid hends
  | measureLocked => exact performs_measureLocked hvalid hends
  | retrieve =>
      obtain ⟨result, after, deeds, hretrieve, hretrieved, h⟩ := yields_retrieve_journaled before
      exact ⟨result, after, deeds, hretrieve, hretrieved, .retrieved h⟩
  | keep phase => exact performs_keep phase before

end Performed

section Policy

/-- What a call may do, with the verdict of its scan if it scans, the active phase before and after
it, its result and its deeds. -/
structure Conduct (call : Call) (verdict : Option Verdict)
    (current current' : Option TransitionPhase) (result : Except Error (Option TransitionPhase))
    (deeds : List Ask) : Prop where
  obtained : ∀ phase ∈ pushes deeds,
    verdict = some (.ok phase) ∨ .ok (some phase) ∈ reads deeds
  returned : ∀ phase, result = .ok (some phase) → current' = some phase
  writes_length : (writes deeds).length ≤ 1
  /-- A slave writes what it measured, and nothing else is written unless asked for. -/
  written : ∀ phase ∈ writes deeds,
    call = .keep phase ∨ call = .calibrate .slave ∧ verdict = some (.ok phase)
  /-- A call that fails changes nothing, unless the store refused to write. -/
  failed : ∀ error, result = .error error →
    (error = .storeUnavailable → ∃ answer ∈ reads deeds, ∀ phase, answer ≠ .ok (some phase)) →
    pushes deeds = [] ∧ writes deeds = [] ∧ current' = current
  /-- A slave reads the store when its scan finds no transition, and only then. -/
  consulted : call = .calibrate .slave →
    (reads deeds ≠ [] ↔ verdict = some (.error .rangeExhausted))

variable {call : Call} {verdict : Option Verdict} {result : Except Error (Option TransitionPhase)}
  {deeds : List Ask}

theorem conduct_of_outcome (h : Outcome call verdict result deeds)
    (current : Option TransitionPhase) :
    Conduct call verdict current ((pushes deeds).getLast?.or current) result deeds where
  obtained := h.obtained
  returned phase hresult := by rw [h.returned hresult, Option.some_or]
  writes_length := h.writes_length
  written := h.written
  failed error hresult hread := by
    obtain ⟨hpushes, hwrites⟩ := h.failed hresult hread
    exact ⟨hpushes, hwrites, by rw [hpushes]; rfl⟩
  consulted := by
    rintro rfl
    exact h.consulted

end Policy

section History

variable {σ : Type} [Link σ] [Pll σ] [Shifter σ] [PulseSource σ] [TransitionStore σ]
  [CorrectionSink σ]

/-- A calibrator in use: made with an accepted tuning and any patience, and called in any order,
with any scans that end. Between two calls its world may change in any way. -/
inductive History : Calibrator (Journaled σ) → Prop where
  | created {config : Scan.Config} {world : σ} {calibrator : Calibrator (Journaled σ)}
      (patience : Nat) (h : create config ⟨world, []⟩ = .ok calibrator) :
      History { calibrator with patience }
  | called {before after : Calibrator (Journaled σ)} (call : Call)
      {result : Except Error (Option TransitionPhase)} (h : History before)
      (hends : call.Ends (plain before)) (hyields : Yields call.program before result after) :
      History after
  | disturbed {calibrator : Calibrator (Journaled σ)} (world : σ) (h : History calibrator) :
      History { calibrator with world := ⟨world, calibrator.world.events⟩ }

theorem History.valid {calibrator : Calibrator (Journaled σ)} (h : History calibrator) :
    calibrator.config.validate = .ok () := by
  induction h with
  | created patience h => exact (eq_of_create h).1
  | called call _ hends hyields ih =>
      obtain ⟨_, _, _, hyields', hextends, -⟩ := performs ih hends
      cases Option.some.inj (hyields.symm.trans hyields')
      rw [hextends.config_eq]
      exact ih
  | disturbed _ _ ih => exact ih

theorem History.current_eq {calibrator : Calibrator (Journaled σ)} (h : History calibrator) :
    calibrator.current = (pushes calibrator.world.events).getLast? := by
  induction h with
  | created patience h =>
      obtain ⟨-, hcurrent, hworld⟩ := eq_of_create h
      rw [hcurrent, hworld]
      rfl
  | called call h hends hyields ih =>
      -- A program has one outcome, so the call that was made is the one that keeps the list.
      obtain ⟨_, _, deeds, hyields', hextends, -⟩ := performs h.valid hends
      cases Option.some.inj (hyields.symm.trans hyields')
      rw [hextends.current_eq, ih, hextends.deeds_eq, pushes_append, List.getLast?_append]
  | disturbed _ _ ih => exact ih

/-- Whatever the devices, the store included, did so far and will do, a call of a calibrator in use
ends if its scan does, in one of the ways listed. The active phase is the one pushed last, before
the call and after it, and the call keeps to its conduct. Where it neither writes nor pushes, it
changes nothing that only these change. The journal by which this is told makes no difference to the
call. -/
theorem calls_keep_conduct {before : Calibrator (Journaled σ)} (h : History before) {call : Call}
    (hends : call.Ends (plain before)) :
    ∃ result after deeds,
      Yields call.program (plain before) result (plain after) ∧
      Yields call.program before result after ∧
      after.world.events = before.world.events ++ deeds ∧
      before.current = (pushes before.world.events).getLast? ∧
      after.current = (pushes after.world.events).getLast? ∧
      Outcome call (call.verdict? (plain before)) result deeds ∧
      Conduct call (call.verdict? (plain before)) before.current after.current result deeds ∧
      (pushes deeds = [] → writes deeds = [] → ∀ (β : Type) (view : σ → β), Spared view →
        view after.world.world = view before.world.world) := by
  obtain ⟨result, after, deeds, hyields, hextends, houtcome⟩ := performs h.valid hends
  refine ⟨result, after, deeds, (follows_program call).yields hyields, hyields,
    hextends.deeds_eq, h.current_eq, (h.called call hends hyields).current_eq, houtcome, ?_,
    hextends.view_eq⟩
  rw [hextends.current_eq]
  exact conduct_of_outcome houtcome before.current

end History

def unkept : Calibrator (Journaled (Node Bench)) :=
  { booted (offline 0) (.memory .unreachable) with
    world := ⟨(booted (offline 0) (.memory .unreachable)).world, []⟩ }

/-- A slave measures while the store refuses to write: the phase is active, and the call fails. A
measurement that asks for the link, which is down, fails too and leaves the node as it is. -/
theorem calls_keep_conduct_unkept :
    History unkept ∧ (Call.calibrate .slave).Ends (plain unkept) ∧
      (∃ after, Yields (Call.calibrate .slave).program (plain unkept) (.error .storeUnavailable)
          (plain after) ∧
        after.world.events = [.push ⟨2, by decide⟩, .write ⟨2, by decide⟩ (.error .write)] ∧
        after.current = (pushes after.world.events).getLast?) ∧
      ∃ after, Yields Call.measureLocked.program (plain unkept) (.error .linkDown) (plain after) ∧
        after.current = unkept.current ∧
        after.world.world.store = unkept.world.world.store ∧
        after.world.world.pushed = unkept.world.world.pushed := by
  have hcreate : create unkept.config unkept.world = .ok unkept := rfl
  have hhistory : History unkept := .created 24 hcreate
  have hends : (Call.calibrate .slave).Ends (plain unkept) := by
    intro scanning scan started hscanning hstart
    cases hscanning
    cases hstart
    rfl
  refine ⟨hhistory, hends, ?_, ?_⟩
  · obtain ⟨result, after, deeds, hplain, hyields, hdeeds, -, hcurrent, -⟩ :=
      calls_keep_conduct hhistory hends
    have hslave : Yields (Call.calibrate .slave).program unkept (.error .storeUnavailable) _ := rfl
    cases Option.some.inj (hyields.symm.trans hslave)
    exact ⟨_, hplain, rfl, hcurrent⟩
  · have hends' : Call.measureLocked.Ends (plain unkept) := fun _ _ _ hscanning => by
      cases hscanning
    obtain ⟨result, after, deeds, hplain, hyields, hdeeds, -, -, -, hconduct, hview⟩ :=
      calls_keep_conduct hhistory hends'
    have hlocked : Yields Call.measureLocked.program unkept (.error .linkDown) _ := rfl
    obtain ⟨rfl, -⟩ := Prod.mk.inj (Option.some.inj (hyields.symm.trans hlocked))
    obtain ⟨hpushes, hwrites, hcurrent⟩ := hconduct.failed .linkDown rfl nofun
    have hnode := hview hpushes hwrites _ _ spared_node
    simp only [Prod.mk.injEq] at hnode
    exact ⟨after, hplain, hcurrent, hnode.1, hnode.2.2⟩

end TimingNode.Proofs.CalibratorPolicy
