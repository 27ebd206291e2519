import TimingNode.Proofs.CalibratorJournal

namespace TimingNode.Proofs.CalibratorCalls

open TimingNode.Calibrator
open TimingNode.Proofs.CalibrationPrograms
open TimingNode.Proofs.CalibratorJournal
open TimingNode.Proofs.CarriedPrograms
open TimingNode.Proofs.RecordedWorld
open TimingNode.Proofs.RecordedWorld.Ask

abbrev Verdict := Except Scan.Failure TransitionPhase

inductive Call where
  | calibrate (role : Role)
  | measure
  | measureLocked
  | retrieve
  | keep (phase : TransitionPhase)

section Calls

variable {σ : Type} [Link σ] [Pll σ] [Shifter σ] [PulseSource σ]

/-- The verdict of a scan begun now, if the scan ends. -/
def scanVerdict? (calibrator : Calibrator σ) : Option Verdict := do
  let (scan, started) ← (Scan.start calibrator.config calibrator.world).toOption
  let (verdict, _) ← Scan.run calibrator.patience scan started
  return verdict

namespace Call

/-- The calibrator as the scan of a call finds it, if the call comes to scan. -/
def scanning? (calibrator : Calibrator σ) : Call → Option (Calibrator σ)
  | calibrate .slave | measure => some calibrator
  | measureLocked =>
      let (up, world) := Link.poll calibrator.world
      if up then
        let (locked, world) := Pll.poll world
        if locked then some { calibrator with world } else none
      else none
  | _ => none

def verdict? (call : Call) (calibrator : Calibrator σ) : Option Verdict :=
  (call.scanning? calibrator).bind scanVerdict?

/-- The scan of a call is not endless. -/
def Ends (call : Call) (calibrator : Calibrator σ) : Prop :=
  ∀ scanning scan started, call.scanning? calibrator = some scanning →
    Scan.start scanning.config scanning.world = .ok (scan, started) →
    (Scan.run scanning.patience scan started).isSome

theorem Ends.exists_verdict {call : Call} {calibrator scanning : Calibrator σ}
    (hends : call.Ends calibrator) (hscanning : call.scanning? calibrator = some scanning)
    (hvalid : scanning.config.validate = .ok ()) :
    ∃ verdict, scanVerdict? scanning = some verdict := by
  rcases hstart : Scan.start scanning.config scanning.world with cause | ⟨scan, started⟩
  · rw [Scan.start, hvalid] at hstart
    cases hstart
  obtain ⟨ended, hrun⟩ := Option.isSome_iff_exists.mp (hends _ _ _ hscanning hstart)
  refine ⟨ended.1, ?_⟩
  change (Scan.start scanning.config scanning.world).toOption.bind _ = _
  rw [hstart]
  change (Scan.run scanning.patience scan started).bind _ = _
  rw [hrun]
  rfl

variable [TransitionStore σ] [CorrectionSink σ]

/-- What a call runs, and the phase that it answers with if it obtains one. -/
def program : Call → CalibrationM σ Error (Option TransitionPhase)
  | calibrate role => some <$> Calibrator.calibrate role
  | measure => some <$> Calibrator.measure
  | measureLocked => some <$> Calibrator.measureLocked
  | retrieve => Calibrator.retrieve
  | keep phase => (fun _ => none) <$> Calibrator.keep phase

end Call

section Locked

variable {calibrator : Calibrator σ} {polled locked : σ}

omit [Shifter σ] [PulseSource σ] in
theorem scanning?_linkDown (hlink : Link.poll calibrator.world = (false, polled)) :
    Call.measureLocked.scanning? calibrator = none := by
  simp [Call.scanning?, hlink]

omit [Shifter σ] [PulseSource σ] in
theorem scanning?_pllUnlocked (hlink : Link.poll calibrator.world = (true, polled))
    (hpll : Pll.poll polled = (false, locked)) :
    Call.measureLocked.scanning? calibrator = none := by
  simp [Call.scanning?, hlink, hpll]

omit [Shifter σ] [PulseSource σ] in
theorem scanning?_locked (calibrator : Calibrator σ)
    (hlink : Link.poll calibrator.world = (true, polled))
    (hpll : Pll.poll polled = (true, locked)) :
    Call.measureLocked.scanning? calibrator = some { calibrator with world := locked } := by
  simp [Call.scanning?, hlink, hpll]

end Locked

variable [TransitionStore σ] [CorrectionSink σ]

theorem follows_program (call : Call) :
    Follows Recorded.world
      (call.program : CalibrationM (Journaled σ) Error (Option TransitionPhase))
      call.program := by
  have carries : CarriesDevices (Recorded.world : Journaled σ → σ) := Recorded.carriesDevices
  cases call with
  | calibrate role =>
      cases role with
      | master =>
          refine Follows.map _ ((follows_retrieve carries).bind fun found => ?_)
          rcases found with _ | phase
          · exact follows_throw _
          · exact follows_pure _
      | slave =>
          refine Follows.map _ ((follows_measure carries).attempt.bind fun result => ?_)
          split
          · exact (follows_keep carries _).bind fun _ => follows_pure _
          · refine (follows_retrieve carries).bind fun found => ?_
            rcases found with _ | phase
            · exact follows_throw _
            · exact follows_pure _
          · exact follows_throw _
  | measure => exact (follows_measure carries).map _
  | measureLocked => exact (follows_measureLocked carries).map _
  | retrieve => exact follows_retrieve carries
  | keep phase => exact (follows_keep carries phase).map _

end Calls

section Outcomes

def measurement : Verdict → List Ask
  | .error _ => []
  | .ok phase => [.push phase]

/-- A reading of the store: its answer, which becomes active if there is one. -/
inductive Retrieval : Except Error (Option TransitionPhase) → List Ask → Prop where
  | found (phase : TransitionPhase) :
      Retrieval (.ok (some phase)) [.read (.ok (some phase)), .push phase]
  | empty : Retrieval (.ok none) [.read (.ok none)]
  | refused (error : Store.Error) : Retrieval (.error .storeUnavailable) [.read (.error error)]

def required (error : Error) :
    Except Error (Option TransitionPhase) → Except Error TransitionPhase
  | .error refusal => .error refusal
  | .ok none => .error error
  | .ok (some phase) => .ok phase

/-- How a call can end: the verdict of its scan if it scans, its result and its deeds. -/
inductive Outcome :
    Call → Option Verdict → Except Error (Option TransitionPhase) → List Ask → Prop where
  | linkDown : Outcome .measureLocked none (.error .linkDown) []
  | pllUnlocked : Outcome .measureLocked none (.error .pllUnlocked) []
  | measured {call : Call} (verdict : Verdict) (h : call = .measure ∨ call = .measureLocked) :
      Outcome call (some verdict) ((verdict.mapError .scan).map some) (measurement verdict)
  | slaveMeasured (phase : TransitionPhase) (answer : Except Store.Error Unit) :
      Outcome (.calibrate .slave) (some (.ok phase))
        (((answer.mapError fun _ => .storeUnavailable).map fun _ => phase).map some)
        [.push phase, .write phase answer]
  | slaveTimedOut :
      Outcome (.calibrate .slave) (some (.error .shifterTimeout)) (.error (.scan .shifterTimeout))
        []
  | slaveFellBack {result : Except Error (Option TransitionPhase)} {deeds : List Ask}
      (h : Retrieval result deeds) :
      Outcome (.calibrate .slave) (some (.error .rangeExhausted))
        ((required (.scan .rangeExhausted) result).map some) deeds
  | master {result : Except Error (Option TransitionPhase)} {deeds : List Ask}
      (h : Retrieval result deeds) :
      Outcome (.calibrate .master) none ((required .storeUnavailable result).map some) deeds
  | retrieved {result : Except Error (Option TransitionPhase)} {deeds : List Ask}
      (h : Retrieval result deeds) : Outcome .retrieve none result deeds
  | kept (phase : TransitionPhase) (answer : Except Store.Error Unit) :
      Outcome (.keep phase) none
        ((answer.mapError fun _ => .storeUnavailable).map fun _ => none) [.write phase answer]

theorem yields_required {σ : Type} [TransitionStore σ] [CorrectionSink σ]
    {before after : Calibrator σ} {error : Error}
    {next : Option TransitionPhase → CalibrationM σ Error TransitionPhase}
    {result : Except Error (Option TransitionPhase)} {deeds : List Ask}
    (hsome : ∀ phase, next (some phase) = pure phase) (hnone : next none = throw error)
    (hyields : Yields retrieve before result after) (h : Retrieval result deeds) :
    Yields (retrieve >>= next) before (required error result) after := by
  cases h with
  | found phase =>
      refine yields_bind hyields ?_
      rw [hsome]
      rfl
  | empty =>
      refine yields_bind hyields ?_
      rw [hnone]
      rfl
  | refused => exact yields_bind_error hyields

variable {call : Call} {verdict : Option Verdict} {result : Except Error (Option TransitionPhase)}
  {deeds : List Ask}

theorem Retrieval.obtained (h : Retrieval result deeds) :
    ∀ phase ∈ pushes deeds, .ok (some phase) ∈ reads deeds := by
  cases h <;> simp [pushes, reads]

theorem Retrieval.returned (h : Retrieval result deeds) {phase : TransitionPhase}
    (hresult : result = .ok (some phase)) : (pushes deeds).getLast? = some phase := by
  cases h <;> simp_all [pushes]

theorem Retrieval.failed (h : Retrieval result deeds)
    (hresult : ∀ phase, result ≠ .ok (some phase)) : pushes deeds = [] := by
  cases h <;> simp_all [pushes]

theorem Retrieval.writes_eq (h : Retrieval result deeds) : writes deeds = [] := by
  cases h <;> rfl

theorem Retrieval.reads_ne (h : Retrieval result deeds) : reads deeds ≠ [] := by
  cases h <;> simp [reads]

theorem eq_ok_of_required {error : Error} {found : Option TransitionPhase}
    (h : (required error result).map some = .ok found) : result = .ok found := by
  rcases result with _ | _ | _
  · cases h
  · cases h
  · exact h

theorem ne_ok_of_required {error error' : Error}
    (h : (required error result).map some = .error error') (phase : TransitionPhase) :
    result ≠ .ok (some phase) := by
  rintro rfl
  cases h

theorem Outcome.obtained (h : Outcome call verdict result deeds) :
    ∀ phase ∈ pushes deeds, verdict = some (.ok phase) ∨ .ok (some phase) ∈ reads deeds := by
  cases h with
  | linkDown | pllUnlocked | slaveTimedOut | kept => simp [pushes]
  | measured verdict => rcases verdict with _ | _ <;> simp [measurement, pushes]
  | slaveMeasured phase => simp [pushes]
  | slaveFellBack h | master h | retrieved h =>
      exact fun phase hphase => Or.inr (h.obtained phase hphase)

theorem Outcome.returned (h : Outcome call verdict result deeds) {phase : TransitionPhase}
    (hresult : result = .ok (some phase)) : (pushes deeds).getLast? = some phase := by
  cases h with
  | linkDown | pllUnlocked | slaveTimedOut => cases hresult
  | measured verdict =>
      rcases verdict with _ | _
      · cases hresult
      · cases hresult
        rfl
  | slaveMeasured phase answer =>
      rcases answer with _ | _
      · cases hresult
      · cases hresult
        rfl
  | slaveFellBack h | master h => exact h.returned (eq_ok_of_required hresult)
  | retrieved h => exact h.returned hresult
  | kept phase answer => rcases answer with _ | _ <;> cases hresult

theorem Outcome.writes_length (h : Outcome call verdict result deeds) :
    (writes deeds).length ≤ 1 := by
  cases h with
  | linkDown | pllUnlocked | slaveTimedOut | slaveMeasured | kept => simp [writes]
  | measured verdict => rcases verdict with _ | _ <;> simp [measurement, writes]
  | slaveFellBack h | master h | retrieved h => simp [h.writes_eq]

theorem Outcome.written (h : Outcome call verdict result deeds) :
    ∀ phase ∈ writes deeds,
      call = .keep phase ∨ call = .calibrate .slave ∧ verdict = some (.ok phase) := by
  cases h with
  | linkDown | pllUnlocked | slaveTimedOut | slaveMeasured | kept => simp [writes]
  | measured verdict => rcases verdict with _ | _ <;> simp [measurement, writes]
  | slaveFellBack h | master h | retrieved h => simp [h.writes_eq]

theorem Outcome.failed (h : Outcome call verdict result deeds) {error : Error}
    (hresult : result = .error error)
    (hread : error = .storeUnavailable →
      ∃ answer ∈ reads deeds, ∀ phase, answer ≠ .ok (some phase)) :
    pushes deeds = [] ∧ writes deeds = [] := by
  cases h with
  | linkDown | pllUnlocked | slaveTimedOut => exact ⟨rfl, rfl⟩
  | measured verdict =>
      rcases verdict with _ | _
      · exact ⟨rfl, rfl⟩
      · cases hresult
  | slaveMeasured phase answer | kept phase answer =>
      rcases answer with _ | _
      · cases hresult
        simp [reads] at hread
      · cases hresult
  | slaveFellBack h | master h => exact ⟨h.failed (ne_ok_of_required hresult), h.writes_eq⟩
  | retrieved h => exact ⟨h.failed (by simp [hresult]), h.writes_eq⟩

theorem Outcome.consulted (h : Outcome (.calibrate .slave) verdict result deeds) :
    reads deeds ≠ [] ↔ verdict = some (.error .rangeExhausted) := by
  cases h with
  | measured verdict hcall => simp at hcall
  | slaveMeasured | slaveTimedOut => simp [reads]
  | slaveFellBack h => simp [h.reads_ne]

end Outcomes

end TimingNode.Proofs.CalibratorCalls
