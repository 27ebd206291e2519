import TimingNode.Calibrator

namespace TimingNode.Proofs.CalibrationPrograms

open TimingNode.Calibrator

section Programs

variable {σ ε ε' α β : Type}

/-- A program ends, with a result and in a state. -/
def Yields (program : CalibrationM σ ε α) (before : Calibrator σ) (result : Except ε α)
    (after : Calibrator σ) : Prop :=
  program.run.run before = some (result, after)

theorem yields_act {action : σ → α × σ} {calibrator : Calibrator σ} {answer : α} {world : σ}
    (h : action calibrator.world = (answer, world)) :
    Yields (act action : CalibrationM σ ε α) calibrator (.ok answer) { calibrator with world } := by
  change some (Except.ok (action calibrator.world).1, _) = _
  rw [h]

theorem act_cases {action : σ → α × σ} {before after : Calibrator σ} {result : Except ε α}
    (h : Yields (act action) before result after) :
    ∃ answer world, action before.world = (answer, world) ∧ result = .ok answer ∧
      after = { before with world } := by
  cases h
  exact ⟨_, _, rfl, rfl, rfl⟩

theorem yields_attempt {program : CalibrationM σ ε α} {before after : Calibrator σ}
    {result : Except ε α} (h : Yields program before result after) :
    Yields (attempt program : CalibrationM σ ε' (Except ε α)) before (.ok result) after := by
  change (program.run.run before).bind _ = _
  rw [h]
  rfl

theorem yields_bind {program : CalibrationM σ ε α} {next : α → CalibrationM σ ε β}
    {before between after : Calibrator σ} {value : α} {result : Except ε β}
    (hprogram : Yields program before (.ok value) between)
    (hnext : Yields (next value) between result after) :
    Yields (program >>= next) before result after := by
  change (program.run.run before).bind _ = _
  rw [hprogram]
  exact hnext

theorem yields_bind_error {program : CalibrationM σ ε α} {next : α → CalibrationM σ ε β}
    {before after : Calibrator σ} {error : ε} (h : Yields program before (.error error) after) :
    Yields (program >>= next) before (.error error) after := by
  change (program.run.run before).bind _ = _
  rw [h]
  rfl

theorem yields_map {program : CalibrationM σ ε α} {before after : Calibrator σ}
    {result : Except ε α} (transform : α → β) (h : Yields program before result after) :
    Yields (transform <$> program) before (result.map transform) after := by
  change (program.run.run before).bind _ = _
  rw [h]
  rcases result with error | value
  · rfl
  · rfl

theorem yields_adapt {program : CalibrationM σ ε α} {before after : Calibrator σ}
    {result : Except ε α} (wrap : ε → ε') (h : Yields program before result after) :
    Yields (ExceptT.adapt wrap program : CalibrationM σ ε' α) before (result.mapError wrap)
      after := by
  change (program.run.run before).bind _ = _
  rw [h]
  rcases result with error | value
  · rfl
  · rfl

theorem run_bind_eq_none {program : CalibrationM σ ε α} {before : Calibrator σ}
    (h : program.run.run before = none) (next : α → CalibrationM σ ε β) :
    (program >>= next).run.run before = none := by
  change (program.run.run before).bind _ = none
  rw [h]
  rfl

theorem run_adapt_eq_none {program : CalibrationM σ ε α} {before : Calibrator σ}
    (h : program.run.run before = none) (wrap : ε → ε') :
    (ExceptT.adapt wrap program : CalibrationM σ ε' α).run.run before = none := by
  change (program.run.run before).bind _ = none
  rw [h]
  rfl

theorem bind_cases {program : CalibrationM σ ε α} {next : α → CalibrationM σ ε β}
    {before after : Calibrator σ} {result : Except ε β}
    (h : Yields (program >>= next) before result after) :
    (∃ error, result = .error error ∧ Yields program before (.error error) after) ∨
      ∃ value between, Yields program before (.ok value) between ∧
        Yields (next value) between result after := by
  change (program.run.run before).bind _ = _ at h
  obtain ⟨⟨first', between⟩, hprogram, hnext⟩ := Option.bind_eq_some_iff.mp h
  rcases first' with error | value
  · cases hnext
    exact Or.inl ⟨error, rfl, hprogram⟩
  · exact Or.inr ⟨value, between, hprogram, hnext⟩

/-- What holds of every value that a program returns, and of the state in which it does. -/
def Ensures (pre : Calibrator σ → Prop) (program : CalibrationM σ ε α)
    (post : α → Calibrator σ → Prop) : Prop :=
  ∀ before value after, pre before → Yields program before (.ok value) after → post value after

variable {pre : Calibrator σ → Prop} {post : α → Calibrator σ → Prop}

theorem ensures_pure {value : α} (h : ∀ calibrator, pre calibrator → post value calibrator) :
    Ensures pre (pure value : CalibrationM σ ε α) post := by
  intro before value' after hpre hyields
  cases hyields
  exact h before hpre

theorem ensures_throw (error : ε) : Ensures pre (throw error : CalibrationM σ ε α) post := by
  intro before value after _ hyields
  cases hyields

theorem ensures_act {action : σ → α × σ}
    (h : ∀ calibrator, pre calibrator → post (action calibrator.world).1
      { calibrator with world := (action calibrator.world).2 }) :
    Ensures pre (act action : CalibrationM σ ε α) post := by
  intro before value after hpre hyields
  cases hyields
  exact h before hpre

theorem ensures_attempt {program : CalibrationM σ ε α} {post : Except ε α → Calibrator σ → Prop}
    (h : ∀ before result after, pre before → Yields program before result after →
      post result after) :
    Ensures pre (attempt program : CalibrationM σ ε' (Except ε α)) post := by
  intro before result after hpre hyields
  change (program.run.run before).bind _ = _ at hyields
  obtain ⟨⟨result', between⟩, hprogram, hrest⟩ := Option.bind_eq_some_iff.mp hyields
  cases hrest
  exact h before result after hpre hprogram

theorem Ensures.bind {mid : α → Calibrator σ → Prop} {post : β → Calibrator σ → Prop}
    {program : CalibrationM σ ε α} {next : α → CalibrationM σ ε β}
    (hprogram : Ensures pre program mid) (hnext : ∀ value, Ensures (mid value) (next value) post) :
    Ensures pre (program >>= next) post := by
  intro before value after hpre hyields
  rcases bind_cases hyields with ⟨error, herror, -⟩ | ⟨middle, between, hfirst, hrest⟩
  · cases herror
  · exact hnext middle between value after (hprogram before middle between hpre hfirst) hrest

theorem Ensures.adapt {program : CalibrationM σ ε α} (h : Ensures pre program post)
    (wrap : ε → ε') : Ensures pre (ExceptT.adapt wrap program : CalibrationM σ ε' α) post := by
  intro before value after hpre hyields
  change (program.run.run before).bind _ = _ at hyields
  obtain ⟨⟨result, between⟩, hprogram, hrest⟩ := Option.bind_eq_some_iff.mp hyields
  cases result with
  | error error => cases hrest
  | ok middle =>
      cases hrest
      exact h before value after hpre hprogram

theorem ensures_unless {ready : Bool} {program : CalibrationM σ ε Unit}
    {next : Unit → CalibrationM σ ε α} (hprogram : Ensures pre program fun _ => pre)
    (hnext : Ensures pre (next ()) post) :
    Ensures pre (if ready = true then next () else program >>= next) post := by
  cases ready with
  | false => exact hprogram.bind fun _ => hnext
  | true => exact hnext

theorem eq_of_create {config : Scan.Config} {world : σ} {calibrator : Calibrator σ}
    (h : create config world = .ok calibrator) :
    calibrator.config.validate = .ok () ∧ calibrator.current = none ∧
      calibrator.world = world := by
  rw [create] at h
  split at h
  · cases h
  · rename_i hvalid
    cases h
    exact ⟨hvalid, rfl, rfl⟩

end Programs

section Phases

variable {σ : Type} [CorrectionSink σ]

def activated (phase : TransitionPhase) (calibrator : Calibrator σ) : Calibrator σ :=
  { calibrator with
    current := some phase
    world := CorrectionSink.push phase calibrator.world }

def concluded (calibrator : Calibrator σ) :
    Except Scan.Failure TransitionPhase → Except Error TransitionPhase × Calibrator σ
  | .error failure => (.error (.scan failure), calibrator)
  | .ok phase => (.ok phase, activated phase calibrator)

theorem run_measure [Shifter σ] [PulseSource σ] (calibrator : Calibrator σ) :
    (Calibrator.measure : CalibrationM σ Error TransitionPhase).run.run calibrator =
      match Scan.start calibrator.config calibrator.world with
      | .error cause => some (.error (.invalidConfig cause), calibrator)
      | .ok (scan, started) =>
          (Scan.run calibrator.patience scan started).map fun ended =>
            concluded { calibrator with world := ended.2.2 } ended.1 := by
  change ((match Scan.start calibrator.config calibrator.world with
    | .error cause => throw (.invalidConfig cause)
    | .ok (scan, world) => _ : CalibrationM σ Error TransitionPhase).run.run calibrator) = _
  rcases Scan.start calibrator.config calibrator.world with cause | ⟨scan, started⟩
  · rfl
  dsimp only
  rcases Scan.run calibrator.patience scan started with _ | ⟨failure | phase, ended⟩
  · rfl
  · rfl
  · rfl

theorem measure_cases [Shifter σ] [PulseSource σ] {before after : Calibrator σ}
    {result : Except Error TransitionPhase} (h : Yields Calibrator.measure before result after) :
    (∃ cause, Scan.start before.config before.world = .error cause ∧
        result = .error (.invalidConfig cause) ∧ after = before) ∨
      ∃ scan started verdict scan' scanned,
        Scan.start before.config before.world = .ok (scan, started) ∧
        Scan.run before.patience scan started = some (verdict, scan', scanned) ∧
        ((∃ failure, verdict = .error failure ∧ result = .error (.scan failure) ∧
            after = { before with world := scanned }) ∨
          ∃ phase, verdict = .ok phase ∧ result = .ok phase ∧
            after = activated phase { before with world := scanned }) := by
  rw [Yields, run_measure] at h
  rcases hstart : Scan.start before.config before.world with cause | ⟨scan, started⟩
  · rw [hstart] at h
    cases h
    exact Or.inl ⟨cause, rfl, rfl, rfl⟩
  rw [hstart] at h
  obtain ⟨⟨verdict, scan', scanned⟩, hrun, hconcluded⟩ := Option.map_eq_some_iff.mp h
  refine Or.inr ⟨scan, started, verdict, scan', scanned, rfl, hrun, ?_⟩
  rcases verdict with failure | phase
  · cases hconcluded
    exact Or.inl ⟨failure, rfl, rfl, rfl⟩
  · cases hconcluded
    exact Or.inr ⟨phase, rfl, rfl, rfl⟩

section Locked

variable [Link σ] [Pll σ] [Shifter σ] [PulseSource σ] {calibrator : Calibrator σ}
  {polled locked : σ}

theorem yields_linkDown (hlink : Link.poll calibrator.world = (false, polled)) :
    Yields measureLocked calibrator (.error .linkDown) { calibrator with world := polled } :=
  yields_bind (yields_act hlink) rfl

theorem yields_pllUnlocked (hlink : Link.poll calibrator.world = (true, polled))
    (hpll : Pll.poll polled = (false, locked)) :
    Yields measureLocked calibrator (.error .pllUnlocked) { calibrator with world := locked } :=
  yields_bind (yields_act hlink) (yields_bind (yields_act hpll) rfl)

theorem yields_measureLocked {after : Calibrator σ} {result : Except Error TransitionPhase}
    (hlink : Link.poll calibrator.world = (true, polled)) (hpll : Pll.poll polled = (true, locked))
    (h : Yields Calibrator.measure { calibrator with world := locked } result after) :
    Yields measureLocked calibrator result after :=
  yields_bind (yields_act hlink) (yields_bind (yields_act hpll) h)

end Locked

variable [TransitionStore σ]

theorem retrieve_cases {before after : Calibrator σ}
    {result : Except Error (Option TransitionPhase)} (h : Yields retrieve before result after) :
    ∃ answer world, TransitionStore.read before.world = (answer, world) ∧
      ((∃ phase, answer = .ok (some phase) ∧ result = .ok (some phase) ∧
          after = activated phase { before with world }) ∨
        (∀ phase, result ≠ .ok (some phase)) ∧ after = { before with world }) := by
  rw [retrieve] at h
  rcases bind_cases h with ⟨_, _, hact⟩ | ⟨answer, between, hact, h⟩
  · obtain ⟨_, _, _, hanswer, _⟩ := act_cases hact
    cases hanswer
  obtain ⟨_, world, hread, hanswer, rfl⟩ := act_cases hact
  cases hanswer
  refine ⟨answer, world, hread, ?_⟩
  rcases answer with error | _ | phase
  · cases h
    exact Or.inr ⟨by simp, rfl⟩
  · cases h
    exact Or.inr ⟨by simp, rfl⟩
  · cases h
    exact Or.inl ⟨phase, rfl, rfl, rfl⟩

theorem yields_retrieve {calibrator : Calibrator σ} {phase : TransitionPhase} {world : σ}
    (hread : TransitionStore.read calibrator.world = (.ok (some phase), world)) :
    Yields retrieve calibrator (.ok (some phase)) (activated phase { calibrator with world }) :=
  yields_bind (yields_act hread) rfl

theorem yields_retrieve_empty {calibrator : Calibrator σ} {world : σ}
    (hread : TransitionStore.read calibrator.world = (.ok none, world)) :
    Yields retrieve calibrator (.ok none) { calibrator with world } :=
  yields_bind (yields_act hread) rfl

theorem yields_retrieve_error {calibrator : Calibrator σ} {error : Store.Error} {world : σ}
    (hread : TransitionStore.read calibrator.world = (.error error, world)) :
    Yields retrieve calibrator (.error .storeUnavailable) { calibrator with world } :=
  yields_bind (yields_act hread) rfl

omit [CorrectionSink σ] in
theorem yields_keep {calibrator : Calibrator σ} {phase : TransitionPhase}
    {answer : Except Store.Error Unit} {world : σ}
    (hwrite : TransitionStore.write phase calibrator.world = (answer, world)) :
    Yields (keep phase) calibrator (answer.mapError fun _ => .storeUnavailable)
      { calibrator with world } := by
  refine yields_bind (yields_act hwrite) ?_
  rcases answer with error | _
  · rfl
  · rfl

end Phases

end TimingNode.Proofs.CalibrationPrograms
