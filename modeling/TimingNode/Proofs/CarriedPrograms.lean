import TimingNode.Proofs.CalibrationPrograms
import TimingNode.Proofs.CarriedScan

namespace TimingNode.Proofs.CarriedPrograms

open TimingNode.Calibrator
open TimingNode.Proofs.CalibrationPrograms
open TimingNode.Proofs.CarriedScan

variable {σ τ ε ε' α β : Type}

def imaged (image : σ → τ) (calibrator : Calibrator σ) : Calibrator τ :=
  { config := calibrator.config
    patience := calibrator.patience
    current := calibrator.current
    world := image calibrator.world }

/-- Two programs that do the same, one in a world and one in the image of that world. -/
def Follows (image : σ → τ) (program : CalibrationM σ ε α) (program' : CalibrationM τ ε α) :
    Prop :=
  ∀ before, program'.run.run (imaged image before) =
    (program.run.run before).map fun ended => (ended.1, imaged image ended.2)

variable {image : σ → τ} {program : CalibrationM σ ε α} {program' : CalibrationM τ ε α}

theorem Follows.yields (h : Follows image program program') {before after : Calibrator σ}
    {result : Except ε α} (hyields : Yields program before result after) :
    Yields program' (imaged image before) result (imaged image after) := by
  rw [Yields, h before, hyields]
  rfl

theorem follows_pure (value : α) :
    Follows image (pure value : CalibrationM σ ε α) (pure value) :=
  fun _ => rfl

theorem follows_throw (error : ε) :
    Follows image (throw error : CalibrationM σ ε α) (throw error) :=
  fun _ => rfl

theorem Follows.bind {next : α → CalibrationM σ ε β} {next' : α → CalibrationM τ ε β}
    (h : Follows image program program')
    (hnext : ∀ value, Follows image (next value) (next' value)) :
    Follows image (program >>= next) (program' >>= next') := by
  intro before
  change (program'.run.run (imaged image before)).bind _ =
    ((program.run.run before).bind _).map _
  rw [h before]
  rcases program.run.run before with _ | ⟨error | value, between⟩
  · rfl
  · rfl
  · exact hnext value between

theorem Follows.attempt (h : Follows image program program') :
    Follows image (attempt program : CalibrationM σ ε' (Except ε α)) (attempt program') := by
  intro before
  change (program'.run.run (imaged image before)).bind _ =
    ((program.run.run before).bind _).map _
  rw [h before]
  rcases program.run.run before with _ | ended
  · rfl
  · rfl

theorem Follows.map (transform : α → β) (h : Follows image program program') :
    Follows image (transform <$> program) (transform <$> program') := by
  intro before
  change (program'.run.run (imaged image before)).bind _ =
    ((program.run.run before).bind _).map _
  rw [h before]
  rcases program.run.run before with _ | ⟨error | value, between⟩
  · rfl
  · rfl
  · rfl

theorem Follows.adapt (h : Follows image program program') (wrap : ε → ε') :
    Follows image (ExceptT.adapt wrap program : CalibrationM σ ε' α)
      (ExceptT.adapt wrap program') := by
  intro before
  change (program'.run.run (imaged image before)).bind _ =
    ((program.run.run before).bind _).map _
  rw [h before]
  rcases program.run.run before with _ | ⟨error | value, between⟩
  · rfl
  · rfl
  · rfl

theorem follows_act {action : σ → α × σ} {action' : τ → α × τ}
    (h : ∀ world, action' (image world) = ((action world).1, image (action world).2)) :
    Follows image (act action : CalibrationM σ ε α) (act action') := by
  intro before
  change some (Except.ok (action' (image before.world)).1, _) = _
  rw [imaged, h]
  rfl

theorem follows_unless {ready : Bool} {refused : CalibrationM σ ε Unit}
    {refused' : CalibrationM τ ε Unit} {next : Unit → CalibrationM σ ε α}
    {next' : Unit → CalibrationM τ ε α} (h : Follows image refused refused')
    (hnext : Follows image (next ()) (next' ())) :
    Follows image (if ready = true then next () else refused >>= next)
      (if ready = true then next' () else refused' >>= next') := by
  cases ready with
  | false => exact h.bind fun _ => hnext
  | true => exact hnext

section Devices

variable [Link σ] [Pll σ] [Shifter σ] [PulseSource σ] [TransitionStore σ] [CorrectionSink σ]
  [Link τ] [Pll τ] [Shifter τ] [PulseSource τ] [TransitionStore τ] [CorrectionSink τ]

structure CarriesDevices (image : σ → τ) : Prop extends Carries image where
  link : ∀ world, Link.poll (image world) = ((Link.poll world).1, image (Link.poll world).2)
  lock : ∀ world, Pll.poll (image world) = ((Pll.poll world).1, image (Pll.poll world).2)
  read : ∀ world, TransitionStore.read (image world) =
    ((TransitionStore.read world).1, image (TransitionStore.read world).2)
  write : ∀ phase world, TransitionStore.write phase (image world) =
    ((TransitionStore.write phase world).1, image (TransitionStore.write phase world).2)
  push : ∀ phase world,
    CorrectionSink.push phase (image world) = image (CorrectionSink.push phase world)

variable (carries : CarriesDevices image)
include carries

theorem imaged_activated (phase : TransitionPhase) (calibrator : Calibrator σ) :
    activated phase (imaged image calibrator) = imaged image (activated phase calibrator) := by
  rw [activated, imaged, carries.push]
  rfl

theorem follows_activate (phase : TransitionPhase) :
    Follows image (activate phase : CalibrationM σ ε Unit) (activate phase) := fun before => by
  change some (Except.ok (), activated phase (imaged image before)) = _
  rw [imaged_activated carries]
  rfl

theorem follows_measure :
    Follows image (Calibrator.measure : CalibrationM σ Error TransitionPhase)
      Calibrator.measure := by
  intro before
  have hstart : Scan.start (imaged image before).config (imaged image before).world =
      (Scan.start before.config before.world).map fun started => (started.1, image started.2) :=
    carries.start before.config before.world
  rw [run_measure, run_measure, hstart]
  rcases Scan.start before.config before.world with cause | ⟨scan, started⟩
  · rfl
  have hrun : Scan.run (imaged image before).patience scan (image started) =
      (Scan.run before.patience scan started).map
        fun ended => (ended.1, ended.2.1, image ended.2.2) :=
    carries.run before.patience scan started
  simp only [Except.map, hrun]
  rcases Scan.run before.patience scan started with _ | ⟨failure | phase, ended⟩
  · rfl
  · rfl
  · exact congrArg (fun after => some (Except.ok phase, after))
      (imaged_activated carries phase { before with world := ended.2 })

theorem follows_measureLocked :
    Follows image (measureLocked : CalibrationM σ Error TransitionPhase) measureLocked := by
  refine (follows_act carries.link).bind fun up => ?_
  refine follows_unless (follows_throw _) ((follows_act carries.lock).bind fun locked => ?_)
  exact follows_unless (follows_throw _) (follows_measure carries)

theorem follows_retrieve :
    Follows image (retrieve : CalibrationM σ Error (Option TransitionPhase)) retrieve := by
  refine (follows_act carries.read).bind fun answer => ?_
  rcases answer with error | _ | phase
  · exact follows_throw _
  · exact follows_pure _
  · exact (follows_activate carries phase).bind fun _ => follows_pure _

theorem follows_keep (phase : TransitionPhase) :
    Follows image (keep phase : CalibrationM σ Error Unit) (keep phase) := by
  refine (follows_act (carries.write phase)).bind fun answer => ?_
  rcases answer with error | _
  · exact follows_throw _
  · exact follows_pure _

end Devices

end TimingNode.Proofs.CarriedPrograms
