import TimingNode.Shell.Calibration
import TimingNode.Proofs.CarriedPrograms
import TimingNode.Proofs.RecordedScan
import TimingNode.Proofs.ScanResult

namespace TimingNode.Proofs.CommandLog

open TimingNode.Calibrator
open TimingNode.Shell
open TimingNode.Shell.Calibration
open TimingNode.Proofs.CalibrationPrograms
open TimingNode.Proofs.CarriedPrograms
open TimingNode.Proofs.RecordedScan
open TimingNode.Proofs.RecordedWorld
open TimingNode.Proofs.RecordedWorld.Ask
open TimingNode.Proofs.ScanResult

section Growth

variable {σ : Type} [Link σ] [Pll σ] [Delay σ] [Console σ] [Shifter σ] [PulseSource σ]
  [TransitionStore σ] [CorrectionSink σ]

/-- The asks between two worlds. A view of the world that all of them spare is as it was. -/
structure Asked (before after : Logged σ) (asks : List Ask) : Prop where
  log_eq : after.events = before.events ++ asks
  view_eq : ∀ (β : Type) (view : σ → β), (∀ ask ∈ asks, ask.Spares view) →
    view after.world = view before.world

theorem Asked.refl (logged : Logged σ) : Asked logged logged [] where
  log_eq := (List.append_nil _).symm
  view_eq _ _ _ := rfl

theorem Asked.trans {before between after : Logged σ} {asks later : List Ask}
    (h : Asked before between asks) (hlater : Asked between after later) :
    Asked before after (asks ++ later) where
  log_eq := by rw [hlater.log_eq, h.log_eq, List.append_assoc]
  view_eq β view hspares := by
    rw [List.forall_mem_append] at hspares
    exact (hlater.view_eq β view hspares.2).trans (h.view_eq β view hspares.1)

theorem Asked.kept {before after : Logged σ} {asks : List Ask} (h : Asked before after asks)
    (hwrites : writes asks = []) (hpushes : pushes asks = []) {β : Type} {view : σ → β}
    (kept : Kept view) : view after.world = view before.world := by
  refine h.view_eq β view fun ask hask => kept ask ?_ ?_
  · exact List.filterMap_cons_none (List.filterMap_eq_nil_iff.mp hwrites ask hask)
  · exact List.filterMap_cons_none (List.filterMap_eq_nil_iff.mp hpushes ask hask)

theorem asked_of_spares {before : Logged σ} {after : σ} {ask : Ask}
    (h : ∀ (β : Type) (view : σ → β), ask.Spares view → view after = view before.world) :
    Asked before ⟨after, before.events ++ [ask]⟩ [ask] where
  log_eq := rfl
  view_eq β view hspares := h β view (List.forall_mem_singleton.mp hspares)

theorem asked_link (logged : Logged σ) :
    Asked logged (Link.poll logged).2 [.link (Link.poll logged).1] :=
  asked_of_spares fun _ _ hspares => hspares _

theorem asked_lock (logged : Logged σ) :
    Asked logged (Pll.poll logged).2 [.lock (Pll.poll logged).1] :=
  asked_of_spares fun _ _ hspares => hspares _

theorem asked_wait (milliseconds : UInt32) (logged : Logged σ) :
    Asked logged (Delay.wait milliseconds logged) [.wait milliseconds] :=
  asked_of_spares fun _ _ hspares => hspares _

theorem asked_write (phase : TransitionPhase) (logged : Logged σ) :
    Asked logged (TransitionStore.write phase logged).2
      [.write phase (TransitionStore.write phase logged).1] :=
  asked_of_spares fun _ _ hspares => hspares _

theorem asked_read (logged : Logged σ) :
    Asked logged (TransitionStore.read logged).2 [.read (TransitionStore.read logged).1] :=
  asked_of_spares fun _ _ hspares => hspares _

def Scanned (before after : Logged σ) : Prop :=
  ∃ asks, (∀ ask ∈ asks, ask.measures) ∧ Asked before after asks

theorem keeps_scanned : Keeps (Scanned : Logged σ → Logged σ → Prop) where
  refl logged := ⟨[], nofun, .refl logged⟩
  trans := by
    rintro _ _ _ ⟨asks, hasks, h⟩ ⟨later, hlater, h'⟩
    exact ⟨asks ++ later, List.forall_mem_append.mpr ⟨hasks, hlater⟩, h.trans h'⟩
  command channel phase logged :=
    ⟨_, by simp [measures], asked_of_spares fun _ _ hspares => hspares logged.world⟩
  poll channel logged :=
    ⟨_, by simp [measures], asked_of_spares fun _ _ hspares => hspares channel logged.world⟩
  pulse logged :=
    ⟨_, by simp [measures], asked_of_spares fun _ _ hspares => hspares logged.world⟩

theorem keeps_runFor {τ : Type} [Shifter τ] [PulseSource τ] {related : τ → τ → Prop}
    (keeps : Keeps related) (count : Nat) (scan : Scan) (world : τ) :
    related world (runFor count scan world).2.2 := by
  induction count generalizing scan world with
  | zero => exact keeps.refl world
  | succ count ih =>
      have hstepped := keeps.step scan world
      rw [runFor]
      split
      · rename_i hstep
        rw [hstep] at hstepped
        exact keeps.trans hstepped (ih _ _)
      · exact hstepped

/-- The asks between two states of a calibrator. The phase pushed last is the active one. -/
structure Extends (before after : Calibrator (Logged σ)) (asks : List Ask) : Prop
    extends Asked before.world after.world asks where
  config_eq : after.config = before.config
  patience_eq : after.patience = before.patience
  current_eq : after.current = (pushes asks).getLast?.or before.current

theorem Extends.trans {before between after : Calibrator (Logged σ)} {asks later : List Ask}
    (h : Extends before between asks) (hlater : Extends between after later) :
    Extends before after (asks ++ later) where
  toAsked := h.toAsked.trans hlater.toAsked
  config_eq := hlater.config_eq.trans h.config_eq
  patience_eq := hlater.patience_eq.trans h.patience_eq
  current_eq := by
    rw [hlater.current_eq, h.current_eq, pushes_append, List.getLast?_append, Option.or_assoc]

theorem Extends.refl (calibrator : Calibrator (Logged σ)) : Extends calibrator calibrator [] where
  toAsked := .refl _
  config_eq := rfl
  patience_eq := rfl
  current_eq := rfl

theorem extends_of_asked {before : Calibrator (Logged σ)} {world : Logged σ} {asks : List Ask}
    (h : Asked before.world world asks) (hpushes : pushes asks = []) :
    Extends before { before with world } asks where
  toAsked := h
  config_eq := rfl
  patience_eq := rfl
  current_eq := by rw [hpushes]; rfl

theorem extends_activated (phase : TransitionPhase) (before : Calibrator (Logged σ)) :
    Extends before (activated phase before) [.push phase] where
  toAsked := asked_of_spares fun _ _ hspares => hspares _
  config_eq := rfl
  patience_eq := rfl
  current_eq := rfl

/-- Worlds whose console takes every text, and which nothing that is asked of a device leaves. -/
structure Accepting (accepts : σ → Prop) : Prop where
  write : ∀ text world, accepts world → (Console.write text world).1 = true
  spared : ∀ ask : Ask, ask.Spares accepts

theorem Accepting.after {accepts : σ → Prop} (accepting : Accepting accepts)
    {before after : Calibrator (Logged σ)} {asks : List Ask} (h : Extends before after asks)
    (haccepts : accepts before.world.world) : accepts after.world.world := by
  rw [h.view_eq Prop accepts fun ask _ => accepting.spared ask]
  exact haccepts

end Growth

section Unlogged

variable {σ : Type}

theorem awaitReady_world [Delay σ] {poll : Logged σ → Bool × Logged σ} {poll' : σ → Bool × σ}
    (hpoll : ∀ logged, poll' logged.world = ((poll logged).1, (poll logged).2.world))
    (interval : UInt32) (polls : Nat) (logged : Logged σ) :
    awaitReady interval poll' polls logged.world =
      ((awaitReady interval poll polls logged).1,
        (awaitReady interval poll polls logged).2.world) := by
  induction polls generalizing logged with
  | zero => exact hpoll logged
  | succ polls ih =>
      rw [awaitReady, awaitReady, hpoll]
      rcases poll logged with ⟨_ | _, polled⟩
      · exact ih (Delay.wait interval polled)
      · rfl

theorem follows_say [Console σ] (text : String) :
    Follows Recorded.world (say text : CalibrationM (Logged σ) Shell.Error Unit) (say text) := by
  refine (follows_act fun _ => rfl).bind fun answer => ?_
  rcases answer with error | _
  · exact follows_throw _
  · exact follows_pure _

variable [Link σ] [Pll σ] [Delay σ] [Console σ] [Shifter σ] [PulseSource σ] [TransitionStore σ]
  [CorrectionSink σ]

theorem follows_measureAndKeep (limits : Limits) :
    Follows Recorded.world
      (measureAndKeep limits : CalibrationM (Logged σ) Shell.Error TransitionPhase)
      (measureAndKeep limits) := by
  have carries : CarriesDevices (Recorded.world : Logged σ → σ) := Recorded.carriesDevices
  refine (follows_say _).bind fun _ => ?_
  refine (follows_act (awaitReady_world (fun _ => rfl) _ _)).bind fun up => ?_
  refine follows_unless (follows_say _) ((follows_act fun _ => rfl).bind fun _ => ?_)
  refine (follows_say _).bind fun _ => ?_
  refine (follows_act (awaitReady_world (fun _ => rfl) _ _)).bind fun locked => ?_
  refine follows_unless (follows_say _) ((follows_say _).bind fun _ => ?_)
  refine ((follows_measureLocked carries).adapt _).bind fun phase => ?_
  refine (follows_say _).bind fun _ => ?_
  exact ((follows_keep carries phase).adapt _).bind fun _ => follows_pure _

/-- A log changes nothing of what the command does. -/
theorem follows_run (limits : Limits) (arguments : List String) :
    Follows Recorded.world
      (run limits arguments : CalibrationM (Logged σ) Shell.Error TransitionPhase)
      (run limits arguments) := by
  rcases arguments with _ | ⟨word, _ | ⟨second, rest⟩⟩
  · refine (follows_retrieve Recorded.carriesDevices).attempt.bind fun answer => ?_
    rcases answer with error | _ | phase
    · exact (follows_say _).bind fun _ => follows_measureAndKeep limits
    · exact (follows_say _).bind fun _ => follows_measureAndKeep limits
    · exact (follows_say _).bind fun _ => follows_pure _
  · by_cases hword : isKeyword "force" word
    · rw [run, run, if_pos hword, if_pos hword]
      exact follows_measureAndKeep limits
    · rw [run, run, if_neg hword, if_neg hword]
      exact follows_throw _
  · exact follows_throw _

end Unlogged

end TimingNode.Proofs.CommandLog
