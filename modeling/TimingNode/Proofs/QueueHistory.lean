import Mathlib.Data.List.DropRight
import TimingNode.Tag.Fifo

/-!
Everything that is asked of a tag queue, in any order. What the queue has handed out since its
latest reset are the first of the tags that were offered since then. A tag is dropped only when the
queue is full, and then the queue stays as it is until the next reset.
-/

namespace TimingNode.Proofs.QueueHistory

open TimingNode.Tag

variable {depth : Nat}

section Accounted

variable {fifo : Fifo depth} {offered taken : List Tag} {lost : Bool}

def handed : Except Overrun (Option Tag) → List Tag
  | .ok answer => answer.toList
  | .error _ => []

/-- A queue to which some tags were offered and from which some were taken. What was offered is what
was taken, what is queued and what was dropped, in this order; only a full queue has dropped any. -/
structure Accounted (fifo : Fifo depth) (offered taken : List Tag) (lost : Bool) : Prop where
  overrun_eq : fifo.overrun = lost
  full_of_lost : lost = true → ¬ fifo.queue.length < depth
  offered_eq : ∃ dropped, (lost = false → dropped = []) ∧ offered = taken ++ fifo.queue ++ dropped

theorem accounted_empty (depth : Nat) : Accounted (.empty depth) [] [] false :=
  ⟨rfl, nofun, [], fun _ => rfl, rfl⟩

theorem Accounted.push (h : Accounted fifo offered taken lost) (tag : Tag) :
    Accounted (fifo.push tag).2 (offered ++ [tag]) taken
      (lost || (fifo.push tag).1 matches .error _) := by
  obtain ⟨dropped, hdropped, hoffered⟩ := h.offered_eq
  by_cases hroom : fifo.queue.length < depth
  · obtain ⟨hresult, hqueue, hoverrun⟩ := Fifo.push_of_lt tag hroom
    have hlost : lost = false := Bool.eq_false_iff.mpr fun hlost => h.full_of_lost hlost hroom
    rw [hresult, hlost]
    refine ⟨hoverrun.trans (h.overrun_eq.trans hlost), nofun, [], fun _ => rfl, ?_⟩
    rw [hqueue, hoffered, hdropped hlost]
    simp only [List.append_nil, List.append_assoc]
  · obtain ⟨hresult, hqueue, hoverrun⟩ := Fifo.push_of_full tag hroom
    rw [hresult, Bool.or_true]
    refine ⟨hoverrun, fun _ => by rwa [hqueue], dropped ++ [tag], nofun, ?_⟩
    rw [hqueue, hoffered]
    simp only [List.append_assoc]

theorem Accounted.pop (h : Accounted fifo offered taken lost) :
    Accounted fifo.pop.2 offered (taken ++ handed fifo.pop.1) lost := by
  obtain ⟨queue, _ | _, hle⟩ := fifo
  · obtain rfl : lost = false := h.overrun_eq.symm
    rcases queue with _ | ⟨tag, queue⟩
    · simpa [Fifo.pop, handed] using h
    · obtain ⟨dropped, hdropped, hoffered⟩ := h.offered_eq
      refine ⟨rfl, by simp, dropped, hdropped, ?_⟩
      rw [hoffered]
      simp [Fifo.pop, handed]
  · rw [Fifo.pop_of_overrun rfl]
    simpa [handed] using h

theorem Accounted.pop_of_intact (h : Accounted fifo offered taken false) :
    fifo.pop.1 = .ok offered[taken.length]? := by
  obtain ⟨dropped, hdropped, rfl⟩ := h.offered_eq
  obtain ⟨queue, overrun, hle⟩ := fifo
  obtain rfl : overrun = false := h.overrun_eq
  rw [hdropped rfl, List.append_nil, List.getElem?_append_right (Nat.le_refl _), Nat.sub_self]
  rcases queue with _ | ⟨tag, queue⟩
  · rfl
  · rfl

theorem Accounted.length_of_lost (h : Accounted fifo offered taken lost) (hlost : lost = true) :
    fifo.queue.length = depth :=
  Nat.le_antisymm fifo.length_le (Nat.le_of_not_lt (h.full_of_lost hlost))

end Accounted

inductive Call where
  | push (tag : Tag)
  | pushRegister (word : UInt32)
  | pop
  | reset

/-- A call with its answer. A register word counts as the tag in it. -/
inductive Event where
  | pushed (tag : Tag) (result : Except Overrun Unit)
  | popped (result : Except Overrun (Option Tag))
  | reset

def Call.perform (fifo : Fifo depth) : Call → Event × Fifo depth
  | .push tag =>
      let (result, fifo) := fifo.push tag
      (.pushed tag result, fifo)
  | .pushRegister word =>
      let (result, fifo) := fifo.pushRegister word
      (.pushed (.ofRegister word) result, fifo)
  | .pop =>
      let (result, fifo) := fifo.pop
      (.popped result, fifo)
  | .reset => (.reset, fifo.reset)

/-- A call that the queue refuses because of an overrun. A reset is never refused. -/
def Call.refusal : Call → Event
  | .push tag => .pushed tag (.error .overrun)
  | .pushRegister word => .pushed (.ofRegister word) (.error .overrun)
  | .pop => .popped (.error .overrun)
  | .reset => .reset

namespace Event

def isReset : Event → Bool
  | .reset => true
  | _ => false

/-- The events after the latest reset, or all of them if there was none. -/
def sinceReset (events : List Event) : List Event :=
  events.rtakeWhile (! isReset ·)

def offered (events : List Event) : List Tag :=
  events.filterMap fun
    | .pushed tag _ => some tag
    | _ => none

def taken (events : List Event) : List Tag :=
  events.flatMap fun
    | .popped result => handed result
    | _ => []

def anyRejected (events : List Event) : Bool :=
  events.any fun
    | .pushed _ (.error _) => true
    | _ => false

end Event

structure History (depth : Nat) where
  fifo : Fifo depth
  events : List Event

namespace History

def create (depth : Nat) : History depth := ⟨.empty depth, []⟩

def call (history : History depth) (call : Call) : History depth :=
  let (event, fifo) := call.perform history.fifo
  ⟨fifo, history.events ++ [event]⟩

def calls (history : History depth) (calls : List Call) : History depth :=
  calls.foldl call history

def recent (history : History depth) : List Event :=
  Event.sinceReset history.events

end History

open Event

theorem recent_call (history : History depth) (call : Call) :
    (history.call call).recent =
      if isReset (call.perform history.fifo).1 then []
      else history.recent ++ [(call.perform history.fifo).1] := by
  change sinceReset (history.events ++ [(call.perform history.fifo).1]) = _
  rw [sinceReset, List.rtakeWhile_concat]
  cases isReset (call.perform history.fifo).1
  · rfl
  · rfl

def Explained (history : History depth) : Prop :=
  Accounted history.fifo (offered history.recent) (taken history.recent)
    (anyRejected history.recent)

theorem Explained.push {history : History depth} (h : Explained history) (tag : Tag) :
    Explained (history.call (.push tag)) := by
  have hpush := Accounted.push h tag
  rw [Explained, recent_call]
  change Accounted (history.fifo.push tag).2
    (offered (history.recent ++ [.pushed tag (history.fifo.push tag).1]))
    (taken (history.recent ++ [.pushed tag (history.fifo.push tag).1]))
    (anyRejected (history.recent ++ [.pushed tag (history.fifo.push tag).1]))
  rcases hresult : (history.fifo.push tag).1 with _ | _
  all_goals
    rw [hresult] at hpush
    simpa [offered, taken, anyRejected] using hpush

theorem Explained.pop {history : History depth} (h : Explained history) :
    Explained (history.call .pop) := by
  have hpop := Accounted.pop h
  rw [Explained, recent_call]
  change Accounted history.fifo.pop.2 (offered (history.recent ++ [.popped history.fifo.pop.1]))
    (taken (history.recent ++ [.popped history.fifo.pop.1]))
    (anyRejected (history.recent ++ [.popped history.fifo.pop.1]))
  simpa [offered, taken, anyRejected] using hpop

theorem Explained.call {history : History depth} (h : Explained history) (call : Call) :
    Explained (history.call call) := by
  cases call with
  | push tag => exact h.push tag
  | pushRegister word => exact h.push (.ofRegister word)
  | pop => exact h.pop
  | reset =>
      rw [Explained, recent_call]
      exact accounted_empty depth

theorem Explained.calls {history : History depth} (h : Explained history) (calls : List Call) :
    Explained (history.calls calls) := by
  induction calls generalizing history with
  | nil => exact h
  | cons call calls ih => exact ih (h.call call)

theorem explained_create (depth : Nat) : Explained (.create depth) :=
  accounted_empty depth

theorem perform_of_overrun {fifo : Fifo depth} (hoverrun : fifo.overrun = true)
    (hfull : fifo.queue.length = depth) {call : Call} (hcall : call ≠ .reset) :
    call.perform fifo = (call.refusal, fifo) := by
  have hpush (tag : Tag) : fifo.push tag = (.error .overrun, fifo) := by
    rw [Fifo.push, dif_neg (by omega)]
    rcases fifo with ⟨queue, overrun, hle⟩
    cases hoverrun
    rfl
  cases call with
  | push tag => rw [Call.perform, hpush]; rfl
  | pushRegister word => rw [Call.perform, Fifo.pushRegister, hpush]; rfl
  | pop => rw [Call.perform, Fifo.pop_of_overrun hoverrun]; rfl
  | reset => exact absurd rfl hcall

theorem calls_of_overrun {history : History depth} (hoverrun : history.fifo.overrun = true)
    (hfull : history.fifo.queue.length = depth) {calls : List Call} (hcalls : Call.reset ∉ calls) :
    history.calls calls = ⟨history.fifo, history.events ++ calls.map Call.refusal⟩ := by
  induction calls generalizing history with
  | nil => simp [History.calls]
  | cons call calls ih =>
      rw [List.mem_cons, not_or] at hcalls
      have hcall : history.call call = ⟨history.fifo, history.events ++ [call.refusal]⟩ := by
        rw [History.call, perform_of_overrun hoverrun hfull (Ne.symm hcalls.1)]
      have hrest := @ih (history.call call) (by rwa [hcall]) (by rwa [hcall]) hcalls.2
      rw [hcall] at hrest
      rw [History.calls, List.foldl_cons, hcall]
      simpa [History.calls] using hrest

/-- A queue as its callers see it. -/
structure InOrder (history : History depth) : Prop where
  isPrefix : taken history.recent <+: offered history.recent
  push_eq_error_iff : ∀ tag,
    (history.fifo.push tag).1 = .error .overrun ↔ history.fifo.queue.length = depth
  overrun_eq : history.fifo.overrun = anyRejected history.recent
  /-- Until a push is rejected, what was offered and not yet popped is queued, and a pop hands out
  the first of it. -/
  pop_of_intact : anyRejected history.recent = false →
    offered history.recent = taken history.recent ++ history.fifo.queue ∧
      history.fifo.pop.1 = .ok (offered history.recent)[(taken history.recent).length]?
  /-- Once a push was rejected the queue is full and stays as it is, and every call is refused until
  a reset. -/
  frozen : anyRejected history.recent = true →
    history.fifo.queue.length = depth ∧
      ∀ calls, Call.reset ∉ calls →
        history.calls calls = ⟨history.fifo, history.events ++ calls.map Call.refusal⟩

theorem Explained.inOrder {history : History depth} (h : Explained history) : InOrder history := by
  obtain ⟨dropped, hdropped, hoffered⟩ := h.offered_eq
  refine ⟨?_, ?_, h.overrun_eq, ?_, ?_⟩
  · rw [hoffered, List.append_assoc]
    exact List.prefix_append _ _
  · intro tag
    have hle := history.fifo.length_le
    by_cases hroom : history.fifo.queue.length < depth
    · rw [(Fifo.push_of_lt tag hroom).1]
      simp only [reduceCtorEq, false_iff]
      omega
    · rw [(Fifo.push_of_full tag hroom).1]
      simp only [true_iff]
      omega
  · intro hintact
    refine ⟨by rw [hoffered, hdropped hintact, List.append_nil], ?_⟩
    rw [Explained, hintact] at h
    exact h.pop_of_intact
  · intro hrejected
    have hfull := h.length_of_lost hrejected
    exact ⟨hfull, fun calls => calls_of_overrun (h.overrun_eq.trans hrejected) hfull⟩

/-- Whatever is asked of a queue, it never hands out a tag from behind a dropped one: since the
latest reset its pops have given the first tags that were offered, in order and each once. -/
theorem queue_in_order (depth : Nat) (calls : List Call) :
    InOrder ((History.create depth).calls calls) :=
  ((explained_create depth).calls calls).inOrder

example :
    taken ((History.create 2).calls
      [.push ⟨1, 7⟩, .pop, .reset, .push ⟨1, 0⟩, .pushRegister 5, .pop, .push ⟨0, 6⟩, .push ⟨1, 8⟩,
        .pop, .pop]).recent = [⟨1, 0⟩] := by
  decide

end TimingNode.Proofs.QueueHistory
