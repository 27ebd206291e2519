import TimingNode.Proofs.QueueHistory
import TimingNode.Proofs.TagReplay

namespace TimingNode.Proofs.ServiceHistory

open TimingNode.Loop
open TimingNode.Tag
open TimingNode.Proofs.QueueHistory (Accounted)
open TimingNode.Proofs.TagReplay

variable {depth : Nat}

inductive Call where
  | push (tag : Tag)
  | pushRegister (word : UInt32)
  | drain
  | restart (mode : Mode) (reference : UInt8) (actuator : Nat)
  | setTarget (units : Int32)

structure History (depth : Nat) where
  service : Service depth
  origin : Loop
  /-- All tags pushed, also in vain. -/
  offered : List Tag
  /-- The tags popped, each with the setpoint commanded at the time. -/
  consumed : List (Int32 × Tag)
  codes : List Nat
  lost : Bool
  reported : Bool

namespace History

def since (service : Service depth) (code : Nat) : History depth :=
  { service
    origin := service.loop
    offered := []
    consumed := []
    codes := [code]
    lost := false
    reported := false }

def create (depth : Nat) (steering : Steering) : History depth :=
  let (service, code) := Service.create steering (.empty depth)
  since service code

def offer (tag : Tag) (pushed : Except Overrun Unit × Service depth) (history : History depth) :
    History depth :=
  { history with
    service := pushed.2
    offered := history.offered ++ [tag]
    lost := history.lost || pushed.1 matches .error _ }

def drain (history : History depth) : History depth :=
  let drained := history.service.drain
  { history with
    service := drained.service
    consumed := history.consumed ++
      under history.service.registers.target (popEach (depth + 1) history.service).1
    codes := history.codes ++ drained.codes
    reported := history.reported || drained.outcome matches .error _ }

def call (history : History depth) : Call → History depth
  | .push tag => history.offer tag (history.service.push tag)
  | .pushRegister word => history.offer (.ofRegister word) (history.service.pushRegister word)
  | .drain => history.drain
  | .restart mode reference actuator =>
      match history.service.restart mode reference actuator with
      | .error _ => history
      | .ok (service, code) => since service code
  | .setTarget units => { history with service := history.service.setTarget units }

def calls (history : History depth) (calls : List Call) : History depth :=
  calls.foldl call history

def replayed (history : History depth) : Loop × List Nat :=
  replay history.origin history.consumed

end History

/-- A loop after a fatal error. One that was faulted before is left as it is. -/
def halted (loop : Loop) : Loop :=
  if loop.faulted then loop
  else { loop with running := false, faulted := true, locked := false }

theorem faulted_halted (loop : Loop) : (halted loop).faulted = true := by
  rw [halted]
  split
  · assumption
  · rfl

theorem halted_halted (loop : Loop) : halted (halted loop) = halted loop :=
  if_pos (faulted_halted loop)

/-- What holds between any two calls. Once a push has failed the queue stays full, so no later tag
gets behind the hole. -/
structure Faithful (history : History depth) : Prop where
  overrun_eq : history.service.fifo.overrun = history.lost
  full_of_lost : history.lost = true → ¬ history.service.fifo.queue.length < depth
  offered_eq : ∃ dropped, (history.lost = false → dropped = []) ∧
    history.offered =
      history.consumed.map Prod.snd ++ history.service.fifo.queue ++ dropped
  lost_of_reported : history.reported = true → history.lost = true
  loop_eq : history.service.loop =
    if history.reported then halted history.replayed.1 else history.replayed.1
  codes_eq : history.codes = history.origin.actuator :: history.replayed.2

theorem faithful_since {service : Service depth} (h : service.fifo = .empty depth) :
    Faithful (.since service service.loop.actuator) := by
  obtain ⟨steering, fifo⟩ := service
  cases h
  refine ⟨rfl, ?_, ⟨[], fun _ => rfl, rfl⟩, id, rfl, rfl⟩
  intro hlost
  cases hlost

theorem Faithful.accounted {history : History depth} (h : Faithful history) :
    Accounted history.service.fifo history.offered (history.consumed.map Prod.snd) history.lost :=
  ⟨h.overrun_eq, h.full_of_lost, h.offered_eq⟩

theorem Faithful.offer {history : History depth} (h : Faithful history) (tag : Tag) :
    Faithful (history.offer tag (history.service.push tag)) := by
  have hpush := h.accounted.push tag
  refine ⟨hpush.overrun_eq, hpush.full_of_lost, hpush.offered_eq, ?_, h.loop_eq, h.codes_eq⟩
  intro hreported
  change (history.lost || _) = true
  rw [h.lost_of_reported hreported, Bool.true_or]

theorem Faithful.drained_of_lost {history : History depth} (h : Faithful history)
    (hlost : history.lost = true) :
    history.service.drain =
      ⟨if history.service.loop.faulted then history.service
        else { history.service with toSteering := history.service.halt }, [], .error .overrun⟩ := by
  rw [Service.drain, if_pos (h.overrun_eq.trans hlost)]

theorem Faithful.drained_of_intact {history : History depth} (h : Faithful history)
    (hlost : history.lost = false) :
    history.service.drain =
      ⟨⟨(history.service.onTags history.service.fifo.queue).1, history.service.fifo.reset⟩,
        (history.service.onTags history.service.fifo.queue).2,
        .ok history.service.fifo.queue.length⟩ := by
  have hoverrun := h.overrun_eq.trans hlost
  rw [Service.drain, if_neg (Bool.eq_false_iff.mp hoverrun)]

theorem Faithful.popped_eq {history : History depth} (h : Faithful history) :
    (popEach (depth + 1) history.service).1 =
      if history.lost then [] else history.service.fifo.queue := by
  rw [popEach_eq_drain, h.overrun_eq]

theorem Faithful.consumed_of_lost {history : History depth} (h : Faithful history)
    (hlost : history.lost = true) : history.drain.consumed = history.consumed := by
  rw [History.drain, h.popped_eq, if_pos hlost]
  exact List.append_nil _

theorem Faithful.consumed_of_intact {history : History depth} (h : Faithful history)
    (hlost : history.lost = false) :
    history.drain.consumed =
      history.consumed ++
        under history.service.registers.target history.service.fifo.queue := by
  rw [History.drain, h.popped_eq, if_neg (Bool.eq_false_iff.mp hlost)]

theorem Faithful.drain_of_lost {history : History depth} (h : Faithful history)
    (hlost : history.lost = true) : Faithful history.drain := by
  have hdrained := h.drained_of_lost hlost
  have hconsumed := h.consumed_of_lost hlost
  have hreplayed : history.drain.replayed = history.replayed := by
    rw [History.replayed, hconsumed]
    rfl
  have hreported : history.drain.reported = true := by
    rw [History.drain, hdrained]
    exact Bool.or_true _
  have hfifo : history.drain.service.fifo = history.service.fifo := by
    rw [History.drain, hdrained]
    dsimp only
    split <;> rfl
  refine ⟨?_, ?_, ?_, fun _ => hlost, ?_, ?_⟩
  · rw [hfifo]
    exact h.overrun_eq
  · rw [hfifo]
    exact h.full_of_lost
  · rw [hfifo, hconsumed]
    exact h.offered_eq
  · have hloop : history.drain.service.loop = halted history.service.loop := by
      rw [History.drain, hdrained, halted]
      dsimp only
      split <;> rfl
    rw [hreported, hreplayed, hloop, h.loop_eq, if_pos rfl]
    split
    · exact halted_halted _
    · rfl
  · have hcodes : history.drain.codes = history.codes := by
      rw [History.drain, hdrained]
      exact List.append_nil _
    rw [hreplayed, hcodes]
    exact h.codes_eq

theorem Faithful.drain_of_intact {history : History depth} (h : Faithful history)
    (hlost : history.lost = false) : Faithful history.drain := by
  have hdrained := h.drained_of_intact hlost
  have hconsumed := h.consumed_of_intact hlost
  have hreported : history.reported = false :=
    Bool.eq_false_iff.mpr fun hreported =>
      Bool.eq_false_iff.mp hlost (h.lost_of_reported hreported)
  have hstill : history.drain.reported = false := by
    rw [History.drain, hdrained, hreported]
    rfl
  have hloop : history.service.loop = history.replayed.1 := by
    rw [h.loop_eq, hreported]
    rfl
  have hreplayed : history.drain.replayed =
      ((history.service.onTags history.service.fifo.queue).1.loop,
        history.replayed.2 ++ (history.service.onTags history.service.fifo.queue).2) := by
    obtain ⟨hsteered, hcodes⟩ :=
      onTags_eq_replay history.service.toSteering history.service.fifo.queue
    rw [hsteered, hcodes, hloop, History.replayed, hconsumed]
    exact replay_append history.origin history.consumed _
  refine ⟨?_, ?_, ⟨[], fun _ => rfl, ?_⟩, ?_, ?_, ?_⟩
  · rw [History.drain, hdrained]
    exact hlost.symm
  · intro hnow
    exact absurd (hlost.symm.trans hnow) Bool.false_ne_true
  · obtain ⟨dropped, hdropped, hoffered⟩ := h.offered_eq
    rw [hconsumed, List.map_append, map_snd_under]
    change history.offered = _ ++ history.drain.service.fifo.queue ++ []
    rw [hoffered, hdropped hlost, History.drain, hdrained]
    simp only [Fifo.queue_reset, List.append_nil]
  · intro hnow
    rw [hstill] at hnow
    cases hnow
  · rw [hstill, hreplayed, History.drain, hdrained]
    rfl
  · rw [hreplayed, History.drain, hdrained]
    change history.codes ++ _ = history.origin.actuator :: (history.replayed.2 ++ _)
    rw [h.codes_eq]
    rfl

theorem Faithful.call {history : History depth} (h : Faithful history) (call : Call) :
    Faithful (history.call call) := by
  cases call with
  | push tag => exact h.offer tag
  | pushRegister word => exact h.offer (.ofRegister word)
  | drain =>
      cases hlost : history.lost with
      | true => exact h.drain_of_lost hlost
      | false => exact h.drain_of_intact hlost
  | restart mode reference actuator =>
      rw [History.call, Service.restart]
      split
      · exact h
      · rename_i service code hrestarted
        split at hrestarted
        · cases hrestarted
        · cases hrestarted
          exact faithful_since rfl
  | setTarget units =>
      exact ⟨h.overrun_eq, h.full_of_lost, h.offered_eq, h.lost_of_reported, h.loop_eq, h.codes_eq⟩

theorem Faithful.calls {history : History depth} (h : Faithful history) (calls : List Call) :
    Faithful (history.calls calls) := by
  induction calls generalizing history with
  | nil => exact h
  | cons call calls ih => exact ih (h.call call)

theorem faithful_create (steering : Steering) : Faithful (.create depth steering) :=
  faithful_since rfl

theorem faithful_calls (depth : Nat) (steering : Steering) (calls : List Call) :
    Faithful ((History.create depth steering).calls calls) :=
  (faithful_create steering).calls calls

structure Gapless (history : History depth) : Prop where
  isPrefix : history.consumed.map Prod.snd <+: history.offered
  loop_eq : history.service.loop =
    if history.reported then halted history.replayed.1 else history.replayed.1
  codes_eq : history.codes = history.origin.actuator :: history.replayed.2
  drain_of_intact : history.lost = false →
    ∃ fresh, history.offered = history.consumed.map Prod.snd ++ fresh ∧
      history.service.drain.outcome = .ok fresh.length ∧
      history.drain.consumed =
        history.consumed ++ under history.service.registers.target fresh
  drain_of_lost : history.lost = true →
    history.service.drain.outcome = .error .overrun ∧ history.service.drain.codes = [] ∧
      history.drain.consumed = history.consumed

theorem Faithful.gapless {history : History depth} (h : Faithful history) : Gapless history := by
  obtain ⟨dropped, hdropped, hoffered⟩ := h.offered_eq
  refine ⟨?_, h.loop_eq, h.codes_eq, ?_, ?_⟩
  · rw [hoffered, List.append_assoc]
    exact List.prefix_append _ _
  · intro hlost
    refine ⟨history.service.fifo.queue, ?_, ?_, h.consumed_of_intact hlost⟩
    · rw [hoffered, hdropped hlost, List.append_nil]
    · rw [h.drained_of_intact hlost]
  · intro hlost
    rw [h.drained_of_lost hlost]
    exact ⟨rfl, rfl, h.consumed_of_lost hlost⟩

theorem Faithful.settled {history : History depth} (h : Faithful history)
    (hlost : history.lost = false) :
    history.drain.consumed.map Prod.snd = history.offered ∧
      history.drain.service.loop = history.drain.replayed.1 ∧
      history.drain.codes = history.origin.actuator :: history.drain.replayed.2 := by
  have hdrain := h.drain_of_intact hlost
  have hreported : history.drain.reported = false :=
    Bool.eq_false_iff.mpr fun hreported =>
      Bool.eq_false_iff.mp hlost (hdrain.lost_of_reported hreported)
  obtain ⟨dropped, hdropped, hoffered⟩ := h.offered_eq
  refine ⟨?_, ?_, hdrain.codes_eq⟩
  · rw [h.consumed_of_intact hlost, List.map_append, map_snd_under, hoffered, hdropped hlost,
      List.append_nil]
  · rw [hdrain.loop_eq, hreported, if_neg Bool.false_ne_true]

/-- If neither history lost a tag and both offered the same tags to the same loop, then a drain
brings them to the same loop and the same codes, provided that each tag was consumed under the same
setpoint. -/
def Agree {otherDepth : Nat} (history : History depth) (other : History otherDepth) : Prop :=
  history.lost = false → other.lost = false → history.origin = other.origin →
    history.offered = other.offered →
    history.drain.consumed.map Prod.fst = other.drain.consumed.map Prod.fst →
      history.drain.service.loop = other.drain.service.loop ∧
        history.drain.codes = other.drain.codes

theorem Faithful.agree {otherDepth : Nat} {history : History depth} {other : History otherDepth}
    (h : Faithful history) (hother : Faithful other) : Agree history other := by
  intro hlost hotherLost horigin hoffered htargets
  obtain ⟨htags, hloop, hcodes⟩ := h.settled hlost
  obtain ⟨hotherTags, hotherLoop, hotherCodes⟩ := hother.settled hotherLost
  have hconsumed : history.drain.consumed = other.drain.consumed := by
    rw [List.zip_of_prod htargets (htags.trans (hoffered.trans hotherTags.symm))]
    exact (List.zip_of_prod rfl rfl).symm
  have hreplayed : history.drain.replayed = other.drain.replayed := by
    rw [History.replayed, History.replayed, hconsumed]
    exact congrArg (replay · _) horigin
  rw [hloop, hcodes, hotherLoop, hotherCodes, hreplayed, horigin]
  exact ⟨rfl, rfl⟩

/-- However the calls are batched, the service consumes the tags offered in order and without a gap,
and what comes out of it is what the tags and the setpoints determine. -/
theorem calls_gapless (depth otherDepth : Nat) (steering other : Steering)
    (calls others : List Call) :
    Gapless ((History.create depth steering).calls calls) ∧
      Agree ((History.create depth steering).calls calls)
        ((History.create otherDepth other).calls others) :=
  ⟨(faithful_calls depth steering calls).gapless,
    (faithful_calls depth steering calls).agree (faithful_calls otherDepth other others)⟩

example :
    ((History.create 2 ⟨.stopped {} .slave (some 1) 32768, .fresh⟩).calls
      [.push ⟨1, 0⟩, .push ⟨0, 100⟩, .push ⟨0, 100⟩, .drain, .restart .slave 1 32768,
        .push ⟨1, 0⟩, .push ⟨0, 100⟩, .drain]).codes = [32768, 32776] := by
  decide

end TimingNode.Proofs.ServiceHistory
