import TimingNode.Loop.Service

namespace TimingNode.Proofs.TagReplay

open TimingNode.Loop
open TimingNode.Tag

def replay (loop : Loop) : List (Int32 × Tag) → Loop × List Nat
  | [] => (loop, [])
  | (target, tag) :: tags =>
      let (loop, code) := loop.onTag target tag
      let (loop, codes) := replay loop tags
      (loop, code.toList ++ codes)

def under (target : Int32) (tags : List Tag) : List (Int32 × Tag) :=
  tags.map (target, ·)

theorem map_snd_under (target : Int32) (tags : List Tag) :
    (under target tags).map Prod.snd = tags := by
  rw [under, List.map_map]
  exact List.map_id tags

theorem replay_append (loop : Loop) (first second : List (Int32 × Tag)) :
    replay loop (first ++ second) =
      ((replay (replay loop first).1 second).1,
        (replay loop first).2 ++ (replay (replay loop first).1 second).2) := by
  induction first generalizing loop with
  | nil => rfl
  | cons handed first ih =>
      obtain ⟨target, tag⟩ := handed
      simp only [List.cons_append, replay, ih, List.append_assoc]

theorem onTags_eq_replay (steering : Steering) (tags : List Tag) :
    (steering.onTags tags).1.loop =
        (replay steering.loop (under steering.registers.target tags)).1 ∧
      (steering.onTags tags).2 =
        (replay steering.loop (under steering.registers.target tags)).2 := by
  induction tags generalizing steering with
  | nil => exact ⟨rfl, rfl⟩
  | cons tag tags ih =>
      obtain ⟨hloop, hcode⟩ := steering.onTag_eq tag
      obtain ⟨hrest, hcodes⟩ := ih (steering.onTag tag).1
      rw [hloop, steering.target_onTag] at hrest hcodes
      rw [Steering.onTags, under, List.map_cons, replay]
      dsimp only
      rw [hcode, hrest, hcodes]
      exact ⟨rfl, rfl⟩

variable {depth : Nat}

/-- The service with one pop for each turn of its loop, at most `patience` of them, and the tags
that the pops handed out. -/
def popEach : (patience : Nat) → Service depth → List Tag × Service.Drained depth
  | 0, service => ([], ⟨service, [], .ok 0⟩)
  | patience + 1, service =>
      match service.fifo.pop with
      | (.error cause, fifo) =>
          let steering := if service.loop.faulted then service.toSteering else service.halt
          ([], ⟨⟨steering, fifo⟩, [], .error cause⟩)
      | (.ok none, fifo) => ([], ⟨{ service with fifo }, [], .ok 0⟩)
      | (.ok (some tag), fifo) =>
          let (steering, code) := service.onTag tag
          let (handed, rest) := popEach patience ⟨steering, fifo⟩
          (tag :: handed, ⟨rest.service, code.toList ++ rest.codes, rest.outcome.map (· + 1)⟩)

theorem popEach_of_overrun {service : Service depth} (h : service.fifo.overrun = true)
    (patience : Nat) : popEach (patience + 1) service = ([], service.drain) := by
  rw [popEach, Fifo.pop_of_overrun h, Service.drain, if_pos h]
  dsimp only
  split <;> rfl

theorem popEach_of_intact (steering : Steering) (queue : List Tag) :
    ∀ (hle : queue.length ≤ depth) {patience : Nat}, queue.length < patience →
      popEach patience (⟨steering, ⟨queue, false, hle⟩⟩ : Service depth) =
        (queue, Service.drain ⟨steering, ⟨queue, false, hle⟩⟩) := by
  induction queue generalizing steering with
  | nil =>
      intro hle patience hpatience
      obtain ⟨more, rfl⟩ := Nat.exists_eq_add_of_lt hpatience
      rfl
  | cons tag queue ih =>
      intro hle patience hpatience
      obtain ⟨more, rfl⟩ := Nat.exists_eq_add_of_lt hpatience
      have hrest := ih (steering.onTag tag).1 (Nat.le_of_succ_le hle)
        (show queue.length < queue.length + 1 + more by omega)
      rw [List.length_cons, popEach, Fifo.pop_cons]
      dsimp only
      rw [hrest]
      rfl

theorem popEach_eq_drain (service : Service depth) :
    popEach (depth + 1) service =
      (if service.fifo.overrun then [] else service.fifo.queue, service.drain) := by
  obtain ⟨steering, queue, overrun, hle⟩ := service
  cases overrun with
  | true => exact popEach_of_overrun rfl depth
  | false => exact popEach_of_intact steering queue hle (by omega)

end TimingNode.Proofs.TagReplay
