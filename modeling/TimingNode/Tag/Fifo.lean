import TimingNode.Tag

/-!
The bounded queue of tags. A push into a full queue drops the tag and leaves the history with a
hole, so from then on nothing is handed out until the queue is reset.
-/

namespace TimingNode.Tag

inductive Overrun where
  | overrun
deriving DecidableEq

namespace Overrun

def message : Overrun → String
  | .overrun => "tag FIFO overrun"

def name : Overrun → String
  | .overrun => "fifo overrun"

end Overrun

/-- A queue of at most `depth` tags, and whether a tag was dropped since the last reset. -/
structure Fifo (depth : Nat) where
  queue : List Tag
  overrun : Bool
  length_le : queue.length ≤ depth
deriving DecidableEq

namespace Fifo

variable {depth : Nat}

def empty (depth : Nat) : Fifo depth := ⟨[], false, Nat.zero_le depth⟩

/-- Queues a tag, or drops it and remembers that if the queue is full. -/
def push (fifo : Fifo depth) (tag : Tag) : Except Overrun Unit × Fifo depth :=
  if h : fifo.queue.length < depth then
    (.ok (),
      { fifo with
        queue := fifo.queue ++ [tag]
        length_le := by simpa using Nat.succ_le_of_lt h })
  else
    (.error .overrun, { fifo with overrun := true })

def pushRegister (fifo : Fifo depth) (word : UInt32) : Except Overrun Unit × Fifo depth :=
  fifo.push (.ofRegister word)

/-- Takes the oldest tag, if there is one. After an overrun nothing is handed out. -/
def pop (fifo : Fifo depth) : Except Overrun (Option Tag) × Fifo depth :=
  if fifo.overrun then (.error .overrun, fifo)
  else
    match fifo with
    | ⟨[], overrun, hle⟩ => (.ok none, ⟨[], overrun, hle⟩)
    | ⟨tag :: queue, overrun, hle⟩ => (.ok (some tag), ⟨queue, overrun, Nat.le_of_succ_le hle⟩)

def reset (_ : Fifo depth) : Fifo depth := empty depth

@[simp] theorem queue_reset (fifo : Fifo depth) : fifo.reset.queue = [] := rfl

@[simp] theorem overrun_reset (fifo : Fifo depth) : fifo.reset.overrun = false := rfl

theorem push_of_lt {fifo : Fifo depth} (tag : Tag) (h : fifo.queue.length < depth) :
    (fifo.push tag).1 = .ok () ∧ (fifo.push tag).2.queue = fifo.queue ++ [tag] ∧
      (fifo.push tag).2.overrun = fifo.overrun := by
  simp [push, h]

theorem push_of_full {fifo : Fifo depth} (tag : Tag) (h : ¬ fifo.queue.length < depth) :
    (fifo.push tag).1 = .error .overrun ∧ (fifo.push tag).2.queue = fifo.queue ∧
      (fifo.push tag).2.overrun = true := by
  simp [push, h]

theorem pop_of_overrun {fifo : Fifo depth} (h : fifo.overrun = true) :
    fifo.pop = (.error .overrun, fifo) := by
  rw [pop.eq_def, if_pos h]

theorem pop_cons (tag : Tag) (queue : List Tag) (hle : queue.length + 1 ≤ depth) :
    (⟨tag :: queue, false, hle⟩ : Fifo depth).pop =
      (.ok (some tag), ⟨queue, false, Nat.le_of_succ_le hle⟩) := rfl

end Fifo

end TimingNode.Tag
