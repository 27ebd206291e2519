import TimingNode.Loop

namespace TimingNode.Loop

structure Steering where
  loop : Loop
  registers : Registers
deriving DecidableEq

namespace Steering

def publish (loop : Loop) (registers : Registers) : Steering :=
  { loop, registers := { registers with status := loop.status } }

def publishSetpoint (loop : Loop) (registers : Registers) : Steering :=
  publish loop { registers with current := loop.setpoint }

def create (config : Config) (registers : Registers) : Except Rejection Steering :=
  match config.validate with
  | .error rejection => .error rejection
  | .ok () => .ok (publishSetpoint (.stopped config .slave none Actuator.midScale) registers)

/-- Forgets all tags and stops, ready to steer against `reference` from `actuator`. A reference on
the output channel is rejected. -/
def init (steering : Steering) (mode : Mode) (reference : UInt8) (actuator : Nat) :
    Except Rejection Steering :=
  if reference = steering.loop.config.outputChannel then .error .referenceIsOutput
  else
    .ok (publishSetpoint (.stopped steering.loop.config mode (some reference) actuator)
      steering.registers)

def start (steering : Steering) : Steering :=
  publish { steering.loop with running := true } steering.registers

def halt (steering : Steering) : Steering :=
  publish { steering.loop with running := false, faulted := true, locked := false }
    steering.registers

/-- One tag, and the actuator code to output if the tag gave a comparison. -/
def onTag (steering : Steering) (tag : Tag) : Steering × Option Nat :=
  if steering.loop.running then
    let (loop, code) := steering.loop.onTag steering.registers.target tag
    if steering.loop.reference = some tag.channel then
      (publishSetpoint loop steering.registers, code)
    else (publish loop steering.registers, code)
  else (steering, none)

def onTags (steering : Steering) : List Tag → Steering × List Nat
  | [] => (steering, [])
  | tag :: tags =>
      let (steering, code) := steering.onTag tag
      let (steering, codes) := steering.onTags tags
      (steering, code.toList ++ codes)

def setTarget (steering : Steering) (units : Int32) : Steering :=
  { steering with registers := steering.registers.setTarget units }

theorem target_init {steering ready : Steering} {mode : Mode} {reference : UInt8} {actuator : Nat}
    (h : steering.init mode reference actuator = .ok ready) :
    ready.registers.target = steering.registers.target := by
  rw [init] at h
  split at h
  · cases h
  · cases h
    rfl

theorem target_onTag (steering : Steering) (tag : Tag) :
    (steering.onTag tag).1.registers.target = steering.registers.target := by
  rw [onTag]
  split
  · dsimp only
    split <;> rfl
  · rfl

theorem onTag_eq (steering : Steering) (tag : Tag) :
    (steering.onTag tag).1.loop = (steering.loop.onTag steering.registers.target tag).1 ∧
      (steering.onTag tag).2 = (steering.loop.onTag steering.registers.target tag).2 := by
  rw [onTag]
  split
  · dsimp only
    split <;> exact ⟨rfl, rfl⟩
  · rename_i hstopped
    rw [Loop.onTag, if_neg hstopped]
    exact ⟨rfl, rfl⟩

end Steering

end TimingNode.Loop
