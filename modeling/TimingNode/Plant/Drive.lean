import TimingNode.Plant

namespace TimingNode.Plant

structure Drive (depth : Nat) where
  plant : Plant depth
  restarts : Nat

namespace Drive

variable {depth : Nat}

/-- Restarts a halted loop as a slave from its present actuator code. -/
def recover (drive : Drive depth) : Except Loop.Rejection (Drive depth) :=
  if drive.plant.service.loop.faulted then
    match drive.plant.restart .slave Wiring.referenceChannel drive.plant.service.loop.actuator with
    | .error rejection => .error rejection
    | .ok plant => .ok { plant, restarts := Word.clampUnsigned 32 (drive.restarts + 1) }
  else .ok drive

def step (drive : Drive depth) : Except Loop.Rejection (Drive depth) :=
  match drive.recover with
  | .error rejection => .error rejection
  | .ok drive => .ok { drive with plant := drive.plant.tick.2 }

/-- A number of periods, ending early when a restart is rejected. -/
def run : (periods : Nat) → Drive depth → Drive depth
  | 0, drive => drive
  | periods + 1, drive =>
      match drive.step with
      | .error _ => drive
      | .ok drive => run periods drive

end Drive

end TimingNode.Plant
