import TimingNode.Calibrator
import TimingNode.Shell.Tracking

namespace TimingNode.Shell

structure Limits where
  pollInterval : UInt32 := 100
  /-- Polls of the link that are followed by a wait. -/
  linkPolls : UInt32 := 600
  lockPolls : UInt32 := 600
deriving DecidableEq

namespace Calibration

open Calibrator

variable {σ : Type}

/-- Polls until the answer is yes, waiting after each of the first `polls` polls and not after the
last. -/
def awaitReady [Delay σ] (interval : UInt32) (poll : σ → Bool × σ) : (polls : Nat) → σ → Bool × σ
  | 0, world => poll world
  | polls + 1, world =>
      match poll world with
      | (true, world) => (true, world)
      | (false, world) => awaitReady interval poll polls (Delay.wait interval world)

def say [Console σ] (text : String) : CalibrationM σ Error Unit := do
  match ← act (sayLine text) with
  | .ok () => return ()
  | .error error => throw error

variable [Link σ] [Pll σ] [Delay σ] [Console σ] [Shifter σ] [PulseSource σ]
  [TransitionStore σ] [CorrectionSink σ]

/-- Waits for the link, starts the PLL and waits for its lock, then measures and stores. A wait that
runs out is reported, and the measurement looks for itself. -/
def measureAndKeep (limits : Limits) : CalibrationM σ Error TransitionPhase := do
  say "Waiting for link..."
  unless ← act (awaitReady limits.pollInterval Link.poll limits.linkPolls.toNat) do
    say "link timeout"
  act fun world => ((), Pll.start world)
  say "Locking PLL..."
  unless ← act (awaitReady limits.pollInterval Pll.poll limits.lockPolls.toNat) do
    say "lock timeout"
  say "Calibrating RX timestamper..."
  let phase ← ExceptT.adapt .calibration measureLocked
  let value := phase.picoseconds
  say s!"t24p value is {value} ps, storing to EEPROM"
  ExceptT.adapt .calibration (keep phase)
  return phase

/-- Runs the command. Without an argument a stored value is reported and nothing is measured; a
store that cannot be read counts as empty. -/
def run (limits : Limits) (arguments : List String) :
    CalibrationM σ Error TransitionPhase := do
  match arguments with
  | [] =>
      match ← attempt retrieve with
      | .ok (some phase) =>
          let value := phase.picoseconds
          say s!"Found phase transition in EEPROM: {value}ps"
          return phase
      | _ =>
          say "Measuring t2/t4 phase transition..."
          measureAndKeep limits
  | [word] => if isKeyword "force" word then measureAndKeep limits else throw .invalidArgument
  | _ => throw .invalidArgument

end Calibration

end TimingNode.Shell
