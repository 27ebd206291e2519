import TimingNode.Calibrator.Error

/-!
Obtaining the transition phase. A slave measures it and keeps it, and falls back on the stored
value when the scan finds no transition; a master has no locked clock to measure with and uses the
stored value only. Every value obtained becomes active before anything else is done with it.
-/

namespace TimingNode

inductive Role where
  | master
  | slave
deriving DecidableEq

def Role.name : Role → String
  | .master => "master"
  | .slave => "slave"

structure Calibrator (σ : Type) where
  config : Scan.Config
  /-- Shifter polls after which a scan is taken for endless. -/
  patience : Nat
  /-- The transition phase made active last. -/
  current : Option TransitionPhase
  world : σ

/-- A calibration program: it acts on a calibrator and its world and gives a value or an error, or
nothing at all if a scan in it is endless. -/
abbrev CalibrationM (σ ε : Type) := ExceptT ε (StateT (Calibrator σ) Option)

namespace Calibrator

variable {σ ε α : Type}

def create (config : Scan.Config) (world : σ) : Except Error (Calibrator σ) :=
  match config.validate with
  | .error cause => .error (.invalidConfig cause)
  | .ok () => .ok { config, patience := config.patience, current := none, world }

def act (action : σ → α × σ) : CalibrationM σ ε α := do
  let calibrator ← get
  let (answer, world) := action calibrator.world
  set { calibrator with world }
  return answer

def attempt {ε' : Type} (program : CalibrationM σ ε α) : CalibrationM σ ε' (Except ε α) :=
  ExceptT.lift program.run

def activate [CorrectionSink σ] (phase : TransitionPhase) : CalibrationM σ ε Unit :=
  modify fun calibrator =>
    { calibrator with
      current := some phase
      world := CorrectionSink.push phase calibrator.world }

/-- Runs a scan and makes its result active. The store is not touched. -/
def measure [Shifter σ] [PulseSource σ] [CorrectionSink σ] :
    CalibrationM σ Error TransitionPhase := do
  let calibrator ← get
  match Scan.start calibrator.config calibrator.world with
  | .error cause => throw (.invalidConfig cause)
  | .ok (scan, world) =>
      let (result, _, world) ← (Scan.run calibrator.patience scan world : Option _)
      set { calibrator with world }
      match result with
      | .error failure => throw (.scan failure)
      | .ok phase =>
          activate phase
          return phase

/-- Measures if the link is up and the PLL locked. Each is asked once, the link first. -/
def measureLocked [Link σ] [Pll σ] [Shifter σ] [PulseSource σ]
    [CorrectionSink σ] : CalibrationM σ Error TransitionPhase := do
  unless ← act Link.poll do throw .linkDown
  unless ← act Pll.poll do throw .pllUnlocked
  measure

def retrieve [TransitionStore σ] [CorrectionSink σ] :
    CalibrationM σ Error (Option TransitionPhase) := do
  match ← act TransitionStore.read with
  | .error _ => throw .storeUnavailable
  | .ok none => return none
  | .ok (some phase) =>
      activate phase
      return some phase

def keep [TransitionStore σ] (phase : TransitionPhase) :
    CalibrationM σ Error Unit := do
  match ← act (TransitionStore.write phase) with
  | .error _ => throw .storeUnavailable
  | .ok () => return ()

variable [Shifter σ] [PulseSource σ] [TransitionStore σ] [CorrectionSink σ]

/-- A slave measures and stores. Only when the scan finds no transition is the stored value used
instead. -/
def calibrateSlave : CalibrationM σ Error TransitionPhase := do
  match ← attempt measure with
  | .ok phase =>
      keep phase
      return phase
  | .error (.scan .rangeExhausted) =>
      match ← retrieve with
      | some phase => return phase
      | none => throw (.scan .rangeExhausted)
  | .error error => throw error

omit [Shifter σ] [PulseSource σ] in
def calibrateMaster : CalibrationM σ Error TransitionPhase := do
  match ← retrieve with
  | some phase => return phase
  | none => throw .storeUnavailable

def calibrate (role : Role) : CalibrationM σ Error TransitionPhase :=
  match role with
  | .slave => calibrateSlave
  | .master => calibrateMaster

end Calibrator

end TimingNode
