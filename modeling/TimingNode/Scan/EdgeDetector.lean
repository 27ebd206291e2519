import TimingNode.Scan.Config

/-!
Detection of one edge in a sequence of flip bits. A detector waits for a full run of the level
before the edge, then for a full run of the level after it, and dates the edge back by the length
of that run. Shorter runs are glitches and count for nothing.
-/

namespace TimingNode.Scan

inductive Polarity where
  | rising
  | falling
deriving DecidableEq

namespace Polarity

/-- The level after the edge. -/
def activeLevel : Polarity → Bool
  | .rising => true
  | .falling => false

def name : Polarity → String
  | .rising => "rising"
  | .falling => "falling"

end Polarity

inductive Detection where
  /-- `run` samples of the level before the edge in a row. -/
  | waiting (run : Nat)
  /-- The level before the edge is confirmed, and `run` samples of the level after it in a row. -/
  | armed (run : Nat)
  | found (phase : Int)
deriving DecidableEq

def Detection.phase? : Detection → Option Int
  | .found phase => some phase
  | _ => none

structure EdgeDetector where
  polarity : Polarity
  threshold : UInt32
  /-- Distance by which a found edge lies before the sample that completed its run. -/
  backdate : Int
  detection : Detection
  previous : Option Bool
deriving DecidableEq

namespace EdgeDetector

def create (polarity : Polarity) (config : Config) : EdgeDetector :=
  { polarity
    threshold := config.threshold
    backdate := Word.clampSigned 32 config.backdate
    detection := .waiting 0
    previous := none }

/-- What a sample taken at `phase` makes of a detection, after whether the edge is found by then;
`active` says whether the sample has the level after the edge. -/
def advance (threshold : UInt32) (backdate : Int) (active : Bool) (phase : Int) :
    Detection → Bool × Detection
  | .waiting run =>
      let run := if active then 0 else Word.clampUnsigned 32 (run + 1)
      (false, if threshold.toNat ≤ run then .armed 0 else .waiting run)
  | .armed run =>
      if active then
        let run := Word.clampUnsigned 32 (run + 1)
        if run < threshold.toNat then (false, .armed run)
        else (true, .found (Word.clampSigned 32 (phase - backdate)))
      else (false, .armed 0)
  | .found phase => (true, .found phase)

/-- The detector after the flip bit `flip` sampled at `phase`, and whether it has found its edge. -/
def update (detector : EdgeDetector) (flip : Bool) (phase : Int) : Bool × EdgeDetector :=
  let active := flip == detector.polarity.activeLevel
  let (found, detection) :=
    advance detector.threshold detector.backdate active phase detector.detection
  (found, { detector with detection, previous := some flip })

def sample (detector : EdgeDetector) (flip : Bool) (phase : Int) : EdgeDetector :=
  (detector.update flip phase).2

def sampleAll (detector : EdgeDetector) (samples : List (Bool × Int)) : EdgeDetector :=
  samples.foldl (fun detector sample => detector.sample sample.1 sample.2) detector

/-- The phase of the edge, as a signed phase that may lie below zero or above the period. -/
def phase? (detector : EdgeDetector) : Option Int :=
  detector.detection.phase?

def isDone (detector : EdgeDetector) : Bool :=
  detector.phase?.isSome

theorem advance_fst (threshold : UInt32) (backdate : Int) (active : Bool) (phase : Int)
    (detection : Detection) :
    (advance threshold backdate active phase detection).1 =
      (advance threshold backdate active phase detection).2.phase?.isSome := by
  rcases detection with run | run | edge
  · simp only [advance]
    repeat' split
    all_goals rfl
  · simp only [advance]
    repeat' split
    all_goals rfl
  · rfl

theorem update_fst (detector : EdgeDetector) (flip : Bool) (phase : Int) :
    (detector.update flip phase).1 = (detector.sample flip phase).isDone :=
  advance_fst _ _ _ _ _

@[simp] theorem sampleAll_nil (detector : EdgeDetector) : detector.sampleAll [] = detector :=
  rfl

@[simp] theorem sampleAll_cons (detector : EdgeDetector) (sample : Bool × Int)
    (samples : List (Bool × Int)) :
    detector.sampleAll (sample :: samples) =
      (detector.sample sample.1 sample.2).sampleAll samples :=
  rfl

end EdgeDetector

end TimingNode.Scan
