import TimingNode.Word

namespace TimingNode.Scan

/-- The tuning of a scan. Phases are in picoseconds. -/
structure Config where
  period : UInt32 := 8000
  step : UInt32 := 100
  /-- Equal samples in a row before a level is trusted. -/
  threshold : UInt32 := 5
  channel : UInt8 := 0
  /-- Busy polls in a row that the scan puts up with. -/
  busyLimit : UInt32 := 1000000
deriving DecidableEq

inductive ConfigError where
  /-- The period is zero, or odd and so has no half. -/
  | invalidPeriod (period : UInt32)
  /-- The step is zero or not below the period. -/
  | invalidStep (step : UInt32)
  | invalidThreshold
  /-- The range of the scan leaves the signed 32-bit phases. -/
  | rangeOverflow
deriving DecidableEq

def ConfigError.message : ConfigError → String
  | .invalidPeriod period => s!"reference period {period} ps must be even and non-zero"
  | .invalidStep step => s!"scan step {step} ps must be non-zero and below the reference period"
  | .invalidThreshold => "deglitch threshold must be at least one sample"
  | .rangeOverflow => "scan range overflows the phase accumulator"

namespace Config

/-- One period and three times the back-dating distance, if every product and sum on the way fits
32 bits. -/
def checkedRange? (config : Config) : Option Nat := do
  let backdate ← Word.fit? 32 (config.threshold.toNat * config.step.toNat)
  let headroom ← Word.fit? 32 (backdate * 3)
  Word.fit? 32 (headroom + config.period.toNat)

/-- The phase that the scan has to reach before it is evaluated. -/
def range (config : Config) : Nat :=
  config.checkedRange?.getD (1 <<< 32 - 1)

/-- The distance by which a detected edge is dated back. -/
def backdate (config : Config) : Nat :=
  Word.clampUnsigned 32 (config.threshold.toNat * config.step.toNat)

def validate (config : Config) : Except ConfigError Unit :=
  if config.period = 0 ∨ config.period.toNat % 2 ≠ 0 then
    .error (.invalidPeriod config.period)
  else if config.step = 0 ∨ config.period ≤ config.step then
    .error (.invalidStep config.step)
  else if config.threshold = 0 then
    .error .invalidThreshold
  else
    match config.checkedRange? with
    | some range => if range < 1 <<< 31 then .ok () else .error .rangeOverflow
    | none => .error .rangeOverflow

def steps (config : Config) : Nat :=
  (config.range + config.step.toNat - 1) / config.step.toNat

/-- As many shifter polls as a scan needs when no more than the accepted number of them in a row
answer busy. -/
def patience (config : Config) : Nat :=
  (config.busyLimit.toNat + 1) * (config.steps + 1)

end Config

end TimingNode.Scan
