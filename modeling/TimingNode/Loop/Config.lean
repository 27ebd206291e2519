import TimingNode.Word

namespace TimingNode.Loop

/-- The tuning of a steering loop. Phases are in tag units unless said otherwise. -/
structure Config where
  /-- Tag units in one reference period. -/
  modulus : UInt32 := 16384
  period : UInt32 := 8000
  outputChannel : UInt8 := 0
  /-- Change of the actuator code at one comparison. -/
  step : UInt16 := 8
  /-- Greatest size of a phase error that counts as in band. -/
  lockBand : UInt32 := 64
  /-- Comparisons in a row that gain or lose the lock. -/
  lockSamples : UInt32 := 16
  /-- Change of the setpoint at one reference tag. -/
  shiftStep : Int32 := 16
  actuatorMin : UInt16 := 0
  actuatorMax : UInt16 := 65535
deriving DecidableEq

inductive Rejection where
  | modulusOutOfRange
  | zeroPeriod
  | zeroStep
  | zeroLockSamples
  | shiftStepNotPositive
  | emptyActuatorRange
  /-- The output would be compared with itself. -/
  | referenceIsOutput
deriving DecidableEq

namespace Rejection

def name : Rejection → String
  | .modulusOutOfRange => "tag modulus out of range"
  | .zeroPeriod => "reference period is zero"
  | .zeroStep => "actuator step is zero"
  | .zeroLockSamples => "lock sample count is zero"
  | .shiftStepNotPositive => "shift step must be positive"
  | .emptyActuatorRange => "empty actuator range"
  | .referenceIsOutput => "reference channel is the output channel"

def message (rejection : Rejection) : String :=
  "invalid loop config: " ++ rejection.name

end Rejection

namespace Config

def validate (config : Config) : Except Rejection Unit :=
  if config.modulus.toNat < 2 ∨ 1 <<< 24 < config.modulus.toNat then .error .modulusOutOfRange
  else if config.period = 0 then .error .zeroPeriod
  else if config.step = 0 then .error .zeroStep
  else if config.lockSamples = 0 then .error .zeroLockSamples
  else if config.shiftStep ≤ 0 then .error .shiftStepNotPositive
  else if config.actuatorMax ≤ config.actuatorMin then .error .emptyActuatorRange
  else .ok ()

/-- `x` times `numerator` over `denominator`, rounded toward zero and kept in 32 bits; a product
beyond 64 bits counts as the greatest or least one, and a denominator of zero as one. -/
def scale (numerator denominator : Nat) (x : Int) : Int :=
  Word.clampSigned 32 ((Word.clampSigned 64 (x * numerator)).tdiv (max denominator 1 : Nat))

def unitsOfPicoseconds (config : Config) : Int → Int :=
  scale config.modulus.toNat config.period.toNat

def picosecondsOfUnits (config : Config) : Int → Int :=
  scale config.period.toNat config.modulus.toNat

/-- The difference of two phases, folded into the half-open interval from minus half the modulus,
left out, to half the modulus. -/
def wrap (config : Config) (difference : Int) : Int :=
  let modulus : Int := (max config.modulus.toNat 1 : Nat)
  let folded := difference % modulus
  if modulus / 2 < folded then folded - modulus else folded

end Config

end TimingNode.Loop
