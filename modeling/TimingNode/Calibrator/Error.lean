import TimingNode.Scan

namespace TimingNode

inductive Calibrator.Error where
  | scan (failure : Scan.Failure)
  /-- The store is empty where a value is needed, or it refused a transfer. -/
  | storeUnavailable
  | linkDown
  | pllUnlocked
  | invalidConfig (cause : Scan.ConfigError)
deriving DecidableEq

namespace Calibrator.Error

def message : Error → String
  | .scan .shifterTimeout => "phase shifter did not settle"
  | .scan .rangeExhausted => "no flip-bit transition found in the scan range"
  | .storeUnavailable => "calibration store unavailable"
  | .linkDown => "link down"
  | .pllUnlocked => "PLL not locked"
  | .invalidConfig cause => "invalid calibration config: " ++ cause.message

def name : Error → String
  | .scan .shifterTimeout => "shifter timeout"
  | .scan .rangeExhausted => "range exhausted"
  | .storeUnavailable => "store unavailable"
  | .linkDown => "link down"
  | .pllUnlocked => "pll unlocked"
  | .invalidConfig _ => "invalid config"

end Calibrator.Error

end TimingNode
