import TimingNode.Calibrator.Error

namespace TimingNode.Shell

inductive Error where
  | tooManyArguments
  | invalidArgument
  | calibration (cause : Calibrator.Error)
  | output
deriving DecidableEq

def Error.message : Error → String
  | .tooManyArguments => "too many arguments"
  | .invalidArgument => "invalid argument"
  | .calibration cause => "calibration failed: " ++ cause.message
  | .output => "output error"

end TimingNode.Shell
