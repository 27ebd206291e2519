namespace TimingNode.Store

inductive Error where
  | read
  | write
deriving DecidableEq

def Error.message : Error → String
  | .read => "EEPROM read failed"
  | .write => "EEPROM write failed"

end TimingNode.Store
