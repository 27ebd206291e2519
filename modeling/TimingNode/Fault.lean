namespace TimingNode

/-- Why an operation has no answer at all, as opposed to an answer that reports an error. -/
inductive Fault where
  /-- A phase was to be reduced modulo a reference period of zero. -/
  | zeroPeriod
  | zeroModulus
  /-- The reference counter left its 32-bit word. -/
  | counterOverflow
deriving DecidableEq

end TimingNode
