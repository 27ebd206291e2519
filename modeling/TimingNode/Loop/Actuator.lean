import TimingNode.Loop.Config

namespace TimingNode.Loop.Actuator

def fullScale : Nat := 65535

def midScale : Nat := 32768

def clamp (config : Config) (code : Nat) : Nat :=
  max config.actuatorMin.toNat (min code config.actuatorMax.toNat)

def raise (config : Config) (code : Nat) : Nat :=
  min (Word.clampUnsigned 16 (code + config.step.toNat)) config.actuatorMax.toNat

def lower (config : Config) (code : Nat) : Nat :=
  max (code - config.step.toNat) config.actuatorMin.toNat

def steer (config : Config) (phaseError : Int) (code : Nat) : Nat :=
  if 0 < phaseError then raise config code
  else if phaseError < 0 then lower config code
  else code

theorem clamp_mem (config : Config) (code : Nat)
    (hrange : config.actuatorMin ≤ config.actuatorMax) :
    config.actuatorMin.toNat ≤ clamp config code ∧
      clamp config code ≤ config.actuatorMax.toNat := by
  have hnat := UInt16.le_iff_toNat_le.mp hrange
  simp only [clamp]
  omega

end TimingNode.Loop.Actuator
