import TimingNode.Loop

namespace TimingNode.Proofs.SteeringArithmetic

open TimingNode.Loop

theorem wrap_of_two_mul_lt {config : Config} {difference : Int}
    (hsmall : 2 * difference.natAbs < config.modulus.toNat) :
    config.wrap difference = difference := by
  have hmodulus : ((max config.modulus.toNat 1 : Nat) : Int) = config.modulus.toNat := by omega
  rw [Config.wrap, hmodulus]
  rcases Int.le_total 0 difference with hsign | hsign
  · rw [Int.emod_eq_of_lt hsign (by omega), if_neg (by omega)]
  · have hfolded : difference % config.modulus.toNat =
        (difference + config.modulus.toNat) % config.modulus.toNat := by simp
    by_cases hzero : difference = 0
    · simp [hzero]
      omega
    · rw [hfolded, Int.emod_eq_of_lt (by omega) (by omega), if_pos (by omega)]
      omega

theorem wrap_eq_of_emod_eq {config : Config} (hmodulus : 0 < config.modulus.toNat) {x y : Int}
    (hresidue : x % config.modulus.toNat = y % config.modulus.toNat) :
    config.wrap x = config.wrap y := by
  have hmax : max config.modulus.toNat 1 = config.modulus.toNat := Nat.max_eq_left hmodulus
  rw [Config.wrap, Config.wrap, hmax, hresidue]

section Setpoint

variable {config : Config} (hstep : 0 < config.shiftStep.toInt)
include hstep

/-- No step of the setpoint saturates, since it stops at a target that fits its word. -/
theorem toInt_walk (target setpoint : Int32) :
    (walk config target setpoint).toInt =
      if setpoint.toInt < target.toInt then
        min (setpoint.toInt + config.shiftStep.toInt) target.toInt
      else max (setpoint.toInt - config.shiftStep.toInt) target.toInt := by
  have hsetpointLow := setpoint.le_toInt
  have hsetpointHigh := setpoint.toInt_lt
  have htargetLow := target.le_toInt
  have htargetHigh := target.toInt_lt
  have hclamp (x : Int) : Word.clampSigned 32 x = max (-2147483648) (min x 2147483647) := rfl
  rw [walk]
  simp only [Int32.lt_iff_toInt_lt, hclamp]
  split
  · rw [Int32.toInt_ofInt_of_le (by omega) (by omega)]
    omega
  · rw [Int32.toInt_ofInt_of_le (by omega) (by omega)]
    omega

theorem toInt_walk_mem (target setpoint : Int32) :
    min setpoint.toInt target.toInt ≤ (walk config target setpoint).toInt ∧
      (walk config target setpoint).toInt ≤ max setpoint.toInt target.toInt := by
  rw [toInt_walk hstep]
  split <;> omega

theorem natAbs_sub_walk (target setpoint : Int32) :
    (target.toInt - (walk config target setpoint).toInt).natAbs =
      (target.toInt - setpoint.toInt).natAbs - config.shiftStep.toInt.toNat := by
  rw [toInt_walk hstep]
  split <;> omega

end Setpoint

theorem cast_steer (config : Config) (goal : Int) (code : Nat) :
    (Actuator.steer config (goal - code) code : Int) =
      if code < goal then min (code + config.step.toNat : Int) config.actuatorMax.toNat
      else if goal < code then max (code - config.step.toNat : Int) config.actuatorMin.toNat
      else code := by
  have hclamp (n : Nat) : Word.clampUnsigned 16 n = min n 65535 := rfl
  have hword := config.actuatorMax.toNat_lt
  rcases Int.lt_trichotomy code goal with hup | heq | hdown
  · rw [Actuator.steer, if_pos (by omega), if_pos hup, Actuator.raise, hclamp]
    omega
  · rw [Actuator.steer, if_neg (by omega), if_neg (by omega), if_neg (by omega),
      if_neg (by omega)]
  · rw [Actuator.steer, if_neg (by omega), if_pos (by omega), if_neg (by omega), if_pos hdown,
      Actuator.lower]
    omega

theorem natAbs_sub_steer_of_le {config : Config} {goal : Int} {code : Nat}
    (hlow : config.actuatorMin.toNat ≤ goal) (hhigh : goal ≤ config.actuatorMax.toNat)
    (hfar : config.step.toNat ≤ (goal - code).natAbs) :
    (goal - Actuator.steer config (goal - code) code).natAbs =
      (goal - code).natAbs - config.step.toNat := by
  rw [cast_steer]
  split
  · omega
  · split <;> omega

theorem natAbs_sub_steer_lt {config : Config} {goal : Int} {code : Nat}
    (hlow : config.actuatorMin.toNat ≤ goal) (hhigh : goal ≤ config.actuatorMax.toNat)
    (hnear : (goal - code).natAbs < config.step.toNat) :
    (goal - Actuator.steer config (goal - code) code).natAbs < config.step.toNat := by
  rw [cast_steer]
  split
  · omega
  · split <;> omega

theorem cast_steer_eq_clamp {config : Config} {code : Nat}
    (hlow : config.actuatorMin.toNat ≤ code) (hhigh : code ≤ config.actuatorMax.toNat)
    (phaseError : Int) :
    (Actuator.steer config phaseError code : Int) =
      max (config.actuatorMin.toNat : Int)
        (min (code + config.step.toNat * phaseError.sign) config.actuatorMax.toNat) := by
  have hsteer := cast_steer config (phaseError + code) code
  rw [Int.add_sub_cancel] at hsteer
  rw [hsteer]
  rcases Int.lt_trichotomy phaseError 0 with hneg | rfl | hpos
  · rw [Int.sign_eq_neg_one_of_neg hneg, if_neg (by omega), if_pos (by omega)]
    omega
  · rw [Int.sign_zero, if_neg (by omega), if_neg (by omega)]
    omega
  · rw [Int.sign_eq_one_of_pos hpos, if_pos (by omega)]
    omega

theorem steer_mem {config : Config} {code : Nat} (hlow : config.actuatorMin.toNat ≤ code)
    (hhigh : code ≤ config.actuatorMax.toNat) (phaseError : Int) :
    config.actuatorMin.toNat ≤ Actuator.steer config phaseError code ∧
      Actuator.steer config phaseError code ≤ config.actuatorMax.toNat := by
  have hsteer := cast_steer_eq_clamp hlow hhigh phaseError
  omega

theorem steer_near {config : Config} {code : Nat} (hlow : config.actuatorMin.toNat ≤ code)
    (hhigh : code ≤ config.actuatorMax.toNat) (phaseError : Int) :
    Actuator.steer config phaseError code ≤ code + config.step.toNat ∧
      code ≤ Actuator.steer config phaseError code + config.step.toNat := by
  have hsteer := cast_steer config (phaseError + code) code
  rw [Int.add_sub_cancel] at hsteer
  split at hsteer
  · omega
  · split at hsteer <;> omega

theorem steer_mem_of_goal_mem {config : Config} {code : Nat} {goal bottom top : Int}
    (hlow : config.actuatorMin.toNat ≤ code) (hhigh : code ≤ config.actuatorMax.toNat)
    (hbottom : bottom ≤ code) (htop : code ≤ top)
    (hgoalBottom : bottom + config.step.toNat ≤ goal)
    (hgoalTop : goal + config.step.toNat ≤ top) :
    bottom ≤ Actuator.steer config (goal - code) code ∧
      Actuator.steer config (goal - code) code ≤ top := by
  rw [cast_steer]
  split
  · omega
  · split <;> omega

end TimingNode.Proofs.SteeringArithmetic
