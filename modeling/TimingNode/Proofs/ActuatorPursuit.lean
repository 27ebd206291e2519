import TimingNode.Proofs.SteeringArithmetic

namespace TimingNode.Proofs.ActuatorPursuit

open TimingNode.Loop
open TimingNode.Proofs.SteeringArithmetic

/-- What a loop remembers from one comparison to the next. -/
structure Position where
  setpoint : Int32
  actuator : Nat

section Pursuit

variable (config : Config) (target : Int32) (balance : Nat)

/-- The actuator code that leaves no error at the next comparison. -/
def Position.goal (position : Position) : Int :=
  balance - (walk config target position.setpoint).toInt

def Position.error (position : Position) : Int :=
  position.goal config target balance - position.actuator

def Position.next (position : Position) : Position :=
  { setpoint := walk config target position.setpoint
    actuator := Actuator.steer config (position.error config target balance) position.actuator }

/-- The position after a number of comparisons, from the code `actuator` on. -/
def pursue (actuator : Nat) : (count : Nat) → Position
  | 0 => { setpoint := 0, actuator }
  | count + 1 => (pursue actuator count).next config target balance

/-- A bound for all errors of a pursuit. -/
def reach (actuator : Nat) : Nat :=
  ((balance : Int) - actuator).natAbs + target.toInt.natAbs + config.step.toNat

end Pursuit

/-- Where a pursuit can end: the tuning moves both ways, and the code that leaves no error at the
target is allowed. -/
structure Attainable (config : Config) (target : Int32) (balance actuator : Nat) : Prop where
  shiftStep_pos : 0 < config.shiftStep.toInt
  step_pos : 0 < config.step.toNat
  actuator_low : config.actuatorMin.toNat ≤ actuator
  actuator_high : actuator ≤ config.actuatorMax.toNat
  goal_low : config.actuatorMin.toNat ≤ balance - target.toInt
  goal_high : balance - target.toInt ≤ config.actuatorMax.toNat

section Attainable

variable {config : Config} {target : Int32} {balance actuator : Nat}
  (h : Attainable config target balance actuator)
include h

theorem natAbs_setpoint_pursue (count : Nat) :
    (target.toInt - (pursue config target balance actuator count).setpoint.toInt).natAbs =
      target.toInt.natAbs - count * config.shiftStep.toInt.toNat := by
  induction count with
  | zero => simp [pursue]
  | succ count ih =>
      change (target.toInt - (walk config target _).toInt).natAbs = _
      rw [natAbs_sub_walk h.shiftStep_pos, ih, Nat.succ_mul, Nat.sub_sub]

theorem setpoint_pursue_mem (count : Nat) :
    min 0 target.toInt ≤ (pursue config target balance actuator count).setpoint.toInt ∧
      (pursue config target balance actuator count).setpoint.toInt ≤ max 0 target.toInt := by
  induction count with
  | zero =>
      constructor
      · exact Int.min_le_left 0 target.toInt
      · exact Int.le_max_left 0 target.toInt
  | succ count ih =>
      have hwalk := toInt_walk_mem h.shiftStep_pos target
        (pursue config target balance actuator count).setpoint
      change _ ≤ (walk config target _).toInt ∧ (walk config target _).toInt ≤ _
      omega

theorem actuator_pursue_mem (count : Nat) :
    config.actuatorMin.toNat ≤ (pursue config target balance actuator count).actuator ∧
      (pursue config target balance actuator count).actuator ≤ config.actuatorMax.toNat := by
  induction count with
  | zero => exact ⟨h.actuator_low, h.actuator_high⟩
  | succ count ih => exact steer_mem ih.1 ih.2 _

theorem goal_pursue_mem (count : Nat) :
    (balance : Int) - max 0 target.toInt ≤
        (pursue config target balance actuator count).goal config target balance ∧
      (pursue config target balance actuator count).goal config target balance ≤
        balance - min 0 target.toInt := by
  have hsetpoint := setpoint_pursue_mem h (count + 1)
  change _ ≤ balance - (walk config target _).toInt ∧ balance - (walk config target _).toInt ≤ _
  change _ ≤ (walk config target _).toInt ∧ (walk config target _).toInt ≤ _ at hsetpoint
  omega

theorem actuator_pursue_near (count : Nat) :
    min (actuator : Int) (balance - max 0 target.toInt - config.step.toNat) ≤
        (pursue config target balance actuator count).actuator ∧
      ((pursue config target balance actuator count).actuator : Int) ≤
        max (actuator : Int) (balance - min 0 target.toInt + config.step.toNat) := by
  induction count with
  | zero =>
      constructor
      · exact Int.min_le_left _ _
      · exact Int.le_max_left _ _
  | succ count ih =>
      obtain ⟨hlow, hhigh⟩ := actuator_pursue_mem h count
      -- The goals alone span less than the interval, by a step at each end.
      obtain ⟨hgoalLow, hgoalHigh⟩ := goal_pursue_mem h count
      exact steer_mem_of_goal_mem hlow hhigh ih.1 ih.2 (by omega) (by omega)

theorem natAbs_error_pursue_le_reach (count : Nat) :
    ((pursue config target balance actuator count).error config target balance).natAbs ≤
      reach config target balance actuator := by
  obtain ⟨hgoalLow, hgoalHigh⟩ := goal_pursue_mem h count
  obtain ⟨hlow, hhigh⟩ := actuator_pursue_near h count
  rw [Position.error, reach]
  omega

theorem natAbs_sub_actuator_pursue_le_reach (count : Nat) :
    ((balance : Int) - (pursue config target balance actuator count).actuator).natAbs ≤
      reach config target balance actuator := by
  obtain ⟨hlow, hhigh⟩ := actuator_pursue_near h count
  rw [reach]
  omega

theorem goal_pursue_of_le (count : Nat)
    (hcount : target.toInt.natAbs ≤ (count + 1) * config.shiftStep.toInt.toNat) :
    (pursue config target balance actuator count).goal config target balance =
      balance - target.toInt := by
  have hdistance := natAbs_setpoint_pursue h (count + 1)
  change (target.toInt - (walk config target _).toInt).natAbs = _ at hdistance
  rw [Position.goal]
  omega

theorem natAbs_error_pursue_succ {count : Nat}
    (hcount : target.toInt.natAbs ≤ (count + 1) * config.shiftStep.toInt.toNat) :
    let before := ((pursue config target balance actuator count).error config target balance).natAbs
    let later :=
      ((pursue config target balance actuator (count + 1)).error config target balance).natAbs
    (config.step.toNat ≤ before → later = before - config.step.toNat) ∧
      (before < config.step.toNat → later < config.step.toNat) := by
  have hgoal := goal_pursue_of_le h count hcount
  have hnext := goal_pursue_of_le h (count + 1) (by rw [Nat.succ_mul]; omega)
  dsimp only
  rw [Position.error, Position.error, hgoal, hnext, pursue, Position.next, Position.error, hgoal]
  exact ⟨natAbs_sub_steer_of_le h.goal_low h.goal_high, natAbs_sub_steer_lt h.goal_low h.goal_high⟩

theorem natAbs_error_pursue_le {arrival : Nat}
    (harrival : target.toInt.natAbs ≤ (arrival + 1) * config.shiftStep.toInt.toNat) (count : Nat) :
    ((pursue config target balance actuator (arrival + count)).error config target balance).natAbs ≤
      max (reach config target balance actuator - count * config.step.toNat)
        (config.step.toNat - 1) := by
  induction count with
  | zero =>
      have hreach := natAbs_error_pursue_le_reach h arrival
      simp only [Nat.add_zero, Nat.zero_mul, Nat.sub_zero]
      omega
  | succ count ih =>
      have hlater : target.toInt.natAbs ≤
          (arrival + count + 1) * config.shiftStep.toInt.toNat :=
        Nat.le_trans harrival (Nat.mul_le_mul_right _ (by omega))
      obtain ⟨hfar, hnear⟩ := natAbs_error_pursue_succ h hlater
      have hstep := h.step_pos
      rw [← Nat.add_assoc, Nat.succ_mul]
      omega

end Attainable

end TimingNode.Proofs.ActuatorPursuit
