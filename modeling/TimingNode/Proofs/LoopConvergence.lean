import TimingNode.Proofs.ActuatorPursuit
import TimingNode.Proofs.LoopTags
import TimingNode.Proofs.LoopTuning
import TimingNode.Proofs.PlantTick

/-!
A loop that steers an oscillator converges and locks. As long as no phase comes near half the
modulus, the plant pursues the balance tick by tick; from a known tick on the error stays below one
step, and a band of that width keeps the lock.
-/

namespace TimingNode.Proofs.LoopConvergence

open TimingNode.Loop
open TimingNode.Proofs.ActuatorPursuit
open TimingNode.Proofs.LoopTags
open TimingNode.Proofs.LoopTuning
open TimingNode.Proofs.PlantTick
open TimingNode.Proofs.SteeringArithmetic

/-- A new loop on an oscillator, set up against the reference, started and sent to `target`. -/
def engage (depth : Nat) (config : Config) (registers : Registers) (mode : Mode) (balance : UInt16)
    (actuator : Nat) (target : Int32) : Except Rejection (Plant depth) := do
  let created ← Steering.create config registers
  let ready ← created.init mode Wiring.referenceChannel actuator
  return .create (Service.create (ready.start.setTarget target) (.empty depth))
    (.create config balance)

def statusAfter {depth : Nat} (plant : Plant depth) (count : Nat) : Status :=
  (plant.ticks count).service.registers.status

/-- The ticks that the setpoint needs to its target. -/
def walkTicks (config : Config) (target : Int32) : Nat :=
  (target.toInt.natAbs + config.shiftStep.toInt.toNat - 1) / config.shiftStep.toInt.toNat

/-- The ticks that the actuator needs once the setpoint has arrived, and one more. -/
def settleTicks (config : Config) (target : Int32) (balance actuator : Nat) : Nat :=
  (reach config target balance actuator + config.step.toNat - 1) / config.step.toNat + 1

theorem settleTicks_pos (config : Config) (target : Int32) (balance actuator : Nat) :
    0 < settleTicks config target balance actuator :=
  Nat.succ_pos _

/-- What a plant has to be for the pursuit of its loop to be free of wraps and overruns. -/
structure Engageable (depth : Nat) (config : Config) (mode : Mode) (target : Int32)
    (balance actuator : Nat) : Prop extends Attainable config target balance actuator where
  two_le_depth : 2 ≤ depth
  modulus_le : config.modulus.toNat ≤ 0x1000000
  output_eq : config.outputChannel = Wiring.outputChannel
  steers : mode.steers = true
  reach_lt : 2 * reach config target balance actuator < config.modulus.toNat

variable {depth : Nat} {config : Config} {mode : Mode} {target : Int32} {balance actuator : Nat}

/-- A plant whose loop is as far as the pursuit after `count` comparisons. -/
structure Pursuing (config : Config) (mode : Mode) (target : Int32) (balance actuator count : Nat)
    (plant : Plant depth) : Prop where
  fifo_eq : plant.service.fifo = .empty depth
  modulus_eq : plant.oscillator.modulus = config.modulus.toNat
  balance_eq : plant.oscillator.balance = balance
  reference_lt : plant.oscillator.reference < config.modulus.toNat
  duty_eq : duty plant.service.loop = ⟨config, mode, some Wiring.referenceChannel, true, false⟩
  target_eq : plant.service.registers.target = target
  status_eq : plant.service.registers.status = plant.service.loop.status
  setpoint_eq : plant.service.loop.setpoint =
    (pursue config target balance actuator count).setpoint
  actuator_eq : plant.service.loop.actuator =
    (pursue config target balance actuator count).actuator

theorem engage_eq_ok (registers : Registers) {balance : UInt16}
    (h : Engageable depth config mode target balance.toNat actuator)
    (hvalid : config.validate = .ok ()) :
    ∃ plant : Plant depth, engage depth config registers mode balance actuator target = .ok plant ∧
      Pursuing config mode target balance.toNat actuator 0 plant := by
  have hreference : Wiring.referenceChannel ≠ config.outputChannel := by
    rw [h.output_eq]
    decide
  have hclamp : Actuator.clamp config actuator = actuator := by
    have hlow := h.actuator_low
    have hhigh := h.actuator_high
    rw [Actuator.clamp]
    omega
  have hreach := h.reach_lt
  have hcreate : Steering.create config registers = .ok (Steering.publishSetpoint
      (.stopped config .slave none Actuator.midScale) registers) := by
    rw [Steering.create, hvalid]
  have hinit : (Steering.publishSetpoint (.stopped config .slave none Actuator.midScale)
      registers).init mode Wiring.referenceChannel actuator = .ok _ := if_neg hreference
  simp only [engage, hcreate, hinit, bind, Except.bind]
  exact ⟨_, rfl,
    { fifo_eq := rfl
      modulus_eq := rfl
      balance_eq := rfl
      reference_lt := show 0 < _ by omega
      duty_eq := rfl
      target_eq := rfl
      status_eq := rfl
      setpoint_eq := rfl
      actuator_eq := hclamp }⟩

theorem Pursuing.wrap_eq_error (h : Engageable depth config mode target balance actuator)
    {count : Nat} {plant : Plant depth}
    (hplant : Pursuing config mode target balance actuator count plant) :
    config.wrap (config.wrap
        ((outputAt plant.oscillator plant.service.loop.actuator : Int) -
          referenceAfter plant.oscillator) -
      (walk config target plant.service.loop.setpoint).toInt) =
        (pursue config target balance actuator count).error config target balance := by
  have hreach := h.reach_lt
  have hpos : 0 < config.modulus.toNat := Nat.zero_lt_of_lt hreach
  have hnear := natAbs_sub_actuator_pursue_le_reach h.toAttainable count
  have hsmall := natAbs_error_pursue_le_reach h.toAttainable count
  have hmeasured : config.wrap ((balance : Int) -
      (pursue config target balance actuator count).actuator) = _ :=
    wrap_of_two_mul_lt (by omega)
  rw [Position.error, Position.goal] at hsmall ⊢
  rw [wrap_outputAt_sub_referenceAfter hplant.modulus_eq hpos, hplant.balance_eq,
    hplant.actuator_eq, hmeasured, hplant.setpoint_eq, wrap_of_two_mul_lt (by omega)]
  omega

theorem Pursuing.tick (h : Engageable depth config mode target balance actuator) {count : Nat}
    {plant : Plant depth} (hplant : Pursuing config mode target balance actuator count plant) :
    plant.tick.1 = .ok 2 ∧
      Pursuing config mode target balance actuator (count + 1) plant.tick.2 ∧
      plant.tick.2.service.loop.phaseError =
        (pursue config target balance actuator count).error config target balance ∧
      (plant.tick.2.service.loop.phaseError.natAbs ≤ config.lockBand.toNat →
        plant.tick.2.service.loop.inBandRun =
            Word.clampUnsigned 32 (plant.service.loop.inBandRun + 1) ∧
          plant.tick.2.service.loop.locked = (plant.service.loop.locked ||
            decide (config.lockSamples.toNat ≤ plant.tick.2.service.loop.inBandRun))) := by
  have hpos : 0 < plant.oscillator.modulus := by
    rw [hplant.modulus_eq]
    exact Nat.zero_lt_of_lt h.reach_lt
  have hconfig : plant.service.loop.config = config := congrArg Duty.config hplant.duty_eq
  have houtput : outputAt plant.oscillator plant.service.loop.actuator < 0x1000000 :=
    Nat.lt_of_lt_of_le (outputAt_lt hpos _) (hplant.modulus_eq ▸ h.modulus_le)
  obtain ⟨houtcome, hfifo, hoscillator, htarget, hstatus, hloop⟩ := tick_of_duty h.two_le_depth
    hplant.fifo_eq hplant.modulus_eq (hplant.modulus_eq ▸ hpos) h.modulus_le hplant.duty_eq
    h.output_eq h.steers
  rw [hplant.target_eq] at htarget hloop
  have herror : plant.tick.2.service.loop.phaseError =
      (pursue config target balance actuator count).error config target balance := by
    rw [hloop, phaseError_compareWith, toNat_ofNat_phase houtput]
    change plant.service.loop.config.wrap (plant.service.loop.config.wrap _ -
      (walk plant.service.loop.config _ plant.service.loop.setpoint).toInt) = _
    rw [hconfig]
    exact hplant.wrap_eq_error h
  refine ⟨houtcome, ?_, herror, ?_⟩
  · exact
      { fifo_eq := hfifo
        modulus_eq := by rw [hoscillator]; exact hplant.modulus_eq
        balance_eq := by rw [hoscillator]; exact hplant.balance_eq
        reference_lt := by
          rw [hoscillator, ← hplant.modulus_eq]
          exact referenceAfter_lt hpos
        duty_eq := by rw [hloop, duty_compareWith]; exact hplant.duty_eq
        target_eq := htarget
        status_eq := hstatus
        setpoint_eq := by
          rw [hloop, setpoint_compareWith, pursue, Position.next, ← hplant.setpoint_eq, ← hconfig]
          rfl
        actuator_eq := by
          rw [hloop, actuator_compareWith, ← hloop, herror]
          change Actuator.steer plant.service.loop.config _ plant.service.loop.actuator =
            Actuator.steer config _ _
          rw [hconfig, hplant.actuator_eq] }
  · rw [← hconfig, hloop]
    exact compareWith_of_inBand

theorem Pursuing.ticks (h : Engageable depth config mode target balance actuator)
    {plant : Plant depth} (hplant : Pursuing config mode target balance actuator 0 plant)
    (count : Nat) : Pursuing config mode target balance actuator count (plant.ticks count) := by
  induction count with
  | zero => exact hplant
  | succ count ih =>
      rw [ticks_succ]
      exact (ih.tick h).2.1

theorem Pursuing.phaseError_ticks (h : Engageable depth config mode target balance actuator)
    {plant : Plant depth} (hplant : Pursuing config mode target balance actuator 0 plant)
    (count : Nat) :
    (statusAfter plant (count + 1)).phaseError =
      (pursue config target balance actuator count).error config target balance := by
  obtain ⟨-, hnext, herror, -⟩ := (hplant.ticks h count).tick h
  rw [statusAfter, ticks_succ, hnext.status_eq]
  exact herror

theorem le_ceilDiv_mul (n : Nat) {d : Nat} (hd : 0 < d) : n ≤ (n + d - 1) / d * d := by
  have hdivMod := Nat.div_add_mod (n + d - 1) d
  have hmod := Nat.mod_lt (n + d - 1) hd
  rw [Nat.mul_comm]
  omega

theorem natAbs_le_walkTicks_mul (h : Engageable depth config mode target balance actuator)
    {count : Nat} (hcount : walkTicks config target ≤ count) :
    target.toInt.natAbs ≤ count * config.shiftStep.toInt.toNat := by
  have hstep := h.shiftStep_pos
  exact Nat.le_trans (le_ceilDiv_mul _ (by omega)) (Nat.mul_le_mul_right _ hcount)

theorem reach_le_mul (h : Engageable depth config mode target balance actuator) {count : Nat}
    (hcount : settleTicks config target balance actuator ≤ count + 1) :
    reach config target balance actuator ≤ count * config.step.toNat :=
  Nat.le_trans (le_ceilDiv_mul _ h.step_pos)
    (Nat.mul_le_mul_right _ (Nat.le_of_succ_le_succ hcount))

theorem natAbs_error_pursue_lt_step (h : Engageable depth config mode target balance actuator)
    {count : Nat}
    (hcount : walkTicks config target + settleTicks config target balance actuator ≤ count + 1) :
    ((pursue config target balance actuator count).error config target balance).natAbs <
      config.step.toNat := by
  have hsettle := settleTicks_pos config target balance actuator
  -- A comparison is under the setpoint that its own tick has moved, so the walk ends one earlier.
  obtain ⟨settled, rfl⟩ : ∃ settled, count = walkTicks config target - 1 + settled :=
    ⟨count - (walkTicks config target - 1), by omega⟩
  have harrival := natAbs_le_walkTicks_mul h (by omega : _ ≤ walkTicks config target - 1 + 1)
  have hle := natAbs_error_pursue_le h.toAttainable harrival settled
  have hreach := reach_le_mul h (by omega : _ ≤ settled + 1)
  have hstep := h.step_pos
  omega

theorem Pursuing.le_inBandRun (h : Engageable depth config mode target balance actuator)
    (hband : config.step.toNat ≤ config.lockBand.toNat + 1) {plant : Plant depth}
    (hplant : Pursuing config mode target balance actuator 0 plant) {start : Nat}
    (hstart : walkTicks config target + settleTicks config target balance actuator ≤ start + 1)
    (count : Nat) :
    Word.clampUnsigned 32 count ≤ (plant.ticks (start + count)).service.loop.inBandRun := by
  induction count with
  | zero => exact Nat.zero_le _
  | succ count ih =>
      obtain ⟨-, -, herror, hrun⟩ := (hplant.ticks h (start + count)).tick h
      have hsmall := natAbs_error_pursue_lt_step h
        (Nat.le_trans hstart (Nat.succ_le_succ (Nat.le_add_right start count)))
      rw [← Nat.add_assoc, ticks_succ, (hrun (by rw [herror]; omega)).1]
      exact Word.clampUnsigned_succ_le ih

theorem Pursuing.locked_of_le (h : Engageable depth config mode target balance actuator)
    (hband : config.step.toNat ≤ config.lockBand.toNat + 1)
    {plant : Plant depth} (hplant : Pursuing config mode target balance actuator 0 plant)
    {count : Nat} (hcount : walkTicks config target + settleTicks config target balance actuator +
      config.lockSamples.toNat ≤ count) :
    (statusAfter plant count).locked = true := by
  obtain ⟨start, hstart⟩ : ∃ start,
      start + 1 = walkTicks config target + settleTicks config target balance actuator :=
    ⟨_, Nat.add_assoc _ _ 1⟩
  obtain ⟨count, rfl⟩ : ∃ more, count = start + more + 1 := ⟨count - start - 1, by omega⟩
  obtain ⟨-, hnext, herror, hrun⟩ := (hplant.ticks h (start + count)).tick h
  have hsmall := natAbs_error_pursue_lt_step h (show _ ≤ start + count + 1 by omega)
  have hlong := hplant.le_inBandRun h hband (Nat.le_of_eq hstart.symm) (count + 1)
  have hfull : config.lockSamples.toNat ≤ Word.clampUnsigned 32 (count + 1) := by
    have hword : config.lockSamples.toNat < 1 <<< 32 := config.lockSamples.toNat_lt
    rw [← Word.clampUnsigned_of_lt hword]
    exact Word.clampUnsigned_mono 32 (by omega)
  rw [← Nat.add_assoc, ticks_succ] at hlong
  rw [statusAfter, ticks_succ, hnext.status_eq]
  change (Plant.tick _).2.service.loop.locked = true
  rw [(hrun (by rw [herror]; omega)).2, decide_eq_true (Nat.le_trans hfull hlong), Bool.or_true]

/-- A plant whose balance can be reached without half a modulus of error converges and locks: no
tick loses a tag, after the walk of the setpoint and the settling of the actuator the error is below
one step, and after as many more ticks as make a full run the lock is held. Without a setpoint to
walk to, an error of a step or more after a tick shrinks by exactly one step at the next. -/
theorem engaged_loop_converges (depth : Nat) (config : Config) (registers : Registers)
    (mode : Mode) (balance : UInt16) (actuator : Nat) (target : Int32) (hdepth : 2 ≤ depth)
    (hvalid : config.validate = .ok ()) (houtput : config.outputChannel = Wiring.outputChannel)
    (hband : config.step.toNat ≤ config.lockBand.toNat + 1) (hmode : mode.steers = true)
    (hlow : config.actuatorMin.toNat ≤ actuator) (hhigh : actuator ≤ config.actuatorMax.toNat)
    (hgoalLow : (config.actuatorMin.toNat : Int) ≤ balance.toNat - target.toInt)
    (hgoalHigh : balance.toNat - target.toInt ≤ config.actuatorMax.toNat)
    (hreach : 2 * (((balance.toNat : Int) - actuator).natAbs + target.toInt.natAbs +
      config.step.toNat) < config.modulus.toNat) :
    ∃ plant : Plant depth, engage depth config registers mode balance actuator target = .ok plant ∧
      (∀ count, (plant.ticks count).tick.1 = .ok 2 ∧
        (plant.ticks count).oscillator.tick? (plant.ticks count).service.loop.actuator =
          .ok ((plant.ticks count).oscillator.tick (plant.ticks count).service.loop.actuator)) ∧
      (∀ count, walkTicks config target + settleTicks config target balance.toNat actuator ≤ count →
        (statusAfter plant count).phaseError.natAbs < config.step.toNat) ∧
      (∀ count, walkTicks config target + settleTicks config target balance.toNat actuator +
          config.lockSamples.toNat ≤ count → (statusAfter plant count).locked = true) ∧
      (target = 0 → ∀ count,
        config.step.toNat ≤ (statusAfter plant (count + 1)).phaseError.natAbs →
          (statusAfter plant (count + 2)).phaseError.natAbs =
            (statusAfter plant (count + 1)).phaseError.natAbs - config.step.toNat) := by
  have husable := (validate_eq_ok_iff config).mp hvalid
  have h : Engageable depth config mode target balance.toNat actuator :=
    ⟨⟨husable.shiftStep_pos, husable.step_pos, hlow, hhigh, hgoalLow, hgoalHigh⟩, hdepth,
      husable.modulus_le, houtput, hmode, hreach⟩
  obtain ⟨plant, hengage, hplant⟩ := engage_eq_ok registers h hvalid
  refine ⟨plant, hengage, ?_, ?_, ?_, ?_⟩
  · intro count
    have hcount := hplant.ticks h count
    have hmodulus := hcount.modulus_eq
    have hle := husable.modulus_le
    have hreference := hcount.reference_lt
    exact ⟨(hcount.tick h).1, tick?_eq_ok (by omega) (by omega) (by omega) _⟩
  · intro count hcount
    have hsettle := settleTicks_pos config target balance.toNat actuator
    obtain ⟨before, rfl⟩ : ∃ before, count = before + 1 := ⟨count - 1, by omega⟩
    rw [hplant.phaseError_ticks h]
    exact natAbs_error_pursue_lt_step h hcount
  · intro count hcount
    exact hplant.locked_of_le h hband hcount
  · rintro rfl count hfar
    rw [hplant.phaseError_ticks h] at hfar ⊢
    rw [hplant.phaseError_ticks h]
    exact (natAbs_error_pursue_succ h.toAttainable (Nat.zero_le _)).1 hfar

/-- A tuning with a short range of codes and the narrowest band that the steps stay in. -/
def coarse : Config :=
  { modulus := 4096, step := 7, lockBand := 6, lockSamples := 3, shiftStep := 5,
    actuatorMin := 100, actuatorMax := 1000 }

theorem engaged_loop_converges_to_edge :
    ∃ plant : Plant 2, engage 2 coarse .fresh .grandmaster 90 1000 (-24) = .ok plant ∧
      (∀ count, (plant.ticks count).tick.1 = .ok 2) ∧
      (∀ count, 141 ≤ count → (statusAfter plant count).phaseError.natAbs < 7) ∧
      ∀ count, 144 ≤ count → (statusAfter plant count).locked = true := by
  have hwait : walkTicks coarse (-24) + settleTicks coarse (-24) 90 1000 = 141 := by decide
  obtain ⟨plant, hengage, htick, herror, hlock, -⟩ :=
    engaged_loop_converges 2 coarse .fresh .grandmaster 90 1000 (-24) (by decide) rfl rfl
      (by decide) rfl (by decide) (by decide) (by decide) (by decide) (by decide)
  refine ⟨plant, hengage, fun count => (htick count).1, ?_, ?_⟩
  · intro count hcount
    exact herror count (Nat.le_trans (Nat.le_of_eq hwait) hcount)
  · intro count hcount
    exact hlock count (Nat.le_trans (Nat.le_of_eq (congrArg (· + 3) hwait)) hcount)

end TimingNode.Proofs.LoopConvergence
