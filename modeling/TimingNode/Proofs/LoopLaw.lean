import Mathlib.Data.Int.ModEq
import TimingNode.Proofs.LoopInputs

namespace TimingNode.Proofs.LoopLaw

open TimingNode.Loop
open TimingNode.Proofs.LoopInputs
open TimingNode.Proofs.LoopTags
open TimingNode.Proofs.LoopTuning
open TimingNode.Proofs.SteeringArithmetic

def halfTurn (modulus : Nat) : Set Int :=
  {phase | -(modulus : Int) < 2 * phase ∧ 2 * phase ≤ modulus}

theorem halfTurn_of_odd {modulus : Nat} (hodd : modulus % 2 = 1) :
    halfTurn modulus =
      {phase | -(((modulus : Int) - 1) / 2) ≤ phase ∧ phase ≤ ((modulus : Int) - 1) / 2} := by
  ext phase
  constructor
  · rintro ⟨hlow, hhigh⟩
    constructor <;> omega
  · rintro ⟨hlow, hhigh⟩
    constructor <;> omega

theorem eq_of_modEq {modulus : Nat} {x y : Int} (hx : x ∈ halfTurn modulus)
    (hy : y ∈ halfTurn modulus) (h : x ≡ y [ZMOD modulus]) : x = y := by
  obtain ⟨hxlow, hxhigh⟩ := hx
  obtain ⟨hylow, hyhigh⟩ := hy
  have hzero : y - x = 0 := Int.eq_zero_of_dvd_of_natAbs_lt_natAbs h.dvd (by omega)
  omega

section Wrap

variable {config : Config} (hmodulus : 0 < config.modulus.toNat)
include hmodulus

theorem wrap_mem_halfTurn (difference : Int) :
    config.wrap difference ∈ halfTurn config.modulus.toNat := by
  have hlow := Int.emod_nonneg difference (Int.natCast_ne_zero.mpr (Nat.ne_of_gt hmodulus))
  have hhigh := Int.emod_lt_of_pos difference (Int.natCast_pos.mpr hmodulus)
  rw [Config.wrap, Nat.max_eq_left hmodulus]
  split
  · constructor <;> omega
  · constructor <;> omega

theorem wrap_modEq (difference : Int) :
    config.wrap difference ≡ difference [ZMOD config.modulus.toNat] := by
  have hfolded := Int.mod_modEq difference config.modulus.toNat
  rw [Config.wrap, Nat.max_eq_left hmodulus]
  split
  · exact Int.sub_modulus_modEq_iff.mpr hfolded
  · exact hfolded

theorem eq_wrap_iff (difference phase : Int) :
    phase = config.wrap difference ↔
      phase ∈ halfTurn config.modulus.toNat ∧ phase ≡ difference [ZMOD config.modulus.toNat] := by
  constructor
  · rintro rfl
    exact ⟨wrap_mem_halfTurn hmodulus difference, wrap_modEq hmodulus difference⟩
  · rintro ⟨hmem, hphase⟩
    exact eq_of_modEq hmem (wrap_mem_halfTurn hmodulus difference)
      (hphase.trans (wrap_modEq hmodulus difference).symm)

theorem wrap_sub_mod (value latest : Nat) :
    config.wrap ((value : Int) - (latest % config.modulus.toNat : Nat)) =
      config.wrap ((value : Int) - latest) := by
  apply wrap_eq_of_emod_eq hmodulus
  rw [Int.natCast_mod]
  exact (Int.mod_modEq _ _).sub_left _

theorem wrap_wrap_sub (difference setpoint : Int) :
    config.wrap (config.wrap difference - setpoint) = config.wrap (difference - setpoint) :=
  wrap_eq_of_emod_eq hmodulus ((wrap_modEq hmodulus difference).sub_right setpoint)

end Wrap

/-- One comparison, of an output tag `difference` units after the latest reference tag. -/
structure Compared (config : Config) (difference setpoint : Int) (before after : Loop)
    (code : Option Nat) : Prop where
  measuredPhase : ∀ phase, phase = after.measuredPhase ↔
    phase ∈ halfTurn config.modulus.toNat ∧ phase ≡ difference [ZMOD config.modulus.toNat]
  phaseError : ∀ phase, phase = after.phaseError ↔
    phase ∈ halfTurn config.modulus.toNat ∧
      phase ≡ difference - setpoint [ZMOD config.modulus.toNat]
  actuator : (after.actuator : Int) =
    max (config.actuatorMin.toNat : Int)
      (min (before.actuator + config.step.toNat * after.phaseError.sign) config.actuatorMax.toNat)
  code : code = some after.actuator

structure Unmoved (before after : Loop) (code : Option Nat) : Prop where
  actuator : after.actuator = before.actuator
  measuredPhase : after.measuredPhase = before.measuredPhase
  phaseError : after.phaseError = before.phaseError
  locked : after.locked = before.locked
  code : code = none

theorem compared_onTag {config : Config} {mode : Mode} {reference : UInt8} {steering : Steering}
    (h : InService config mode reference steering) (hmodulus : 0 < config.modulus.toNat)
    (hother : reference ≠ config.outputChannel) (hsteers : mode.steers = true) {latest : UInt32}
    (hlatest : steering.loop.referencePhase = some (latest.toNat % config.modulus.toNat))
    (target : Int32) (value : UInt32) :
    let handled := steering.loop.onTag target ⟨config.outputChannel, value⟩
    Compared config ((value.toNat : Int) - latest.toNat) steering.loop.setpoint.toInt steering.loop
      handled.1 handled.2 := by
  obtain rfl := h.config_eq
  obtain rfl := h.mode_eq
  rw [onTag_eq_compareWith h.running (h.reference_ne hother) hsteers hlatest]
  constructor
  · intro phase
    rw [measuredPhase_compareWith]
    dsimp only
    rw [wrap_sub_mod hmodulus]
    exact eq_wrap_iff hmodulus _ phase
  · intro phase
    rw [phaseError_compareWith]
    dsimp only
    rw [wrap_sub_mod hmodulus, wrap_wrap_sub hmodulus]
    exact eq_wrap_iff hmodulus _ phase
  · rw [actuator_compareWith]
    exact cast_steer_eq_clamp h.min_le h.le_max _
  · rfl

theorem unmoved_onTag {loop : Loop} {received : Tag}
    (hidle : loop.referencePhase = none ∨ loop.mode.steers = false ∨
      received.channel ≠ loop.config.outputChannel) (target : Int32) :
    Unmoved loop (loop.onTag target received).1 (loop.onTag target received).2 := by
  rcases onTag_cases loop target received with ⟨-, htag⟩ | ⟨-, -, htag⟩ |
    ⟨-, -, houtput, hsteers, phase, compared, hphase, -, htag⟩ | ⟨-, -, -, lastTag, htag⟩
  · rw [htag]
    exact ⟨rfl, rfl, rfl, rfl, rfl⟩
  · rw [htag]
    exact ⟨rfl, rfl, rfl, rfl, rfl⟩
  · rw [hphase, hsteers] at hidle
    simp [houtput] at hidle
  · rw [htag]
    exact ⟨rfl, rfl, rfl, rfl, rfl⟩

/-- Whatever has reached a loop since it was initialised and started, its next tag obeys the law: an
output tag makes a comparison under the setpoint walked at the reference tags before, if there are
any and the loop steers, and every other tag moves nothing. -/
theorem tags_obey_loop_law {steering ready : Steering} {mode : Mode} {reference : UInt8}
    {actuator : Nat} (hvalid : steering.loop.config.validate = .ok ())
    (hinit : steering.init mode reference actuator = .ok ready) (inputs : List Input)
    (received : Tag) :
    let config := steering.loop.config
    let fed := feedAll ready.start inputs
    let handled := fed.onTag received
    let seen := references reference steering.registers.target inputs
    (∀ latest, seen.getLast? = some latest → mode.steers = true →
      received.channel = config.outputChannel →
        Compared config ((received.value.toNat : Int) - latest.2.toNat) (walked config 0 seen)
          fed.loop handled.1.loop handled.2) ∧
      (seen = [] ∨ mode.steers = false ∨ received.channel ≠ config.outputChannel →
        Unmoved fed.loop handled.1.loop handled.2) ∧
      (config.modulus.toNat % 2 = 1 →
        halfTurn config.modulus.toNat =
          {phase | -(((config.modulus.toNat : Int) - 1) / 2) ≤ phase ∧
            phase ≤ ((config.modulus.toNat : Int) - 1) / 2}) := by
  intro config fed handled seen
  have husable := (validate_eq_ok_iff _).mp hvalid
  obtain ⟨hstart, hother, htarget, hzero, hnone⟩ := inService_start husable hinit
  have hfed : InService config mode reference fed := hstart.feedAll inputs
  have hsetpoint : fed.loop.setpoint.toInt = walked config 0 seen := by
    have hwalked := setpoint_feedAll hstart husable.shiftStep_pos inputs
    rwa [hzero, htarget] at hwalked
  have hphase : fed.loop.referencePhase =
      seen.getLast?.map fun tag => tag.2.toNat % config.modulus.toNat := by
    have hlatest := referencePhase_feedAll hstart inputs
    rwa [hnone, htarget, Option.or_none] at hlatest
  obtain ⟨hloop, hcode⟩ := fed.onTag_eq received
  rw [hloop, hcode]
  refine ⟨?_, ?_, halfTurn_of_odd⟩
  · obtain ⟨channel, value⟩ := received
    rintro latest hlatest hsteers rfl
    rw [hlatest] at hphase
    have hmodulus : 0 < config.modulus.toNat :=
      Nat.lt_of_lt_of_le Nat.two_pos husable.two_le_modulus
    rw [← hsetpoint]
    exact compared_onTag hfed hmodulus hother hsteers hphase _ value
  · intro hidle
    apply unmoved_onTag
    rw [hfed.config_eq, hfed.mode_eq, hphase]
    rcases hidle with hseen | hidle
    · left
      rw [hseen]
      rfl
    · exact Or.inr hidle

/-- A loop not in service, with an odd modulus so that no phase lies half a turn away. -/
def uneven : Steering :=
  ⟨.stopped { modulus := 4095, step := 7, shiftStep := 5, actuatorMin := 100, actuatorMax := 1000 }
    .slave none 0, .fresh⟩

def wandering : List Input :=
  [.tag ⟨0, 40⟩, .target 8, .tag ⟨1, 4294967290⟩, .tag ⟨0, 4294967295⟩, .tag ⟨1, 12⟩, .target (-30),
    .tag ⟨1, 4294967290⟩, .tag ⟨3, 0⟩]

theorem tags_obey_loop_law_uneven :
    ∃ ready, uneven.init .grandmaster 1 998 = .ok ready ∧
      let fed := feedAll ready.start wandering
      let handled := fed.onTag ⟨0, 2301⟩
      walked uneven.loop.config 0 (references 1 0 wandering) = 3 ∧
        handled.1.loop.measuredPhase = -2044 ∧ handled.1.loop.phaseError = -2047 ∧
        handled.2 = some 991 ∧ Unmoved fed.loop (fed.onTag ⟨1, 7⟩).1.loop (fed.onTag ⟨1, 7⟩).2 := by
  obtain ⟨ready, hready⟩ : ∃ ready, uneven.init .grandmaster 1 998 = .ok ready := ⟨_, rfl⟩
  have hvalid : uneven.loop.config.validate = .ok () := by decide
  obtain ⟨hcompared, -⟩ := tags_obey_loop_law hvalid hready wandering ⟨0, 2301⟩
  obtain ⟨-, hunmoved, -⟩ := tags_obey_loop_law hvalid hready wandering ⟨1, 7⟩
  have hlaw := hcompared (-30, 4294967290) (by decide) rfl rfl
  have hmeasured := (hlaw.measuredPhase (-2044)).mpr ⟨by constructor <;> decide, by decide⟩
  have herror := (hlaw.phaseError (-2047)).mpr ⟨by constructor <;> decide, by decide⟩
  refine ⟨ready, hready, by decide, hmeasured.symm, herror.symm, ?_, hunmoved (by decide)⟩
  cases hready
  decide

end TimingNode.Proofs.LoopLaw
