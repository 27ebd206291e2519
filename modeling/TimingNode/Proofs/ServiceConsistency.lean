import Mathlib.Data.List.Chain
import TimingNode.Proofs.LoopTuning
import TimingNode.Proofs.ServiceCalls
import TimingNode.Proofs.SteeringArithmetic

namespace TimingNode.Proofs.ServiceConsistency

open TimingNode.Loop
open TimingNode.Tag
open TimingNode.Proofs.LoopTags
open TimingNode.Proofs.LoopTuning
open TimingNode.Proofs.ServiceCalls
open TimingNode.Proofs.SteeringArithmetic

variable {depth : Nat} {config : Config} {writes : List Write}

/-- Two writes in a row are at most one step apart, unless the second one belongs to a new start. -/
def Near (config : Config) (earlier later : Write) : Prop :=
  later.anew = false →
    later.code ≤ earlier.code + config.step.toNat ∧ earlier.code ≤ later.code + config.step.toNat

/-- An actuator code in its range that was written last, after writes in single steps. -/
structure Written (config : Config) (writes : List Write) (actuator : Nat) : Prop where
  last_eq : writes.getLast?.map Write.code = some actuator
  min_le : config.actuatorMin.toNat ≤ actuator
  le_max : actuator ≤ config.actuatorMax.toNat
  near : writes.IsChain (Near config)

structure Consistent (config : Config) (writes : List Write) (steering : Steering) : Prop where
  config_eq : steering.loop.config = config
  written : Written config writes steering.loop.actuator
  status_eq : steering.registers.status = steering.loop.status
  current_eq : steering.registers.current = steering.loop.setpoint
  reference_ne : steering.loop.reference ≠ some config.outputChannel
  idle_of_faulted : steering.loop.faulted = true →
    steering.loop.running = false ∧ steering.loop.locked = false

theorem Written.concat {actuator : Nat} {write : Write} (h : Written config writes actuator)
    (hmin : config.actuatorMin.toNat ≤ write.code) (hmax : write.code ≤ config.actuatorMax.toNat)
    (hnear : ∀ anew, Near config ⟨actuator, anew⟩ write) :
    Written config (writes ++ [write]) write.code := by
  refine ⟨?_, hmin, hmax, ?_⟩
  · rw [List.getLast?_concat]
    rfl
  · rw [List.isChain_append]
    refine ⟨h.near, List.isChain_singleton write, ?_⟩
    intro earlier hearlier later hlater
    cases hlater
    have hlast := h.last_eq
    rw [Option.mem_def.mp hearlier, Option.map_some, Option.some.injEq] at hlast
    rw [← hlast] at hnear
    exact hnear earlier.anew

theorem Written.steer {actuator : Nat} (h : Written config writes actuator) (phaseError : Int) :
    Written config (writes ++ [steered (Actuator.steer config phaseError actuator)])
      (Actuator.steer config phaseError actuator) := by
  obtain ⟨hmin, hmax⟩ := steer_mem h.min_le h.le_max phaseError
  have hnear := steer_near h.min_le h.le_max phaseError
  exact h.concat hmin hmax fun _ _ => hnear

theorem Written.restart {actuator : Nat} (h : Written config writes actuator) (code : Nat) :
    Written config (writes ++ [⟨Actuator.clamp config code, true⟩])
      (Actuator.clamp config code) := by
  have hrange : config.actuatorMin ≤ config.actuatorMax :=
    UInt16.le_iff_toNat_le.mpr (Nat.le_trans h.min_le h.le_max)
  obtain ⟨hmin, hmax⟩ := Actuator.clamp_mem config code hrange
  refine h.concat hmin hmax ?_
  intro _ hsteered
  cases hsteered

theorem Written.onTag {loop : Loop} (h : Written loop.config writes loop.actuator) (target : Int32)
    (tag : Tag) :
    Written loop.config (writes ++ (loop.onTag target tag).2.toList.map steered)
      (loop.onTag target tag).1.actuator := by
  rcases actuator_onTag loop target tag with ⟨hcode, hactuator⟩ | ⟨phaseError, hcode, hactuator⟩
  · rw [hcode, hactuator]
    simpa using h
  · rw [hcode, hactuator]
    exact h.steer phaseError

theorem Consistent.onTag {steering : Steering} (h : Consistent config writes steering)
    (tag : Tag) :
    Consistent config (writes ++ (steering.onTag tag).2.toList.map steered)
      (steering.onTag tag).1 := by
  by_cases hrunning : steering.loop.running = true
  · obtain ⟨hloop, hcode⟩ := steering.onTag_eq tag
    have hduty : duty (steering.onTag tag).1.loop = duty steering.loop := by
      rw [hloop]
      exact duty_onTag steering.loop steering.registers.target tag
    have hreference : (steering.onTag tag).1.loop.reference = steering.loop.reference :=
      congrArg Duty.reference hduty
    have hwritten := h.written
    rw [← h.config_eq] at hwritten
    refine ⟨(congrArg Duty.config hduty).trans h.config_eq, ?_, status_onTag hrunning tag,
      current_onTag h.current_eq tag, ?_, ?_⟩
    · rw [hloop, hcode, ← h.config_eq]
      exact hwritten.onTag _ tag
    · rw [hreference]
      exact h.reference_ne
    · intro hfaulted
      have hstopped := h.idle_of_faulted ((congrArg Duty.faulted hduty).symm.trans hfaulted)
      exact absurd hrunning (Bool.eq_false_iff.mp hstopped.1)
  · rw [Steering.onTag, if_neg hrunning]
    simpa using h

theorem Consistent.onTags {steering : Steering} (h : Consistent config writes steering)
    (tags : List Tag) :
    Consistent config (writes ++ (steering.onTags tags).2.map steered)
      (steering.onTags tags).1 := by
  induction tags generalizing steering writes with
  | nil => simpa [Steering.onTags] using h
  | cons tag tags ih =>
      rw [Steering.onTags, List.map_append, ← List.append_assoc]
      exact ih (h.onTag tag)

theorem Consistent.halt {steering : Steering} (h : Consistent config writes steering) :
    Consistent config writes steering.halt :=
  ⟨h.config_eq, h.written, rfl, h.current_eq, h.reference_ne, fun _ => ⟨rfl, rfl⟩⟩

theorem Consistent.start {steering : Steering} (h : Consistent config writes steering)
    (hfaulted : steering.loop.faulted = false) : Consistent config writes steering.start := by
  refine ⟨h.config_eq, h.written, rfl, h.current_eq, h.reference_ne, ?_⟩
  intro hstarted
  exact absurd hstarted (Bool.eq_false_iff.mp hfaulted)

theorem consistent_stopped {reference : Option UInt8} {actuator : Nat}
    (hwritten : Written config writes (Actuator.clamp config actuator))
    (hreference : reference ≠ some config.outputChannel) (mode : Mode) (registers : Registers) :
    Consistent config writes
      (Steering.publishSetpoint (.stopped config mode reference actuator) registers) :=
  ⟨rfl, hwritten, rfl, rfl, hreference, fun _ => ⟨rfl, rfl⟩⟩

theorem Consistent.drain {service : Service depth}
    (h : Consistent config writes service.toSteering) :
    Consistent config (writes ++ service.drain.codes.map steered)
      service.drain.service.toSteering := by
  rw [Service.drain]
  split
  · dsimp only
    rw [List.map_nil, List.append_nil]
    split
    · exact h
    · exact h.halt
  · exact h.onTags service.fifo.queue

theorem Consistent.restart {service : Service depth} {reference : UInt8}
    (h : Consistent config writes service.toSteering) (mode : Mode) (actuator : Nat)
    (haccepted : reference ≠ config.outputChannel) :
    Consistent config (writes ++ [⟨Actuator.clamp config actuator, true⟩])
      (restarted service mode reference actuator).toSteering := by
  have hwritten := h.written.restart actuator
  have hreference : some reference ≠ some config.outputChannel :=
    fun hsome => haccepted (Option.some.inj hsome)
  rw [restarted, h.config_eq]
  exact (consistent_stopped hwritten hreference mode service.registers).start rfl

theorem Consistent.perform {service : Service depth}
    (h : Consistent config writes service.toSteering) (call : Call) :
    Consistent config (writes ++ (call.perform service).writes)
      (call.perform service).service.toSteering := by
  have hquiet : Consistent config (writes ++ []) service.toSteering := by simpa using h
  cases call with
  | push tag => exact hquiet
  | pushRegister word => exact hquiet
  | drain => exact h.drain
  | restart mode reference actuator =>
      by_cases hreference : reference = service.loop.config.outputChannel
      · rw [perform_restart_of_eq mode actuator hreference]
        exact hquiet
      · rw [perform_restart_of_ne mode actuator hreference, h.config_eq]
        rw [h.config_eq] at hreference
        exact h.restart mode actuator hreference
  | resetFifo => exact hquiet
  | setTarget units =>
      exact ⟨hquiet.config_eq, hquiet.written, hquiet.status_eq, hquiet.current_eq,
        hquiet.reference_ne, hquiet.idle_of_faulted⟩

theorem Consistent.performAll {service : Service depth}
    (h : Consistent config writes service.toSteering) (calls : List Call) :
    Consistent config (writes ++ (performAll service calls).2)
      (performAll service calls).1.toSteering := by
  induction calls generalizing service writes with
  | nil => simpa [ServiceCalls.performAll] using h
  | cons call calls ih =>
      rw [ServiceCalls.performAll, ← List.append_assoc]
      exact ih (h.perform call)

/-- A new loop that may have been initialised and started, in any order and more than once. -/
inductive Prepared (config : Config) : Steering → Prop where
  | create {registers : Registers} {steering : Steering} :
      Steering.create config registers = .ok steering → Prepared config steering
  | init {steering ready : Steering} {mode : Mode} {reference : UInt8} {actuator : Nat} :
      Prepared config steering → steering.init mode reference actuator = .ok ready →
      Prepared config ready
  | start {steering : Steering} : Prepared config steering → Prepared config steering.start

theorem written_singleton {actuator : Nat} (hmin : config.actuatorMin.toNat ≤ actuator)
    (hmax : actuator ≤ config.actuatorMax.toNat) : Written config [⟨actuator, true⟩] actuator :=
  ⟨rfl, hmin, hmax, List.isChain_singleton _⟩

theorem Prepared.consistent {steering : Steering} (h : Prepared config steering) :
    steering.loop.faulted = false ∧
      Consistent config [⟨steering.loop.actuator, true⟩] steering := by
  induction h with
  | @create registers steering hcreate =>
      rw [Steering.create] at hcreate
      split at hcreate
      · cases hcreate
      · rename_i hvalid
        cases hcreate
        have hrange : config.actuatorMin ≤ config.actuatorMax :=
          UInt16.le_iff_toNat_le.mpr
            (Nat.le_of_lt ((validate_eq_ok_iff config).mp hvalid).actuatorMin_lt)
        obtain ⟨hmin, hmax⟩ := Actuator.clamp_mem config Actuator.midScale hrange
        have hreference : (none : Option UInt8) ≠ some config.outputChannel := by
          intro hnone
          cases hnone
        exact ⟨rfl, consistent_stopped (written_singleton hmin hmax) hreference .slave registers⟩
  | @init steering ready mode reference actuator _ hinit ih =>
      obtain ⟨_, hconsistent⟩ := ih
      rw [Steering.init, hconsistent.config_eq] at hinit
      split at hinit
      · cases hinit
      · rename_i haccepted
        cases hinit
        have hwritten := hconsistent.written.restart actuator
        have hreference : some reference ≠ some config.outputChannel :=
          fun hsome => haccepted (Option.some.inj hsome)
        exact ⟨rfl, consistent_stopped (written_singleton hwritten.min_le hwritten.le_max)
          hreference mode steering.registers⟩
  | start _ ih =>
      obtain ⟨hfaulted, hconsistent⟩ := ih
      exact ⟨hfaulted, hconsistent.start hfaulted⟩

/-- A service on a new loop stays consistent with its registers and its converter, whatever is
called in whatever order. -/
theorem calls_consistent {steering : Steering} (hprepared : Prepared config steering)
    (fifo : Fifo depth) (calls : List Call) :
    let (service, first) := Service.create steering fifo
    let (service, writes) := performAll service calls
    Consistent config (⟨first, true⟩ :: writes) service.toSteering := by
  have hcreated : Consistent config [⟨steering.loop.actuator, true⟩]
      (Service.create steering fifo).1.toSteering := hprepared.consistent.2
  exact hcreated.performAll calls

def newborn : Steering :=
  .publishSetpoint (.stopped {} .slave none Actuator.midScale) .fresh

def ready : Steering :=
  .publishSetpoint (.stopped {} .slave (some 1) 32768) newborn.registers

theorem prepared_ready : Prepared {} ready.start := by
  have hcreate : Steering.create {} .fresh = .ok newborn := rfl
  have hinit : newborn.init .slave 1 32768 = .ok ready := rfl
  exact .start (.init (.create hcreate) hinit)

/-- An overrun of a queue of two, a rejected restart, a direct reset and an accepted restart. -/
def eventful : List Call :=
  [.push ⟨1, 0⟩, .push ⟨0, 100⟩, .drain, .push ⟨1, 0⟩, .push ⟨0, 100⟩, .push ⟨0, 100⟩, .drain,
    .restart .slave 0 7, .resetFifo, .push ⟨0, 100⟩, .drain, .restart .grandmaster 1 40000,
    .setTarget 20, .push ⟨1, 5⟩, .pushRegister 3, .drain]

theorem calls_consistent_eventful :
    (performAll (Service.create ready.start (.empty 2)).1 eventful).2 =
        [⟨32776, false⟩, ⟨40000, true⟩, ⟨39992, false⟩] ∧
      Consistent {} (⟨32768, true⟩ ::
          (performAll (Service.create ready.start (.empty 2)).1 eventful).2)
        (performAll (Service.create ready.start (.empty 2)).1 eventful).1.toSteering :=
  ⟨by decide, calls_consistent prepared_ready (.empty 2) eventful⟩

end TimingNode.Proofs.ServiceConsistency
