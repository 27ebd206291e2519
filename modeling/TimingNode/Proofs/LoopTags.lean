import TimingNode.Loop.Steering

namespace TimingNode.Proofs.LoopTags

open TimingNode.Loop

/-- What a loop was set up for and whether it is in service. No tag changes that. -/
structure Duty where
  config : Config
  mode : Mode
  reference : Option UInt8
  running : Bool
  faulted : Bool

def duty (loop : Loop) : Duty :=
  ⟨loop.config, loop.mode, loop.reference, loop.running, loop.faulted⟩

theorem onTag_of_reference {loop : Loop} {target : Int32} {channel : UInt8}
    (hrunning : loop.running = true) (hreference : loop.reference = some channel)
    (value : UInt32) :
    loop.onTag target ⟨channel, value⟩ =
      (onReference { loop with tagCount := loop.tagCount + 1 } target value, none) := by
  rw [onTag, if_pos hrunning]
  exact if_pos hreference

theorem onTag_eq_compareWith {loop : Loop} {phase : Nat} (hrunning : loop.running = true)
    (hreference : loop.reference ≠ some loop.config.outputChannel)
    (hsteers : loop.mode.steers = true) (hphase : loop.referencePhase = some phase)
    (target : Int32) (value : UInt32) :
    let compared :=
      compareWith { loop with tagCount := loop.tagCount + 1, lastTag := value } phase value
    loop.onTag target ⟨loop.config.outputChannel, value⟩ = (compared, some compared.actuator) := by
  rw [onTag, if_pos hrunning]
  dsimp only
  rw [if_neg hreference, if_pos rfl, onOutput]
  dsimp only
  rw [hsteers, hphase]

theorem exists_onTag_eq_counted {loop : Loop} {tag : Tag} (hrunning : loop.running = true)
    (hreference : loop.reference ≠ some tag.channel)
    (hidle : tag.channel ≠ loop.config.outputChannel ∨ loop.mode.steers = false ∨
      loop.referencePhase = none) (target : Int32) :
    ∃ lastTag, loop.onTag target tag =
      ({ loop with tagCount := loop.tagCount + 1, lastTag }, none) := by
  rw [onTag, if_pos hrunning]
  dsimp only
  rw [if_neg hreference]
  split
  · rename_i houtput
    refine ⟨tag.value, ?_⟩
    rw [onOutput]
    rcases hidle with hother | hsteers | hphase
    · exact absurd houtput hother
    · simp only [hsteers]
    · simp only [hphase]
      cases loop.mode.steers <;> rfl
  · exact ⟨loop.lastTag, rfl⟩

theorem onTag_cases (loop : Loop) (target : Int32) (tag : Tag) :
    (loop.running = false ∧ loop.onTag target tag = (loop, none)) ∨
    (loop.running = true ∧ loop.reference = some tag.channel ∧
      loop.onTag target tag =
        (onReference { loop with tagCount := loop.tagCount + 1 } target tag.value, none)) ∨
    (loop.running = true ∧ loop.reference ≠ some tag.channel ∧
      tag.channel = loop.config.outputChannel ∧ loop.mode.steers = true ∧
      ∃ phase compared, loop.referencePhase = some phase ∧
        compared = compareWith { loop with tagCount := loop.tagCount + 1, lastTag := tag.value }
          phase tag.value ∧
        loop.onTag target tag = (compared, some compared.actuator)) ∨
    (loop.running = true ∧ loop.reference ≠ some tag.channel ∧
      (tag.channel ≠ loop.config.outputChannel ∨ loop.mode.steers = false ∨
        loop.referencePhase = none) ∧
      ∃ lastTag, loop.onTag target tag =
        ({ loop with tagCount := loop.tagCount + 1, lastTag }, none)) := by
  by_cases hrunning : loop.running = true
  · right
    by_cases hreference : loop.reference = some tag.channel
    · exact Or.inl ⟨hrunning, hreference, onTag_of_reference hrunning hreference tag.value⟩
    · right
      by_cases hidle : tag.channel ≠ loop.config.outputChannel ∨ loop.mode.steers = false ∨
          loop.referencePhase = none
      · exact Or.inr
          ⟨hrunning, hreference, hidle, exists_onTag_eq_counted hrunning hreference hidle target⟩
      · left
        rw [not_or, not_or, Decidable.not_not, Bool.not_eq_false] at hidle
        obtain ⟨houtput, hsteers, hsome⟩ := hidle
        obtain ⟨phase, hphase⟩ := Option.ne_none_iff_exists'.mp hsome
        obtain ⟨channel, value⟩ := tag
        dsimp only at hreference houtput
        subst houtput
        exact ⟨hrunning, hreference, rfl, hsteers, phase, _, hphase, rfl,
          onTag_eq_compareWith hrunning hreference hsteers hphase target value⟩
  · left
    rw [onTag, if_neg hrunning]
    exact ⟨eq_false_of_ne_true hrunning, rfl⟩

/-- A loop with its errors and its actuator as a comparison leaves them, before the lock is
tracked. -/
def measured (loop : Loop) (reference : Nat) (value : UInt32) : Loop :=
  let measuredPhase := loop.config.wrap ((value.toNat : Int) - reference)
  let phaseError := loop.config.wrap (measuredPhase - loop.setpoint.toInt)
  { loop with
    measuredPhase, phaseError, actuator := Actuator.steer loop.config phaseError loop.actuator }

theorem trackLock_frame (loop : Loop) :
    duty loop.trackLock = duty loop ∧ loop.trackLock.referencePhase = loop.referencePhase ∧
      loop.trackLock.setpoint = loop.setpoint ∧
      loop.trackLock.measuredPhase = loop.measuredPhase ∧
      loop.trackLock.phaseError = loop.phaseError ∧ loop.trackLock.actuator = loop.actuator := by
  rw [trackLock]
  split <;> exact ⟨rfl, rfl, rfl, rfl, rfl, rfl⟩

section Comparison

variable (loop : Loop) (reference : Nat) (value : UInt32)

theorem duty_compareWith : duty (loop.compareWith reference value) = duty loop :=
  (trackLock_frame (measured loop reference value)).1

theorem referencePhase_compareWith :
    (loop.compareWith reference value).referencePhase = loop.referencePhase :=
  (trackLock_frame (measured loop reference value)).2.1

theorem setpoint_compareWith : (loop.compareWith reference value).setpoint = loop.setpoint :=
  (trackLock_frame (measured loop reference value)).2.2.1

theorem measuredPhase_compareWith :
    (loop.compareWith reference value).measuredPhase =
      loop.config.wrap ((value.toNat : Int) - reference) :=
  (trackLock_frame (measured loop reference value)).2.2.2.1

theorem phaseError_compareWith :
    (loop.compareWith reference value).phaseError =
      loop.config.wrap
        (loop.config.wrap ((value.toNat : Int) - reference) - loop.setpoint.toInt) :=
  (trackLock_frame (measured loop reference value)).2.2.2.2.1

theorem actuator_compareWith :
    (loop.compareWith reference value).actuator =
      Actuator.steer loop.config (loop.compareWith reference value).phaseError loop.actuator := by
  rw [phaseError_compareWith]
  exact (trackLock_frame (measured loop reference value)).2.2.2.2.2

end Comparison

theorem duty_onTag (loop : Loop) (target : Int32) (tag : Tag) :
    duty (loop.onTag target tag).1 = duty loop := by
  rcases onTag_cases loop target tag with ⟨-, htag⟩ | ⟨-, -, htag⟩ |
    ⟨-, -, -, -, phase, compared, -, rfl, htag⟩ | ⟨-, -, -, lastTag, htag⟩
  · rw [htag]
  · rw [htag]
    rfl
  · rw [htag]
    exact duty_compareWith _ phase tag.value
  · rw [htag]
    rfl

theorem actuator_onTag (loop : Loop) (target : Int32) (tag : Tag) :
    (loop.onTag target tag).2 = none ∧ (loop.onTag target tag).1.actuator = loop.actuator ∨
      ∃ phaseError, (loop.onTag target tag).2 = some (loop.onTag target tag).1.actuator ∧
        (loop.onTag target tag).1.actuator =
          Actuator.steer loop.config phaseError loop.actuator := by
  rcases onTag_cases loop target tag with ⟨-, htag⟩ | ⟨-, -, htag⟩ |
    ⟨-, -, -, -, phase, compared, -, rfl, htag⟩ | ⟨-, -, -, lastTag, htag⟩
  · rw [htag]
    exact Or.inl ⟨rfl, rfl⟩
  · rw [htag]
    exact Or.inl ⟨rfl, rfl⟩
  · rw [htag]
    exact Or.inr ⟨_, rfl, actuator_compareWith _ phase tag.value⟩
  · rw [htag]
    exact Or.inl ⟨rfl, rfl⟩

theorem onTag_of_not_reference {loop : Loop} {tag : Tag} (target : Int32)
    (hreference : loop.reference ≠ some tag.channel) :
    (loop.onTag target tag).1.setpoint = loop.setpoint ∧
      (loop.onTag target tag).1.referencePhase = loop.referencePhase := by
  rcases onTag_cases loop target tag with ⟨-, htag⟩ | ⟨-, heq, -⟩ |
    ⟨-, -, -, -, phase, compared, -, rfl, htag⟩ | ⟨-, -, -, lastTag, htag⟩
  · rw [htag]
    exact ⟨rfl, rfl⟩
  · exact absurd heq hreference
  · rw [htag]
    exact ⟨setpoint_compareWith _ phase tag.value, referencePhase_compareWith _ phase tag.value⟩
  · rw [htag]
    exact ⟨rfl, rfl⟩

theorem onTag_of_output {loop : Loop} {target : Int32} {phase : Nat}
    (hrunning : loop.running = true)
    (hreference : loop.reference ≠ some loop.config.outputChannel)
    (hsteers : loop.mode.steers = true) (hphase : loop.referencePhase = some phase)
    (value : UInt32) :
    (loop.onTag target ⟨loop.config.outputChannel, value⟩).1 =
      compareWith { loop with tagCount := loop.tagCount + 1, lastTag := value } phase value := by
  rw [onTag_eq_compareWith hrunning hreference hsteers hphase]

def paired (loop : Loop) (target : Int32) (reference output : UInt32) : Loop :=
  { loop with
    tagCount := loop.tagCount + 1 + 1
    referencePhase := some (reference.toNat % loop.config.modulus.toNat)
    setpoint := walk loop.config target loop.setpoint
    lastTag := output }

theorem onTag_pair {loop : Loop} {channel : UInt8} (hrunning : loop.running = true)
    (hreference : loop.reference = some channel) (hother : channel ≠ loop.config.outputChannel)
    (hsteers : loop.mode.steers = true) (target : Int32) (reference output : UInt32) :
    ((loop.onTag target ⟨channel, reference⟩).1.onTag target
        ⟨loop.config.outputChannel, output⟩).1 =
      (paired loop target reference output).compareWith
        (reference.toNat % loop.config.modulus.toNat) output := by
  have hchannel : loop.reference ≠ some loop.config.outputChannel := by
    rw [hreference]
    exact fun heq => hother (Option.some.inj heq)
  rw [onTag_of_reference hrunning hreference]
  exact @onTag_of_output (onReference { loop with tagCount := loop.tagCount + 1 } target reference)
    target (reference.toNat % loop.config.modulus.toNat) hrunning hchannel hsteers rfl output

theorem status_onTag {steering : Steering} (hrunning : steering.loop.running = true) (tag : Tag) :
    (steering.onTag tag).1.registers.status = (steering.onTag tag).1.loop.status := by
  rw [Steering.onTag, if_pos hrunning]
  dsimp only
  split <;> rfl

theorem current_onTag {steering : Steering}
    (h : steering.registers.current = steering.loop.setpoint) (tag : Tag) :
    (steering.onTag tag).1.registers.current = (steering.onTag tag).1.loop.setpoint := by
  rw [Steering.onTag]
  split
  · dsimp only
    split
    · rfl
    · rename_i hreference
      exact h.trans (onTag_of_not_reference _ hreference).1.symm
  · exact h

theorem duty_onTags (steering : Steering) (tags : List Tag) :
    duty (steering.onTags tags).1.loop = duty steering.loop := by
  induction tags generalizing steering with
  | nil => rfl
  | cons tag tags ih =>
      rw [Steering.onTags]
      dsimp only
      rw [ih, (steering.onTag_eq tag).1]
      exact duty_onTag steering.loop _ tag

theorem target_onTags (steering : Steering) (tags : List Tag) :
    (steering.onTags tags).1.registers.target = steering.registers.target := by
  induction tags generalizing steering with
  | nil => rfl
  | cons tag tags ih => exact (ih _).trans (steering.target_onTag tag)

theorem onTags_pair {steering : Steering} {channel : UInt8}
    (hrunning : steering.loop.running = true) (hreference : steering.loop.reference = some channel)
    (hother : channel ≠ steering.loop.config.outputChannel)
    (hsteers : steering.loop.mode.steers = true) (reference output : UInt32) :
    let handled := (steering.onTags
      [⟨channel, reference⟩, ⟨steering.loop.config.outputChannel, output⟩]).1
    handled.registers.target = steering.registers.target ∧
      handled.registers.status = handled.loop.status ∧
      handled.loop =
        (paired steering.loop steering.registers.target reference output).compareWith
          (reference.toNat % steering.loop.config.modulus.toNat) output := by
  have hstill : (steering.onTag ⟨channel, reference⟩).1.loop.running = true := by
    rw [(steering.onTag_eq _).1]
    exact (congrArg Duty.running (duty_onTag steering.loop _ _)).trans hrunning
  refine ⟨?_, status_onTag hstill _, ?_⟩
  · exact (Steering.target_onTag _ _).trans (steering.target_onTag _)
  · rw [← onTag_pair hrunning hreference hother hsteers, ← (steering.onTag_eq _).1,
      ← steering.target_onTag ⟨channel, reference⟩]
    exact ((steering.onTag ⟨channel, reference⟩).1.onTag_eq _).1

theorem trackLock_of_inBand {loop : Loop}
    (hband : loop.phaseError.natAbs ≤ loop.config.lockBand.toNat) :
    loop.trackLock.inBandRun = Word.clampUnsigned 32 (loop.inBandRun + 1) ∧
      loop.trackLock.locked =
        (loop.locked || decide (loop.config.lockSamples.toNat ≤ loop.trackLock.inBandRun)) := by
  rw [trackLock, if_pos hband]
  exact ⟨rfl, rfl⟩

theorem compareWith_of_inBand {loop : Loop} {reference : Nat} {value : UInt32}
    (hband : (loop.compareWith reference value).phaseError.natAbs ≤ loop.config.lockBand.toNat) :
    (loop.compareWith reference value).inBandRun = Word.clampUnsigned 32 (loop.inBandRun + 1) ∧
      (loop.compareWith reference value).locked =
        (loop.locked || decide (loop.config.lockSamples.toNat ≤
          (loop.compareWith reference value).inBandRun)) := by
  rw [phaseError_compareWith] at hband
  exact @trackLock_of_inBand (measured loop reference value) hband

theorem exists_trackLock_eq (loop : Loop) (faulted locked : Bool) :
    ∃ held, trackLock { loop with faulted, locked } =
      { loop.trackLock with faulted, locked := held } := by
  by_cases hband : loop.phaseError.natAbs ≤ loop.config.lockBand.toNat
  · exact ⟨_, by rw [trackLock, trackLock, if_pos hband, if_pos hband]⟩
  · exact ⟨_, by rw [trackLock, trackLock, if_neg hband, if_neg hband]⟩

theorem exists_compareWith_eq (loop : Loop) (faulted locked : Bool) (reference : Nat)
    (value : UInt32) :
    ∃ held, compareWith { loop with faulted, locked } reference value =
      { loop.compareWith reference value with faulted, locked := held } :=
  exists_trackLock_eq (measured loop reference value) faulted locked

theorem exists_onOutput_eq (loop : Loop) (faulted locked : Bool) (value : UInt32) :
    ∃ held, onOutput { loop with faulted, locked } value =
      ({ (loop.onOutput value).1 with faulted, locked := held }, (loop.onOutput value).2) := by
  obtain ⟨held, hheld⟩ := exists_compareWith_eq { loop with lastTag := value } faulted locked
    (loop.referencePhase.getD 0) value
  rcases loop with ⟨config, mode, reference, running, _, _ | phase⟩
  · cases mode <;> exact ⟨locked, rfl⟩
  · cases mode with
    | freeRunning => exact ⟨locked, rfl⟩
    | grandmaster => exact ⟨held, congrArg (fun loop => (loop, some loop.actuator)) hheld⟩
    | slave => exact ⟨held, congrArg (fun loop => (loop, some loop.actuator)) hheld⟩

/-- A recorded error or lock changes nothing in what a tag does but the lock. -/
theorem exists_onTag_eq (loop : Loop) (faulted locked : Bool) (target : Int32) (tag : Tag) :
    ∃ held, onTag { loop with faulted, locked } target tag =
      ({ (loop.onTag target tag).1 with faulted, locked := held }, (loop.onTag target tag).2) := by
  by_cases hrunning : loop.running = true
  · by_cases hreference : loop.reference = some tag.channel
    · refine ⟨locked, ?_⟩
      simp only [onTag, if_pos hrunning, if_pos hreference]
      rfl
    · by_cases houtput : tag.channel = loop.config.outputChannel
      · obtain ⟨held, hheld⟩ := exists_onOutput_eq { loop with tagCount := loop.tagCount + 1 }
          faulted locked tag.value
        refine ⟨held, ?_⟩
        simp only [onTag, if_pos hrunning, if_neg hreference, if_pos houtput]
        exact hheld
      · refine ⟨locked, ?_⟩
        simp only [onTag, if_pos hrunning, if_neg hreference, if_neg houtput]
  · refine ⟨locked, ?_⟩
    simp only [onTag, if_neg hrunning]

end TimingNode.Proofs.LoopTags
