import TimingNode.Plant.Drive
import TimingNode.Proofs.FreshRestart
import TimingNode.Proofs.LoopTuning
import TimingNode.Proofs.PlantTick

/-!
A driven plant with tags in its queue from before the drive. Either there is room for the tags of
the first period, and the plant just runs, or the first period halts the loop and the second one
starts it anew, from the code that it stopped at. No later period has to.
-/

namespace TimingNode.Proofs.OverrunRecovery

open TimingNode.Loop
open TimingNode.Tag
open TimingNode.Plant
open TimingNode.Proofs.FreshRestart
open TimingNode.Proofs.LoopTags
open TimingNode.Proofs.LoopTuning
open TimingNode.Proofs.PlantTick
open TimingNode.Proofs.ServiceCalls

variable {depth : Nat}

structure Engagement where
  mode : Mode
  reference : UInt8
  actuator : Nat

def build (depth : Nat) (config : Config) (registers : Registers) (balance : UInt16)
    (engagement : Option Engagement) : Except Rejection (Plant depth) := do
  let steering ← Steering.create config registers
  let plant := .create (Service.create steering (.empty depth)) (.create config balance)
  match engagement with
  | none => return plant
  | some ⟨mode, reference, actuator⟩ => plant.restart mode reference actuator

/-- A drive that begins with a commanded setpoint and after some tags were pushed, perhaps in
vain. -/
def loaded (plant : Plant depth) (tags : List Tag) (target : Int32) : Drive depth :=
  { plant := { plant with
      service := tags.foldl (fun service tag => (service.push tag).2)
        (plant.service.setTarget target) }
    restarts := 0 }

/-- The plant one period of its oscillator later, with nothing in its queue and its loop started
anew from `code`. -/
def relaunched (plant : Plant depth) (target : Int32) (code : Nat) : Plant depth :=
  { service := restarted (plant.service.setTarget target) .slave Wiring.referenceChannel code
    oscillator := { plant.oscillator with reference := referenceAfter plant.oscillator }
    codes := plant.codes.push code }

/-- The plant one period of its oscillator later, with its loop halted and something left in its
queue. -/
def stalled (plant : Plant depth) (target : Int32) (fifo : Fifo depth) : Plant depth :=
  { service := ⟨(plant.service.toSteering.setTarget target).halt, fifo⟩
    oscillator := { plant.oscillator with reference := referenceAfter plant.oscillator }
    codes := plant.codes }

theorem restart_of_ne {plant : Plant depth} {reference : UInt8} (mode : Mode) (actuator : Nat)
    (haccepted : reference ≠ plant.service.loop.config.outputChannel) :
    plant.restart mode reference actuator = .ok { plant with
      service := restarted plant.service mode reference actuator
      codes := plant.codes.push (Actuator.clamp plant.service.loop.config actuator) } := by
  rw [Plant.restart, restart_eq, if_neg haccepted]

section Fresh

variable {config : Config} {balance : UInt16} {plant : Plant depth}

/-- A plant before its first period. The code output last is the actuator code, an allowed one. -/
structure Fresh (config : Config) (balance : UInt16) (plant : Plant depth) : Prop where
  config_eq : plant.service.loop.config = config
  fifo_eq : plant.service.fifo = .empty depth
  oscillator_eq : plant.oscillator = .create config balance
  faulted_eq : plant.service.loop.faulted = false
  clamp_eq : Actuator.clamp config plant.service.loop.actuator = plant.service.loop.actuator
  back?_eq : plant.codes.back? = some plant.service.loop.actuator

theorem clamp_clamp (husable : Usable config) (code : Nat) :
    Actuator.clamp config (Actuator.clamp config code) = Actuator.clamp config code := by
  have hrange := husable.actuatorMin_lt
  simp only [Actuator.clamp]
  omega

theorem exists_build_eq_ok {engagement : Option Engagement} (depth : Nat) (registers : Registers)
    (balance : UInt16) (hvalid : config.validate = .ok ())
    (haccepted : ∀ start ∈ engagement, start.reference ≠ config.outputChannel) :
    ∃ plant : Plant depth, build depth config registers balance engagement = .ok plant ∧
      Fresh config balance plant := by
  have hclamp := clamp_clamp ((validate_eq_ok_iff config).mp hvalid)
  rw [build, Steering.create, hvalid]
  rcases engagement with _ | ⟨mode, reference, actuator⟩
  · exact ⟨_, rfl, rfl, rfl, rfl, rfl, hclamp _, rfl⟩
  · have hreference : reference ≠ config.outputChannel := haccepted _ rfl
    refine ⟨_, restart_of_ne mode actuator hreference, rfl, rfl, rfl, rfl, hclamp _, ?_⟩
    exact Array.back?_push

end Fresh

section Healthy

structure Healthy (plant : Plant depth) : Prop where
  overrun_eq : plant.service.fifo.overrun = false
  room : plant.service.fifo.queue.length + 2 ≤ depth
  faulted_eq : plant.service.loop.faulted = false
  modulus_pos : 0 < plant.oscillator.modulus
  modulus_le : plant.oscillator.modulus ≤ 0x1000000

theorem Healthy.tick {plant : Plant depth} (h : Healthy plant) :
    Healthy plant.tick.2 ∧ plant.tick.2.service.fifo = .empty depth := by
  have hroom := h.room
  have htick := tick_of_room h.overrun_eq hroom h.modulus_pos h.modulus_le
  have hfaulted := congrArg Duty.faulted (duty_onTags plant.service.toSteering
    (plant.service.fifo.queue ++ tagsOf plant.oscillator plant.service.loop.actuator))
  rw [htick]
  exact ⟨⟨rfl, Nat.le_trans (Nat.le_add_left 2 _) hroom, hfaulted.trans h.faulted_eq,
    h.modulus_pos, h.modulus_le⟩, rfl⟩

theorem Healthy.ticks {plant : Plant depth} (h : Healthy plant) (count : Nat) :
    Healthy (plant.ticks count) := by
  induction count with
  | zero => exact h
  | succ count ih =>
      rw [ticks_succ]
      exact ih.tick.1

theorem step_of_not_faulted {drive : Drive depth}
    (h : drive.plant.service.loop.faulted = false) :
    drive.step = .ok { drive with plant := drive.plant.tick.2 } := by
  rw [Drive.step, Drive.recover, if_neg (Bool.eq_false_iff.mp h)]

theorem run_of_healthy {drive : Drive depth} (h : Healthy drive.plant) (periods : Nat) :
    drive.run periods = { drive with plant := drive.plant.ticks periods } := by
  induction periods generalizing drive with
  | zero => rfl
  | succ periods ih =>
      rw [Drive.run, step_of_not_faulted h.faulted_eq]
      exact ih h.tick.1

theorem run_of_recover {drive recovered : Drive depth} (hrecover : drive.recover = .ok recovered)
    (hfaulted : recovered.plant.service.loop.faulted = false) (periods : Nat) :
    drive.run (periods + 1) = recovered.run (periods + 1) := by
  rw [Drive.run, Drive.run, step_of_not_faulted hfaulted, Drive.step, hrecover]

end Healthy

section Loaded

variable {config : Config} {balance : UInt16} {plant : Plant depth} {tags : List Tag}
  (target : Int32)

theorem loaded_eq (plant : Plant depth) (tags : List Tag) :
    loaded plant tags target =
      { plant := { plant with
          service := ⟨plant.service.toSteering.setTarget target,
            offerAll plant.service.fifo tags⟩ }
        restarts := 0 } := by
  rw [loaded, foldl_push]
  rfl

theorem Fresh.modulus_mem (h : Fresh config balance plant) (husable : Usable config) :
    0 < plant.oscillator.modulus ∧ plant.oscillator.modulus ≤ 0x1000000 := by
  have hlow := husable.two_le_modulus
  have hhigh := husable.modulus_le
  rw [h.oscillator_eq]
  change 0 < config.modulus.toNat ∧ config.modulus.toNat ≤ 0x1000000
  omega

theorem Fresh.healthy_loaded (h : Fresh config balance plant) (husable : Usable config)
    (hroom : tags.length + 2 ≤ depth) : Healthy (loaded plant tags target).plant := by
  obtain ⟨hpos, hle⟩ := h.modulus_mem husable
  obtain ⟨hqueue, hoverrun⟩ := offerAll_spec (.empty depth) tags
  rw [loaded_eq, h.fifo_eq]
  refine ⟨?_, ?_, h.faulted_eq, hpos, hle⟩
  · refine hoverrun.trans (decide_eq_false ?_)
    simp only [Fifo.empty, List.length_nil]
    omega
  · dsimp only
    rw [hqueue, List.length_take]
    simp only [Fifo.empty, List.nil_append]
    omega

theorem Fresh.healthy_relaunched (h : Fresh config balance plant) (husable : Usable config)
    (hdepth : 2 ≤ depth) (code : Nat) : Healthy (relaunched plant target code) := by
  obtain ⟨hpos, hle⟩ := h.modulus_mem husable
  exact ⟨rfl, hdepth, rfl, hpos, hle⟩

theorem Fresh.step_of_overrun (h : Fresh config balance plant) (husable : Usable config)
    (hfull : depth < tags.length + 2) :
    ∃ fifo, (loaded plant tags target).step = .ok ⟨stalled plant target fifo, 0⟩ := by
  obtain ⟨hpos, hle⟩ := h.modulus_mem husable
  obtain ⟨hqueue, hoverrun⟩ := offerAll_spec plant.service.fifo tags
  have hlatched : (offerAll plant.service.fifo tags).overrun = true ∨
      depth < (offerAll plant.service.fifo tags).queue.length + 2 := by
    rw [hqueue, hoverrun, h.fifo_eq, List.length_take]
    simp only [Fifo.empty, List.nil_append, List.length_nil, Bool.false_or]
    omega
  have htick := @tick_of_overrun depth (loaded plant tags target).plant
  rw [loaded_eq] at htick ⊢
  rw [step_of_not_faulted h.faulted_eq]
  dsimp only
  rw [htick h.faulted_eq hlatched hpos hle]
  exact ⟨_, rfl⟩

theorem Fresh.recover_stalled (h : Fresh config balance plant)
    (houtput : config.outputChannel ≠ Wiring.referenceChannel) (fifo : Fifo depth) :
    Drive.recover ⟨stalled plant target fifo, 0⟩ =
      .ok ⟨relaunched plant target plant.service.loop.actuator, 1⟩ := by
  have hfaulted : (stalled plant target fifo).service.loop.faulted = true := rfl
  have haccepted :
      Wiring.referenceChannel ≠ (stalled plant target fifo).service.loop.config.outputChannel := by
    change _ ≠ plant.service.loop.config.outputChannel
    rw [h.config_eq]
    exact houtput.symm
  have hcode : Actuator.clamp (stalled plant target fifo).service.loop.config
      (stalled plant target fifo).service.loop.actuator = plant.service.loop.actuator := by
    change Actuator.clamp plant.service.loop.config plant.service.loop.actuator = _
    rw [h.config_eq, h.clamp_eq]
  rw [Drive.recover, if_pos hfaulted, restart_of_ne .slave _ haccepted, hcode]
  rfl

theorem Fresh.run_of_overrun (h : Fresh config balance plant) (husable : Usable config)
    (hdepth : 2 ≤ depth) (houtput : config.outputChannel ≠ Wiring.referenceChannel)
    (hfull : depth < tags.length + 2) (periods : Nat) :
    (loaded plant tags target).run (periods + 2) =
      ⟨(relaunched plant target plant.service.loop.actuator).ticks (periods + 1), 1⟩ := by
  obtain ⟨fifo, hstep⟩ := h.step_of_overrun target husable hfull
  rw [Drive.run, hstep]
  dsimp only
  rw [run_of_recover (h.recover_stalled target houtput fifo) rfl,
    run_of_healthy (h.healthy_relaunched target husable hdepth _)]

end Loaded

section Ticking

structure Ticking (oscillator : Oscillator) : Prop where
  modulus_pos : 0 < oscillator.modulus
  modulus_le : oscillator.modulus ≤ 0x1000000
  reference_lt : oscillator.reference < oscillator.modulus

theorem Ticking.step {drive next : Drive depth} (h : Ticking drive.plant.oscillator)
    (hstep : drive.step = .ok next) : Ticking next.plant.oscillator := by
  have hafter : Ticking
      { drive.plant.oscillator with reference := referenceAfter drive.plant.oscillator } :=
    ⟨h.modulus_pos, h.modulus_le, referenceAfter_lt h.modulus_pos⟩
  rw [Drive.step, Drive.recover, Plant.restart] at hstep
  split at hstep
  · cases hstep
  · rename_i drive' hrecover
    cases hstep
    have hoscillator : drive'.plant.oscillator = drive.plant.oscillator := by
      split at hrecover
      · rcases hrestart : drive.plant.service.restart .slave Wiring.referenceChannel
            drive.plant.service.loop.actuator with rejection | restarted
        all_goals
          rw [hrestart] at hrecover
          cases hrecover
        rfl
      · cases hrecover
        rfl
    rw [← hoscillator] at hafter
    exact hafter

theorem Ticking.run {drive : Drive depth} (h : Ticking drive.plant.oscillator) (periods : Nat) :
    Ticking (drive.run periods).plant.oscillator := by
  induction periods generalizing drive with
  | zero => exact h
  | succ periods ih =>
      rw [Drive.run]
      split
      · exact h
      · rename_i next hstep
        exact ih (h.step hstep)

end Ticking

/-- A driven plant restarts its loop once if the tags pushed before the drive leave no room for
those of the first period, and otherwise never. After two periods or more nothing is queued, no
overrun is latched and the loop is in order. Without a restart, all periods are ticks of the loaded
plant. With one, all but the first are ticks of the plant as it was built, relaunched from the code
that it had output last, so no tag pushed before the drive has any part in what is output. -/
theorem driven_plant_recovers {config : Config} {engagement : Option Engagement} (depth : Nat)
    (registers : Registers) (balance : UInt16) (tags : List Tag) (target : Int32) {periods : Nat}
    (hdepth : 2 ≤ depth) (hvalid : config.validate = .ok ())
    (houtput : config.outputChannel ≠ Wiring.referenceChannel)
    (haccepted : ∀ start ∈ engagement, start.reference ≠ config.outputChannel)
    (hperiods : 2 ≤ periods) :
    ∃ plant : Plant depth, build depth config registers balance engagement = .ok plant ∧
      ((loaded plant tags target).run periods).restarts =
        (if depth < tags.length + 2 then 1 else 0) ∧
      ((loaded plant tags target).run periods).plant.service.fifo = .empty depth ∧
      ((loaded plant tags target).run periods).plant.service.loop.faulted = false ∧
      (tags.length + 2 ≤ depth →
        ((loaded plant tags target).run periods).plant =
          (loaded plant tags target).plant.ticks periods) ∧
      (depth < tags.length + 2 → ∃ code, plant.codes.back? = some code ∧
        ((loaded plant tags target).run periods).plant =
          (relaunched plant target code).ticks (periods - 1)) ∧
      ∀ count actuator,
        ((loaded plant tags target).run count).plant.oscillator.tick? actuator =
          .ok (((loaded plant tags target).run count).plant.oscillator.tick actuator) := by
  have husable := (validate_eq_ok_iff config).mp hvalid
  obtain ⟨plant, hbuild, hfresh⟩ := exists_build_eq_ok depth registers balance hvalid haccepted
  obtain ⟨hpos, hle⟩ := hfresh.modulus_mem husable
  obtain ⟨before, rfl⟩ : ∃ before, periods = before + 2 := ⟨periods - 2, by omega⟩
  have hticking : Ticking (loaded plant tags target).plant.oscillator := by
    refine ⟨hpos, hle, ?_⟩
    change plant.oscillator.reference < plant.oscillator.modulus
    rw [hfresh.oscillator_eq] at hpos ⊢
    exact hpos
  have htick (count actuator : Nat) :=
    tick?_eq_ok (hticking.run count).modulus_pos (hticking.run count).modulus_le
      (hticking.run count).reference_lt actuator
  by_cases hroom : tags.length + 2 ≤ depth
  · have hhealthy := hfresh.healthy_loaded target husable hroom
    obtain ⟨hended, hfifo⟩ := (hhealthy.ticks (before + 1)).tick
    rw [← ticks_succ] at hended hfifo
    refine ⟨plant, hbuild, ?_⟩
    rw [run_of_healthy hhealthy, if_neg (by omega)]
    exact ⟨rfl, hfifo, hended.faulted_eq, fun _ => rfl, fun hfull => by omega, htick⟩
  · have hfull : depth < tags.length + 2 := by omega
    have hhealthy :=
      hfresh.healthy_relaunched target husable hdepth plant.service.loop.actuator
    obtain ⟨hended, hfifo⟩ := (hhealthy.ticks before).tick
    rw [← ticks_succ] at hended hfifo
    refine ⟨plant, hbuild, ?_⟩
    rw [hfresh.run_of_overrun target husable hdepth houtput hfull, if_pos hfull]
    exact ⟨rfl, hfifo, hended.faulted_eq, fun hroom' => absurd hroom' hroom,
      fun _ => ⟨_, hfresh.back?_eq, rfl⟩, htick⟩

/-- One tag before the drive is already too many for a queue of two. -/
theorem driven_plant_recovers_shallow :
    ∃ plant : Plant 2, build 2 {} .fresh 33168 (some ⟨.grandmaster, 7, 40000⟩) = .ok plant ∧
      ((loaded plant [⟨7, 5⟩] 20).run 3).restarts = 1 ∧
      ((loaded plant [⟨7, 5⟩] 20).run 3).plant =
        (relaunched plant 20 40000).ticks 2 := by
  obtain ⟨plant, hbuild, hrestarts, -, -, -, hrelaunched, -⟩ :=
    @driven_plant_recovers {} (some ⟨.grandmaster, 7, 40000⟩) 2 .fresh 33168 [⟨7, 5⟩] 20 3
      (by decide) rfl (by decide) (by simp) (by decide)
  obtain ⟨code, hcode, hplant⟩ := hrelaunched (by decide)
  have hbuilt : build 2 {} .fresh 33168 (some ⟨.grandmaster, 7, 40000⟩) = .ok _ := rfl
  cases Except.ok.inj (hbuild.symm.trans hbuilt)
  cases hcode
  exact ⟨_, hbuilt, hrestarts, hplant⟩

end TimingNode.Proofs.OverrunRecovery
