import TimingNode.Bench
import TimingNode.Node
import TimingNode.Shell.Calibration
import TimingNode.Proofs.CalibrationPrograms
import TimingNode.Proofs.ScanResult
import TimingNode.Proofs.StoredPhase

namespace TimingNode.Proofs.StoredCalibration

open TimingNode.Calibrator
open TimingNode.Shell
open TimingNode.Store
open TimingNode.TransitionPhase
open TimingNode.Proofs.CalibrationPrograms
open TimingNode.Proofs.ScanResult
open TimingNode.Proofs.StoredPhase

def Holds (phase : TransitionPhase) (store : Store) : Prop :=
  ∃ memory : EepromStore, store = .eeprom memory ∧ memory.read = .ok (some phase)

/-- What a measurement leaves in the memory, with a phase that can be kept if it was successful. -/
def Measured (memory : EepromStore) : Except Calibrator.Error TransitionPhase → Store → Prop
  | .ok phase => fun store => store = .eeprom memory ∧ recovered phase = some phase
  | .error _ => (· = .eeprom memory)

/-- What a reading leaves in the memory, which holds the phase that was read. -/
def Retrieved (memory : EepromStore) :
    Except Calibrator.Error (Option TransitionPhase) → Store → Prop
  | .ok (some phase) => Holds phase
  | _ => (· = .eeprom memory)

theorem read_of_eeprom {δ : Type} {memory : EepromStore} {node : Node δ}
    (hstore : node.store = .eeprom memory) :
    TransitionStore.read node = (memory.read, node) := by
  rcases node with ⟨devices, store, reception, pushed⟩
  cases hstore
  rfl

theorem yields_say {σ : Type} [Console σ] {text : String} {calibrator : Calibrator σ}
    {accepted : Bool} {world : σ}
    (h : Console.write (text ++ "\n") calibrator.world = (accepted, world)) :
    Yields (Calibration.say text) calibrator (if accepted then .ok () else .error .output)
      { calibrator with world } := by
  have hline : sayLine text calibrator.world =
      (if accepted then .ok () else .error .output, world) := by
    rw [sayLine, h]
  cases accepted with
  | false => exact yields_bind (yields_act hline) rfl
  | true => exact yields_bind (yields_act hline) rfl

section Obtained

variable {δ ε α : Type}

def OnStore (holds : Store → Prop) (calibrator : Calibrator (Node δ)) : Prop :=
  holds calibrator.world.store

theorem ensures_device {holds : Store → Prop} {action : Node δ → α × Node δ}
    (h : ∀ node, (action node).2.store = node.store) :
    Ensures (OnStore holds) (act action : CalibrationM (Node δ) ε α) fun _ => OnStore holds := by
  refine ensures_act fun calibrator hstore => ?_
  rw [OnStore, h]
  exact hstore

theorem ensures_say [Console δ] {holds : Store → Prop} (text : String) :
    Ensures (OnStore holds) (Calibration.say text : CalibrationM (Node δ) Shell.Error Unit)
      fun _ => OnStore holds := by
  rw [Calibration.say]
  refine Ensures.bind (ensures_device fun _ => rfl) fun answer => ?_
  rcases answer with error | _
  · exact ensures_throw error
  · exact ensures_pure fun _ hstore => hstore

theorem store_awaitReady [Delay δ] {poll : Node δ → Bool × Node δ}
    (h : ∀ node, (poll node).2.store = node.store) (interval : UInt32) (polls : Nat)
    (node : Node δ) : (Calibration.awaitReady interval poll polls node).2.store = node.store := by
  induction polls generalizing node with
  | zero => exact h node
  | succ polls ih =>
      have hpoll := h node
      rw [Calibration.awaitReady]
      rcases hpolled : poll node with ⟨_ | _, polled⟩
      · rw [hpolled] at hpoll
        exact (ih _).trans hpoll
      · rw [hpolled] at hpoll
        exact hpoll

theorem holds_of_write {memory : EepromStore} {phase : TransitionPhase} {node written : Node δ}
    (hstore : node.store = .eeprom memory) (hphase : recovered phase = some phase)
    (h : TransitionStore.write phase node = (.ok (), written)) : Holds phase written.store := by
  rcases node with ⟨devices, store, reception, pushed⟩
  cases hstore
  rcases hwrite : memory.write phase with error | memory'
  · simp only [TransitionStore.write, hwrite] at h
    cases h
  · simp only [TransitionStore.write, hwrite] at h
    cases h
    exact ⟨memory', rfl, hphase ▸ read_of_write_eq_ok hwrite⟩

theorem ensures_keep (memory : EepromStore) (phase : TransitionPhase) :
    Ensures (OnStore (Measured memory (.ok phase)))
      (keep phase : CalibrationM (Node δ) Calibrator.Error Unit)
      fun _ => OnStore (Holds phase) := by
  rintro before _ after ⟨hstore, hphase⟩ h
  rw [keep] at h
  rcases bind_cases h with ⟨_, herror, -⟩ | ⟨answer, between, hact, h⟩
  · cases herror
  obtain ⟨_, written, hwrite, hanswer, rfl⟩ := act_cases hact
  cases hanswer
  rcases answer with error | _
  · cases h
  · cases h
    exact holds_of_write hstore hphase hwrite

theorem retrieved_of_retrieve {memory : EepromStore} {before after : Calibrator (Node δ)}
    {result : Except Calibrator.Error (Option TransitionPhase)}
    (hstore : OnStore (· = .eeprom memory) before) (h : Yields retrieve before result after) :
    OnStore (Retrieved memory result) after := by
  obtain ⟨answer, world, hread, hcases⟩ := retrieve_cases h
  rw [read_of_eeprom hstore] at hread
  cases hread
  rcases hcases with ⟨phase, hanswer, rfl, rfl⟩ | ⟨hresult, rfl⟩
  · exact ⟨memory, hstore, hanswer⟩
  · rcases result with error | _ | phase
    · exact hstore
    · exact hstore
    · exact absurd rfl (hresult phase)

variable [Shifter δ] [PulseSource δ]

theorem measured_of_measure {memory : EepromStore} {before after : Calibrator (Node δ)}
    {result : Except Calibrator.Error TransitionPhase}
    (hstore : OnStore (· = .eeprom memory) before)
    (h : Yields Calibrator.measure before result after) :
    OnStore (Measured memory result) after := by
  rcases measure_cases h with ⟨cause, -, rfl, rfl⟩ |
    ⟨scan, started, verdict, scan', scanned, hstart, hrun, hcases⟩
  · exact hstore
  have hscanned : scanned.store = .eeprom memory :=
    ((untouched_store.run hrun).trans (untouched_store.start hstart)).trans hstore
  rcases hcases with ⟨failure, rfl, rfl, rfl⟩ | ⟨phase, rfl, rfl, rfl⟩
  · exact hscanned
  · -- The result lies below the period, so its word is not that of an erased cell.
    obtain ⟨hlt, hperiod⟩ := lt_period_of_run hstart hrun
    refine ⟨hscanned, ?_⟩
    rw [recovered, if_neg]
    rw [greatest]
    omega

theorem ensures_calibrateSlave (memory : EepromStore) :
    Ensures (OnStore (· = .eeprom memory))
      (calibrateSlave : CalibrationM (Node δ) Calibrator.Error TransitionPhase)
      fun phase => OnStore (Holds phase) := by
  rw [calibrateSlave]
  refine Ensures.bind (ensures_attempt fun _ _ _ => measured_of_measure) fun result => ?_
  split
  · refine (ensures_keep memory _).bind fun _ => ?_
    exact ensures_pure fun _ hstore => hstore
  · refine Ensures.bind (fun _ _ _ => retrieved_of_retrieve) fun found => ?_
    rcases found with _ | phase
    · exact ensures_throw _
    · exact ensures_pure fun _ hstore => hstore
  · exact ensures_throw _

variable [Link δ] [Pll δ]

theorem ensures_measureLocked (memory : EepromStore) :
    Ensures (OnStore (· = .eeprom memory))
      (measureLocked : CalibrationM (Node δ) Calibrator.Error TransitionPhase)
      fun phase => OnStore (Measured memory (.ok phase)) := by
  rw [measureLocked]
  refine Ensures.bind (ensures_device fun _ => rfl) fun up => ?_
  refine ensures_unless (ensures_throw _) ?_
  refine Ensures.bind (ensures_device fun _ => rfl) fun locked => ?_
  refine ensures_unless (ensures_throw _) ?_
  exact fun _ _ _ => measured_of_measure

variable [Delay δ] [Console δ]

theorem ensures_measureAndKeep (limits : Limits) (memory : EepromStore) :
    Ensures (OnStore (· = .eeprom memory))
      (Calibration.measureAndKeep limits : CalibrationM (Node δ) Shell.Error TransitionPhase)
      fun phase => OnStore (Holds phase) := by
  rw [Calibration.measureAndKeep]
  refine (ensures_say _).bind fun _ => ?_
  refine (ensures_device (store_awaitReady (fun _ => rfl) _ _)).bind fun up => ?_
  refine ensures_unless (ensures_say _) ?_
  refine (ensures_device fun _ => rfl).bind fun _ => ?_
  refine (ensures_say _).bind fun _ => ?_
  refine (ensures_device (store_awaitReady (fun _ => rfl) _ _)).bind fun locked => ?_
  refine ensures_unless (ensures_say _) ?_
  refine (ensures_say _).bind fun _ => ?_
  refine ((ensures_measureLocked memory).adapt _).bind fun phase => ?_
  refine (ensures_say _).bind fun _ => ?_
  refine ((ensures_keep memory phase).adapt _).bind fun _ => ?_
  exact ensures_pure fun _ hstore => hstore

theorem ensures_run (limits : Limits) (arguments : List String) (memory : EepromStore) :
    Ensures (OnStore (· = .eeprom memory))
      (Calibration.run limits arguments : CalibrationM (Node δ) Shell.Error TransitionPhase)
      fun phase => OnStore (Holds phase) := by
  have hmeasure : Ensures (OnStore (· = .eeprom memory))
      (do
        Calibration.say "Measuring t2/t4 phase transition..."
        Calibration.measureAndKeep limits : CalibrationM (Node δ) Shell.Error TransitionPhase)
      fun phase => OnStore (Holds phase) :=
    (ensures_say _).bind fun _ => ensures_measureAndKeep limits memory
  rcases arguments with _ | ⟨word, _ | ⟨second, rest⟩⟩
  · refine Ensures.bind (ensures_attempt fun _ _ _ => retrieved_of_retrieve) fun answer => ?_
    rcases answer with error | _ | phase
    · exact hmeasure
    · exact hmeasure
    · refine (ensures_say _).bind fun _ => ?_
      exact ensures_pure fun _ hstore => hstore
  · rw [Calibration.run]
    split
    · exact ensures_measureAndKeep limits memory
    · exact ensures_throw _
  · exact ensures_throw _

end Obtained

section Recalled

variable {δ : Type}

def foundLine (phase : TransitionPhase) : String :=
  s!"Found phase transition in EEPROM: {phase.picoseconds}ps" ++ "\n"

/-- A calibrator that has made a phase active, on a node with the given devices and store. -/
structure Recalled (phase : TransitionPhase) (devices : δ) (store : Store)
    (calibrator : Calibrator (Node δ)) : Prop where
  current_eq : calibrator.current = some phase
  active_eq : calibrator.world.reception.active = some phase
  devices_eq : calibrator.world.devices = devices
  store_eq : calibrator.world.store = store

theorem recalled_activated {phase : TransitionPhase} {calibrator : Calibrator (Node δ)}
    (h : Holds phase calibrator.world.store) :
    Recalled phase calibrator.world.devices calibrator.world.store
      (activated phase calibrator) := by
  obtain ⟨memory, -, hread⟩ := h
  refine ⟨rfl, ?_, rfl, rfl⟩
  exact (ofWord?_toWord phase).trans (recovered_of_read hread)

theorem yields_retrieve_of_holds {phase : TransitionPhase} {calibrator : Calibrator (Node δ)}
    (h : Holds phase calibrator.world.store) :
    Yields retrieve calibrator (.ok (some phase)) (activated phase calibrator) := by
  obtain ⟨memory, hstore, hread⟩ := h
  have hnode := read_of_eeprom hstore
  rw [hread] at hnode
  exact yields_retrieve hnode

theorem yields_master_of_holds {phase : TransitionPhase} {calibrator : Calibrator (Node δ)}
    [Shifter δ] [PulseSource δ] (h : Holds phase calibrator.world.store) :
    Yields (calibrate .master) calibrator (.ok phase) (activated phase calibrator) :=
  yields_bind (yields_retrieve_of_holds h) rfl

theorem yields_run_of_holds [Link δ] [Pll δ] [Delay δ] [Console δ] [Shifter δ] [PulseSource δ]
    {phase : TransitionPhase} {calibrator : Calibrator (Node δ)} {accepted : Bool} {devices : δ}
    (h : Holds phase calibrator.world.store) (limits : Limits)
    (hwrite : Console.write (foundLine phase) calibrator.world.devices = (accepted, devices)) :
    Yields (Calibration.run limits []) calibrator
      (if accepted then .ok phase else .error .output)
      (activated phase { calibrator with world := { calibrator.world with devices } }) := by
  have hretrieve : Yields (attempt retrieve : CalibrationM (Node δ) Shell.Error _) calibrator
      (.ok (.ok (some phase))) (activated phase calibrator) :=
    yields_attempt (yields_retrieve_of_holds h)
  have hline : Console.write (foundLine phase) (activated phase calibrator).world =
      (accepted, { (activated phase calibrator).world with devices }) := by
    simp only [Console.write, Node.onDevices, activated, CorrectionSink.push, hwrite]
  have hsay : Yields (Calibration.say _) (activated phase calibrator) _ _ := yields_say hline
  refine yields_bind hretrieve ?_
  cases accepted with
  | false => exact yields_bind_error hsay
  | true => exact yields_bind hsay rfl

end Recalled

/-- A phase obtained by a slave or by the command is obtained again from the store that this leaves,
by any calibrator of any node with that store, the same or another: as a master, by reading and by
the command without an argument. It is active then, the store is as it was, and so are the devices,
except that the command writes one line on the console. The devices are of any type, also of one
that notes every poll, every command and every pulse. -/
theorem obtained_again {δ δ' : Type}
    [Link δ] [Pll δ] [Delay δ] [Console δ] [Shifter δ] [PulseSource δ]
    [Link δ'] [Pll δ'] [Delay δ'] [Console δ'] [Shifter δ'] [PulseSource δ']
    {before after : Calibrator (Node δ)} {memory : EepromStore} {phase : TransitionPhase}
    (hmemory : before.world.store = .eeprom memory)
    (hobtained : Yields (calibrate .slave) before (.ok phase) after ∨
      ∃ limits arguments, Yields (Calibration.run limits arguments) before (.ok phase) after)
    (later : Calibrator (Node δ')) (hlater : later.world.store = after.world.store) :
    (∃ recalled, Yields (calibrate .master) later (.ok phase) recalled ∧
        Recalled phase later.world.devices after.world.store recalled) ∧
      (∃ recalled, Yields retrieve later (.ok (some phase)) recalled ∧
        Recalled phase later.world.devices after.world.store recalled) ∧
      ∀ limits, ∃ recalled, Yields (Calibration.run limits []) later
          (if (Console.write (foundLine phase) later.world.devices).1 then .ok phase
            else .error .output) recalled ∧
        Recalled phase (Console.write (foundLine phase) later.world.devices).2 after.world.store
          recalled := by
  have hafter : Holds phase after.world.store := by
    rcases hobtained with hslave | ⟨limits, arguments, hrun⟩
    · exact ensures_calibrateSlave memory before phase after hmemory hslave
    · exact ensures_run limits arguments memory before phase after hmemory hrun
  rw [← hlater] at hafter ⊢
  refine ⟨⟨_, yields_master_of_holds hafter, recalled_activated hafter⟩,
    ⟨_, yields_retrieve_of_holds hafter, recalled_activated hafter⟩, fun limits => ?_⟩
  refine ⟨_, yields_run_of_holds hafter limits rfl, ?_⟩
  obtain ⟨hcurrent, hactive, -, hstore⟩ := recalled_activated hafter
  exact ⟨hcurrent, hactive, rfl, hstore⟩

/-- A bench whose link and PLL never come up, with a shifter of the given settling time. -/
def offline (settling : UInt32) : Bench :=
  { rig := ⟨.create settling, ⟨.script #[false, false, true, true, false, false, true, true], 0⟩⟩
    link := .create none
    pll := .create none
    console := .unlimited
    waits := 0
    waited := 0 }

def booted (devices : Bench) (store : Store) : Calibrator (Node Bench) :=
  { config := { period := 8, step := 2, threshold := 1, busyLimit := 2 }
    patience := 24
    current := none
    world := .uncalibrated devices store Reception.defaultPeriod }

/-- A slave measures into an erased memory. After a power cycle its shifter never settles, and the
node is a master. -/
theorem obtained_again_after_power_cycle :
    ∃ after, Yields (calibrate .slave) (booted (offline 0) (.eeprom ⟨.erased 4, 0⟩))
        (.ok ⟨2, by decide⟩) after ∧
      ∃ recalled, Yields (calibrate .master)
          (booted (offline Bench.SettlingShifter.never) after.world.store) (.ok ⟨2, by decide⟩)
          recalled ∧
        Recalled ⟨2, by decide⟩ (offline Bench.SettlingShifter.never) after.world.store
          recalled := by
  have hslave : Yields (calibrate .slave) (booted (offline 0) (.eeprom ⟨.erased 4, 0⟩))
    (.ok ⟨2, by decide⟩) _ := rfl
  obtain ⟨⟨recalled, hmaster, hrecalled⟩, -⟩ := obtained_again rfl (Or.inl hslave)
    (booted (offline Bench.SettlingShifter.never) _) rfl
  exact ⟨_, hslave, recalled, hmaster, hrecalled⟩

end TimingNode.Proofs.StoredCalibration
