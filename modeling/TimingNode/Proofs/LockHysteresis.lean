import Mathlib.Order.Bounds.Basic
import TimingNode.Proofs.EdgeRuns
import TimingNode.Proofs.HaltedLoop
import TimingNode.Proofs.LoopTuning

namespace TimingNode.Proofs.LockHysteresis

open TimingNode.Loop
open TimingNode.Proofs.EdgeRuns
open TimingNode.Proofs.HaltedLoop
open TimingNode.Proofs.LoopTags
open TimingNode.Proofs.LoopTuning

def inBand (config : Config) (phaseError : Int) : Bool :=
  phaseError.natAbs ≤ config.lockBand.toNat

def outOfBand (config : Config) (phaseError : Int) : Bool :=
  !inBand config phaseError

section Runs

variable {samples : Nat} {kind : Int → Bool} {errors : List Int}

def isAt (kind : Int → Bool) (errors : List Int) (i : Nat) : Bool :=
  errors[i]?.any kind

/-- The positions of errors that end `samples` consecutive ones of a kind. -/
def runEnds (samples : Nat) (kind : Int → Bool) (errors : List Int) : Set Nat :=
  {last | FullRun samples (isAt kind errors) 0 last}

def latestRun (kind : Int → Bool) (errors : List Int) : Nat :=
  trailing (isAt kind errors) 0 errors.length

theorem isAt_append_of_lt (phaseError : Int) {i : Nat} (h : i < errors.length) :
    isAt kind (errors ++ [phaseError]) i = isAt kind errors i := by
  rw [isAt, isAt, List.getElem?_append_left h]

theorem isAt_append_length (kind : Int → Bool) (errors : List Int) (phaseError : Int) :
    isAt kind (errors ++ [phaseError]) errors.length = kind phaseError := by
  rw [isAt, List.getElem?_concat_length]
  rfl

theorem trailing_append (phaseError : Int) {seen : Nat} (h : seen ≤ errors.length) :
    trailing (isAt kind (errors ++ [phaseError])) 0 seen = trailing (isAt kind errors) 0 seen := by
  induction seen with
  | zero => rfl
  | succ seen ih =>
      rw [trailing, trailing, ih (Nat.le_of_succ_le h), Nat.zero_add, isAt_append_of_lt _ h]

theorem latestRun_append (kind : Int → Bool) (errors : List Int) (phaseError : Int) :
    latestRun kind (errors ++ [phaseError]) =
      if kind phaseError then latestRun kind errors + 1 else 0 := by
  rw [latestRun, List.length_append, List.length_singleton, trailing, Nat.zero_add,
    isAt_append_length, trailing_append _ (Nat.le_refl _)]
  rfl

theorem lt_length_of_mem_runEnds (hsamples : 0 < samples) {last : Nat}
    (h : last ∈ runEnds samples kind errors) : last < errors.length := by
  have hlast := h.2 0 hsamples
  by_contra hlength
  rw [Nat.sub_zero, isAt, List.getElem?_eq_none (Nat.le_of_not_lt hlength)] at hlast
  cases hlast

theorem mem_runEnds_append (phaseError : Int) {last : Nat} (h : last < errors.length) :
    last ∈ runEnds samples kind (errors ++ [phaseError]) ↔ last ∈ runEnds samples kind errors := by
  change FullRun _ _ _ _ ↔ FullRun _ _ _ _
  rw [fullRun_iff, fullRun_iff, trailing_append _ h]

theorem length_mem_runEnds_append (samples : Nat) (kind : Int → Bool) (errors : List Int)
    (phaseError : Int) :
    errors.length ∈ runEnds samples kind (errors ++ [phaseError]) ↔
      samples ≤ latestRun kind (errors ++ [phaseError]) := by
  change FullRun _ _ _ _ ↔ _
  rw [fullRun_iff, latestRun, List.length_append, List.length_singleton]

theorem runEnds_append_of_lt (hsamples : 0 < samples) {phaseError : Int}
    (hshort : latestRun kind (errors ++ [phaseError]) < samples) :
    runEnds samples kind (errors ++ [phaseError]) = runEnds samples kind errors := by
  ext last
  constructor
  · intro hlast
    have hlength := lt_length_of_mem_runEnds hsamples hlast
    rw [List.length_append, List.length_singleton, Nat.lt_succ_iff] at hlength
    rcases Nat.lt_or_eq_of_le hlength with hlt | rfl
    · exact (mem_runEnds_append phaseError hlt).mp hlast
    · rw [length_mem_runEnds_append] at hlast
      exact absurd hlast (Nat.not_le_of_lt hshort)
  · intro hlast
    exact (mem_runEnds_append phaseError (lt_length_of_mem_runEnds hsamples hlast)).mpr hlast

theorem isGreatest_runEnds_append (hsamples : 0 < samples) {phaseError : Int}
    (hfull : samples ≤ latestRun kind (errors ++ [phaseError])) :
    IsGreatest (runEnds samples kind (errors ++ [phaseError])) errors.length := by
  refine ⟨(length_mem_runEnds_append samples kind errors phaseError).mpr hfull, ?_⟩
  intro last hlast
  have hlength := lt_length_of_mem_runEnds hsamples hlast
  rw [List.length_append, List.length_singleton] at hlength
  exact Nat.le_of_lt_succ hlength

end Runs

/-- There is a full run in band, and the last one comes after the last full run out of band, if
there is one. -/
def Holds (config : Config) (errors : List Int) : Prop :=
  ∃ gained, IsGreatest (runEnds config.lockSamples.toNat (inBand config) errors) gained ∧
    ∀ lost, IsGreatest (runEnds config.lockSamples.toNat (outOfBand config) errors) lost →
      lost < gained

section Holds

variable {config : Config} {errors : List Int} (hsamples : 0 < config.lockSamples.toNat)
include hsamples

theorem not_holds_nil : ¬ Holds config [] := by
  rintro ⟨gained, hgained, -⟩
  exact Nat.not_lt_zero gained (lt_length_of_mem_runEnds hsamples hgained.1)

theorem holds_append_of_inBand {phaseError : Int} (hband : inBand config phaseError = true) :
    Holds config (errors ++ [phaseError]) ↔
      Holds config errors ∨
        config.lockSamples.toNat ≤ latestRun (inBand config) errors + 1 := by
  have hout : latestRun (outOfBand config) (errors ++ [phaseError]) < config.lockSamples.toNat := by
    rw [latestRun_append, outOfBand, hband]
    exact hsamples
  have hin := latestRun_append (inBand config) errors phaseError
  rw [if_pos hband] at hin
  rw [Holds, runEnds_append_of_lt hsamples hout]
  by_cases hfull : config.lockSamples.toNat ≤ latestRun (inBand config) errors + 1
  · refine iff_of_true ⟨errors.length, ?_, ?_⟩ (Or.inr hfull)
    · exact isGreatest_runEnds_append hsamples (hin ▸ hfull)
    · intro lost hlost
      exact lt_length_of_mem_runEnds hsamples hlost.1
  · rw [runEnds_append_of_lt hsamples (hin ▸ Nat.lt_of_not_le hfull), or_iff_left hfull]
    exact Iff.rfl

theorem holds_append_of_outOfBand {phaseError : Int} (hband : inBand config phaseError = false) :
    Holds config (errors ++ [phaseError]) ↔
      Holds config errors ∧
        ¬ config.lockSamples.toNat ≤ latestRun (outOfBand config) errors + 1 := by
  have hin : latestRun (inBand config) (errors ++ [phaseError]) < config.lockSamples.toNat := by
    rw [latestRun_append, hband]
    exact hsamples
  have hout := latestRun_append (outOfBand config) errors phaseError
  rw [outOfBand, hband] at hout
  rw [Holds, runEnds_append_of_lt hsamples hin]
  by_cases hfull : config.lockSamples.toNat ≤ latestRun (outOfBand config) errors + 1
  · refine iff_of_false ?_ fun h => h.2 hfull
    rintro ⟨gained, hgained, hafter⟩
    have hlost := hafter errors.length (isGreatest_runEnds_append hsamples (hout ▸ hfull))
    have hlength := lt_length_of_mem_runEnds hsamples hgained.1
    omega
  · rw [runEnds_append_of_lt hsamples (hout ▸ Nat.lt_of_not_le hfull), and_iff_left hfull]
    exact Iff.rfl

end Holds

/-- A loop whose lock and run counters are those of the comparisons so far. -/
structure Tracked (config : Config) (errors : List Int) (loop : Loop) : Prop where
  config_eq : loop.config = config
  inBandRun_eq : loop.inBandRun = Word.clampUnsigned 32 (latestRun (inBand config) errors)
  outBandRun_eq : loop.outBandRun = Word.clampUnsigned 32 (latestRun (outOfBand config) errors)
  locked_iff : loop.locked = true ↔ Holds config errors

section Tracked

variable {config : Config} {errors : List Int} (hsamples : 0 < config.lockSamples.toNat)
include hsamples

theorem tracked_stopped (mode : Mode) (reference : Option UInt8) (actuator : Nat) :
    Tracked config [] (.stopped config mode reference actuator) := by
  refine ⟨rfl, rfl, rfl, ?_⟩
  exact iff_of_false Bool.false_ne_true (not_holds_nil hsamples)

theorem Tracked.trackLock {loop : Loop} (h : Tracked config errors loop) :
    Tracked config (errors ++ [loop.phaseError]) loop.trackLock := by
  have hword := config.lockSamples.toNat_lt
  obtain ⟨rfl, hin, hout, hlocked⟩ := h
  have hfull (run : Nat) : loop.config.lockSamples.toNat ≤ Word.clampUnsigned 32 (run + 1) ↔
      loop.config.lockSamples.toNat ≤ run + 1 := Word.le_clampUnsigned_iff hword (run + 1)
  by_cases hband : loop.phaseError.natAbs ≤ loop.config.lockBand.toNat
  · have hbandIn : inBand loop.config loop.phaseError = true := decide_eq_true hband
    rw [Loop.trackLock, if_pos hband]
    dsimp only
    rw [hin, Word.clampUnsigned_clampUnsigned_succ]
    refine ⟨rfl, ?_, ?_, ?_⟩
    · rw [latestRun_append, if_pos hbandIn]
    · rw [latestRun_append, outOfBand, hbandIn]
      rfl
    · rw [holds_append_of_inBand hsamples hbandIn, ← hlocked, ← hfull, Bool.or_eq_true,
        decide_eq_true_eq]
  · have hbandOut : inBand loop.config loop.phaseError = false := decide_eq_false hband
    rw [Loop.trackLock, if_neg hband]
    dsimp only
    rw [hout, Word.clampUnsigned_clampUnsigned_succ]
    refine ⟨rfl, ?_, ?_, ?_⟩
    · rw [latestRun_append, hbandOut]
      rfl
    · rw [latestRun_append, outOfBand, hbandOut]
      rfl
    · rw [holds_append_of_outOfBand hsamples hbandOut, ← hlocked, ← hfull, Bool.and_eq_true,
        Bool.not_eq_true', decide_eq_false_iff_not]

theorem Tracked.compareWith {loop : Loop} (h : Tracked config errors loop) (reference : Nat)
    (value : UInt32) :
    Tracked config (errors ++ [(loop.compareWith reference value).phaseError])
      (loop.compareWith reference value) := by
  have hmeasured : Tracked config errors (measured loop reference value) :=
    ⟨h.config_eq, h.inBandRun_eq, h.outBandRun_eq, h.locked_iff⟩
  rw [phaseError_compareWith]
  exact hmeasured.trackLock hsamples

end Tracked

def comparedError (step : Steering × Option Nat) : List Int :=
  (step.2.map fun _ => step.1.loop.phaseError).toList

/-- The phase errors of the comparisons that operations lead to, oldest first. -/
def comparedErrors (steering : Steering) : List Operation → List Int
  | [] => []
  | operation :: operations =>
      comparedError (operation.perform steering) ++
        comparedErrors (operation.perform steering).1 operations

/-- Whether a loop of the given tuning keeps its lock and its run counters through an operation.
Only a halt and an accepted initialisation throw them away. -/
def keepsLock (config : Config) (operation : Operation) : Bool :=
  !(operation matches .halt) && !operation.initialises config

section Operations

variable {config : Config} {errors : List Int} {steering : Steering}
  (h : Tracked config errors steering.loop) (hsamples : 0 < config.lockSamples.toNat)
include h hsamples

theorem Tracked.onTag (received : Tag) :
    Tracked config (errors ++ comparedError (steering.onTag received))
      (steering.onTag received).1.loop := by
  obtain ⟨hloop, hcode⟩ := steering.onTag_eq received
  have hquiet : Tracked config (errors ++ []) steering.loop := by simpa using h
  rw [comparedError, hloop, hcode]
  rcases onTag_cases steering.loop steering.registers.target received with ⟨-, htag⟩ |
    ⟨-, -, htag⟩ | ⟨-, -, -, -, phase, compared, -, rfl, htag⟩ | ⟨-, -, -, lastTag, htag⟩
  · rw [htag]
    exact hquiet
  · rw [htag]
    exact ⟨hquiet.config_eq, hquiet.inBandRun_eq, hquiet.outBandRun_eq, hquiet.locked_iff⟩
  · rw [htag]
    have hcounted : Tracked config errors { steering.loop with
        tagCount := steering.loop.tagCount + 1, lastTag := received.value } :=
      ⟨h.config_eq, h.inBandRun_eq, h.outBandRun_eq, h.locked_iff⟩
    exact hcounted.compareWith hsamples phase received.value
  · rw [htag]
    exact ⟨hquiet.config_eq, hquiet.inBandRun_eq, hquiet.outBandRun_eq, hquiet.locked_iff⟩

theorem Tracked.perform {operation : Operation} (hkeeps : keepsLock config operation = true) :
    Tracked config (errors ++ comparedError (operation.perform steering))
      (operation.perform steering).1.loop := by
  have hquiet : Tracked config (errors ++ []) steering.loop := by simpa using h
  cases operation with
  | init mode reference actuator =>
      have hrejected := (Bool.and_eq_true_iff.mp hkeeps).2
      rw [Bool.not_eq_true', ← h.config_eq] at hrejected
      rw [perform_init_of_not_initialises hrejected]
      exact hquiet
  | start => exact ⟨hquiet.config_eq, hquiet.inBandRun_eq, hquiet.outBandRun_eq, hquiet.locked_iff⟩
  | halt => cases hkeeps
  | tag received => exact h.onTag hsamples received
  | setTarget units => exact hquiet

end Operations

theorem Tracked.performAll {config : Config} {errors : List Int} {steering : Steering}
    (h : Tracked config errors steering.loop) (hsamples : 0 < config.lockSamples.toNat)
    {operations : List Operation}
    (hkeeps : ∀ operation ∈ operations, keepsLock config operation = true) :
    Tracked config (errors ++ comparedErrors steering operations)
      (performAll steering operations).1.loop := by
  induction operations generalizing steering errors with
  | nil => simpa [comparedErrors, HaltedLoop.performAll] using h
  | cons operation operations ih =>
      rw [comparedErrors, ← List.append_assoc]
      exact ih (h.perform hsamples (hkeeps operation (by simp)))
        fun later hlater => hkeeps later (by simp [hlater])

/-- From an accepted initialisation on, as long as there is no halt and no other one, a loop is
locked exactly when there was a full run of comparisons in band and the last of them ended after the
last full run out of band, if there was one. Operations that make no comparison have no say. -/
theorem locked_iff_last_full_run {steering ready : Steering} {mode : Mode} {reference : UInt8}
    {actuator : Nat} (hvalid : steering.loop.config.validate = .ok ())
    (hinit : steering.init mode reference actuator = .ok ready) {operations : List Operation}
    (hkeeps : ∀ operation ∈ operations, keepsLock steering.loop.config operation = true) :
    let config := steering.loop.config
    let errors := comparedErrors ready operations
    (performAll ready operations).1.loop.locked = true ↔
      ∃ gained, IsGreatest (runEnds config.lockSamples.toNat (inBand config) errors) gained ∧
        ∀ lost, IsGreatest (runEnds config.lockSamples.toNat (outOfBand config) errors) lost →
          lost < gained := by
  intro config errors
  have hsamples : 0 < config.lockSamples.toNat :=
    ((validate_eq_ok_iff _).mp hvalid).lockSamples_pos
  have hready : Tracked config [] ready.loop := by
    rw [Steering.init] at hinit
    split at hinit
    · cases hinit
    · cases hinit
      exact tracked_stopped hsamples mode (some reference) actuator
  have htracked := hready.performAll hsamples hkeeps
  rw [List.nil_append] at htracked
  exact htracked.locked_iff

def hasty : Steering :=
  ⟨.stopped { lockSamples := 2, lockBand := 3 } .slave none Actuator.midScale, .fresh⟩

/-- Comparisons that gain the lock, lose it and gain it again, with tags of another channel,
reference tags, a command and a rejected initialisation between them. -/
def wavering : List Operation :=
  [.tag ⟨0, 2⟩, .start, .tag ⟨0, 9⟩, .tag ⟨1, 5⟩, .tag ⟨0, 7⟩, .tag ⟨6, 900⟩, .tag ⟨0, 2⟩,
    .init .grandmaster 0 7, .tag ⟨0, 400⟩, .setTarget 0, .tag ⟨0, 405⟩, .tag ⟨1, 6⟩, .tag ⟨0, 8⟩,
    .tag ⟨0, 5⟩]

theorem locked_iff_last_full_run_wavering :
    ∃ ready, hasty.init .slave 1 32768 = .ok ready ∧
      comparedErrors ready wavering = [2, -3, 395, 400, 2, -1] ∧
      3 ∈ runEnds 2 (outOfBand hasty.loop.config) [2, -3, 395, 400, 2, -1] ∧
      ∃ gained, IsGreatest (runEnds 2 (inBand hasty.loop.config) [2, -3, 395, 400, 2, -1]) gained ∧
        ∀ lost,
          IsGreatest (runEnds 2 (outOfBand hasty.loop.config) [2, -3, 395, 400, 2, -1]) lost →
            lost < gained := by
  obtain ⟨ready, hready⟩ : ∃ ready, hasty.init .slave 1 32768 = .ok ready := ⟨_, rfl⟩
  have hvalid : hasty.loop.config.validate = .ok () := by decide
  have hlock := locked_iff_last_full_run hvalid hready (by decide : ∀ operation ∈ wavering, _)
  have herrors : comparedErrors ready wavering = [2, -3, 395, 400, 2, -1] := by
    cases hready
    decide
  have hlocked : (performAll ready wavering).1.loop.locked = true := by
    cases hready
    decide
  have hlost : FullRun 2 (isAt (outOfBand hasty.loop.config) [2, -3, 395, 400, 2, -1]) 0 3 := by
    decide
  rw [herrors] at hlock
  exact ⟨ready, hready, herrors, hlost, hlock.mp hlocked⟩

end TimingNode.Proofs.LockHysteresis
