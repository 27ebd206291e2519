import TimingNode.Proofs.SquareWaveScan

namespace TimingNode.Proofs.DutyCycle

open TimingNode.Bench
open TimingNode.Phase
open TimingNode.Scan
open TimingNode.Proofs.CircularPhase
open TimingNode.Proofs.EdgeDetection
open TimingNode.Proofs.EdgeLocation
open TimingNode.Proofs.ScanAccuracy
open TimingNode.Proofs.ScanPulses
open TimingNode.Proofs.ScanTuning
open TimingNode.Proofs.SquareWaveScan

theorem level_congr {edge edge' : Int} {period : Nat} (hedge : edge % period = edge' % period)
    (width : Nat) (x : Int) : level edge width period x = level edge' width period x := by
  rw [level, level, ← Int.sub_emod_emod, hedge, Int.sub_emod_emod]

theorem flips_eq_level_of_create {config : Config} {wave : SquareWave}
    {period rising falling : Nat} (hpos : 0 < period)
    (hwave : SquareWave.create period rising falling [] = .ok wave) (pulse : Nat) :
    flips config wave pulse =
      level rising (fold ((falling : Int) - rising) period) period (cursorAt config pulse) := by
  rw [SquareWave.create, if_neg (by omega)] at hwave
  cases hwave
  have hwidth : fold (((falling % period : Nat) : Int) - (rising % period : Nat)) period =
      fold ((falling : Int) - rising) period := by
    rw [fold, fold, Int.natCast_emod, Int.natCast_emod, Int.emod_sub_emod, Int.sub_emod_emod]
  have hedge : ((rising % period : Nat) : Int) % period = rising % period := by
    rw [Int.natCast_emod, Int.emod_emod]
  rw [flips, SquareWave.flipAt, if_neg (by simp),
    isHighAt_eq_level (Nat.mod_lt _ hpos) (Nat.mod_lt _ hpos), hwidth]
  exact level_congr hedge _ _

theorem fold_add_fold_swap {x y : Int} {period : Nat} (hpos : 0 < period)
    (hapart : fold (y - x) period ≠ 0) :
    fold (y - x) period + fold (x - y) period = period := by
  obtain ⟨rest, cycles, hrest, hlow, hhigh⟩ :=
    exists_add_mul (y - x) (by omega : (0 : Int) < period)
  have hforward := fold_of_add_mul cycles hrest hlow hhigh
  have hbackward : (fold (x - y) period : Int) = period - rest := by
    refine fold_of_add_mul (-cycles - 1) ?_ (by omega) (by omega)
    rw [Int.mul_sub, Int.mul_neg]
    omega
  omega

theorem rising_add_width_sub (rising falling found : Int) {period : Nat} (hpos : 0 < period) :
    fold (rising + fold (falling - rising) period - found) period =
      fold (falling - found) period := by
  rw [show rising + fold (falling - rising) period - found =
    fold (falling - rising) period + (rising - found) by omega, fold_fold_add _ _ hpos]
  congr 1
  omega

/-- A scan over a wave whose levels both last a full run always ends with a transition phase, and
both its detectors have found their edges, at least one picosecond and at most one step before they
are. -/
theorem scan_locates_edges {config : Config} {wave : SquareWave} {rig : Rig} {rising falling : Nat}
    (hvalid : config.validate = .ok ())
    (hwave : SquareWave.create config.period.toNat rising falling [] = .ok wave)
    (hhigh : config.threshold.toNat * config.step.toNat ≤
      fold ((falling : Int) - rising) config.period.toNat)
    (hlow : config.threshold.toNat * config.step.toNat ≤
      fold ((rising : Int) - falling) config.period.toNat)
    (hwaveform : rig.signal.waveform = .square wave)
    (hsettlingLe : rig.shifter.settling.toNat ≤ config.busyLimit.toNat)
    (hsettlingLt : rig.shifter.settling < SettlingShifter.never) :
    ∃ begun started transition ended final risingEdge fallingEdge,
      start config rig = .ok (begun, started) ∧
      (∀ patience, config.patience ≤ patience →
        run patience begun started = some (.ok transition, ended, final)) ∧
      ended.rising.phase? = some risingEdge ∧ ended.falling.phase? = some fallingEdge ∧
      1 ≤ fold (rising - risingEdge) config.period.toNat ∧
      fold (rising - risingEdge) config.period.toNat ≤ config.step.toNat ∧
      1 ≤ fold (falling - fallingEdge) config.period.toNat ∧
      fold (falling - fallingEdge) config.period.toNat ≤ config.step.toNat := by
  have husable := (validate_eq_ok_iff config).mp hvalid
  have hstepLt := husable.step_lt
  have hpos : 0 < config.period.toNat := Nat.zero_lt_of_lt hstepLt
  have hrunPos : 0 < runLength config :=
    Nat.lt_of_lt_of_le husable.step_pos husable.step_le_runLength
  rw [← runLength] at hhigh hlow
  have hwindows := fold_add_fold_swap (x := rising) (y := falling) hpos (by omega)
  obtain ⟨risingEdge, fallingEdge, lagRising, lagFalling, cyclesRising, cyclesFalling, hrising,
      hfalling, ⟨hlagRising, hlowRising, hhighRising⟩, hlagFalling, hlowFalling, hhighFalling⟩ :=
    exists_phases_after husable (flips config wave) rising
      (fold ((falling : Int) - rising) config.period.toNat) (grid_multiples config.step.toNat)
      (Nat.zero_le _) (by omega) (by omega) (by
        intro i hi
        rw [flips_eq_level_of_create hpos hwave, cursorAt_of_lt_steps husable hi])
  obtain ⟨last, final, hlast, hrun⟩ :=
    exists_run_of_settling husable hwaveform hsettlingLe hsettlingLt
  rw [verdictAfter, hrising, hfalling] at hrun
  obtain ⟨-, -, hlastRising, hlastFalling⟩ := hlast.sample
  have hfoldRising := fold_of_add_mul cyclesRising hlagRising (by omega) (by omega)
  have hfoldFalling := fold_of_add_mul cyclesFalling hlagFalling (by omega) (by omega)
  rw [rising_add_width_sub rising falling fallingEdge hpos] at hfoldFalling
  refine ⟨create config, Shifter.command config.channel 0 rig,
    midpoint risingEdge fallingEdge config.period.toNat, _, final, risingEdge, fallingEdge, ?_,
    hrun, ?_, ?_, by omega, by omega, by omega, by omega⟩
  · rw [start, hvalid]
  · rw [hlastRising, hrising]
  · rw [hlastFalling, hfalling]

/-- A narrow pulse across the end of the period, whose levels last three and seven samples. -/
def narrow : Rig :=
  ⟨.create 1, ⟨.square ⟨20, 17, 3, []⟩, 0⟩⟩

theorem scan_locates_edges_narrow :
    let config : Config := { period := 20, step := 2, threshold := 3, busyLimit := 1 }
    ∃ begun started transition ended final risingEdge fallingEdge,
      start config narrow = .ok (begun, started) ∧
      (∀ patience, config.patience ≤ patience →
        run patience begun started = some (.ok transition, ended, final)) ∧
      ended.rising.phase? = some risingEdge ∧ ended.falling.phase? = some fallingEdge ∧
      1 ≤ fold ((17 : Nat) - risingEdge) 20 ∧ fold ((17 : Nat) - risingEdge) 20 ≤ 2 ∧
      1 ≤ fold ((23 : Nat) - fallingEdge) 20 ∧ fold ((23 : Nat) - fallingEdge) 20 ≤ 2 :=
  scan_locates_edges rfl rfl (by decide) (by decide) rfl (by decide) (by decide)

end TimingNode.Proofs.DutyCycle
