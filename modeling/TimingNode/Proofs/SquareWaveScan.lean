import TimingNode.Bench.Signal
import TimingNode.Proofs.ScanAccuracy

namespace TimingNode.Proofs.SquareWaveScan

open TimingNode.Bench
open TimingNode.Phase
open TimingNode.Scan
open TimingNode.Proofs.CircularPhase
open TimingNode.Proofs.EdgeLocation
open TimingNode.Proofs.ScanAccuracy
open TimingNode.Proofs.ScanPulses
open TimingNode.Proofs.ScanTuning

/-- A rig that stands at the phase of a pulse and settles within the busy limit. -/
structure Standing (config : Config) (wave : SquareWave) (pulse : Nat) (rig : Rig) : Prop where
  phase_eq : rig.shifter.phase = cursorAt config pulse
  waveform_eq : rig.signal.waveform = .square wave
  settling_le : rig.shifter.settling.toNat ≤ config.busyLimit.toNat
  settling_lt : rig.shifter.settling < SettlingShifter.never

def flips (config : Config) (wave : SquareWave) (pulse : Nat) : Bool :=
  wave.flipAt (cursorAt config pulse)

theorem poll_settled {rig : Rig} (channel : UInt8) (hremaining : rig.shifter.remaining = 0) :
    Shifter.poll channel rig = (false, rig) := by
  simp only [Shifter.poll, SettlingShifter.poll, hremaining, if_true]

theorem poll_settling {rig : Rig} (channel : UInt8) {left : Nat}
    (hremaining : rig.shifter.remaining.toNat = left + 1)
    (hlt : rig.shifter.remaining < SettlingShifter.never) :
    ∃ rig', Shifter.poll channel rig = (true, rig') ∧
      rig'.shifter.remaining.toNat = left ∧
      rig'.shifter.phase = rig.shifter.phase ∧
      rig'.shifter.settling = rig.shifter.settling ∧ rig'.signal = rig.signal := by
  have hzero : rig.shifter.remaining ≠ 0 := by
    intro h
    rw [h] at hremaining
    simp at hremaining
  have hnever : rig.shifter.remaining ≠ SettlingShifter.never := by
    intro h
    rw [h] at hlt
    exact UInt32.lt_irrefl _ hlt
  have hone : (1 : UInt32).toNat = 1 := rfl
  refine ⟨{ rig with
    shifter := { rig.shifter with
      remaining := rig.shifter.remaining - 1
      busyPolls := Word.clampUnsigned 32 (rig.shifter.busyPolls + 1) } }, ?_, ?_, rfl, rfl, rfl⟩
  · simp only [Shifter.poll, SettlingShifter.poll, if_neg hzero, if_neg hnever]
  · rw [UInt32.toNat_sub_of_le _ _ (by rw [UInt32.le_iff_toNat_le]; omega)]
    omega

theorem run_to_settled {config : Config} {wave : SquareWave} {flip : Nat → Bool} {pulse : Nat}
    (left : Nat) {scan : Scan} {rig : Rig} (hscan : Sampled config flip pulse scan)
    (hrig : Standing config wave pulse rig) (hleft : rig.shifter.remaining.toNat = left)
    (hlt : rig.shifter.remaining < SettlingShifter.never)
    (hlimit : scan.busyPolls + left ≤ config.busyLimit.toNat) :
    ∃ scan' rig', Sampled config flip pulse scan' ∧ Standing config wave pulse rig' ∧
      rig'.shifter.remaining = 0 ∧
      ∀ patience, run (left + patience) scan rig = run patience scan' rig' := by
  induction left generalizing scan rig with
  | zero =>
      refine ⟨scan, rig, hscan, hrig, UInt32.toNat_inj.mp hleft, ?_⟩
      intro patience
      rw [Nat.zero_add]
  | succ left ih =>
      obtain ⟨next, hpoll, hremaining, hphase, hsettling, hsignal⟩ :=
        poll_settling config.channel hleft hlt
      have hbusy : Shifter.poll scan.config.channel rig = (true, next) := by
        rw [hscan.config_eq]
        exact hpoll
      have hstep := step_of_busy hbusy (by rw [hscan.config_eq]; omega)
      have hcounted : Sampled config flip pulse { scan with busyPolls := scan.busyPolls + 1 } :=
        ⟨hscan.config_eq, hscan.cursor_eq, hscan.rising_eq, hscan.falling_eq⟩
      have hnext : Standing config wave pulse next :=
        ⟨hphase ▸ hrig.phase_eq, hsignal ▸ hrig.waveform_eq, hsettling ▸ hrig.settling_le,
          hsettling ▸ hrig.settling_lt⟩
      have hnextLt : next.shifter.remaining < SettlingShifter.never := by
        rw [UInt32.lt_iff_toNat_lt] at hlt ⊢
        omega
      obtain ⟨scan', rig', hscan', hrig', hsettled, hrun⟩ :=
        ih hcounted hnext hremaining hnextLt (by dsimp only; omega)
      refine ⟨scan', rig', hscan', hrig', hsettled, ?_⟩
      intro patience
      rw [show left + 1 + patience = left + patience + 1 by omega,
        run_of_underway _ hstep, hrun]

theorem pulse_rig {config : Config} {wave : SquareWave} {pulse : Nat} {rig : Rig}
    (hrig : Standing config wave pulse rig) :
    ∃ rig' : Rig, PulseSource.pulse rig = (flips config wave pulse, rig') ∧
      Standing config wave (pulse + 1)
        (Shifter.command config.channel (cursorAt config (pulse + 1)) rig') := by
  refine ⟨{ rig with signal := { rig.signal with pulses := rig.signal.pulses + 1 } }, ?_,
    rfl, hrig.waveform_eq, hrig.settling_le, hrig.settling_lt⟩
  simp only [PulseSource.pulse, Signal.sampleAt, hrig.waveform_eq, hrig.phase_eq, flips]

/-- From any pulse on, the scan takes its last pulse within a bounded number of polls. -/
theorem run_to_end {config : Config} {wave : SquareWave} (husable : Usable config)
    (left : Nat) {pulse : Nat} {scan : Scan} {rig : Rig}
    (hscan : Sampled config (flips config wave) pulse scan)
    (hrig : Standing config wave pulse rig) (hpulse : pulse + left = config.steps)
    (hlt : rig.shifter.remaining < SettlingShifter.never)
    (hlimit : scan.busyPolls + rig.shifter.remaining.toNat ≤ config.busyLimit.toNat) :
    ∃ last rig', Sampled config (flips config wave) config.steps last ∧
      ∀ patience, (config.busyLimit.toNat + 1) * (left + 1) ≤ patience →
        run patience scan rig = some (verdictAfter config (flips config wave) (config.steps + 1),
          last.sample (flips config wave config.steps), rig') := by
  induction left generalizing pulse scan rig with
  | zero =>
      obtain ⟨settled, still, hsettled, hstill, hremaining, hrun⟩ :=
        run_to_settled _ hscan hrig rfl hlt hlimit
      obtain ⟨pulsed, hflip, -⟩ := pulse_rig hstill
      obtain rfl : pulse = config.steps := hpulse
      have hstep := step_of_last_pulse hsettled husable (Nat.le_refl _)
        (poll_settled config.channel hremaining) hflip
      refine ⟨settled, pulsed, hsettled, ?_⟩
      intro patience hpatience
      obtain ⟨extra, rfl⟩ : ∃ extra,
          patience = rig.shifter.remaining.toNat + (extra + 1) :=
        ⟨patience - rig.shifter.remaining.toNat - 1, by omega⟩
      rw [hrun, run_of_last extra hstep]
  | succ left ih =>
      obtain ⟨settled, still, hsettled, hstill, hremaining, hrun⟩ :=
        run_to_settled _ hscan hrig rfl hlt hlimit
      obtain ⟨pulsed, hflip, hnext⟩ := pulse_rig hstill
      obtain ⟨moved, hstep, hmoved, hpolls⟩ := step_of_pulse hsettled husable (by omega)
        (poll_settled config.channel hremaining) hflip
      obtain ⟨last, final, hlast, hfinal⟩ := ih hmoved hnext (by omega) hnext.settling_lt
        (by rw [hpolls, Nat.zero_add]; exact hnext.settling_le)
      refine ⟨last, final, hlast, ?_⟩
      intro patience hpatience
      rw [Nat.mul_succ] at hpatience
      obtain ⟨extra, rfl⟩ : ∃ extra,
          patience = rig.shifter.remaining.toNat + (extra + 1) :=
        ⟨patience - rig.shifter.remaining.toNat - 1, by omega⟩
      rw [hrun, run_of_underway extra hstep]
      exact hfinal extra (by omega)

theorem run_to_verdict {config : Config} {wave : SquareWave} {transition : TransitionPhase}
    (husable : Usable config)
    (hverdict : verdictAfter config (flips config wave) (config.steps + 1) = .ok transition)
    (left : Nat) {pulse : Nat} {scan : Scan} {rig : Rig}
    (hscan : Sampled config (flips config wave) pulse scan)
    (hrig : Standing config wave pulse rig) (hpulse : pulse + left = config.steps)
    (hlt : rig.shifter.remaining < SettlingShifter.never)
    (hlimit : scan.busyPolls + rig.shifter.remaining.toNat ≤ config.busyLimit.toNat) :
    ∃ scan' rig', ∀ patience, (config.busyLimit.toNat + 1) * (left + 1) ≤ patience →
      run patience scan rig = some (.ok transition, scan', rig') := by
  obtain ⟨last, final, -, hfinal⟩ := run_to_end husable left hscan hrig hpulse hlt hlimit
  rw [hverdict] at hfinal
  exact ⟨_, final, hfinal⟩

theorem exists_run_of_settling {config : Config} {wave : SquareWave} {rig : Rig}
    (husable : Usable config) (hwaveform : rig.signal.waveform = .square wave)
    (hsettlingLe : rig.shifter.settling.toNat ≤ config.busyLimit.toNat)
    (hsettlingLt : rig.shifter.settling < SettlingShifter.never) :
    ∃ last final, Sampled config (flips config wave) config.steps last ∧
      ∀ patience, config.patience ≤ patience →
        run patience (create config) (Shifter.command config.channel 0 rig) =
          some (verdictAfter config (flips config wave) (config.steps + 1),
            last.sample (flips config wave config.steps), final) := by
  have hstarted : Standing config wave 0 (Shifter.command config.channel 0 rig) :=
    ⟨(sampled_create config (flips config wave)).cursor_eq, hwaveform, hsettlingLe, hsettlingLt⟩
  exact run_to_end husable config.steps (sampled_create config (flips config wave)) hstarted
    (Nat.zero_add _) hsettlingLt (by rw [create, Nat.zero_add]; exact hsettlingLe)

theorem isHighAt_eq_level {wave : SquareWave} (hrising : wave.rising < wave.period)
    (hfalling : wave.falling < wave.period) (x : Int) :
    wave.isHighAt x =
      level wave.rising (fold (wave.falling - wave.rising) wave.period) wave.period x := by
  obtain ⟨rest, cycles, hx, hlow, hhigh⟩ :=
    exists_add_mul x (by omega : (0 : Int) < wave.period)
  have hfold := fold_of_add_mul cycles hx hlow hhigh
  have hoffset : (x - wave.rising) % wave.period =
      if (wave.rising : Int) ≤ rest then rest - wave.rising
      else rest - wave.rising + wave.period :=
    emod_sub_of_add_mul cycles hx hlow hhigh (by omega) (by omega)
  have hwidth : (fold (wave.falling - wave.rising) wave.period : Int) =
      if (wave.rising : Int) ≤ wave.falling then (wave.falling : Int) - wave.rising
      else wave.falling - wave.rising + wave.period := by
    rw [cast_fold _ (by omega)]
    exact emod_sub_of_add_mul 0 (by omega) (by omega) (by omega) (by omega) (by omega)
  rw [level, hoffset, hwidth, SquareWave.isHighAt]
  split <;> split <;> exact decide_eq_decide.mpr (by omega)

theorem flips_eq_level {config : Config} {wave : SquareWave} {rising : Nat}
    (hpos : 0 < config.period.toNat) (heven : config.period.toNat % 2 = 0)
    (hrising : rising < config.period.toNat)
    (hwave : SquareWave.create config.period.toNat rising
      ((rising + config.period.toNat / 2) % config.period.toNat) [] = .ok wave) (pulse : Nat) :
    flips config wave pulse = level rising (config.period.toNat / 2) config.period.toNat
      (cursorAt config pulse) := by
  rw [SquareWave.create, if_neg (by omega), Nat.mod_mod, Nat.mod_eq_of_lt hrising] at hwave
  cases hwave
  obtain ⟨falling, hfalling⟩ : ∃ falling,
      falling = (rising + config.period.toNat / 2) % config.period.toNat := ⟨_, rfl⟩
  have hturns := Nat.mod_add_div (rising + config.period.toNat / 2) config.period.toNat
  rw [← hfalling] at hturns ⊢
  have hwidth : (fold ((falling : Int) - rising) config.period.toNat : Int) =
      (config.period.toNat / 2 : Nat) := by
    refine fold_of_add_mul
      (-((rising + config.period.toNat / 2) / config.period.toNat : Nat)) ?_ (by omega) (by omega)
    rw [Int.mul_neg, ← Int.natCast_mul]
    omega
  rw [flips, SquareWave.flipAt, if_neg (by simp),
    isHighAt_eq_level hrising (hfalling ▸ Nat.mod_lt _ hpos), Int.ofNat.inj hwidth]

/-- A scan over a square wave always ends with a transition phase, and dates the rising edge at
least one picosecond and at most one step before it is. -/
theorem scan_square_wave {config : Config} {wave : SquareWave} {rig : Rig} {rising : Nat}
    (hvalid : config.validate = .ok ())
    (hrun : 2 * (config.threshold.toNat * config.step.toNat) ≤ config.period.toNat)
    (hrising : rising < config.period.toNat)
    (hwave : SquareWave.create config.period.toNat rising
      ((rising + config.period.toNat / 2) % config.period.toNat) [] = .ok wave)
    (hwaveform : rig.signal.waveform = .square wave)
    (hsettlingLe : rig.shifter.settling.toNat ≤ config.busyLimit.toNat)
    (hsettlingLt : rig.shifter.settling < SettlingShifter.never) :
    ∃ begun started transition ended final,
      start config rig = .ok (begun, started) ∧
      (∀ patience, config.patience ≤ patience →
        run patience begun started = some (.ok transition, ended, final)) ∧
      transition.picoseconds < config.period.toNat ∧
      1 ≤ fold (rising - transition.picoseconds) config.period.toNat ∧
      fold (rising - transition.picoseconds) config.period.toNat ≤ config.step.toNat := by
  have husable := (validate_eq_ok_iff config).mp hvalid
  have hstepLt := husable.step_lt
  have hpos : 0 < config.period.toNat := by omega
  obtain ⟨transition, hverdict, htransition, lag, cycles, hlag, hlow, hhigh⟩ :=
    exists_verdictAfter husable (flips config wave) rising (grid_multiples config.step.toNat)
      (Nat.zero_le _) (by rw [runLength]; omega) (by
        intro i hi
        rw [flips_eq_level hpos husable.even hrising hwave, cursorAt_of_lt_steps husable hi])
  have hstarted : Standing config wave 0 (Shifter.command config.channel 0 rig) :=
    ⟨(sampled_create config (flips config wave)).cursor_eq, hwaveform, hsettlingLe, hsettlingLt⟩
  obtain ⟨ended, final, hfinal⟩ := run_to_verdict husable hverdict config.steps
    (sampled_create config (flips config wave)) hstarted (Nat.zero_add _) hsettlingLt
    (by rw [create, Nat.zero_add]; exact hsettlingLe)
  have hfold := fold_of_add_mul cycles hlag (by omega) (by omega)
  refine ⟨create config, Shifter.command config.channel 0 rig, transition, ended, final, ?_,
    hfinal, htransition, by omega, by omega⟩
  rw [start, hvalid]

/-- A tuning with the greatest range, whose last pulse lies beyond the signed 32-bit phases. -/
def widest : Config :=
  { period := 858993460, step := 429496729, threshold := 1, busyLimit := 2 }

def lateEdge : Rig :=
  ⟨.create 2, ⟨.square ⟨858993460, 858993459, 429496729, []⟩, 0⟩⟩

theorem scan_square_wave_widest :
    ∃ begun started transition ended final,
      start widest lateEdge = .ok (begun, started) ∧
      (∀ patience, widest.patience ≤ patience →
        run patience begun started = some (.ok transition, ended, final)) ∧
      transition.picoseconds < widest.period.toNat ∧
      1 ≤ fold ((858993459 : Nat) - transition.picoseconds) widest.period.toNat ∧
      fold ((858993459 : Nat) - transition.picoseconds) widest.period.toNat ≤
        widest.step.toNat :=
  scan_square_wave rfl (by decide) (by decide) rfl rfl (by decide) (by decide)

end TimingNode.Proofs.SquareWaveScan
