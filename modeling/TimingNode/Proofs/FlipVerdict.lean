import TimingNode.Bench.Signal
import TimingNode.Proofs.RecordedScan
import TimingNode.Proofs.ScanPulses

namespace TimingNode.Proofs.FlipVerdict

open TimingNode.Scan
open TimingNode.Proofs.RecordedScan
open TimingNode.Proofs.RecordedWorld
open TimingNode.Proofs.ScanPulses
open TimingNode.Proofs.ScanTuning

def samples (config : Config) (bits : List Bool) : List (Bool × Int) :=
  bits.zipIdx.map fun (bit, index) => (bit, (index * config.step.toNat : Nat))

def detectorAfter (config : Config) (polarity : Polarity) (bits : List Bool) : EdgeDetector :=
  (EdgeDetector.create polarity config).sampleAll (samples config bits)

def foldVerdict (config : Config) (bits : List Bool) : Except Failure TransitionPhase :=
  match (detectorAfter config .rising bits).phase?, (detectorAfter config .falling bits).phase? with
  | some rising, some falling => .ok (midpoint rising falling config.period.toNat)
  | _, _ => .error .rangeExhausted

/-- A scan at a multiple of the step whose detectors have seen the flip bits. -/
def scanAfter (config : Config) (bits : List Bool) (index busyPolls : Nat) : Scan :=
  { config
    rising := detectorAfter config .rising bits
    falling := detectorAfter config .falling bits
    cursor := (index * config.step.toNat : Nat)
    busyPolls }

/-- One command to each multiple of the step, in order, and one pulse after each. -/
def conversation (config : Config) (bits : List Bool) : List Ask :=
  bits.zipIdx.flatMap fun (bit, index) =>
    [.command config.channel (index * config.step.toNat : Nat), .pulse bit]

theorem detectorAfter_append (config : Config) (polarity : Polarity) (bits : List Bool)
    (bit : Bool) :
    detectorAfter config polarity (bits ++ [bit]) =
      (detectorAfter config polarity bits).sample bit
        (bits.length * config.step.toNat : Nat) := by
  simp [detectorAfter, samples, EdgeDetector.sampleAll, List.zipIdx_append]

theorem conversation_append (config : Config) (bits : List Bool) (bit : Bool) :
    conversation config (bits ++ [bit]) = conversation config bits ++
      [.command config.channel (bits.length * config.step.toNat : Nat), .pulse bit] := by
  simp [conversation, List.zipIdx_append]

theorem create_eq_scanAfter (config : Config) : create config = scanAfter config [] 0 0 := by
  simp [create, scanAfter, detectorAfter, samples]

theorem sample_scanAfter (config : Config) (bits : List Bool) (busyPolls : Nat) (bit : Bool) :
    (scanAfter config bits bits.length busyPolls).sample bit =
      scanAfter config (bits ++ [bit]) bits.length 0 := by
  simp only [sample, scanAfter, detectorAfter_append]

/-- A tuning whose range leaves room for one more step in the signed phases. -/
structure Roomy (config : Config) : Prop extends Usable config where
  room : config.range + config.step.toNat < 1 <<< 31

section Roomy

variable {config : Config} (h : Roomy config)
include h

theorem mul_step_lt {index : Nat} (hindex : index ≤ config.steps) :
    index * config.step.toNat < config.range + config.step.toNat := by
  have hmul := Nat.mul_le_mul_right config.step.toNat hindex
  have hsteps := Nat.div_mul_le_self (config.range + config.step.toNat - 1) config.step.toNat
  have hstep := h.step_pos
  rw [← Config.steps] at hsteps
  omega

theorem range_le_cursor_iff (bits : List Bool) {index : Nat} (hindex : index ≤ config.steps) :
    (scanAfter config bits index 0).range ≤ (scanAfter config bits index 0).cursor ↔
      config.steps ≤ index := by
  have hroom := h.room
  have hlt := lt_steps_iff h.toUsable index
  change Word.clampSigned 32 config.range ≤ (index * config.step.toNat : Nat) ↔ _
  rw [Word.clampSigned_of_mem (by omega) (by omega)]
  omega

theorem onPulse_of_lt {bits : List Bool} (hlt : bits.length < config.steps) (busyPolls : Nat)
    (bit : Bool) :
    (scanAfter config bits bits.length busyPolls).onPulse bit =
      (.ok .underway, scanAfter config (bits ++ [bit]) (bits.length + 1) 0,
        some (((bits.length + 1) * config.step.toNat : Nat) : Int)) := by
  have hroom := h.room
  have hnext := mul_step_lt h (Nat.succ_le_of_lt hlt)
  have hcursor : Word.clampSigned 32 ((scanAfter config (bits ++ [bit]) bits.length 0).cursor +
      (scanAfter config (bits ++ [bit]) bits.length 0).stride) =
        ((bits.length + 1) * config.step.toNat : Nat) := by
    have hstride : Word.clampSigned 32 config.step.toNat = config.step.toNat :=
      Word.clampSigned_of_mem (by omega) (by omega)
    rw [Nat.succ_mul] at hnext ⊢
    change Word.clampSigned 32 ((bits.length * config.step.toNat : Nat) +
      Word.clampSigned 32 config.step.toNat) = _
    rw [hstride, Word.clampSigned_of_mem (by omega) (by omega), Int.natCast_add]
  simp only [onPulse, sample_scanAfter, hcursor]
  rw [if_neg]
  · rfl
  · rw [range_le_cursor_iff h _ (Nat.le_of_lt hlt)]
    omega

theorem onPulse_of_eq {bits : List Bool} (heq : bits.length = config.steps) (busyPolls : Nat)
    (bit : Bool) :
    (scanAfter config bits bits.length busyPolls).onPulse bit =
      ((foldVerdict config (bits ++ [bit])).map .complete,
        scanAfter config (bits ++ [bit]) config.steps 0, none) := by
  simp only [onPulse, sample_scanAfter]
  rw [if_pos]
  · rw [heq]
    rfl
  · rw [range_le_cursor_iff h _ (Nat.le_of_eq heq)]
    omega

end Roomy

section Run

variable {σ : Type} [Shifter σ] [PulseSource σ]

/-- The shifter is never busy more often in a row than the tuning accepts, as long as the scan
goes on from here. -/
def SettlesFrom (config : Config) (scan : Scan) (logged : Logged σ) : Prop :=
  ∀ count, streak (runFor count scan logged).2.2.events ≤ config.busyLimit.toNat

/-- A scan that has taken the pulses `bits`, one at each phase so far, and is to take another. -/
structure OnTheWay (config : Config) (bits : List Bool) (scan : Scan) (logged : Logged σ) :
    Prop where
  length_le : bits.length ≤ config.steps
  scan_eq : scan = scanAfter config bits bits.length (streak logged.events)
  deeds_eq : deeds logged.events = conversation config bits ++
    [.command config.channel (bits.length * config.step.toNat : Nat)]
  settles : SettlesFrom config scan logged

theorem SettlesFrom.of_step {config : Config} {scan scan' : Scan}
    {logged logged' : Logged σ} (h : SettlesFrom config scan logged)
    (hstep : scan.step logged = (.ok .underway, scan', logged')) :
    SettlesFrom config scan' logged' := by
  intro count
  have hlater := h (count + 1)
  rwa [runFor_of_underway count hstep] at hlater

theorem OnTheWay.step_of_busy {config : Config} {bits : List Bool} {scan : Scan} {world : σ}
    {events : List Ask} (h : OnTheWay config bits scan ⟨world, events⟩) {world' : σ}
    (hpoll : Shifter.poll config.channel world = (true, world')) :
    streak events < config.busyLimit.toNat ∧ ∃ scan',
      scan.step (⟨world, events⟩ : Logged σ) =
        (.ok .underway, scan', ⟨world', events ++ [.settling true]⟩) ∧
      OnTheWay config bits scan' ⟨world', events ++ [.settling true]⟩ := by
  obtain ⟨hlength, rfl, hdeeds, hsettles⟩ := h
  have hanswer := poll_logged events hpoll
  have hlimit : streak events < config.busyLimit.toNat := by
    have hnext := hsettles 1
    rw [runFor_one, step_eq_onBusy hanswer, streak_append_busy] at hnext
    exact hnext
  have hstep : (scanAfter config bits bits.length (streak events)).step
      (⟨world, events⟩ : Logged σ) = (.ok .underway,
        scanAfter config bits bits.length (streak events + 1),
        ⟨world', events ++ [.settling true]⟩) :=
    ScanPulses.step_of_busy hanswer hlimit
  refine ⟨hlimit, _, hstep, hlength, ?_, ?_, hsettles.of_step hstep⟩
  · rw [streak_append_busy]
  · rw [deeds_append, hdeeds]
    exact List.append_nil _

theorem OnTheWay.step_of_idle {config : Config} (hroomy : Roomy config) {bits : List Bool}
    {scan : Scan} {world : σ} {events : List Ask}
    (h : OnTheWay config bits scan ⟨world, events⟩) (hlt : bits.length < config.steps)
    {idle pulsed : σ} {bit : Bool} (hpoll : Shifter.poll config.channel world = (false, idle))
    (hpulse : PulseSource.pulse idle = (bit, pulsed)) :
    ∃ scan' logged',
      scan.step (⟨world, events⟩ : Logged σ) = (.ok .underway, scan', logged') ∧
      streak logged'.events = 0 ∧ OnTheWay config (bits ++ [bit]) scan' logged' := by
  obtain ⟨hlength, rfl, hdeeds, hsettles⟩ := h
  have hstep : (scanAfter config bits bits.length (streak events)).step
      (⟨world, events⟩ : Logged σ) =
        (.ok .underway, scanAfter config (bits ++ [bit]) (bits.length + 1) 0,
          ⟨Shifter.command config.channel ((bits.length + 1) * config.step.toNat : Nat) pulsed,
            events ++ [.settling false] ++ [.pulse bit] ++
              [.command config.channel ((bits.length + 1) * config.step.toNat : Nat)]⟩) := by
    rw [step_logged_of_idle events hpoll hpulse, onPulse_of_lt hroomy hlt]
    rfl
  have hquiet : streak (events ++ [.settling false] ++ [.pulse bit] ++
      [.command config.channel ((bits.length + 1) * config.step.toNat : Nat)]) = 0 :=
    streak_append_idle _ rfl
  refine ⟨_, _, hstep, hquiet, ?_, ?_, ?_, hsettles.of_step hstep⟩
  · rw [List.length_append]
    exact hlt
  · rw [hquiet, List.length_append]
    rfl
  · change deeds events = _ at hdeeds
    rw [deeds_append, deeds_append, deeds_append, hdeeds, conversation_append, List.length_append]
    simp [deeds]

theorem OnTheWay.step_of_last {config : Config} (hroomy : Roomy config) {bits : List Bool}
    {scan : Scan} {world : σ} {events : List Ask}
    (h : OnTheWay config bits scan ⟨world, events⟩) (heq : bits.length = config.steps)
    {idle pulsed : σ} {bit : Bool} (hpoll : Shifter.poll config.channel world = (false, idle))
    (hpulse : PulseSource.pulse idle = (bit, pulsed)) :
    ∃ final, scan.step (⟨world, events⟩ : Logged σ) =
        ((foldVerdict config (bits ++ [bit])).map .complete,
          scanAfter config (bits ++ [bit]) config.steps 0, final) ∧
      deeds final.events = conversation config (bits ++ [bit]) := by
  obtain ⟨hlength, rfl, hdeeds, hsettles⟩ := h
  refine ⟨⟨pulsed, events ++ [.settling false] ++ [.pulse bit]⟩, ?_, ?_⟩
  · rw [step_logged_of_idle events hpoll hpulse, onPulse_of_eq hroomy heq]
  · change deeds events = _ at hdeeds
    rw [deeds_append, deeds_append, hdeeds, conversation_append]
    simp [deeds]

structure EndsWith (config : Config) (patience : Nat) (scan : Scan) (logged : Logged σ)
    (bits : List Bool) (final : Logged σ) : Prop where
  length_eq : bits.length = config.steps + 1
  deeds_eq : deeds final.events = conversation config bits
  run_eq : ∀ polls, patience ≤ polls → run polls scan logged =
    some (foldVerdict config bits, scanAfter config bits config.steps 0, final)

theorem EndsWith.of_step {config : Config} {patience : Nat} {scan scan' : Scan}
    {logged logged' final : Logged σ} {bits : List Bool}
    (h : EndsWith config patience scan' logged' bits final)
    (hstep : scan.step logged = (.ok .underway, scan', logged')) :
    EndsWith config (patience + 1) scan logged bits final where
  length_eq := h.length_eq
  deeds_eq := h.deeds_eq
  run_eq polls hpolls := by
    obtain ⟨polls, rfl⟩ := Nat.exists_eq_add_of_le' (Nat.le_trans (Nat.le_add_left 1 _) hpolls)
    rw [run_of_underway polls hstep]
    exact h.run_eq polls (Nat.le_of_succ_le_succ hpolls)

theorem OnTheWay.exists_endsWith {config : Config} (hroomy : Roomy config) (patience : Nat)
    {bits : List Bool} {scan : Scan} {logged : Logged σ}
    (h : OnTheWay config bits scan logged)
    (hpatience : (config.steps - bits.length) * (config.busyLimit.toNat + 1) +
      (config.busyLimit.toNat - streak logged.events) < patience) :
    ∃ bits final, EndsWith config patience scan logged bits final := by
  induction patience generalizing bits scan logged with
  | zero => exact absurd hpatience (Nat.not_lt_zero _)
  | succ patience ih =>
      rcases logged with ⟨world, events⟩
      rcases hpoll : Shifter.poll config.channel world with ⟨_ | _, polled⟩
      · rcases hpulse : PulseSource.pulse polled with ⟨bit, pulsed⟩
        rcases Nat.lt_or_eq_of_le h.length_le with hlt | heq
        · obtain ⟨scan', logged', hstep, hquiet, hnext⟩ := h.step_of_idle hroomy hlt hpoll hpulse
          -- A pulse ends the streak, so the next one may wait for the whole limit again.
          obtain ⟨left, hleft⟩ : ∃ left, config.steps - bits.length = left + 1 :=
            ⟨config.steps - bits.length - 1, by omega⟩
          have hnextLeft : config.steps - (bits ++ [bit]).length = left := by
            rw [List.length_append, List.length_singleton]
            omega
          rw [hleft, Nat.succ_mul] at hpatience
          obtain ⟨all, final, hends⟩ := ih hnext (by rw [hquiet, hnextLeft]; omega)
          exact ⟨all, final, hends.of_step hstep⟩
        · obtain ⟨final, hstep, hdeeds⟩ := h.step_of_last hroomy heq hpoll hpulse
          refine ⟨bits ++ [bit], final, ?_, hdeeds, ?_⟩
          · rw [List.length_append, heq]
            rfl
          · intro polls hpolls
            obtain ⟨polls, rfl⟩ :=
              Nat.exists_eq_add_of_le' (Nat.le_trans (Nat.le_add_left 1 _) hpolls)
            exact run_of_last polls hstep
      · obtain ⟨hlimit, scan', hstep, hnext⟩ := h.step_of_busy hpoll
        obtain ⟨all, final, hends⟩ := ih hnext (by
          rw [streak_append_busy]
          change _ + (_ - streak events) < _ at hpatience
          omega)
        exact ⟨all, final, hends.of_step hstep⟩

end Run

def Settles {σ : Type} [Shifter σ] [PulseSource σ] (config : Config) (world : σ) : Prop :=
  SettlesFrom config (create config) (begun config world)

/-- What a scan in a world comes to: it takes one pulse at each multiple of the step up to the end
of its range, and its answer and its last state are those of the detectors that see these bits. -/
structure Concludes {σ : Type} [Shifter σ] [PulseSource σ] (config : Config) (world : σ)
    (bits : List Bool) : Prop where
  length_eq : bits.length = config.steps + 1
  start_eq : start config world = .ok (create config, Shifter.command config.channel 0 world)
  run_eq : ∃ events final, ∀ patience, config.patience ≤ patience →
    run patience (create config) (Shifter.command config.channel 0 world) =
      some (foldVerdict config bits, scanAfter config bits config.steps 0, final) ∧
    run patience (create config) (begun config world) =
      some (foldVerdict config bits, scanAfter config bits config.steps 0, ⟨final, events⟩) ∧
    deeds events = conversation config bits

theorem exists_concludes {σ : Type} [Shifter σ] [PulseSource σ] {config : Config} (world : σ)
    (hvalid : config.validate = .ok ()) (hroomy : Roomy config) (hsettles : Settles config world) :
    ∃ bits, Concludes config world bits := by
  have hway : OnTheWay config [] (create config) (begun config world) :=
    { length_le := Nat.zero_le _
      scan_eq := create_eq_scanAfter config
      deeds_eq := by
        change [Ask.command config.channel 0] = _
        simp [conversation]
      settles := hsettles }
  have hpatience : config.steps * (config.busyLimit.toNat + 1) + config.busyLimit.toNat <
      config.patience := by
    rw [Nat.mul_comm]
    exact Nat.add_lt_add_left (Nat.lt_succ_self _) _
  obtain ⟨bits, ⟨final, events⟩, hlength, hdeeds, hrun⟩ :=
    hway.exists_endsWith hroomy config.patience hpatience
  refine ⟨bits, hlength, ?_, events, final, ?_⟩
  · rw [start, hvalid]
  · intro patience hpatience
    refine ⟨?_, hrun patience hpatience, hdeeds⟩
    have hplain := run_logged patience (create config) (begun config world)
    rw [hrun patience hpatience] at hplain
    exact hplain

theorem step_of_busy_answer {σ : Type} [Shifter σ] [PulseSource σ] (scan : Scan) (world : σ)
    (hbusy : (Shifter.poll scan.config.channel world).1 = true) :
    (scan.step world).2 = ({ scan with busyPolls := (scan.step world).2.1.busyPolls },
      (Shifter.poll scan.config.channel world).2) := by
  rw [step_eq_onBusy (Prod.ext hbusy rfl)]
  rfl

/-- The flip bits alone decide a scan. In any world whose shifter settles in time it ends, within as
many polls as the tuning has patience for, and its pulses, its commands and its verdict are those of
two detectors that see the bits at the multiples of the step. Two worlds that give the same bits
lead to the same verdict, cursor and detectors, since a busy answer is only counted. -/
theorem flips_decide_scan {σ τ : Type} [Shifter σ] [PulseSource σ] [Shifter τ] [PulseSource τ]
    {config : Config} (world : σ) (other : τ) (hvalid : config.validate = .ok ())
    (hroom : config.range + config.step.toNat < 1 <<< 31) (hworld : Settles config world)
    (hother : Settles config other) :
    ∃ bits otherBits, Concludes config world bits ∧ Concludes config other otherBits ∧
      (bits = otherBits → ∀ patience, config.patience ≤ patience →
        (run patience (create config) (Shifter.command config.channel 0 world)).map
            (fun ended => (ended.1, ended.2.1)) =
          (run patience (create config) (Shifter.command config.channel 0 other)).map
            (fun ended => (ended.1, ended.2.1))) ∧
      ∀ (scan : Scan) (now : σ), (Shifter.poll scan.config.channel now).1 = true →
        (scan.step now).2 = ({ scan with busyPolls := (scan.step now).2.1.busyPolls },
          (Shifter.poll scan.config.channel now).2) := by
  have hroomy : Roomy config := ⟨(validate_eq_ok_iff config).mp hvalid, hroom⟩
  obtain ⟨bits, hconcludes⟩ := exists_concludes world hvalid hroomy hworld
  obtain ⟨otherBits, hotherConcludes⟩ := exists_concludes other hvalid hroomy hother
  refine ⟨bits, otherBits, hconcludes, hotherConcludes, ?_, step_of_busy_answer⟩
  rintro rfl patience hpatience
  obtain ⟨_, _, hrun⟩ := hconcludes.run_eq
  obtain ⟨_, _, hotherRun⟩ := hotherConcludes.run_eq
  rw [(hrun patience hpatience).1, (hotherRun patience hpatience).1]
  rfl

theorem settles_of_ended {σ : Type} [Shifter σ] [PulseSource σ] {config : Config} {world : σ}
    (count : Nat) (hended : ((runFor count (create config)
      (begun config world)).1 matches .ok .underway) = false)
    (hshort : ∀ early, early ≤ count →
      streak (runFor early (create config) (begun config world)).2.2.events ≤
        config.busyLimit.toNat) : Settles config world := by
  intro more
  rcases Nat.le_total more count with hle | hle
  · exact hshort more hle
  · have hanswer : (runFor count (create config) (begun config world)).1 ≠
        .ok .underway := by
      intro hunderway
      rw [hunderway] at hended
      cases hended
    rw [runFor_of_ended hle hanswer]
    exact hshort count (Nat.le_refl count)

def brisk : Config :=
  { period := 4, step := 2, threshold := 1, busyLimit := 2 }

def scripted (settling : UInt32) : Bench.Rig :=
  ⟨.create settling, ⟨.script #[true, false, false, true, true, false], 0⟩⟩

theorem flips_decide_scan_at_limit :
    ∃ bits otherBits, Concludes brisk (scripted 2) bits ∧
      Concludes brisk (scripted 0) otherBits := by
  have hslow : Settles brisk (scripted 2) := settles_of_ended 18 rfl (by decide)
  have hprompt : Settles brisk (scripted 0) := settles_of_ended 6 rfl (by decide)
  obtain ⟨bits, otherBits, hbits, hotherBits, -⟩ :=
    flips_decide_scan (scripted 2) (scripted 0) rfl (by decide) hslow hprompt
  exact ⟨bits, otherBits, hbits, hotherBits⟩

end TimingNode.Proofs.FlipVerdict
