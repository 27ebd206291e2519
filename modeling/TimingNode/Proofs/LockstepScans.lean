import TimingNode.Proofs.ScanPulses

namespace TimingNode.Proofs.LockstepScans

open TimingNode.Scan
open TimingNode.Proofs.ScanPulses
open TimingNode.Proofs.ScanTuning

def answer? {σ : Type} [Shifter σ] [PulseSource σ] (config : Config) (patience : Nat) (world : σ) :
    Option (Except Failure TransitionPhase) :=
  match start config world with
  | .error _ => none
  | .ok (scan, started) => (run patience scan started).map Prod.fst

variable {σ τ : Type} [Shifter σ] [PulseSource σ] [Shifter τ] [PulseSource τ]

/-- A relation between worlds that stand at the same pulse of a scan: it outlasts a poll, which both
shifters answer alike, and it outlasts a pulse and the command after it, where the two pulses have
the bits of two sequences. -/
structure Lockstep (config : Config) (flip flip' : Nat → Bool) (abreast : Nat → σ → τ → Prop) :
    Prop where
  poll : ∀ {pulse : Nat} {world : σ} {other : τ}, abreast pulse world other →
    ∃ busy polled polled', Shifter.poll config.channel world = (busy, polled) ∧
      Shifter.poll config.channel other = (busy, polled') ∧ abreast pulse polled polled'
  pulse : ∀ {pulse : Nat} {world : σ} {other : τ}, pulse ≤ config.steps →
    abreast pulse world other →
    ∃ pulsed pulsed', PulseSource.pulse world = (flip pulse, pulsed) ∧
      PulseSource.pulse other = (flip' pulse, pulsed') ∧
      abreast (pulse + 1)
        (Shifter.command config.channel (cursorAt config (pulse + 1)) pulsed)
        (Shifter.command config.channel (cursorAt config (pulse + 1)) pulsed')

theorem onBusy_answer_congr {scan other : Scan} (hconfig : scan.config = other.config)
    (hpolls : scan.busyPolls = other.busyPolls) :
    scan.onBusy.1 = other.onBusy.1 ∧ scan.onBusy.2.busyPolls = other.onBusy.2.busyPolls := by
  rw [onBusy, onBusy, hconfig, hpolls]
  exact ⟨rfl, rfl⟩

theorem Lockstep.run_eq {config : Config} {flip flip' : Nat → Bool}
    {abreast : Nat → σ → τ → Prop} (h : Lockstep config flip flip' abreast)
    (husable : Usable config)
    (hverdict : verdictAfter config flip (config.steps + 1) =
      verdictAfter config flip' (config.steps + 1))
    (patience : Nat) {pulse : Nat} {scan other : Scan} {world : σ} {world' : τ}
    (hscan : Sampled config flip pulse scan) (hother : Sampled config flip' pulse other)
    (hpolls : scan.busyPolls = other.busyPolls) (hpulse : pulse ≤ config.steps)
    (habreast : abreast pulse world world') :
    (run patience scan world).map Prod.fst = (run patience other world').map Prod.fst := by
  induction patience generalizing pulse scan other world world' with
  | zero => rfl
  | succ patience ih =>
      obtain ⟨busy, polled, polled', hpoll, hpoll', hpolled⟩ := h.poll habreast
      cases busy with
      | true =>
          have hstep := step_eq_onBusy (by rw [hscan.config_eq]; exact hpoll)
          have hstep' := step_eq_onBusy (by rw [hother.config_eq]; exact hpoll')
          obtain ⟨hanswer, hcounted⟩ :=
            onBusy_answer_congr (hscan.config_eq.trans hother.config_eq.symm) hpolls
          rw [← hanswer] at hstep'
          rcases onBusy_answer scan with hunderway | htimeout
          · rw [hunderway] at hstep hstep'
            rw [run_of_underway patience hstep, run_of_underway patience hstep']
            exact ih hscan.onBusy hother.onBusy hcounted hpulse hpolled
          · rw [run, run, hstep, hstep', htimeout]
            rfl
      | false =>
          obtain ⟨pulsed, pulsed', hflip, hflip', hnext⟩ := h.pulse hpulse hpolled
          rcases Nat.lt_or_eq_of_le hpulse with hlt | rfl
          · obtain ⟨moved, hstep, hmoved, hzero⟩ :=
              step_of_pulse hscan husable hlt hpoll hflip
            obtain ⟨moved', hstep', hmoved', hzero'⟩ :=
              step_of_pulse hother husable hlt hpoll' hflip'
            rw [run_of_underway patience hstep, run_of_underway patience hstep']
            exact ih hmoved hmoved' (hzero.trans hzero'.symm) hlt hnext
          · have hstep := step_of_last_pulse hscan husable (Nat.le_refl _) hpoll hflip
            have hstep' := step_of_last_pulse hother husable (Nat.le_refl _) hpoll' hflip'
            rw [run_of_last patience hstep, run_of_last patience hstep', hverdict]
            rfl

theorem Lockstep.answer?_eq {config : Config} {flip flip' : Nat → Bool}
    {abreast : Nat → σ → τ → Prop} (h : Lockstep config flip flip' abreast)
    (hvalid : config.validate = .ok ())
    (hverdict : verdictAfter config flip (config.steps + 1) =
      verdictAfter config flip' (config.steps + 1)) {world : σ} {other : τ}
    (hbegun : abreast 0 (Shifter.command config.channel 0 world)
      (Shifter.command config.channel 0 other)) (patience : Nat) :
    answer? config patience world = answer? config patience other := by
  rw [answer?, answer?, start, start, hvalid]
  exact h.run_eq ((validate_eq_ok_iff config).mp hvalid) hverdict patience
    (sampled_create config flip) (sampled_create config flip') rfl (Nat.zero_le _) hbegun

end TimingNode.Proofs.LockstepScans
