import TimingNode.Proofs.RecordedWorld

namespace TimingNode.Proofs.RecordedScan

open TimingNode.Scan
open TimingNode.Proofs.RecordedWorld

variable {σ : Type}

def begun [Shifter σ] (config : Config) (world : σ) : Logged σ :=
  Shifter.command config.channel 0 ⟨world, []⟩

/-- The busy polls at the end of a record. -/
def streak (events : List Ask) : Nat :=
  (events.reverse.takeWhile (· matches .settling true)).length

def deeds (events : List Ask) : List Ask :=
  events.filter fun ask => !(ask matches .settling _)

theorem streak_append_busy (events : List Ask) :
    streak (events ++ [.settling true]) = streak events + 1 := by
  simp [streak]

theorem streak_append_idle (events : List Ask) {ask : Ask}
    (hidle : (ask matches .settling true) = false) : streak (events ++ [ask]) = 0 := by
  rw [streak, List.reverse_append, List.reverse_singleton, List.singleton_append,
    List.takeWhile_cons, hidle]
  rfl

theorem deeds_append (first second : List Ask) :
    deeds (first ++ second) = deeds first ++ deeds second :=
  List.filter_append first second

theorem poll_logged [Shifter σ] {channel : UInt8} {world world' : σ} {busy : Bool}
    (events : List Ask) (hpoll : Shifter.poll channel world = (busy, world')) :
    Shifter.poll channel (⟨world, events⟩ : Logged σ) =
      (busy, ⟨world', events ++ [.settling busy]⟩) :=
  Recorded.onWorld_of_eq _ hpoll

variable [Shifter σ] [PulseSource σ]

theorem step_logged_of_idle {scan : Scan} {world idle pulsed : σ} {bit : Bool}
    (events : List Ask) (hpoll : Shifter.poll scan.config.channel world = (false, idle))
    (hpulse : PulseSource.pulse idle = (bit, pulsed)) :
    scan.step (⟨world, events⟩ : Logged σ) =
      match scan.onPulse bit with
      | (answer, next, none) =>
          (answer, next, ⟨pulsed, events ++ [.settling false] ++ [.pulse bit]⟩)
      | (answer, next, some phase) =>
          (answer, next, ⟨Shifter.command next.config.channel phase pulsed,
            events ++ [.settling false] ++ [.pulse bit] ++
              [.command next.config.channel phase]⟩) := by
  have hlogged : PulseSource.pulse (⟨idle, events ++ [.settling false]⟩ : Logged σ) =
      (bit, ⟨pulsed, events ++ [.settling false] ++ [.pulse bit]⟩) :=
    Recorded.onWorld_of_eq _ hpulse
  rw [step, poll_logged events hpoll]
  simp only [hlogged]
  rcases scan.onPulse bit with ⟨answer, next, _ | phase⟩ <;> rfl

theorem run_logged (patience : Nat) (scan : Scan) (logged : Logged σ) :
    run patience scan logged.world =
      (run patience scan logged).map fun ended => (ended.1, ended.2.1, ended.2.2.world) :=
  Recorded.carries.run patience scan logged

/-- The first `count` steps of a scan, or fewer if it ends before. -/
def runFor : (count : Nat) → Scan → σ → Except Failure Progress × Scan × σ
  | 0, scan, world => (.ok .underway, scan, world)
  | count + 1, scan, world =>
      match scan.step world with
      | (.ok .underway, scan, world) => runFor count scan world
      | ended => ended

theorem runFor_of_underway {scan scan' : Scan} {world world' : σ} (count : Nat)
    (hstep : scan.step world = (.ok .underway, scan', world')) :
    runFor (count + 1) scan world = runFor count scan' world' := by
  rw [runFor, hstep]

theorem runFor_one (scan : Scan) (world : σ) : runFor 1 scan world = scan.step world := by
  rw [runFor]
  split
  · rename_i hstep
    exact hstep.symm
  · rfl

theorem runFor_of_ended {count more : Nat} {scan : Scan} {world : σ} (hle : count ≤ more)
    (hended : (runFor count scan world).1 ≠ .ok .underway) :
    runFor more scan world = runFor count scan world := by
  induction count generalizing more scan world with
  | zero => exact absurd rfl hended
  | succ count ih =>
      obtain ⟨more, rfl⟩ := Nat.exists_eq_add_of_le' (Nat.le_trans (Nat.le_add_left 1 count) hle)
      rw [runFor] at hended
      rw [runFor, runFor]
      generalize scan.step world = stepped at hended ⊢
      rcases stepped with ⟨failure | ⟨_ | transition⟩, next, world'⟩
      · rfl
      · exact ih (Nat.le_of_succ_le_succ hle) hended
      · rfl

end TimingNode.Proofs.RecordedScan
