import TimingNode.Proofs.CircularPhase

namespace TimingNode.Proofs.ArrivalRecovery

open TimingNode.Phase
open TimingNode.Reception
open TimingNode.Proofs.CircularPhase

def coarse (raw : RawTimestamp) : Int :=
  raw.nanoseconds * Timestamp.picosecondsPerNanosecond

/-- What is latched for a frame that arrives `time` picoseconds after the latched seconds. The
rising counter changes at whole periods and the falling one, which the coarse time less the cycle
by which the rising one is ahead stands for, half a period later. Either is sure only at a distance
of more than `margin` from its own change. -/
structure Latched (transition period margin : Nat) (time : Int) (raw : RawTimestamp) : Prop where
  measuredPhase_eq : raw.measuredPhase = fold (time - transition - 1) period
  rising : margin < distance time 0 period → coarse raw = period * (time / period)
  falling : margin < distance time (period / 2 : Nat) period →
    coarse raw - (if raw.counterAhead then (period : Int) else 0) =
      period * ((time - (period / 2 : Nat)) / period)

theorem sub_fold_eq_emod (x : Int) {period : Nat} (hperiod : 0 < period) :
    (period : Int) - 1 - fold x period = (-1 - x) % period := by
  rw [cast_fold x hperiod]
  obtain ⟨rest, cycles, hx, hlow, hhigh⟩ :=
    exists_add_mul x (by omega : (0 : Int) < period)
  rw [emod_of_add_mul cycles hx hlow hhigh]
  symm
  refine emod_of_add_mul (-cycles - 1) ?_ (by omega) (by omega)
  rw [Int.mul_sub, Int.mul_neg]
  omega

/-- The cycle correction in terms of the time since the latest transition, which is what the phase
falls short of the transition by. -/
theorem cycleCorrection_eq {transition period : Nat} {phase since cycles : Int} (ahead : Bool)
    (hquarter : 0 < period / 4) (htransition : transition < period)
    (hlow : 0 ≤ phase) (hhigh : phase < period)
    (hphase : transition - since + period * cycles = phase)
    (hsinceLow : 0 ≤ since) (hsinceHigh : since < period) :
    cycleCorrection ahead transition period phase =
      (if since ≤ (period / 4 : Nat) then 1 else 0) -
        (if since ≤ (period / 4 : Nat) ∨ period - (period / 4 : Nat) ≤ since then
          (if ahead then 1 else 0) else 0) := by
  have hoffset : (phase - (transition - (period / 4 : Nat))) % period =
      if since ≤ (period / 4 : Nat) then ((period / 4 : Nat) : Int) - since
      else (period / 4 : Nat) - since + period := by
    rw [show phase - (transition - (period / 4 : Nat)) =
      (period / 4 : Nat) + period * cycles - since by omega]
    exact emod_sub_of_add_mul cycles rfl (by omega) (by omega) hsinceLow hsinceHigh
  have houter : insideWindow (((transition : Int) - (period / 4 : Nat)) % period)
      (((transition : Int) + (period / 4 : Nat)) % period) phase = true ↔
      since ≤ (period / 4 : Nat) ∨ period - (period / 4 : Nat) ≤ since := by
    have hwindow := insideWindow_iff ((transition : Int) - (period / 4 : Nat))
      (2 * (period / 4 : Nat)) (by omega) (by omega) hlow hhigh
    rw [show (transition : Int) - (period / 4 : Nat) + 2 * (period / 4 : Nat) =
      transition + (period / 4 : Nat) by omega, hoffset] at hwindow
    rw [hwindow]
    split <;> omega
  have hinner : insideWindow (((transition : Int) - (period / 4 : Nat)) % period)
      transition phase = true ↔ since ≤ (period / 4 : Nat) := by
    have hwindow := insideWindow_iff
      ((transition : Int) - (period / 4 : Nat)) (period / 4 : Nat) (by omega) (by omega) hlow hhigh
    rw [show (transition : Int) - (period / 4 : Nat) + (period / 4 : Nat) = transition by omega,
      Int.emod_eq_of_lt (by omega : (0 : Int) ≤ transition) (by omega), hoffset] at hwindow
    rw [hwindow]
    split <;> omega
  simp only [cycleCorrection, houter, hinner]
  split <;> split <;> omega

theorem coarse_add_correction {transition period margin : Nat} {time error phase since cycles : Int}
    {stored : Nat} {raw : RawTimestamp} (hperiod : 1000 ∣ period) (hpos : 0 < period)
    (hmargin : margin + error.natAbs < period / 4)
    (hlatched : Latched transition period margin time raw)
    (hstored : stored < period) (hlow : 0 ≤ phase) (hhigh : phase < period)
    (hphase : ∃ turns, stored - since + period * turns = phase)
    (hsince : since + period * cycles = time - error)
    (hsinceLow : 0 ≤ since) (hsinceHigh : since < period) :
    coarse raw + period * cycleCorrection raw.counterAhead stored period phase =
      period * cycles := by
  obtain ⟨turns, hturns⟩ := hphase
  rw [cycleCorrection_eq raw.counterAhead (by omega) hstored hlow hhigh hturns
    hsinceLow hsinceHigh]
  by_cases hafter : since ≤ (period / 4 : Nat)
  · have hrest : since + error + (period / 2 : Nat) + period * (cycles - 1) =
        time - (period / 2 : Nat) := by
      rw [Int.mul_sub]
      omega
    have hfalling := hlatched.falling
      (lt_distance (cycles - 1) hrest (by omega) (by omega))
    rw [ediv_of_add_mul (cycles - 1) hrest (by omega) (by omega), Int.mul_sub] at hfalling
    rw [if_pos hafter, if_pos (Or.inl hafter)]
    cases hahead : raw.counterAhead <;>
      simp only [hahead, Bool.false_eq_true, if_true, if_false] at hfalling ⊢ <;> omega
  · by_cases hbefore : period - (period / 4 : Nat) ≤ since
    · have hrest : since + error - (period / 2 : Nat) + period * cycles =
          time - (period / 2 : Nat) := by
        omega
      have hfalling := hlatched.falling (lt_distance cycles hrest (by omega) (by omega))
      rw [ediv_of_add_mul cycles hrest (by omega) (by omega)] at hfalling
      rw [if_neg hafter, if_pos (Or.inr hbefore)]
      cases hahead : raw.counterAhead <;>
        simp only [hahead, Bool.false_eq_true, if_true, if_false] at hfalling ⊢ <;> omega
    · have hrest : since + error + period * cycles = time := by omega
      have hrising := hlatched.rising
        (lt_distance cycles (by omega : since + error + period * cycles = time - 0)
          (by omega) (by omega))
      rw [ediv_of_add_mul cycles hrest (by omega) (by omega)] at hrising
      rw [if_neg hafter, if_neg (by omega)]
      omega

theorem arrival_total {stored period : Nat} {since turns : Int} {raw : RawTimestamp}
    (hperiod : 1000 ∣ period)
    (hphase : stored - since + period * turns = period - 1 - raw.measuredPhase)
    (hsinceLow : 0 ≤ since) (hsinceHigh : since < period) :
    arrival raw stored period = Timestamp.ofPicoseconds
      (raw.seconds * Timestamp.picosecondsPerSecond +
        (coarse raw + period * cycleCorrection raw.counterAhead stored period
          (period - 1 - raw.measuredPhase)) + since) := by
  have hfine : ((period : Int) - 1 - raw.measuredPhase - stored - 1) % period =
      period - 1 - since := by
    refine emod_of_add_mul (turns - 1) ?_ (by omega) (by omega)
    rw [Int.mul_sub]
    omega
  have hcycle : ((period / 1000 : Nat) : Int) * (1000 : Nat) = period := by omega
  rw [arrival, Timestamp.ofParts, hfine]
  congr 1
  rw [coarse, Timestamp.picosecondsPerNanosecond, Int.add_mul, Int.mul_assoc, hcycle, Int.mul_comm
    (cycleCorrection _ _ _ _)]
  omega

/-- The corrected arrival is the true one less the error of the stored transition phase. -/
theorem arrival_recovers_time {transition period margin : Nat} {time error : Int}
    {raw : RawTimestamp} (hperiod : 1000 ∣ period) (hpos : 0 < period)
    (hmargin : margin + error.natAbs < period / 4)
    (hlatched : Latched transition period margin time raw)
    (hlow : -(1 <<< 63 : Nat) ≤ (raw.seconds * Timestamp.picosecondsPerSecond + time - error) /
      Timestamp.picosecondsPerSecond)
    (hhigh : (raw.seconds * Timestamp.picosecondsPerSecond + time - error) /
      Timestamp.picosecondsPerSecond < (1 <<< 63 : Nat)) :
    (arrival? raw (fold (transition - error) period) period).map Timestamp.toPicoseconds =
      .ok (raw.seconds * Timestamp.picosecondsPerSecond + time - error) := by
  have hperiodPos : (0 : Int) < period := by omega
  obtain ⟨since, cycles, hsince, hsinceLow, hsinceHigh⟩ :=
    exists_add_mul (time - error) hperiodPos
  obtain ⟨stored, wraps, hstored, hstoredLow, hstoredHigh⟩ :=
    exists_add_mul (transition - error : Int) hperiodPos
  have hmeasured : (period : Int) - 1 - raw.measuredPhase = (transition - time) % period := by
    rw [hlatched.measuredPhase_eq, sub_fold_eq_emod _ hpos]
    congr 1
    omega
  obtain ⟨phase, turns, hphase, hphaseLow, hphaseHigh⟩ :=
    exists_add_mul (transition - time : Int) hperiodPos
  rw [emod_of_add_mul turns hphase hphaseLow hphaseHigh] at hmeasured
  have hfold := fold_of_add_mul wraps hstored hstoredLow hstoredHigh
  have hreturn : (fold (transition - error) period : Int) - since +
      period * (wraps - turns - cycles) = phase := by
    rw [Int.mul_sub, Int.mul_sub]
    omega
  have hcoarse := coarse_add_correction hperiod hpos hmargin hlatched
    (fold_lt (transition - error) hpos) hphaseLow hphaseHigh ⟨_, hreturn⟩ hsince
    hsinceLow hsinceHigh
  have htotal := arrival_total hperiod (hmeasured ▸ hreturn) hsinceLow hsinceHigh
  rw [hmeasured, hcoarse] at htotal
  rw [arrival?, if_neg (by omega), htotal]
  simp only [Except.map]
  rw [show raw.seconds * Timestamp.picosecondsPerSecond + period * cycles + since =
    raw.seconds * Timestamp.picosecondsPerSecond + time - error by omega]
  rw [Timestamp.toPicoseconds_ofPicoseconds hlow hhigh]

/-- Ten picoseconds before a whole period, with the rising counter already at the next one. -/
theorem arrival_recovers_time_before_rollover :
    Latched 500 8000 100 15990 ⟨7, 16, 7489, true⟩ ∧
      (arrival? ⟨7, 16, 7489, true⟩ (fold (500 - -37) 8000) 8000).map
        Timestamp.toPicoseconds = .ok 7000000016027 := by
  have hlatched : Latched 500 8000 100 15990 ⟨7, 16, 7489, true⟩ :=
    ⟨by decide, by decide, by decide⟩
  exact ⟨hlatched, arrival_recovers_time (by decide) (by decide) (by decide) hlatched
    (by decide) (by decide)⟩

end TimingNode.Proofs.ArrivalRecovery
