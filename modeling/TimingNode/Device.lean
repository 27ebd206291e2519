import TimingNode.Phase.Transition
import TimingNode.Store.Error

/-!
What a node asks of the devices around it. Each class says what one kind of device does to the
state `σ` of the world, so several devices may share that state and act on one another.
-/

namespace TimingNode

class Shifter (σ : Type) where
  /-- Commands a channel to an absolute phase in picoseconds. -/
  command : UInt8 → Int → σ → σ
  /-- Asks whether the latest command of a channel is still settling. -/
  poll : UInt8 → σ → Bool × σ

class PulseSource (σ : Type) where
  /-- Latches a calibration pulse and answers its flip bit: whether the rising counter was ahead. -/
  pulse : σ → Bool × σ

class TransitionStore (σ : Type) where
  read : σ → Except Store.Error (Option TransitionPhase) × σ
  write : TransitionPhase → σ → Except Store.Error Unit × σ

class CorrectionSink (σ : Type) where
  push : TransitionPhase → σ → σ

class Link (σ : Type) where
  poll : σ → Bool × σ

class Pll (σ : Type) where
  start : σ → σ
  poll : σ → Bool × σ

class Delay (σ : Type) where
  wait : UInt32 → σ → σ

class Console (σ : Type) where
  /-- Writes a text and answers whether all of it was accepted. -/
  write : String → σ → Bool × σ

end TimingNode
