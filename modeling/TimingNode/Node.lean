import TimingNode.Store
import TimingNode.Timestamp.Reception

namespace TimingNode

structure Node (δ : Type) where
  devices : δ
  store : Store
  reception : Reception
  /-- Every transition phase pushed to the reception path, oldest first. -/
  pushed : Array TransitionPhase

namespace Node

variable {δ : Type}

def uncalibrated (devices : δ) (store : Store) (period : Nat) : Node δ :=
  { devices, store, reception := .uncalibrated period, pushed := #[] }

def onDevices {α : Type} (action : δ → α × δ) (node : Node δ) : α × Node δ :=
  let (answer, devices) := action node.devices
  (answer, { node with devices })

instance [Shifter δ] : Shifter (Node δ) where
  command channel phase node :=
    { node with devices := Shifter.command channel phase node.devices }
  poll channel := onDevices (Shifter.poll channel)

instance [PulseSource δ] : PulseSource (Node δ) where
  pulse := onDevices PulseSource.pulse

instance [Link δ] : Link (Node δ) where
  poll := onDevices Link.poll

instance [Pll δ] : Pll (Node δ) where
  start node := { node with devices := Pll.start node.devices }
  poll := onDevices Pll.poll

instance [Delay δ] : Delay (Node δ) where
  wait milliseconds node := { node with devices := Delay.wait milliseconds node.devices }

instance [Console δ] : Console (Node δ) where
  write text := onDevices (Console.write text)

instance : TransitionStore (Node δ) where
  read node :=
    let (result, store) := TransitionStore.read node.store
    (result, { node with store })
  write phase node :=
    let (result, store) := TransitionStore.write phase node.store
    (result, { node with store })

instance : CorrectionSink (Node δ) where
  push phase node :=
    { node with
      reception := node.reception.apply phase
      pushed := node.pushed.push phase }

end Node

end TimingNode
