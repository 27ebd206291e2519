import TimingNode.Proofs.CarriedPrograms

namespace TimingNode.Proofs.RecordedWorld

open TimingNode.Proofs.CarriedPrograms
open TimingNode.Proofs.CarriedScan

/-- What is asked of a device, with its answer. -/
inductive Ask where
  | link (up : Bool)
  | start
  | lock (locked : Bool)
  | wait (milliseconds : UInt32)
  | command (channel : UInt8) (phase : Int)
  | settling (busy : Bool)
  | pulse (flip : Bool)
  | read (answer : Except Store.Error (Option TransitionPhase))
  | write (phase : TransitionPhase) (answer : Except Store.Error Unit)
  | push (phase : TransitionPhase)
  | say (text : String)

namespace Ask

/-- The asks of a scan, which are for the shifter and the pulse source. -/
def measures : Ask → Bool
  | command .. | settling _ | pulse _ => true
  | _ => false

/-- The asks that move a phase to or from the store, or to the reception path. -/
def moves : Ask → Bool
  | read _ | write .. | push _ => true
  | _ => false

def links (asks : List Ask) : List Bool :=
  asks.filterMap fun
    | link up => some up
    | _ => none

def starts (asks : List Ask) : List Unit :=
  asks.filterMap fun
    | start => some ()
    | _ => none

def locks (asks : List Ask) : List Bool :=
  asks.filterMap fun
    | lock locked => some locked
    | _ => none

def waits (asks : List Ask) : List UInt32 :=
  asks.filterMap fun
    | wait milliseconds => some milliseconds
    | _ => none

def reads (asks : List Ask) : List (Except Store.Error (Option TransitionPhase)) :=
  asks.filterMap fun
    | read answer => some answer
    | _ => none

/-- The phases that were to be written, also where the store refused. -/
def writes (asks : List Ask) : List TransitionPhase :=
  asks.filterMap fun
    | write phase _ => some phase
    | _ => none

def pushes (asks : List Ask) : List TransitionPhase :=
  asks.filterMap fun
    | push phase => some phase
    | _ => none

theorem links_append (asks later : List Ask) : links (asks ++ later) = links asks ++ links later :=
  List.filterMap_append

theorem starts_append (asks later : List Ask) :
    starts (asks ++ later) = starts asks ++ starts later :=
  List.filterMap_append

theorem locks_append (asks later : List Ask) : locks (asks ++ later) = locks asks ++ locks later :=
  List.filterMap_append

theorem waits_append (asks later : List Ask) : waits (asks ++ later) = waits asks ++ waits later :=
  List.filterMap_append

theorem writes_append (asks later : List Ask) :
    writes (asks ++ later) = writes asks ++ writes later :=
  List.filterMap_append

theorem pushes_append (asks later : List Ask) :
    pushes (asks ++ later) = pushes asks ++ pushes later :=
  List.filterMap_append

variable {σ β : Type} [Link σ] [Pll σ] [Delay σ] [Console σ] [Shifter σ] [PulseSource σ]
  [TransitionStore σ] [CorrectionSink σ]

/-- An ask leaves a view of the world as it is, whatever the world and whatever the answer. -/
def Spares (view : σ → β) : Ask → Prop
  | link _ => ∀ world, view (Link.poll world).2 = view world
  | start => ∀ world, view (Pll.start world) = view world
  | lock _ => ∀ world, view (Pll.poll world).2 = view world
  | wait milliseconds => ∀ world, view (Delay.wait milliseconds world) = view world
  | command channel phase => ∀ world, view (Shifter.command channel phase world) = view world
  | settling _ => ∀ channel world, view (Shifter.poll channel world).2 = view world
  | pulse _ => ∀ world, view (PulseSource.pulse world).2 = view world
  | read _ => ∀ world, view (TransitionStore.read world).2 = view world
  | write phase _ => ∀ world, view (TransitionStore.write phase world).2 = view world
  | push phase => ∀ world, view (CorrectionSink.push phase world) = view world
  | say text => ∀ world, view (Console.write text world).2 = view world

/-- A view of the world that only writing to the store and pushing a phase change. -/
def Kept (view : σ → β) : Prop :=
  ∀ ask : Ask, writes [ask] = [] → pushes [ask] = [] → ask.Spares view

end Ask

/-- A world and what is noted of the asks made in it, oldest first. A note is taken of an ask with
its answer and of the world in which it is made. -/
structure Recorded {σ ε : Type} (note : Ask → σ → Option ε) where
  world : σ
  events : List ε

abbrev Logged (σ : Type) :=
  Recorded fun (ask : Ask) (_ : σ) => some ask

namespace Recorded

variable {σ ε α : Type} {note : Ask → σ → Option ε}

def noting (recorded : Recorded note) (ask : Ask) (world : σ) : Recorded note where
  world
  events :=
    match note ask recorded.world with
    | none => recorded.events
    | some event => recorded.events ++ [event]

def onWorld (ask : α → Ask) (action : σ → α × σ) (recorded : Recorded note) : α × Recorded note :=
  let (answer, world) := action recorded.world
  (answer, recorded.noting (ask answer) world)

instance [Link σ] : Link (Recorded note) where
  poll := onWorld .link Link.poll

instance [Pll σ] : Pll (Recorded note) where
  start recorded := recorded.noting .start (Pll.start recorded.world)
  poll := onWorld .lock Pll.poll

instance [Delay σ] : Delay (Recorded note) where
  wait milliseconds recorded :=
    recorded.noting (.wait milliseconds) (Delay.wait milliseconds recorded.world)

instance [Console σ] : Console (Recorded note) where
  write text := onWorld (fun _ => .say text) (Console.write text)

instance [Shifter σ] : Shifter (Recorded note) where
  command channel phase recorded :=
    recorded.noting (.command channel phase) (Shifter.command channel phase recorded.world)
  poll channel := onWorld .settling (Shifter.poll channel)

instance [PulseSource σ] : PulseSource (Recorded note) where
  pulse := onWorld .pulse PulseSource.pulse

instance [TransitionStore σ] : TransitionStore (Recorded note) where
  read := onWorld .read TransitionStore.read
  write phase := onWorld (.write phase) (TransitionStore.write phase)

instance [CorrectionSink σ] : CorrectionSink (Recorded note) where
  push phase recorded := recorded.noting (.push phase) (CorrectionSink.push phase recorded.world)

theorem onWorld_of_eq (ask : α → Ask) {action : σ → α × σ} {recorded : Recorded note} {answer : α}
    {world : σ} (h : action recorded.world = (answer, world)) :
    onWorld ask action recorded = (answer, recorded.noting (ask answer) world) := by
  rw [onWorld, h]

theorem carries [Shifter σ] [PulseSource σ] : Carries (world : Recorded note → σ) where
  command _ _ _ := rfl
  poll _ _ := rfl
  pulse _ := rfl

theorem carriesDevices [Link σ] [Pll σ] [Shifter σ] [PulseSource σ] [TransitionStore σ]
    [CorrectionSink σ] : CarriesDevices (world : Recorded note → σ) where
  toCarries := carries
  link _ := rfl
  lock _ := rfl
  read _ := rfl
  write _ _ := rfl
  push _ _ := rfl

end Recorded

end TimingNode.Proofs.RecordedWorld
