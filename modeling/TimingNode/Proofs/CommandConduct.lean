import TimingNode.Proofs.CommandLog
import TimingNode.Proofs.StoredCalibration

namespace TimingNode.Proofs.CommandConduct

open TimingNode.Shell
open TimingNode.Proofs.CommandLog
open TimingNode.Proofs.RecordedWorld
open TimingNode.Proofs.RecordedWorld.Ask
open TimingNode.Proofs.StoredCalibration

section Waits

/-- The asks of a wait: polls in vain, each followed by a delay, and the last poll. -/
def waiting (interval : UInt32) (poll : Bool → Ask) : (vain : Nat) → (ready : Bool) → List Ask
  | 0, ready => [poll ready]
  | vain + 1, ready => poll false :: .wait interval :: waiting interval poll vain ready

/-- How a wait with a bound went: the polls that were followed by a delay, and the answer to the
last poll. -/
structure Wait (polls : Nat) where
  vain : Nat
  ready : Bool
  vain_le : vain ≤ polls
  vain_eq : ready = false → vain = polls

def Wait.asks {polls : Nat} (interval : UInt32) (poll : Bool → Ask) (before timeout : String)
    (wait : Wait polls) : List Ask :=
  [.say (before ++ "\n")] ++ waiting interval poll wait.vain wait.ready ++
    if wait.ready then [] else [.say (timeout ++ "\n")]

/-- The waits before the measurement: for the link, and for the lock of the PLL once it is
started. -/
structure Preparation (limits : Limits) where
  link : Wait limits.linkPolls.toNat
  lock : Wait limits.lockPolls.toNat

def Preparation.linkAsks {limits : Limits} (preparation : Preparation limits) : List Ask :=
  preparation.link.asks limits.pollInterval .link "Waiting for link..." "link timeout"

def Preparation.lockAsks {limits : Limits} (preparation : Preparation limits) : List Ask :=
  preparation.lock.asks limits.pollInterval .lock "Locking PLL..." "lock timeout"

def Preparation.asks {limits : Limits} (preparation : Preparation limits) : List Ask :=
  preparation.linkAsks ++ [.start] ++ preparation.lockAsks ++
    [.say ("Calibrating RX timestamper..." ++ "\n")]

def measuredLine (phase : TransitionPhase) : String :=
  s!"t24p value is {phase.picoseconds} ps, storing to EEPROM" ++ "\n"

/-- How a run can end that has come to scan: its result, or none if the scan is endless, and the
asks after the scan. -/
inductive Completion : Option (Except Shell.Error TransitionPhase) → List Ask → Prop where
  | rejected (cause : Scan.ConfigError) :
      Completion (some (.error (.calibration (.invalidConfig cause)))) []
  | failed (failure : Scan.Failure) :
      Completion (some (.error (.calibration (.scan failure)))) []
  | measured (phase : TransitionPhase) (answer : Except Store.Error Unit) :
      Completion
        (some ((answer.mapError fun _ => .calibration .storeUnavailable).map fun _ => phase))
        [.push phase, .say (measuredLine phase), .write phase answer]
  | endless : Completion none []

/-- How a run can end once it is prepared: its result and the asks from the last poll of the link
on. -/
inductive Ending : Option (Except Shell.Error TransitionPhase) → List Ask → Prop where
  | linkDown : Ending (some (.error (.calibration .linkDown))) [.link false]
  | pllUnlocked : Ending (some (.error (.calibration .pllUnlocked))) [.link true, .lock false]
  | cleared {result : Option (Except Shell.Error TransitionPhase)} {scan completion : List Ask}
      (hscan : ∀ ask ∈ scan, ask.measures) (h : Completion result completion) :
      Ending result ([.link true, .lock true] ++ scan ++ completion)

/-- How a run for the given arguments comes to measure, with the asks before it prepares. -/
inductive Opening : List String → List Ask → Prop where
  | unstored {answer : Except Store.Error (Option TransitionPhase)}
      (hanswer : ∀ phase, answer ≠ .ok (some phase)) :
      Opening [] [.read answer, .say ("Measuring t2/t4 phase transition..." ++ "\n")]
  | forced {word : String} (hword : isKeyword "force" word) : Opening [word] []

def Unknown : List String → Prop
  | [] => False
  | [word] => ¬isKeyword "force" word
  | _ => True

/-- How a run can go: its arguments, its result and all that it asks. -/
inductive Conversation (limits : Limits) :
    List String → Option (Except Shell.Error TransitionPhase) → List Ask → Prop where
  | stored (phase : TransitionPhase) :
      Conversation limits [] (some (.ok phase))
        [.read (.ok (some phase)), .push phase, .say (foundLine phase)]
  | unknown {arguments : List String} (h : Unknown arguments) :
      Conversation limits arguments (some (.error .invalidArgument)) []
  | measured {arguments : List String} {opening ending : List Ask}
      {result : Option (Except Shell.Error TransitionPhase)} (hopening : Opening arguments opening)
      (preparation : Preparation limits) (hending : Ending result ending) :
      Conversation limits arguments result (opening ++ preparation.asks ++ ending)

end Waits

section Conduct

/-- What holds of each ask and of those before it. -/
def Throughout (policy : List Ask → Ask → Prop) : (earlier asks : List Ask) → Prop
  | _, [] => True
  | earlier, ask :: asks => policy earlier ask ∧ Throughout policy (earlier ++ [ask]) asks

/-- When an ask may be made, given the asks before it. A delay follows at once on a poll in vain, of
the link before the PLL is started and of its lock after that. The PLL is started when the link was
found up or was polled as often as it may be, and only a good link and a good lock let a scan
begin and go on. -/
def Timely (limits : Limits) (earlier : List Ask) : Ask → Prop
  | .wait milliseconds =>
      milliseconds = limits.pollInterval ∧
        (starts earlier = [] ∧ earlier.getLast? = some (.link false) ∨
          starts earlier ≠ [] ∧ earlier.getLast? = some (.lock false))
  | .start =>
      starts earlier = [] ∧ ((links earlier).getLast? = some true ∨
        (links earlier).length = limits.linkPolls.toNat + 1)
  | .lock _ => starts earlier ≠ []
  | .command .. | .settling _ | .pulse _ =>
      (links earlier).getLast? = some true ∧ (locks earlier).getLast? = some true
  | _ => True

def Refused (result : Option (Except Shell.Error TransitionPhase)) : Prop :=
  result = some (.error (.calibration .linkDown)) ∨
    result = some (.error (.calibration .pllUnlocked))

/-- What a run may do, given its result, or none if its scan is endless, and its asks. -/
structure Conduct (limits : Limits) (result : Option (Except Shell.Error TransitionPhase))
    (asks : List Ask) : Prop where
  waits_length : (waits asks).length ≤ limits.linkPolls.toNat + limits.lockPolls.toNat
  links_length : (links asks).length ≤ limits.linkPolls.toNat + 2
  locks_length : (locks asks).length ≤ limits.lockPolls.toNat + 2
  starts_length : (starts asks).length ≤ 1
  timely : ∀ earlier ask later, asks = earlier ++ ask :: later → Timely limits earlier ask
  /-- The last looks at the link and at the lock in the run are those before its scan. -/
  measured : (∃ ask ∈ asks, ask.measures) →
    (links asks).getLast? = some true ∧ (locks asks).getLast? = some true
  linkDown_iff : result = some (.error (.calibration .linkDown)) ↔
    (links asks).getLast? = some false
  pllUnlocked_iff : result = some (.error (.calibration .pllUnlocked)) ↔
    (links asks).getLast? = some true ∧ (locks asks).getLast? = some false
  refused : Refused result → writes asks = [] ∧ pushes asks = []

section Views

variable {β : Type} {view : Ask → Option β}

theorem filterMap_waiting (interval : UInt32) (poll : Bool → Ask) (vain : Nat) (ready : Bool) :
    (waiting interval poll vain ready).filterMap view =
      (List.replicate vain ([poll false, .wait interval].filterMap view)).flatten ++
        [poll ready].filterMap view := by
  induction vain with
  | zero => rfl
  | succ vain ih =>
      rw [List.replicate_succ, List.flatten_cons, List.append_assoc, ← ih, ← List.filterMap_append]
      rfl

theorem filterMap_wait (hsay : ∀ text, view (.say text) = none) {polls : Nat} (interval : UInt32)
    (poll : Bool → Ask) (before timeout : String) (wait : Wait polls) :
    (wait.asks interval poll before timeout).filterMap view =
      (List.replicate wait.vain ([poll false, .wait interval].filterMap view)).flatten ++
        [poll wait.ready].filterMap view := by
  have htimeout : (if wait.ready then [] else [.say (timeout ++ "\n")] : List Ask).filterMap view =
      [] := by
    split
    · rfl
    · exact List.filterMap_cons_none (hsay _)
  rw [Wait.asks, List.filterMap_append, List.filterMap_append, htimeout, filterMap_waiting,
    List.filterMap_cons_none (hsay _), List.append_nil]
  rfl

theorem filterMap_asks (hsay : ∀ text, view (.say text) = none) {limits : Limits}
    (preparation : Preparation limits) :
    preparation.asks.filterMap view =
      (List.replicate preparation.link.vain
        ([.link false, .wait limits.pollInterval].filterMap view)).flatten ++
      [.link preparation.link.ready].filterMap view ++ [.start].filterMap view ++
      (List.replicate preparation.lock.vain
        ([.lock false, .wait limits.pollInterval].filterMap view)).flatten ++
      [.lock preparation.lock.ready].filterMap view := by
  simp only [Preparation.asks, Preparation.linkAsks, Preparation.lockAsks, List.filterMap_append,
    filterMap_wait hsay, List.filterMap_cons_none (hsay _), List.filterMap_nil, List.append_nil,
    List.append_assoc]

variable {limits : Limits} (preparation : Preparation limits)

theorem links_asks : links preparation.asks =
    List.replicate preparation.link.vain false ++ [preparation.link.ready] :=
  (filterMap_asks (fun _ => rfl) preparation).trans (by simp)

theorem locks_asks : locks preparation.asks =
    List.replicate preparation.lock.vain false ++ [preparation.lock.ready] :=
  (filterMap_asks (fun _ => rfl) preparation).trans (by simp)

theorem waits_asks : waits preparation.asks =
    List.replicate (preparation.link.vain + preparation.lock.vain) limits.pollInterval :=
  (filterMap_asks (fun _ => rfl) preparation).trans (by simp)

theorem starts_asks : starts preparation.asks = [()] :=
  (filterMap_asks (fun _ => rfl) preparation).trans (by simp)

theorem writes_asks : writes preparation.asks = [] :=
  (filterMap_asks (fun _ => rfl) preparation).trans (by simp)

theorem pushes_asks : pushes preparation.asks = [] :=
  (filterMap_asks (fun _ => rfl) preparation).trans (by simp)

end Views

variable {policy : List Ask → Ask → Prop} {earlier : List Ask}

theorem throughout_append {asks later : List Ask} :
    Throughout policy earlier (asks ++ later) ↔
      Throughout policy earlier asks ∧ Throughout policy (earlier ++ asks) later := by
  induction asks generalizing earlier with
  | nil => simp [Throughout]
  | cons ask asks ih => simp [Throughout, ih, and_assoc]

theorem Throughout.holds {asks later : List Ask} {ask : Ask}
    (h : Throughout policy [] (asks ++ ask :: later)) : policy asks ask :=
  (throughout_append.mp h).2.1

section Started

variable {begun : List Unit} {interval : UInt32} {poll : Bool → Ask}
  (hquiet : ∀ answer, starts [poll answer] = [])
  (hpoll : ∀ earlier answer, starts earlier = begun → policy earlier (poll answer))
  (hwait : ∀ earlier, starts earlier = begun → earlier.getLast? = some (poll false) →
    policy earlier (.wait interval))
include hquiet hpoll hwait

theorem throughout_waiting (hstarts : starts earlier = begun) (vain : Nat) (ready : Bool) :
    Throughout policy earlier (waiting interval poll vain ready) := by
  induction vain generalizing earlier with
  | zero => exact ⟨hpoll earlier ready hstarts, trivial⟩
  | succ vain ih =>
      have hpolled : starts (earlier ++ [poll false]) = begun := by
        rw [starts_append, hquiet, List.append_nil, hstarts]
      refine ⟨hpoll earlier false hstarts, hwait _ hpolled List.getLast?_concat, ih ?_⟩
      rw [starts_append, hpolled]
      exact List.append_nil _

theorem throughout_wait (hsay : ∀ earlier text, policy earlier (.say text))
    (hstarts : starts earlier = begun) {polls : Nat} (before timeout : String)
    (wait : Wait polls) : Throughout policy earlier (wait.asks interval poll before timeout) := by
  rw [Wait.asks, throughout_append, throughout_append]
  refine ⟨⟨⟨hsay _ _, trivial⟩, throughout_waiting hquiet hpoll hwait ?_ _ _⟩, ?_⟩
  · rw [starts_append, hstarts]
    exact List.append_nil _
  · split
    · trivial
    · exact ⟨hsay _ _, trivial⟩

end Started

variable {limits : Limits}

theorem timely_asks (hlinks : links earlier = []) (hstarts : starts earlier = [])
    (preparation : Preparation limits) :
    Throughout (Timely limits) earlier preparation.asks := by
  have hunstarted : starts (earlier ++ preparation.linkAsks) = [] := by
    rw [starts_append, hstarts, List.nil_append]
    exact (filterMap_wait (fun _ => rfl) ..).trans (by simp)
  have hpolled : links (earlier ++ preparation.linkAsks) =
      List.replicate preparation.link.vain false ++ [preparation.link.ready] := by
    rw [links_append, hlinks, List.nil_append]
    exact (filterMap_wait (fun _ => rfl) ..).trans (by simp)
  have hstarted : starts (earlier ++ preparation.linkAsks ++ [.start]) = [()] := by
    rw [starts_append, hunstarted]
    rfl
  simp only [Preparation.asks, throughout_append]
  refine ⟨⟨⟨?_, ⟨hunstarted, ?_⟩, trivial⟩, ?_⟩, trivial, trivial⟩
  · exact throughout_wait (fun _ => rfl) (fun _ _ _ => trivial)
      (fun _ hstarts hlast => ⟨rfl, Or.inl ⟨hstarts, hlast⟩⟩) (fun _ _ => trivial) hstarts _ _ _
  · rw [hpolled, List.getLast?_concat]
    rcases hready : preparation.link.ready with _ | _
    · exact Or.inr (by simp [preparation.link.vain_eq hready])
    · exact Or.inl rfl
  · have hlock (earlier : List Ask) (answer : Bool) (h : starts earlier = [()]) :
        Timely limits earlier (.lock answer) := by simp [Timely, h]
    have hwait (earlier : List Ask) (h : starts earlier = [()])
        (hlast : earlier.getLast? = some (.lock false)) :
        Timely limits earlier (.wait limits.pollInterval) :=
      ⟨rfl, Or.inr ⟨by simp [h], hlast⟩⟩
    rw [← List.append_assoc]
    exact throughout_wait (fun _ => rfl) hlock hwait (fun _ _ => trivial) hstarted _ _ _

theorem filterMap_of_measures {β : Type} {view : Ask → Option β} {asks : List Ask}
    (hview : ∀ ask : Ask, ask.measures → view ask = none) (h : ∀ ask ∈ asks, ask.measures) :
    asks.filterMap view = [] :=
  List.filterMap_eq_nil_iff.mpr fun ask hask => hview ask (h ask hask)

theorem pushes_of_measures {asks : List Ask} (h : ∀ ask ∈ asks, ask.measures) :
    pushes asks = [] :=
  filterMap_of_measures (by rintro ⟨⟩ <;> simp [measures]) h

structure Quiet (asks : List Ask) : Prop where
  links_eq : links asks = []
  locks_eq : locks asks = []
  waits_eq : waits asks = []
  starts_eq : starts asks = []

theorem Quiet.append {asks later : List Ask} (h : Quiet asks) (hlater : Quiet later) :
    Quiet (asks ++ later) where
  links_eq := by rw [links_append, h.links_eq, hlater.links_eq, List.append_nil]
  locks_eq := by rw [locks_append, h.locks_eq, hlater.locks_eq, List.append_nil]
  waits_eq := by rw [waits_append, h.waits_eq, hlater.waits_eq, List.append_nil]
  starts_eq := by rw [starts_append, h.starts_eq, hlater.starts_eq, List.append_nil]

theorem quiet_of_measures {asks : List Ask} (h : ∀ ask ∈ asks, ask.measures) : Quiet asks where
  links_eq := filterMap_of_measures (by rintro ⟨⟩ <;> simp [measures]) h
  locks_eq := filterMap_of_measures (by rintro ⟨⟩ <;> simp [measures]) h
  waits_eq := filterMap_of_measures (by rintro ⟨⟩ <;> simp [measures]) h
  starts_eq := filterMap_of_measures (by rintro ⟨⟩ <;> simp [measures]) h

theorem timely_scan {scan : List Ask} (hscan : ∀ ask ∈ scan, ask.measures)
    (hlinks : (links earlier).getLast? = some true)
    (hlocks : (locks earlier).getLast? = some true) :
    Throughout (Timely limits) earlier scan := by
  induction scan generalizing earlier with
  | nil => trivial
  | cons ask scan ih =>
      obtain ⟨hask, hscan⟩ := List.forall_mem_cons.mp hscan
      have hquiet : Quiet [ask] := quiet_of_measures (List.forall_mem_singleton.mpr hask)
      refine ⟨?_, ih hscan ?_ ?_⟩
      · cases ask <;> first | exact ⟨hlinks, hlocks⟩ | cases hask
      · rw [links_append, hquiet.links_eq, List.append_nil, hlinks]
      · rw [locks_append, hquiet.locks_eq, List.append_nil, hlocks]

variable {result : Option (Except Shell.Error TransitionPhase)} {completion ending : List Ask}

theorem Completion.not_refused (h : Completion result completion) : ¬Refused result := by
  rintro (hresult | hresult)
  all_goals
    cases h with
    | rejected | failed | endless => cases hresult
    | measured phase answer => rcases answer with _ | _ <;> cases hresult

theorem Completion.quiet (h : Completion result completion) : Quiet completion := by
  cases h <;> exact ⟨rfl, rfl, rfl, rfl⟩

theorem Completion.timely (h : Completion result completion) :
    Throughout (Timely limits) earlier completion := by
  cases h with
  | rejected | failed | endless => trivial
  | measured => exact ⟨trivial, trivial, trivial, trivial⟩

theorem Ending.timely (h : Ending result ending) (hstarts : starts earlier ≠ []) :
    Throughout (Timely limits) earlier ending := by
  have hchecked (locked : Bool) :
      Throughout (Timely limits) earlier [.link true, .lock locked] := by
    refine ⟨trivial, ?_, trivial⟩
    rw [Timely, starts_append]
    exact List.append_ne_nil_of_left_ne_nil hstarts _
  cases h with
  | linkDown => exact ⟨trivial, trivial⟩
  | pllUnlocked => exact hchecked false
  | cleared hscan h =>
      refine throughout_append.mpr ⟨throughout_append.mpr ⟨hchecked true, ?_⟩, h.timely⟩
      refine timely_scan hscan ?_ ?_
      · rw [links_append]
        exact List.getLast?_concat
      · rw [locks_append]
        exact List.getLast?_concat

/-- The answers from the last poll of the link on tell the refusals from all other endings. -/
theorem Ending.polls (h : Ending result ending) :
    (result = some (.error (.calibration .linkDown)) ∧ links ending = [false] ∧
        locks ending = []) ∨
      (result = some (.error (.calibration .pllUnlocked)) ∧ links ending = [true] ∧
        locks ending = [false]) ∨
      (¬Refused result ∧ links ending = [true] ∧ locks ending = [true]) := by
  cases h with
  | linkDown => exact Or.inl ⟨rfl, rfl, rfl⟩
  | pllUnlocked => exact Or.inr (Or.inl ⟨rfl, rfl, rfl⟩)
  | cleared hscan h =>
      have hquiet := (quiet_of_measures hscan).append h.quiet
      rw [List.append_assoc, links_append, locks_append, hquiet.links_eq, hquiet.locks_eq]
      exact Or.inr (Or.inr ⟨h.not_refused, rfl, rfl⟩)

theorem Ending.waits_starts (h : Ending result ending) :
    waits ending = [] ∧ starts ending = [] := by
  cases h with
  | linkDown | pllUnlocked => exact ⟨rfl, rfl⟩
  | cleared hscan h =>
      have hquiet := (quiet_of_measures hscan).append h.quiet
      rw [List.append_assoc, waits_append, starts_append, hquiet.waits_eq, hquiet.starts_eq]
      exact ⟨rfl, rfl⟩

theorem Ending.not_refused (h : Ending result ending)
    (hmeasures : ∃ ask ∈ ending, ask.measures) : ¬Refused result := by
  cases h with
  | linkDown | pllUnlocked => simp [measures] at hmeasures
  | cleared _ h => exact h.not_refused

theorem Ending.polls_of_measures (h : Ending result ending)
    (hmeasures : ∃ ask ∈ ending, ask.measures) :
    links ending = [true] ∧ locks ending = [true] := by
  rcases h.polls with ⟨hresult, -⟩ | ⟨hresult, -⟩ | ⟨-, hpolls⟩
  · exact absurd (Or.inl hresult) (h.not_refused hmeasures)
  · exact absurd (Or.inr hresult) (h.not_refused hmeasures)
  · exact hpolls

theorem Ending.refused (h : Ending result ending) (hrefused : Refused result) :
    writes ending = [] ∧ pushes ending = [] := by
  cases h with
  | linkDown | pllUnlocked => exact ⟨rfl, rfl⟩
  | cleared _ h => exact absurd hrefused h.not_refused

theorem Opening.quiet {arguments : List String} {opening : List Ask}
    (h : Opening arguments opening) : Quiet opening := by
  cases h <;> exact ⟨rfl, rfl, rfl, rfl⟩

theorem Opening.frame {arguments : List String} {opening : List Ask}
    (h : Opening arguments opening) :
    writes opening = [] ∧ pushes opening = [] ∧ ∀ ask ∈ opening, ¬ask.measures := by
  cases h <;> simp [writes, pushes, measures]

theorem Opening.timely {arguments : List String} {opening : List Ask}
    (h : Opening arguments opening) : Throughout (Timely limits) [] opening := by
  cases h with
  | unstored => exact ⟨trivial, trivial, trivial⟩
  | forced => trivial

theorem not_measures_of_mem_asks {preparation : Preparation limits} {ask : Ask}
    (h : ask ∈ preparation.asks) : ¬ask.measures := by
  have hnone : preparation.asks.filterMap (fun ask => if ask.measures then some ask else none) =
      [] := (filterMap_asks (fun _ => rfl) preparation).trans (by simp [measures])
  simpa using List.filterMap_eq_nil_iff.mp hnone ask h

section Measured

variable {arguments : List String} {opening : List Ask} (hopening : Opening arguments opening)
  (preparation : Preparation limits) (hending : Ending result ending)
include hopening

theorem mem_ending_of_measures {ask : Ask} (hask : ask ∈ opening ++ preparation.asks ++ ending)
    (hmeasures : ask.measures) : ask ∈ ending := by
  obtain ⟨-, -, hopened⟩ := hopening.frame
  rcases List.mem_append.mp hask with hask | hask
  · rcases List.mem_append.mp hask with hask | hask
    · exact absurd hmeasures (hopened ask hask)
    · exact absurd hmeasures (not_measures_of_mem_asks hask)
  · exact hask

include hending

theorem timely_of_measured :
    Throughout (Timely limits) [] (opening ++ preparation.asks ++ ending) := by
  have hquiet := hopening.quiet
  refine throughout_append.mpr ⟨throughout_append.mpr ⟨hopening.timely, ?_⟩, ?_⟩
  · exact timely_asks hquiet.links_eq hquiet.starts_eq preparation
  · refine hending.timely ?_
    rw [List.nil_append, starts_append, starts_asks]
    exact List.append_ne_nil_of_right_ne_nil _ nofun

theorem conduct_of_measured : Conduct limits result (opening ++ preparation.asks ++ ending) := by
  obtain ⟨hlinks, hlocks, hwaits, hstarts⟩ := hopening.quiet
  obtain ⟨hwrites, hpushes, -⟩ := hopening.frame
  obtain ⟨hwaits', hstarts'⟩ := hending.waits_starts
  have hlinks' : links (opening ++ preparation.asks ++ ending) =
      List.replicate preparation.link.vain false ++ [preparation.link.ready] ++ links ending := by
    rw [links_append, links_append, hlinks, links_asks, List.nil_append]
  have hlocks' : locks (opening ++ preparation.asks ++ ending) =
      List.replicate preparation.lock.vain false ++ [preparation.lock.ready] ++ locks ending := by
    rw [locks_append, locks_append, hlocks, locks_asks, List.nil_append]
  have hlink := preparation.link.vain_le
  have hlock := preparation.lock.vain_le
  have hpolls := hending.polls
  constructor
  case waits_length =>
    rw [waits_append, waits_append, hwaits, waits_asks, hwaits']
    simp
    omega
  case links_length =>
    rw [hlinks']
    rcases hpolls with ⟨-, h, -⟩ | ⟨-, h, -⟩ | ⟨-, h, -⟩ <;> simp [h] <;> omega
  case locks_length =>
    rw [hlocks']
    rcases hpolls with ⟨-, -, h⟩ | ⟨-, -, h⟩ | ⟨-, -, h⟩ <;> simp [h] <;> omega
  case starts_length =>
    rw [starts_append, starts_append, hstarts, starts_asks, hstarts']
    simp
  case timely =>
    rintro earlier ask later hasks
    have htimely := timely_of_measured hopening preparation hending
    rw [hasks] at htimely
    exact htimely.holds
  case measured =>
    rintro ⟨ask, hask, hmeasures⟩
    have hmem := mem_ending_of_measures hopening preparation hask hmeasures
    obtain ⟨h, h'⟩ := hending.polls_of_measures ⟨ask, hmem, hmeasures⟩
    rw [hlinks', hlocks', h, h']
    exact ⟨List.getLast?_concat, List.getLast?_concat⟩
  case linkDown_iff =>
    rw [hlinks']
    rcases hpolls with ⟨h, hl, -⟩ | ⟨h, hl, -⟩ | ⟨h, hl, -⟩
    · simp [h, hl]
    · simp [h, hl]
    · simp [not_or.mp h, hl]
  case pllUnlocked_iff =>
    rw [hlinks', hlocks']
    rcases hpolls with ⟨h, hl, -⟩ | ⟨h, hl, hl'⟩ | ⟨h, hl, hl'⟩
    · simp [h, hl]
    · simp [h, hl, hl']
    · simp [not_or.mp h, hl, hl']
  case refused =>
    intro hrefused
    obtain ⟨hwrites', hpushes'⟩ := hending.refused hrefused
    rw [writes_append, writes_append, hwrites, writes_asks, hwrites', pushes_append, pushes_append,
      hpushes, pushes_asks, hpushes']
    exact ⟨rfl, rfl⟩

end Measured

theorem conduct_of_quiet {asks : List Ask} (hquiet : Quiet asks)
    (hmeasures : ∀ ask ∈ asks, ¬ask.measures) (hrefused : ¬Refused result)
    (htimely : Throughout (Timely limits) [] asks) : Conduct limits result asks where
  waits_length := by simp [hquiet.waits_eq]
  links_length := by simp [hquiet.links_eq]
  locks_length := by simp [hquiet.locks_eq]
  starts_length := by simp [hquiet.starts_eq]
  timely earlier ask later hasks := by
    rw [hasks] at htimely
    exact htimely.holds
  measured := fun ⟨ask, hask, hmeasuring⟩ => absurd hmeasuring (hmeasures ask hask)
  linkDown_iff := by simp [hquiet.links_eq, not_or.mp hrefused]
  pllUnlocked_iff := by simp [hquiet.links_eq, not_or.mp hrefused]
  refused h := absurd h hrefused

theorem Conversation.conduct {arguments : List String} {asks : List Ask}
    (h : Conversation limits arguments result asks) : Conduct limits result asks := by
  cases h with
  | stored phase =>
      exact conduct_of_quiet ⟨rfl, rfl, rfl, rfl⟩ (by simp [measures]) (by simp [Refused])
        ⟨trivial, trivial, trivial, trivial⟩
  | unknown h =>
      exact conduct_of_quiet ⟨rfl, rfl, rfl, rfl⟩ (by simp) (by simp [Refused]) trivial
  | measured hopening preparation hending =>
      exact conduct_of_measured hopening preparation hending

end Conduct

end TimingNode.Proofs.CommandConduct
