import SerialModbus.Thread

/-! The driver as a whole: poll threads, each with its line and the devices on it, and the
service that they share. What the manager is asked to store is traced back to the devices. -/
namespace SerialModbus.System
open Text (number)
open Delivery
open Global (DriverTypes)
open Exchange (kept)
open MbusMasterFunctions (bitInt)
open MBusAsciiMaster (Event step Told Healthy Settable allAddresses messagesOf Report)
open Polling (COIL_NUMBER REGISTER_NUMBER)

/- A thread that has come to its loop. -/
structure PollThread where
  around : Surroundings
  agent : Int
  created : MBusAsciiMaster Line
  first : MBusAsciiMaster Line
  known : created.mbus.agentID = some agent
  fresh : created.enqueued = []
  entered : MBusAsciiMaster.enter around created = some (true, first)

def PollThread.number (p : PollThread) : Nat := p.created.thread

def caller : Action → Option Nat
  | .setStatus thread _ _ _ _ _ _ => some thread
  | .setDpValue thread _ _ => some thread
  | _ => none

def ofThread (n : Nat) (actions : List Action) : List Action := actions.filter (fun a => caller a = some n)

/- What the service has been sent by each thread is what the thread has enqueued in its run,
up to some point of it. -/
structure Woven (threads : List PollThread) (events : Nat → List Event) (actions : List Action) : Prop where
  each : ∀ p ∈ threads, ∃ now, Runs.run (step p.around) p.first (events p.number) = some now ∧
    ofThread p.number actions <+: now.enqueued
  only : ∀ a ∈ actions, ∀ n, caller a = some n → ∃ p ∈ threads, p.number = n

theorem enteredQuiet (p : PollThread) : p.first.mbus = p.created.mbus ∧ sentMessages p.first.enqueued = [] := by
  obtain ⟨around, agent, created, first, known, fresh, entered⟩ := p
  obtain ⟨valid, _, entered⟩ := Option.bind_eq_some_iff.mp entered
  split at entered
  · cases entered
    refine ⟨rfl, ?_⟩
    show sentMessages (created.enqueued ++ _) = []
    rw [fresh]
    rfl
  · cases entered

theorem firstKnown (p : PollThread) : p.first.mbus.agentID = some p.agent := by
  rw [(enteredQuiet p).1, p.known]

/- A message was sent by one of the threads. -/
theorem sentCaller {actions : List Action} {msg : Message} (mem : msg ∈ sentMessages actions) :
    ∃ a ∈ actions, ∃ n, caller a = some n ∧ msg ∈ sentMessages (ofThread n actions) := by
  obtain ⟨a, here, same⟩ := List.mem_filterMap.mp mem
  cases a with
  | setStatus thread agent addr reference type value invalid =>
    refine ⟨_, here, thread, rfl, List.mem_filterMap.mpr ⟨_, List.mem_filter.mpr ⟨here, ?_⟩, same⟩⟩
    exact decide_eq_true rfl
  | setDpValue thread dpId value => cases same
  | lock => cases same
  | storeNext => cases same
  | messagesDone => cases same
  | setNext => cases same
  | unlock => cases same
  | configure op => cases same

theorem sentPrefix {xs ys : List Action} (before : xs <+: ys) {msg : Message} (mem : msg ∈ sentMessages xs) :
    msg ∈ sentMessages ys := by
  obtain ⟨rest, rfl⟩ := before
  rw [sentMessagesAppend]
  exact List.mem_append_left _ mem

theorem sentOfThread {n : Nat} {actions : List Action} {msg : Message} (mem : msg ∈ sentMessages (ofThread n actions)) :
    msg ∈ sentMessages actions := by
  obtain ⟨a, here, same⟩ := List.mem_filterMap.mp mem
  exact List.mem_filterMap.mpr ⟨a, (List.mem_filter.mp here).1, same⟩

/- The next workProc stores all that has been sent. -/
theorem workProcStores {pvss : Pvss} {mapper : HWMapper} {actions : List Action} {s : Service} {q : Process}
    (ok : Runs.run (act pvss) (start mapper) actions = some s) (outside : s.position = .outside)
    (worked : HWService.workProc pvss s.process = some q) : stores q.calls = (sentMessages actions).map arguments := by
  have here : s = ⟨s.process, .outside⟩ := by rw [← outside]
  have ran : Runs.run (act pvss) (start mapper) (actions ++ turns s.process) = some ⟨q, .outside⟩ := by
    rw [Runs.runAppend, ok, Option.bind_some, here, workProcTurns, worked]
    rfl
  obtain ⟨work, shape, quiet, _⟩ := turnsSilent s.process
  rw [shape, ← List.append_assoc] at ran
  obtain ⟨stored, _⟩ := unlocked ran
  rw [stored, sentMessagesAppend, quiet, List.append_nil]

theorem postsAll (pvss : Pvss) {actions : List Action} (calls : ∀ a ∈ actions, (caller a).isSome) (q : Process) :
    ∃ s, Runs.run (act pvss) ⟨q, .outside⟩ actions = some s ∧ s.position = .outside ∧
      s.process.mapper = q.mapper := by
  induction actions generalizing q with
  | nil => exact ⟨_, rfl, rfl, rfl⟩
  | cons a rest ih =>
    have first := calls a (List.mem_cons_self ..)
    have later := fun a mem => calls a (List.mem_cons_of_mem _ mem)
    cases a with
    | setStatus thread agent addr reference type value invalid =>
      exact ih later (HWService.setStatus q agent addr reference type value invalid)
    | setDpValue thread dpId value => exact ih later (HWService.setDpValue q dpId value)
    | lock => cases first
    | storeNext => cases first
    | messagesDone => cases first
    | setNext => cases first
    | unlock => cases first
    | configure op => cases first

/- Without any object every message is about an unknown one. -/
theorem storesUnknown (pvss : Pvss) (messages : List Message) {q : Process} (none : q.mapper.objects = []) :
    ∃ r, HWService.storeLoop pvss messages q = some r := by
  induction messages generalizing q with
  | nil => exact ⟨_, rfl⟩
  | cons msg rest ih =>
    have absent : ¬ Registered q.mapper.objects (q.driver.getParamAddress msg.address) := by
      rw [none]
      rintro ⟨o, mem, _⟩
      cases mem
    have unknown := HWService.storeUnregistered pvss (Text.cString msg.value) msg.invalid absent
    unfold HWService.storeLoop
    rw [HWService.handleStored]
    dsimp only
    rw [unknown]
    exact ih none

theorem turnsCalled (n : Nat) (q : Process) : ofThread n (turns q) = [] := by
  simp [ofThread, turns, caller]

def samplePoll : PollThread where
  around := MBusAsciiMaster.calm
  agent := 1
  created := MBusAsciiMaster.sample
  first := MBusAsciiMaster.setAgentStatus MBusAsciiMaster.calm .INITIALIZE MBusAsciiMaster.sample
  known := rfl
  fresh := rfl
  entered := rfl

theorem sampleReady : MBusAsciiMaster.Ready samplePoll.around samplePoll.first where
  active := rfl
  connects := Or.inl ⟨rfl, 8, 1, 0, rfl, rfl, rfl, by decide⟩
  healthy := by
    intro b bus
    cases List.mem_singleton.mp bus
    exact ⟨by decide, fun _ => rfl, by decide +kernel, by decide +kernel⟩

theorem sampleEnqueues : ∃ u, MBusAsciiMaster.cycle Line.win32 samplePoll.around samplePoll.first = some u ∧
    ∀ a ∈ u.enqueued, caller a = some 1 := by
  have facts : (MBusAsciiMaster.cycle Line.win32 samplePoll.around samplePoll.first).map
      (fun u => u.enqueued.all (fun a => decide (caller a = some 1))) = some true := by decide +kernel
  obtain ⟨u, turned, all⟩ := Option.map_eq_some_iff.mp facts
  exact ⟨u, turned, fun a mem => of_decide_eq_true (List.all_eq_true.mp all a mem)⟩

/- All that was enqueued is with the service, and workProc has returned. -/
theorem sampleWorks : ∃ u s q, MBusAsciiMaster.cycle Line.win32 samplePoll.around samplePoll.first = some u ∧
    (∀ a ∈ u.enqueued, caller a = some 1) ∧
    Runs.run (act Pvss.front) (start ⟨[], []⟩) u.enqueued = some s ∧ s.position = .outside ∧
    HWService.workProc Pvss.front s.process = some q := by
  obtain ⟨u, turned, own⟩ := sampleEnqueues
  obtain ⟨s, ok, outside, mapper⟩ := postsAll Pvss.front (fun a mem => by rw [own a mem]; rfl) (Process.boot ⟨[], []⟩)
  obtain ⟨r, stored⟩ := storesUnknown Pvss.front s.process.messages (q := s.process) (by rw [mapper]; rfl)
  have worked : HWService.workProc Pvss.front s.process = some (HWService.setLoop r.dpValues r) := by
    unfold HWService.workProc
    rw [stored]
    rfl
  exact ⟨u, s, _, turned, own, ok, outside, worked⟩

theorem sampleOwn {actions : List Action} (own : ∀ a ∈ actions, caller a = some 1) : ofThread 1 actions = actions :=
  List.filter_eq_self.mpr (fun a mem => decide_eq_true (own a mem))

end SerialModbus.System
