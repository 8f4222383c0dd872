import SerialModbus.Mailbox
import SerialModbus.Suppression

/-! The service under its mutex. Poll threads enqueue at any time, each holding the
mutex for the one enqueue. The manager thread holds it for a whole workProc, turn
by turn here, and adds or clears configs only between its calls of workProc. -/
namespace SerialModbus.Delivery
open Text HWService Process
open Suppression (Windows Answers)

/- Where the manager thread stands in workProc. -/
inductive Section where
  | outside
  | messages
  | dpValues
  deriving DecidableEq, Repr

structure Service where
  process : Process
  position : Section

/- The thread that calls is named but makes no difference. -/
inductive Action where
  | setStatus (thread : Nat) (agent addr reference type : Int) (value : QString) (invalid : Bool)
  | setDpValue (thread : Nat) (dpId : DpIdentifier) (value : Variable)
  | lock
  | storeNext
  | messagesDone
  | setNext
  | unlock
  | configure (op : ConfigOp)
  deriving DecidableEq, Repr

def start (mapper : HWMapper) : Service := ⟨boot mapper, .outside⟩

def act (pvss : Pvss) (s : Service) (action : Action) : Option Service :=
  match s.position, action with
  | .outside, .setStatus _ agent addr reference type value invalid =>
      some {s with process := setStatus s.process agent addr reference type value invalid}
  | .outside, .setDpValue _ dpId value => some {s with process := setDpValue s.process dpId value}
  | .outside, .lock => some {s with position := .messages}
  | .outside, .configure op => (configure pvss s.process op).map (fun p => {s with process := p})
  | .messages, .storeNext =>
      match s.process.messages with
      | msg :: rest =>
          (handle pvss {s.process with messages := rest} msg).map (fun p => {s with process := p})
      | [] => none
  | .messages, .messagesDone =>
      if s.process.messages = [] then some {s with position := .dpValues} else none
  | .dpValues, .setNext =>
      match s.process.dpValues with
      | v :: rest => some {s with process := set {s.process with dpValues := rest} v}
      | [] => none
  | .dpValues, .unlock => if s.process.dpValues = [] then some {s with position := .outside} else none
  | _, _ => none

/- What each action does, and when it can be taken. -/
inductive Does (pvss : Pvss) : Service → Action → Service → Prop where
  | setStatus (p : Process) {thread agent addr reference type value invalid} :
      Does pvss ⟨p, .outside⟩ (.setStatus thread agent addr reference type value invalid)
        ⟨setStatus p agent addr reference type value invalid, .outside⟩
  | setDpValue (p : Process) {thread dpId value} :
      Does pvss ⟨p, .outside⟩ (.setDpValue thread dpId value) ⟨setDpValue p dpId value, .outside⟩
  | lock (p : Process) : Does pvss ⟨p, .outside⟩ .lock ⟨p, .messages⟩
  | configure (p q : Process) (op : ConfigOp) (configured : configure pvss p op = some q) :
      Does pvss ⟨p, .outside⟩ (.configure op) ⟨q, .outside⟩
  | storeNext (p : Process) (msg : Message) (rest : List Message) (q : Process)
      (queue : p.messages = msg :: rest) (turned : handle pvss {p with messages := rest} msg = some q) :
      Does pvss ⟨p, .messages⟩ .storeNext ⟨q, .messages⟩
  | messagesDone (p : Process) (done : p.messages = []) : Does pvss ⟨p, .messages⟩ .messagesDone ⟨p, .dpValues⟩
  | setNext (p : Process) (v : DpValue) (rest : List DpValue) (queue : p.dpValues = v :: rest) :
      Does pvss ⟨p, .dpValues⟩ .setNext ⟨set {p with dpValues := rest} v, .dpValues⟩
  | unlock (p : Process) (done : p.dpValues = []) : Does pvss ⟨p, .dpValues⟩ .unlock ⟨p, .outside⟩

theorem actDoes {pvss : Pvss} {s t : Service} {action : Action} (ok : act pvss s action = some t) :
    Does pvss s action t := by
  obtain ⟨p, position⟩ := s
  unfold act at ok
  split at ok <;> try contradiction
  all_goals
    rename_i here
    cases here
  · cases Option.some.inj ok
    exact .setStatus p
  · cases Option.some.inj ok
    exact .setDpValue p
  · cases Option.some.inj ok
    exact .lock p
  · obtain ⟨q, configured, rfl⟩ := Option.map_eq_some_iff.mp ok
    exact .configure p q _ configured
  · split at ok <;> try contradiction
    rename_i msg rest queue
    obtain ⟨q, turned, rfl⟩ := Option.map_eq_some_iff.mp ok
    exact .storeNext p msg rest q queue turned
  · split at ok <;> try contradiction
    rename_i done
    cases Option.some.inj ok
    exact .messagesDone p done
  · split at ok <;> try contradiction
    rename_i v rest queue
    cases Option.some.inj ok
    exact .setNext p v rest queue
  · split at ok <;> try contradiction
    rename_i done
    cases Option.some.inj ok
    exact .unlock p done

/-! One workProc is one stay in the critical section. -/

def turns (p : Process) : List Action :=
  .lock :: (List.replicate p.messages.length .storeNext ++
    .messagesDone :: (List.replicate p.dpValues.length .setNext ++ [.unlock]))

theorem setTurns (pvss : Pvss) (vs : List DpValue) (p : Process) :
    Runs.run (act pvss) ⟨{p with dpValues := vs}, .dpValues⟩
      (List.replicate vs.length .setNext ++ [.unlock]) = some ⟨setLoop vs p, .outside⟩ := by
  induction vs generalizing p with
  | nil => rfl
  | cons v rest ih =>
    simp only [List.length_cons, List.replicate_succ, List.cons_append, Runs.runCons]
    exact ih (set {p with dpValues := rest} v)

theorem storeTurns (pvss : Pvss) (msgs : List Message) (p : Process) :
    Runs.run (act pvss) ⟨{p with messages := msgs}, .messages⟩
      (List.replicate msgs.length .storeNext ++
        .messagesDone :: (List.replicate p.dpValues.length .setNext ++ [.unlock])) =
      (storeLoop pvss msgs p).map (fun q => ⟨setLoop q.dpValues q, .outside⟩) := by
  induction msgs generalizing p with
  | nil =>
    rw [storeLoop, Option.map_some, ← setTurns pvss]
    rfl
  | cons msg rest ih =>
    simp only [List.length_cons, List.replicate_succ, List.cons_append, Runs.runCons, storeLoop, bind]
    have first : act pvss ⟨{p with messages := msg :: rest}, .messages⟩ .storeNext =
        (handle pvss {p with messages := rest} msg).map (fun q => ⟨q, .messages⟩) := rfl
    rw [first]
    cases h : handle pvss {p with messages := rest} msg with
    | none => rfl
    | some q =>
      obtain ⟨driver, outcome, _, rfl⟩ := handleCases h
      exact ih {p with
        driver := driver
        messages := rest
        calls := p.calls ++ [.storeToDB ⟨msg, msg.address, cString msg.value, msg.invalid, outcome⟩]}

theorem workProcTurns (pvss : Pvss) (p : Process) :
    Runs.run (act pvss) ⟨p, .outside⟩ (turns p) =
      (workProc pvss p).map (fun q => ⟨q, .outside⟩) := by
  have loops := storeTurns pvss p.messages p
  rw [turns, Runs.runCons]
  refine Eq.trans loops ?_
  simp only [workProc, bind]
  cases storeLoop pvss p.messages p <;> rfl

/-! Seen from outside the service is a mailbox. -/

open Mailbox (Box Event)

/- What storeToDB is called with. -/
structure Arguments where
  address : QString
  value : List PVSSchar
  invalid : Bool
  deriving DecidableEq, Repr

def arguments (msg : Message) : Arguments := ⟨msg.address, cString msg.value, msg.invalid⟩

def item : Call → Arguments ⊕ DpValue
  | .storeToDB s => .inl ⟨s.address, s.value, s.invalid⟩
  | .dpSet v => .inr v

def phase : Section → Mailbox.Phase
  | .outside => .opened
  | .messages => .takingFirst
  | .dpValues => .takingSecond

def view (s : Service) : Box Arguments DpValue :=
  ⟨s.process.messages.map arguments, s.process.dpValues, phase s.position, s.process.calls.map item⟩

def events : Action → List (Event Arguments DpValue)
  | .setStatus _ agent addr reference type value invalid =>
      [.post (arguments (message agent addr reference type value invalid))]
  | .setDpValue _ dpId value => [.postSecond ⟨dpId, value⟩]
  | .lock => [.close]
  | .storeNext => [.take]
  | .messagesDone => [.turn]
  | .setNext => [.takeSecond]
  | .unlock => [.reopen]
  | .configure _ => []

theorem configureQueues {pvss : Pvss} {p q : Process} {op : ConfigOp}
    (ok : configure pvss p op = some q) :
    q.messages = p.messages ∧ q.dpValues = p.dpValues ∧ q.calls = p.calls := by
  cases op with
  | addDpPa dpId conf base =>
    simp only [configure] at ok
    cases Option.some.inj ok
    exact ⟨rfl, rfl, rfl⟩
  | clrDpPa dpId conf =>
    simp only [configure] at ok
    split at ok <;> try contradiction
    cases Option.some.inj ok
    exact ⟨rfl, rfl, rfl⟩

/- Every action is one event of the mailbox, or none. -/
theorem actView {pvss : Pvss} {s t : Service} {action : Action} (ok : act pvss s action = some t) :
    Runs.run Mailbox.step (view s) (events action) = some (view t) := by
  cases actDoes ok with
  | setStatus p =>
    simp only [view, events, Runs.runCons, Runs.runNil, setStatus, List.map_append]
    rfl
  | setDpValue p => rfl
  | lock p => rfl
  | configure p q op configured =>
    obtain ⟨queue, values, made⟩ := configureQueues configured
    simp only [view, events, Runs.runNil, queue, values, made]
  | storeNext p msg rest q queue turned =>
    obtain ⟨driver, outcome, _, rfl⟩ := handleCases turned
    simp only [view, events, Runs.runCons, Runs.runNil, queue, List.map_append, List.map_cons]
    rfl
  | messagesDone p done =>
    simp only [view, events, Runs.runCons, Runs.runNil, done, List.map_nil]
    rfl
  | setNext p v rest queue =>
    simp only [view, events, Runs.runCons, Runs.runNil, queue, HWService.set, List.map_append]
    rfl
  | unlock p done =>
    simp only [view, events, Runs.runCons, Runs.runNil, done]
    rfl

theorem runView {pvss : Pvss} {mapper : HWMapper} {actions : List Action} {s : Service}
    (ok : Runs.run (act pvss) (start mapper) actions = some s) :
    Runs.run Mailbox.step Mailbox.empty (actions.flatMap events) = some (view s) :=
  Runs.simulates (fun _ _ _ moved => actView moved) ok

/-! What was sent, and what was asked of the manager. -/

def sentMessages (actions : List Action) : List Message :=
  actions.filterMap (fun
    | .setStatus _ agent addr reference type value invalid =>
        some (message agent addr reference type value invalid)
    | _ => none)

def sentValues (actions : List Action) : List DpValue :=
  actions.filterMap (fun
    | .setDpValue _ dpId value => some ⟨dpId, value⟩
    | _ => none)

def stores (calls : List Call) : List Arguments :=
  calls.filterMap (fun
    | .storeToDB s => some ⟨s.address, s.value, s.invalid⟩
    | .dpSet _ => none)

def sets (calls : List Call) : List DpValue :=
  calls.filterMap (fun
    | .storeToDB _ => none
    | .dpSet v => some v)

theorem sentMessagesAppend (xs ys : List Action) : sentMessages (xs ++ ys) = sentMessages xs ++ sentMessages ys :=
  List.filterMap_append

theorem sentValuesAppend (xs ys : List Action) : sentValues (xs ++ ys) = sentValues xs ++ sentValues ys :=
  List.filterMap_append

theorem postsSent (actions : List Action) :
    Mailbox.posts (actions.flatMap events) = (sentMessages actions).map arguments := by
  induction actions with
  | nil => rfl
  | cons action rest ih =>
    rw [List.flatMap_cons, Mailbox.postsAppend, ih]
    cases action <;> rfl

theorem secondPostsSent (actions : List Action) :
    Mailbox.secondPosts (actions.flatMap events) = sentValues actions := by
  induction actions with
  | nil => rfl
  | cons action rest ih =>
    rw [List.flatMap_cons, Mailbox.secondPostsAppend, ih]
    cases action <;> rfl

theorem firstsStores (calls : List Call) : Mailbox.firsts (calls.map item) = stores calls := by
  rw [Mailbox.firsts, stores, List.filterMap_map]
  congr 1
  funext call
  cases call <;> rfl

theorem secondsSets (calls : List Call) : Mailbox.seconds (calls.map item) = sets calls := by
  rw [Mailbox.seconds, sets, List.filterMap_map]
  congr 1
  funext call
  cases call <;> rfl

/- The manager sends nothing while it works. -/
theorem turnsSilent (p : Process) :
    ∃ work, turns p = work ++ [.unlock] ∧ sentMessages work = [] ∧ sentValues work = [] := by
  refine ⟨.lock :: (List.replicate p.messages.length .storeNext ++
    .messagesDone :: List.replicate p.dpValues.length .setNext), ?_, ?_, ?_⟩
  · simp [turns]
  · simp [sentMessages]
  · simp [sentValues]

theorem runOrdered {pvss : Pvss} {mapper : HWMapper} {actions : List Action} {s : Service}
    (ok : Runs.run (act pvss) (start mapper) actions = some s) :
    stores s.process.calls <+: (sentMessages actions).map arguments ∧
    sets s.process.calls <+: sentValues actions := by
  have inv := Mailbox.runOrdered (runView ok)
  rw [← postsSent, ← secondPostsSent, ← firstsStores, ← secondsSets]
  exact ⟨⟨_, inv.fifo⟩, ⟨_, inv.fifoSecond⟩⟩

/- Once the mutex is released nothing is left over. -/
theorem unlocked {pvss : Pvss} {mapper : HWMapper} {actions : List Action} {s : Service}
    (ok : Runs.run (act pvss) (start mapper) (actions ++ [.unlock]) = some s) :
    stores s.process.calls = (sentMessages actions).map arguments ∧
    sets s.process.calls = sentValues actions := by
  have viewed := runView ok
  rw [List.flatMap_append] at viewed
  have all := Mailbox.reopened (actions.flatMap events) viewed
  rw [postsSent, secondPostsSent] at all
  rw [← firstsStores, ← secondsSets]
  exact all

/- A value set after some calls was sent with everything sent before it stored. -/
theorem storedBefore {pvss : Pvss} {mapper : HWMapper} {actions : List Action} {s : Service}
    (ok : Runs.run (act pvss) (start mapper) actions = some s) {done later : List Call} {v : DpValue}
    (made : s.process.calls = done ++ .dpSet v :: later) {pre post : List Action} {thread : Nat}
    {dpId : DpIdentifier} {value : Variable} (sent : actions = pre ++ .setDpValue thread dpId value :: post)
    (place : (sentValues pre).length = (sets done).length) :
    v = ⟨dpId, value⟩ ∧ (sentMessages pre).map arguments <+: stores done := by
  have inv := Mailbox.runOrdered (runView ok)
  have taken : (view s).taken = done.map item ++ .inr v :: later.map item := by
    rw [view, made, List.map_append]
    rfl
  have posted : actions.flatMap events =
      pre.flatMap events ++ .postSecond ⟨dpId, value⟩ :: post.flatMap events := by
    rw [sent, List.flatMap_append]
    rfl
  rw [← secondPostsSent, ← secondsSets] at place
  obtain ⟨same, before⟩ := inv.before _ _ _ taken _ _ _ posted place
  rw [postsSent, firstsStores] at before
  exact ⟨same.symm, before⟩

/- At every moment of every interleaving: the stores made are a prefix of the
messages sent, the data-point values set a prefix of the values sent; a workProc
that returns has handed over all that was sent before; and no value is set before
a message that was sent ahead of it is stored. -/
theorem deliveredInOrder (pvss : Pvss) (mapper : HWMapper) (actions : List Action) (s : Service)
    (ok : Runs.run (act pvss) (start mapper) actions = some s) :
    stores s.process.calls <+: (sentMessages actions).map arguments ∧
    sets s.process.calls <+: sentValues actions ∧
    (∀ before inside, actions = before ++ .lock :: (inside ++ [.unlock]) →
      (sentMessages before).map arguments <+: stores s.process.calls ∧
      sentValues before <+: sets s.process.calls) ∧
    (s.position = .outside → ∀ p, workProc pvss s.process = some p →
      stores p.calls = (sentMessages actions).map arguments ∧ sets p.calls = sentValues actions) ∧
    (∀ done v later, s.process.calls = done ++ .dpSet v :: later →
      ∀ pre thread dpId value post, actions = pre ++ .setDpValue thread dpId value :: post →
        (sentValues pre).length = (sets done).length →
        v = ⟨dpId, value⟩ ∧ (sentMessages pre).map arguments <+: stores done) := by
  obtain ⟨messages, values⟩ := runOrdered ok
  refine ⟨messages, values, ?_, ?_, ?_⟩
  · intro before inside parts
    have shape : actions = (before ++ .lock :: inside) ++ [.unlock] := by
      rw [parts, List.append_assoc]
      rfl
    rw [shape] at ok
    obtain ⟨stored, set⟩ := unlocked ok
    rw [stored, set]
    simp [sentMessages, sentValues]
  · intro outside p worked
    have ran : Runs.run (act pvss) (start mapper) (actions ++ turns s.process) = some ⟨p, .outside⟩ := by
      have here : s = ⟨s.process, .outside⟩ := by rw [← outside]
      rw [Runs.runAppend, ok, Option.bind_some, here, workProcTurns, worked]
      rfl
    obtain ⟨work, shape, quiet, still⟩ := turnsSilent s.process
    rw [shape, ← List.append_assoc] at ran
    obtain ⟨stored, set⟩ := unlocked ran
    rw [sentMessagesAppend, quiet, List.append_nil] at stored
    rw [sentValuesAppend, still, List.append_nil] at set
    exact ⟨stored, set⟩
  · intro done v later made pre thread dpId value post sent place
    exact storedBefore ok made sent place

theorem setWindows {p : Process} (windows : Windows p) (v : DpValue) : Windows (set p v) := by
  intro fullName marked
  have same : Suppression.texts fullName (set p v).calls = Suppression.texts fullName p.calls := by
    simp [HWService.set, Suppression.texts, Suppression.textOf]
  rw [same]
  exact windows fullName marked

theorem actWindows {pvss : Pvss} {s t : Service} {action : Action} (windows : Windows s.process)
    (ok : act pvss s action = some t) : Windows t.process := by
  cases actDoes ok with
  | configure p q op configured => exact @Suppression.stepWindows pvss p q (.config op) windows configured
  | storeNext p msg rest q queue turned =>
    have waiting : Windows {p with messages := rest} := windows
    exact Suppression.handleWindows waiting turned
  | setNext p v rest queue =>
    have waiting : Windows {p with dpValues := rest} := windows
    exact setWindows waiting v
  | _ => exact windows

theorem runWindows {pvss : Pvss} {mapper : HWMapper} {actions : List Action} {s : Service}
    (ok : Runs.run (act pvss) (start mapper) actions = some s) : Windows s.process :=
  Runs.invariant (P := fun s : Service => Windows s.process) (fun _ _ _ windows moved => actWindows windows moved)
    (Suppression.bootWindows mapper) ok

/- At every moment of every interleaving: a workProc returns exactly when no message
that waits is for a registered name with a count below -1. -/
theorem workProcReturns (pvss : Pvss) (mapper : HWMapper) (actions : List Action) (s : Service)
    (ok : Runs.run (act pvss) (start mapper) actions = some s) :
    (∃ p, workProc pvss s.process = some p) ↔ ∀ msg ∈ s.process.messages, Answers s.process msg :=
  Suppression.drainReturns pvss (runWindows ok)

/- A register with the count -2, and a reading of it. -/
def negative : List Action :=
  [.configure (.addDpPa none ⟨"1_1702_1.1$-2".toList, 1702⟩ true), .setStatus 1 1 1 1 1702 (number 5) false]

theorem workProcReturnsNegative : ∃ s, Runs.run (act Pvss.front) (start ⟨[], []⟩) negative = some s ∧
    workProc Pvss.front s.process = none := by
  have facts : (Runs.run (act Pvss.front) (start ⟨[], []⟩) negative).map
      (fun s => decide (∀ msg ∈ s.process.messages, Answers s.process msg)) = some false := by decide
  obtain ⟨s, ok, refused⟩ := Option.map_eq_some_iff.mp facts
  refine ⟨s, ok, Option.eq_none_iff_forall_not_mem.mpr fun p worked => ?_⟩
  exact of_decide_eq_false refused ((workProcReturns Pvss.front ⟨[], []⟩ negative s ok).mp ⟨p, worked⟩)

/- Two threads, one message and one value, and one workProc. -/
def oneRound : List Action :=
  [.setStatus 1 1 1 1 1701 (number 1) false, .setDpValue 2 (some 7) (.bit true), .lock, .storeNext,
    .messagesDone, .setNext, .unlock]

theorem deliveredInOrderOne : ∃ s done, Runs.run (act Pvss.front) (start ⟨[], []⟩) oneRound = some s ∧
    s.process.calls = done ++ [.dpSet ⟨some 7, .bit true⟩] ∧
    (sentMessages (oneRound.take 2)).map arguments <+: stores s.process.calls ∧
    (sentMessages (oneRound.take 1)).map arguments <+: stores done ∧
    ∀ p, workProc Pvss.front s.process = some p → sets p.calls = sentValues oneRound := by
  have facts : (Runs.run (act Pvss.front) (start ⟨[], []⟩) oneRound).map
      (fun s => (s.position, s.process.calls.drop 1, sets (s.process.calls.take 1))) =
        some (.outside, [.dpSet ⟨some 7, .bit true⟩], []) := rfl
  obtain ⟨s, ok, facts⟩ := Option.map_eq_some_iff.mp facts
  obtain ⟨outside, facts⟩ := Prod.mk.inj facts
  obtain ⟨last, none⟩ := Prod.mk.inj facts
  have made : s.process.calls = s.process.calls.take 1 ++ [.dpSet ⟨some 7, .bit true⟩] := by
    rw [← last, List.take_append_drop]
  obtain ⟨_, _, returned, worked, before⟩ := deliveredInOrder Pvss.front ⟨[], []⟩ oneRound s ok
  refine ⟨s, s.process.calls.take 1, ok, made, ?_, ?_, fun p work => (worked outside p work).2⟩
  · exact (returned (oneRound.take 2) [.storeNext, .messagesDone, .setNext] rfl).1
  · exact (before _ _ [] made (oneRound.take 1) 2 (some 7) (.bit true)
      [.lock, .storeNext, .messagesDone, .setNext, .unlock] rfl (by rw [none]; rfl)).2

end SerialModbus.Delivery
