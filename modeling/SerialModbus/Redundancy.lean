import SerialModbus.Delivery

/-! The status values of the masters in a redundant system. A poll thread looks at
the redundancy state when it makes a value; the manager writes the value later. -/
namespace SerialModbus
open Text Global HWService

namespace MBusAbstract

def getStatusId (m : MBusAbstract) (replica : Int) : DpIdentifier :=
  if replica = 1 then m.statusId_1 else m.statusId_2

/- What goes to setDpValue. -/
def setAgentStatus (m : MBusAbstract) (isRedActive : Bool) (replica status : Int) : DpValue :=
  if isRedActive then ⟨m.getStatusId replica, .uinteger status⟩
  else ⟨m.getStatusId replica, .uinteger Status.STANDBY.code⟩

def setBusStatus (m : MBusAbstract) (isRedActive : Bool) (status : List Int) : List DpValue :=
  if isRedActive then [⟨m.statusBus, .dyn status⟩, ⟨m.statusBusInvalid, .bit false⟩] else []

end MBusAbstract

namespace Redundancy
open Delivery

/- calling is what each thread has still to enqueue in the call it is in. -/
structure Replica where
  service : Service
  isRedActive : Bool
  calling : Nat → List DpValue

inductive Turn where
  | lock
  | storeNext
  | messagesDone
  | setNext
  | unlock
  deriving DecidableEq, Repr

def Turn.action : Turn → Action
  | .lock => .lock
  | .storeNext => .storeNext
  | .messagesDone => .messagesDone
  | .setNext => .setNext
  | .unlock => .unlock

inductive Event where
  | setBusStatus (thread : Nat) (k : Int) (status : List Int)
  | setAgentStatus (thread : Nat) (k status : Int)
  | setDpValue (thread : Nat)
  | setStatus (thread : Nat) (agent addr reference type : Int) (value : QString) (invalid : Bool)
  | switch (isRedActive : Bool)
  | workProc (turn : Turn)
  deriving DecidableEq, Repr

def getMBus (s : Replica) (k : Int) : Option MBusAbstract := s.service.process.driver.getMBus k

/- A thread enters a call with nothing left of the one before. -/
def enter (s : Replica) (thread : Nat) (values : List DpValue) : Option Replica :=
  if s.calling thread = [] then some {s with calling := Function.update s.calling thread values} else none

def step (pvss : Pvss) (replica : Int) (s : Replica) : Event → Option Replica
  | .setBusStatus thread k status => do
      let m ← getMBus s k
      enter s thread (m.setBusStatus s.isRedActive status)
  | .setAgentStatus thread k status => do
      let m ← getMBus s k
      enter s thread [m.setAgentStatus s.isRedActive replica status]
  | .setDpValue thread =>
      match s.calling thread with
      | v :: rest => do
          let service ← act pvss s.service (.setDpValue thread v.dpId v.value)
          some {s with service := service, calling := Function.update s.calling thread rest}
      | [] => none
  | .setStatus thread agent addr reference type value invalid => do
      let service ← act pvss s.service (.setStatus thread agent addr reference type value invalid)
      some {s with service := service}
  | .switch isRedActive => some {s with isRedActive := isRedActive}
  | .workProc turn => do
      let service ← act pvss s.service turn.action
      some {s with service := service}

/- A process with its masters configured, before its first value. -/
def configured (driver : Driver) (mapper : HWMapper) : Service := ⟨⟨driver, mapper, [], [], []⟩, .outside⟩

def begin (driver : Driver) (mapper : HWMapper) (isRedActive : Bool) : Replica :=
  ⟨configured driver mapper, isRedActive, fun _ => []⟩

/-! The data points of the masters, and what only an active replica may write. -/

def BusPoint (d : Driver) (dpId : DpIdentifier) : Prop :=
  dpId ≠ none ∧ ∃ k m, d.getMBus k = some m ∧ (dpId = m.statusBus ∨ dpId = m.statusBusInvalid)

def AgentPoint (d : Driver) (dpId : DpIdentifier) : Prop :=
  dpId ≠ none ∧ ∃ k m, d.getMBus k = some m ∧ (dpId = m.statusId_1 ∨ dpId = m.statusId_2)

def ActiveOnly (d : Driver) (v : DpValue) : Prop :=
  BusPoint d v.dpId ∨ (AgentPoint d v.dpId ∧ v.value ≠ .uinteger Status.STANDBY.code)

/- In a queue, or in a call that has looked at the redundancy state. -/
def Waiting (s : Replica) (v : DpValue) : Prop :=
  v ∈ s.service.process.dpValues ∨ ∃ thread, v ∈ s.calling thread

/- A value that is written while the replica is passive may be. -/
def Right (s : Replica) (e : Event) : Prop :=
  e = .workProc .setNext → ∀ v rest, s.service.process.dpValues = v :: rest →
    s.isRedActive = false → ¬ ActiveOnly s.service.process.driver v

/- Nothing that only an active replica may write waits as the replica turns passive. -/
def Quiet (s : Replica) (e : Event) : Prop :=
  e = .switch false → ∀ v, Waiting s v → ¬ ActiveOnly s.service.process.driver v

/- A passive replica has the status of an agent elsewhere than in a bus status. -/
def Apart (replica : Int) (s : Replica) (e : Event) : Prop :=
  s.isRedActive = false → ∀ thread k status m, e = .setAgentStatus thread k status → getMBus s k = some m →
    ¬ BusPoint s.service.process.driver (m.getStatusId replica)

/-! What one step does to the values that wait. -/

theorem activeOnlyMasters {d e : Driver} (same : d.mbus = e.mbus) (v : DpValue) :
    ActiveOnly d v ↔ ActiveOnly e v := by
  simp only [ActiveOnly, BusPoint, AgentPoint, Driver.getMBus, same]

/- The queue of values after an action, given the queue before it. -/
def Moves (before after : List DpValue) : Action → Prop
  | .setDpValue _ dpId value => after = before ++ [⟨dpId, value⟩]
  | .setNext => ∃ v, before = v :: after
  | _ => after = before

theorem actMoves {pvss : Pvss} {s t : Service} {action : Action} (ok : act pvss s action = some t) :
    Moves s.process.dpValues t.process.dpValues action ∧
      t.process.driver.mbus = s.process.driver.mbus := by
  cases actDoes ok with
  | configure p q op configured =>
    refine ⟨(configureQueues configured).2.1, ?_⟩
    rcases (Process.configureDriver configured).1 with same | ⟨name, added⟩
    · rw [same]
    · rw [added, HWMapper.addParamAddress, Driver.manageParamAddress]
      split <;> rfl
  | storeNext p msg rest q queue turned =>
    obtain ⟨driver, outcome, stored, rfl⟩ := handleCases turned
    exact ⟨rfl, (storeFrame stored).2.2.2.1⟩
  | setNext p v rest queue => exact ⟨⟨v, queue⟩, rfl⟩
  | _ => exact ⟨rfl, rfl⟩

/- What a thread has made by entering a call. -/
def Makes (replica : Int) (s : Replica) (e : Event) (v : DpValue) : Prop :=
  (∃ thread k status m, e = .setBusStatus thread k status ∧ getMBus s k = some m ∧
    v ∈ m.setBusStatus s.isRedActive status) ∨
  ∃ thread k status m, e = .setAgentStatus thread k status ∧ getMBus s k = some m ∧
    v = m.setAgentStatus s.isRedActive replica status

/- What an event leaves as it is: the masters, and the redundancy state but for a switch. -/
def Keeps (s u : Replica) (e : Event) : Prop :=
  u.service.process.driver.mbus = s.service.process.driver.mbus ∧
    ((∀ isRedActive, e ≠ .switch isRedActive) → u.isRedActive = s.isRedActive)

theorem enterWaiting {s u : Replica} {thread : Nat} {values : List DpValue}
    (ok : enter s thread values = some u) :
    u.service = s.service ∧ u.isRedActive = s.isRedActive ∧
      ∀ v, Waiting u v ↔ Waiting s v ∨ v ∈ values := by
  unfold enter at ok
  split at ok <;> try contradiction
  rename_i idle
  cases Option.some.inj ok
  refine ⟨rfl, rfl, ?_⟩
  intro v
  simp only [Waiting, or_assoc]
  refine or_congr_right ?_
  constructor
  · rintro ⟨other, mem⟩
    by_cases same : other = thread
    · subst same
      rw [Function.update_self] at mem
      exact Or.inr mem
    · rw [Function.update_of_ne same] at mem
      exact Or.inl ⟨other, mem⟩
  · rintro (⟨other, mem⟩ | mem)
    · have differ : other ≠ thread := by
        rintro rfl
        rw [idle] at mem
        contradiction
      exact ⟨other, by rwa [Function.update_of_ne differ]⟩
    · exact ⟨thread, by rwa [Function.update_self]⟩

/- A thread hands its next value over: it still waits, now in the queue. -/
theorem handOver {s : Replica} {thread : Nat} {v : DpValue} {rest : List DpValue} {service : Service}
    (next : s.calling thread = v :: rest)
    (queue : service.process.dpValues = s.service.process.dpValues ++ [v]) (w : DpValue) :
    Waiting {s with service := service, calling := Function.update s.calling thread rest} w ↔ Waiting s w := by
  simp only [Waiting, queue, List.mem_append, List.mem_singleton]
  constructor
  · rintro ((mem | rfl) | ⟨other, mem⟩)
    · exact Or.inl mem
    · exact Or.inr ⟨thread, by rw [next]; exact List.mem_cons_self⟩
    · by_cases same : other = thread
      · subst same
        rw [Function.update_self] at mem
        exact Or.inr ⟨other, by rw [next]; exact List.mem_cons_of_mem _ mem⟩
      · rw [Function.update_of_ne same] at mem
        exact Or.inr ⟨other, mem⟩
  · rintro (mem | ⟨other, mem⟩)
    · exact Or.inl (Or.inl mem)
    · by_cases same : other = thread
      · subst same
        rw [next] at mem
        rcases List.mem_cons.mp mem with rfl | later
        · exact Or.inl (Or.inr rfl)
        · exact Or.inr ⟨other, by rwa [Function.update_self]⟩
      · exact Or.inr ⟨other, by rwa [Function.update_of_ne same]⟩

theorem sameWaiting {s : Replica} {service : Service}
    (queue : service.process.dpValues = s.service.process.dpValues) (v : DpValue) :
    Waiting {s with service := service} v ↔ Waiting s v := by
  simp only [Waiting, queue]

theorem stepKeeps {pvss : Pvss} {replica : Int} {s u : Replica} {e : Event}
    (ok : step pvss replica s e = some u) : Keeps s u e := by
  cases e with
  | setBusStatus thread k status =>
    obtain ⟨m, _, entered⟩ := Option.bind_eq_some_iff.mp ok
    obtain ⟨service, active, _⟩ := enterWaiting entered
    exact ⟨by rw [service], fun _ => active⟩
  | setAgentStatus thread k status =>
    obtain ⟨m, _, entered⟩ := Option.bind_eq_some_iff.mp ok
    obtain ⟨service, active, _⟩ := enterWaiting entered
    exact ⟨by rw [service], fun _ => active⟩
  | setDpValue thread =>
    simp only [step] at ok
    split at ok <;> try contradiction
    obtain ⟨service, moved, last⟩ := Option.bind_eq_some_iff.mp ok
    cases Option.some.inj last
    exact ⟨(actMoves moved).2, fun _ => rfl⟩
  | setStatus thread agent addr reference type value invalid =>
    obtain ⟨service, moved, last⟩ := Option.bind_eq_some_iff.mp ok
    cases Option.some.inj last
    exact ⟨(actMoves moved).2, fun _ => rfl⟩
  | switch isRedActive =>
    cases Option.some.inj ok
    exact ⟨rfl, fun other => absurd rfl (other isRedActive)⟩
  | workProc turn =>
    obtain ⟨service, moved, last⟩ := Option.bind_eq_some_iff.mp ok
    cases Option.some.inj last
    exact ⟨(actMoves moved).2, fun _ => rfl⟩

/- A value starts to wait when its call is entered, and stops when workProc sets it. -/
theorem stepWaiting {pvss : Pvss} {replica : Int} {s u : Replica} {e : Event}
    (ok : step pvss replica s e = some u) (v : DpValue) :
    (Waiting u v → Waiting s v ∨ Makes replica s e v) ∧
    (Waiting s v → Waiting u v ∨
      e = .workProc .setNext ∧ ∃ rest, s.service.process.dpValues = v :: rest) := by
  cases e with
  | setBusStatus thread k status =>
    obtain ⟨m, got, entered⟩ := Option.bind_eq_some_iff.mp ok
    have waiting := (enterWaiting entered).2.2 v
    refine ⟨fun wait => (waiting.mp wait).imp_right fun made => ?_,
      fun wait => Or.inl (waiting.mpr (Or.inl wait))⟩
    exact Or.inl ⟨thread, k, status, m, rfl, got, made⟩
  | setAgentStatus thread k status =>
    obtain ⟨m, got, entered⟩ := Option.bind_eq_some_iff.mp ok
    have waiting := (enterWaiting entered).2.2 v
    refine ⟨fun wait => (waiting.mp wait).imp_right fun made => ?_,
      fun wait => Or.inl (waiting.mpr (Or.inl wait))⟩
    exact Or.inr ⟨thread, k, status, m, rfl, got, List.mem_singleton.mp made⟩
  | setDpValue thread =>
    simp only [step] at ok
    split at ok <;> try contradiction
    rename_i w rest next
    obtain ⟨service, moved, last⟩ := Option.bind_eq_some_iff.mp ok
    cases Option.some.inj last
    have waiting := handOver next (actMoves moved).1 v
    exact ⟨fun wait => Or.inl (waiting.mp wait), fun wait => Or.inl (waiting.mpr wait)⟩
  | setStatus thread agent addr reference type value invalid =>
    obtain ⟨service, moved, last⟩ := Option.bind_eq_some_iff.mp ok
    cases Option.some.inj last
    have waiting := sameWaiting (actMoves moved).1 v
    exact ⟨fun wait => Or.inl (waiting.mp wait), fun wait => Or.inl (waiting.mpr wait)⟩
  | switch isRedActive =>
    cases Option.some.inj ok
    exact ⟨Or.inl, Or.inl⟩
  | workProc turn =>
    obtain ⟨service, moved, last⟩ := Option.bind_eq_some_iff.mp ok
    cases Option.some.inj last
    cases turn with
    | setNext =>
      obtain ⟨first, queue⟩ := (actMoves moved).1
      constructor
      · rintro (mem | called)
        · exact Or.inl (Or.inl (by rw [queue]; exact List.mem_cons_of_mem _ mem))
        · exact Or.inl (Or.inr called)
      · rintro (mem | called)
        · rw [queue] at mem
          rcases List.mem_cons.mp mem with rfl | later
          · exact Or.inr ⟨rfl, _, queue⟩
          · exact Or.inl (Or.inl later)
        · exact Or.inl (Or.inr called)
    | _ =>
      have waiting := sameWaiting (actMoves moved).1 v
      exact ⟨fun wait => Or.inl (waiting.mp wait), fun wait => Or.inl (waiting.mpr wait)⟩

/-! A replica that is passive has nothing waiting that only an active one may write. -/

def Settled (s : Replica) : Prop :=
  s.isRedActive = false → ∀ v, Waiting s v → ¬ ActiveOnly s.service.process.driver v

theorem madePassive {replica : Int} {s : Replica} {e : Event} {v : DpValue} (apart : Apart replica s e)
    (passive : s.isRedActive = false) (made : Makes replica s e v) :
    ¬ ActiveOnly s.service.process.driver v := by
  unfold Makes at made
  rw [passive] at made
  rcases made with ⟨thread, k, status, m, _, _, mem⟩ | ⟨thread, k, status, m, call, got, rfl⟩
  · exact absurd mem List.not_mem_nil
  · have elsewhere := apart passive thread k status m call got
    intro only
    rcases only with bus | ⟨_, other⟩
    · exact elsewhere bus
    · exact other rfl

theorem settledStep {pvss : Pvss} {replica : Int} (s : Replica) (e : Event) (u : Replica)
    (settled : Settled s) (meets : Quiet s e ∧ Apart replica s e) (ok : step pvss replica s e = some u) :
    Settled u := by
  obtain ⟨quiet, apart⟩ := meets
  obtain ⟨same, state⟩ := stepKeeps ok
  intro passive v wait
  rw [activeOnlyMasters same]
  by_cases switched : ∃ isRedActive, e = .switch isRedActive
  · obtain ⟨isRedActive, rfl⟩ := switched
    cases Option.some.inj ok
    rw [show isRedActive = false from passive] at quiet
    exact quiet rfl v wait
  · have before : s.isRedActive = false := by
      rw [← state (fun isRedActive other => switched ⟨isRedActive, other⟩)]
      exact passive
    rcases (stepWaiting ok v).1 wait with old | made
    · exact settled before v old
    · exact madePassive apart before made

theorem settledRight {s : Replica} (settled : Settled s) (e : Event) : Right s e := by
  intro _ v rest queue passive
  exact settled passive v (Or.inl (by rw [queue]; exact List.mem_cons_self))

/-! A value that waits as the replica turns passive is set before the replica turns
active again, or waits on. -/

def Stuck (v : DpValue) (s : Replica) : Prop :=
  s.isRedActive = false ∧ Waiting s v ∧ ActiveOnly s.service.process.driver v

theorem stuckStep {pvss : Pvss} {replica : Int} {v : DpValue} (s : Replica) (e : Event) (u : Replica)
    (stuck : Stuck v s) (meets : Right s e ∧ e ≠ .switch true) (ok : step pvss replica s e = some u) :
    Stuck v u := by
  obtain ⟨passive, wait, only⟩ := stuck
  obtain ⟨right, stays⟩ := meets
  obtain ⟨same, state⟩ := stepKeeps ok
  refine ⟨?_, ?_, (activeOnlyMasters same v).mpr only⟩
  · by_cases switched : ∃ isRedActive, e = .switch isRedActive
    · obtain ⟨isRedActive, rfl⟩ := switched
      cases Option.some.inj ok
      cases isRedActive with
      | true => contradiction
      | false => rfl
    · rw [state (fun isRedActive other => switched ⟨isRedActive, other⟩)]
      exact passive
  · rcases (stepWaiting ok v).2 wait with still | ⟨set, rest, queue⟩
    · exact still
    · exact absurd only (right set v rest queue passive)

/- From any configuration of masters: when nothing that only an active replica may
write waits at any switch to passive, what workProc sets is right throughout. And a
value that does wait at a switch, and is gone before the replica is active again,
was set when it must not be. -/
theorem passiveQuiet (pvss : Pvss) (replica : Int) (driver : Driver) (mapper : HWMapper) (isRedActive : Bool)
    (events : List Event) :
    (Runs.EachStep (step pvss replica) (fun s e => Quiet s e ∧ Apart replica s e)
        (begin driver mapper isRedActive) events →
      Runs.EachStep (step pvss replica) Right (begin driver mapper isRedActive) events) ∧
    ∀ before later s t v, events = before ++ .switch false :: later → .switch true ∉ later →
      Runs.run (step pvss replica) (begin driver mapper isRedActive) before = some s →
      Runs.run (step pvss replica) (begin driver mapper isRedActive) events = some t →
      Waiting s v → ActiveOnly s.service.process.driver v → ¬ Waiting t v →
      ¬ Runs.EachStep (step pvss replica) Right (begin driver mapper isRedActive) events := by
  constructor
  · intro each pre e s u prior hs hu
    have start : Settled (begin driver mapper isRedActive) := by
      intro _ v wait
      rcases wait with mem | ⟨thread, mem⟩ <;> exact absurd mem List.not_mem_nil
    have settled := Runs.eachInvariant settledStep start each pre s ((List.prefix_append pre [e]).trans prior) hs
    exact settledRight settled e
  · intro before later s t v split stays hs ht wait only gone right
    subst split
    -- the state right after the switch
    have ran : Runs.run (step pvss replica) (begin driver mapper isRedActive) (before ++ [.switch false]) =
        some {s with isRedActive := false} := by
      rw [Runs.runSnoc, hs]
      rfl
    rw [show before ++ Event.switch false :: later = (before ++ [.switch false]) ++ later by simp] at right ht
    rw [Runs.runAppend, ran, Option.bind_some] at ht
    have rest := Runs.eachRest right ran
    have meets : Runs.EachStep (step pvss replica) (fun s e => Right s e ∧ e ≠ .switch true)
        {s with isRedActive := false} later := by
      intro pre e x y prior hx hy
      refine ⟨rest pre e x y prior hx hy, ?_⟩
      rintro rfl
      exact stays (prior.subset (List.mem_append_right _ List.mem_cons_self))
    have stuck : Stuck v {s with isRedActive := false} := ⟨rfl, wait, only⟩
    exact gone (Runs.eachInvariant stuckStep stuck meets later t (List.prefix_refl later) ht).2.1

/- One master: its agent status is point 1 or 2, its bus status 3, the invalid flag 4. -/
def agentOne : MBusAbstract :=
  {MBusAbstract.new "M1".toList with
    statusId_1 := some 1, statusId_2 := some 2, statusBus := some 3, statusBusInvalid := some 4}

def driverOne : Driver := Driver.new.addMBus 1 agentOne

/- The replica turns passive, and only then does the poll thread report a status. -/
def reported : List Event :=
  [.switch false, .setAgentStatus 7 1 Status.CONNECTED.code, .setDpValue 7, .workProc .lock,
    .workProc .messagesDone, .workProc .setNext]

/- The poll thread reports the bus, and the replica turns passive before workProc runs. -/
def overtaken : List Event :=
  [.setBusStatus 7 1 [2], .setDpValue 7, .setDpValue 7, .switch false, .workProc .lock,
    .workProc .messagesDone, .workProc .setNext]

theorem gotOne {k : Int} {m : MBusAbstract} (got : driverOne.getMBus k = some m) : m = agentOne := by
  unfold driverOne Driver.addMBus Driver.getMBus at got
  by_cases first : k = 1
  · subst first
    rw [AList.lookup_insert] at got
    exact (Option.some.inj got).symm
  · rw [AList.lookup_insert_ne first] at got
    contradiction

theorem passiveQuietOne :
    Runs.EachStep (step Pvss.front 1) Right (begin driverOne ⟨[], []⟩ true) reported ∧
      ¬ Runs.EachStep (step Pvss.front 1) Right (begin driverOne ⟨[], []⟩ true) overtaken := by
  constructor
  · apply (passiveQuiet Pvss.front 1 driverOne ⟨[], []⟩ true reported).1
    refine Runs.eachCons ⟨?_, fun other => nomatch other⟩ fun s moved => ?_
    · intro _ v wait
      rcases wait with mem | ⟨thread, mem⟩ <;> exact absurd mem List.not_mem_nil
    cases Option.some.inj moved
    refine Runs.eachCons ⟨(fun other => nomatch other), ?_⟩ fun t _ => ?_
    · rintro _ thread k status m _ got ⟨_, i, bus, found, same⟩
      rw [gotOne got, gotOne found] at same
      exact absurd same (by decide)
    · intro pre e x y prior _ _
      have mem := prior.subset (List.mem_append_right _ List.mem_cons_self)
      have plain : ∀ e ∈ reported.drop 2, e ≠ .switch false ∧
          ∀ thread k status, e ≠ .setAgentStatus thread k status := by simp [reported]
      obtain ⟨still, silent⟩ := plain e mem
      exact ⟨fun switched => absurd switched still,
        fun _ thread k status m call _ => absurd call (silent thread k status)⟩
  · refine (passiveQuiet Pvss.front 1 driverOne ⟨[], []⟩ true overtaken).2 (overtaken.take 3) (overtaken.drop 4) _ _
      ⟨some 3, .dyn [2]⟩ rfl (by decide) rfl rfl (Or.inl List.mem_cons_self) ?_ ?_
    · exact Or.inl ⟨by decide, 1, agentOne, by decide, Or.inl rfl⟩
    · rintro (mem | ⟨thread, mem⟩)
      · exact absurd mem (by decide)
      · -- the thread has left its call
        have idle : ⟨some 3, .dyn [2]⟩ ∈ Function.update (Function.update (Function.update
            (fun _ => ([] : List DpValue)) 7 [⟨some 3, .dyn [2]⟩, ⟨some 4, .bit false⟩])
            7 [⟨some 4, .bit false⟩]) 7 [] thread := mem
        simp at idle

/- What a poll thread reported while the replica was active is written while it is not. -/
theorem notPassive : ¬ ∀ (pvss : Pvss) (replica : Int) (driver : Driver) (mapper : HWMapper) (isRedActive : Bool)
    (events : List Event), Runs.EachStep (step pvss replica) Right (begin driver mapper isRedActive) events := by
  intro all
  have facts : (Runs.run (step Pvss.front 1) (begin driverOne ⟨[], []⟩ true) overtaken.dropLast).map
      (fun s => (s.service.process.dpValues, s.isRedActive, s.service.process.driver.getMBus 1,
        (step Pvss.front 1 s (.workProc .setNext)).isSome)) =
        some ([⟨some 3, .dyn [2]⟩, ⟨some 4, .bit false⟩], false, some agentOne, true) := by decide
  obtain ⟨s, reached, facts⟩ := Option.map_eq_some_iff.mp facts
  simp only [Prod.mk.injEq] at facts
  obtain ⟨queue, passive, got, moves⟩ := facts
  obtain ⟨t, moved⟩ := Option.isSome_iff_exists.mp moves
  have right := all Pvss.front 1 driverOne ⟨[], []⟩ true overtaken overtaken.dropLast (.workProc .setNext) s t
    (List.prefix_refl _) reached moved
  exact right rfl _ _ queue passive (Or.inl ⟨by decide, 1, agentOne, got, Or.inl rfl⟩)

end Redundancy
end SerialModbus
