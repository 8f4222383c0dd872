import SerialModbus.Redundancy
import Mathlib.Data.List.Sort

/-! How the service ends. stop() has every master enqueue a last status, while the
poll threads still run, and the destructor deletes what is left in the queues. -/
namespace SerialModbus
open Text Global HWService

def MBusAbstract.stop (m : MBusAbstract) (isRedActive : Bool) (replica : Int) : MBusAbstract × DpValue :=
  let m := {m with running := false}
  (m, m.setAgentStatus isRedActive replica Status.STOPPED.code)

namespace Shutdown
open Delivery

/- foreach takes a QMap in the order of its keys. -/
def masters (d : Driver) : List (Int × MBusAbstract) :=
  (d.mbus.entries.map fun entry => (entry.1, entry.2)).insertionSort (fun a b => a.1 ≤ b.1)

/- left is the masters stop() has still to visit, final what it has enqueued. -/
structure Closing where
  service : Service
  left : List (Int × MBusAbstract)
  final : List DpValue

def stop (s : Service) : Closing := ⟨s, masters s.process.driver, []⟩

inductive Event where
  | setStatus (thread : Nat) (agent addr reference type : Int) (value : QString) (invalid : Bool)
  | setDpValue (thread : Nat) (dpId : DpIdentifier) (value : Variable)
  | stopNext (isRedActive : Bool)
  deriving DecidableEq, Repr

/- The manager thread is thread 0. -/
def step (pvss : Pvss) (replica : Int) (c : Closing) : Event → Option Closing
  | .setStatus thread agent addr reference type value invalid => do
      let service ← act pvss c.service (.setStatus thread agent addr reference type value invalid)
      some {c with service := service}
  | .setDpValue thread dpId value => do
      let service ← act pvss c.service (.setDpValue thread dpId value)
      some {c with service := service}
  | .stopNext isRedActive =>
      match c.left with
      | (k, m) :: rest => do
          let (m, v) := m.stop isRedActive replica
          let process := {c.service.process with driver := c.service.process.driver.addMBus k m}
          let service ← act pvss {c.service with process := process} (.setDpValue 0 v.dpId v.value)
          some ⟨service, rest, c.final ++ [v]⟩
      | [] => none

/- What qDeleteAll deletes. -/
def destroy (p : Process) : List Message × List DpValue := (p.messages, p.dpValues)

/- What the poll threads enqueue. -/
def post : Event → List Action
  | .setStatus thread agent addr reference type value invalid =>
      [.setStatus thread agent addr reference type value invalid]
  | .setDpValue thread dpId value => [.setDpValue thread dpId value]
  | .stopNext _ => []

def posts (during : List Event) : List Action := during.flatMap post

/- All that was enqueued before stop() or by it has been handed to the manager, and
the destructor deletes only what the poll threads enqueued since. -/
structure Handed (before : List Action) (during : List Event) (t : Closing) : Prop where
  messages : stores t.service.process.calls = (sentMessages before).map arguments
  dpValues : sets t.service.process.calls = sentValues before ++ t.final
  destroyed : destroy t.service.process = (sentMessages (posts during), sentValues (posts during))

/- Nothing waits and there is no master. -/
def Clear (s : Service) : Prop :=
  s.process.messages = [] ∧ s.process.dpValues = [] ∧ ∀ k, s.process.driver.getMBus k = none

theorem mastersNone (d : Driver) : masters d = [] ↔ ∀ k, d.getMBus k = none := by
  have length : (masters d).length = d.mbus.entries.length := by
    rw [masters, List.length_insertionSort, List.length_map]
  constructor
  · intro none k
    rw [none, List.length_nil] at length
    have empty : d.mbus = ∅ := AList.ext (List.eq_nil_of_length_eq_zero length.symm)
    rw [Driver.getMBus, empty, AList.lookup_empty]
  · intro none
    cases found : d.mbus.entries with
    | nil =>
      rw [found] at length
      exact List.eq_nil_of_length_eq_zero length
    | cons entry rest =>
      obtain ⟨k, m⟩ := entry
      have here : m ∈ d.mbus.lookup k := by
        rw [AList.mem_lookup_iff, found]
        exact List.mem_cons_self
      rw [show d.mbus.lookup k = Option.none from none k] at here
      contradiction

/-! stop() and the poll threads only enqueue. -/

structure Closes (c : Closing) (during : List Event) (t : Closing) : Prop where
  calls : t.service.process.calls = c.service.process.calls
  messages : t.service.process.messages = c.service.process.messages ++ sentMessages (posts during)
  visited : t.final.length + t.left.length = c.final.length + c.left.length
  dpValues : t.final = [] → t.service.process.dpValues = c.service.process.dpValues ++ sentValues (posts during)

theorem postsSnoc (during : List Event) (e : Event) : posts (during ++ [e]) = posts during ++ post e := by
  simp [posts]

theorem closesStep {pvss : Pvss} {replica : Int} {c t u : Closing} {during : List Event} (e : Event)
    (closes : Closes c during t) (ok : step pvss replica t e = some u) : Closes c (during ++ [e]) u := by
  obtain ⟨calls, messages, visited, dpValues⟩ := closes
  obtain ⟨⟨p, position⟩, visiting, final⟩ := t
  cases e with
  | setStatus thread agent addr reference type value invalid =>
    obtain ⟨service, moved, last⟩ := Option.bind_eq_some_iff.mp ok
    cases Option.some.inj last
    cases actDoes moved
    refine ⟨calls, ?_, visited, fun none => ?_⟩
    · rw [postsSnoc, sentMessagesAppend, ← List.append_assoc, ← messages]
      rfl
    · rw [postsSnoc, sentValuesAppend, ← List.append_assoc, ← dpValues none]
      exact (List.append_nil _).symm
  | setDpValue thread dpId value =>
    obtain ⟨service, moved, last⟩ := Option.bind_eq_some_iff.mp ok
    cases Option.some.inj last
    cases actDoes moved
    refine ⟨calls, ?_, visited, fun none => ?_⟩
    · rw [postsSnoc, sentMessagesAppend, ← List.append_assoc, ← messages]
      exact (List.append_nil _).symm
    · rw [postsSnoc, sentValuesAppend, ← List.append_assoc, ← dpValues none]
      rfl
  | stopNext isRedActive =>
    simp only [step] at ok
    split at ok <;> try contradiction
    obtain ⟨service, moved, last⟩ := Option.bind_eq_some_iff.mp ok
    cases Option.some.inj last
    cases actDoes moved
    refine ⟨calls, ?_, ?_, fun none => ?_⟩
    · rw [postsSnoc, sentMessagesAppend, ← List.append_assoc, ← messages]
      exact (List.append_nil _).symm
    · simp only [List.length_append, List.length_cons, List.length_nil] at visited ⊢
      omega
    · exact absurd none (List.append_ne_nil_of_right_ne_nil _ (List.cons_ne_nil _ _))

theorem runCloses {pvss : Pvss} {replica : Int} {s : Service} {t : Closing} {during : List Event}
    (ok : Runs.run (step pvss replica) (stop s) during = some t) : Closes (stop s) during t := by
  refine Runs.history (fun _ e _ _ closes moved => closesStep e closes moved) ?_ ok
  exact ⟨rfl, (List.append_nil _).symm, rfl, fun _ => (List.append_nil _).symm⟩

/- What was enqueued is what was handed over and what waits. -/
theorem runQueued {pvss : Pvss} {driver : Driver} {mapper : HWMapper} {before : List Action} {s : Service}
    (ok : Runs.run (act pvss) (Redundancy.configured driver mapper) before = some s) :
    stores s.process.calls ++ s.process.messages.map arguments = (sentMessages before).map arguments ∧
      sets s.process.calls ++ s.process.dpValues = sentValues before := by
  have viewed : Runs.run Mailbox.step Mailbox.empty (before.flatMap events) = some (view s) :=
    Runs.simulates (fun _ _ _ moved => actView moved) ok
  have inv := Mailbox.runOrdered viewed
  have fifo := inv.fifo
  have fifoSecond := inv.fifoSecond
  rw [postsSent, view, firstsStores] at fifo
  rw [secondPostsSent, view, secondsSets] at fifoSecond
  exact ⟨fifo, fifoSecond⟩

/- From any reachable state, with the poll threads running until stop() returns:
nothing is lost exactly when nothing waited and there was no master to stop. -/
theorem handedExact (pvss : Pvss) (replica : Int) (driver : Driver) (mapper : HWMapper) (before : List Action)
    (during : List Event) (s : Service) (t : Closing)
    (reached : Runs.run (act pvss) (Redundancy.configured driver mapper) before = some s)
    (stopping : Runs.run (step pvss replica) (stop s) during = some t) (returned : t.left = []) :
    Handed before during t ↔ Clear s := by
  obtain ⟨first, second⟩ := runQueued reached
  obtain ⟨calls, messages, visited, dpValues⟩ := runCloses stopping
  have count : t.final.length = (masters s.process.driver).length := by
    rw [returned] at visited
    simpa [stop] using visited
  constructor
  · intro handed
    have stored := handed.messages
    have set := handed.dpValues
    rw [calls] at stored set
    rw [← first] at stored
    rw [← second] at set
    have lengths := congrArg List.length set
    simp only [stop, List.length_append] at lengths
    refine ⟨?_, ?_, ?_⟩
    · simpa [stop] using stored
    · exact List.eq_nil_of_length_eq_zero (by omega)
    · exact (mastersNone _).mp (List.eq_nil_of_length_eq_zero (by omega))
  · rintro ⟨noMessage, noValue, noMaster⟩
    have none : t.final = [] := by
      rw [(mastersNone _).mpr noMaster] at count
      exact List.eq_nil_of_length_eq_zero count
    refine ⟨?_, ?_, ?_⟩
    · rw [calls, ← first, noMessage]
      exact (List.append_nil _).symm
    · rw [calls, ← second, noValue, none, List.append_nil, List.append_nil]
      rfl
    · rw [destroy, messages, dpValues none, show (stop s).service = s from rfl, noMessage, noValue]
      rfl

/- No master, and a workProc between the message and stop(). -/
theorem handedExactOne : ∃ s t,
    Runs.run (act Pvss.front) (Redundancy.configured Driver.new ⟨[], []⟩) oneRound = some s ∧
    Runs.run (step Pvss.front 1) (stop s) [.setDpValue 1 (some 8) (.bit false)] = some t ∧
    Handed oneRound [.setDpValue 1 (some 8) (.bit false)] t := by
  refine ⟨_, _, rfl, rfl, ?_⟩
  exact (handedExact Pvss.front 1 Driver.new ⟨[], []⟩ oneRound [.setDpValue 1 (some 8) (.bit false)] _ _ rfl rfl
    rfl).mpr ⟨rfl, rfl, fun _ => rfl⟩

/- The stopped status of a master is deleted with the queue it waits in. -/
theorem notHanded : ¬ ∀ (pvss : Pvss) (replica : Int) (driver : Driver) (mapper : HWMapper) (before : List Action)
    (during : List Event) (s : Service) (t : Closing),
    Runs.run (act pvss) (Redundancy.configured driver mapper) before = some s →
    Runs.run (step pvss replica) (stop s) during = some t → t.left = [] → Handed before during t := by
  intro all
  have handed := all Pvss.front 1 Redundancy.driverOne ⟨[], []⟩ [] [.stopNext true] _ _ rfl rfl rfl
  exact absurd handed.dpValues (by decide)

end Shutdown
end SerialModbus
