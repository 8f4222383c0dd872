import SerialModbus.Identifiers

/-! When the points can be connected. The driver says so from the start, and it is
right as soon as every name has its answer. -/
namespace SerialModbus.Readiness
open Global SerialModbusResources Identifiers

/- Every identifier to connect is the one answered for the name of its point. -/
def Connectable (exchanges : List Exchange) (r : SerialModbusResources) : Prop :=
  ∀ i, i < r.getNumberOfIds2Connect → ∃ (dp : PVSSDataPoint) (j index n : Nat), r.dps[i]? = some dp ∧
    (queries exchanges)[j]? = some index ∧ (answers exchanges)[j]? = some (some n) ∧
    dp.dpName = (r.getDpName4Query index).2 ∧ r.getId2Connect i = some (some n)

theorem connectableAll {exchanges : List Exchange} {r : SerialModbusResources} (placed : Placed exchanges r)
    (complete : (answers exchanges).length = (queries exchanges).length) : Connectable exchanges r := by
  intro i small
  have here : r.dps[i]? = some r.dps[i] := List.getElem?_eq_getElem small
  have mem : r.dps[i] ∈ given (queries exchanges) (answers exchanges) := by
    rw [← answeredAll placed complete]
    exact List.getElem_mem small
  obtain ⟨j, index, n, query, answer, same⟩ := memGiven.mp mem
  refine ⟨r.dps[i], j, index, n, here, query, answer, ?_, ?_⟩
  · rw [same]
    rfl
  · rw [getId2Connect, here, same]
    rfl

/- The point under the cursor has a null identifier. -/
theorem unconnectable {exchanges : List Exchange} {r : SerialModbusResources} (placed : Placed exchanges r)
    (room : (answers exchanges).length < (queries exchanges).length) : ¬ Connectable exchanges r := by
  obtain ⟨front, index, rest, _, _, points, _⟩ := underCursor placed room
  have here : r.dps[(given front (answers exchanges)).length]? = some (point index none) := by
    rw [points, List.getElem?_append_right (Nat.le_refl _), Nat.sub_self]
    rfl
  have small : (given front (answers exchanges)).length < r.getNumberOfIds2Connect :=
    (List.getElem?_eq_some_iff.mp here).1
  intro all
  obtain ⟨_, _, _, _, _, _, _, _, connect⟩ := all _ small
  rw [getId2Connect, here] at connect
  cases connect

theorem connectableExact {exchanges : List Exchange} (answerable : Answerable exchanges)
    {r : SerialModbusResources} (placed : Placed exchanges r) :
    Connectable exchanges r ↔ (answers exchanges).length = (queries exchanges).length := by
  constructor
  · intro all
    have even := answerable exchanges (List.prefix_refl _)
    by_contra differ
    exact unconnectable placed (Nat.lt_of_le_of_ne even differ) all
  · intro complete
    exact connectableAll placed complete

/- At every moment of every exchange of names and answers: what allIdsGot says is
right exactly when as many answers have come as names were asked for; with all names
asked for, exactly when there is an answer for each of them. -/
theorem readyExact (exchanges : List Exchange) (answerable : Answerable exchanges) :
    ∃ r, Runs.run step new exchanges = some r ∧
      (((allIdsGot r).2 = true → Connectable exchanges r) ↔
        (answers exchanges).length = (queries exchanges).length) ∧
      (queries exchanges = List.range getNumberOfDpNames →
        (((allIdsGot r).2 = true → Connectable exchanges r) ↔
          (answers exchanges).length = getNumberOfDpNames)) := by
  obtain ⟨r, ran, placed⟩ := runPlaced answerable
  have exact := connectableExact answerable placed
  have asks : ((allIdsGot r).2 = true → Connectable exchanges r) ↔ Connectable exchanges r :=
    forall_prop_of_true rfl
  refine ⟨r, ran, asks.trans exact, ?_⟩
  intro all
  rw [all, List.length_range] at exact
  exact asks.trans exact

theorem answersAsked (indices : List Nat) : answers (indices.map Exchange.query) = [] := by
  induction indices with
  | nil => rfl
  | cons index rest ih => exact ih

theorem queriesAsked (indices : List Nat) : queries (indices.map Exchange.query) = indices := by
  induction indices with
  | nil => rfl
  | cons index rest ih => exact congrArg (index :: ·) ih

theorem answersGiven (ids : List DpIdentifier) : answers (ids.map Exchange.answer) = ids := by
  induction ids with
  | nil => rfl
  | cons dpId rest ih => exact congrArg (dpId :: ·) ih

theorem queriesGiven (ids : List DpIdentifier) : queries (ids.map Exchange.answer) = [] := by
  induction ids with
  | nil => rfl
  | cons dpId rest ih => exact ih

/- Names first, then answers, is an exchange in order. -/
theorem askedAnswerable {indices : List Nat} {ids : List DpIdentifier} (few : ids.length ≤ indices.length) :
    Answerable (indices.map .query ++ ids.map .answer) := by
  intro pre before
  have heard : (answers pre).length ≤ (answers (indices.map .query ++ ids.map .answer)).length :=
    (before.filterMap _).length_le
  rcases List.prefix_or_prefix_of_prefix before (List.prefix_append _ _) with early | late
  · have silent : (answers pre).length ≤ (answers (indices.map .query)).length := (early.filterMap _).length_le
    rw [answersAsked] at silent
    exact Nat.le_trans silent (Nat.zero_le _)
  · have asked : (queries (indices.map .query)).length ≤ (queries pre).length := (late.filterMap _).length_le
    rw [queriesAsked] at asked
    rw [answersAppend, answersAsked, answersGiven] at heard
    exact Nat.le_trans heard (Nat.le_trans few asked)

def asked : List Exchange := (List.range getNumberOfDpNames).map .query

/- No agent has a point for its mode. -/
def modeless : List DpIdentifier :=
  (List.range getNumberOfDpNames).map (fun index => if index % DP_NUMBER_OF_ENTRIES = 0 then none else some index)

def answered : List Exchange := asked ++ modeless.map .answer

/- Every name is asked for and has its answer. -/
theorem readyExactAll : ∃ r, Runs.run step new answered = some r ∧ Connectable answered r := by
  have size : modeless.length = getNumberOfDpNames := (List.length_map _).trans List.length_range
  have few : modeless.length ≤ (List.range getNumberOfDpNames).length := by rw [size, List.length_range]
  have all : queries answered = List.range getNumberOfDpNames := by
    rw [answered, queriesAppend, asked, queriesAsked, queriesGiven, List.append_nil]
  have each : (answers answered).length = getNumberOfDpNames := by
    rw [answered, answersAppend, asked, answersAsked, answersGiven, List.nil_append, size]
  obtain ⟨r, ran, _, ready⟩ := readyExact answered (askedAnswerable few)
  exact ⟨r, ran, (ready all).mpr each rfl⟩

/- All names asked for and none answered: the driver is ready to connect nulls. -/
theorem notReady : ¬ ∀ (exchanges : List Exchange), Answerable exchanges →
    queries exchanges = List.range getNumberOfDpNames → ∀ r, Runs.run step new exchanges = some r →
      (allIdsGot r).2 = true → Connectable exchanges r := by
  intro all
  have answerable : Answerable asked := by
    intro pre before
    have quiet : answers pre <+: answers asked := before.filterMap _
    rw [asked, answersAsked] at quiet
    rw [List.prefix_nil.mp quiet]
    exact Nat.zero_le _
  obtain ⟨r, ran, placed⟩ := runPlaced answerable
  have connectable := all asked answerable (queriesAsked _) r ran rfl
  rw [connectableExact answerable placed, asked, answersAsked, queriesAsked, List.length_range] at connectable
  exact absurd connectable (by decide)

end SerialModbus.Readiness
