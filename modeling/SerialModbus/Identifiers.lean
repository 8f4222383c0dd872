import SerialModbus.Resources
import SerialModbus.Runs
import Mathlib.Data.List.Infix

/-! The names that are queried and the identifiers that come back. A null answer
deletes the point under the cursor, any other answer moves the cursor past it. -/
namespace SerialModbus.Identifiers
open Text Global SerialModbusResources

inductive Exchange where
  | query (index : Nat)
  | answer (dpId : DpIdentifier)
  deriving DecidableEq, Repr

def step (r : SerialModbusResources) : Exchange → Option SerialModbusResources
  | .query index => some (r.getDpName4Query index).1
  | .answer dpId => r.setDpIdentifier dpId

def queries (exchanges : List Exchange) : List Nat :=
  exchanges.filterMap (fun
    | .query index => some index
    | .answer _ => none)

def answers (exchanges : List Exchange) : List DpIdentifier :=
  exchanges.filterMap (fun
    | .query _ => none
    | .answer dpId => some dpId)

/- The j-th answer belongs to the j-th query and does not come before it. -/
def Answerable (exchanges : List Exchange) : Prop :=
  ∀ pre, pre <+: exchanges → (answers pre).length ≤ (queries pre).length
instance (exchanges) : Decidable (Answerable exchanges) :=
  decidable_of_iff (∀ pre ∈ exchanges.inits, (answers pre).length ≤ (queries pre).length)
    (by simp only [Answerable, List.mem_inits])

/- The data point of a queried index, with the identifier it was given. -/
def point (index : Nat) (dpId : DpIdentifier) : PVSSDataPoint := {dataPoint index with dpId := dpId}

def found (answered : Nat × DpIdentifier) : Option PVSSDataPoint :=
  if answered.2 = none then none else some (point answered.1 answered.2)

/- The points with an answer that is not null, in query order. -/
def given (indices : List Nat) (ids : List DpIdentifier) : List PVSSDataPoint :=
  (indices.zip ids).filterMap found

/- The points still without an answer, in query order. -/
def unanswered (indices : List Nat) (ids : List DpIdentifier) : List PVSSDataPoint :=
  (indices.drop ids.length).map (fun index => point index none)

def nonNull (ids : List DpIdentifier) : List DpIdentifier := ids.filter Option.isSome

structure Placed (exchanges : List Exchange) (r : SerialModbusResources) : Prop where
  points : r.dps = given (queries exchanges) (answers exchanges) ++
    unanswered (queries exchanges) (answers exchanges)
  cursor : r.identifier = (nonNull (answers exchanges)).length
  counted : r.count = (answers exchanges).length

theorem givenFront {front back : List Nat} {ids : List DpIdentifier} (same : front.length = ids.length) :
    given (front ++ back) ids = given front ids := by
  have pairs : (front ++ back).zip (ids ++ []) = front.zip ids ++ back.zip [] := List.zip_append same
  rw [List.append_nil, List.zip_nil_right, List.append_nil] at pairs
  rw [given, pairs, given]

theorem givenSnoc {front : List Nat} {ids : List DpIdentifier} (index : Nat) (dpId : DpIdentifier)
    (same : front.length = ids.length) :
    given (front ++ [index]) (ids ++ [dpId]) = given front ids ++ given [index] [dpId] := by
  rw [given, List.zip_append same, List.filterMap_append]
  rfl

theorem givenIds {front : List Nat} {ids : List DpIdentifier} (same : front.length = ids.length) :
    (given front ids).map PVSSDataPoint.dpId = nonNull ids := by
  induction front generalizing ids with
  | nil => cases List.length_eq_zero_iff.mp same.symm; rfl
  | cons index rest ih =>
    cases ids with
    | nil => contradiction
    | cons dpId ids =>
      have tail : (given rest ids).map PVSSDataPoint.dpId = nonNull ids := ih (by simpa using same)
      cases dpId with
      | none => exact tail
      | some n => exact congrArg (some n :: ·) tail

theorem unansweredFront {front back : List Nat} {ids : List DpIdentifier}
    (same : front.length = ids.length) :
    unanswered (front ++ back) ids = back.map (fun index => point index none) := by
  rw [unanswered, ← same, List.drop_left]

theorem queriesAppend (xs ys : List Exchange) : queries (xs ++ ys) = queries xs ++ queries ys :=
  List.filterMap_append

theorem answersAppend (xs ys : List Exchange) : answers (xs ++ ys) = answers xs ++ answers ys :=
  List.filterMap_append

/- The queries with an answer, and those without. -/
theorem queriesSplit {exchanges : List Exchange}
    (even : (answers exchanges).length ≤ (queries exchanges).length) :
    ∃ front back, queries exchanges = front ++ back ∧ front.length = (answers exchanges).length :=
  ⟨_, _, (List.take_append_drop (answers exchanges).length (queries exchanges)).symm,
    List.length_take_of_le even⟩

theorem queryPlaced {exchanges : List Exchange} {r : SerialModbusResources} (index : Nat)
    (placed : Placed exchanges r) (even : (answers exchanges).length ≤ (queries exchanges).length) :
    Placed (exchanges ++ [.query index]) (r.getDpName4Query index).1 := by
  obtain ⟨front, back, parts, same⟩ := queriesSplit even
  have ids : answers (exchanges ++ [.query index]) = answers exchanges :=
    (answersAppend exchanges _).trans (List.append_nil _)
  have indices : queries (exchanges ++ [.query index]) = front ++ (back ++ [index]) := by
    rw [queriesAppend, parts, List.append_assoc]
    rfl
  have points := placed.points
  rw [parts, givenFront same, unansweredFront same] at points
  refine ⟨?_, by rw [ids]; exact placed.cursor, by rw [ids]; exact placed.counted⟩
  have appended : (r.getDpName4Query index).1.dps = r.dps ++ [point index none] := rfl
  rw [indices, ids, givenFront same, unansweredFront same, appended, points, List.append_assoc,
    List.map_append]
  rfl

/- With an answer to come, the cursor is on the first point without one. -/
theorem underCursor {exchanges : List Exchange} {r : SerialModbusResources} (placed : Placed exchanges r)
    (room : (answers exchanges).length < (queries exchanges).length) :
    ∃ front index rest, queries exchanges = front ++ index :: rest ∧
      front.length = (answers exchanges).length ∧
      r.dps = given front (answers exchanges) ++
        point index none :: rest.map (fun index => point index none) ∧
      r.identifier = (given front (answers exchanges)).length := by
  obtain ⟨front, back, parts, same⟩ := queriesSplit (Nat.le_of_lt room)
  obtain ⟨index, rest, rfl⟩ : ∃ index rest, back = index :: rest := by
    apply List.exists_cons_of_length_pos
    rw [parts, List.length_append] at room
    omega
  have points := placed.points
  rw [parts, givenFront same, unansweredFront same] at points
  refine ⟨front, index, rest, parts, same, points, ?_⟩
  rw [placed.cursor, ← givenIds same, List.length_map]

/- What the points have to look like after an answer. -/
theorem placedAfter {exchanges : List Exchange} {s : SerialModbusResources} {dpId : DpIdentifier}
    {front rest : List Nat} {index : Nat} (parts : queries exchanges = front ++ index :: rest)
    (same : front.length = (answers exchanges).length)
    (points : s.dps = given front (answers exchanges) ++ (given [index] [dpId] ++
      rest.map (fun index => point index none)))
    (cursor : s.identifier = (nonNull (answers exchanges)).length + (nonNull [dpId]).length)
    (counted : s.count = (answers exchanges).length + 1) : Placed (exchanges ++ [.answer dpId]) s := by
  have indices : queries (exchanges ++ [.answer dpId]) = (front ++ [index]) ++ rest := by
    have silent : queries [Exchange.answer dpId] = [] := rfl
    rw [queriesAppend, parts, silent, List.append_nil, List.append_assoc]
    rfl
  have ids : answers (exchanges ++ [.answer dpId]) = answers exchanges ++ [dpId] := answersAppend exchanges _
  have longer : (front ++ [index]).length = (answers exchanges ++ [dpId]).length := by
    rw [List.length_append, List.length_append, same]
    rfl
  refine ⟨?_, ?_, ?_⟩
  · rw [indices, ids, givenFront longer, unansweredFront longer, givenSnoc index dpId same, points,
      List.append_assoc]
  · rw [ids, nonNull, List.filter_append, List.length_append]
    exact cursor
  · rw [ids, List.length_append]
    exact counted

/- A null answer: the point under the cursor goes, those behind it move up. -/
theorem nullPlaced {exchanges : List Exchange} {r : SerialModbusResources} (placed : Placed exchanges r)
    (room : (answers exchanges).length < (queries exchanges).length) :
    ∃ s, r.setDpIdentifier none = some s ∧ Placed (exchanges ++ [.answer none]) s := by
  obtain ⟨front, index, rest, parts, same, points, cursor⟩ := underCursor placed room
  have inside : r.identifier < r.dps.length := by
    rw [cursor, points, List.length_append, List.length_cons]
    omega
  have left : r.dps.eraseIdx r.identifier =
      given front (answers exchanges) ++ rest.map (fun index => point index none) := by
    rw [points, cursor, List.eraseIdx_append_of_length_le (Nat.le_refl _), Nat.sub_self]
    rfl
  refine ⟨_, by rw [setDpIdentifier, if_pos rfl, if_pos inside], ?_⟩
  exact placedAfter parts same left placed.cursor (congrArg (· + 1) placed.counted)

/- Any other answer: the point under the cursor takes it, and the cursor moves on. -/
theorem somePlaced {exchanges : List Exchange} {r : SerialModbusResources} (n : Nat)
    (placed : Placed exchanges r) (room : (answers exchanges).length < (queries exchanges).length) :
    ∃ s, r.setDpIdentifier (some n) = some s ∧ Placed (exchanges ++ [.answer (some n)]) s := by
  obtain ⟨front, index, rest, parts, same, points, cursor⟩ := underCursor placed room
  have here : r.dps[r.identifier]? = some (point index none) := by
    rw [points, cursor, List.getElem?_append_right (Nat.le_refl _), Nat.sub_self]
    rfl
  have next : r.dps.set r.identifier (point index (some n)) = given front (answers exchanges) ++
      (given [index] [some n] ++ rest.map (fun index => point index none)) := by
    rw [points, cursor, List.set_append_right _ _ (Nat.le_refl _), Nat.sub_self]
    rfl
  refine ⟨_, by rw [setDpIdentifier, if_neg (Option.some_ne_none n), here], ?_⟩
  exact placedAfter parts same next (congrArg (· + 1) placed.cursor) (congrArg (· + 1) placed.counted)

theorem answerPlaced {exchanges : List Exchange} {r : SerialModbusResources} (dpId : DpIdentifier)
    (placed : Placed exchanges r) (room : (answers exchanges).length < (queries exchanges).length) :
    ∃ s, r.setDpIdentifier dpId = some s ∧ Placed (exchanges ++ [.answer dpId]) s := by
  cases dpId with
  | none => exact nullPlaced placed room
  | some n => exact somePlaced n placed room

theorem startPlaced : Placed [] new := ⟨rfl, rfl, rfl⟩

/- Every answerable exchange runs, with each index in range, and keeps the points
in their places. -/
theorem runPlaced {exchanges : List Exchange} (answerable : Answerable exchanges) :
    ∃ r, Runs.run step new exchanges = some r ∧ Placed exchanges r := by
  apply Runs.progress (fun pre e => (answers pre).length ≤ (queries pre).length ∧
    (answers (pre ++ [e])).length ≤ (queries (pre ++ [e])).length)
  · intro pre e r placed fits
    cases e with
    | query index => exact ⟨_, rfl, queryPlaced index placed fits.1⟩
    | answer dpId =>
      apply answerPlaced dpId placed
      have room := fits.2
      rw [answersAppend, queriesAppend, List.length_append, List.length_append] at room
      exact room
  · exact startPlaced
  · intro pre e before
    exact ⟨answerable pre ((List.prefix_append pre [e]).trans before), answerable (pre ++ [e]) before⟩

theorem memGiven {indices : List Nat} {ids : List DpIdentifier} {dp : PVSSDataPoint} :
    dp ∈ given indices ids ↔ ∃ (j index n : Nat), indices[j]? = some index ∧ ids[j]? = some (some n) ∧
      dp = point index (some n) := by
  rw [given, List.mem_filterMap]
  constructor
  · rintro ⟨⟨index, dpId⟩, mem, same⟩
    obtain ⟨j, place⟩ := List.mem_iff_getElem?.mp mem
    obtain ⟨query, answer⟩ := List.getElem?_zip_eq_some.mp place
    cases dpId with
    | none => cases same
    | some n => exact ⟨j, index, n, query, answer, (Option.some.inj same).symm⟩
  · rintro ⟨j, index, n, query, answer, rfl⟩
    have place : (indices.zip ids)[j]? = some (index, some n) :=
      List.getElem?_zip_eq_some.mpr ⟨query, answer⟩
    exact ⟨(index, some n), List.mem_iff_getElem?.mpr ⟨j, place⟩, rfl⟩

theorem connected (r : SerialModbusResources) :
    (List.range r.getNumberOfIds2Connect).map r.getId2Connect =
      r.dps.map (fun dp => some dp.dpId) := by
  apply List.ext_getElem?
  intro i
  by_cases small : i < r.dps.length
  · simp [getNumberOfIds2Connect, getId2Connect, small]
  · simp [getNumberOfIds2Connect, small]

theorem answeredAll {exchanges : List Exchange} {r : SerialModbusResources} (placed : Placed exchanges r)
    (complete : (answers exchanges).length = (queries exchanges).length) :
    r.dps = given (queries exchanges) (answers exchanges) := by
  have none : unanswered (queries exchanges) (answers exchanges) = [] := by
    rw [unanswered, complete, List.drop_length]
    rfl
  rw [placed.points, none, List.append_nil]

/- At every step of every answerable exchange: the points that were given an
identifier, each with its own, then the unanswered ones, and the cursor between
them; once all are answered exactly the points with an identifier are left, and
these identifiers are the ones to connect. -/
theorem pointsInPlace (exchanges : List Exchange) (answerable : Answerable exchanges)
    (pre : List Exchange) (before : pre <+: exchanges) :
    ∃ r, Runs.run step new pre = some r ∧
      r.dps = given (queries pre) (answers pre) ++ unanswered (queries pre) (answers pre) ∧
      r.identifier = (nonNull (answers pre)).length ∧
      ((answers pre).length = (queries pre).length →
        (∀ dp, dp ∈ r.dps ↔ ∃ (j index n : Nat), (queries pre)[j]? = some index ∧
          (answers pre)[j]? = some (some n) ∧ dp = point index (some n)) ∧
        (List.range r.getNumberOfIds2Connect).map r.getId2Connect = (nonNull (answers pre)).map some) := by
  obtain ⟨r, ran, placed⟩ := runPlaced (fun part shorter => answerable part (shorter.trans before))
  refine ⟨r, ran, placed.points, placed.cursor, ?_⟩
  intro complete
  have all := answeredAll placed complete
  refine ⟨fun dp => by rw [all, memGiven], ?_⟩
  rw [connected, all, ← givenIds complete.symm, List.map_map]
  rfl

/- Two names are asked for before the answers start; the first point is missing. -/
theorem pointsInPlaceTwo : ∃ r, Runs.run step new
      [.query 0, .query 1, .answer none, .answer (some 7)] = some r ∧
    r.dps = [point 1 (some 7)] ∧ r.identifier = 1 := by
  obtain ⟨r, ran, points, cursor, _⟩ := pointsInPlace
    [.query 0, .query 1, .answer none, .answer (some 7)] (by decide) _ (List.prefix_refl _)
  exact ⟨r, ran, points, cursor⟩

end SerialModbus.Identifiers
