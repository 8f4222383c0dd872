import Mathlib.Data.List.Basic
import Mathlib.Tactic.Common

/-! A cell that is written by attempts. One that is known to have succeeded has written its
value, one that failed may have written it or not. -/
namespace SerialModbus.Regular

variable {α : Type}

/- What is written to the cell, and whether that is known to have succeeded; none is an
attempt at something else. -/
abbrev Attempt (α : Type) := Option (α × Bool)

inductive Follows (before : α) : Attempt α → α → Prop where
  | other : Follows before none before
  | wrote (v : α) (known : Bool) : Follows before (some (v, known)) v
  | lost (v : α) : Follows before (some (v, false)) before

inductive History : α → List (Attempt α) → α → Prop where
  | done (v : α) : History v [] v
  | more {v u w : α} {a : Attempt α} {rest : List (Attempt α)} (first : Follows v a u) (later : History u rest w) :
      History v (a :: rest) w

/- The values the cell may have when it had one of these before. -/
def remember (values : List α) : Attempt α → List α
  | none => values
  | some (v, true) => [v]
  | some (v, false) => v :: values

def possible (initial : α) (attempts : List (Attempt α)) : List α := attempts.foldl remember [initial]

theorem rememberExact {values : List α} (some : values ≠ []) (a : Attempt α) (u : α) :
    u ∈ remember values a ↔ ∃ v ∈ values, Follows v a u := by
  obtain ⟨first, rest, rfl⟩ := List.exists_cons_of_ne_nil some
  constructor
  · intro mem
    match a, mem with
    | none, mem => exact ⟨u, mem, .other⟩
    | .some (v, true), mem =>
      cases List.mem_singleton.mp mem
      exact ⟨first, List.mem_cons_self .., .wrote u true⟩
    | .some (v, false), mem =>
      rcases List.mem_cons.mp mem with rfl | before
      · exact ⟨first, List.mem_cons_self .., .wrote u false⟩
      · exact ⟨u, before, .lost v⟩
  · rintro ⟨v, mem, follows⟩
    cases follows with
    | other => exact mem
    | wrote v known => cases known <;> exact List.mem_cons_self ..
    | lost v => exact List.mem_cons_of_mem v mem

theorem rememberSome {values : List α} (some : values ≠ []) (a : Attempt α) : remember values a ≠ [] := by
  match a with
  | none => exact some
  | .some (v, true) => exact List.cons_ne_nil _ _
  | .some (v, false) => exact List.cons_ne_nil _ _

theorem foldExact {values : List α} (some : values ≠ []) (attempts : List (Attempt α)) (w : α) :
    w ∈ attempts.foldl remember values ↔ ∃ v ∈ values, History v attempts w := by
  induction attempts generalizing values with
  | nil =>
    constructor
    · intro mem
      exact ⟨w, mem, .done w⟩
    · rintro ⟨v, mem, history⟩
      cases history
      exact mem
  | cons a rest ih =>
    rw [List.foldl_cons, ih (rememberSome some a)]
    constructor
    · rintro ⟨u, mem, later⟩
      obtain ⟨v, before, first⟩ := (rememberExact some a u).mp mem
      exact ⟨v, before, .more first later⟩
    · rintro ⟨v, before, history⟩
      cases history with
      | more first later => exact ⟨_, (rememberExact some a _).mpr ⟨v, before, first⟩, later⟩

/- The possible values are those that some history of the cell ends with. -/
theorem possibleExact (initial : α) (attempts : List (Attempt α)) (w : α) :
    w ∈ possible initial attempts ↔ History initial attempts w := by
  rw [possible, foldExact (List.cons_ne_nil _ _)]
  simp

end SerialModbus.Regular
