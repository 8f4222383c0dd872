import Mathlib.Data.List.DropRight
import Mathlib.Tactic.Common

/-! Sliding windows over a growing history, and the rule that lets a sample
through only when its whole window agrees with it. -/
namespace SerialModbus.Window

variable {α β : Type}

theorem rtakeLength (n : Nat) (xs : List α) : (xs.rtake n).length = min n xs.length := by
  rw [List.rtake, List.length_drop]
  omega

theorem rtakeShort {n : Nat} {xs : List α} (short : xs.length ≤ n) : xs.rtake n = xs := by
  rw [List.rtake, Nat.sub_eq_zero_of_le short, List.drop_zero]

theorem rtakeMap (f : α → β) (n : Nat) (xs : List α) : (xs.map f).rtake n = (xs.rtake n).map f := by
  rw [List.rtake, List.rtake, List.length_map, List.map_drop]

theorem rtakeAppend {n : Nat} {xs : List α} (ys : List α) (long : n ≤ xs.length) :
    (ys ++ xs).rtake n = xs.rtake n := by
  rw [List.rtake, List.rtake, List.length_append, List.drop_append]
  have all : ys.drop (ys.length + xs.length - n) = [] := List.drop_eq_nil_of_le (by omega)
  have shift : ys.length + xs.length - n - ys.length = xs.length - n := by omega
  rw [all, shift, List.nil_append]

theorem rtakeSnoc (n : Nat) (xs : List α) (x : α) :
    (xs ++ [x]).rtake n = if n = 0 then [] else xs.rtake (n - 1) ++ [x] := by
  cases n with
  | zero => simp
  | succ n => simp

/- One more sample in a window of n. -/
def slide (n : Nat) (window : List α) (x : α) : List α := (window ++ [x]).rtake n

theorem slideHistory (n : Nat) (xs : List α) (x : α) : slide n (xs.rtake n) x = (xs ++ [x]).rtake n := by
  by_cases short : xs.length ≤ n
  · rw [slide, rtakeShort short]
  · have size : (xs.rtake n).length = n := by rw [rtakeLength]; omega
    have split : xs = xs.take (xs.length - n) ++ xs.rtake n := by
      rw [List.rtake, List.take_append_drop]
    have long : n ≤ (xs.rtake n ++ [x]).length := by simp [size]
    calc slide n (xs.rtake n) x = (xs.rtake n ++ [x]).rtake n := rfl
      _ = (xs.take (xs.length - n) ++ (xs.rtake n ++ [x])).rtake n := (rtakeAppend _ long).symm
      _ = (xs ++ [x]).rtake n := by rw [← List.append_assoc, ← split]

def Settled (window : List α) (x : α) : Prop := ∀ y ∈ window, y = x
instance [DecidableEq α] (window : List α) (x : α) : Decidable (Settled window x) := by
  unfold Settled; infer_instance

theorem settledMap {f : α → β} {window : List α} {x : α} :
    Settled (window.map f) (f x) ↔ ∀ y ∈ window, f y = f x := by
  simp [Settled]

/- The newest sample always agrees with itself, so the older ones decide. -/
theorem settledSnoc (n : Nat) (xs : List α) (x : α) :
    Settled ((xs ++ [x]).rtake n) x ↔ Settled (xs.rtake (n - 1)) x := by
  rw [rtakeSnoc]
  split
  · rename_i zero
    subst n
    simp [Settled]
  · simp only [Settled, List.mem_append, List.mem_singleton]
    constructor
    · intro all y mem
      exact all y (Or.inl mem)
    · rintro all y (mem | rfl)
      · exact all y mem
      · rfl

/- Two different samples cannot settle in one window: the later one has its
whole window behind the earlier one. -/
theorem settledAfter {n : Nat} {before after : List α} {x y : α} (differ : x ≠ y)
    (settled : Settled ((before ++ x :: after).rtake n) y) :
    n ≤ after.length ∧ Settled (after.rtake n) y := by
  by_cases long : n ≤ after.length
  · have same : (before ++ x :: after).rtake n = after.rtake n := by
      rw [show before ++ x :: after = (before ++ [x]) ++ after by simp]
      exact rtakeAppend _ long
    exact ⟨long, same ▸ settled⟩
  · -- the window reaches back to x, which is not y
    have reach : x ∈ (before ++ x :: after).rtake n := by
      rw [List.rtake, List.length_append, List.length_cons, List.drop_append]
      apply List.mem_append_right
      have start : before.length + (after.length + 1) - n - before.length = 0 := by omega
      rw [start]
      exact List.mem_cons_self
    exact absurd (settled x reach) differ

end SerialModbus.Window
