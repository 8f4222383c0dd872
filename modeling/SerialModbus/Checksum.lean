import Mathlib.Algebra.BigOperators.Group.List.Basic
import Mathlib.Tactic.Abel

/-! The sum of a list over a group as a check: it notices one changed entry. -/
namespace SerialModbus.Checksum

variable {G : Type} [AddCommGroup G]

theorem sumSet (xs : List G) (i : Nat) (x : G) (within : i < xs.length) :
    (xs.set i x).sum = xs.sum - xs[i] + x := by
  have whole : xs.sum = (xs.take i).sum + xs[i] + (xs.drop (i + 1)).sum := by
    conv_lhs => rw [← List.take_append_drop i xs, List.drop_eq_getElem_cons within]
    rw [List.sum_append, List.sum_cons, add_assoc]
  rw [List.sum_set, if_pos within, whole]
  abel

/- One changed entry changes the sum. -/
theorem sumSetSame {xs : List G} {i : Nat} {x : G} (within : i < xs.length)
    (same : (xs.set i x).sum = xs.sum) : x = xs[i] := by
  rw [sumSet xs i x within, sub_add] at same
  exact (sub_eq_zero.mp (sub_eq_self.mp same)).symm

end SerialModbus.Checksum
