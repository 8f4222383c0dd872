import Mathlib.Data.List.Basic
import Mathlib.Tactic.Common

/-! Decimal text of signed integers, and reading it back. A text is a list of
characters; nothing here depends on a program that prints or parses one. -/
namespace SerialModbus.Decimal

def render : Int → List Char
  | .ofNat n => Nat.toDigits 10 n
  | .negSucc n => '-' :: Nat.toDigits 10 (n + 1)

/- One or more decimal digits and nothing else. -/
def magnitude (text : List Char) : Option Nat :=
  if text ≠ [] ∧ text.all Char.isDigit = true then some (Nat.ofDigitChars 10 text 0) else none

def parse : List Char → Option Int
  | '-' :: text => (magnitude text).map (fun n => -(n : Int))
  | '+' :: text => (magnitude text).map (fun n => (n : Int))
  | text => (magnitude text).map (fun n => (n : Int))

theorem digitsOfToDigits {n : Nat} {c : Char} (mem : c ∈ Nat.toDigits 10 n) : c.isDigit = true :=
  Nat.isDigit_of_mem_toDigits (by decide) (by decide) mem

theorem magnitudeToDigits (n : Nat) : magnitude (Nat.toDigits 10 n) = some n := by
  have shape : Nat.toDigits 10 n ≠ [] ∧ (Nat.toDigits 10 n).all Char.isDigit = true :=
    ⟨Nat.toDigits_ne_nil, List.all_eq_true.mpr (fun _ mem => digitsOfToDigits mem)⟩
  rw [magnitude, if_pos shape, Nat.ofDigitChars_ten_toDigits]

theorem parseUnsigned {c : Char} {text : List Char} (digit : c.isDigit = true) :
    parse (c :: text) = (magnitude (c :: text)).map (fun n => (n : Int)) := by
  unfold parse
  split
  · rename_i same
    cases same
    exact absurd digit (by decide)
  · rename_i same
    cases same
    exact absurd digit (by decide)
  · rfl

theorem parseRender (i : Int) : parse (render i) = some i := by
  cases i with
  | ofNat n =>
    cases h : Nat.toDigits 10 n with
    | nil => exact absurd h Nat.toDigits_ne_nil
    | cons c text =>
      have digit : c.isDigit = true := digitsOfToDigits (n := n) (by rw [h]; exact List.mem_cons_self)
      simp only [render, h]
      rw [parseUnsigned digit, ← h, magnitudeToDigits]
      rfl
  | negSucc n =>
    simp only [render, parse, magnitudeToDigits]
    rfl

theorem renderInjective {i j : Int} (same : render i = render j) : i = j := by
  have read := congrArg parse same
  rw [parseRender, parseRender] at read
  exact Option.some.inj read

theorem renderChars {i : Int} {c : Char} (mem : c ∈ render i) : c.isDigit = true ∨ c = '-' := by
  cases i with
  | ofNat n => exact Or.inl (digitsOfToDigits mem)
  | negSucc n =>
    rcases List.mem_cons.mp mem with sign | digit
    · exact Or.inr sign
    · exact Or.inl (digitsOfToDigits digit)

theorem renderOmits {c : Char} (digit : c.isDigit = false) (sign : c ≠ '-') (i : Int) :
    c ∉ render i := by
  intro mem
  rcases renderChars mem with h | h
  · rw [digit] at h
    contradiction
  · exact sign h

/- The first separator splits a text in one way only. -/
theorem splitUnique {α : Type} {mark : α} {left right rest other : List α}
    (leftFree : mark ∉ left) (rightFree : mark ∉ right)
    (same : left ++ mark :: rest = right ++ mark :: other) : left = right ∧ rest = other := by
  induction left generalizing right with
  | nil =>
    cases right with
    | nil => exact ⟨rfl, (List.cons.inj same).2⟩
    | cons c right => exact absurd ((List.cons.inj same).1 ▸ List.mem_cons_self) rightFree
  | cons c left ih =>
    cases right with
    | nil => exact absurd ((List.cons.inj same).1 ▸ List.mem_cons_self) leftFree
    | cons d right =>
      obtain ⟨head, tail⟩ := List.cons.inj same
      have deeper := ih (fun mem => leftFree (List.mem_cons_of_mem _ mem))
        (fun mem => rightFree (List.mem_cons_of_mem _ mem)) tail
      exact ⟨by rw [head, deeper.1], deeper.2⟩

end SerialModbus.Decimal
