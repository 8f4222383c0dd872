import Mathlib.Logic.Function.Iterate

/-! Trying again. An attempt changes the state and has a result; some results ask
for another attempt, and the number of further attempts is limited. -/
namespace SerialModbus.Retry

variable {σ ρ : Type} {attempt : σ → ρ × σ} {again : ρ → Bool}

def retry (attempt : σ → ρ × σ) (again : ρ → Bool) : Nat → σ → ρ × σ
  | 0, s => attempt s
  | n + 1, s =>
      if again (attempt s).1 then retry attempt again n (attempt s).2 else attempt s

/- The state before attempt number k, counted from zero. -/
def before (attempt : σ → ρ × σ) (s : σ) (k : Nat) : σ := (fun s => (attempt s).2)^[k] s

@[simp] theorem beforeZero (s : σ) : before attempt s 0 = s := rfl

theorem beforeSucc (s : σ) (k : Nat) :
    before attempt s (k + 1) = before attempt (attempt s).2 k := rfl

theorem beforeLast (s : σ) (k : Nat) :
    before attempt s (k + 1) = (attempt (before attempt s k)).2 := Function.iterate_succ_apply' _ k s

/- k attempts asked for another one, and the attempt after them was the last. -/
structure Stops (attempt : σ → ρ × σ) (again : ρ → Bool) (n : Nat) (s : σ) (k : Nat) : Prop where
  within : k ≤ n
  failed : ∀ j < k, again (attempt (before attempt s j)).1 = true
  last : k = n ∨ again (attempt (before attempt s k)).1 = false

theorem stopsCons {n : Nat} {s : σ} {k : Nat} (first : again (attempt s).1 = true)
    (rest : Stops attempt again n (attempt s).2 k) : Stops attempt again (n + 1) s (k + 1) := by
  refine ⟨Nat.succ_le_succ rest.within, ?_, ?_⟩
  · intro j less
    cases j with
    | zero => exact first
    | succ j => exact rest.failed j (Nat.lt_of_succ_lt_succ less)
  · exact rest.last.imp_left (congrArg Nat.succ)

/- What a retry returns is what its last attempt returned. -/
theorem retryStops (attempt : σ → ρ × σ) (again : ρ → Bool) (n : Nat) (s : σ) :
    ∃ k, Stops attempt again n s k ∧ retry attempt again n s = attempt (before attempt s k) := by
  induction n generalizing s with
  | zero => exact ⟨0, ⟨Nat.le_refl 0, fun j less => absurd less (Nat.not_lt_zero j), Or.inl rfl⟩, rfl⟩
  | succ n ih =>
    unfold retry
    split
    · rename_i first
      obtain ⟨k, stops, same⟩ := ih (attempt s).2
      exact ⟨k + 1, stopsCons first stops, same⟩
    · rename_i first
      refine ⟨0, ⟨Nat.zero_le _, fun j less => absurd less (Nat.not_lt_zero j), Or.inr ?_⟩, rfl⟩
      simpa using first

/- What every attempt keeps, a retry keeps. -/
theorem retryKeeps {P : σ → Prop} (keeps : ∀ s, P s → P (attempt s).2) (n : Nat) {s : σ} (start : P s) :
    P (retry attempt again n s).2 := by
  induction n generalizing s with
  | zero => exact keeps s start
  | succ n ih =>
    unfold retry
    split
    · exact ih (keeps s start)
    · exact keeps s start

theorem beforeKeeps {P : σ → Prop} (keeps : ∀ s, P s → P (attempt s).2) {s : σ} (start : P s) (k : Nat) :
    P (before attempt s k) := by
  induction k generalizing s with
  | zero => exact start
  | succ k ih => exact ih (keeps s start)

end SerialModbus.Retry
