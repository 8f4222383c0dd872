import Mathlib.Data.List.Induction
import Mathlib.Tactic.Common

/-! Finite runs of a deterministic machine whose steps may fail. A run that
meets a failing step has no state after it, and nothing is said of it. -/
namespace SerialModbus.Runs

variable {σ α : Type} {step : σ → α → Option σ}

def run (step : σ → α → Option σ) : σ → List α → Option σ
  | s, [] => some s
  | s, a :: rest => do
      let t ← step s a
      run step t rest

@[simp] theorem runNil (s : σ) : run step s [] = some s := rfl

@[simp] theorem runCons (s : σ) (a : α) (rest : List α) :
    run step s (a :: rest) = (step s a).bind (fun t => run step t rest) := rfl

theorem runAppend (s : σ) (xs ys : List α) :
    run step s (xs ++ ys) = (run step s xs).bind (fun t => run step t ys) := by
  induction xs generalizing s with
  | nil => rfl
  | cons a rest ih =>
    simp only [List.cons_append, runCons, Option.bind_assoc]
    congr 1
    funext t
    exact ih t

theorem runSnoc (s : σ) (xs : List α) (a : α) :
    run step s (xs ++ [a]) = (run step s xs).bind (fun t => step t a) := by
  rw [runAppend]
  congr 1
  funext t
  simp

theorem runSnocSome {s u : σ} {xs : List α} {a : α} (ok : run step s (xs ++ [a]) = some u) :
    ∃ t, run step s xs = some t ∧ step t a = some u := by
  rw [runSnoc] at ok
  exact Option.bind_eq_some_iff.mp ok

theorem runMap {β : Type} {f : β → α} (s : σ) (xs : List β) :
    run step s (xs.map f) = run (fun s b => step s (f b)) s xs := by
  induction xs generalizing s with
  | nil => rfl
  | cons b rest ih =>
    simp only [List.map_cons, runCons]
    congr 1
    funext t
    exact ih t

theorem invariant {P : σ → Prop} (keeps : ∀ s a t, P s → step s a = some t → P t)
    {s t : σ} {xs : List α} (start : P s) (ok : run step s xs = some t) : P t := by
  induction xs generalizing s with
  | nil => exact Option.some.inj ok ▸ start
  | cons a rest ih =>
    obtain ⟨u, hu, tail⟩ := Option.bind_eq_some_iff.mp ok
    exact ih (keeps s a u start hu) tail

/- An invariant that also speaks of the inputs read so far. -/
theorem history {P : List α → σ → Prop} {s : σ}
    (keeps : ∀ xs a t u, P xs t → step t a = some u → P (xs ++ [a]) u)
    (start : P [] s) {xs : List α} {t : σ} (ok : run step s xs = some t) : P xs t := by
  induction xs using List.reverseRecOn generalizing t with
  | nil => exact Option.some.inj ok ▸ start
  | append_singleton xs a ih =>
    obtain ⟨u, hu, last⟩ := runSnocSome ok
    exact keeps xs a u t (ih hu) last

/- Every input is accepted when the invariant promises it at each state. -/
theorem progress {P : List α → σ → Prop} (Fits : List α → α → Prop) {s : σ}
    (moves : ∀ xs a t, P xs t → Fits xs a → ∃ u, step t a = some u ∧ P (xs ++ [a]) u)
    (start : P [] s) (xs : List α) (fits : ∀ pre a, pre ++ [a] <+: xs → Fits pre a) :
    ∃ t, run step s xs = some t ∧ P xs t := by
  induction xs using List.reverseRecOn with
  | nil => exact ⟨s, rfl, start⟩
  | append_singleton xs a ih =>
    obtain ⟨t, ht, inv⟩ := ih (fun pre b before => fits pre b (before.trans (List.prefix_append _ _)))
    obtain ⟨u, hu, next⟩ := moves xs a t inv (fits xs a (List.prefix_refl _))
    exact ⟨u, by rw [runSnoc, ht]; exact hu, next⟩

/- A machine whose every step is a few steps of another one runs along it. -/
theorem simulates {τ β : Type} {other : τ → β → Option τ} {view : σ → τ} {events : α → List β}
    (each : ∀ s a t, step s a = some t → run other (view s) (events a) = some (view t))
    {s t : σ} {xs : List α} (ok : run step s xs = some t) :
    run other (view s) (xs.flatMap events) = some (view t) := by
  induction xs generalizing s with
  | nil => exact congrArg (fun s => some (view s)) (Option.some.inj ok)
  | cons a rest ih =>
    obtain ⟨u, first, tail⟩ := Option.bind_eq_some_iff.mp ok
    rw [List.flatMap_cons, runAppend, each s a u first, Option.bind_some]
    exact ih tail

def Throughout (step : σ → α → Option σ) (P : σ → Prop) (s : σ) (xs : List α) : Prop :=
  ∀ pre t, pre <+: xs → run step s pre = some t → P t

def EachStep (step : σ → α → Option σ) (C : σ → α → Prop) (s : σ) (xs : List α) : Prop :=
  ∀ pre a t u, pre ++ [a] <+: xs → run step s pre = some t → step t a = some u → C t a

/- When a step keeps the property exactly under the condition, a run keeps it
throughout exactly when each of its steps meets the condition. I is what every
step keeps anyway. -/
theorem throughoutExact {I P : σ → Prop} {C : σ → α → Prop}
    (keeps : ∀ s a t, I s → step s a = some t → I t)
    (exact : ∀ s a t, I s → P s → step s a = some t → (P t ↔ C s a))
    {s : σ} (base : I s) (start : P s) (xs : List α) :
    Throughout step P s xs ↔ EachStep step C s xs := by
  constructor
  · intro all pre a t u before ht hu
    have here := all pre t ((List.prefix_append pre [a]).trans before) ht
    have next := all (pre ++ [a]) u before (by rw [runSnoc, ht]; exact hu)
    exact (exact t a u (invariant keeps base ht) here hu).mp next
  · intro each pre
    -- induction on the length of the prefix: its last step is one of the steps of the run
    induction pre using List.reverseRecOn with
    | nil =>
      intro t _ ht
      exact Option.some.inj ht ▸ start
    | append_singleton pre a ih =>
      intro u before hu
      obtain ⟨t, ht, last⟩ := runSnocSome hu
      have here := ih t ((List.prefix_append pre [a]).trans before) ht
      exact (exact t a u (invariant keeps base ht) here last).mpr (each pre a t u before ht last)

/- An invariant that a step keeps under the condition holds throughout a run whose
steps all meet it. -/
theorem eachInvariant {I : σ → Prop} {C : σ → α → Prop}
    (keeps : ∀ s a t, I s → C s a → step s a = some t → I t)
    {s : σ} {xs : List α} (start : I s) (each : EachStep step C s xs) : Throughout step I s xs := by
  intro pre
  induction pre using List.reverseRecOn with
  | nil =>
    intro t _ ht
    exact Option.some.inj ht ▸ start
  | append_singleton pre a ih =>
    intro u before hu
    obtain ⟨t, ht, last⟩ := runSnocSome hu
    exact keeps t a u (ih t ((List.prefix_append pre [a]).trans before) ht) (each pre a t u before ht last) last

/- The condition at each step of a run is the condition at each step after a part of it. -/
theorem eachRest {C : σ → α → Prop} {s t : σ} {xs ys : List α} (each : EachStep step C s (xs ++ ys))
    (ok : run step s xs = some t) : EachStep step C t ys := by
  intro pre a u v before hu hv
  refine each (xs ++ pre) a u v ?_ ?_ hv
  · rw [List.append_assoc]
    exact (List.prefix_append_right_inj xs).mpr before
  · rw [runAppend, ok]
    exact hu

theorem eachCons {C : σ → α → Prop} {s : σ} {a : α} {rest : List α} (first : C s a)
    (later : ∀ t, step s a = some t → EachStep step C t rest) : EachStep step C s (a :: rest) := by
  intro pre b t u before ht hu
  cases pre with
  | nil =>
    cases Option.some.inj ht
    cases (List.cons_prefix_cons.mp before).1
    exact first
  | cons c pre =>
    obtain ⟨rfl, less⟩ := List.cons_prefix_cons.mp before
    obtain ⟨v, hv, reached⟩ := Option.bind_eq_some_iff.mp ht
    exact later v hv pre b t u less reached hu

theorem eachSnoc {C : σ → α → Prop} {s : σ} {xs : List α} {a : α} (each : EachStep step C s xs)
    (last : ∀ t, run step s xs = some t → C t a) : EachStep step C s (xs ++ [a]) := by
  intro pre b t u before ht hu
  rcases List.prefix_concat_iff.mp before with whole | early
  · obtain ⟨rfl, same⟩ := List.append_inj' whole rfl
    cases List.singleton_inj.mp same
    exact last t ht
  · exact each pre b t u early ht hu

theorem eachStepIff {I : σ → Prop} {C D : σ → α → Prop}
    (keeps : ∀ s a t, I s → step s a = some t → I t)
    (same : ∀ s a t, I s → step s a = some t → (C s a ↔ D s a))
    {s : σ} (base : I s) (xs : List α) : EachStep step C s xs ↔ EachStep step D s xs := by
  have here : ∀ pre a t u, run step s pre = some t → step t a = some u → (C t a ↔ D t a) :=
    fun pre a t u ht hu => same t a u (invariant keeps base ht) hu
  constructor
  · intro each pre a t u before ht hu
    exact (here pre a t u ht hu).mp (each pre a t u before ht hu)
  · intro each pre a t u before ht hu
    exact (here pre a t u ht hu).mpr (each pre a t u before ht hu)

end SerialModbus.Runs
