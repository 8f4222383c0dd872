import SerialModbus.Runs

/-! Two queues under one lock. Anyone may post to either while the lock is open;
the receiver takes all of the first queue, then all of the second, and opens the
lock again. Each queue is delivered in order, and what was posted to the first
queue before an item of the second is taken before that item. -/
namespace SerialModbus.Mailbox
open Runs

inductive Phase where
  | opened
  | takingFirst
  | takingSecond
  deriving DecidableEq, Repr

structure Box (α β : Type) where
  first : List α
  second : List β
  phase : Phase
  taken : List (α ⊕ β)
  deriving DecidableEq, Repr

inductive Event (α β : Type) where
  | post (a : α)
  | postSecond (b : β)
  | close
  | take
  | turn
  | takeSecond
  | reopen
  deriving DecidableEq, Repr

variable {α β : Type}

def empty : Box α β := ⟨[], [], .opened, []⟩

def step (m : Box α β) : Event α β → Option (Box α β)
  | .post a =>
      if m.phase = .opened then some {m with first := m.first ++ [a]} else none
  | .postSecond b =>
      if m.phase = .opened then some {m with second := m.second ++ [b]} else none
  | .close => if m.phase = .opened then some {m with phase := .takingFirst} else none
  | .take =>
      match m.phase, m.first with
      | .takingFirst, a :: rest => some {m with first := rest, taken := m.taken ++ [.inl a]}
      | _, _ => none
  | .turn =>
      match m.phase, m.first with
      | .takingFirst, [] => some {m with phase := .takingSecond}
      | _, _ => none
  | .takeSecond =>
      match m.phase, m.second with
      | .takingSecond, b :: rest => some {m with second := rest, taken := m.taken ++ [.inr b]}
      | _, _ => none
  | .reopen =>
      match m.phase, m.second with
      | .takingSecond, [] => some {m with phase := .opened}
      | _, _ => none

def posts (events : List (Event α β)) : List α :=
  events.filterMap (fun | .post a => some a | _ => none)

def secondPosts (events : List (Event α β)) : List β :=
  events.filterMap (fun | .postSecond b => some b | _ => none)

def firsts (taken : List (α ⊕ β)) : List α := taken.filterMap Sum.getLeft?
def seconds (taken : List (α ⊕ β)) : List β := taken.filterMap Sum.getRight?

@[simp] theorem postsAppend (xs ys : List (Event α β)) : posts (xs ++ ys) = posts xs ++ posts ys :=
  List.filterMap_append

@[simp] theorem secondPostsAppend (xs ys : List (Event α β)) :
    secondPosts (xs ++ ys) = secondPosts xs ++ secondPosts ys :=
  List.filterMap_append

@[simp] theorem secondsAppend (xs ys : List (α ⊕ β)) : seconds (xs ++ ys) = seconds xs ++ seconds ys :=
  List.filterMap_append

/- Whenever an item of the second queue was taken, the first queue had by then
delivered all that was posted to it before that item. -/
def Before (events : List (Event α β)) (taken : List (α ⊕ β)) : Prop :=
  ∀ done b later, taken = done ++ .inr b :: later →
  ∀ pre b' post, events = pre ++ .postSecond b' :: post →
    (secondPosts pre).length = (seconds done).length → b' = b ∧ posts pre <+: firsts done

structure Ordered (events : List (Event α β)) (m : Box α β) : Prop where
  fifo : firsts m.taken ++ m.first = posts events
  fifoSecond : seconds m.taken ++ m.second = secondPosts events
  drained : m.phase = .takingSecond → m.first = []
  before : Before events m.taken

theorem snocSplit {γ : Type} {xs done later : List γ} {y z : γ} (same : xs ++ [y] = done ++ z :: later) :
    (xs = done ∧ y = z ∧ later = []) ∨ ∃ less, xs = done ++ z :: less := by
  rcases List.eq_nil_or_concat later with rfl | ⟨less, w, rfl⟩
  · obtain ⟨front, last⟩ := List.append_inj' same rfl
    exact Or.inl ⟨front, List.singleton_inj.mp last, rfl⟩
  · have shape : xs ++ [y] = (done ++ z :: less) ++ [w] := by simpa using same
    exact Or.inr ⟨less, (List.append_inj' shape rfl).1⟩

/- An event that came after an item was taken cannot be the one that posted it. -/
theorem beforeEvent {events : List (Event α β)} {taken : List (α ⊕ β)} {rest : List β}
    (before : Before events taken) (fifo : seconds taken ++ rest = secondPosts events)
    (e : Event α β) : Before (events ++ [e]) taken := by
  intro done b later parts pre b' post split place
  rcases snocSplit split with ⟨rfl, _, _⟩ | ⟨less, split⟩
  · have count := congrArg List.length fifo
    rw [parts, secondsAppend] at count
    have one : (seconds (.inr b :: later : List (α ⊕ β))).length = (seconds later).length + 1 := rfl
    simp only [List.length_append, one] at count
    omega
  · exact before done b later parts pre b' less split place

theorem beforeTake {events : List (Event α β)} {taken : List (α ⊕ β)} (before : Before events taken)
    (a : α) : Before events (taken ++ [.inl a]) := by
  intro done b later parts
  rcases snocSplit parts with ⟨_, other, _⟩ | ⟨less, parts⟩
  · contradiction
  · exact before done b less parts

theorem beforeTakeSecond {events : List (Event α β)} {taken : List (α ⊕ β)} {b : β} (rest : List β)
    (before : Before events taken) (drained : firsts taken = posts events)
    (fifo : seconds taken ++ b :: rest = secondPosts events) : Before events (taken ++ [.inr b]) := by
  intro done c later parts pre b' post split place
  rcases snocSplit parts with ⟨rfl, same, _⟩ | ⟨less, parts⟩
  · cases same
    have whole : secondPosts events = secondPosts pre ++ b' :: secondPosts post := by
      rw [split, secondPostsAppend]
      rfl
    have items := List.append_inj_right (whole.symm.trans fifo.symm) place
    refine ⟨(List.cons.inj items).1, ?_⟩
    rw [drained, split, postsAppend]
    exact List.prefix_append _ _
  · exact before done c less parts pre b' post split place

theorem orderedEmpty : Ordered ([] : List (Event α β)) empty where
  fifo := rfl
  fifoSecond := rfl
  drained := fun other => nomatch other
  before := by
    intro done b later parts
    simp [empty] at parts

/- What was taken and what still waits grow together by what is posted. -/
theorem conserved {m n : Box α β} {e : Event α β} (ok : step m e = some n) :
    firsts n.taken ++ n.first = firsts m.taken ++ m.first ++ posts [e] ∧
      seconds n.taken ++ n.second = seconds m.taken ++ m.second ++ secondPosts [e] := by
  cases e with
  | post a =>
    simp only [step] at ok
    split at ok <;> try contradiction
    cases Option.some.inj ok
    exact ⟨(List.append_assoc _ _ _).symm, (List.append_nil _).symm⟩
  | postSecond b =>
    simp only [step] at ok
    split at ok <;> try contradiction
    cases Option.some.inj ok
    exact ⟨(List.append_nil _).symm, (List.append_assoc _ _ _).symm⟩
  | take =>
    simp only [step] at ok
    split at ok <;> try contradiction
    rename_i a rest _ first
    cases Option.some.inj ok
    rw [first]
    simp [posts, secondPosts, firsts, seconds]
  | takeSecond =>
    simp only [step] at ok
    split at ok <;> try contradiction
    rename_i b rest _ second
    cases Option.some.inj ok
    rw [second]
    simp [posts, secondPosts, firsts, seconds]
  | _ =>
    simp only [step] at ok
    split at ok <;> try contradiction
    cases Option.some.inj ok
    exact ⟨(List.append_nil _).symm, (List.append_nil _).symm⟩

theorem drainedStep {m n : Box α β} {e : Event α β} (drained : m.phase = .takingSecond → m.first = [])
    (ok : step m e = some n) : n.phase = .takingSecond → n.first = [] := by
  intro taking
  cases e <;> simp only [step] at ok <;> split at ok <;> try contradiction
  all_goals
    cases Option.some.inj ok
    simp_all

theorem orderedStep {events : List (Event α β)} {m n : Box α β} (e : Event α β)
    (inv : Ordered events m) (ok : step m e = some n) : Ordered (events ++ [e]) n := by
  obtain ⟨first, second⟩ := conserved ok
  have fifo : firsts n.taken ++ n.first = posts (events ++ [e]) := by
    rw [first, inv.fifo, postsAppend]
  have fifoSecond : seconds n.taken ++ n.second = secondPosts (events ++ [e]) := by
    rw [second, inv.fifoSecond, secondPostsAppend]
  refine ⟨fifo, fifoSecond, drainedStep inv.drained ok, ?_⟩
  have before := beforeEvent inv.before inv.fifoSecond e
  cases e with
  | take =>
    simp only [step] at ok
    split at ok <;> try contradiction
    rename_i a rest _ _
    cases Option.some.inj ok
    exact beforeTake before a
  | takeSecond =>
    -- the first queue is empty here, so all that was posted to it has been taken
    simp only [step] at ok
    split at ok <;> try contradiction
    rename_i b rest phase waiting
    cases Option.some.inj ok
    have drained := inv.drained phase
    apply beforeTakeSecond rest before
    · simpa [posts, drained] using inv.fifo
    · simpa [secondPosts, waiting] using inv.fifoSecond
  | _ =>
    simp only [step] at ok
    split at ok <;> try contradiction
    cases Option.some.inj ok
    exact before

theorem runOrdered {events : List (Event α β)} {m : Box α β} (ok : run step empty events = some m) :
    Ordered events m :=
  history (fun _ e _ _ inv moved => orderedStep e inv moved) orderedEmpty ok

/- When the receiver opens the lock again, everything posted has been taken. -/
theorem reopened (events : List (Event α β)) {m : Box α β}
    (ok : run step empty (events ++ [.reopen]) = some m) :
    firsts m.taken = posts events ∧ seconds m.taken = secondPosts events := by
  obtain ⟨n, ran, last⟩ := runSnocSome ok
  have inv := runOrdered ran
  simp only [step] at last
  split at last <;> try contradiction
  rename_i phase second
  cases Option.some.inj last
  have fifo := inv.fifo
  have fifoSecond := inv.fifoSecond
  rw [inv.drained phase, List.append_nil] at fifo
  rw [second, List.append_nil] at fifoSecond
  exact ⟨fifo, fifoSecond⟩

end SerialModbus.Mailbox
