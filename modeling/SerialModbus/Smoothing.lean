import SerialModbus.Driver
import SerialModbus.Runs

/-! Flicker suppression over a whole history of calls: each queue is the window
of the samples of its own address, so the answer depends on nothing else. -/
namespace SerialModbus.Smoothing
open Text Window Runs

structure Sample where
  address : QString
  value : PVSSchar
  deriving DecidableEq, Repr

/- One call, with the cycle count that belongs to the address. -/
def feed (time : QString → Nat) (d : Driver) (s : Sample) : Option Driver :=
  (d.applyValueAgainstSmoothing s.address (time s.address) s.value).map Prod.fst

/- The answer to a call with the value after the earlier calls, from empty queues. -/
def answer (time : QString → Nat) (start : Driver) (calls : List Sample) (address : QString)
    (value : PVSSchar) : Option Bool := do
  let d ← run (feed time) {start with queues := ∅} calls
  let (_, pass) ← d.applyValueAgainstSmoothing address (time address) value
  some pass

def samples (address : QString) (calls : List Sample) : List PVSSchar :=
  (calls.filter (fun s => s.address == address)).map Sample.value

@[simp] theorem samplesSnoc (address : QString) (calls : List Sample) (s : Sample) :
    samples address (calls ++ [s]) =
      if s.address = address then samples address calls ++ [s.value] else samples address calls := by
  by_cases same : s.address = address <;> simp [samples, same]

theorem samplesAppend (address : QString) (before after : List Sample) :
    samples address (before ++ after) = samples address before ++ samples address after := by
  simp [samples]

def Windows (time : QString → Nat) (calls : List Sample) (d : Driver) : Prop :=
  ∀ address, d.queue address = (samples address calls).rtake (time address)

theorem windowBounded {time calls d} (windows : Windows time calls d) (address : QString) :
    (d.queue address).length ≤ time address := by
  rw [windows address, rtakeLength]
  exact Nat.min_le_left _ _

theorem feedWindows {time calls d} (windows : Windows time calls d) (s : Sample) :
    ∃ e, feed time d s = some e ∧ Windows time (calls ++ [s]) e := by
  have slides := Driver.smoothingSlides s.value (windowBounded windows s.address)
  refine ⟨_, by rw [feed, slides]; rfl, ?_⟩
  intro address
  rw [Driver.queueInsert, samplesSnoc]
  split
  · rename_i same
    subst same
    rw [if_pos rfl, windows s.address, slideHistory]
  · rename_i differ
    rw [if_neg (fun same => differ same.symm), windows address]

theorem runWindows (time : QString → Nat) (start : Driver) (calls : List Sample) :
    ∃ d, run (feed time) {start with queues := ∅} calls = some d ∧ Windows time calls d := by
  apply progress (fun _ _ => True)
  · intro before s d windows _
    exact feedWindows windows s
  · intro address
    simp [Driver.queue, samples]
  · intro _ _ _
    trivial

theorem answered (time : QString → Nat) (start : Driver) (calls : List Sample) (address : QString)
    (value : PVSSchar) : answer time start calls address value =
      some (decide (Settled ((samples address calls ++ [value]).rtake (time address)) value)) := by
  obtain ⟨d, hd, windows⟩ := runWindows time start calls
  have slides := Driver.smoothingSlides value (windowBounded windows address)
  rw [windows address, slideHistory] at slides
  simp only [answer, hd, slides, bind, Option.bind]

/- A call is let through exactly when the last n values of its address, itself
included, agree with it; a value let through after a different one has all of
them behind the different one. -/
theorem smoothingDecides (time : QString → Nat) (start : Driver) (calls : List Sample)
    (address : QString) (value : PVSSchar) :
    (∃ pass, answer time start calls address value = some pass ∧
      (pass = true ↔ ∀ x ∈ (samples address calls ++ [value]).rtake (time address), x = value)) ∧
    (∀ before other after, calls = before ++ ⟨address, other⟩ :: after → other ≠ value →
      answer time start before address other = some true →
      answer time start calls address value = some true →
      time address ≤ (samples address after ++ [value]).length ∧
        ∀ x ∈ (samples address after ++ [value]).rtake (time address), x = value) := by
  constructor
  · exact ⟨_, answered time start calls address value, decide_eq_true_iff⟩
  · intro before other after parts differ _ passed
    rw [answered, Option.some.injEq, decide_eq_true_eq, parts, samplesAppend] at passed
    have shape : samples address (⟨address, other⟩ :: after) = other :: samples address after := by
      simp [samples]
    rw [shape, List.append_assoc, List.cons_append] at passed
    exact settledAfter differ passed

theorem smoothingDecidesThree : answer (fun _ => 2) Driver.new [⟨"a$2".toList, 49⟩, ⟨"b".toList, 49⟩,
      ⟨"a$2".toList, 48⟩] "a$2".toList 48 = some true ∧
    2 ≤ (samples "a$2".toList [⟨"b".toList, 49⟩, ⟨"a$2".toList, 48⟩] ++ [48]).length ∧
      ∀ x ∈ (samples "a$2".toList [⟨"b".toList, 49⟩, ⟨"a$2".toList, 48⟩] ++ [48]).rtake 2, x = 48 := by
  have passed : answer (fun _ => 2) Driver.new [⟨"a$2".toList, 49⟩, ⟨"b".toList, 49⟩,
      ⟨"a$2".toList, 48⟩] "a$2".toList 48 = some true := rfl
  refine ⟨passed, ?_⟩
  exact (smoothingDecides (fun _ => 2) Driver.new [⟨"a$2".toList, 49⟩, ⟨"b".toList, 49⟩,
    ⟨"a$2".toList, 48⟩] "a$2".toList 48).2 [] 49 [⟨"b".toList, 49⟩, ⟨"a$2".toList, 48⟩] rfl
    (by decide) (by decide) passed

end SerialModbus.Smoothing
