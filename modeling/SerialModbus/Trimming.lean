import SerialModbus.Smoothing

/-! The trimming loop over calls with any cycle counts. Its bound shrinks while its
counter grows, so it removes the right number of samples in few cases only. -/
namespace SerialModbus.Trimming
open Text Window Runs
open Smoothing (Sample samples samplesSnoc)

/- A call with its own cycle count. -/
structure Timed extends Sample where
  time : Int
  deriving DecidableEq, Repr

def feed (d : Driver) (c : Timed) : Option Driver :=
  (d.applyValueAgainstSmoothing c.address c.time c.value).map Prod.fst

/- The samples of an address so far, oldest first. -/
def arrived (address : QString) (calls : List Timed) : List PVSSchar :=
  samples address (calls.map Timed.toSample)

/- The call returns, with the newest samples of its address in the queue. -/
def Trimmed (before : List Timed) (d : Driver) (c : Timed) : Prop :=
  ∃ e pass, d.applyValueAgainstSmoothing c.address c.time c.value = some (e, pass) ∧
    e.queue c.address = (arrived c.address (before ++ [c])).rtake
      (min ((d.queue c.address).length + 1) (max c.time 0).toNat)

/- At most one sample is in excess; a negative count is about the size itself. -/
def Fits (size : Nat) (time : Int) : Prop :=
  (0 ≤ time ∧ (size : Int) ≤ time) ∨ (time < 0 ∧ (time = -size ∨ time = -size - 1))
instance (size time) : Decidable (Fits size time) := by
  unfold Fits; infer_instance

theorem removalsFit {time : Int} {size : Nat} (excess : ((size + 1 : Nat) : Int) > time) :
    Driver.removals time 0 (size + 1) = size + 1 - min (size + 1) (max time 0).toNat ↔ Fits size time := by
  unfold Driver.removals Fits
  omega

theorem trimFits (time : Int) (queue : List PVSSchar) (value : PVSSchar) :
    Driver.trim time (queue ++ [value]) =
      some ((queue ++ [value]).rtake (min (queue.length + 1) (max time 0).toNat)) ↔
        Fits queue.length time := by
  have size : (queue ++ [value]).length = queue.length + 1 := by simp
  unfold Driver.trim
  split
  · rename_i excess
    rw [size] at excess
    rw [Driver.trimExact, size, ← removalsFit excess, List.rtake, size]
    split
    · -- both sides drop a prefix of the queue, so the lengths tell them apart
      rename_i inside
      constructor
      · intro same
        have lengths := congrArg List.length (Option.some.inj same)
        rw [List.length_drop, List.length_drop, size] at lengths
        omega
      · intro same
        rw [same]
    · rename_i underflow
      constructor
      · intro same
        contradiction
      · intro same
        omega
  · rename_i room
    rw [size] at room
    rw [rtakeShort (by omega)]
    unfold Fits
    simp only [true_iff]
    omega

/- Whatever the loop removes comes from the front. -/
theorem trimSuffix {time : Int} {queue kept : List PVSSchar} (ok : Driver.trim time queue = some kept) :
    kept <:+ queue := by
  unfold Driver.trim at ok
  split at ok
  · rw [Driver.trimExact] at ok
    split at ok <;> try contradiction
    cases Option.some.inj ok
    exact List.drop_suffix _ _
  · cases Option.some.inj ok
    exact List.suffix_refl _

theorem trimSmoothing {d : Driver} {address : QString} {time : Int} {value : PVSSchar}
    {kept : List PVSSchar} (trimmed : Driver.trim time (d.queue address ++ [value]) = some kept) :
    d.applyValueAgainstSmoothing address time value =
      some ({d with queues := d.queues.insert address kept}, kept.all (· == value)) := by
  simp only [Driver.applyValueAgainstSmoothing, trimmed, bind, Option.bind]

theorem smoothingTrim {d e : Driver} {address : QString} {time : Int} {value : PVSSchar} {pass : Bool}
    (ok : d.applyValueAgainstSmoothing address time value = some (e, pass)) :
    Driver.trim time (d.queue address ++ [value]) = some (e.queue address) := by
  simp only [Driver.applyValueAgainstSmoothing, bind, Option.bind_eq_some_iff] at ok
  obtain ⟨kept, trimmed, last⟩ := ok
  obtain ⟨rfl, _⟩ := Prod.mk.inj (Option.some.inj last)
  rw [trimmed, Driver.queueInsert, if_pos rfl]

theorem arrivedSnoc (address : QString) (calls : List Timed) (c : Timed) :
    arrived address (calls ++ [c]) =
      if c.address = address then arrived address calls ++ [c.value] else arrived address calls := by
  rw [arrived, List.map_append]
  exact samplesSnoc address _ c.toSample

/- Each queue is what is left of the samples of its address. -/
def Newest (calls : List Timed) (d : Driver) : Prop := ∀ address, d.queue address <:+ arrived address calls

theorem feedNewest {calls : List Timed} {d e : Driver} {c : Timed} (newest : Newest calls d)
    (ok : feed d c = some e) : Newest (calls ++ [c]) e := by
  obtain ⟨⟨f, pass⟩, hs, rfl⟩ := Option.map_eq_some_iff.mp ok
  intro address
  rw [arrivedSnoc]
  split
  · rename_i same
    subst same
    exact (trimSuffix (smoothingTrim hs)).trans (List.suffix_append_self_iff.mpr (newest c.address))
  · rename_i differ
    rw [(Driver.smoothingFrame hs).2.2 address (Ne.symm differ)]
    exact newest address

theorem runNewest {start : Driver} {calls : List Timed} {d : Driver}
    (ok : run feed {start with queues := ∅} calls = some d) : Newest calls d := by
  apply history (P := Newest) (fun _ _ _ _ newest moved => feedNewest newest moved) _ ok
  intro address
  simp [Driver.queue, arrived]

theorem arrivedNewest {before : List Timed} {d : Driver} (c : Timed) (newest : Newest before d) :
    (arrived c.address (before ++ [c])).rtake
        (min ((d.queue c.address).length + 1) (max c.time 0).toNat) =
      (d.queue c.address ++ [c.value]).rtake
        (min ((d.queue c.address).length + 1) (max c.time 0).toNat) := by
  obtain ⟨older, parts⟩ := newest c.address
  rw [arrivedSnoc, if_pos rfl, ← parts, List.append_assoc]
  apply rtakeAppend
  rw [List.length_append]
  exact Nat.min_le_left _ _

theorem callExact {before : List Timed} {d : Driver} (c : Timed) (newest : Newest before d) :
    Trimmed before d c ↔ Fits (d.queue c.address).length c.time := by
  rw [← trimFits c.time (d.queue c.address) c.value, Trimmed, arrivedNewest c newest]
  constructor
  · rintro ⟨e, pass, ok, kept⟩
    rw [smoothingTrim ok, kept]
  · intro trimmed
    exact ⟨_, _, trimSmoothing trimmed, by rw [Driver.queueInsert, if_pos rfl]⟩

/- Over every sequence of calls with any cycle counts: each call returns with the
newest samples exactly when each finds a queue that fits its count. -/
theorem trimmedExact (start : Driver) (calls : List Timed) :
    (∀ before c d, before ++ [c] <+: calls → run feed {start with queues := ∅} before = some d →
      Trimmed before d c) ↔
    ∀ before c d, before ++ [c] <+: calls → run feed {start with queues := ∅} before = some d →
      Fits (d.queue c.address).length c.time := by
  refine forall_congr' fun before => forall_congr' fun c => forall_congr' fun d => ?_
  refine forall_congr' fun _ => forall_congr' fun ok => ?_
  exact callExact c (runNewest ok)

def negativeCount : QString := "1_1702_1.1$-2".toList

/- A register whose full name asks for minus two cycles: the first message makes
the loop remove two samples from a queue of one. -/
theorem notTrimmed : ¬ ∀ (start : Driver) (calls before : List Timed) (c : Timed) (d : Driver),
    before ++ [c] <+: calls → run feed {start with queues := ∅} before = some d → Trimmed before d c := by
  intro all
  let c : Timed := ⟨⟨negativeCount, 49⟩, Driver.extractTime negativeCount⟩
  have trimmed := all Driver.new [c] [] c {Driver.new with queues := ∅} (List.prefix_refl _) rfl
  have begun : run feed {Driver.new with queues := ∅} [] = some {Driver.new with queues := ∅} := rfl
  rw [callExact c (runNewest begun)] at trimmed
  exact absurd trimmed (by decide)

end SerialModbus.Trimming
