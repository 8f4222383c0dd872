import SerialModbus.Master
import SerialModbus.Window
import Mathlib.Data.List.AList

/-! The driver singleton: masters by number, the full name behind each base
address, and one queue of samples per smoothed address. An int that counts queue
elements is an unbounded Int: a queue is never longer than its cycle count. -/
namespace SerialModbus
open Text Window

abbrev QMap (K V : Type) := AList (fun _ : K => V)

structure Driver where
  mbus : QMap Int MBusAbstract
  paramAddress : QMap QString QString
  queues : QMap QString (List PVSSchar)

namespace Driver

def new : Driver := ⟨∅, ∅, ∅⟩

def hasParameter (fullName : QString) : Bool := fullName.contains '$'

def extractAddress (fullName : QString) : QString :=
  if fullName.contains '$' then left fullName (indexOf fullName '$') else fullName

def extractTime (fullName : QString) : Int :=
  toInt (right fullName (fullName.length - indexOf fullName '$' - 1))

def addMBus (d : Driver) (i : Int) (mb : MBusAbstract) : Driver := {d with mbus := d.mbus.insert i mb}

def getMBus (d : Driver) (i : Int) : Option MBusAbstract := d.mbus.lookup i

/- value == 0 compares a QString with a null pointer: it holds for empty text. -/
def manageParamAddress (d : Driver) (key value : QString) : Driver :=
  if value = [] ∧ key ∈ d.paramAddress then {d with paramAddress := d.paramAddress.erase key}
  else {d with paramAddress := d.paramAddress.insert key value}

def getParamAddress (d : Driver) (address : QString) : QString :=
  match d.paramAddress.lookup address with
  | some value => value
  | none => address

/- for (int i = 0; i < queue->size() - time; i++) queue->removeFirst(), from
counter i on. removeFirst on an empty queue is undefined: none. -/
def trimLoop (time : Int) : Int → List PVSSchar → Option (List PVSSchar)
  | i, [] => if i < 0 - time then none else some []
  | i, v :: rest =>
      if i < ((v :: rest).length : Int) - time then trimLoop time (i + 1) rest else some (v :: rest)

def trim (time : Int) (queue : List PVSSchar) : Option (List PVSSchar) :=
  if (queue.length : Int) > time then trimLoop time 0 queue else some queue

def queue (d : Driver) (address : QString) : List PVSSchar := (d.queues.lookup address).getD []

/- The lazily created queue, the append, the trimming loop and the comparison. -/
def applyValueAgainstSmoothing (d : Driver) (address : QString) (time : Int) (value : PVSSchar) :
    Option (Driver × Bool) := do
  let queue ← trim time (d.queue address ++ [value])
  some ({d with queues := d.queues.insert address queue}, queue.all (· == value))

/-! Names: what stands before the first '$', and the number behind it. -/

theorem extractFree {name : QString} (free : '$' ∉ name) : extractAddress name = name := by
  simp [extractAddress, free]

theorem extractMark {name rest : QString} (free : '$' ∉ name) :
    extractAddress (name ++ '$' :: rest) = name := by
  have marked : (name ++ '$' :: rest).contains '$' = true := by simp
  rw [extractAddress, if_pos marked, leftMark free]

theorem timeMark {name rest : QString} (free : '$' ∉ name) :
    extractTime (name ++ '$' :: rest) = toInt rest := by
  rw [extractTime, rightMark free]

theorem extractOmits (name : QString) : '$' ∉ extractAddress name := by
  unfold extractAddress
  split
  · rename_i marked
    rw [leftIndexOf (by simpa using marked)]
    intro mem
    exact absurd (List.mem_takeWhile_imp mem) (by simp)
  · rename_i free
    simpa using free

theorem hasParameterIff (name : QString) : hasParameter name = true ↔ '$' ∈ name := by
  simp [hasParameter]

/-! The parameter map. -/

/- Every base address is mapped to a full name that it is the base of. -/
def Routed (d : Driver) : Prop := ∀ key, '$' ∉ key → extractAddress (d.getParamAddress key) = key

theorem routedNew : Routed new := by
  intro key free
  exact extractFree free

/- Removing the entry of the empty name and looking it up gives the empty name
too, so both branches of manageParamAddress answer alike. -/
theorem getManaged (d : Driver) (name key : QString) :
    (d.manageParamAddress (extractAddress name) name).getParamAddress key =
      if extractAddress name = key then name else d.getParamAddress key := by
  unfold manageParamAddress
  split
  · rename_i removed
    obtain ⟨empty, _⟩ := removed
    subst empty
    have base : extractAddress [] = [] := rfl
    rw [base]
    split
    · rename_i same
      subst same
      simp [getParamAddress]
    · rename_i differ
      simp [getParamAddress, AList.lookup_erase_ne (Ne.symm differ)]
  · split
    · rename_i same
      subst same
      simp [getParamAddress]
    · rename_i differ
      simp [getParamAddress, AList.lookup_insert_ne (Ne.symm differ)]

theorem routedManaged {d : Driver} (routed : Routed d) (name : QString) :
    Routed (d.manageParamAddress (extractAddress name) name) := by
  intro key free
  rw [getManaged]
  split
  · assumption
  · exact routed key free

theorem routedInjective {d : Driver} (routed : Routed d) {a b : QString} (freeA : '$' ∉ a)
    (freeB : '$' ∉ b) (same : d.getParamAddress a = d.getParamAddress b) : a = b := by
  rw [← routed a freeA, ← routed b freeB, same]

@[simp] theorem queueManaged (d : Driver) (key value address : QString) :
    (d.manageParamAddress key value).queue address = d.queue address := by
  unfold manageParamAddress
  split <;> rfl

/-! The trimming loop removes about half of the excess over a negative bound, and
the whole excess when it is one. -/

def removals (time i : Int) (size : Nat) : Nat := ((size - time - i + 1) / 2).toNat

theorem trimExact (time i : Int) (queue : List PVSSchar) :
    trimLoop time i queue =
      if removals time i queue.length ≤ queue.length then some (queue.drop (removals time i queue.length))
      else none := by
  induction queue generalizing i with
  | nil =>
    simp only [trimLoop, removals, List.length_nil, List.drop_nil]
    split <;> split <;> first | rfl | omega
  | cons v rest ih =>
    rw [trimLoop]
    split
    · -- one element goes: the bound drops by one while the counter grows by one
      rename_i more
      have step : removals time i (v :: rest).length = removals time (i + 1) rest.length + 1 := by
        simp only [removals, List.length_cons] at more ⊢
        omega
      rw [ih, step]
      simp
    · rename_i done
      have stop : removals time i (v :: rest).length = 0 := by
        simp only [removals] at done ⊢
        omega
      rw [stop]
      simp

theorem trimBounded {n : Nat} {queue : List PVSSchar} (bounded : queue.length ≤ n + 1) :
    trim n queue = some (queue.rtake n) := by
  have exact : removals n 0 queue.length = queue.length - n := by
    simp only [removals]
    omega
  unfold trim
  split
  · rw [trimExact, exact, if_pos (by omega), List.rtake]
  · rw [rtakeShort (by omega)]

@[simp] theorem queueInsert (d : Driver) (address : QString) (samples : List PVSSchar) (key : QString) :
    queue {d with queues := d.queues.insert address samples} key =
      if key = address then samples else d.queue key := by
  unfold queue
  split
  · rename_i same
    subst same
    simp
  · rename_i differ
    simp [AList.lookup_insert_ne differ]

/- What a call keeps: only the queue of its own address changes. -/
theorem smoothingFrame {d e : Driver} {address : QString} {time : Int} {value : PVSSchar} {pass : Bool}
    (ok : d.applyValueAgainstSmoothing address time value = some (e, pass)) :
    e.mbus = d.mbus ∧ e.paramAddress = d.paramAddress ∧
      ∀ key, key ≠ address → e.queue key = d.queue key := by
  simp only [applyValueAgainstSmoothing, bind, Option.bind_eq_some_iff] at ok
  obtain ⟨queue, _, last⟩ := ok
  cases Option.some.inj last
  refine ⟨rfl, rfl, ?_⟩
  intro key differ
  simp [differ]

/- With a cycle count n ≥ 0 and a queue within it, the queue slides by one sample
and the answer says whether the window has settled on the value. -/
theorem smoothingSlides {d : Driver} {address : QString} {n : Nat} (value : PVSSchar)
    (bounded : (d.queue address).length ≤ n) :
    d.applyValueAgainstSmoothing address n value =
      some ({d with queues := d.queues.insert address (slide n (d.queue address) value)},
        decide (Settled (slide n (d.queue address) value) value)) := by
  have answer : ∀ queue : List PVSSchar, queue.all (· == value) = decide (Settled queue value) := by
    intro queue
    rw [Bool.eq_iff_iff, List.all_eq_true, decide_eq_true_iff]
    simp only [Settled, beq_iff_eq]
  have trimmed : trim n (d.queue address ++ [value]) = some (slide n (d.queue address) value) :=
    trimBounded (by simp [bounded])
  simp only [applyValueAgainstSmoothing, trimmed, bind, Option.bind, answer]

/- A negative cycle count removes the one sample just appended, and below -1 the
loop goes on with the queue already empty. -/
theorem trimSingle {time : Int} (negative : time < 0) (value : PVSSchar) :
    trim time [value] = if -1 ≤ time then some [] else none := by
  have excess : (([value] : List PVSSchar).length : Int) > time := by
    simp only [List.length_cons, List.length_nil]
    omega
  rw [trim, if_pos excess, trimExact]
  have exact : removals time 0 [value].length = ((2 - time) / 2).toNat := by
    simp only [removals, List.length_cons, List.length_nil]
    omega
  rw [exact]
  split
  · rename_i one
    have same : ((2 - time) / 2).toNat = 1 := by
      simp only [List.length_cons, List.length_nil] at one
      omega
    rw [if_pos (by omega), same]
    rfl
  · rename_i many
    rw [if_neg (by simp only [List.length_cons, List.length_nil] at many; omega)]

/- Any cycle count, with the queue within it. -/
theorem smoothingAny {d : Driver} {address : QString} {time : Int} (value : PVSSchar)
    (bounded : (d.queue address).length ≤ time.toNat) :
    d.applyValueAgainstSmoothing address time value =
      if -1 ≤ time then
        some ({d with queues := d.queues.insert address (slide time.toNat (d.queue address) value)},
          decide (Settled (slide time.toNat (d.queue address) value) value))
      else none := by
  by_cases counts : 0 ≤ time
  · obtain ⟨n, rfl⟩ := Int.eq_ofNat_of_zero_le counts
    rw [if_pos (by omega), Int.toNat_natCast]
    exact smoothingSlides value (by simpa using bounded)
  · have zero : time.toNat = 0 := by omega
    have empty : d.queue address = [] := by simpa [zero] using bounded
    simp only [applyValueAgainstSmoothing, empty, List.nil_append, trimSingle (by omega : time < 0)]
    split
    · simp [zero, slide, Settled]
    · rfl

end Driver
end SerialModbus
