import SerialModbus.Operations
import SerialModbus.Addressing

/-! Flicker suppression over whole runs of the process. The queue of a smoothed
name is a window of first bytes, so that is all the comparison can see of a text. -/
namespace SerialModbus.Suppression
open Text Window HWService Process
open Addressing (lookedUp)

/- What *value is for a message text: '*value' of its C string. -/
def firstByte (text : QString) : PVSSchar := deref (cString text)

def textOf (fullName : QString) : Call → Option QString
  | .storeToDB s =>
      if s.outcome.found = true ∧ s.outcome.obj.address = fullName then some s.message.value else none
  | .dpSet _ => none

/- The texts stored for a full name while it had an object, oldest first. -/
def texts (fullName : QString) (calls : List Call) : List QString := calls.filterMap (textOf fullName)

/- Every smoothed name keeps the first bytes of its last n texts. -/
def Windows (st : Process) : Prop := ∀ fullName, Driver.hasParameter fullName = true →
  st.driver.queue fullName =
    ((texts fullName st.calls).map firstByte).rtake (Driver.extractTime fullName).toNat

theorem windowsBounded {st : Process} (windows : Windows st) {fullName : QString}
    (marked : Driver.hasParameter fullName = true) :
    (st.driver.queue fullName).length ≤ (Driver.extractTime fullName).toNat := by
  rw [windows fullName marked, rtakeLength]
  exact Nat.min_le_left _ _

theorem textsSnoc (fullName : QString) (calls : List Call) (s : Stored) :
    texts fullName (calls ++ [.storeToDB s]) =
      if s.outcome.found = true ∧ s.outcome.obj.address = fullName then
        texts fullName calls ++ [s.message.value]
      else texts fullName calls := by
  simp only [texts, List.filterMap_append, List.filterMap_cons, List.filterMap_nil, textOf]
  split <;> rename_i h <;> split at h <;> simp_all

/- A store under a smoothed name with an object, its queue being within the count. -/
theorem storeSmoothed (pvss : Pvss) {d : Driver} {objects : List HWObject} {address fullName : QString}
    (value : List PVSSchar) (invalid : Bool) (mapped : d.getParamAddress address = fullName)
    (present : Registered objects fullName) (marked : Driver.hasParameter fullName = true)
    (bounded : (d.queue fullName).length ≤ (Driver.extractTime fullName).toNat) :
    let window := slide (Driver.extractTime fullName).toNat (d.queue fullName) (deref value)
    ∃ addrObj ∈ objects, addrObj.address = fullName ∧
      storeToDB pvss d objects address value invalid =
        if -1 ≤ Driver.extractTime fullName then
          some ({d with queues := d.queues.insert fullName window},
            if Settled window (deref value) then .toDp (objectFor fullName value invalid) addrObj
            else .smoothed (objectFor fullName value invalid) addrObj (Driver.extractTime fullName))
        else none := by
  subst mapped
  obtain ⟨addrObj, mem, same, shape⟩ := storeRegistered pvss value invalid present
  refine ⟨addrObj, mem, same, ?_⟩
  rw [shape, if_pos marked, Driver.smoothingAny (deref value) bounded]
  split
  · simp only [Option.map_some, decide_eq_true_eq]
  · rfl

theorem handleWindows {pvss : Pvss} {st t : Process} {msg : Message} (windows : Windows st)
    (ok : handle pvss st msg = some t) : Windows t := by
  obtain ⟨driver, outcome, stored, rfl⟩ := handleCases ok
  obtain ⟨about, found, _, _, _, others⟩ := storeFrame stored
  have named : outcome.obj.address = lookedUp st.driver msg := by rw [about]; rfl
  intro fullName marked
  simp only [textsSnoc, named]
  by_cases same : lookedUp st.driver msg = fullName
  · by_cases present : Registered st.mapper.objects fullName
    · -- the one queue that moves: it slides with the text of the message
      obtain ⟨addrObj, _, _, shape⟩ := storeSmoothed pvss (cString msg.value) msg.invalid same
        present marked (windowsBounded windows marked)
      rw [shape] at stored
      split at stored <;> try contradiction
      obtain ⟨rfl, _⟩ := Prod.mk.inj (Option.some.inj stored)
      have counted : outcome.found = true := found.mpr (show Registered _ (lookedUp _ _) from same ▸ present)
      rw [Driver.queueInsert, if_pos rfl, if_pos ⟨counted, same⟩, windows fullName marked, slideHistory,
        List.map_append]
      rfl
    · have absent : ¬ Registered st.mapper.objects (lookedUp st.driver msg) := same ▸ present
      rw [storeUnregistered pvss _ _ absent] at stored
      obtain ⟨rfl, rfl⟩ := Prod.mk.inj (Option.some.inj stored)
      simpa [Outcome.found] using windows fullName marked
  · rw [others fullName (fun other => same other.symm), if_neg (fun h => same h.2)]
    exact windows fullName marked

/- What the turn of one message leaves as it was for the messages of other names. -/
theorem handleFrame {pvss : Pvss} {st t : Process} {msg : Message} (ok : handle pvss st msg = some t) :
    t.mapper = st.mapper ∧ (∀ other, lookedUp t.driver other = lookedUp st.driver other) ∧
    ∀ key, key ≠ lookedUp st.driver msg → t.driver.queue key = st.driver.queue key := by
  obtain ⟨driver, outcome, stored, rfl⟩ := handleCases ok
  obtain ⟨_, _, _, _, paramAddress, others⟩ := storeFrame stored
  refine ⟨rfl, ?_, others⟩
  intro other
  simp only [lookedUp, Driver.getParamAddress, paramAddress]

theorem stepWindows {pvss : Pvss} {st t : Process} {op : Op} (windows : Windows st)
    (ok : step pvss st op = some t) : Windows t := by
  cases op with
  | config op =>
    obtain ⟨driver, calls⟩ := configureDriver ok
    intro fullName marked
    rw [calls, ← windows fullName marked]
    rcases driver with same | ⟨name, added⟩
    · rw [same]
    · rw [added]
      exact Driver.queueManaged _ _ _ _
  | addParamAddress name =>
    cases Option.some.inj ok
    intro fullName marked
    rw [← windows fullName marked]
    exact Driver.queueManaged _ _ _ _
  | drain msg => exact handleWindows windows ok

theorem bootWindows (mapper : HWMapper) : Windows (boot mapper) := by
  intro fullName _
  simp [boot, texts, Driver.queue, Driver.new]

theorem runWindows {pvss : Pvss} {mapper : HWMapper} {st : Process} {ops : List Op}
    (ok : Runs.run (step pvss) (boot mapper) ops = some st) : Windows st :=
  Runs.invariant (fun _ _ _ windows moved => stepWindows windows moved) (bootWindows mapper) ok

/- The message would be handed to toDp in this state. -/
def Forwards (pvss : Pvss) (st : Process) (msg : Message) : Prop :=
  ∃ e obj addrObj, storeToDB pvss st.driver st.mapper.objects msg.address (cString msg.value) msg.invalid =
    some (e, .toDp obj addrObj)

theorem forwardsPlain {pvss : Pvss} {st : Process} {msg : Message}
    (present : Registered st.mapper.objects (lookedUp st.driver msg))
    (plain : ¬ Driver.hasParameter (lookedUp st.driver msg) = true) : Forwards pvss st msg := by
  obtain ⟨addrObj, _, _, shape⟩ := storeRegistered pvss (cString msg.value) msg.invalid present
  exact ⟨_, _, _, shape.trans (if_neg plain)⟩

theorem forwardsSmoothed {pvss : Pvss} {st : Process} {msg : Message} (windows : Windows st)
    (present : Registered st.mapper.objects (lookedUp st.driver msg))
    (marked : Driver.hasParameter (lookedUp st.driver msg) = true) :
    Forwards pvss st msg ↔ -1 ≤ Driver.extractTime (lookedUp st.driver msg) ∧
      Settled (slide (Driver.extractTime (lookedUp st.driver msg)).toNat
        (st.driver.queue (lookedUp st.driver msg)) (firstByte msg.value)) (firstByte msg.value) := by
  obtain ⟨addrObj, _, _, shape⟩ := storeSmoothed pvss (cString msg.value) msg.invalid rfl
    present marked (windowsBounded windows marked)
  rw [Forwards, shape]
  split
  · rename_i counts
    simp only [Option.some.injEq, Prod.mk.injEq]
    constructor
    · rintro ⟨_, _, _, _, forward⟩
      split at forward <;> try contradiction
      rename_i settled
      exact ⟨counts, settled⟩
    · rintro ⟨_, settled⟩
      exact ⟨_, _, _, rfl, if_pos settled⟩
  · rename_i faults
    constructor
    · rintro ⟨_, _, _, forward⟩
      contradiction
    · rintro ⟨counts, _⟩
      exact absurd counts faults

/-! When the stores return. -/

/- Only a count below -1 behind a registered name goes on with an empty queue. -/
def Answers (st : Process) (msg : Message) : Prop :=
  Registered st.mapper.objects (lookedUp st.driver msg) → Driver.hasParameter (lookedUp st.driver msg) = true →
    -1 ≤ Driver.extractTime (lookedUp st.driver msg)
instance (st msg) : Decidable (Answers st msg) := by
  unfold Answers; infer_instance

theorem handleReturns (pvss : Pvss) {st : Process} (windows : Windows st) (msg : Message) :
    (∃ t, handle pvss st msg = some t) ↔ Answers st msg := by
  rw [← Option.isSome_iff_exists, handleStored, Option.isSome_map]
  by_cases present : Registered st.mapper.objects (lookedUp st.driver msg)
  · by_cases marked : Driver.hasParameter (lookedUp st.driver msg) = true
    · obtain ⟨_, _, _, shape⟩ := storeSmoothed pvss (cString msg.value) msg.invalid rfl present marked
        (windowsBounded windows marked)
      rw [shape]
      split
      · rename_i counts
        exact iff_of_true rfl (fun _ _ => counts)
      · rename_i faults
        exact iff_of_false (by decide) (fun answers => faults (answers present marked))
    · have forwards : Forwards pvss st msg := forwardsPlain present marked
      obtain ⟨_, _, _, stored⟩ := forwards
      rw [stored]
      exact iff_of_true rfl (fun _ has => absurd has marked)
  · rw [storeUnregistered pvss _ _ present]
    exact iff_of_true rfl (fun has => absurd has present)

theorem answersLater {pvss : Pvss} {st t : Process} {msg : Message} (ok : handle pvss st msg = some t)
    (other : Message) : Answers t other ↔ Answers st other := by
  obtain ⟨mapper, names, _⟩ := handleFrame ok
  rw [Answers, Answers, names, mapper]

theorem runReturns (pvss : Pvss) {st : Process} (windows : Windows st) (msgs : List Message) :
    (∃ t, Runs.run (handle pvss) st msgs = some t) ↔ ∀ msg ∈ msgs, Answers st msg := by
  induction msgs generalizing st with
  | nil => simp
  | cons msg rest ih =>
    rw [List.forall_mem_cons, ← handleReturns pvss windows]
    constructor
    · rintro ⟨t, ok⟩
      obtain ⟨u, first, tail⟩ := Option.bind_eq_some_iff.mp ok
      refine ⟨⟨u, first⟩, fun other mem => (answersLater first other).mp ?_⟩
      exact (ih (handleWindows windows first)).mp ⟨t, tail⟩ other mem
    · rintro ⟨⟨u, first⟩, later⟩
      obtain ⟨t, tail⟩ := (ih (handleWindows windows first)).mpr
        (fun other mem => (answersLater first other).mpr (later other mem))
      exact ⟨t, by rw [Runs.runCons, first]; exact tail⟩

theorem drainReturns (pvss : Pvss) {st : Process} (windows : Windows st) :
    (∃ t, workProc pvss st = some t) ↔ ∀ msg ∈ st.messages, Answers st msg := by
  rw [← runReturns pvss windows, workProcRun]
  simp only [Option.map_eq_some_iff]
  constructor
  · rintro ⟨_, t, ran, _⟩
    exact ⟨t, ran⟩
  · rintro ⟨t, ran⟩
    exact ⟨_, t, ran, rfl⟩

/-! Whole texts against first bytes. -/

/- A message for a registered name with a cycle count of at least one. -/
def Cycled (st : Process) (msg : Message) : Prop :=
  Registered st.mapper.objects (lookedUp st.driver msg) ∧
  Driver.hasParameter (lookedUp st.driver msg) = true ∧
  1 ≤ Driver.extractTime (lookedUp st.driver msg)

/- The texts of the last min(n, k) messages of that name, this one included. -/
def recent (st : Process) (msg : Message) : List QString :=
  (texts (lookedUp st.driver msg) st.calls ++ [msg.value]).rtake
    (Driver.extractTime (lookedUp st.driver msg)).toNat

/- A drained message goes to toDp exactly when the recent texts are all its own. -/
def ByText (pvss : Pvss) (st : Process) (op : Op) : Prop :=
  ∀ msg, op = .drain msg → Cycled st msg → (Forwards pvss st msg ↔ ∀ x ∈ recent st msg, x = msg.value)

/- Where the recent texts all start with the same byte, they are all the same. -/
def FirstDecides (st : Process) (op : Op) : Prop :=
  ∀ msg, op = .drain msg → Cycled st msg →
    (∀ x ∈ recent st msg, firstByte x = firstByte msg.value) → ∀ x ∈ recent st msg, x = msg.value

theorem forwardsRecent {pvss : Pvss} {st : Process} {msg : Message} (windows : Windows st)
    (cycled : Cycled st msg) :
    Forwards pvss st msg ↔ ∀ x ∈ recent st msg, firstByte x = firstByte msg.value := by
  obtain ⟨present, marked, counts⟩ := cycled
  have negative : -1 ≤ Driver.extractTime (lookedUp st.driver msg) := by omega
  have history : slide (Driver.extractTime (lookedUp st.driver msg)).toNat
      (st.driver.queue (lookedUp st.driver msg)) (firstByte msg.value) =
        (recent st msg).map firstByte := by
    rw [windows _ marked, slideHistory, recent, ← rtakeMap, List.map_append]
    rfl
  rw [forwardsSmoothed windows present marked, history, settledMap]
  exact and_iff_right negative

/- Over every run: each message is judged by its whole text exactly when no window
holds different texts that start alike. -/
theorem wholeTextDecides (pvss : Pvss) (mapper : HWMapper) (ops : List Op) :
    Runs.EachStep (step pvss) (ByText pvss) (boot mapper) ops ↔
      Runs.EachStep (step pvss) FirstDecides (boot mapper) ops := by
  apply Runs.eachStepIff (I := Windows)
  · exact fun _ _ _ windows moved => stepWindows windows moved
  · intro st op _ windows _
    refine forall_congr' fun msg => forall_congr' fun _ => forall_congr' fun cycled => ?_
    rw [forwardsRecent windows cycled]
    exact ⟨Iff.mp, fun decides => ⟨decides, fun same x mem => congrArg firstByte (same x mem)⟩⟩
  · exact bootWindows mapper

def registerConf : PeriphAddr := ⟨"1_1702_1.1$2".toList, 1702⟩

/- A register smoothed over two cycles reads 10 and then 12: the second reading is
forwarded at once. -/
theorem notByText : ¬ ∀ (pvss : Pvss) (mapper : HWMapper) (ops : List Op),
    Runs.EachStep (step pvss) (ByText pvss) (boot mapper) ops := by
  intro all
  let ten : Message := message 1 1 1 1702 "10".toList false
  let twelve : Message := message 1 1 1 1702 "12".toList false
  let before : List Op := [.config (.addDpPa none registerConf true), .drain ten]
  have ran : (Runs.run (step Pvss.front) (boot ⟨[], []⟩) (before ++ [.drain twelve])).isSome = true := by
    decide
  obtain ⟨u, last⟩ := Option.isSome_iff_exists.mp ran
  obtain ⟨st, reached, moved⟩ := Runs.runSnocSome last
  have facts : (Runs.run (step Pvss.front) (boot ⟨[], []⟩) before).map
      (fun st => (lookedUp st.driver twelve, addresses st.mapper, texts registerConf.name st.calls)) =
        some (registerConf.name, [registerConf.name], ["10".toList]) := by decide
  rw [reached] at facts
  obtain ⟨mapped, facts⟩ := Prod.mk.inj (Option.some.inj facts)
  obtain ⟨present, history⟩ := Prod.mk.inj facts
  have cycled : Cycled st twelve := by
    rw [Cycled, mapped, registeredIff, present]
    decide
  have window : recent st twelve = ["10".toList, "12".toList] := by
    rw [recent, mapped, history]
    decide
  have judged := all Pvss.front ⟨[], []⟩ (before ++ [.drain twelve]) before (.drain twelve) st u
    (List.prefix_refl _) reached moved twelve rfl cycled
  rw [forwardsRecent (runWindows reached) cycled, window] at judged
  exact absurd judged (by decide)

end SerialModbus.Suppression
