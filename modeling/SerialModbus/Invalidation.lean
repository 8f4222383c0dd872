import SerialModbus.Suppression
import SerialModbus.Polling

/-! Invalid notifications. They pass through the same smoothing queues as samples,
with the text "0", so a window that holds another value keeps them back. -/
namespace SerialModbus.Invalidation
open Text Window Global HWService Process Polling Suppression
open Addressing (lookedUp)

/- The message would reach toDp with the DRV_INVALID bit on its object. -/
def Invalidates (pvss : Pvss) (st : Process) (msg : Message) : Prop :=
  ∃ e obj addrObj, storeToDB pvss st.driver st.mapper.objects msg.address (cString msg.value) msg.invalid =
    some (e, .toDp obj addrObj) ∧ obj.address = lookedUp st.driver msg ∧ obj.invalid = true

/- No cycle count behind the mapped name; or one of at least -1, and what the
queue keeps of its last n - 1 samples equals the first byte of the message. -/
def Passes (st : Process) (msg : Message) : Prop :=
  Driver.hasParameter (lookedUp st.driver msg) = true →
    -1 ≤ Driver.extractTime (lookedUp st.driver msg) ∧
    Settled ((st.driver.queue (lookedUp st.driver msg)).rtake
      ((Driver.extractTime (lookedUp st.driver msg)).toNat - 1)) (firstByte msg.value)

theorem forwardsPasses (pvss : Pvss) {st : Process} {msg : Message} (windows : Windows st)
    (present : Registered st.mapper.objects (lookedUp st.driver msg)) :
    Forwards pvss st msg ↔ Passes st msg := by
  by_cases marked : Driver.hasParameter (lookedUp st.driver msg) = true
  · rw [forwardsSmoothed windows present marked, slide, settledSnoc, Passes]
    exact ⟨fun passes _ => passes, fun passes => passes marked⟩
  · exact ⟨fun _ has => absurd has marked, fun _ => forwardsPlain present marked⟩

theorem invalidatesForwards {pvss : Pvss} {st : Process} {msg : Message} (invalid : msg.invalid = true) :
    Invalidates pvss st msg ↔ Forwards pvss st msg := by
  constructor
  · rintro ⟨e, obj, addrObj, stored, _⟩
    exact ⟨e, obj, addrObj, stored⟩
  · rintro ⟨e, obj, addrObj, stored⟩
    have about : obj = objectFor (lookedUp st.driver msg) (cString msg.value) msg.invalid := (storeFrame stored).1
    exact ⟨e, obj, addrObj, stored, by rw [about]; rfl, by rw [about]; exact invalid⟩

/-! A batch of messages for different names: each is judged by the state before. -/

/- One of the calls handed an object of this name with the bit set to toDp. -/
def Received (calls : List Call) (fullName : QString) : Prop :=
  ∃ s, .storeToDB s ∈ calls ∧ s.outcome.forwarded = true ∧ s.outcome.obj.address = fullName ∧
    s.outcome.obj.invalid = true

theorem receivedCons {call : Call} {calls : List Call} {fullName : QString} :
    Received (call :: calls) fullName ↔ Received [call] fullName ∨ Received calls fullName := by
  constructor
  · rintro ⟨s, mem, facts⟩
    rcases List.mem_cons.mp mem with rfl | later
    · exact Or.inl ⟨s, List.mem_singleton.mpr rfl, facts⟩
    · exact Or.inr ⟨s, later, facts⟩
  · rintro (⟨s, mem, facts⟩ | ⟨s, later, facts⟩)
    · exact ⟨s, List.mem_cons.mpr (Or.inl (List.mem_singleton.mp mem)), facts⟩
    · exact ⟨s, List.mem_cons_of_mem _ later, facts⟩

theorem passesLater {pvss : Pvss} {st t : Process} {msg other : Message}
    (differ : lookedUp st.driver other ≠ lookedUp st.driver msg) (ok : handle pvss st msg = some t) :
    Passes t other ↔ Passes st other := by
  obtain ⟨_, names, queues⟩ := handleFrame ok
  rw [Passes, Passes, names, queues _ differ]

theorem handleReceives {pvss : Pvss} {st t : Process} {msg : Message} (windows : Windows st)
    (invalid : msg.invalid = true) (ok : handle pvss st msg = some t) :
    ∃ call, t.calls = st.calls ++ [call] ∧
      (∀ name, Received [call] name → name = lookedUp st.driver msg) ∧
      (Registered st.mapper.objects (lookedUp st.driver msg) →
        (Received [call] (lookedUp st.driver msg) ↔ Passes st msg)) := by
  obtain ⟨driver, outcome, stored, rfl⟩ := handleCases ok
  have about := (storeFrame stored).1
  have named : outcome.obj.address = lookedUp st.driver msg := by rw [about]; rfl
  have flagged : outcome.obj.invalid = true := by rw [about]; exact invalid
  refine ⟨_, rfl, ?_, ?_⟩
  · rintro name ⟨s, mem, _, same, _⟩
    cases List.mem_singleton.mp mem
    exact same.symm.trans named
  · intro present
    rw [← forwardsPasses pvss windows present, Forwards, stored]
    constructor
    · rintro ⟨s, mem, forward, _⟩
      cases List.mem_singleton.mp mem
      cases outcome with
      | toDp obj addrObj => exact ⟨driver, obj, addrObj, rfl⟩
      | smoothed obj addrObj time => cases forward
      | unknown obj => cases forward
    · rintro ⟨e, obj, addrObj, same⟩
      obtain ⟨rfl, rfl⟩ := Prod.mk.inj (Option.some.inj same)
      exact ⟨_, List.mem_singleton.mpr rfl, rfl, named, flagged⟩

/- Names of a batch after its first message. -/
theorem batchTail {pvss : Pvss} {msg : Message} {rest : List Message} {st t : Process}
    (distinct : ((msg :: rest).map (lookedUp st.driver)).Nodup) (ok : handle pvss st msg = some t) :
    rest.map (lookedUp t.driver) = rest.map (lookedUp st.driver) ∧
    (rest.map (lookedUp t.driver)).Nodup ∧
    ∀ other ∈ rest, lookedUp st.driver other ≠ lookedUp st.driver msg := by
  have same : rest.map (lookedUp t.driver) = rest.map (lookedUp st.driver) :=
    List.map_congr_left fun other _ => (handleFrame ok).2.1 other
  obtain ⟨fresh, apart⟩ := List.nodup_cons.mp distinct
  exact ⟨same, same ▸ apart, fun other mem equal =>
    fresh (equal ▸ List.mem_map.mpr ⟨other, mem, rfl⟩)⟩

theorem batchReceives {pvss : Pvss} {msgs : List Message} {st t : Process} (windows : Windows st)
    (invalid : ∀ msg ∈ msgs, msg.invalid = true) (distinct : (msgs.map (lookedUp st.driver)).Nodup)
    (ok : Runs.run (handle pvss) st msgs = some t) :
    ∃ made, t.calls = st.calls ++ made ∧
      (∀ name, Received made name → name ∈ msgs.map (lookedUp st.driver)) ∧
      ∀ msg ∈ msgs, Registered st.mapper.objects (lookedUp st.driver msg) →
        (Received made (lookedUp st.driver msg) ↔ Passes st msg) := by
  induction msgs generalizing st with
  | nil =>
    cases Option.some.inj ok
    exact ⟨[], by simp, by simp [Received], by simp⟩
  | cons msg rest ih =>
    obtain ⟨u, first, tail⟩ := Option.bind_eq_some_iff.mp ok
    obtain ⟨mapper, names, _⟩ := handleFrame first
    obtain ⟨sameNames, apart, differ⟩ := batchTail distinct first
    obtain ⟨call, calls, only, here⟩ := handleReceives windows (invalid msg List.mem_cons_self) first
    obtain ⟨made, shape, about, there⟩ := ih (handleWindows windows first)
      (fun other mem => invalid other (List.mem_cons_of_mem _ mem)) apart tail
    rw [sameNames] at about
    refine ⟨call :: made, by rw [shape, calls, List.append_assoc]; rfl, ?_, ?_⟩
    · intro name received
      rcases receivedCons.mp received with first | later
      · exact List.mem_cons.mpr (Or.inl (only name first))
      · exact List.mem_cons_of_mem _ (about name later)
    · intro other mem present
      rw [receivedCons]
      rcases List.mem_cons.mp mem with rfl | mem
      · have notLater : ¬ Received made (lookedUp st.driver other) := by
          intro later
          obtain ⟨twin, inRest, same⟩ := List.mem_map.mp (about _ later)
          exact differ twin inRest same
        rw [or_iff_left notLater]
        exact here present
      · -- a later message of the batch: its queue is still the one of the state before
        have notFirst : ¬ Received [call] (lookedUp st.driver other) :=
          fun first => differ other mem (only _ first)
        have later := there other mem (by rw [names, mapper]; exact present)
        rw [names, passesLater (differ other mem) first] at later
        rw [or_iff_right notFirst]
        exact later

/- No store of the batch runs into undefined behaviour when all of them pass. -/
theorem batchRuns (pvss : Pvss) {msgs : List Message} {st : Process} (windows : Windows st)
    (distinct : (msgs.map (lookedUp st.driver)).Nodup)
    (pass : ∀ msg ∈ msgs, Registered st.mapper.objects (lookedUp st.driver msg) → Passes st msg) :
    ∃ t, Runs.run (handle pvss) st msgs = some t := by
  induction msgs generalizing st with
  | nil => exact ⟨st, rfl⟩
  | cons msg rest ih =>
    have moves : ∃ u, handle pvss st msg = some u := by
      by_cases present : Registered st.mapper.objects (lookedUp st.driver msg)
      · obtain ⟨e, obj, addrObj, stored⟩ :=
          (forwardsPasses pvss windows present).mpr (pass msg List.mem_cons_self present)
        exact ⟨_, by rw [handleStored, stored]; rfl⟩
      · have stored := storeUnregistered pvss (cString msg.value) msg.invalid present
        exact ⟨_, by rw [handleStored, stored]; rfl⟩
    obtain ⟨u, first⟩ := moves
    obtain ⟨mapper, names, _⟩ := handleFrame first
    obtain ⟨_, apart, differ⟩ := batchTail distinct first
    obtain ⟨t, tail⟩ := ih (handleWindows windows first) apart (by
      intro other mem present
      rw [names, mapper] at present
      exact (passesLater (differ other mem) first).mpr (pass other (List.mem_cons_of_mem _ mem) present))
    exact ⟨t, by rw [Runs.runCons, first]; exact tail⟩

/-! The invalid notifications of a whole bus. -/

def AllPass (st : Process) (count : Nat) (type : DriverTypes) (agent b : Int) : Prop :=
  ∀ i < count, Registered st.mapper.objects (lookedUp st.driver (invalidMessage type agent b i)) →
    Passes st (invalidMessage type agent b i)

/- workProc returns, and among the calls it made after those of st each registered
name of the bus has received an invalid update. -/
def AllReceived (pvss : Pvss) (sent st : Process) (count : Nat) (type : DriverTypes) (agent b : Int) :
    Prop :=
  ∃ t, workProc pvss sent = some t ∧
    ∀ i < count, Registered st.mapper.objects (lookedUp st.driver (invalidMessage type agent b i)) →
      Received (t.calls.drop st.calls.length) (lookedUp st.driver (invalidMessage type agent b i))

theorem receivedSets {made : List Call} {values : List DpValue} {name : QString} :
    Received (made ++ values.map Call.dpSet) name ↔ Received made name := by
  constructor
  · rintro ⟨s, mem, facts⟩
    rcases List.mem_append.mp mem with store | set
    · exact ⟨s, store, facts⟩
    · obtain ⟨v, _, other⟩ := List.mem_map.mp set
      cases other
  · rintro ⟨s, mem, facts⟩
    exact ⟨s, List.mem_append_left _ mem, facts⟩

theorem namesDistinct {d : Driver} (routed : d.Routed) (count : Nat) (type : DriverTypes) (agent b : Int) :
    ((invalidMessages count type agent b).map (lookedUp d)).Nodup := by
  rw [invalidMessages, List.map_map]
  apply List.nodup_range.map
  intro i j same
  have numbers := Addressing.lookedUpInjective routed same
  omega

theorem busReceives {pvss : Pvss} {st mid : Process} {waiting : List Message} (routed : mid.driver.Routed)
    (windows : Windows mid) (drained : Runs.run (handle pvss) st waiting = some mid)
    (values : List DpValue) (count : Nat) (type : DriverTypes) (agent b : Int) :
    AllReceived pvss (sendInvalid count type {st with messages := waiting, dpValues := values} agent b)
      mid count type agent b ↔ AllPass mid count type agent b := by
  have distinct := namesDistinct routed count type agent b
  have sent : ∀ msg ∈ invalidMessages count type agent b, msg.invalid = true := by
    intro msg mem
    obtain ⟨i, _, rfl⟩ := List.mem_map.mp mem
    rfl
  have worked : workProc pvss (sendInvalid count type {st with messages := waiting, dpValues := values} agent b) =
      (Runs.run (handle pvss) mid (invalidMessages count type agent b)).map (fun t =>
        {t with messages := [], dpValues := [], calls := t.calls ++ values.map Call.dpSet}) := by
    have queued : sendInvalid count type {st with messages := waiting, dpValues := values} agent b =
        {st with messages := waiting ++ invalidMessages count type agent b, dpValues := values} :=
      sendInvalidEnqueues count type _ agent b
    rw [queued, workProcRun, runWaiting, Runs.runAppend, drained, Option.map_map]
    rfl
  constructor
  · rintro ⟨t, work, received⟩ i small present
    rw [worked] at work
    obtain ⟨u, ran, rfl⟩ := Option.map_eq_some_iff.mp work
    obtain ⟨made, calls, _, exact⟩ := batchReceives windows sent distinct ran
    have here := received i small present
    rw [calls, List.append_assoc, List.drop_left, receivedSets] at here
    exact (exact _ (List.mem_map.mpr ⟨i, List.mem_range.mpr small, rfl⟩) present).mp here
  · intro pass
    obtain ⟨u, ran⟩ := batchRuns pvss windows distinct (by
      intro msg mem present
      obtain ⟨i, small, rfl⟩ := List.mem_map.mp mem
      exact pass i (List.mem_range.mp small) present)
    obtain ⟨made, calls, _, exact⟩ := batchReceives windows sent distinct ran
    refine ⟨_, by rw [worked, ran]; rfl, ?_⟩
    intro i small present
    show Received ((u.calls ++ values.map Call.dpSet).drop mid.calls.length) _
    rw [calls, List.append_assoc, List.drop_left, receivedSets]
    exact (exact _ (List.mem_map.mpr ⟨i, List.mem_range.mpr small, rfl⟩) present).mpr (pass i small present)

/- In every reachable state: an invalid message for a registered name reaches toDp
exactly when it passes, and so does every name of a bus that is declared invalid,
whatever was waiting before. -/
theorem invalidReceived (pvss : Pvss) (mapper : HWMapper) (ops : List Op) (st : Process)
    (reached : Runs.run (step pvss) (boot mapper) ops = some st) :
    (∀ msg, msg.invalid = true → Registered st.mapper.objects (lookedUp st.driver msg) →
      (Invalidates pvss st msg ↔ Passes st msg)) ∧
    ∀ waiting values mid, Runs.run (handle pvss) st waiting = some mid → ∀ agent b,
      let queued := {st with messages := waiting, dpValues := values}
      (AllReceived pvss (sendInvalidCoils queued agent b) mid COIL_NUMBER .COILS agent b ↔
        AllPass mid COIL_NUMBER .COILS agent b) ∧
      (AllReceived pvss (sendInvalidRegisters queued agent b) mid REGISTER_NUMBER .REGISTERS agent b ↔
        AllPass mid REGISTER_NUMBER .REGISTERS agent b) := by
  constructor
  · intro msg invalid present
    exact (invalidatesForwards invalid).trans (forwardsPasses _ (runWindows reached) present)
  · intro waiting values mid drained agent b queued
    -- the state after the waiting messages is a reachable one as well
    have later : Runs.run (step pvss) (boot mapper) (ops ++ waiting.map Op.drain) = some mid := by
      rw [Runs.runAppend, reached, Option.bind_some, Runs.runMap]
      exact drained
    exact ⟨busReceives (runRouted later) (runWindows later) drained values _ _ agent b,
      busReceives (runRouted later) (runWindows later) drained values _ _ agent b⟩

def smoothedConf : PeriphAddr := ⟨"1_1701_1.1$2".toList, 1701⟩

/- The coil is on, then its device stops answering. -/
def coilOn : List Op :=
  [.config (.addDpPa none smoothedConf true), .drain (message 1 1 1 1701 "1".toList false)]

theorem invalidReceivedSecond : ∃ st, Runs.run (step Pvss.front) (boot ⟨[], []⟩)
      (coilOn ++ [.drain (invalidMessage .COILS 1 1 0)]) = some st ∧
    Invalidates Pvss.front st (invalidMessage .COILS 1 1 0) ∧
    AllReceived Pvss.front (sendInvalidCoils {st with messages := [], dpValues := []} 1 1) st
      COIL_NUMBER .COILS 1 1 := by
  have facts : (Runs.run (step Pvss.front) (boot ⟨[], []⟩)
      (coilOn ++ [.drain (invalidMessage .COILS 1 1 0)])).map (fun st =>
        (lookedUp st.driver (invalidMessage .COILS 1 1 0), addresses st.mapper,
          st.driver.queue smoothedConf.name)) =
      some (smoothedConf.name, [smoothedConf.name], [49, 48]) := by decide
  obtain ⟨st, reached, facts⟩ := Option.map_eq_some_iff.mp facts
  obtain ⟨mapped, facts⟩ := Prod.mk.inj facts
  obtain ⟨names, queue⟩ := Prod.mk.inj facts
  have pass : AllPass st COIL_NUMBER .COILS 1 1 := by
    intro i _ present
    rw [registeredIff, names, List.mem_singleton] at present
    have zero : (invalidMessage .COILS 1 1 i).value = number 0 := rfl
    rw [Passes, present, queue, zero]
    decide
  have present : Registered st.mapper.objects (lookedUp st.driver (invalidMessage .COILS 1 1 0)) := by
    rw [mapped, registeredIff, names]
    decide
  obtain ⟨one, bus⟩ := invalidReceived Pvss.front _ _ st reached
  exact ⟨st, reached, (one _ rfl present).mpr (pass 0 (by decide) present),
    (bus [] [] st rfl 1 1).1.mpr pass⟩

/- The first invalid notification after the last good sample is smoothed away. -/
theorem notAlwaysInvalidated : ¬ ∀ (pvss : Pvss) (mapper : HWMapper) (ops : List Op) (st : Process),
    Runs.run (step pvss) (boot mapper) ops = some st → ∀ msg, msg.invalid = true →
    Registered st.mapper.objects (lookedUp st.driver msg) → Invalidates pvss st msg := by
  intro all
  have facts : (Runs.run (step Pvss.front) (boot ⟨[], []⟩) coilOn).map (fun st =>
        (lookedUp st.driver (invalidMessage .COILS 1 1 0), addresses st.mapper,
          st.driver.queue smoothedConf.name)) =
      some (smoothedConf.name, [smoothedConf.name], [49]) := by decide
  obtain ⟨st, reached, facts⟩ := Option.map_eq_some_iff.mp facts
  obtain ⟨mapped, facts⟩ := Prod.mk.inj facts
  obtain ⟨names, queue⟩ := Prod.mk.inj facts
  have present : Registered st.mapper.objects (lookedUp st.driver (invalidMessage .COILS 1 1 0)) := by
    rw [mapped, registeredIff, names]
    decide
  have received := all Pvss.front _ _ st reached (invalidMessage .COILS 1 1 0) rfl present
  have passes := (forwardsPasses _ (runWindows reached) present).mp ((invalidatesForwards rfl).mp received)
  rw [Passes, mapped, queue] at passes
  exact absurd passes (by decide)

end SerialModbus.Invalidation
