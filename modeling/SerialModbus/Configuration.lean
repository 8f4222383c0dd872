import Mathlib.Logic.Function.Basic
import SerialModbus.Identifiers

/-! The answers that configure the bus masters. The name of a point decides which
setting of which master its values go to, and every setting keeps its last value. -/
namespace SerialModbus.Configuration
open Text Global SerialModbusResources Identifiers

/-! Names: an agent number and a usage, both of which the text gives back. -/

def format : DPUsage → QString
  | .ADDRESS_PORT => ADDRESS_PORT
  | .ADDRESS_MODE => ADDRESS_MODE
  | .ADDRESS_BAUDRATE => ADDRESS_BAUDRATE
  | .ADDRESS_DATABITS => ADDRESS_DATABITS
  | .ADDRESS_STOPBITS => ADDRESS_STOPBITS
  | .ADDRESS_PARITY => ADDRESS_PARITY
  | .ADDRESS_POLLING => ADDRESS_POLLING
  | .ADDRESS_BUS => ADDRESS_BUS
  | .ADDRESS_TIMEOUT => ADDRESS_TIMEOUT
  | .ADDRESS_RETRY => ADDRESS_RETRY
  | .ADDRESS_POLL_DELAY => ADDRESS_POLL_DELAY
  | .STATUS_STATUS_1 => STATUS_STATUS_1
  | .STATUS_STATUS_2 => STATUS_STATUS_2
  | .STATUS_HEARTBEAT => STATUS_HEARTBEAT
  | .STATUS_BUS => STATUS_BUS
  | .STATUS_BUS_INVALID => STATUS_BUS_INVALID

def usages : List DPUsage := entries.map Prod.snd

/- What follows '_SerialModbus_%d.' -/
def setting : DPUsage → String
  | .ADDRESS_PORT => "Address.Port:_online.._value"
  | .ADDRESS_MODE => "Address.Mode:_online.._value"
  | .ADDRESS_BAUDRATE => "Address.BaudRate:_online.._value"
  | .ADDRESS_DATABITS => "Address.DataBits:_online.._value"
  | .ADDRESS_STOPBITS => "Address.StopBits:_online.._value"
  | .ADDRESS_PARITY => "Address.Parity:_online.._value"
  | .ADDRESS_POLLING => "Address.Polling:_online.._value"
  | .ADDRESS_BUS => "Address.Bus:_online.._value"
  | .ADDRESS_TIMEOUT => "Address.Timeout:_online.._value"
  | .ADDRESS_RETRY => "Address.Retry:_online.._value"
  | .ADDRESS_POLL_DELAY => "Address.PollDelay:_online.._value"
  | .STATUS_STATUS_1 => "Status.Status_1:_original.._value"
  | .STATUS_STATUS_2 => "Status.Status_2:_original.._value"
  | .STATUS_HEARTBEAT => "Status.Heartbeat:_original.._value"
  | .STATUS_BUS => "Status.Bus:_original.._value"
  | .STATUS_BUS_INVALID => "Status.Bus:_original.._userbit1"

def stem : QString := "_SerialModbus_".toList

/- Master k is agent k + 1 in the names. -/
def agentName (k : Int) : QString := stem ++ number (k + 1)

def dpNameOf (k : Int) (u : DPUsage) : QString := agentName k ++ '.' :: (setting u).toList

theorem formatParts (u : DPUsage) : format u = stem ++ '%' :: 'd' :: '.' :: (setting u).toList := by
  have joined : format u = ("_SerialModbus_%d." ++ setting u).toList := by
    cases u <;> exact congrArg String.toList (by simp [setting])
  have start : "_SerialModbus_%d.".toList = stem ++ ['%', 'd', '.'] := rfl
  rw [joined, String.toList_append, start, List.append_assoc]
  rfl

theorem printedName (k : Int) (u : DPUsage) : sprintf (format u) [k + 1] = dpNameOf k u := by
  have plain : '%' ∉ stem := by decide
  rw [formatParts, sprintfOne plain, dpNameOf, agentName, List.append_assoc]

theorem settingInjective {u w : DPUsage} (same : setting u = setting w) : u = w := by
  have distinct : (usages.map setting).Nodup := by simp [usages, entries, setting]
  have all : ∀ u, u ∈ usages := by
    intro u
    cases u <;> decide
  exact List.inj_on_of_nodup_map distinct (all u) (all w) same

theorem agentDotless (k : Int) : '.' ∉ agentName k := by
  have front : '.' ∉ stem := by decide
  have digits : '.' ∉ number (k + 1) := numberOmits rfl (by decide) (k + 1)
  rw [agentName, List.mem_append]
  exact not_or.mpr ⟨front, digits⟩

theorem dpNameInjective {k l : Int} {u w : DPUsage} (same : dpNameOf k u = dpNameOf l w) :
    k = l ∧ u = w := by
  obtain ⟨agents, settings⟩ := Decimal.splitUnique (agentDotless k) (agentDotless l) same
  have numbers := numberInjective (List.append_cancel_left agents)
  exact ⟨by omega, settingInjective (String.toList_inj.mp settings)⟩

theorem entryFormat (index : Nat) : (entry index).1 = format (entry index).2 := by
  have all : ∀ e ∈ entries, e.1 = format e.2 := by simp [entries, format]
  exact all _ (List.get_mem _ _)

/- The name of a point tells its number and its usage. -/
theorem pointNamed (index : Nat) (dpId : DpIdentifier) (k : Int) (u : DPUsage) :
    (point index dpId).dpName = dpNameOf k u ↔
      (point index dpId).number = k ∧ (point index dpId).usage = u := by
  have named : (point index dpId).dpName = dpNameOf (point index dpId).number (point index dpId).usage := by
    have printed : (point index dpId).dpName = sprintf (entry index).1 [(point index dpId).number + 1] := rfl
    rw [printed, entryFormat]
    exact printedName _ _
  rw [named]
  constructor
  · exact dpNameInjective
  · rintro ⟨rfl, rfl⟩
    rfl

theorem indexInjective {i j : Nat} (same : (point i none).dpName = (point j none).dpName) : i = j := by
  obtain ⟨numbers, kinds⟩ := (pointNamed i none _ _).mp (same.trans ((pointNamed j none _ _).mpr ⟨rfl, rfl⟩))
  have distinct : (entries.map Prod.snd).Nodup := by decide
  have entries : entry i = entry j :=
    List.inj_on_of_nodup_map distinct (List.get_mem _ _) (List.get_mem _ _) kinds
  have entry : i % DP_NUMBER_OF_ENTRIES = j % DP_NUMBER_OF_ENTRIES :=
    congrArg Fin.val ((List.Nodup.get_inj_iff (List.Nodup.of_map _ distinct)).mp entries)
  have agent : i / DP_NUMBER_OF_ENTRIES = j / DP_NUMBER_OF_ENTRIES := Int.ofNat_inj.mp numbers
  rw [← Nat.div_add_mod i DP_NUMBER_OF_ENTRIES, agent, entry, Nat.div_add_mod]

/-! What is delivered to a point, and what the settings of a master make of it. -/

structure Callback where
  dpId : DpIdentifier
  value : Delivered
  deriving DecidableEq, Repr

def deliver (r : SerialModbusResources) (d : Driver) (c : Callback) : Option Driver :=
  r.answer4DpId d c.dpId c.value

/- The callbacks for the point of this name, in the order they came. -/
def delivered (points : List PVSSDataPoint) (callbacks : List Callback) (dpName : QString) : List Callback :=
  callbacks.filter (fun c => points.any (fun dp => dp.dpName == dpName && dp.dpId == c.dpId))

def lastText (callbacks : List Callback) : QString :=
  (callbacks.getLast?.map (fun c => c.value.text)).getD []

def lastInteger (callbacks : List Callback) : Option Int :=
  callbacks.getLast?.map (fun c => c.value.integer)

def lastId (callbacks : List Callback) : DpIdentifier := callbacks.getLast?.bind Callback.dpId

/- Every setting is the last value delivered for it; the bus list collects all. -/
structure Configured (m : MBusAbstract) (heard : DPUsage → List Callback) : Prop where
  port : m.port = lastText (heard .ADDRESS_PORT)
  baudRate : m.baudRate = lastInteger (heard .ADDRESS_BAUDRATE)
  dataBits : m.dataBits = lastInteger (heard .ADDRESS_DATABITS)
  stopBits : m.stopBits = lastInteger (heard .ADDRESS_STOPBITS)
  parity : m.parity = lastInteger (heard .ADDRESS_PARITY)
  polling : m.polling = lastInteger (heard .ADDRESS_POLLING)
  bus : m.bus = (heard .ADDRESS_BUS).flatMap (fun c => c.value.items)
  timeout : m.timeout = (lastInteger (heard .ADDRESS_TIMEOUT)).map
    (fun v => frameValue v TIMEOUT_MIN TIMEOUT_MAX TIMEOUT_DEFAULT)
  retry : m.retry = (lastInteger (heard .ADDRESS_RETRY)).map
    (fun v => frameValue v RETRY_MIN RETRY_MAX RETRY_MIN)
  pollDelay : m.pollDelay = (lastInteger (heard .ADDRESS_POLL_DELAY)).map
    (fun v => frameValue v POLL_DELAY_MIN POLL_DELAY_MAX POLL_DELAY_MIN)
  statusId_1 : m.statusId_1 = lastId (heard .STATUS_STATUS_1)
  statusId_2 : m.statusId_2 = lastId (heard .STATUS_STATUS_2)
  heartbeatId : m.heartbeatId = lastId (heard .STATUS_HEARTBEAT)
  statusBus : m.statusBus = lastId (heard .STATUS_BUS)
  statusBusInvalid : m.statusBusInvalid = lastId (heard .STATUS_BUS_INVALID)

/- What a callback for a point of this usage makes of the master. -/
def settle (m : MBusAbstract) (c : Callback) (u : DPUsage) : MBusAbstract :=
  if u = .ADDRESS_BUS then c.value.items.foldl MBusAbstract.addBus m else configure m c.dpId c.value u

theorem addBuses (m : MBusAbstract) (items : List Int) :
    items.foldl MBusAbstract.addBus m = {m with bus := m.bus ++ items} := by
  induction items generalizing m with
  | nil => simp
  | cons bus rest ih => simp [ih, MBusAbstract.addBus]

theorem settleIdentity (m : MBusAbstract) (c : Callback) (u : DPUsage) :
    (settle m c u).agentID = m.agentID ∧ (settle m c u).dpName = m.dpName := by
  cases u <;> simp [settle, configure, addBuses]

@[simp] theorem lastTextSnoc (callbacks : List Callback) (c : Callback) :
    lastText (callbacks ++ [c]) = c.value.text := by
  simp [lastText]

@[simp] theorem lastIntegerSnoc (callbacks : List Callback) (c : Callback) :
    lastInteger (callbacks ++ [c]) = some c.value.integer := by
  simp [lastInteger]

@[simp] theorem lastIdSnoc (callbacks : List Callback) (c : Callback) :
    lastId (callbacks ++ [c]) = c.dpId := by
  simp [lastId]

/- The setting of the usage takes the value, every other one stays with its own. -/
theorem settleConfigured {m : MBusAbstract} {heard : DPUsage → List Callback} (held : Configured m heard)
    (c : Callback) (u : DPUsage) : Configured (settle m c u) (Function.update heard u (heard u ++ [c])) := by
  cases u with
  | ADDRESS_PORT => exact {held with port := by simp [settle, configure]}
  | ADDRESS_MODE => exact {held with}
  | ADDRESS_BAUDRATE => exact {held with baudRate := by simp [settle, configure]}
  | ADDRESS_DATABITS => exact {held with dataBits := by simp [settle, configure]}
  | ADDRESS_STOPBITS => exact {held with stopBits := by simp [settle, configure]}
  | ADDRESS_PARITY => exact {held with parity := by simp [settle, configure]}
  | ADDRESS_POLLING => exact {held with polling := by simp [settle, configure]}
  | ADDRESS_BUS =>
    rw [settle, if_pos rfl, addBuses]
    exact {held with bus := by simp [held.bus]}
  | ADDRESS_TIMEOUT => exact {held with timeout := by simp [settle, configure]}
  | ADDRESS_RETRY => exact {held with retry := by simp [settle, configure]}
  | ADDRESS_POLL_DELAY => exact {held with pollDelay := by simp [settle, configure]}
  | STATUS_STATUS_1 => exact {held with statusId_1 := by simp [settle, configure]}
  | STATUS_STATUS_2 => exact {held with statusId_2 := by simp [settle, configure]}
  | STATUS_HEARTBEAT => exact {held with heartbeatId := by simp [settle, configure]}
  | STATUS_BUS => exact {held with statusBus := by simp [settle, configure]}
  | STATUS_BUS_INVALID => exact {held with statusBusInvalid := by simp [settle, configure]}

/-! One callback: the point is found by its identifier, the master by its number. -/

def freshMaster (dp : PVSSDataPoint) : MBusAbstract :=
  (MBusAbstract.new (left dp.dpName (indexOf dp.dpName '.'))).setAgentID (dp.number + 1)

def masterFor (d : Driver) (dp : PVSSDataPoint) : MBusAbstract := (d.getMBus dp.number).getD (freshMaster dp)

theorem parseBusSome (m : MBusAbstract) (items : List Int) :
    parseBus (some m) items = some (some (items.foldl MBusAbstract.addBus m)) := by
  induction items generalizing m with
  | nil => rfl
  | cons bus rest ih => exact ih (m.addBus bus)

theorem getMBusAdded (d : Driver) (k l : Int) (m : MBusAbstract) :
    (d.addMBus k m).getMBus l = if l = k then some m else d.getMBus l := by
  unfold Driver.addMBus Driver.getMBus
  split
  · rename_i same
    subst same
    exact AList.lookup_insert _
  · rename_i differ
    exact AList.lookup_insert_ne differ

theorem deliverUnknown {r : SerialModbusResources} {d : Driver} {c : Callback}
    (unknown : r.findDpById c.dpId = none) : deliver r d c = some d := by
  simp only [deliver, answer4DpId, unknown]

/- The bus list goes through the pointer read before the master was created. -/
def Nulled (d : Driver) (dp : PVSSDataPoint) (c : Callback) : Prop :=
  dp.usage = .ADDRESS_BUS ∧ d.getMBus dp.number = none ∧ c.value.items ≠ []
instance (d dp c) : Decidable (Nulled d dp c) := by
  unfold Nulled; infer_instance

theorem deliverExact {r : SerialModbusResources} {d : Driver} {c : Callback} {dp : PVSSDataPoint}
    (known : r.findDpById c.dpId = some dp) :
    deliver r d c = if Nulled d dp c then none
      else some (d.addMBus dp.number (settle (masterFor d dp) c dp.usage)) := by
  split
  · rename_i nulled
    obtain ⟨bus, null, items⟩ := nulled
    obtain ⟨first, rest, list⟩ := List.exists_cons_of_ne_nil items
    simp only [deliver, answer4DpId, known, bind, null, list, if_pos bus]
    rfl
  · rename_i pointed
    simp only [deliver, answer4DpId, known, bind, masterFor, settle]
    cases h : d.getMBus dp.number with
    | some m =>
      split
      · simp only [parseBusSome, Option.bind_some, Option.getD_some]
      · rfl
    | none =>
      split
      · -- an empty list leaves the null pointer alone
        rename_i bus
        have empty : c.value.items = [] := by
          by_contra items
          exact pointed ⟨bus, h, items⟩
        rw [empty]
        rfl
      · simp only [Driver.addMBus, AList.insert_insert]
        rfl

/-! A sequence of callbacks, over points as the queries and answers leave them. -/

/- A callback for some point of master k has come. -/
def Called (points : List PVSSDataPoint) (callbacks : List Callback) (k : Int) : Prop :=
  ∃ c ∈ callbacks, ∃ dp ∈ points, dp.dpId = c.dpId ∧ dp.number = k
instance (points callbacks k) : Decidable (Called points callbacks k) := by
  unfold Called; infer_instance

/- The bus list of a master is never the first that is delivered for it. -/
def BusNotFirst (points : List PVSSDataPoint) (callbacks : List Callback) : Prop :=
  ∀ pre c, pre ++ [c] <+: callbacks → ∀ dp ∈ points, dp.dpId = c.dpId → dp.usage = .ADDRESS_BUS →
    Called points pre dp.number
instance (points callbacks) : Decidable (BusNotFirst points callbacks) :=
  decidable_of_iff (∀ part ∈ callbacks.inits, ∀ c ∈ part.getLast?, ∀ dp ∈ points, dp.dpId = c.dpId →
      dp.usage = .ADDRESS_BUS → Called points part.dropLast dp.number) (by
    simp only [List.mem_inits]
    constructor
    · intro all pre c before dp mem same bus
      simpa using all (pre ++ [c]) before c (by simp) dp mem same bus
    · intro all part before c last
      exact all part.dropLast c (by rwa [List.dropLast_append_getLast? c last]))

structure Held (points : List PVSSDataPoint) (callbacks : List Callback) (d : Driver) : Prop where
  created : ∀ k, (d.getMBus k).isSome = true ↔ Called points callbacks k
  masters : ∀ k m, d.getMBus k = some m → m.agentID = some (k + 1) ∧ m.dpName = agentName k ∧
    Configured m (fun u => delivered points callbacks (dpNameOf k u))

theorem calledSnoc {points : List PVSSDataPoint} {callbacks : List Callback} {c : Callback} {k : Int} :
    Called points (callbacks ++ [c]) k ↔
      Called points callbacks k ∨ ∃ dp ∈ points, dp.dpId = c.dpId ∧ dp.number = k := by
  simp only [Called, List.mem_append, List.mem_singleton, or_and_right, exists_or, exists_eq_left]

theorem deliveredSnoc (points : List PVSSDataPoint) (callbacks : List Callback) (c : Callback)
    (dpName : QString) : delivered points (callbacks ++ [c]) dpName =
      if points.any (fun dp => dp.dpName == dpName && dp.dpId == c.dpId) then
        delivered points callbacks dpName ++ [c]
      else delivered points callbacks dpName := by
  rw [delivered, List.filter_append, delivered]
  split
  · rename_i some
    simp [some]
  · rename_i none
    simp [none]

section Points

variable {points : List PVSSDataPoint} {callbacks : List Callback} {c : Callback} {dp : PVSSDataPoint}
  (named : ∀ dp ∈ points, ∀ k u, dp.dpName = dpNameOf k u ↔ dp.number = k ∧ dp.usage = u)
  (distinct : (points.map PVSSDataPoint.dpId).Nodup)

include named distinct in
theorem ownName (mem : dp ∈ points) (same : dp.dpId = c.dpId) (k : Int) (u : DPUsage) :
    points.any (fun dp => dp.dpName == dpNameOf k u && dp.dpId == c.dpId) = true ↔
      dp.number = k ∧ dp.usage = u := by
  simp only [List.any_eq_true, Bool.and_eq_true, beq_iff_eq]
  constructor
  · rintro ⟨other, there, name, ident⟩
    have equal : other = dp := List.inj_on_of_nodup_map distinct there mem (ident.trans same.symm)
    exact (named dp mem k u).mp (equal ▸ name)
  · intro own
    exact ⟨dp, mem, (named dp mem k u).mpr own, same⟩

include named distinct in
/- A callback for another agent or another setting is not delivered there. -/
theorem deliveredOther (mem : dp ∈ points) (same : dp.dpId = c.dpId) {k : Int} {u : DPUsage}
    (other : dp.number ≠ k ∨ dp.usage ≠ u) :
    delivered points (callbacks ++ [c]) (dpNameOf k u) = delivered points callbacks (dpNameOf k u) := by
  rw [deliveredSnoc, if_neg]
  rw [ownName named distinct mem same]
  exact fun own => other.elim (fun differ => differ own.1) (fun differ => differ own.2)

include named distinct in
theorem deliveredOwn (mem : dp ∈ points) (same : dp.dpId = c.dpId) :
    (fun u => delivered points (callbacks ++ [c]) (dpNameOf dp.number u)) =
      Function.update (fun u => delivered points callbacks (dpNameOf dp.number u)) dp.usage
        (delivered points callbacks (dpNameOf dp.number dp.usage) ++ [c]) := by
  funext u
  by_cases usage : u = dp.usage
  · subst usage
    rw [Function.update_self, deliveredSnoc, if_pos]
    exact (ownName named distinct mem same _ _).mpr ⟨rfl, rfl⟩
  · rw [Function.update_of_ne usage]
    exact deliveredOther named distinct mem same (Or.inr (Ne.symm usage))

include named in
theorem deliveredNone {k : Int} (silent : ¬ Called points callbacks k) (u : DPUsage) :
    delivered points callbacks (dpNameOf k u) = [] := by
  rw [delivered, List.filter_eq_nil_iff]
  intro c mem heard
  simp only [List.any_eq_true, Bool.and_eq_true, beq_iff_eq] at heard
  obtain ⟨dp, there, name, ident⟩ := heard
  exact silent ⟨c, mem, dp, there, ident, ((named dp there k u).mp name).1⟩

include named in
/- What is delivered under a name, found by the number and the usage of its point. -/
theorem deliveredNumbered (callbacks : List Callback) (k : Int) (u : DPUsage) :
    delivered points callbacks (dpNameOf k u) = callbacks.filter (fun c =>
      points.any (fun dp => dp.number == k && dp.usage == u && dp.dpId == c.dpId)) := by
  refine List.filter_congr fun c _ => ?_
  rw [Bool.eq_iff_iff]
  simp only [List.any_eq_true, Bool.and_eq_true, beq_iff_eq]
  refine exists_congr fun dp => and_congr_right fun mem => and_congr_left fun _ => ?_
  exact named dp mem k u

include named in
theorem freshIdentity (mem : dp ∈ points) :
    (freshMaster dp).agentID = some (dp.number + 1) ∧ (freshMaster dp).dpName = agentName dp.number := by
  refine ⟨rfl, ?_⟩
  have name := (named dp mem dp.number dp.usage).mpr ⟨rfl, rfl⟩
  show left dp.dpName (indexOf dp.dpName '.') = agentName dp.number
  rw [name, dpNameOf, leftMark (agentDotless dp.number)]

theorem freshConfigured : Configured (freshMaster dp) (fun _ => []) := by
  constructor <;> rfl

/- A callback for no point, and one for the point it names. -/
theorem deliverCases {r : SerialModbusResources} {d e : Driver} (dps : r.dps = points)
    (ok : deliver r d c = some e) : (e = d ∧ ∀ dp ∈ points, dp.dpId ≠ c.dpId) ∨
      ∃ dp ∈ points, dp.dpId = c.dpId ∧ ¬ Nulled d dp c ∧
        e = d.addMBus dp.number (settle (masterFor d dp) c dp.usage) := by
  cases h : r.findDpById c.dpId with
  | none =>
    rw [deliverUnknown h] at ok
    refine Or.inl ⟨(Option.some.inj ok).symm, ?_⟩
    simpa [findDpById, dps] using h
  | some dp =>
    have mem : dp ∈ points := dps ▸ List.mem_of_find?_eq_some h
    have same : dp.dpId = c.dpId := by simpa using List.find?_some h
    rw [deliverExact h] at ok
    split at ok <;> try contradiction
    rename_i pointed
    exact Or.inr ⟨dp, mem, same, pointed, (Option.some.inj ok).symm⟩

theorem deliverCompletes {r : SerialModbusResources} {d : Driver} (dps : r.dps = points)
    (pointed : ∀ dp ∈ points, dp.dpId = c.dpId → ¬ Nulled d dp c) : ∃ e, deliver r d c = some e := by
  cases h : r.findDpById c.dpId with
  | none => exact ⟨d, deliverUnknown h⟩
  | some dp =>
    have mem : dp ∈ points := dps ▸ List.mem_of_find?_eq_some h
    have same : dp.dpId = c.dpId := by simpa using List.find?_some h
    exact ⟨_, by rw [deliverExact h, if_neg (pointed dp mem same)]⟩

/-! What holds of every master, as a relation between it and what was delivered
for each of its settings. -/

/- Master k goes by its own number and name, and is configured by what it heard. -/
def Own (k : Int) (m : MBusAbstract) (heard : DPUsage → List Callback) : Prop :=
  m.agentID = some (k + 1) ∧ m.dpName = agentName k ∧ Configured m heard

def Created (points : List PVSSDataPoint) (callbacks : List Callback) (d : Driver) : Prop :=
  ∀ k, (d.getMBus k).isSome = true ↔ Called points callbacks k

def Tracks (Q : Int → MBusAbstract → (DPUsage → List Callback) → Prop) (points : List PVSSDataPoint)
    (callbacks : List Callback) (d : Driver) : Prop :=
  ∀ k m, d.getMBus k = some m → Q k m (fun u => delivered points callbacks (dpNameOf k u))

theorem createdNone (start : Driver) : Created points [] {start with mbus := ∅} := by
  intro k
  simp [Driver.getMBus, Called]

theorem tracksNone (Q : Int → MBusAbstract → (DPUsage → List Callback) → Prop) (start : Driver) :
    Tracks Q points [] {start with mbus := ∅} := by
  intro k m got
  simp [Driver.getMBus] at got

include distinct in
theorem createdReached {r : SerialModbusResources} {d e : Driver} (dps : r.dps = points)
    (created : Created points callbacks d) (ok : deliver r d c = some e) :
    Created points (callbacks ++ [c]) e := by
  intro k
  rw [calledSnoc]
  rcases deliverCases dps ok with ⟨rfl, unknown⟩ | ⟨dp, mem, same, _, rfl⟩
  · rw [created, or_iff_left]
    rintro ⟨dp, mem, same, _⟩
    exact unknown dp mem same
  · rw [getMBusAdded]
    split
    · rename_i here
      exact iff_of_true rfl (Or.inr ⟨dp, mem, same, here.symm⟩)
    · rename_i elsewhere
      rw [created, or_iff_left]
      rintro ⟨other, there, ident, number⟩
      have equal : other = dp := List.inj_on_of_nodup_map distinct there mem (ident.trans same.symm)
      exact elsewhere (number.symm.trans (congrArg PVSSDataPoint.number equal))

theorem deliveredUnknown (unknown : ∀ dp ∈ points, dp.dpId ≠ c.dpId) (dpName : QString) :
    delivered points (callbacks ++ [c]) dpName = delivered points callbacks dpName := by
  rw [deliveredSnoc, if_neg]
  simp only [List.any_eq_true, Bool.and_eq_true, beq_iff_eq]
  rintro ⟨dp, mem, _, same⟩
  exact unknown dp mem same

section Tracking

variable {Q : Int → MBusAbstract → (DPUsage → List Callback) → Prop}
  (fresh : ∀ dp ∈ points, Q dp.number (freshMaster dp) (fun _ => []))
  (settles : ∀ k m heard c u, Q k m heard →
    Q k (settle m c u) (Function.update heard u (heard u ++ [c])))

include named fresh in
/- The master a callback works on, whether it was there or not. -/
theorem masterTracks {d : Driver} (created : Created points callbacks d)
    (tracks : Tracks Q points callbacks d) (mem : dp ∈ points) :
    Q dp.number (masterFor d dp) (fun u => delivered points callbacks (dpNameOf dp.number u)) := by
  cases h : d.getMBus dp.number with
  | some m =>
    rw [masterFor, h]
    exact tracks dp.number m h
  | none =>
    have silent : ¬ Called points callbacks dp.number := by
      rw [← created, h]
      decide
    have nothing : (fun u => delivered points callbacks (dpNameOf dp.number u)) = fun _ => [] :=
      funext fun u => deliveredNone named silent u
    rw [masterFor, h, nothing]
    exact fresh dp mem

include named distinct fresh settles in
/- A callback that completes, whatever came before it. -/
theorem tracksReached {r : SerialModbusResources} {d e : Driver} (dps : r.dps = points)
    (created : Created points callbacks d) (tracks : Tracks Q points callbacks d)
    (ok : deliver r d c = some e) : Tracks Q points (callbacks ++ [c]) e := by
  intro k m got
  rcases deliverCases dps ok with ⟨rfl, unknown⟩ | ⟨dp, mem, same, _, rfl⟩
  · have frame : (fun u => delivered points (callbacks ++ [c]) (dpNameOf k u)) =
        fun u => delivered points callbacks (dpNameOf k u) :=
      funext fun u => deliveredUnknown unknown _
    rw [frame]
    exact tracks k m got
  · rw [getMBusAdded] at got
    split at got
    · rename_i here
      subst here
      cases Option.some.inj got
      rw [deliveredOwn named distinct mem same]
      exact settles _ _ _ c dp.usage (masterTracks named fresh created tracks mem)
    · rename_i elsewhere
      have frame : (fun u => delivered points (callbacks ++ [c]) (dpNameOf k u)) =
          fun u => delivered points callbacks (dpNameOf k u) :=
        funext fun u => deliveredOther named distinct mem same (Or.inl (Ne.symm elsewhere))
      rw [frame]
      exact tracks k m got

include named distinct fresh settles in
theorem runTracks {r : SerialModbusResources} {d : Driver} (dps : r.dps = points) {start : Driver}
    (ok : Runs.run (deliver r) {start with mbus := ∅} callbacks = some d) :
    Created points callbacks d ∧ Tracks Q points callbacks d := by
  apply Runs.history (P := fun pre d => Created points pre d ∧ Tracks Q points pre d) _
    ⟨createdNone start, tracksNone Q start⟩ ok
  rintro pre c d e ⟨created, tracks⟩ moved
  exact ⟨createdReached distinct dps created moved,
    tracksReached named distinct fresh settles dps created tracks moved⟩

end Tracking

include named distinct in
theorem heldReached {r : SerialModbusResources} {d e : Driver} (dps : r.dps = points)
    (held : Held points callbacks d) (ok : deliver r d c = some e) : Held points (callbacks ++ [c]) e := by
  refine ⟨createdReached distinct dps held.created ok, ?_⟩
  apply tracksReached (Q := Own) named distinct _ _ dps held.created held.masters ok
  · intro dp mem
    obtain ⟨agent, name⟩ := freshIdentity named mem
    exact ⟨agent, name, freshConfigured⟩
  · rintro k m heard c u ⟨agent, name, configured⟩
    obtain ⟨sameAgent, sameName⟩ := settleIdentity m c u
    exact ⟨sameAgent.trans agent, sameName.trans name, settleConfigured configured c u⟩

theorem heldNone (start : Driver) : Held points [] {start with mbus := ∅} :=
  ⟨createdNone start, tracksNone Own start⟩

include named distinct in
theorem completedHeld {r : SerialModbusResources} {d : Driver} (dps : r.dps = points) {start : Driver}
    (ok : Runs.run (deliver r) {start with mbus := ∅} callbacks = some d) : Held points callbacks d :=
  Runs.history (fun _ _ _ _ held moved => heldReached named distinct dps held moved) (heldNone start) ok

include named distinct in
theorem runHeld {r : SerialModbusResources} (dps : r.dps = points) (start : Driver)
    (order : BusNotFirst points callbacks) :
    ∃ d, Runs.run (deliver r) {start with mbus := ∅} callbacks = some d ∧ Held points callbacks d := by
  apply Runs.progress (fun pre (c : Callback) => ∀ dp ∈ points, dp.dpId = c.dpId →
    dp.usage = .ADDRESS_BUS → Called points pre dp.number) _ (heldNone start) callbacks order
  intro pre c d held opened
  have pointed : ∀ dp ∈ points, dp.dpId = c.dpId → ¬ Nulled d dp c := by
    rintro dp mem same ⟨bus, null, _⟩
    have there := (held.created dp.number).mpr (opened dp mem same bus)
    rw [null] at there
    contradiction
  obtain ⟨e, ok⟩ := deliverCompletes dps pointed
  exact ⟨e, ok, heldReached named distinct dps held ok⟩

end Points

theorem frameBounds {last : Option Int} {min max defaultValue : Int} (low : min ≤ defaultValue)
    (high : defaultValue ≤ max) {t : Int} (got : last.map (fun v => frameValue v min max defaultValue) = some t) :
    min ≤ t ∧ t ≤ max := by
  obtain ⟨value, _, rfl⟩ := Option.map_eq_some_iff.mp got
  unfold frameValue
  split
  · exact ⟨low, high⟩
  · split <;> omega

/- What a number that was delivered becomes: within the range it stays, above it becomes the
largest of the range, and below it becomes the default. -/
structure Fitted (value min max defaultValue : Int) (setting : Option Int) : Prop where
  below : value < min → setting = some defaultValue
  within : min ≤ value → value ≤ max → setting = some value
  above : max < value → setting = some max

theorem frameFitted (value : Int) {min max : Int} (order : min ≤ max) (defaultValue : Int) :
    Fitted value min max defaultValue (some (frameValue value min max defaultValue)) := by
  unfold frameValue
  constructor
  · intro less
    rw [if_pos less]
  · intro low high
    rw [if_neg (Int.not_lt.mpr low), if_neg (Int.not_lt.mpr high)]
  · intro more
    rw [if_neg (Int.not_lt.mpr (Int.le_of_lt (Int.lt_of_le_of_lt order more))), if_pos more]

structure Framed (m : MBusAbstract) : Prop where
  timeout : ∀ t, m.timeout = some t → 1 ≤ t ∧ t ≤ 100000
  retry : ∀ n, m.retry = some n → 0 ≤ n ∧ n ≤ 10
  pollDelay : ∀ t, m.pollDelay = some t → 0 ≤ t ∧ t ≤ 100000

theorem configuredFramed {m : MBusAbstract} {heard : DPUsage → List Callback}
    (configured : Configured m heard) : Framed m := by
  refine ⟨?_, ?_, ?_⟩
  · intro t got
    rw [configured.timeout] at got
    exact frameBounds (by decide) (by decide) got
  · intro n got
    rw [configured.retry] at got
    exact frameBounds (by decide) (by decide) got
  · intro t got
    rw [configured.pollDelay] at got
    exact frameBounds (by decide) (by decide) got

/- The settings with a range, by the last number delivered for each. -/
structure Ranged (m : MBusAbstract) (heard : DPUsage → List Callback) : Prop where
  timeout : ∀ v, lastInteger (heard .ADDRESS_TIMEOUT) = some v → Fitted v 1 100000 1000 m.timeout
  retry : ∀ v, lastInteger (heard .ADDRESS_RETRY) = some v → Fitted v 0 10 0 m.retry
  pollDelay : ∀ v, lastInteger (heard .ADDRESS_POLL_DELAY) = some v → Fitted v 0 100000 0 m.pollDelay

theorem configuredRanged {m : MBusAbstract} {heard : DPUsage → List Callback}
    (configured : Configured m heard) : Ranged m heard := by
  refine ⟨?_, ?_, ?_⟩
  · intro v last
    rw [configured.timeout, last]
    exact frameFitted v (by decide) TIMEOUT_DEFAULT
  · intro v last
    rw [configured.retry, last]
    exact frameFitted v (by decide) RETRY_MIN
  · intro v last
    rw [configured.pollDelay, last]
    exact frameFitted v (by decide) POLL_DELAY_MIN

theorem givenNamed {indices : List Nat} {ids : List DpIdentifier} :
    ∀ dp ∈ given indices ids, ∀ k u, dp.dpName = dpNameOf k u ↔ dp.number = k ∧ dp.usage = u := by
  intro dp mem
  obtain ⟨_, index, n, _, _, rfl⟩ := memGiven.mp mem
  exact pointNamed index (some n)

/- When every name has its answer, the points are those that were given one. -/
theorem pointsAnswered {exchanges : List Exchange} (answerable : Answerable exchanges)
    (complete : (answers exchanges).length = (queries exchanges).length)
    (distinct : (nonNull (answers exchanges)).Nodup) :
    ∃ r, Runs.run step new exchanges = some r ∧ r.dps = given (queries exchanges) (answers exchanges) ∧
      ((given (queries exchanges) (answers exchanges)).map PVSSDataPoint.dpId).Nodup := by
  obtain ⟨r, ran, placed⟩ := runPlaced answerable
  refine ⟨r, ran, answeredAll placed complete, ?_⟩
  rw [givenIds complete.symm]
  exact distinct

/- With the identifiers of any queried points in place, some missing, and any
callbacks in any order: a master exists for each number that was called, it is
configured by the last value for each of its own names, numbers with a range by
their place in it, and callbacks for other agents and settings leave these alone. -/
theorem mastersConfigured (exchanges : List Exchange) (answerable : Answerable exchanges)
    (complete : (answers exchanges).length = (queries exchanges).length)
    (distinct : (nonNull (answers exchanges)).Nodup) (start : Driver) (callbacks : List Callback)
    (order : BusNotFirst (given (queries exchanges) (answers exchanges)) callbacks) :
    let points := given (queries exchanges) (answers exchanges)
    ∃ r d, Runs.run step new exchanges = some r ∧
      Runs.run (deliver r) {start with mbus := ∅} callbacks = some d ∧
      (∀ k, (d.getMBus k).isSome = true ↔ Called points callbacks k) ∧
      (∀ k m, d.getMBus k = some m → m.agentID = some (k + 1) ∧ m.dpName = agentName k ∧
        Configured m (fun u => delivered points callbacks (dpNameOf k u)) ∧ Framed m ∧
        Ranged m (fun u => delivered points callbacks (dpNameOf k u))) ∧
      (∀ c, ∀ dp ∈ points, dp.dpId = c.dpId → ∀ k u, dp.number ≠ k ∨ dp.usage ≠ u →
        delivered points (callbacks ++ [c]) (dpNameOf k u) =
          delivered points callbacks (dpNameOf k u)) := by
  intro points
  obtain ⟨r, ran, dps, ids⟩ := pointsAnswered answerable complete distinct
  obtain ⟨d, called, held⟩ := runHeld givenNamed ids dps start order
  refine ⟨r, d, ran, called, held.created, ?_, ?_⟩
  · intro k m got
    obtain ⟨agent, name, configured⟩ := held.masters k m got
    exact ⟨agent, name, configured, configuredFramed configured, configuredRanged configured⟩
  · intro c dp mem same k u other
    exact deliveredOther givenNamed ids mem same other

/- All points of agent 1 exist. -/
def wholeAgent : List Exchange :=
  (List.range DP_NUMBER_OF_ENTRIES).map .query ++
    (List.range DP_NUMBER_OF_ENTRIES).map (fun index => .answer (some index))

/- Each is delivered but for the mode and the invalid bit, and the port once more. The timeout
is too long and the poll delay negative. -/
def wholeSettings : List Callback :=
  [⟨some 1, ⟨"COM1".toList, 0, []⟩⟩, ⟨some 2, ⟨[], 9600, []⟩⟩, ⟨some 3, ⟨[], 8, []⟩⟩, ⟨some 4, ⟨[], 1, []⟩⟩,
   ⟨some 5, ⟨[], 0, []⟩⟩, ⟨some 6, ⟨[], 500, []⟩⟩, ⟨some 7, ⟨[], 0, [3]⟩⟩, ⟨some 8, ⟨[], 250000, []⟩⟩,
   ⟨some 9, ⟨[], 3, []⟩⟩, ⟨some 10, ⟨[], -1, []⟩⟩, ⟨some 11, ⟨[], 0, []⟩⟩, ⟨some 12, ⟨[], 0, []⟩⟩,
   ⟨some 13, ⟨[], 0, []⟩⟩, ⟨some 14, ⟨[], 0, []⟩⟩, ⟨some 1, ⟨"COM2".toList, 0, []⟩⟩]

theorem mastersConfiguredOne : ∃ (d : Driver) (m : MBusAbstract), d.getMBus 0 = some m ∧
    m.agentID = some 1 ∧ m.port = "COM2".toList ∧ m.bus = [3] ∧ m.statusBus = some 14 ∧
    m.timeout = some 100000 ∧ m.retry = some 3 ∧ m.pollDelay = some 0 := by
  obtain ⟨r, d, _, _, created, masters, _⟩ := mastersConfigured wholeAgent (by decide +kernel) (by decide)
    (by decide) Driver.new wholeSettings (by decide +kernel)
  obtain ⟨m, got⟩ := Option.isSome_iff_exists.mp ((created 0).mpr (by decide +kernel))
  obtain ⟨agent, _, configured, _, ranged⟩ := masters 0 m got
  simp only [deliveredNumbered givenNamed] at configured ranged
  refine ⟨d, m, got, agent, ?_, ?_, ?_, ?_, ?_, ?_⟩
  · rw [configured.port]
    decide +kernel
  · rw [configured.bus]
    decide +kernel
  · rw [configured.statusBus]
    decide +kernel
  · exact (ranged.timeout 250000 (by decide +kernel)).above (by decide)
  · exact (ranged.retry 3 (by decide +kernel)).within (by decide) (by decide)
  · exact (ranged.pollDelay (-1) (by decide +kernel)).below (by decide)

end SerialModbus.Configuration
