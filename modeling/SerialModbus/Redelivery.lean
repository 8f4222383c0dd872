import SerialModbus.Configuration

/-! Bus lists that are delivered again. A list is added to what its master has,
where any other setting is replaced. -/
namespace SerialModbus.Redelivery
open Text Global SerialModbusResources Identifiers SerialModbus.Configuration

/- A bus list for a master that is there becomes its bus list. -/
def Replaced (points : List PVSSDataPoint) (d : Driver) (c : Callback) (e : Driver) : Prop :=
  ∀ dp ∈ points, dp.dpId = c.dpId → dp.usage = .ADDRESS_BUS → (d.getMBus dp.number).isSome = true →
    ∃ m, e.getMBus dp.number = some m ∧ m.bus = c.value.items

/- What came for the bus list of that master before carried no items. -/
def NoItemsBefore (points : List PVSSDataPoint) (before : List Callback) (c : Callback) : Prop :=
  ∀ dp ∈ points, dp.dpId = c.dpId → dp.usage = .ADDRESS_BUS →
    ∀ earlier ∈ delivered points before (dpNameOf dp.number .ADDRESS_BUS), earlier.value.items = []

section Points

variable {points : List PVSSDataPoint} {before : List Callback} {c : Callback} {dp : PVSSDataPoint}
  {r : SerialModbusResources}
  (named : ∀ dp ∈ points, ∀ k u, dp.dpName = dpNameOf k u ↔ dp.number = k ∧ dp.usage = u)
  (distinct : (points.map PVSSDataPoint.dpId).Nodup) (dps : r.dps = points)

include named distinct dps in
/- The list of a master after a delivery: what it had, and the items behind it. -/
theorem busAfter {start d e : Driver} (ok : Runs.run (deliver r) {start with mbus := ∅} before = some d)
    (moved : deliver r d c = some e) (mem : dp ∈ points) (same : dp.dpId = c.dpId)
    (bus : dp.usage = .ADDRESS_BUS) : ∃ m, e.getMBus dp.number = some m ∧
      m.bus = (delivered points before (dpNameOf dp.number .ADDRESS_BUS)).flatMap (fun c => c.value.items) ++
        c.value.items := by
  have ran : Runs.run (deliver r) {start with mbus := ∅} (before ++ [c]) = some e := by
    rw [Runs.runSnoc, ok]
    exact moved
  have held := completedHeld named distinct dps ran
  obtain ⟨m, got⟩ := Option.isSome_iff_exists.mp ((held.created dp.number).mpr ⟨c, by simp, dp, mem, same, rfl⟩)
  refine ⟨m, got, ?_⟩
  rw [(held.masters _ m got).2.2.bus]
  simp only [deliveredSnoc, if_pos ((ownName named distinct mem same _ _).mpr ⟨rfl, bus⟩),
    List.flatMap_append, List.flatMap_singleton]

include named distinct dps in
theorem stepReplaced {start d e : Driver}
    (ok : Runs.run (deliver r) {start with mbus := ∅} before = some d) (moved : deliver r d c = some e) :
    Replaced points d c e ↔ NoItemsBefore points before c := by
  have held := completedHeld named distinct dps ok
  constructor
  · intro replaced dp mem same bus
    cases h : d.getMBus dp.number with
    | none =>
      have silent : ¬ Called points before dp.number := by
        rw [← held.created, h]
        decide
      rw [deliveredNone named silent]
      intro earlier none
      contradiction
    | some old =>
      obtain ⟨m, got, list⟩ := replaced dp mem same bus (by rw [h]; rfl)
      obtain ⟨n, also, whole⟩ := busAfter named distinct dps ok moved mem same bus
      rw [got] at also
      cases Option.some.inj also
      rw [whole, List.append_left_eq_self, List.flatMap_eq_nil_iff] at list
      exact list
  · intro none dp mem same bus _
    obtain ⟨m, got, whole⟩ := busAfter named distinct dps ok moved mem same bus
    have empty := List.flatMap_eq_nil_iff.mpr (none dp mem same bus)
    exact ⟨m, got, by rw [whole, empty, List.nil_append]⟩

end Points

/- With the identifiers of any queried points in place, and any callbacks: each bus
list that comes for a master replaces the one before exactly when nothing with
items came for it before. -/
theorem replacedExact (exchanges : List Exchange) (answerable : Answerable exchanges)
    (complete : (answers exchanges).length = (queries exchanges).length)
    (distinct : (nonNull (answers exchanges)).Nodup) (start : Driver) (callbacks : List Callback) :
    let points := given (queries exchanges) (answers exchanges)
    ∃ r, Runs.run step new exchanges = some r ∧
      ((∀ before c d e, before ++ [c] <+: callbacks →
          Runs.run (deliver r) {start with mbus := ∅} before = some d → deliver r d c = some e →
          Replaced points d c e) ↔
        ∀ before c d e, before ++ [c] <+: callbacks →
          Runs.run (deliver r) {start with mbus := ∅} before = some d → deliver r d c = some e →
          NoItemsBefore points before c) := by
  intro points
  obtain ⟨r, ran, dps, ids⟩ := pointsAnswered answerable complete distinct
  refine ⟨r, ran, ?_⟩
  refine forall_congr' fun before => forall_congr' fun c => forall_congr' fun d => forall_congr' fun e => ?_
  refine forall_congr' fun _ => forall_congr' fun ok => forall_congr' fun moved => ?_
  exact stepReplaced givenNamed ids dps ok moved

/- The port and the bus list of agent 1; its mode is missing. -/
def portAndBus : List Exchange :=
  [.query 0, .query 1, .query 7, .answer none, .answer (some 7), .answer (some 8)]

def portUpdate : Callback := ⟨some 7, ⟨"COM1".toList, 0, []⟩⟩
def busUpdate : Callback := ⟨some 8, ⟨[], 0, [3]⟩⟩

/- A port and one bus list. -/
theorem replacedExactOne : ∃ r, Runs.run step new portAndBus = some r ∧
    ∀ before c d e, before ++ [c] <+: [portUpdate, busUpdate] →
      Runs.run (deliver r) {Driver.new with mbus := ∅} before = some d → deliver r d c = some e →
      Replaced (given (queries portAndBus) (answers portAndBus)) d c e := by
  obtain ⟨r, ran, replaced⟩ := replacedExact portAndBus (by decide) (by decide) (by decide) Driver.new
    [portUpdate, busUpdate]
  refine ⟨r, ran, replaced.mpr ?_⟩
  rintro before c _ _ ⟨after, parts⟩ _ _ dp _ _ _ earlier heard
  have mem := List.mem_of_mem_filter heard
  cases before with
  | nil => contradiction
  | cons first rest =>
    obtain ⟨rfl, parts⟩ := List.cons.inj parts
    cases rest with
    | nil => rw [List.mem_singleton.mp mem]; rfl
    | cons second rest => simp at parts

/- After a reconnect the same list comes again: the driver polls its slave twice. -/
theorem notReplaced : ¬ ∀ (exchanges : List Exchange), Answerable exchanges →
    (answers exchanges).length = (queries exchanges).length → (nonNull (answers exchanges)).Nodup →
    ∀ r, Runs.run step new exchanges = some r → ∀ (start : Driver) before c d e,
      Runs.run (deliver r) {start with mbus := ∅} before = some d → deliver r d c = some e →
      Replaced (given (queries exchanges) (answers exchanges)) d c e := by
  intro all
  have answerable : Answerable portAndBus := by decide
  obtain ⟨r, ran, dps, ids⟩ := pointsAnswered answerable rfl (by decide)
  have order : BusNotFirst (given (queries portAndBus) (answers portAndBus))
      ([portUpdate, busUpdate] ++ [busUpdate]) := by decide
  obtain ⟨e, reached, _⟩ := runHeld givenNamed ids dps Driver.new order
  obtain ⟨d, ok, moved⟩ := Runs.runSnocSome reached
  have replaced := all portAndBus answerable rfl (by decide) r ran Driver.new _ _ d e ok moved
  rw [stepReplaced givenNamed ids dps ok moved] at replaced
  have mem : point 7 (some 8) ∈ given (queries portAndBus) (answers portAndBus) := by decide
  have heard : busUpdate ∈ delivered (given (queries portAndBus) (answers portAndBus))
      [portUpdate, busUpdate] (dpNameOf (point 7 (some 8)).number .ADDRESS_BUS) :=
    List.mem_filter.mpr ⟨by simp, (ownName givenNamed ids mem rfl _ _).mpr ⟨rfl, rfl⟩⟩
  exact absurd (replaced _ mem rfl rfl busUpdate heard) (by decide)

end SerialModbus.Redelivery
