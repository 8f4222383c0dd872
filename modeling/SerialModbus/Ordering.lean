import SerialModbus.Startup

/-! The callbacks for a master in any order. What they make of it does not depend
on the order, as long as the bus list does not have to create the master. -/
namespace SerialModbus.Ordering
open Text Global SerialModbusResources Identifiers SerialModbus.Configuration Startup

/- The master that was told this much. -/
def masterOf (k : Int) (heard : DPUsage → List Callback) : MBusAbstract where
  running := true
  started := !(heard .STATUS_BUS_INVALID).isEmpty
  agentID := some (k + 1)
  dpName := agentName k
  port := lastText (heard .ADDRESS_PORT)
  baudRate := lastInteger (heard .ADDRESS_BAUDRATE)
  dataBits := lastInteger (heard .ADDRESS_DATABITS)
  stopBits := lastInteger (heard .ADDRESS_STOPBITS)
  parity := lastInteger (heard .ADDRESS_PARITY)
  polling := lastInteger (heard .ADDRESS_POLLING)
  bus := (heard .ADDRESS_BUS).flatMap (fun c => c.value.items)
  timeout := (lastInteger (heard .ADDRESS_TIMEOUT)).map
    (fun v => frameValue v TIMEOUT_MIN TIMEOUT_MAX TIMEOUT_DEFAULT)
  retry := (lastInteger (heard .ADDRESS_RETRY)).map (fun v => frameValue v RETRY_MIN RETRY_MAX RETRY_MIN)
  pollDelay := (lastInteger (heard .ADDRESS_POLL_DELAY)).map
    (fun v => frameValue v POLL_DELAY_MIN POLL_DELAY_MAX POLL_DELAY_MIN)
  statusId_1 := lastId (heard .STATUS_STATUS_1)
  statusId_2 := lastId (heard .STATUS_STATUS_2)
  heartbeatId := lastId (heard .STATUS_HEARTBEAT)
  statusBus := lastId (heard .STATUS_BUS)
  statusBusInvalid := lastId (heard .STATUS_BUS_INVALID)

theorem ownMaster {k : Int} {m : MBusAbstract} {heard : DPUsage → List Callback} (own : Own k m heard)
    (begun : Begun k m heard) : m = masterOf k heard := by
  obtain ⟨agent, name, port, baudRate, dataBits, stopBits, parity, polling, bus, timeout, retry, pollDelay,
    statusId_1, statusId_2, heartbeatId, statusBus, statusBusInvalid⟩ := own
  obtain ⟨running, started⟩ := begun
  have thread : m.started = !(heard .STATUS_BUS_INVALID).isEmpty := by
    rw [Bool.eq_iff_iff, started]
    simp
  cases m
  simp only [masterOf, MBusAbstract.mk.injEq]
  exact ⟨running, thread, agent, name, port, baudRate, dataBits, stopBits, parity, polling, timeout, retry,
    pollDelay, bus, statusId_1, statusId_2, heartbeatId, statusBus, statusBusInvalid⟩

/-! Points with names of their own, each called at most once. -/

theorem givenNames (front : List Nat) (ids : List DpIdentifier) :
    ((given front ids).map PVSSDataPoint.dpName).Sublist
      (front.map (fun index => (point index none).dpName)) := by
  induction front generalizing ids with
  | nil => exact List.Sublist.refl _
  | cons index rest ih =>
    cases ids with
    | nil => exact List.nil_sublist _
    | cons dpId ids =>
      cases dpId with
      | none => exact (ih ids).cons _
      | some n => exact (ih ids).cons_cons _

theorem givenNamesDistinct {front : List Nat} (different : front.Nodup) (ids : List DpIdentifier) :
    ((given front ids).map PVSSDataPoint.dpName).Nodup :=
  (givenNames front ids).nodup (different.map (fun _ _ same => indexInjective same))

theorem deliveredOnce {points : List PVSSDataPoint} {callbacks : List Callback} (dpName : QString)
    (names : (points.map PVSSDataPoint.dpName).Nodup) (once : (callbacks.map Callback.dpId).Nodup) :
    (delivered points callbacks dpName).length ≤ 1 := by
  have own : ((delivered points callbacks dpName).map Callback.dpId).Nodup :=
    (List.filter_sublist.map Callback.dpId).nodup once
  have source : ∀ c ∈ delivered points callbacks dpName, ∃ dp ∈ points,
      dp.dpName = dpName ∧ dp.dpId = c.dpId := by
    intro c mem
    simpa using (List.mem_filter.mp mem).2
  cases h : delivered points callbacks dpName with
  | nil => exact Nat.zero_le _
  | cons c rest =>
    cases rest with
    | nil => exact Nat.le_refl _
    | cons e rest =>
      -- both callbacks are for the one point of that name
      rw [h] at own source
      obtain ⟨dp, mem, name, same⟩ := source c (by simp)
      obtain ⟨other, there, alike, ident⟩ := source e (by simp)
      have equal : dp = other := List.inj_on_of_nodup_map names mem there (name.trans alike.symm)
      have repeated : c.dpId = e.dpId := by rw [← same, ← ident, equal]
      simp [repeated] at own

theorem deliveredPerm {points : List PVSSDataPoint} {callbacks others : List Callback} (dpName : QString)
    (names : (points.map PVSSDataPoint.dpName).Nodup) (once : (callbacks.map Callback.dpId).Nodup)
    (perm : others.Perm callbacks) :
    delivered points others dpName = delivered points callbacks dpName := by
  have same : (delivered points others dpName).Perm (delivered points callbacks dpName) := perm.filter _
  have short := deliveredOnce dpName names once
  cases h : delivered points callbacks dpName with
  | nil =>
    rw [h] at same
    exact same.eq_nil
  | cons c rest =>
    rw [h] at same short
    cases List.length_eq_zero_iff.mp (Nat.le_zero.mp (Nat.le_of_succ_le_succ short))
    exact List.perm_singleton.mp same

/- A bus list that comes before anything else for its master is empty. -/
def Opened (points : List PVSSDataPoint) (callbacks : List Callback) : Prop :=
  ∀ before c, before ++ [c] <+: callbacks → ∀ dp ∈ points, dp.dpId = c.dpId →
    dp.usage = .ADDRESS_BUS → ¬ Called points before dp.number → c.value.items = []

section Points

variable {points : List PVSSDataPoint} {callbacks others : List Callback} {r : SerialModbusResources}
  (named : ∀ dp ∈ points, ∀ k u, dp.dpName = dpNameOf k u ↔ dp.number = k ∧ dp.usage = u)
  (distinct : (points.map PVSSDataPoint.dpId).Nodup) (dps : r.dps = points)

include distinct dps in
theorem completesExact (start : Driver) :
    (∃ d, Runs.run (deliver r) {start with mbus := ∅} callbacks = some d) ↔ Opened points callbacks := by
  constructor
  · rintro ⟨d, ok⟩ before c ⟨after, parts⟩ dp mem same bus silent
    rw [← parts, Runs.runAppend] at ok
    obtain ⟨e, reached, _⟩ := Option.bind_eq_some_iff.mp ok
    obtain ⟨f, ran, moved⟩ := Runs.runSnocSome reached
    have created : Created points before f :=
      Runs.history (fun _ _ _ _ made moved => createdReached distinct dps made moved) (createdNone start) ran
    rcases deliverCases dps moved with ⟨_, unknown⟩ | ⟨other, there, ident, pointed, _⟩
    · exact absurd same (unknown dp mem)
    · have equal : other = dp := List.inj_on_of_nodup_map distinct there mem (ident.trans same.symm)
      subst equal
      by_contra items
      rw [← created, Option.not_isSome_iff_eq_none] at silent
      exact pointed ⟨bus, silent, items⟩
  · intro opened
    have all : ∃ d, Runs.run (deliver r) {start with mbus := ∅} callbacks = some d ∧
        Created points callbacks d := by
      apply Runs.progress (fun before (c : Callback) => ∀ dp ∈ points, dp.dpId = c.dpId →
        dp.usage = .ADDRESS_BUS → ¬ Called points before dp.number → c.value.items = [])
        _ (createdNone start) callbacks opened
      intro before c d created fits
      have pointed : ∀ dp ∈ points, dp.dpId = c.dpId → ¬ Nulled d dp c := by
        rintro dp mem same ⟨bus, null, items⟩
        have silent : ¬ Called points before dp.number := by
          rw [← created, null]
          decide
        exact items (fits dp mem same bus silent)
      obtain ⟨e, moved⟩ := deliverCompletes dps pointed
      exact ⟨e, moved, createdReached distinct dps created moved⟩
    obtain ⟨d, ran, _⟩ := all
    exact ⟨d, ran⟩

include named distinct dps in
/- A completed run leaves the masters that its callbacks speak of. -/
theorem completedMasters {start d : Driver}
    (ok : Runs.run (deliver r) {start with mbus := ∅} callbacks = some d) (k : Int) (m : MBusAbstract) :
    d.getMBus k = some m ↔ Called points callbacks k ∧
      m = masterOf k (fun u => delivered points callbacks (dpNameOf k u)) := by
  have held := completedHeld named distinct dps ok
  obtain ⟨created, begun⟩ := runBegun named distinct dps ok
  constructor
  · intro got
    exact ⟨(created k).mp (Option.isSome_iff_exists.mpr ⟨m, got⟩), ownMaster (held.masters k m got) (begun k m got)⟩
  · rintro ⟨called, rfl⟩
    obtain ⟨n, got⟩ := Option.isSome_iff_exists.mp ((created k).mpr called)
    rw [got, ownMaster (held.masters k n got) (begun k n got)]

include named distinct dps in
theorem permMasters (names : (points.map PVSSDataPoint.dpName).Nodup)
    (once : (callbacks.map Callback.dpId).Nodup) {start d e : Driver} (perm : others.Perm callbacks)
    (ok : Runs.run (deliver r) {start with mbus := ∅} callbacks = some d)
    (other : Runs.run (deliver r) {start with mbus := ∅} others = some e) (k : Int) :
    e.getMBus k = d.getMBus k := by
  apply Option.ext
  intro m
  have heard : (fun u => delivered points others (dpNameOf k u)) =
      fun u => delivered points callbacks (dpNameOf k u) :=
    funext fun u => deliveredPerm _ names once perm
  have called : Called points others k ↔ Called points callbacks k := by
    simp only [Called, perm.mem_iff]
  rw [completedMasters named distinct dps other, completedMasters named distinct dps ok, heard, called]

end Points

/- With the identifiers of any of the queried points in place and a callback for each:
the callbacks complete, and leave the masters that every other order leaves,
exactly when no bus list with items has to create its master. -/
theorem orderExact (exchanges : List Exchange) (answerable : Answerable exchanges)
    (complete : (answers exchanges).length = (queries exchanges).length)
    (different : (queries exchanges).Nodup) (distinct : (nonNull (answers exchanges)).Nodup)
    (start : Driver) (callbacks : List Callback) (once : (callbacks.map Callback.dpId).Nodup) :
    let points := given (queries exchanges) (answers exchanges)
    ∃ r, Runs.run step new exchanges = some r ∧
      ((∃ d, Runs.run (deliver r) {start with mbus := ∅} callbacks = some d ∧
          ∀ others, others.Perm callbacks →
            ∀ e, Runs.run (deliver r) {start with mbus := ∅} others = some e →
              ∀ k, e.getMBus k = d.getMBus k) ↔
        Opened points callbacks) := by
  intro points
  obtain ⟨r, ran, dps, ids⟩ := pointsAnswered answerable complete distinct
  refine ⟨r, ran, ?_⟩
  rw [← completesExact ids dps start]
  constructor
  · rintro ⟨d, ok, _⟩
    exact ⟨d, ok⟩
  · rintro ⟨d, ok⟩
    refine ⟨d, ok, ?_⟩
    intro others perm e other k
    exact permMasters givenNamed ids dps (givenNamesDistinct different _) once perm ok other k

theorem openedFirst {points : List PVSSDataPoint} {callbacks : List Callback}
    (order : BusNotFirst points callbacks) : Opened points callbacks := by
  intro before c part dp mem same bus silent
  exact absurd (order before c part dp mem same bus) silent

/- The port, the baud rate and the bus list of agent 1. -/
def three : List Exchange :=
  [.query 1, .query 2, .query 7, .answer (some 7), .answer (some 9), .answer (some 8)]

def portBus : List Callback :=
  [⟨some 7, ⟨"COM1".toList, 0, []⟩⟩, ⟨some 8, ⟨[], 0, [3]⟩⟩, ⟨some 9, ⟨[], 9600, []⟩⟩]

theorem orderExactThree : ∃ r d, Runs.run step new three = some r ∧
    Runs.run (deliver r) {Driver.new with mbus := ∅} portBus = some d ∧
    ∀ e, Runs.run (deliver r) {Driver.new with mbus := ∅} portBus.reverse = some e →
      ∀ k, e.getMBus k = d.getMBus k := by
  obtain ⟨r, ran, agrees⟩ := orderExact three (by decide) (by decide) (by decide) (by decide) Driver.new
    portBus (by decide)
  obtain ⟨d, ok, same⟩ := agrees.mpr (openedFirst (by decide))
  exact ⟨r, d, ran, ok, same _ (List.reverse_perm _)⟩

/- Agent 1 with one data point, its bus list. -/
def busAlone : List Exchange := [.query 7, .answer (some 8)]

theorem notInAnyOrder : ¬ ∀ (exchanges : List Exchange), Answerable exchanges →
    (answers exchanges).length = (queries exchanges).length → (queries exchanges).Nodup →
    (nonNull (answers exchanges)).Nodup → ∀ r, Runs.run step new exchanges = some r →
      ∀ (start : Driver) (callbacks : List Callback), (callbacks.map Callback.dpId).Nodup →
        ∃ d, Runs.run (deliver r) {start with mbus := ∅} callbacks = some d ∧
          ∀ others, others.Perm callbacks →
            ∀ e, Runs.run (deliver r) {start with mbus := ∅} others = some e →
              ∀ k, e.getMBus k = d.getMBus k := by
  intro all
  have answerable : Answerable busAlone := by decide
  obtain ⟨r, ran, dps, ids⟩ := pointsAnswered answerable rfl (by decide)
  let list : Callback := ⟨some 8, ⟨[], 0, [3]⟩⟩
  obtain ⟨d, ok, _⟩ := all busAlone answerable rfl (by decide) (by decide) r ran Driver.new [list] (by decide)
  have opened := (completesExact ids dps Driver.new).mp ⟨d, ok⟩
  have empty := opened [] list (List.prefix_refl _) (point 7 (some 8)) (List.mem_singleton.mpr rfl) rfl rfl
  exact absurd (empty (by decide)) (by decide)

end SerialModbus.Ordering
