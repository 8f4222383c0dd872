import SerialModbus.Configuration

/-! When the poll thread of a master is started. The callback for one data point
starts it, whatever the other callbacks have brought by then. -/
namespace SerialModbus.Startup
open Text Global SerialModbusResources Identifiers SerialModbus.Configuration

/- All points of a master but its mode, which the driver does not use. -/
def Ready (points : List PVSSDataPoint) (callbacks : List Callback) (k : Int) : Prop :=
  ∀ u, u ≠ .ADDRESS_MODE → delivered points callbacks (dpNameOf k u) ≠ []

/- No setting is what the constructor found in memory. -/
structure Initialised (m : MBusAbstract) : Prop where
  baudRate : m.baudRate ≠ none
  dataBits : m.dataBits ≠ none
  stopBits : m.stopBits ≠ none
  parity : m.parity ≠ none
  polling : m.polling ≠ none
  timeout : m.timeout ≠ none
  retry : m.retry ≠ none
  pollDelay : m.pollDelay ≠ none

def StartedReady (points : List PVSSDataPoint) (callbacks : List Callback) (d : Driver) : Prop :=
  ∀ k m, d.getMBus k = some m → m.started = true → Ready points callbacks k ∧ Initialised m

/- A callback for the invalid bit of the bus status has those for the rest behind it. -/
def LastComes (points : List PVSSDataPoint) (before : List Callback) (c : Callback) : Prop :=
  ∀ dp ∈ points, dp.dpId = c.dpId → dp.usage = .STATUS_BUS_INVALID →
    ∀ u, u ≠ .ADDRESS_MODE → u ≠ .STATUS_BUS_INVALID → delivered points before (dpNameOf dp.number u) ≠ []

/- The thread of a master runs from its first callback for that bit on. -/
def Begun (_ : Int) (m : MBusAbstract) (heard : DPUsage → List Callback) : Prop :=
  m.running = true ∧ (m.started = true ↔ heard .STATUS_BUS_INVALID ≠ [])

theorem freshBegun (dp : PVSSDataPoint) : Begun dp.number (freshMaster dp) (fun _ => []) := by
  simp [Begun, freshMaster, MBusAbstract.new]

theorem settleBegun (k : Int) (m : MBusAbstract) (heard : DPUsage → List Callback) (c : Callback)
    (u : DPUsage) (begun : Begun k m heard) :
    Begun k (settle m c u) (Function.update heard u (heard u ++ [c])) := by
  obtain ⟨running, started⟩ := begun
  cases u <;> simp [Begun, settle, configure, addBuses, running, started]

theorem lastIntegerSome {callbacks : List Callback} (some : callbacks ≠ []) :
    lastInteger callbacks ≠ none := by
  simpa [lastInteger] using some

theorem configuredInitialised {points : List PVSSDataPoint} {callbacks : List Callback} {k : Int}
    {m : MBusAbstract} (ready : Ready points callbacks k)
    (configured : Configured m (fun u => delivered points callbacks (dpNameOf k u))) : Initialised m := by
  have heard : ∀ u, u ≠ .ADDRESS_MODE → lastInteger (delivered points callbacks (dpNameOf k u)) ≠ none :=
    fun u other => lastIntegerSome (ready u other)
  constructor
  · exact configured.baudRate ▸ heard .ADDRESS_BAUDRATE (by decide)
  · exact configured.dataBits ▸ heard .ADDRESS_DATABITS (by decide)
  · exact configured.stopBits ▸ heard .ADDRESS_STOPBITS (by decide)
  · exact configured.parity ▸ heard .ADDRESS_PARITY (by decide)
  · exact configured.polling ▸ heard .ADDRESS_POLLING (by decide)
  · rw [configured.timeout]
    exact fun none => heard .ADDRESS_TIMEOUT (by decide) (Option.map_eq_none_iff.mp none)
  · rw [configured.retry]
    exact fun none => heard .ADDRESS_RETRY (by decide) (Option.map_eq_none_iff.mp none)
  · rw [configured.pollDelay]
    exact fun none => heard .ADDRESS_POLL_DELAY (by decide) (Option.map_eq_none_iff.mp none)

theorem deliveredPrefix {points : List PVSSDataPoint} {before callbacks : List Callback} {dpName : QString}
    (part : before <+: callbacks) (heard : delivered points before dpName ≠ []) :
    delivered points callbacks dpName ≠ [] := by
  obtain ⟨later, rfl⟩ := part
  rw [delivered, List.filter_append, ← delivered]
  exact List.append_ne_nil_of_left_ne_nil heard _

section Points

variable {points : List PVSSDataPoint} {callbacks : List Callback} {r : SerialModbusResources}
  (named : ∀ dp ∈ points, ∀ k u, dp.dpName = dpNameOf k u ↔ dp.number = k ∧ dp.usage = u)
  (distinct : (points.map PVSSDataPoint.dpId).Nodup) (dps : r.dps = points)

include named distinct dps in
theorem runBegun {start d : Driver}
    (ok : Runs.run (deliver r) {start with mbus := ∅} callbacks = some d) :
    Created points callbacks d ∧ Tracks Begun points callbacks d :=
  runTracks named distinct (fun dp _ => freshBegun dp) settleBegun dps ok

include named in
/- Something delivered under a name was the callback of a point of that name. -/
theorem deliveredSource {k : Int} {u : DPUsage} (heard : delivered points callbacks (dpNameOf k u) ≠ []) :
    ∃ before c after, callbacks = before ++ c :: after ∧
      ∃ dp ∈ points, dp.dpId = c.dpId ∧ dp.number = k ∧ dp.usage = u := by
  obtain ⟨c, mem⟩ := List.exists_mem_of_ne_nil _ heard
  obtain ⟨there, known⟩ := List.mem_filter.mp mem
  obtain ⟨before, after, parts⟩ := List.append_of_mem there
  simp only [List.any_eq_true, Bool.and_eq_true, beq_iff_eq] at known
  obtain ⟨dp, point, name, same⟩ := known
  obtain ⟨number, usage⟩ := (named dp point k u).mp name
  exact ⟨before, c, after, parts, dp, point, same, number, usage⟩

include named distinct dps in
/- After the callback for the invalid bit the thread of that master runs. -/
theorem startedAfter {start d : Driver} {before : List Callback} {c : Callback} {dp : PVSSDataPoint}
    (ok : Runs.run (deliver r) {start with mbus := ∅} before = some d) (mem : dp ∈ points)
    (same : dp.dpId = c.dpId) (invalid : dp.usage = .STATUS_BUS_INVALID) :
    ∃ e m, Runs.run (deliver r) {start with mbus := ∅} (before ++ [c]) = some e ∧
      e.getMBus dp.number = some m ∧ m.started = true := by
  have pointed : ∀ other ∈ points, other.dpId = c.dpId → ¬ Nulled d other c := by
    rintro other there ident ⟨bus, _⟩
    have equal : other = dp := List.inj_on_of_nodup_map distinct there mem (ident.trans same.symm)
    rw [equal, invalid] at bus
    contradiction
  obtain ⟨e, moved⟩ := deliverCompletes dps pointed
  have ran : Runs.run (deliver r) {start with mbus := ∅} (before ++ [c]) = some e := by
    rw [Runs.runSnoc, ok]
    exact moved
  obtain ⟨created, tracks⟩ := runBegun named distinct dps ran
  obtain ⟨m, got⟩ := Option.isSome_iff_exists.mp
    ((created dp.number).mpr ⟨c, by simp, dp, mem, same, rfl⟩)
  refine ⟨e, m, ran, got, (tracks _ m got).2.mpr ?_⟩
  show delivered points (before ++ [c]) (dpNameOf dp.number .STATUS_BUS_INVALID) ≠ []
  rw [deliveredSnoc, if_pos ((ownName named distinct mem same _ _).mpr ⟨rfl, invalid⟩)]
  simp

include named distinct dps in
theorem startExact (start : Driver) :
    (∀ before d, before <+: callbacks → Runs.run (deliver r) {start with mbus := ∅} before = some d →
      StartedReady points before d) ↔
    ∀ before c d, before ++ [c] <+: callbacks →
      Runs.run (deliver r) {start with mbus := ∅} before = some d → LastComes points before c := by
  constructor
  · intro all before c d part ok dp mem same invalid u notMode other
    obtain ⟨e, m, ran, got, started⟩ := startedAfter named distinct dps ok mem same invalid
    have heard := (all (before ++ [c]) e part ran dp.number m got started).1 u notMode
    rw [deliveredOther named distinct mem same (Or.inr (invalid ▸ Ne.symm other))] at heard
    exact heard
  · intro each before d part ok k m got started
    obtain ⟨_, tracks⟩ := runBegun named distinct dps ok
    have bit := (tracks k m got).2.mp started
    -- the callback that started the thread had all the others behind it
    obtain ⟨front, c, back, parts, dp, mem, same, rfl, invalid⟩ := deliveredSource named bit
    have early : front ++ [c] <+: before := ⟨back, by rw [parts, List.append_assoc]; rfl⟩
    rw [parts, Runs.runAppend] at ok
    obtain ⟨f, reached, _⟩ := Option.bind_eq_some_iff.mp ok
    have ready : Ready points before dp.number := by
      intro u notMode
      by_cases own : u = .STATUS_BUS_INVALID
      · exact own ▸ bit
      · exact deliveredPrefix ((List.prefix_append front [c]).trans early)
          (each front c f (early.trans part) reached dp mem same invalid u notMode own)
    refine ⟨ready, ?_⟩
    rw [← Runs.runAppend, ← parts] at ok
    exact configuredInitialised ready ((completedHeld named distinct dps ok).masters _ m got).2.2

end Points

/- With the identifiers of any queried points in place, some missing, and any
callbacks in any order: every started thread has all its settings exactly when the
callback for the invalid bit of the bus status always comes behind the others. -/
theorem startedExact (exchanges : List Exchange) (answerable : Answerable exchanges)
    (complete : (answers exchanges).length = (queries exchanges).length)
    (distinct : (nonNull (answers exchanges)).Nodup) (start : Driver) (callbacks : List Callback) :
    let points := given (queries exchanges) (answers exchanges)
    ∃ r, Runs.run step new exchanges = some r ∧
      ((∀ before d, before <+: callbacks →
          Runs.run (deliver r) {start with mbus := ∅} before = some d → StartedReady points before d) ↔
        ∀ before c d, before ++ [c] <+: callbacks →
          Runs.run (deliver r) {start with mbus := ∅} before = some d → LastComes points before c) := by
  intro points
  obtain ⟨r, ran, dps, ids⟩ := pointsAnswered answerable complete distinct
  exact ⟨r, ran, startExact givenNamed ids dps start⟩

def bit : Callback := ⟨some 15, ⟨[], 0, []⟩⟩

theorem wholeHeard {u : DPUsage} (notMode : u ≠ .ADDRESS_MODE) (notBit : u ≠ .STATUS_BUS_INVALID) :
    delivered (given (queries wholeAgent) (answers wholeAgent)) wholeSettings (dpNameOf 0 u) ≠ [] := by
  have ids : ((given (queries wholeAgent) (answers wholeAgent)).map PVSSDataPoint.dpId).Nodup := by decide
  have source : ∃ dp ∈ given (queries wholeAgent) (answers wholeAgent), dp.number = 0 ∧ dp.usage = u ∧
      ∃ c ∈ wholeSettings, dp.dpId = c.dpId := by
    cases u with
    | ADDRESS_MODE => exact absurd rfl notMode
    | STATUS_BUS_INVALID => exact absurd rfl notBit
    | _ => decide
  obtain ⟨dp, point, number, usage, c, mem, same⟩ := source
  have own := (ownName givenNamed ids point same 0 u).mpr ⟨number, usage⟩
  exact List.ne_nil_of_mem (List.mem_filter.mpr ⟨mem, own⟩)

/- The bit comes behind everything else that is delivered to a whole agent. -/
theorem bitLast {before : List Callback} {c : Callback} (part : before ++ [c] <+: wholeSettings ++ [bit]) :
    LastComes (given (queries wholeAgent) (answers wholeAgent)) before c := by
  intro dp mem same invalid u notMode notBit
  have only : ∀ dp ∈ given (queries wholeAgent) (answers wholeAgent), dp.usage = .STATUS_BUS_INVALID →
      dp.dpId = some 15 ∧ dp.number = 0 := by decide
  have others : ∀ c ∈ wholeSettings, c.dpId ≠ some 15 := by decide
  obtain ⟨ident, number⟩ := only dp mem invalid
  have all : before = wholeSettings := by
    rcases List.prefix_concat_iff.mp part with whole | early
    · exact (List.append_inj' whole rfl).1
    · have there : c ∈ wholeSettings := early.subset (List.mem_append_right before (List.mem_singleton.mpr rfl))
      exact absurd (same.symm.trans ident) (others c there)
  rw [all, number]
  exact wholeHeard notMode notBit

/- A whole agent, the bit last: its thread has started, and it has all it needs. -/
theorem startedExactOne : ∃ r d m, Runs.run step new wholeAgent = some r ∧
    Runs.run (deliver r) {Driver.new with mbus := ∅} (wholeSettings ++ [bit]) = some d ∧
    d.getMBus 0 = some m ∧ m.started = true ∧
    Ready (given (queries wholeAgent) (answers wholeAgent)) (wholeSettings ++ [bit]) 0 ∧ Initialised m := by
  have answerable : Answerable wholeAgent := by decide +kernel
  obtain ⟨r, ran, dps, ids⟩ := pointsAnswered answerable (by decide) (by decide)
  have order : BusNotFirst (given (queries wholeAgent) (answers wholeAgent)) wholeSettings := by decide +kernel
  obtain ⟨e, reached, _⟩ := runHeld givenNamed ids dps Driver.new order
  have mem : point 15 (some 15) ∈ given (queries wholeAgent) (answers wholeAgent) := by decide
  obtain ⟨d, m, ok, got, started⟩ := startedAfter givenNamed ids dps reached mem (c := bit) rfl rfl
  obtain ⟨s, same, exact⟩ := startedExact wholeAgent answerable (by decide) (by decide) Driver.new
    (wholeSettings ++ [bit])
  cases Option.some.inj (ran.symm.trans same)
  have ready := exact.mpr (fun before c _ part _ => bitLast part) _ d (List.prefix_refl _) ok 0 m got started
  exact ⟨r, d, m, ran, ok, got, started, ready.1, ready.2⟩

/- Agent 1 with one data point, the invalid bit of its bus status. -/
def bitAlone : List Exchange := [.query 15, .answer (some 15)]

theorem notStartedReady : ¬ ∀ (exchanges : List Exchange), Answerable exchanges →
    (answers exchanges).length = (queries exchanges).length → (nonNull (answers exchanges)).Nodup →
    ∀ r, Runs.run step new exchanges = some r → ∀ (start : Driver) (callbacks : List Callback) d,
      Runs.run (deliver r) {start with mbus := ∅} callbacks = some d →
      StartedReady (given (queries exchanges) (answers exchanges)) callbacks d := by
  intro all
  have answerable : Answerable bitAlone := by decide
  obtain ⟨r, ran, dps, ids⟩ := pointsAnswered answerable rfl (by decide)
  have mem : point 15 (some 15) ∈ given (queries bitAlone) (answers bitAlone) := List.mem_singleton.mpr rfl
  have none : Runs.run (deliver r) {Driver.new with mbus := ∅} [] = some {Driver.new with mbus := ∅} := rfl
  have same : (point 15 (some 15)).dpId = bit.dpId := rfl
  obtain ⟨e, m, reached, got, started⟩ := startedAfter givenNamed ids dps none mem same rfl
  have ready := all bitAlone answerable rfl (by decide) r ran Driver.new ([] ++ [bit]) e reached _ m got started
  have silent : delivered (given (queries bitAlone) (answers bitAlone)) ([] ++ [bit])
      (dpNameOf (point 15 (some 15)).number .ADDRESS_PORT) = [] := by
    rw [deliveredOther givenNamed ids mem rfl (Or.inr (by decide))]
    rfl
  exact ready.1 .ADDRESS_PORT (by decide) silent

end SerialModbus.Startup
