import SerialModbus.Access
import SerialModbus.Cycle
import SerialModbus.Opening

/-! What a poll reports about the devices on its line. -/
namespace SerialModbus.MBusAsciiMaster
open Text (number)
open Delivery (Action sentMessages sentValues sentMessagesAppend sentValuesAppend)
open Global (DriverTypes Status)
open Exchange (memory kept)
open MbusAsciiMasterProtocol (ascii)
open MbusMasterFunctions (readCoils readMultipleRegisters bitInt)
open Polling (COIL_NUMBER REGISTER_NUMBER)

/- What a poll finds out about one bus. -/
inductive Report where
  | silent
  | coilsOnly (coils : List Bool)
  | answered (coils : List Bool) (registers : List (BitVec 16))
  deriving DecidableEq, Repr

namespace Report

/- Values numbered from one, as messages for the manager. -/
def listed (agent b : Int) (type : DriverTypes) (values : List Int) (invalid : Bool) : List Message :=
  values.zipIdx.map (fun (value, i) => HWService.message agent b ((i : Int) + 1) type.code (number value) invalid)

def messages (agent b : Int) : Report → List Message
  | silent =>
      listed agent b .COILS (List.replicate COIL_NUMBER 0) true ++
        listed agent b .REGISTERS (List.replicate REGISTER_NUMBER 0) true
  | coilsOnly coils =>
      listed agent b .COILS (coils.map bitInt) false ++
        listed agent b .REGISTERS (List.replicate REGISTER_NUMBER 0) true
  | answered coils registers =>
      listed agent b .COILS (coils.map bitInt) false ++ listed agent b .REGISTERS (registers.map BitVec.toInt) false

def complete : Report → Bool
  | answered _ _ => true
  | _ => false

def status (r : Report) : Status := if r.complete then .CONNECTED else .DISCONNECTED

/- What is reported as read is what the device at the bus keeps. -/
def Truthful (m : MbusSerialMasterProtocol Line) (b : Int) : Report → Prop
  | silent => True
  | coilsOnly coils => kept Slave.coils m b 1 COIL_NUMBER = some coils
  | answered coils registers =>
      kept Slave.coils m b 1 COIL_NUMBER = some coils ∧ kept Slave.registers m b 1 REGISTER_NUMBER = some registers

end Report

/- What the thread leaves as it is, and what a poll of the buses does besides. -/
structure Keeps (t u : MBusAsciiMaster Line) : Prop where
  thread : u.thread = t.thread
  mbus : u.mbus = t.mbus
  memory : memory u.mbusProtocol = memory t.mbusProtocol
  flags : u.mbusProtocol.slaveConfigFlagsArr = t.mbusProtocol.slaveConfigFlagsArr
  faults : u.mbusProtocol.serialPort.os.faults = t.mbusProtocol.serialPort.os.faults

structure Stays (t u : MBusAsciiMaster Line) : Prop extends Keeps t u where
  opened : u.mbusProtocol.isOpen = t.mbusProtocol.isOpen

theorem keepsTrans {t u v : MBusAsciiMaster Line} (first : Keeps t u) (second : Keeps u v) : Keeps t v where
  thread := second.thread.trans first.thread
  mbus := second.mbus.trans first.mbus
  memory := second.memory.trans first.memory
  flags := second.flags.trans first.flags
  faults := second.faults.trans first.faults

theorem staysSelf (t : MBusAsciiMaster Line) : Stays t t := ⟨⟨rfl, rfl, rfl, rfl, rfl⟩, rfl⟩

theorem staysTrans {t u v : MBusAsciiMaster Line} (first : Stays t u) (second : Stays u v) : Stays t v :=
  ⟨keepsTrans first.toKeeps second.toKeeps, second.opened.trans first.opened⟩

theorem keptSame {α : Type} (cells : Slave → List α) {m n : MbusSerialMasterProtocol Line} (here : memory n = memory m)
    (flags : n.slaveConfigFlagsArr = m.slaveConfigFlagsArr) (b startRef : Int) (count : Nat) :
    kept cells n b startRef count = kept cells m b startRef count := by
  unfold kept MbusMasterFunctions.wireRef
  rw [here, flags]

theorem truthfulSame {t u : MBusAsciiMaster Line} (keeps : Keeps t u) (b : Int) (r : Report) :
    r.Truthful u.mbusProtocol b ↔ r.Truthful t.mbusProtocol b := by
  cases r <;> simp only [Report.Truthful, keptSame _ keeps.memory keeps.flags]

/- A device that keeps all that is read, on a line without faults. -/
structure Healthy (m : MbusSerialMasterProtocol Line) (b : Int) : Prop where
  single : b ≠ 0
  intact : ∀ i, m.serialPort.os.faults i = .none
  coils : (kept Slave.coils m b 1 COIL_NUMBER).isSome
  registers : (kept Slave.registers m b 1 REGISTER_NUMBER).isSome

theorem healthySame {t u : MBusAsciiMaster Line} (keeps : Keeps t u) {b : Int} (healthy : Healthy t.mbusProtocol b) :
    Healthy u.mbusProtocol b := by
  constructor
  · exact healthy.single
  · rw [keeps.faults]
    exact healthy.intact
  · rw [keptSame _ keeps.memory keeps.flags]
    exact healthy.coils
  · rw [keptSame _ keeps.memory keeps.flags]
    exact healthy.registers

/- Nothing stands in the way of a message then. -/
theorem healthyPasses {m : MbusSerialMasterProtocol Line} {b : Int} (healthy : Healthy m b)
    (opened : m.isOpen = true) : Exchange.Passes m 0 :=
  ⟨opened, Nat.zero_le _, healthy.intact _, fun j less => absurd less (Nat.not_lt_zero j)⟩

/-! What is enqueued, as messages and as values. -/

theorem statusesListed (thread : Nat) (agent b : Int) (type : DriverTypes) (values : List Int) (invalid : Bool) :
    sentMessages (statuses thread agent b type values invalid) = Report.listed agent b type values invalid ∧
      sentValues (statuses thread agent b type values invalid) = [] := by
  unfold statuses Report.listed sentMessages sentValues
  rw [List.filterMap_map, List.filterMap_map]
  constructor
  · rw [← List.filterMap_eq_map]
    rfl
  · exact List.filterMap_eq_nil_iff.mpr (fun _ _ => rfl)

theorem valuesSent (thread : Nat) (values : List DpValue) :
    sentMessages (values.map (fun v => .setDpValue thread v.dpId v.value)) = [] ∧
      sentValues (values.map (fun v => .setDpValue thread v.dpId v.value)) = values := by
  unfold sentMessages sentValues
  rw [List.filterMap_map, List.filterMap_map]
  constructor
  · exact List.filterMap_eq_nil_iff.mpr (fun _ _ => rfl)
  · exact List.filterMap_some

def Posts (t u : MBusAsciiMaster Line) (messages : List Message) (values : List DpValue) : Prop :=
  ∃ actions, u.enqueued = t.enqueued ++ actions ∧ sentMessages actions = messages ∧ sentValues actions = values

theorem postsNone {t u : MBusAsciiMaster Line} (same : u.enqueued = t.enqueued) : Posts t u [] [] :=
  ⟨[], by rw [same, List.append_nil], rfl, rfl⟩

theorem postsTrans {t u v : MBusAsciiMaster Line} {messages messages' : List Message} {values values' : List DpValue}
    (first : Posts t u messages values) (second : Posts u v messages' values') :
    Posts t v (messages ++ messages') (values ++ values') := by
  obtain ⟨xs, enqueued, sent, set⟩ := first
  obtain ⟨ys, enqueued', sent', set'⟩ := second
  refine ⟨xs ++ ys, ?_, ?_, ?_⟩
  · rw [enqueued', enqueued, List.append_assoc]
  · rw [sentMessagesAppend, sent, sent']
  · rw [sentValuesAppend, set, set']

theorem postsStatuses (t : MBusAsciiMaster Line) (agent b : Int) (type : DriverTypes) (values : List Int)
    (invalid : Bool) :
    Posts t (t.enqueue (statuses t.thread agent b type values invalid)) (Report.listed agent b type values invalid)
      [] := by
  obtain ⟨messages, none⟩ := statusesListed t.thread agent b type values invalid
  exact ⟨_, rfl, messages, none⟩

theorem postsInvalid (t : MBusAsciiMaster Line) (agent b : Int) :
    Posts t (t.enqueue (invalidCoils t.thread agent b ++ invalidRegisters t.thread agent b))
      (Report.silent.messages agent b) [] := by
  obtain ⟨coils, none⟩ := statusesListed t.thread agent b .COILS (List.replicate COIL_NUMBER 0) true
  obtain ⟨registers, none'⟩ := statusesListed t.thread agent b .REGISTERS (List.replicate REGISTER_NUMBER 0) true
  refine ⟨_, rfl, ?_, ?_⟩
  · rw [sentMessagesAppend, invalidCoils, invalidRegisters, coils, registers]
    rfl
  · rw [sentValuesAppend, invalidCoils, invalidRegisters, none, none']
    rfl

theorem postsValues (t : MBusAsciiMaster Line) (values : List DpValue) : Posts t (t.setDpValues values) [] values := by
  obtain ⟨none, set⟩ := valuesSent t.thread values
  exact ⟨_, rfl, none, set⟩

section Buses
variable {around : Surroundings} {t u : MBusAsciiMaster Line}

theorem heartbeatPosts (around : Surroundings) (loop : Loop) (t : MBusAsciiMaster Line) :
    Stays t (heartbeat around loop t).2 ∧
      (∃ beats, Posts t (heartbeat around loop t).2 [] beats ∧ (beats = [] ∨ beats = [⟨t.mbus.heartbeatId, .bit true⟩])) ∧
      (heartbeat around loop t).1.busStatus = loop.busStatus ∧
      (heartbeat around loop t).1.atLeastOneNotOK = loop.atLeastOneNotOK ∧
      (heartbeat around loop t).1.atLeastOneOK = loop.atLeastOneOK := by
  unfold heartbeat
  dsimp only
  split
  · exact ⟨⟨⟨rfl, rfl, rfl, rfl, rfl⟩, rfl⟩, ⟨_, postsValues _ _, Or.inr rfl⟩, rfl, rfl, rfl⟩
  · exact ⟨⟨⟨rfl, rfl, rfl, rfl, rfl⟩, rfl⟩, ⟨[], postsNone rfl, Or.inl rfl⟩, rfl, rfl, rfl⟩

/- Reading leaves the line and the settings of the master as they are. -/
theorem readStays {t : MBusAsciiMaster Line} {m : MbusSerialMasterProtocol Line}
    (called : MbusMasterFunctions.Called t.mbusProtocol m) (same : Exchange.Leaves t.mbusProtocol m) :
    Stays t {t with mbusProtocol := m} := by
  obtain ⟨opened, flags⟩ := MbusMasterFunctions.calledKeeps called
  exact ⟨⟨rfl, rfl, same.1, flags, same.2⟩, opened⟩

/- The outcome of one turn of the loop over the buses. -/
structure Polled (b : Int) (r : Report) (loop after : Loop) (t u : MBusAsciiMaster Line) : Prop where
  stays : Stays t u
  truthful : r.Truthful t.mbusProtocol b
  posts : ∃ agent beats, t.mbus.agentID = some agent ∧ Posts t u (r.messages agent b) beats ∧
    (beats = [] ∨ beats = [⟨t.mbus.heartbeatId, .bit true⟩])
  busStatus : after.busStatus = loop.busStatus ++ [r.status.code]
  notOK : after.atLeastOneNotOK = (loop.atLeastOneNotOK || !r.complete)
  ok : after.atLeastOneOK = (loop.atLeastOneOK || r.complete)
  live : t.mbusProtocol.isOpen = true → Healthy t.mbusProtocol b → r.complete = true

/- The coils of address 0 are never read: nobody answers. -/
theorem coilsRead {m : MbusSerialMasterProtocol Line} {b : Int}
    (success : (readCoils Line.win32 ascii b 1 COIL_NUMBER m).1 = FTALK_SUCCESS) :
    b ≠ 0 ∧ ∃ cells, kept Slave.coils m b 1 COIL_NUMBER = some cells ∧
      (readCoils Line.win32 ascii b 1 COIL_NUMBER m).2.1 = cells.map bitInt := by
  have single : b ≠ 0 := by
    rintro rfl
    obtain ⟨ref, wire, low⟩ : ∃ ref, MbusMasterFunctions.wireRef m 0 1 = some ref ∧ (ref = 0 ∨ ref = 1) := by
      unfold MbusMasterFunctions.wireRef
      cases (m.slaveConfigFlagsArr (UInt8.ofInt 0)).REFERENCES_START_AT_ZERO with
      | false => exact ⟨0, rfl, Or.inl rfl⟩
      | true => exact ⟨1, rfl, Or.inr rfl⟩
    have other : UInt8.ofInt ((ref : Int) / 256) ≠ UInt8.ofNat (Packing.size COIL_NUMBER) := by
      rcases low with rfl | rfl <;> decide
    exact Exchange.readCoilsBroadcast (by decide) wire other success
  exact ⟨single, Exchange.readCoilsSafe single success⟩

theorem setLast (busStatus : List Int) (x y : Int) :
    (busStatus ++ [x]).set busStatus.length y = busStatus ++ [y] := by
  rw [List.set_append_right _ _ (Nat.le_refl _), Nat.sub_self]
  rfl

/- What the loop goes on with when a bus has not answered all. -/
def failing (loop : Loop) : Loop :=
  {loop with busStatus := loop.busStatus ++ [Status.DISCONNECTED.code], atLeastOneNotOK := true}

def answering (loop : Loop) : Loop :=
  {loop with busStatus := loop.busStatus ++ [Status.CONNECTED.code]}

/- One turn without its heartbeat. -/
structure Found (agent b : Int) (r : Report) (loop : Loop) (t : MBusAsciiMaster Line)
    (found : Loop × MBusAsciiMaster Line) : Prop where
  stays : Stays t found.2
  truthful : r.Truthful t.mbusProtocol b
  posts : Posts t found.2 (r.messages agent b) []
  loop : found.1 = if r.complete then {answering loop with atLeastOneOK := true} else failing loop
  live : t.mbusProtocol.isOpen = true → Healthy t.mbusProtocol b → r.complete = true

theorem readRegistersStays (t : MBusAsciiMaster Line) (b : Int) :
    Stays t {t with
      mbusProtocol := (readMultipleRegisters Line.win32 ascii b 1 REGISTER_NUMBER t.mbusProtocol).2.2} :=
  readStays (MbusMasterFunctions.readRegistersCalled Line.win32 ascii 0x03 b 1 REGISTER_NUMBER REGISTER_NUMBER
    t.mbusProtocol) Exchange.readRegistersKeeps

theorem readCoilsStays (t : MBusAsciiMaster Line) (b : Int) :
    Stays t {t with mbusProtocol := (readCoils Line.win32 ascii b 1 COIL_NUMBER t.mbusProtocol).2.2} :=
  readStays (MbusMasterFunctions.readBitsCalled Line.win32 ascii 0x01 b 1 COIL_NUMBER t.mbusProtocol)
    Exchange.readCoilsKeeps

theorem registersAnswer {m : MbusSerialMasterProtocol Line} {b : Int} (opened : m.isOpen = true) (healthy : Healthy m b) :
    (readMultipleRegisters Line.win32 ascii b 1 REGISTER_NUMBER m).1 = FTALK_SUCCESS := by
  obtain ⟨cells, keeps⟩ := Option.isSome_iff_exists.mp healthy.registers
  exact (Exchange.readRegistersLive healthy.single (by decide) (by decide) keeps (healthyPasses healthy opened)).1

theorem coilsAnswer {m : MbusSerialMasterProtocol Line} {b : Int} (opened : m.isOpen = true) (healthy : Healthy m b) :
    (readCoils Line.win32 ascii b 1 COIL_NUMBER m).1 = FTALK_SUCCESS := by
  obtain ⟨cells, keeps⟩ := Option.isSome_iff_exists.mp healthy.coils
  exact (Exchange.readCoilsLive healthy.single (by decide) (by decide) keeps (healthyPasses healthy opened)).1

theorem pollRegistersFound (agent : Int) {b : Int} (single : b ≠ 0) (loop : Loop) {t v : MBusAsciiMaster Line}
    {cells : List Bool} (stays : Stays v t) (coils : kept Slave.coils v.mbusProtocol b 1 COIL_NUMBER = some cells)
    (posted : Posts v t (Report.listed agent b .COILS (cells.map bitInt) false) []) :
    ∃ r, Found agent b r loop v (pollRegisters Line.win32 agent b (answering loop) (failing loop) t) := by
  have read := readRegistersStays t b
  have told := @Exchange.readRegistersSafe t.mbusProtocol b 1 REGISTER_NUMBER single
  have live := @registersAnswer t.mbusProtocol b
  unfold pollRegisters
  replace told : (readMultipleRegisters Line.win32 ascii b 1 REGISTER_NUMBER t.mbusProtocol).1 =
    FTALK_SUCCESS → kept Slave.registers t.mbusProtocol b 1 REGISTER_NUMBER =
      some (readMultipleRegisters Line.win32 ascii b 1 REGISTER_NUMBER t.mbusProtocol).2.1 := told
  generalize readMultipleRegisters Line.win32 ascii b 1 REGISTER_NUMBER t.mbusProtocol = gave at read told live ⊢
  obtain ⟨result, registers, m⟩ := gave
  dsimp only at read told live ⊢
  split
  · rename_i failed
    have invalid := postsStatuses {t with mbusProtocol := m} agent b .REGISTERS
      (List.replicate REGISTER_NUMBER 0) true
    refine ⟨.coilsOnly cells, staysTrans stays (staysTrans read ⟨⟨rfl, rfl, rfl, rfl, rfl⟩, rfl⟩), coils,
      postsTrans posted invalid, rfl, fun opened healthy => ?_⟩
    exact absurd (live (stays.opened.trans opened) (healthySame stays.toKeeps healthy)) failed
  · rename_i success
    have valid := postsStatuses {t with mbusProtocol := m} agent b .REGISTERS (registers.map BitVec.toInt) false
    refine ⟨.answered cells registers, staysTrans stays (staysTrans read ⟨⟨rfl, rfl, rfl, rfl, rfl⟩, rfl⟩),
      ⟨coils, ?_⟩, postsTrans posted valid, rfl, fun _ _ => rfl⟩
    rw [← keptSame Slave.registers stays.memory stays.flags]
    exact told (not_not.mp success)

theorem pollCoilsFound (agent b : Int) (loop : Loop) (t : MBusAsciiMaster Line) :
    ∃ r, Found agent b r loop t (pollCoils Line.win32 agent b (answering loop) (failing loop) t) := by
  have read := readCoilsStays t b
  have told := @coilsRead t.mbusProtocol b
  have live := @coilsAnswer t.mbusProtocol b
  unfold pollCoils
  generalize readCoils Line.win32 ascii b 1 COIL_NUMBER t.mbusProtocol = gave at read told live ⊢
  obtain ⟨result, coils, m⟩ := gave
  dsimp only at read told live ⊢
  split
  · rename_i failed
    exact ⟨.silent, staysTrans read ⟨⟨rfl, rfl, rfl, rfl, rfl⟩, rfl⟩, trivial,
      postsInvalid {t with mbusProtocol := m} agent b, rfl,
      fun opened healthy => absurd (live opened healthy) failed⟩
  · rename_i success
    obtain ⟨single, cells, kept, rfl⟩ := told (not_not.mp success)
    exact pollRegistersFound agent single loop (staysTrans read ⟨⟨rfl, rfl, rfl, rfl, rfl⟩, rfl⟩) kept
      (postsStatuses {t with mbusProtocol := m} agent b .COILS (cells.map bitInt) false)

theorem pollBusReports {busNumber : Nat} {b : Int} {loop after : Loop}
    (ok : pollBus Line.win32 around busNumber b loop t = some (after, u)) (place : loop.busStatus.length = busNumber) :
    ∃ r, Polled b r loop after t u := by
  obtain ⟨stays, ⟨beats, beat, which⟩, statusSame, notSame, okSame⟩ := heartbeatPosts around loop t
  unfold pollBus at ok
  generalize heartbeat around loop t = beaten at ok stays beat statusSame notSame okSame
  obtain ⟨loop', t'⟩ := beaten
  dsimp only at ok stays beat statusSame notSame okSame
  obtain ⟨agent, known, made⟩ := Option.bind_eq_some_iff.mp ok
  rw [← statusSame] at place
  rw [← place, setLast] at made
  obtain ⟨r, found⟩ := pollCoilsFound agent b loop' t'
  replace made : pollCoils Line.win32 agent b (answering loop') (failing loop') t' = (after, u) := Option.some.inj made
  rw [made] at found
  have owner : t.mbus.agentID = some agent := by rw [← stays.mbus, known]
  have carried := found.loop
  dsimp only at carried
  refine ⟨r, staysTrans stays found.stays, (truthfulSame stays.toKeeps b r).mp found.truthful,
    ⟨agent, beats, owner, ?_, which⟩, ?_, ?_, ?_,
    fun opened healthy => found.live (stays.opened.trans opened) (healthySame stays.toKeeps healthy)⟩
  · have both := postsTrans beat found.posts
    rw [List.nil_append, List.append_nil] at both
    exact both
  · rw [carried, ← statusSame, Report.status]
    cases r.complete <;> rfl
  · rw [carried, ← notSame]
    cases r.complete <;> simp [answering, failing]
  · rw [carried, ← okSame]
    cases r.complete <;> simp [failing]

/- The messages about all buses. -/
def messagesOf (agent : Int) (bus : List Int) (reports : List Report) : List Message :=
  (bus.zip reports).flatMap (fun (b, r) => r.messages agent b)

/- The outcome of the whole loop. -/
structure Looped (agent : Int) (bus : List Int) (reports : List Report) (loop after : Loop)
    (t u : MBusAsciiMaster Line) : Prop where
  stays : Stays t u
  truthful : List.Forall₂ (fun b r => r.Truthful t.mbusProtocol b) bus reports
  posts : ∃ beats, Posts t u (messagesOf agent bus reports) beats ∧
    ∀ v ∈ beats, v = ⟨t.mbus.heartbeatId, .bit true⟩
  busStatus : after.busStatus = loop.busStatus ++ reports.map (fun r => r.status.code)
  notOK : after.atLeastOneNotOK = (loop.atLeastOneNotOK || reports.any (fun r => !r.complete))
  ok : after.atLeastOneOK = (loop.atLeastOneOK || reports.any Report.complete)
  live : t.mbusProtocol.isOpen = true → (∀ b ∈ bus, Healthy t.mbusProtocol b) → reports.all Report.complete = true

theorem pollLoopReports {agent : Int} {bus : List Int} {busNumber : Nat} {loop after : Loop}
    {t u : MBusAsciiMaster Line} (known : t.mbus.agentID = some agent)
    (ok : pollLoop Line.win32 around busNumber bus loop t = some (after, u))
    (place : loop.busStatus.length = busNumber) : ∃ reports, Looped agent bus reports loop after t u := by
  induction bus generalizing busNumber loop t with
  | nil =>
    cases Option.some.inj ok
    refine ⟨[], staysSelf _, .nil, ⟨[], postsNone rfl, fun v mem => by cases mem⟩, ?_, ?_, ?_, fun _ _ => rfl⟩
    · exact (List.append_nil _).symm
    · exact (Bool.or_false _).symm
    · exact (Bool.or_false _).symm
  | cons b rest ih =>
    obtain ⟨⟨loop', t'⟩, first, ok⟩ := Option.bind_eq_some_iff.mp ok
    obtain ⟨r, polled⟩ := pollBusReports first place
    obtain ⟨agent', beats, known', posts, which⟩ := polled.posts
    cases Option.some.inj (known.symm.trans known')
    obtain ⟨reports, looped⟩ := ih (by rw [polled.stays.mbus, known]) ok (by
      rw [polled.busStatus, List.length_append, place]
      rfl)
    obtain ⟨more, later, all⟩ := looped.posts
    refine ⟨r :: reports, staysTrans polled.stays looped.stays, .cons polled.truthful ?_,
      ⟨beats ++ more, postsTrans posts later, ?_⟩, ?_, ?_, ?_, ?_⟩
    · exact looped.truthful.imp (fun b r => (truthfulSame polled.stays.toKeeps b r).mp)
    · intro v mem
      rcases List.mem_append.mp mem with early | late
      · rcases which with rfl | rfl
        · cases early
        · exact List.mem_singleton.mp early
      · rw [← polled.stays.mbus]
        exact all v late
    · rw [looped.busStatus, polled.busStatus, List.append_assoc]
      rfl
    · rw [looped.notOK, polled.notOK, Bool.or_assoc]
      rfl
    · rw [looped.ok, polled.ok, Bool.or_assoc]
      rfl
    · intro opened healthy
      rw [List.all_cons, polled.live opened (healthy b (List.mem_cons_self ..)), Bool.true_and]
      exact looped.live (polled.stays.opened.trans opened)
        (fun c mem => healthySame polled.stays.toKeeps (healthy c (List.mem_cons_of_mem b mem)))

/- The status of the agent after a poll. -/
def overall (reports : List Report) : Status :=
  if reports.all Report.complete then .CONNECTED
  else if reports.any Report.complete then .DEGRADED else .DISCONNECTED

/- The settings of a master that its port accepts. -/
def Settable (mbus : MBusAbstract) : Prop :=
  ∃ dataBits stopBits parity, mbus.dataBits = some dataBits ∧ mbus.stopBits = some stopBits ∧
    mbus.parity = some parity ∧ Exchange.Supported dataBits stopBits parity

/- What a poll does, given that its master has an agent. -/
inductive Polls (around : Surroundings) (agent : Int) (t u : MBusAsciiMaster Line) : Prop where
  | reported (reports : List Report) (beats : List DpValue) (active stillActive : Bool)
      (ready : t.mbusProtocol.isOpen = false ∨ ∃ i, around.offEnd i = true)
      (opened : u.mbusProtocol.isOpen = true)
      (truthful : List.Forall₂ (fun b r => r.Truthful t.mbusProtocol b) t.mbus.bus reports)
      (beating : ∀ v ∈ beats, v = ⟨t.mbus.heartbeatId, .bit true⟩)
      (posts : Posts t u (messagesOf agent t.mbus.bus reports)
        (beats ++ t.mbus.setBusStatus active (reports.map (fun r => r.status.code)) ++
          [t.mbus.setAgentStatus stillActive around.replica (overall reports).code]))
      (live : (∀ b ∈ t.mbus.bus, Healthy t.mbusProtocol b) → reports.all Report.complete = true)
  | refused (active : Bool) (closed : t.mbusProtocol.isOpen = false) (unset : ¬ Settable t.mbus)
      (posts : Posts t u [] [t.mbus.setAgentStatus active around.replica Status.DISCONNECTED.code])
  | fallen (opened : t.mbusProtocol.isOpen = true) (ends : ∃ i, around.offEnd i = false)
      (still : u.mbusProtocol.isOpen = true) (posts : Posts t u [] [])

/- The three ways out of tryToConnect. -/
inductive Connects (around : Surroundings) (t v : MBusAsciiMaster Line) (ret : Bool) : Prop where
  | fallen (opened : t.mbusProtocol.isOpen = true) (same : v = t) (gives : ret = around.offEnd t.looks)
  | refused (active : Bool) (closed : t.mbusProtocol.isOpen = false) (unset : ¬ Settable t.mbus)
      (posts : Posts t v [] [t.mbus.setAgentStatus active around.replica Status.DISCONNECTED.code])
      (gives : ret = false)
  | connected (closed : t.mbusProtocol.isOpen = false) (opened : v.mbusProtocol.isOpen = true)
      (posts : Posts t v [] []) (gives : ret = true)

theorem agentStatusPosts (around : Surroundings) (status : Status) (t : MBusAsciiMaster Line) :
    Stays t (setAgentStatus around status t) ∧
      ∃ active, Posts t (setAgentStatus around status t) []
        [t.mbus.setAgentStatus active around.replica status.code] :=
  ⟨⟨⟨rfl, rfl, rfl, rfl, rfl⟩, rfl⟩, _, postsValues _ _⟩

theorem busStatusPosts (around : Surroundings) (status : List Int) (t : MBusAsciiMaster Line) :
    Stays t (setBusStatus around status t) ∧
      ∃ active, Posts t (setBusStatus around status t) [] (t.mbus.setBusStatus active status) :=
  ⟨⟨⟨rfl, rfl, rfl, rfl, rfl⟩, rfl⟩, _, postsValues _ _⟩

theorem tryToConnectCases {v : MBusAsciiMaster Line} {ret : Bool}
    (ok : tryToConnect Line.win32 around t = some (ret, v)) : Keeps t v ∧ Connects around t v ret := by
  unfold tryToConnect at ok
  split at ok
  · rename_i opened
    cases Option.some.inj ok
    exact ⟨(staysSelf _).toKeeps, .fallen opened rfl rfl⟩
  · rename_i notOpen
    have closed := Bool.eq_false_of_not_eq_true notOpen
    obtain ⟨timeout, _, ok⟩ := Option.bind_eq_some_iff.mp ok
    obtain ⟨retry, _, ok⟩ := Option.bind_eq_some_iff.mp ok
    obtain ⟨pollDelay, _, ok⟩ := Option.bind_eq_some_iff.mp ok
    obtain ⟨baudRate, _, ok⟩ := Option.bind_eq_some_iff.mp ok
    obtain ⟨dataBits, bits, ok⟩ := Option.bind_eq_some_iff.mp ok
    obtain ⟨stopBits, stops, ok⟩ := Option.bind_eq_some_iff.mp ok
    obtain ⟨parity, kind, ok⟩ := Option.bind_eq_some_iff.mp ok
    obtain ⟨x, first⟩ := MbusSerialMasterProtocol.setTimeoutSets timeout t.mbusProtocol
    rw [first] at ok
    obtain ⟨y, second⟩ := MbusSerialMasterProtocol.setRetryCntSets retry {t.mbusProtocol with timeOut := x}
    rw [second] at ok
    obtain ⟨z, third⟩ := MbusSerialMasterProtocol.setPollDelaySets pollDelay
      {t.mbusProtocol with timeOut := x, retryCnt := y}
    rw [third] at ok
    obtain ⟨success, opened, kept⟩ := @Exchange.lineOpen
      {t.mbusProtocol with timeOut := x, retryCnt := y, pollDelay := z} closed t.mbus.port baudRate dataBits stopBits
      parity
    obtain ⟨port, set⟩ := MbusSerialMasterProtocol.openProtocolSets Line.win32 t.mbus.port baudRate dataBits stopBits
      parity {t.mbusProtocol with timeOut := x, retryCnt := y, pollDelay := z}
    generalize MbusSerialMasterProtocol.openProtocol Line.win32 t.mbus.port baudRate dataBits stopBits parity
      {t.mbusProtocol with timeOut := x, retryCnt := y, pollDelay := z} = gave at ok success opened kept set
    obtain ⟨result, m⟩ := gave
    dsimp only at ok success opened kept set
    have keeps : Keeps t {t with mbusProtocol := m} := by
      refine ⟨rfl, rfl, kept.1, ?_, kept.2.1⟩
      rw [set]
    split at ok
    · rename_i failed
      cases Option.some.inj ok
      obtain ⟨stays, active, posts⟩ := agentStatusPosts around .DISCONNECTED {t with mbusProtocol := m}
      have unset : ¬ Settable t.mbus := by
        rintro ⟨_, _, _, bits', stops', kind', supported⟩
        cases Option.some.inj (bits.symm.trans bits')
        cases Option.some.inj (stops.symm.trans stops')
        cases Option.some.inj (kind.symm.trans kind')
        exact failed (success.mpr supported)
      exact ⟨keepsTrans keeps stays.toKeeps, .refused active closed unset posts rfl⟩
    · rename_i done
      cases Option.some.inj ok
      exact ⟨keeps, .connected closed (opened.mpr (success.mp (not_not.mp done)).1) (postsNone rfl) rfl⟩

/- A poll reports all its buses in their order and nothing else. -/
theorem pollReports {agent : Int} (known : t.mbus.agentID = some agent) (ok : poll Line.win32 around t = some u) :
    Keeps t u ∧ Polls around agent t u := by
  obtain ⟨⟨ret, v⟩, connects, ok⟩ := Option.bind_eq_some_iff.mp ok
  obtain ⟨keeps, ways⟩ := tryToConnectCases connects
  dsimp only at ok
  cases ret with
  | false =>
    cases Option.some.inj ok
    cases ways with
    | fallen opened same gives =>
      subst same
      exact ⟨keeps, .fallen opened ⟨_, gives.symm⟩ opened (postsNone rfl)⟩
    | refused active closed unset posts gives => exact ⟨keeps, .refused active closed unset posts⟩
    | connected closed opened posts gives => cases gives
  | true =>
    obtain ⟨⟨after, v'⟩, looping, ok⟩ := Option.bind_eq_some_iff.mp ok
    have ready : (t.mbusProtocol.isOpen = false ∨ ∃ i, around.offEnd i = true) ∧ v.mbusProtocol.isOpen = true ∧
        Posts t v [] [] := by
      cases ways with
      | fallen opened same gives =>
        subst same
        exact ⟨Or.inr ⟨_, gives.symm⟩, opened, postsNone rfl⟩
      | refused active closed unset posts gives => cases gives
      | connected closed opened posts gives => exact ⟨Or.inl closed, opened, posts⟩
    obtain ⟨ready, opened, quiet⟩ := ready
    obtain ⟨reports, looped⟩ := pollLoopReports (by rw [keeps.mbus, known]) looping rfl
    obtain ⟨beats, sent, beating⟩ := looped.posts
    obtain ⟨onward, active, listed⟩ := busStatusPosts around after.busStatus v'
    obtain ⟨last, stillActive, summed⟩ := agentStatusPosts around
      (if after.atLeastOneNotOK = false then .CONNECTED else if after.atLeastOneOK then .DEGRADED else .DISCONNECTED)
      (setBusStatus around after.busStatus v')
    cases Option.some.inj ok
    have whole := staysTrans looped.stays (staysTrans onward last)
    have status : (if after.atLeastOneNotOK = false then Status.CONNECTED
        else if after.atLeastOneOK then .DEGRADED else .DISCONNECTED) = overall reports := by
      rw [looped.notOK, looped.ok]
      unfold overall
      simp only [Bool.false_or, List.all_eq_not_any_not]
      cases reports.any (fun r => !r.complete) <;> rfl
    have posts := postsTrans quiet (postsTrans sent (postsTrans listed summed))
    rw [onward.mbus, looped.stays.mbus, keeps.mbus] at posts
    refine ⟨keepsTrans keeps whole.toKeeps, .reported reports beats active stillActive ready ?_ ?_ ?_ ?_ ?_⟩
    · exact whole.opened.trans opened
    · rw [← keeps.mbus]
      exact looped.truthful.imp (fun b r => (truthfulSame keeps b r).mp)
    · rw [← keeps.mbus]
      exact beating
    · simpa only [status, looped.busStatus, List.nil_append, List.append_nil, List.append_assoc] using posts
    · intro healthy
      refine looped.live opened (fun b mem => healthySame keeps (healthy b ?_))
      rw [← keeps.mbus]
      exact mem

end Buses

end SerialModbus.MBusAsciiMaster
