import SerialModbus.Ascii
import SerialModbus.Functions
import SerialModbus.Polling
import SerialModbus.Redundancy

/-! The poll thread of a master (MBusAsciiMaster.cpp). What it asks of its surroundings
is asked one look after the other, and what it enqueues is on record as the actions of
the service. Reading a setting that was never set has no result. -/
namespace SerialModbus
open Text (number)
open Delivery (Action)
open Global (DriverTypes Status)
open MbusAsciiMasterProtocol (ascii)
open MbusSerialMasterProtocol (setTimeout setPollDelay setRetryCnt openProtocol closeProtocol)
open MbusMasterFunctions (readCoils readMultipleRegisters)
open Polling (COIL_NUMBER REGISTER_NUMBER)

/- currentMSecsSinceEpoch and isRedActive, each look by its number; offEnd is what a bool
function gives that ends without a return, which may be another value each time. -/
structure Surroundings where
  clock : Nat → Int
  isRedActive : Nat → Bool
  replica : Int
  offEnd : Nat → Bool

structure MBusAsciiMaster (δ : Type) where
  thread : Nat
  mbus : MBusAbstract
  mbusProtocol : MbusSerialMasterProtocol δ
  ticks : Nat
  looks : Nat
  enqueued : List Action

namespace MBusAsciiMaster

def HEARTBEAT_MINIMUM_REWRITE : Int := 500

variable {δ : Type} (w : Win32 δ) (around : Surroundings)

def now (t : MBusAsciiMaster δ) : Int × MBusAsciiMaster δ := (around.clock t.ticks, {t with ticks := t.ticks + 1})

def isRedActive (t : MBusAsciiMaster δ) : Bool × MBusAsciiMaster δ :=
  (around.isRedActive t.looks, {t with looks := t.looks + 1})

def enqueue (t : MBusAsciiMaster δ) (actions : List Action) : MBusAsciiMaster δ :=
  {t with enqueued := t.enqueued ++ actions}

def setDpValues (t : MBusAsciiMaster δ) (values : List DpValue) : MBusAsciiMaster δ :=
  t.enqueue (values.map (fun v => .setDpValue t.thread v.dpId v.value))

def setAgentStatus (status : Status) (t : MBusAsciiMaster δ) : MBusAsciiMaster δ :=
  let (active, t) := isRedActive around t
  t.setDpValues [t.mbus.setAgentStatus active around.replica status.code]

def setBusStatus (status : List Int) (t : MBusAsciiMaster δ) : MBusAsciiMaster δ :=
  let (active, t) := isRedActive around t
  t.setDpValues (t.mbus.setBusStatus active status)

def setHeartbeat (t : MBusAsciiMaster δ) : MBusAsciiMaster δ := t.setDpValues [⟨t.mbus.heartbeatId, .bit true⟩]

def tryToConnect (t : MBusAsciiMaster δ) : Option (Bool × MBusAsciiMaster δ) :=
  if t.mbusProtocol.isOpen then some (around.offEnd t.looks, t)
  else do
    let timeout ← t.mbus.timeout
    let retry ← t.mbus.retry
    let pollDelay ← t.mbus.pollDelay
    let protocol := (setTimeout timeout t.mbusProtocol).2
    let protocol := (setRetryCnt retry protocol).2
    let protocol := (setPollDelay pollDelay protocol).2
    let baudRate ← t.mbus.baudRate
    let dataBits ← t.mbus.dataBits
    let stopBits ← t.mbus.stopBits
    let parity ← t.mbus.parity
    let (result, protocol) := openProtocol w t.mbus.port baudRate dataBits stopBits parity protocol
    let t := {t with mbusProtocol := protocol}
    if result ≠ FTALK_SUCCESS then some (false, setAgentStatus around .DISCONNECTED t) else some (true, t)

def tryToDisconnect (t : MBusAsciiMaster δ) : MBusAsciiMaster δ :=
  if t.mbusProtocol.isOpen then {t with mbusProtocol := closeProtocol w t.mbusProtocol} else t

/- for (int i = 0; i < count; i++) setStatus(agentID, b, i + 1, type, value[i], invalid) -/
def statuses (thread : Nat) (agent b : Int) (type : DriverTypes) (values : List Int) (invalid : Bool) : List Action :=
  values.zipIdx.map (fun (value, i) => .setStatus thread agent b ((i : Int) + 1) type.code (number value) invalid)

def invalidCoils (thread : Nat) (agent b : Int) : List Action :=
  statuses thread agent b .COILS (List.replicate COIL_NUMBER 0) true

def invalidRegisters (thread : Nat) (agent b : Int) : List Action :=
  statuses thread agent b .REGISTERS (List.replicate REGISTER_NUMBER 0) true

/- The variables of poll that its loop carries on. -/
structure Loop where
  busStatus : List Int
  atLeastOneNotOK : Bool
  atLeastOneOK : Bool
  fromTime : Int

def heartbeat (loop : Loop) (t : MBusAsciiMaster δ) : Loop × MBusAsciiMaster δ :=
  let (time, t) := now around t
  if time - loop.fromTime ≥ HEARTBEAT_MINIMUM_REWRITE then
    let (time, t) := now around t.setHeartbeat
    ({loop with fromTime := time}, t)
  else (loop, t)

/- From the comment "read registers" on; failed is the loop with this bus disconnected. -/
def pollRegisters (agentID b : Int) (loop failed : Loop) (t : MBusAsciiMaster δ) : Loop × MBusAsciiMaster δ :=
  let (result, registers, protocol) := readMultipleRegisters w ascii b 1 REGISTER_NUMBER t.mbusProtocol
  let t := {t with mbusProtocol := protocol}
  if result ≠ FTALK_SUCCESS then (failed, t.enqueue (invalidRegisters t.thread agentID b))
  else
    ({loop with atLeastOneOK := true},
      t.enqueue (statuses t.thread agentID b .REGISTERS (registers.map BitVec.toInt) false))

def pollCoils (agentID b : Int) (loop failed : Loop) (t : MBusAsciiMaster δ) : Loop × MBusAsciiMaster δ :=
  let (result, coils, protocol) := readCoils w ascii b 1 COIL_NUMBER t.mbusProtocol
  let t := {t with mbusProtocol := protocol}
  if result ≠ FTALK_SUCCESS then
    (failed, t.enqueue (invalidCoils t.thread agentID b ++ invalidRegisters t.thread agentID b))
  else pollRegisters w agentID b loop failed (t.enqueue (statuses t.thread agentID b .COILS coils false))

def pollBus (busNumber : Nat) (b : Int) (loop : Loop) (t : MBusAsciiMaster δ) :
    Option (Loop × MBusAsciiMaster δ) := do
  let (loop, t) := heartbeat around loop t
  let busStatus := loop.busStatus ++ [Status.CONNECTED.code]
  let agentID ← t.mbus.agentID
  some (pollCoils w agentID b {loop with busStatus := busStatus}
    {loop with busStatus := busStatus.set busNumber Status.DISCONNECTED.code, atLeastOneNotOK := true} t)

def pollLoop : Nat → List Int → Loop → MBusAsciiMaster δ → Option (Loop × MBusAsciiMaster δ)
  | _, [], loop, t => some (loop, t)
  | busNumber, b :: rest, loop, t => do
      let (loop, t) ← pollBus w around busNumber b loop t
      pollLoop (busNumber + 1) rest loop t

def poll (t : MBusAsciiMaster δ) : Option (MBusAsciiMaster δ) := do
  let (ret, t) ← tryToConnect w around t
  if ret then do
    let (loop, t) ← pollLoop w around 0 t.mbus.bus ⟨[], false, false, 0⟩ t
    let t := setBusStatus around loop.busStatus t
    some (setAgentStatus around
      (if loop.atLeastOneNotOK = false then .CONNECTED else if loop.atLeastOneOK then .DEGRADED else .DISCONNECTED) t)
  else some t

/- From the comment "wait delta" on; the sleep is one of the operating system. -/
def waitDelta (start : Int) (t : MBusAsciiMaster δ) : Option (MBusAsciiMaster δ) := do
  let (stop, t) := now around t
  let delta := (stop - start).bmod (2 ^ 32)
  let polling ← t.mbus.polling
  some (if delta < polling then
    {t with mbusProtocol := {t.mbusProtocol with
      serialPort := MbusSerialMasterProtocol.sleep w (polling - delta) t.mbusProtocol.serialPort}}
    else t)

def turn (t : MBusAsciiMaster δ) : Option (MBusAsciiMaster δ) :=
  let (active, t) := isRedActive around t
  if active then poll w around t else some (tryToDisconnect w t)

/- while (this->running), one turn. -/
def cycle (t : MBusAsciiMaster δ) : Option (MBusAsciiMaster δ) := do
  let (start, t) := now around t
  let t ← turn w around t
  waitDelta w around start t

def isValid (m : MBusAbstract) : Option Bool := do
  let polling ← m.polling
  if polling ≥ 2000 ∧ m.port ≠ [] then
    let baudRate ← m.baudRate
    some (decide (baudRate > 0))
  else some false

/- The thread up to its loop, and whether it enters it. -/
def enter (t : MBusAsciiMaster δ) : Option (Bool × MBusAsciiMaster δ) := do
  let valid ← isValid t.mbus
  if valid then some (true, setAgentStatus around .INITIALIZE t) else some (false, setAgentStatus around .STOPPED t)

end MBusAsciiMaster
end SerialModbus
