import SerialModbus.Driver

/-! The internal data points of the driver (SerialModbusResources): the names it
asks identifiers for, the identifiers it is given, and the values that configure
the bus masters. -/
namespace SerialModbus
open Text Global

structure PVSSDataPoint where
  number : Int
  usage : DPUsage
  dpName : QString
  dpId : DpIdentifier
  deriving DecidableEq, Repr

/- identifier and count are globals of the source file. -/
structure SerialModbusResources where
  dps : List PVSSDataPoint
  identifier : Nat
  count : Nat
  deriving DecidableEq, Repr

/- A delivered variable, by what the casts of answer4DpId read of it. -/
structure Delivered where
  text : QString
  integer : Int
  items : List Int
  deriving DecidableEq, Repr

namespace SerialModbusResources

def MAX_DPNAME_NUMBER : Nat := 100
def DP_NUMBER_OF_ENTRIES : Nat := 16

def ADDRESS_MODE : QString := "_SerialModbus_%d.Address.Mode:_online.._value".toList
def ADDRESS_PORT : QString := "_SerialModbus_%d.Address.Port:_online.._value".toList
def ADDRESS_BAUDRATE : QString := "_SerialModbus_%d.Address.BaudRate:_online.._value".toList
def ADDRESS_DATABITS : QString := "_SerialModbus_%d.Address.DataBits:_online.._value".toList
def ADDRESS_STOPBITS : QString := "_SerialModbus_%d.Address.StopBits:_online.._value".toList
def ADDRESS_PARITY : QString := "_SerialModbus_%d.Address.Parity:_online.._value".toList
def ADDRESS_POLLING : QString := "_SerialModbus_%d.Address.Polling:_online.._value".toList
def ADDRESS_BUS : QString := "_SerialModbus_%d.Address.Bus:_online.._value".toList
def ADDRESS_TIMEOUT : QString := "_SerialModbus_%d.Address.Timeout:_online.._value".toList
def ADDRESS_RETRY : QString := "_SerialModbus_%d.Address.Retry:_online.._value".toList
def ADDRESS_POLL_DELAY : QString := "_SerialModbus_%d.Address.PollDelay:_online.._value".toList
def STATUS_STATUS_1 : QString := "_SerialModbus_%d.Status.Status_1:_original.._value".toList
def STATUS_STATUS_2 : QString := "_SerialModbus_%d.Status.Status_2:_original.._value".toList
def STATUS_HEARTBEAT : QString := "_SerialModbus_%d.Status.Heartbeat:_original.._value".toList
def STATUS_BUS : QString := "_SerialModbus_%d.Status.Bus:_original.._value".toList
def STATUS_BUS_INVALID : QString := "_SerialModbus_%d.Status.Bus:_original.._userbit1".toList

/- The branches of getDpName4Query, by entry: the format and the usage. -/
def entries : List (QString × DPUsage) :=
  [(ADDRESS_MODE, .ADDRESS_MODE), (ADDRESS_PORT, .ADDRESS_PORT), (ADDRESS_BAUDRATE, .ADDRESS_BAUDRATE),
   (ADDRESS_DATABITS, .ADDRESS_DATABITS), (ADDRESS_STOPBITS, .ADDRESS_STOPBITS),
   (ADDRESS_PARITY, .ADDRESS_PARITY), (ADDRESS_POLLING, .ADDRESS_POLLING), (ADDRESS_BUS, .ADDRESS_BUS),
   (ADDRESS_TIMEOUT, .ADDRESS_TIMEOUT), (ADDRESS_RETRY, .ADDRESS_RETRY),
   (ADDRESS_POLL_DELAY, .ADDRESS_POLL_DELAY), (STATUS_STATUS_1, .STATUS_STATUS_1),
   (STATUS_STATUS_2, .STATUS_STATUS_2), (STATUS_HEARTBEAT, .STATUS_HEARTBEAT), (STATUS_BUS, .STATUS_BUS),
   (STATUS_BUS_INVALID, .STATUS_BUS_INVALID)]

/- An index is not negative, so one of the branches is taken. -/
def entry (index : Nat) : QString × DPUsage :=
  entries.get ⟨index % DP_NUMBER_OF_ENTRIES, Nat.mod_lt index (by decide)⟩

def new : SerialModbusResources := ⟨[], 0, 0⟩

def getNumberOfDpNames : Nat := MAX_DPNAME_NUMBER * DP_NUMBER_OF_ENTRIES

/- The data point that getDpName4Query makes; its identifier is still null. -/
def dataPoint (index : Nat) : PVSSDataPoint :=
  let pos : Int := (index / DP_NUMBER_OF_ENTRIES : Nat)
  let (format, usage) := entry index
  let dpName := sprintf format [pos + 1]
  ⟨pos, usage, dpName, none⟩

def getDpName4Query (r : SerialModbusResources) (index : Nat) : SerialModbusResources × QString :=
  let dp := dataPoint index
  ({r with dps := r.dps ++ [dp]}, dp.dpName)

/- removeAt and at need an index in range: none otherwise. -/
def setDpIdentifier (r : SerialModbusResources) (dpId : DpIdentifier) : Option SerialModbusResources :=
  if dpId = none then
    if r.identifier < r.dps.length then
      some {r with dps := r.dps.eraseIdx r.identifier, count := r.count + 1}
    else none
  else
    match r.dps[r.identifier]? with
    | some dp =>
        some {r with
          dps := r.dps.set r.identifier {dp with dpId := dpId}
          identifier := r.identifier + 1
          count := r.count + 1}
    | none => none

/- The number of points in the debug line, if there is one, and the answer. -/
def allIdsGot (r : SerialModbusResources) : Option Nat × Bool :=
  let areAll := r.count == getNumberOfDpNames
  (if areAll then some r.dps.length else none, true)

def getNumberOfIds2Connect (r : SerialModbusResources) : Nat := r.dps.length

def getId2Connect (r : SerialModbusResources) (i : Nat) : Option DpIdentifier :=
  r.dps[i]?.map PVSSDataPoint.dpId

def findDpById (r : SerialModbusResources) (dpId : DpIdentifier) : Option PVSSDataPoint :=
  r.dps.find? (fun dp => dp.dpId == dpId)

def TIMEOUT_MIN : Int := 1
def TIMEOUT_MAX : Int := 100000
def TIMEOUT_DEFAULT : Int := 1000

def RETRY_MIN : Int := 0
def RETRY_MAX : Int := 10

def POLL_DELAY_MIN : Int := 0
def POLL_DELAY_MAX : Int := 100000

def frameValue (value min max defaultValue : Int) : Int :=
  if value < min then defaultValue
  else if value > max then max
  else value

/- mb may be null, which only a list with items notices: none then. -/
def parseBus (mb : Option MBusAbstract) : List Int → Option (Option MBusAbstract)
  | [] => some mb
  | bus :: rest =>
      match mb with
      | some m => parseBus (some (m.addBus bus)) rest
      | none => none

/- What the switch of answer4DpId does to the master. -/
def configure (m : MBusAbstract) (dpId : DpIdentifier) (v : Delivered) : DPUsage → MBusAbstract
  | .ADDRESS_PORT => m.setPort v.text
  | .ADDRESS_MODE => m
  | .ADDRESS_BAUDRATE => m.setBaudRate v.integer
  | .ADDRESS_DATABITS => m.setDataBits v.integer
  | .ADDRESS_STOPBITS => m.setStopBits v.integer
  | .ADDRESS_PARITY => m.setParity v.integer
  | .ADDRESS_POLLING => m.setPolling v.integer
  | .ADDRESS_BUS => m
  | .ADDRESS_TIMEOUT => m.setTimeout (frameValue v.integer TIMEOUT_MIN TIMEOUT_MAX TIMEOUT_DEFAULT)
  | .ADDRESS_RETRY => m.setRetry (frameValue v.integer RETRY_MIN RETRY_MAX RETRY_MIN)
  | .ADDRESS_POLL_DELAY =>
      m.setPollDelay (frameValue v.integer POLL_DELAY_MIN POLL_DELAY_MAX POLL_DELAY_MIN)
  | .STATUS_STATUS_1 => m.setStatusId_1 dpId
  | .STATUS_STATUS_2 => m.setStatusId_2 dpId
  | .STATUS_HEARTBEAT => m.setHeartbeatId dpId
  | .STATUS_BUS => m.setBusStatusId dpId
  | .STATUS_BUS_INVALID => (m.setBusStatusInvalidId dpId).start

/- isInternalDpId asks findDpById as well. The case of ADDRESS_BUS goes through mb,
read before the master was created; all others go through master. -/
def answer4DpId (r : SerialModbusResources) (d : Driver) (dpId : DpIdentifier) (v : Delivered) :
    Option Driver :=
  match r.findDpById dpId with
  | none => some d
  | some dp => do
      let mb := d.getMBus dp.number
      let (d, master) :=
        match mb with
        | some master => (d, master)
        | none =>
            let dpName := left dp.dpName (indexOf dp.dpName '.')
            let master := (MBusAbstract.new dpName).setAgentID (dp.number + 1)
            (d.addMBus dp.number master, master)
      if dp.usage = .ADDRESS_BUS then
        match ← parseBus mb v.items with
        | some mb => some (d.addMBus dp.number mb)
        | none => some d
      else some (d.addMBus dp.number (configure master dpId v dp.usage))

end SerialModbusResources
end SerialModbus
