import SerialModbus.Global

/-! The settings of one bus master (MBusAbstract). What the constructor leaves
uninitialised is none until its setter has run; a QString and a DpIdentifier
start out empty and null. -/
namespace SerialModbus
open Text (QString)

structure MBusAbstract where
  running : Bool
  started : Bool
  agentID : Option Int
  dpName : QString
  port : QString
  baudRate : Option Int
  dataBits : Option Int
  stopBits : Option Int
  parity : Option Int
  polling : Option Int
  timeout : Option Int
  retry : Option Int
  pollDelay : Option Int
  bus : List Int
  statusId_1 : DpIdentifier
  statusId_2 : DpIdentifier
  heartbeatId : DpIdentifier
  statusBus : DpIdentifier
  statusBusInvalid : DpIdentifier
  deriving DecidableEq, Repr

namespace MBusAbstract

def new (dpName : QString) : MBusAbstract where
  running := true
  started := false
  agentID := none
  dpName := dpName
  port := []
  baudRate := none
  dataBits := none
  stopBits := none
  parity := none
  polling := none
  timeout := none
  retry := none
  pollDelay := none
  bus := []
  statusId_1 := none
  statusId_2 := none
  heartbeatId := none
  statusBus := none
  statusBusInvalid := none

@[simp] def setAgentID (m : MBusAbstract) (agentID : Int) := {m with agentID := some agentID}
@[simp] def setPort (m : MBusAbstract) (port : QString) := {m with port := port}
@[simp] def setBaudRate (m : MBusAbstract) (baudRate : Int) := {m with baudRate := some baudRate}
@[simp] def setDataBits (m : MBusAbstract) (dataBits : Int) := {m with dataBits := some dataBits}
@[simp] def setStopBits (m : MBusAbstract) (stopBits : Int) := {m with stopBits := some stopBits}
@[simp] def setParity (m : MBusAbstract) (parity : Int) := {m with parity := some parity}
@[simp] def setPolling (m : MBusAbstract) (polling : Int) := {m with polling := some polling}
@[simp] def setTimeout (m : MBusAbstract) (timeout : Int) := {m with timeout := some timeout}
@[simp] def setRetry (m : MBusAbstract) (retry : Int) := {m with retry := some retry}
@[simp] def setPollDelay (m : MBusAbstract) (pollDelay : Int) := {m with pollDelay := some pollDelay}
@[simp] def addBus (m : MBusAbstract) (address : Int) := {m with bus := m.bus ++ [address]}
@[simp] def setStatusId_1 (m : MBusAbstract) (dpId : DpIdentifier) := {m with statusId_1 := dpId}
@[simp] def setStatusId_2 (m : MBusAbstract) (dpId : DpIdentifier) := {m with statusId_2 := dpId}
@[simp] def setHeartbeatId (m : MBusAbstract) (dpId : DpIdentifier) := {m with heartbeatId := dpId}
@[simp] def setBusStatusId (m : MBusAbstract) (dpId : DpIdentifier) := {m with statusBus := dpId}
@[simp] def setBusStatusInvalidId (m : MBusAbstract) (dpId : DpIdentifier) := {m with statusBusInvalid := dpId}

/- QThread::start: the poll loop runs from here on. -/
@[simp] def start (m : MBusAbstract) := {m with started := true}

end MBusAbstract
end SerialModbus
