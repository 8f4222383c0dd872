import SerialModbus.HWService

/-! What the poll loop of a master enqueues when a device does not answer. -/
namespace SerialModbus.Polling
open Text Global HWService

def COIL_NUMBER : Nat := 512
def REGISTER_NUMBER : Nat := 32

/- for (int i = 0; i < count; i++) setStatus(agent, b, i + 1, type, "0", true) -/
def sendInvalid (count : Nat) (type : DriverTypes) (st : Process) (agent b : Int) : Process :=
  (List.range count).foldl
    (fun st i => setStatus st agent b ((i : Int) + 1) type.code (number 0) true) st

def sendInvalidCoils (st : Process) (agent b : Int) : Process :=
  sendInvalid COIL_NUMBER .COILS st agent b

def sendInvalidRegisters (st : Process) (agent b : Int) : Process :=
  sendInvalid REGISTER_NUMBER .REGISTERS st agent b

def invalidMessage (type : DriverTypes) (agent b : Int) (i : Nat) : Message :=
  message agent b ((i : Int) + 1) type.code (number 0) true

def invalidMessages (count : Nat) (type : DriverTypes) (agent b : Int) : List Message :=
  (List.range count).map (invalidMessage type agent b)

theorem sendInvalidEnqueues (count : Nat) (type : DriverTypes) (st : Process) (agent b : Int) :
    sendInvalid count type st agent b =
      {st with messages := st.messages ++ invalidMessages count type agent b} := by
  induction count with
  | zero => simp [sendInvalid, invalidMessages]
  | succ count ih =>
    have last : sendInvalid (count + 1) type st agent b =
        setStatus (sendInvalid count type st agent b) agent b ((count : Int) + 1) type.code
          (number 0) true := by
      simp [sendInvalid, List.range_succ]
    rw [last, ih]
    simp [setStatus, invalidMessages, invalidMessage, List.range_succ, List.append_assoc]

end SerialModbus.Polling
