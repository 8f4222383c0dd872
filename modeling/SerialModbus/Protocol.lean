import Mathlib.Data.List.GetD
import SerialModbus.Port
import SerialModbus.Retry

/-! The serial master protocol of the library (MbusSerialMasterProtocol.cpp and the state
of MbusMasterFunctions): one exchange of a request and its reply, and its retries. How a
protocol writes and reads its frames is a parameter. -/
namespace SerialModbus
open Text (QString)

/-! Result codes (BusProtocolErrors.h). -/

def FTALK_SUCCESS : Int := 0
def FTALK_ILLEGAL_ARGUMENT_ERROR : Int := 1
def FTALK_ILLEGAL_STATE_ERROR : Int := 2
def FTALK_IO_ERROR : Int := 65
def FTALK_OPEN_ERR : Int := 66
def FTALK_PORT_ALREADY_OPEN : Int := 67
def FTALK_PORT_NO_ACCESS : Int := 74
def FTALK_CHECKSUM_ERROR : Int := 129
def FTALK_INVALID_FRAME_ERROR : Int := 130
def FTALK_INVALID_REPLY_ERROR : Int := 131
def FTALK_REPLY_TIMEOUT_ERROR : Int := 132
def FTALK_SEND_TIMEOUT_ERROR : Int := 133
def FTALK_MBUS_EXCEPTION_RESPONSE : Int := 160

theorem illegalArgument : FTALK_ILLEGAL_ARGUMENT_ERROR ≠ FTALK_SUCCESS := by decide
theorem invalidReply : FTALK_INVALID_REPLY_ERROR ≠ FTALK_SUCCESS := by decide

/- The flags of one slave in slaveConfigFlagsArr. -/
structure SlaveConfigFlags where
  REFERENCES_START_AT_ZERO : Bool
  FLOATS_ARE_BIG_ENDIAN : Bool
  INTS_ARE_BIG_ENDIAN : Bool
  DANIEL_ENRON_32_BIT_MODE : Bool
  deriving DecidableEq, Repr

inductive SerialMode where
  | SER_RS232
  | SER_RS485
  deriving DecidableEq, Repr

def MAX_DATA_SIZE : Nat := 252

/- An array of MAX_DATA_SIZE characters. -/
structure Buffer where
  bytes : List UInt8
  sized : bytes.length = MAX_DATA_SIZE

namespace Buffer

def get (b : Buffer) (i : Nat) : UInt8 := b.bytes.getD i 0

def set (b : Buffer) (i : Nat) (x : UInt8) : Buffer := ⟨b.bytes.set i x, by rw [List.length_set, b.sized]⟩

/- Bytes copied to the front; no caller copies more than there is room for. -/
def overlay (b : Buffer) (bytes : List UInt8) : Buffer :=
  ⟨(bytes ++ b.bytes.drop bytes.length).take MAX_DATA_SIZE, by
    have sized := b.sized
    rw [List.length_take, List.length_append, List.length_drop]
    omega⟩

def front (b : Buffer) (n : Nat) : List UInt8 := b.bytes.take n

theorem overlayGet (b : Buffer) {bytes : List UInt8} (room : bytes.length ≤ MAX_DATA_SIZE) {i : Nat}
    (inside : i < bytes.length) : (b.overlay bytes).get i = bytes.getD i 0 := by
  simp only [get, overlay, List.getD_eq_getElem?_getD]
  rw [List.getElem?_take_of_lt (Nat.lt_of_lt_of_le inside room), List.getElem?_append_left inside]

theorem overlayFront (b : Buffer) {bytes : List UInt8} (room : bytes.length ≤ MAX_DATA_SIZE) :
    (b.overlay bytes).front bytes.length = bytes := by
  simp only [front, overlay]
  rw [List.take_take, Nat.min_eq_left room, List.take_left]

end Buffer

/- bufferArr is the buffer that requests are made in and replies copied to. -/
structure MbusSerialMasterProtocol (δ : Type) where
  totalCounter : UInt32
  successCounter : UInt32
  retryCnt : Int
  timeOut : Int
  pollDelay : Int
  slaveConfigFlagsArr : UInt8 → SlaveConfigFlags
  bufferArr : Buffer
  serialMode : SerialMode
  rtsDelay : Int
  serialPort : HmSerialPort δ

/- What a protocol makes of a message. normal looks at the first EXC_MSG_LEN bytes of a
reply; check judges the bytes received and gives the data, without address and function. -/
structure Framing where
  assemble : UInt8 → UInt8 → List UInt8 → List UInt8
  EXC_MSG_LEN : Nat
  bytesExpected : Nat → Nat
  normal : List UInt8 → Bool
  check : UInt8 → UInt8 → Nat → List UInt8 → Except Int (List UInt8)

namespace MbusSerialMasterProtocol
open HmSerialPort (Ser Touches)

variable {δ : Type} (w : Win32 δ) (f : Framing)

def sleep (time : Int) (p : HmSerialPort δ) : HmSerialPort δ := {p with os := w.Sleep time p.os}

def sendError : Ser → Option Int
  | .SER_SUCCESS => none
  | .SER_TIME_OUT => some FTALK_SEND_TIMEOUT_ERROR
  | .SER_LINE_ERROR => some FTALK_SEND_TIMEOUT_ERROR
  | _ => some FTALK_IO_ERROR

def receiveError : Ser → Int
  | .SER_TIME_OUT => FTALK_REPLY_TIMEOUT_ERROR
  | .SER_LINE_ERROR => FTALK_REPLY_TIMEOUT_ERROR
  | _ => FTALK_IO_ERROR

/- The buffers are cleared, and what is left of the delay between two messages is slept. -/
def clearBuffers (m : MbusSerialMasterProtocol δ) : HmSerialPort δ :=
  let p := (HmSerialPort.flush w m.serialPort).2
  if m.pollDelay > 0 then sleep w m.pollDelay p else p

/- In RS485 mode RTS is on while the request is sent. -/
def transmit (m : MbusSerialMasterProtocol δ) (request : List UInt8) (p : HmSerialPort δ) :
    Ser × HmSerialPort δ :=
  let p := if m.serialMode = .SER_RS485 then (HmSerialPort.setRts w p).2 else p
  let sent := HmSerialPort.send w request m.timeOut p
  let p := (HmSerialPort.drain w sent.2).2
  let p := if m.serialMode = .SER_RS485 then (HmSerialPort.clearRts w (sleep w m.rtsDelay p)).2 else p
  (sent.1, p)

def sendRequest (m : MbusSerialMasterProtocol δ) (request : List UInt8) : Option Int × HmSerialPort δ :=
  let sent := transmit w m request (clearBuffers w m)
  (sendError sent.1, sent.2)

/- The first part has the length of an exception; what follows is read when it is none. -/
def receiveReply (rcvDataLen : Nat) (timeOut : Int) (p : HmSerialPort δ) :
    Except Int (List UInt8) × HmSerialPort δ :=
  match HmSerialPort.receive w f.EXC_MSG_LEN timeOut p with
  | (.error e, p) => (.error (receiveError e), p)
  | (.ok first, p) =>
      if f.normal first ∧ f.EXC_MSG_LEN < f.bytesExpected rcvDataLen then
        match HmSerialPort.receive w (f.bytesExpected rcvDataLen - f.EXC_MSG_LEN) timeOut p with
        | (.error e, p) => (.error (receiveError e), p)
        | (.ok rest, p) => (.ok (first ++ rest), p)
      else (.ok first, p)

/- The data is none when no reply is awaited: rcvDataArr stays as it is. -/
def transceiveMessage (address function : UInt8) (sendData : List UInt8) (rcvDataLen : Nat)
    (m : MbusSerialMasterProtocol δ) : Except Int (List UInt8) × MbusSerialMasterProtocol δ :=
  let m := {m with totalCounter := m.totalCounter + 1}
  match sendRequest w m (f.assemble address function sendData) with
  | (some e, p) => (.error e, {m with serialPort := p})
  | (none, p) =>
      if address = 0 ∨ rcvDataLen = 0 then
        (.ok [], {m with successCounter := m.successCounter + 1, serialPort := p})
      else
        match receiveReply w f rcvDataLen m.timeOut p with
        | (.error e, p) => (.error e, {m with serialPort := p})
        | (.ok bytes, p) =>
            match f.check address function rcvDataLen bytes with
            | .error e => (.error e, {m with serialPort := p})
            | .ok data => (.ok data, {m with successCounter := m.successCounter + 1, serialPort := p})

/- The results that deliverMessage tries again. -/
def again : Except Int (List UInt8) → Bool
  | .ok _ => false
  | .error e => e == FTALK_INVALID_FRAME_ERROR || e == FTALK_REPLY_TIMEOUT_ERROR || e == FTALK_CHECKSUM_ERROR

def isOpen (m : MbusSerialMasterProtocol δ) : Bool := m.serialPort.isOpen

/- retries <= 0 gives up: retryCnt further attempts, and none for a negative count. -/
def deliverMessage (address function : UInt8) (sendData : List UInt8) (rcvDataLen : Nat)
    (m : MbusSerialMasterProtocol δ) : Except Int (List UInt8) × MbusSerialMasterProtocol δ :=
  if m.isOpen then
    Retry.retry (transceiveMessage w f address function sendData rcvDataLen) again m.retryCnt.toNat m
  else (.error FTALK_ILLEGAL_STATE_ERROR, m)

def setTimeout (msTime : Int) (m : MbusSerialMasterProtocol δ) : Int × MbusSerialMasterProtocol δ :=
  if msTime < 1 ∨ msTime > 100000 then (FTALK_ILLEGAL_ARGUMENT_ERROR, m)
  else if m.isOpen then (FTALK_ILLEGAL_STATE_ERROR, m)
  else (FTALK_SUCCESS, {m with timeOut := msTime})

def setPollDelay (msTime : Int) (m : MbusSerialMasterProtocol δ) : Int × MbusSerialMasterProtocol δ :=
  if msTime < 0 ∨ msTime > 100000 then (FTALK_ILLEGAL_ARGUMENT_ERROR, m)
  else if m.isOpen then (FTALK_ILLEGAL_STATE_ERROR, m)
  else (FTALK_SUCCESS, {m with pollDelay := msTime})

def setRetryCnt (retries : Int) (m : MbusSerialMasterProtocol δ) : Int × MbusSerialMasterProtocol δ :=
  if retries < 0 ∨ retries > 10 then (FTALK_ILLEGAL_ARGUMENT_ERROR, m)
  else if m.isOpen then (FTALK_ILLEGAL_STATE_ERROR, m)
  else (FTALK_SUCCESS, {m with retryCnt := retries})

def openError : Ser → Option Int
  | .SER_PORT_NO_ACCESS => some FTALK_PORT_NO_ACCESS
  | .SER_ALREADY_OPEN => some FTALK_PORT_ALREADY_OPEN
  | .SER_SUCCESS => none
  | _ => some FTALK_OPEN_ERR

def openProtocol (portName : QString) (baudRate dataBits stopBits parity : Int)
    (m : MbusSerialMasterProtocol δ) : Int × MbusSerialMasterProtocol δ :=
  if m.isOpen then (FTALK_ILLEGAL_STATE_ERROR, m)
  else if dataBits ≠ HmSerialPort.SER_DATABITS_7 ∧ dataBits ≠ HmSerialPort.SER_DATABITS_8 then
    (FTALK_ILLEGAL_ARGUMENT_ERROR, m)
  else
    let opened := HmSerialPort.openPort w portName m.serialPort
    match openError opened.1 with
    | some e => (e, {m with serialPort := opened.2})
    | none =>
        let set := HmSerialPort.config w baudRate dataBits stopBits parity HmSerialPort.SER_HANDSHAKE_NONE opened.2
        if set.1 ≠ .SER_SUCCESS then (FTALK_ILLEGAL_ARGUMENT_ERROR, {m with serialPort := set.2})
        else
          let p := (if m.serialMode = .SER_RS485 then HmSerialPort.clearRts w set.2
            else HmSerialPort.setRts w set.2).2
          (FTALK_SUCCESS, {m with serialPort := p})

def closeProtocol (m : MbusSerialMasterProtocol δ) : MbusSerialMasterProtocol δ :=
  {m with serialPort := HmSerialPort.closePort w m.serialPort}

def settings : DCB := ⟨9600, 8, .ONESTOPBIT, false, .NOPARITY, false, false, false, false, .RTS_CONTROL_ENABLE,
  .DTR_CONTROL_ENABLE, false, true, false, false, false⟩

/- A master on an open port, with three retries. -/
def sample (os : δ) : MbusSerialMasterProtocol δ where
  totalCounter := 0
  successCounter := 0
  retryCnt := 3
  timeOut := 1000
  pollDelay := 0
  slaveConfigFlagsArr := fun _ => ⟨false, false, false, false⟩
  bufferArr := ⟨List.replicate MAX_DATA_SIZE 0, List.length_replicate⟩
  serialMode := .SER_RS232
  rtsDelay := 0
  serialPort := ⟨true, 9600, 0, settings, os⟩

/-! What setting up a protocol can change. -/

theorem setTimeoutSets (msTime : Int) (m : MbusSerialMasterProtocol δ) :
    ∃ timeOut, (setTimeout msTime m).2 = {m with timeOut := timeOut} := by
  unfold setTimeout
  split
  · exact ⟨m.timeOut, rfl⟩
  · split
    · exact ⟨m.timeOut, rfl⟩
    · exact ⟨msTime, rfl⟩

theorem setRetryCntSets (retries : Int) (m : MbusSerialMasterProtocol δ) :
    ∃ retryCnt, (setRetryCnt retries m).2 = {m with retryCnt := retryCnt} := by
  unfold setRetryCnt
  split
  · exact ⟨m.retryCnt, rfl⟩
  · split
    · exact ⟨m.retryCnt, rfl⟩
    · exact ⟨retries, rfl⟩

theorem setPollDelaySets (msTime : Int) (m : MbusSerialMasterProtocol δ) :
    ∃ pollDelay, (setPollDelay msTime m).2 = {m with pollDelay := pollDelay} := by
  unfold setPollDelay
  split
  · exact ⟨m.pollDelay, rfl⟩
  · split
    · exact ⟨m.pollDelay, rfl⟩
    · exact ⟨msTime, rfl⟩

theorem openProtocolSets (portName : QString) (baudRate dataBits stopBits parity : Int)
    (m : MbusSerialMasterProtocol δ) :
    ∃ serialPort, (openProtocol w portName baudRate dataBits stopBits parity m).2 = {m with serialPort := serialPort} := by
  unfold openProtocol
  split
  · exact ⟨m.serialPort, rfl⟩
  · split
    · exact ⟨m.serialPort, rfl⟩
    · dsimp only
      split
      · exact ⟨_, rfl⟩
      · split
        · exact ⟨_, rfl⟩
        · exact ⟨_, rfl⟩

/-! What one exchange can do. -/

theorem sleepTouches (time : Int) (p : HmSerialPort δ) : Touches p (sleep w time p) := rfl

theorem clearBuffersTouches (m : MbusSerialMasterProtocol δ) : Touches m.serialPort (clearBuffers w m) := by
  have cleared := HmSerialPort.flushTouches w m.serialPort
  unfold clearBuffers
  dsimp only
  split
  · exact HmSerialPort.touchesTrans cleared (sleepTouches w _ _)
  · exact cleared

theorem transmitTouches (m : MbusSerialMasterProtocol δ) (request : List UInt8) (p : HmSerialPort δ) :
    Touches p (transmit w m request p).2 := by
  unfold transmit
  cases m.serialMode with
  | SER_RS232 =>
    have sent := HmSerialPort.sendTouches w request m.timeOut p
    exact HmSerialPort.touchesTrans sent (HmSerialPort.drainTouches w _)
  | SER_RS485 =>
    have raised := HmSerialPort.escapeTouches w true p
    have sent := HmSerialPort.touchesTrans raised (HmSerialPort.sendTouches w request m.timeOut _)
    have drained := HmSerialPort.touchesTrans sent (HmSerialPort.drainTouches w _)
    have slept := HmSerialPort.touchesTrans drained (sleepTouches w m.rtsDelay _)
    exact HmSerialPort.touchesTrans slept (HmSerialPort.escapeTouches w false _)

theorem sendRequestTouches (m : MbusSerialMasterProtocol δ) (request : List UInt8) :
    Touches m.serialPort (sendRequest w m request).2 :=
  HmSerialPort.touchesTrans (clearBuffersTouches w m) (transmitTouches w m request _)

theorem receiveReplyTouches (rcvDataLen : Nat) (timeOut : Int) (p : HmSerialPort δ) :
    Touches p (receiveReply w f rcvDataLen timeOut p).2 := by
  have first := HmSerialPort.receiveTouches w f.EXC_MSG_LEN timeOut p
  unfold receiveReply
  split
  · rename_i got
    rw [got] at first
    exact first
  · rename_i q got
    rw [got] at first
    have second := HmSerialPort.receiveTouches w (f.bytesExpected rcvDataLen - f.EXC_MSG_LEN) timeOut q
    split
    · split
      · rename_i more
        rw [more] at second
        exact HmSerialPort.touchesTrans first second
      · rename_i more
        rw [more] at second
        exact HmSerialPort.touchesTrans first second
    · exact first

/- A reply has the length of an exception, or the length that was asked for. -/
theorem receiveReplyLength {rcvDataLen : Nat} {timeOut : Int} {p : HmSerialPort δ} {bytes : List UInt8}
    (ok : (receiveReply w f rcvDataLen timeOut p).1 = .ok bytes) :
    (bytes.length = f.EXC_MSG_LEN ∧
      (f.normal bytes = false ∨ f.bytesExpected rcvDataLen ≤ f.EXC_MSG_LEN)) ∨
    (bytes.length = f.bytesExpected rcvDataLen ∧ f.EXC_MSG_LEN < f.bytesExpected rcvDataLen ∧
      f.normal (bytes.take f.EXC_MSG_LEN) = true) := by
  unfold receiveReply at ok
  split at ok
  · cases ok
  · rename_i first q got
    have size := HmSerialPort.receiveLength w (congrArg Prod.fst got)
    split at ok
    · rename_i goes
      split at ok
      · cases ok
      · rename_i rest r more
        have left := HmSerialPort.receiveLength w (congrArg Prod.fst more)
        cases ok
        refine Or.inr ⟨?_, goes.2, ?_⟩
        · rw [List.length_append, size, left]
          omega
        · rw [← size, List.take_left]
          exact goes.1
    · rename_i stops
      cases ok
      refine Or.inl ⟨size, ?_⟩
      cases said : f.normal bytes with
      | false => exact Or.inl rfl
      | true => exact Or.inr (Nat.le_of_not_lt fun more => stops ⟨said, more⟩)

inductive Exchanged (address function : UInt8) (sendData : List UInt8) (rcvDataLen : Nat)
    (m : MbusSerialMasterProtocol δ) : Except Int (List UInt8) → HmSerialPort δ → Prop where
  | unsent (e : Int) (p : HmSerialPort δ)
      (failed : sendRequest w m (f.assemble address function sendData) = (some e, p)) :
      Exchanged address function sendData rcvDataLen m (.error e) p
  | unanswered (p : HmSerialPort δ) (sent : sendRequest w m (f.assemble address function sendData) = (none, p))
      (none : address = 0 ∨ rcvDataLen = 0) : Exchanged address function sendData rcvDataLen m (.ok []) p
  | lost (e : Int) (p q : HmSerialPort δ)
      (sent : sendRequest w m (f.assemble address function sendData) = (none, p))
      (awaited : ¬ (address = 0 ∨ rcvDataLen = 0)) (failed : receiveReply w f rcvDataLen m.timeOut p = (.error e, q)) :
      Exchanged address function sendData rcvDataLen m (.error e) q
  | judged (bytes : List UInt8) (p q : HmSerialPort δ)
      (sent : sendRequest w m (f.assemble address function sendData) = (none, p))
      (awaited : ¬ (address = 0 ∨ rcvDataLen = 0)) (received : receiveReply w f rcvDataLen m.timeOut p = (.ok bytes, q)) :
      Exchanged address function sendData rcvDataLen m (f.check address function rcvDataLen bytes) q

/- Every exchange counts, and counts as a success when it is one. -/
def counted (m : MbusSerialMasterProtocol δ) (result : Except Int (List UInt8)) (p : HmSerialPort δ) :
    MbusSerialMasterProtocol δ :=
  {m with
    totalCounter := m.totalCounter + 1
    successCounter := if result.isOk then m.successCounter + 1 else m.successCounter
    serialPort := p}

theorem transceiveExchanged (address function : UInt8) (sendData : List UInt8) (rcvDataLen : Nat)
    (m : MbusSerialMasterProtocol δ) :
    ∃ p, Exchanged w f address function sendData rcvDataLen m
        (transceiveMessage w f address function sendData rcvDataLen m).1 p ∧
      (transceiveMessage w f address function sendData rcvDataLen m).2 =
        counted m (transceiveMessage w f address function sendData rcvDataLen m).1 p := by
  have same : ∀ request, sendRequest w {m with totalCounter := m.totalCounter + 1} request =
      sendRequest w m request := fun _ => rfl
  unfold transceiveMessage
  dsimp only
  rw [same]
  split
  · rename_i e p failed
    exact ⟨p, .unsent e p failed, rfl⟩
  · rename_i p sent
    split
    · rename_i none
      exact ⟨p, .unanswered p sent none, rfl⟩
    · rename_i awaited
      split
      · rename_i e q failed
        exact ⟨q, .lost e p q sent awaited failed, rfl⟩
      · rename_i bytes q received
        have judged := Exchanged.judged bytes p q sent awaited received
        split
        · rename_i e refused
          rw [refused] at judged
          exact ⟨q, judged, rfl⟩
        · rename_i data accepted
          rw [accepted] at judged
          exact ⟨q, judged, rfl⟩

/- A message changes the counters and what lies behind the port. -/
def Talked (m n : MbusSerialMasterProtocol δ) : Prop :=
  n = {m with totalCounter := n.totalCounter, successCounter := n.successCounter, serialPort := n.serialPort} ∧
    Touches m.serialPort n.serialPort

theorem talkedSelf (m : MbusSerialMasterProtocol δ) : Talked m m := ⟨rfl, HmSerialPort.touchesSelf _⟩

theorem talkedTrans {m n o : MbusSerialMasterProtocol δ} (first : Talked m n) (second : Talked n o) : Talked m o := by
  obtain ⟨same, port⟩ := first
  obtain ⟨same', port'⟩ := second
  refine ⟨?_, HmSerialPort.touchesTrans port port'⟩
  rw [same', same]

theorem exchangedTouches {address function : UInt8} {sendData : List UInt8} {rcvDataLen : Nat}
    {m : MbusSerialMasterProtocol δ} {result : Except Int (List UInt8)} {p : HmSerialPort δ}
    (exchanged : Exchanged w f address function sendData rcvDataLen m result p) : Touches m.serialPort p := by
  have out := sendRequestTouches w m (f.assemble address function sendData)
  cases exchanged with
  | unsent e p failed =>
    rw [failed] at out
    exact out
  | unanswered p sent none =>
    rw [sent] at out
    exact out
  | lost e q p sent awaited failed =>
    have back := receiveReplyTouches w f rcvDataLen m.timeOut q
    rw [sent] at out
    rw [failed] at back
    exact HmSerialPort.touchesTrans out back
  | judged bytes q p sent awaited received =>
    have back := receiveReplyTouches w f rcvDataLen m.timeOut q
    rw [sent] at out
    rw [received] at back
    exact HmSerialPort.touchesTrans out back

theorem transceiveTalked (address function : UInt8) (sendData : List UInt8) (rcvDataLen : Nat)
    (m : MbusSerialMasterProtocol δ) :
    Talked m (transceiveMessage w f address function sendData rcvDataLen m).2 := by
  obtain ⟨p, exchanged, made⟩ := transceiveExchanged w f address function sendData rcvDataLen m
  rw [made]
  exact ⟨rfl, exchangedTouches w f exchanged⟩

theorem deliverTalked (address function : UInt8) (sendData : List UInt8) (rcvDataLen : Nat)
    (m : MbusSerialMasterProtocol δ) :
    Talked m (deliverMessage w f address function sendData rcvDataLen m).2 := by
  unfold deliverMessage
  split
  · exact Retry.retryKeeps (fun n talked => talkedTrans talked (transceiveTalked w f _ _ _ _ n)) _ (talkedSelf m)
  · exact talkedSelf m

theorem talkedOpen {m n : MbusSerialMasterProtocol δ} (talked : Talked m n) : n.isOpen = m.isOpen := by
  have same := congrArg HmSerialPort.isOpen talked.2
  exact same

/-! No failure has the code of success, when none of the protocol has. -/

theorem sendRequestFails {m : MbusSerialMasterProtocol δ} {request : List UInt8} {e : Int} {p : HmSerialPort δ}
    (failed : sendRequest w m request = (some e, p)) : e ≠ FTALK_SUCCESS := by
  unfold sendRequest at failed
  dsimp only at failed
  generalize (transmit w m request (clearBuffers w m)).1 = said at failed
  cases said <;> cases failed <;> decide

theorem receiveReplyFails {rcvDataLen : Nat} {timeOut : Int} {p q : HmSerialPort δ} {e : Int}
    (failed : receiveReply w f rcvDataLen timeOut p = (.error e, q)) : e ≠ FTALK_SUCCESS := by
  have each : ∀ said, receiveError said ≠ FTALK_SUCCESS := by
    intro said
    cases said <;> decide
  unfold receiveReply at failed
  split at failed
  · cases failed
    exact each _
  · split at failed
    · split at failed
      · cases failed
        exact each _
      · cases failed
    · cases failed

theorem transceiveFails (fails : ∀ address function n bytes e, f.check address function n bytes = .error e →
      e ≠ FTALK_SUCCESS) (address function : UInt8) (sendData : List UInt8) (rcvDataLen : Nat)
    (m : MbusSerialMasterProtocol δ) {e : Int}
    (failed : (transceiveMessage w f address function sendData rcvDataLen m).1 = .error e) : e ≠ FTALK_SUCCESS := by
  obtain ⟨p, exchanged, _⟩ := transceiveExchanged w f address function sendData rcvDataLen m
  rw [failed] at exchanged
  generalize result : (.error e : Except Int (List UInt8)) = said at exchanged
  cases exchanged with
  | unsent e' p unsent =>
    cases result
    exact sendRequestFails w unsent
  | unanswered p sent none => cases result
  | lost e' p q sent awaited lost =>
    cases result
    exact receiveReplyFails w f lost
  | judged bytes p q sent awaited received => exact fails _ _ _ _ _ result.symm

theorem deliverFails (fails : ∀ address function n bytes e, f.check address function n bytes = .error e →
      e ≠ FTALK_SUCCESS) (address function : UInt8) (sendData : List UInt8) (rcvDataLen : Nat)
    (m : MbusSerialMasterProtocol δ) {e : Int}
    (failed : (deliverMessage w f address function sendData rcvDataLen m).1 = .error e) : e ≠ FTALK_SUCCESS := by
  unfold deliverMessage at failed
  split at failed
  · obtain ⟨k, _, same⟩ := Retry.retryStops (transceiveMessage w f address function sendData rcvDataLen) again
      m.retryCnt.toNat m
    rw [same] at failed
    exact transceiveFails w f fails _ _ _ _ _ failed
  · cases failed
    decide

/- What is delivered with a success is what its last exchange gave. -/
theorem deliverExchanged {address function : UInt8} {sendData data : List UInt8} {rcvDataLen : Nat}
    {m : MbusSerialMasterProtocol δ} (ok : (deliverMessage w f address function sendData rcvDataLen m).1 = .ok data) :
    ∃ k ≤ m.retryCnt.toNat,
      Talked m (Retry.before (transceiveMessage w f address function sendData rcvDataLen) m k) ∧
      Exchanged w f address function sendData rcvDataLen
        (Retry.before (transceiveMessage w f address function sendData rcvDataLen) m k) (.ok data)
        (deliverMessage w f address function sendData rcvDataLen m).2.serialPort := by
  unfold deliverMessage at ok ⊢
  split at ok
  · rename_i opened
    obtain ⟨k, stops, same⟩ := Retry.retryStops (transceiveMessage w f address function sendData rcvDataLen) again
      m.retryCnt.toNat m
    have talked := Retry.beforeKeeps (P := Talked m)
      (fun n talked => talkedTrans talked (transceiveTalked w f address function sendData rcvDataLen n)) (talkedSelf m) k
    obtain ⟨p, exchanged, made⟩ := transceiveExchanged w f address function sendData rcvDataLen
      (Retry.before (transceiveMessage w f address function sendData rcvDataLen) m k)
    rw [same] at ok
    rw [ok] at exchanged
    refine ⟨k, stops.within, talked, ?_⟩
    rw [if_pos opened, same, made]
    exact exchanged
  · cases ok

/- Nobody answers a broadcast. -/
theorem deliverBroadcast {address function : UInt8} {sendData data : List UInt8} {rcvDataLen : Nat}
    {m : MbusSerialMasterProtocol δ} (broadcast : address = 0)
    (ok : (deliverMessage w f address function sendData rcvDataLen m).1 = .ok data) : data = [] := by
  obtain ⟨k, _, _, exchanged⟩ := deliverExchanged w f ok
  generalize result : (.ok data : Except Int (List UInt8)) = said at exchanged
  cases exchanged with
  | unsent e p failed => cases result
  | unanswered p sent none => exact Except.ok.inj result
  | lost e p q sent awaited failed => cases result
  | judged bytes p q sent awaited received => exact absurd (Or.inl broadcast) awaited

/- The bytes that came in after the request of attempt number k had gone out, and the port
after them. -/
def Received (address function : UInt8) (sendData : List UInt8) (rcvDataLen : Nat)
    (m : MbusSerialMasterProtocol δ) (k : Nat) (bytes : List UInt8) (q : HmSerialPort δ) : Prop :=
  ∃ p, sendRequest w (Retry.before (transceiveMessage w f address function sendData rcvDataLen) m k)
      (f.assemble address function sendData) = (none, p) ∧
    receiveReply w f rcvDataLen m.timeOut p = (.ok bytes, q)

/- Data that is awaited was received in the last attempt, and judged to be right. -/
theorem deliverReceived {address function : UInt8} {sendData data : List UInt8} {rcvDataLen : Nat}
    {m : MbusSerialMasterProtocol δ} (awaited : ¬ (address = 0 ∨ rcvDataLen = 0))
    (ok : (deliverMessage w f address function sendData rcvDataLen m).1 = .ok data) :
    ∃ k ≤ m.retryCnt.toNat, ∃ bytes, Received w f address function sendData rcvDataLen m k bytes
        (deliverMessage w f address function sendData rcvDataLen m).2.serialPort ∧
      f.check address function rcvDataLen bytes = .ok data := by
  obtain ⟨k, within, talked, exchanged⟩ := deliverExchanged w f ok
  have waits : (Retry.before (transceiveMessage w f address function sendData rcvDataLen) m k).timeOut = m.timeOut := by
    rw [talked.1]
  generalize result : (.ok data : Except Int (List UInt8)) = said at exchanged
  cases exchanged with
  | unsent e p failed => cases result
  | unanswered p sent none => exact absurd none awaited
  | lost e p q sent _ failed => cases result
  | judged bytes p q sent _ received => exact ⟨k, within, bytes, ⟨p, sent, waits ▸ received⟩, rfl⟩

/-! How often an exchange is tried. -/

theorem beforeCounts (address function : UInt8) (sendData : List UInt8) (rcvDataLen k : Nat)
    (m : MbusSerialMasterProtocol δ)
    (failed : ∀ j < k, again (transceiveMessage w f address function sendData rcvDataLen
      (Retry.before (transceiveMessage w f address function sendData rcvDataLen) m j)).1 = true) :
    (Retry.before (transceiveMessage w f address function sendData rcvDataLen) m k).totalCounter =
        m.totalCounter + UInt32.ofNat k ∧
      (Retry.before (transceiveMessage w f address function sendData rcvDataLen) m k).successCounter =
        m.successCounter := by
  induction k generalizing m with
  | zero => exact ⟨(UInt32.add_zero _).symm, rfl⟩
  | succ k ih =>
    obtain ⟨p, _, made⟩ := transceiveExchanged w f address function sendData rcvDataLen m
    obtain ⟨total, success⟩ := ih (transceiveMessage w f address function sendData rcvDataLen m).2
      (fun j less => failed (j + 1) (Nat.succ_lt_succ less))
    have first := failed 0 (Nat.succ_pos k)
    rw [Retry.beforeZero] at first
    rw [Retry.beforeSucc, total, success, made]
    constructor
    · rw [counted, UInt32.ofNat_add, UInt32.add_assoc, UInt32.add_comm (UInt32.ofNat k)]
      rfl
    · cases result : (transceiveMessage w f address function sendData rcvDataLen m).1 with
      | error e => rfl
      | ok data =>
        rw [result] at first
        contradiction

/- A message that is delivered on an open port is tried at most retryCnt + 1 times. All
tries but the last end in one of the three results that are tried again, and the last one
gives the result; the counters tell the number of tries and whether it was a success. -/
theorem deliverCounts (address function : UInt8) (sendData : List UInt8) (rcvDataLen : Nat)
    (m : MbusSerialMasterProtocol δ) (opened : m.isOpen = true) :
    ∃ k, Retry.Stops (transceiveMessage w f address function sendData rcvDataLen) again m.retryCnt.toNat m k ∧
      deliverMessage w f address function sendData rcvDataLen m =
        transceiveMessage w f address function sendData rcvDataLen
          (Retry.before (transceiveMessage w f address function sendData rcvDataLen) m k) ∧
      (deliverMessage w f address function sendData rcvDataLen m).2.totalCounter =
        m.totalCounter + UInt32.ofNat (k + 1) ∧
      (deliverMessage w f address function sendData rcvDataLen m).2.successCounter =
        if (deliverMessage w f address function sendData rcvDataLen m).1.isOk then m.successCounter + 1
        else m.successCounter := by
  obtain ⟨k, stops, same⟩ := Retry.retryStops (transceiveMessage w f address function sendData rcvDataLen) again
    m.retryCnt.toNat m
  have delivered : deliverMessage w f address function sendData rcvDataLen m =
      transceiveMessage w f address function sendData rcvDataLen
        (Retry.before (transceiveMessage w f address function sendData rcvDataLen) m k) := by
    rw [← same, deliverMessage, if_pos opened]
  obtain ⟨total, success⟩ := beforeCounts w f address function sendData rcvDataLen k m stops.failed
  obtain ⟨p, _, made⟩ := transceiveExchanged w f address function sendData rcvDataLen
    (Retry.before (transceiveMessage w f address function sendData rcvDataLen) m k)
  refine ⟨k, stops, delivered, ?_, ?_⟩
  · rw [delivered, made, UInt32.ofNat_add, ← UInt32.add_assoc, ← total]
    rfl
  · rw [delivered, made, ← success]
    rfl

end MbusSerialMasterProtocol
end SerialModbus
