import Mathlib.Logic.Function.Basic
import SerialModbus.Ascii
import SerialModbus.Slave

/-! Slaves on a line that may lose or damage what is sent over it. The calls of the
operating system work, and everything written is at the slaves at once. -/
namespace SerialModbus
open SerialModbus.Frame

/- What happens to one request and its answer: nothing is sent, no slave hears it, the
answer is lost, one of its characters is another one, or its end is cut off. -/
inductive Fault where
  | none
  | blocked
  | unheard
  | unanswered
  | damaged (i : Nat) (x : UInt8)
  | cut (n : Nat)
  deriving DecidableEq, Repr

def Fault.distort : Fault → List UInt8 → List UInt8
  | .none, chars => chars
  | .damaged i x, chars => chars.set i x
  | .cut n, chars => chars.take n
  | _, _ => []

structure Line where
  slaves : UInt8 → Option Slave
  faults : Nat → Fault
  sent : Nat
  received : List UInt8
  control : DCB

namespace Line

/- The memories after a message: one slave serves it, or all do when it is a broadcast. -/
def served (slaves : UInt8 → Option Slave) (m : Frame) : UInt8 → Option Slave :=
  if m.address = 0 then fun a => (slaves a).map (fun s => (s.answer m.function m.data).1)
  else Function.update slaves m.address ((slaves m.address).map (fun s => (s.answer m.function m.data).1))

/- The text of the answer, when a slave has the address. -/
def reply (slaves : UInt8 → Option Slave) (m : Frame) : List UInt8 :=
  if m.address = 0 then []
  else
    match slaves m.address with
    | none => []
    | some s =>
        text ⟨m.address, (s.answer m.function m.data).2.1, (s.answer m.function m.data).2.2⟩ ++ lineEnd

def write (bytes : List UInt8) (l : Line) : (Bool × Nat) × Line :=
  let fault := l.faults l.sent
  let l := {l with sent := l.sent + 1}
  if fault = .blocked then ((true, 0), l)
  else
    match Frame.read bytes with
    | none => ((true, bytes.length), l)
    | some m =>
        if fault = .unheard then ((true, bytes.length), l)
        else
          ((true, bytes.length),
            {l with slaves := served l.slaves m, received := l.received ++ fault.distort (reply l.slaves m)})

def win32 : Win32 Line where
  CreateFile := fun _ l => (none, l)
  GetCommState := fun l => (some l.control, l)
  SetCommState := fun control l => (true, {l with control := control})
  SetCommTimeouts := fun _ l => (true, l)
  WriteFile := write
  ReadFile := fun n l => ((true, l.received.take n), {l with received := l.received.drop n})
  PurgeComm := fun l => (true, {l with received := []})
  FlushFileBuffers := fun l => (true, l)
  EscapeCommFunction := fun _ l => (true, l)
  CloseHandle := fun l => l
  Sleep := fun _ l => l
  readsWithin := fun n _ => by
    rw [List.length_take]
    exact Nat.min_le_left n _

end Line

/- A master with one slave, which has the address 7. -/
def bench (slave : Slave) (faults : Nat → Fault) : MbusSerialMasterProtocol Line :=
  MbusSerialMasterProtocol.sample
    ⟨Function.update (fun _ => none) 7 (some slave), faults, 0, [], MbusSerialMasterProtocol.settings⟩

/- The first answer is lost, and a digit of the second one is damaged. -/
def lossy (i : Nat) : Fault := if i = 0 then .unanswered else if i = 1 then .damaged 9 70 else .none

/-! An exchange over the line. -/

namespace Exchange
open MbusSerialMasterProtocol HmSerialPort
open MbusAsciiMasterProtocol (ascii)

/- The ASCII protocol on the line. -/
def transceive (address function : UInt8) (sendData : List UInt8) (rcvDataLen : Nat) :=
  transceiveMessage Line.win32 ascii address function sendData rcvDataLen

def deliver (address function : UInt8) (sendData : List UInt8) (rcvDataLen : Nat) :=
  deliverMessage Line.win32 ascii address function sendData rcvDataLen

/- What is read of the characters that have come in. -/
def heard (n : Nat) (received : List UInt8) : Except Int (List UInt8) :=
  if received.length < 11 then .error FTALK_REPLY_TIMEOUT_ERROR
  else if MbusAsciiMasterProtocol.normal (received.take 11) = true ∧ 11 < 2 * n + 9 then
    if received.length < 2 * n + 9 then .error FTALK_REPLY_TIMEOUT_ERROR else .ok (received.take (2 * n + 9))
  else .ok (received.take 11)

theorem lineReceive {p : HmSerialPort Line} (opened : p.isOpen = true) (n : Nat) (timeOut : Int) :
    receive Line.win32 n timeOut p =
      (if p.os.received.length < n then .error .SER_TIME_OUT else .ok (p.os.received.take n),
        {p with os := {p.os with received := p.os.received.drop n}}) := by
  have short : (p.os.received.take n).length ≠ n ↔ p.os.received.length < n := by
    rw [List.length_take]
    omega
  simp only [receive, opened, if_true, Line.win32, short]

/- Reading takes characters from the line and does nothing else. -/
def Drained (p q : HmSerialPort Line) : Prop := q = {p with os := {p.os with received := q.os.received}}

theorem lineReceiveReply {p : HmSerialPort Line} (opened : p.isOpen = true) (n : Nat) (timeOut : Int) :
    (receiveReply Line.win32 ascii n timeOut p).1 = heard n p.os.received ∧
      Drained p (receiveReply Line.win32 ascii n timeOut p).2 := by
  have size : ascii.bytesExpected n = 2 * n + 9 := Nat.mul_comm n 2 ▸ rfl
  have first : ascii.EXC_MSG_LEN = 11 := rfl
  have marked : ascii.normal = MbusAsciiMasterProtocol.normal := rfl
  unfold receiveReply heard
  rw [lineReceive opened, first, size, marked]
  by_cases few : p.os.received.length < 11
  · simp only [if_pos few, receiveError]
    exact ⟨trivial, rfl⟩
  · simp only [if_neg few]
    by_cases goes : MbusAsciiMasterProtocol.normal (p.os.received.take 11) = true ∧ 11 < 2 * n + 9
    · have more := @lineReceive {p with os := {p.os with received := p.os.received.drop 11}} opened
        (2 * n + 9 - 11) timeOut
      have count : (p.os.received.drop 11).length < 2 * n + 9 - 11 ↔ p.os.received.length < 2 * n + 9 := by
        rw [List.length_drop]
        omega
      rw [if_pos goes, if_pos goes, more]
      by_cases less : p.os.received.length < 2 * n + 9
      · simp only [if_pos (count.mpr less), if_pos less, receiveError]
        exact ⟨trivial, rfl⟩
      · simp only [if_neg (mt count.mp less), if_neg less, ← List.take_add,
          show 11 + (2 * n + 9 - 11) = 2 * n + 9 by omega]
        exact ⟨trivial, rfl⟩
    · rw [if_neg goes, if_neg goes]
      exact ⟨rfl, rfl⟩

theorem lineEscape (rts : Bool) (p : HmSerialPort Line) : (escapeRts Line.win32 rts p).2 = p := by
  unfold escapeRts
  split
  · split <;> rfl
  · rfl

theorem lineDrain (p : HmSerialPort Line) : (drain Line.win32 p).2 = p := by
  unfold drain
  split
  · split <;> rfl
  · rfl

theorem writeWorks (request : List UInt8) (l : Line) : (Line.write request l).1.1 = true := by
  unfold Line.write
  dsimp only
  split
  · rfl
  · split
    · rfl
    · split <;> rfl

/- The line before a request is clear. -/
def cleared (m : MbusSerialMasterProtocol Line) : Line := {m.serialPort.os with received := []}

theorem lineSend {m : MbusSerialMasterProtocol Line} (opened : m.isOpen = true) (request : List UInt8) :
    sendRequest Line.win32 m request =
      (if (Line.write request (cleared m)).1.2 = request.length then none else some FTALK_SEND_TIMEOUT_ERROR,
        {m.serialPort with os := (Line.write request (cleared m)).2}) := by
  have isOpen : m.serialPort.isOpen = true := opened
  have flushed : clearBuffers Line.win32 m = {m.serialPort with os := cleared m} := by
    unfold clearBuffers flush after
    rw [if_pos isOpen]
    dsimp only
    split <;> rfl
  have sent : send Line.win32 request m.timeOut {m.serialPort with os := cleared m} =
      (if (Line.write request (cleared m)).1.2 = request.length then .SER_SUCCESS else .SER_TIME_OUT,
        {m.serialPort with os := (Line.write request (cleared m)).2}) := by
    simp only [send, isOpen, if_true, Line.win32, writeWorks, ne_eq, ite_not]
  have raised : (if m.serialMode = .SER_RS485 then (setRts Line.win32 {m.serialPort with os := cleared m}).2
      else {m.serialPort with os := cleared m}) = {m.serialPort with os := cleared m} := by
    split
    · exact lineEscape true _
    · rfl
  have lowered : ∀ p, (if m.serialMode = .SER_RS485 then (clearRts Line.win32 (sleep Line.win32 m.rtsDelay p)).2
      else p) = p := by
    intro p
    split
    · exact lineEscape false _
    · rfl
  unfold sendRequest transmit
  rw [flushed]
  simp only [raised, sent, lineDrain, lowered]
  split <;> rfl

/- What has come in when the answer is awaited. -/
def incoming (fault : Fault) (slaves : UInt8 → Option Slave) (q : Frame) : List UInt8 :=
  fault.distort (Line.reply slaves q)

/- The result of one exchange, by what happens to it. -/
def outcome (fault : Fault) (slaves : UInt8 → Option Slave) (q : Frame) (n : Nat) : Except Int (List UInt8) :=
  if fault = .blocked then .error FTALK_SEND_TIMEOUT_ERROR
  else if q.address = 0 ∨ n = 0 then .ok []
  else
    match heard n (incoming fault slaves q) with
    | .error e => .error e
    | .ok bytes => MbusAsciiMasterProtocol.check q.address q.function n bytes

/- Whether the slaves hear the request. -/
def Heard (fault : Fault) : Prop := fault ≠ .blocked ∧ fault ≠ .unheard
instance (fault : Fault) : Decidable (Heard fault) := by unfold Heard; infer_instance

def heardBy (fault : Fault) (slaves : UInt8 → Option Slave) (q : Frame) : UInt8 → Option Slave :=
  if Heard fault then Line.served slaves q else slaves

/- The line behind the port once a request is out. -/
def gone (l : Line) (q : Frame) : Line :=
  {l with
    sent := l.sent + 1
    slaves := heardBy (l.faults l.sent) l.slaves q
    received := incoming (l.faults l.sent) l.slaves q}

theorem writeText (q : Frame) {l : Line} (clear : l.received = []) :
    (Line.write (text q ++ lineEnd) l).1.2 = (if l.faults l.sent = .blocked then 0 else (text q ++ lineEnd).length) ∧
      (Line.write (text q ++ lineEnd) l).2 = gone l q := by
  obtain ⟨slaves, faults, sent, received, control⟩ := l
  cases clear
  simp only [Line.write, readText, gone, heardBy, incoming]
  by_cases blocked : faults sent = .blocked
  · have deaf : ¬ Heard (faults sent) := fun heard => heard.1 blocked
    rw [if_pos blocked, if_pos blocked, if_neg deaf, blocked]
    exact ⟨rfl, rfl⟩
  · by_cases unheard : faults sent = .unheard
    · have deaf : ¬ Heard (faults sent) := fun heard => heard.2 unheard
      rw [if_neg blocked, if_pos unheard, if_neg blocked, if_neg deaf, unheard]
      exact ⟨rfl, rfl⟩
    · have heard : Heard (faults sent) := ⟨blocked, unheard⟩
      rw [if_neg blocked, if_neg unheard, if_neg blocked, if_pos heard]
      exact ⟨rfl, rfl⟩

theorem lineRequest {m : MbusSerialMasterProtocol Line} (opened : m.isOpen = true) (q : Frame) :
    sendRequest Line.win32 m (ascii.assemble q.address q.function q.data) =
      (if m.serialPort.os.faults m.serialPort.os.sent = .blocked then some FTALK_SEND_TIMEOUT_ERROR else none,
        {m.serialPort with os := gone m.serialPort.os q}) := by
  have clear : (cleared m).received = [] := rfl
  obtain ⟨count, line⟩ := writeText q clear
  have written : ascii.assemble q.address q.function q.data = text q ++ lineEnd :=
    MbusAsciiMasterProtocol.assembleText q.address q.function q.data
  have whole : ((if (cleared m).faults (cleared m).sent = .blocked then 0 else (text q ++ lineEnd).length) =
      (text q ++ lineEnd).length) ↔ ¬ m.serialPort.os.faults m.serialPort.os.sent = .blocked := by
    have some : 0 ≠ (text q ++ lineEnd).length := by simp [lineEnd]
    show (if m.serialPort.os.faults m.serialPort.os.sent = .blocked then 0 else _) = _ ↔ _
    split
    · rename_i blocked
      exact ⟨fun same => absurd same some, fun free => absurd blocked free⟩
    · rename_i free
      exact ⟨fun _ => free, fun _ => rfl⟩
  rw [written, lineSend opened, count, line, if_congr whole rfl rfl, ite_not]
  rfl

/- One exchange uses up one fault of the line. -/
structure Went (l : Line) (q : Frame) (k : Line) : Prop where
  slaves : k.slaves = heardBy (l.faults l.sent) l.slaves q
  faults : k.faults = l.faults
  sent : k.sent = l.sent + 1

theorem wentDrained {l : Line} {q : Frame} {p r : HmSerialPort Line} (went : p.os = gone l q) (drained : Drained p r) :
    Went l q r.os := by
  rw [drained, went]
  exact ⟨rfl, rfl, rfl⟩

theorem transceiveLine {m : MbusSerialMasterProtocol Line} (opened : m.isOpen = true) (q : Frame) (n : Nat) :
    (transceive q.address q.function q.data n m).1 =
        outcome (m.serialPort.os.faults m.serialPort.os.sent) m.serialPort.os.slaves q n ∧
      Went m.serialPort.os q (transceive q.address q.function q.data n m).2.serialPort.os := by
  have request := lineRequest (m := {m with totalCounter := m.totalCounter + 1}) opened q
  unfold transceive transceiveMessage outcome
  dsimp only
  rw [request]
  by_cases blocked : m.serialPort.os.faults m.serialPort.os.sent = .blocked
  · simp only [if_pos blocked]
    exact ⟨trivial, ⟨rfl, rfl, rfl⟩⟩
  · simp only [if_neg blocked]
    by_cases none : q.address = 0 ∨ n = 0
    · simp only [if_pos none]
      exact ⟨trivial, ⟨rfl, rfl, rfl⟩⟩
    · simp only [if_neg none]
      have open' : ({m.serialPort with os := gone m.serialPort.os q} : HmSerialPort Line).isOpen = true := opened
      obtain ⟨said, drained⟩ := lineReceiveReply open' n m.timeOut
      have went := wentDrained (l := m.serialPort.os) (q := q) rfl drained
      rw [show (gone m.serialPort.os q).received =
        incoming (m.serialPort.os.faults m.serialPort.os.sent) m.serialPort.os.slaves q from rfl] at said
      generalize receiveReply Line.win32 ascii n m.timeOut
        {m.serialPort with os := gone m.serialPort.os q} = received at said went
      obtain ⟨bytes, p⟩ := received
      dsimp only at said went
      subst said
      cases heard n (incoming (m.serialPort.os.faults m.serialPort.os.sent) m.serialPort.os.slaves q) with
      | error e => exact ⟨rfl, went⟩
      | ok bytes =>
        have judge : ascii.check = MbusAsciiMasterProtocol.check := rfl
        dsimp only
        rw [judge]
        cases MbusAsciiMasterProtocol.check q.address q.function n bytes with
        | error e => exact ⟨rfl, went⟩
        | ok data => exact ⟨rfl, went⟩

end Exchange
end SerialModbus
