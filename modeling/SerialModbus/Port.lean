import SerialModbus.Text

/-! The serial port of the protocol library (hmserio.cpp for Win32), over the calls of
the operating system. A call with a handle that is not valid fails and does nothing. -/
namespace SerialModbus
open Text (QString)

inductive StopBits where
  | ONESTOPBIT
  | ONE5STOPBITS
  | TWOSTOPBITS
  deriving DecidableEq, Repr

inductive Parity where
  | NOPARITY
  | ODDPARITY
  | EVENPARITY
  | MARKPARITY
  | SPACEPARITY
  deriving DecidableEq, Repr

inductive RtsControl where
  | RTS_CONTROL_DISABLE
  | RTS_CONTROL_ENABLE
  | RTS_CONTROL_HANDSHAKE
  | RTS_CONTROL_TOGGLE
  deriving DecidableEq, Repr

inductive DtrControl where
  | DTR_CONTROL_DISABLE
  | DTR_CONTROL_ENABLE
  | DTR_CONTROL_HANDSHAKE
  deriving DecidableEq, Repr

/- The fields of a device control block that the library sets. -/
structure DCB where
  BaudRate : UInt32
  ByteSize : Nat
  StopBits : StopBits
  fParity : Bool
  Parity : Parity
  fOutX : Bool
  fInX : Bool
  fOutxCtsFlow : Bool
  fOutxDsrFlow : Bool
  fRtsControl : RtsControl
  fDtrControl : DtrControl
  fDsrSensitivity : Bool
  fBinary : Bool
  fErrorChar : Bool
  fNull : Bool
  fAbortOnError : Bool
  deriving DecidableEq, Repr

structure COMMTIMEOUTS where
  ReadTotalTimeoutConstant : Int
  WriteTotalTimeoutConstant : Int
  deriving DecidableEq, Repr

/- What GetLastError says after CreateFile. -/
inductive OpenError where
  | ERROR_FILE_NOT_FOUND
  | ERROR_ACCESS_DENIED
  | other
  deriving DecidableEq, Repr

/- The operating system with the line and what is connected to it. Reading and writing
include the wait for an overlapped operation; sleeping lets time pass. -/
structure Win32 (δ : Type) where
  CreateFile : QString → δ → Option OpenError × δ
  GetCommState : δ → Option DCB × δ
  SetCommState : DCB → δ → Bool × δ
  SetCommTimeouts : COMMTIMEOUTS → δ → Bool × δ
  WriteFile : List UInt8 → δ → (Bool × Nat) × δ
  ReadFile : Nat → δ → (Bool × List UInt8) × δ
  PurgeComm : δ → Bool × δ
  FlushFileBuffers : δ → Bool × δ
  EscapeCommFunction : Bool → δ → Bool × δ
  CloseHandle : δ → δ
  Sleep : Int → δ → δ
  readsWithin : ∀ len os, (ReadFile len os).1.2.length ≤ len

/- What is not set by the constructor holds any value at first. -/
structure HmSerialPort (δ : Type) where
  isOpen : Bool
  baudRate : Int
  flowControl : Int
  savedDevCtrlBlock : DCB
  os : δ

namespace HmSerialPort

inductive Ser where
  | SER_SUCCESS
  | SER_INVALID_PARAMETER
  | SER_API_ERROR
  | SER_PORT_NOT_FOUND
  | SER_ALREADY_OPEN
  | SER_NOT_OPEN
  | SER_TIME_OUT
  | SER_LINE_ERROR
  | SER_UNSUPPORTED_OPERATION
  | SER_PORT_NO_ACCESS
  deriving DecidableEq, Repr

def SER_DATABITS_7 : Int := 7
def SER_DATABITS_8 : Int := 8
def SER_STOPBITS_1 : Int := 1
def SER_STOPBITS_2 : Int := 2
def SER_PARITY_NONE : Int := 0
def SER_PARITY_ODD : Int := 1
def SER_PARITY_EVEN : Int := 2
def SER_HANDSHAKE_NONE : Int := 0
def SER_HANDSHAKE_RTS_CTS : Int := 1
def SER_HANDSHAKE_RTS_TOGGLE : Int := 2

variable {δ : Type} (w : Win32 δ)

/- The answer of a call that says whether it worked. -/
def after (p : HmSerialPort δ) (call : Bool × δ) : Ser × HmSerialPort δ :=
  (if call.1 then .SER_SUCCESS else .SER_API_ERROR, {p with os := call.2})

def flush (p : HmSerialPort δ) : Ser × HmSerialPort δ :=
  if p.isOpen then after p (w.PurgeComm p.os) else (.SER_NOT_OPEN, p)

def drain (p : HmSerialPort δ) : Ser × HmSerialPort δ :=
  if p.isOpen then
    if p.flowControl ≠ SER_HANDSHAKE_NONE then (.SER_UNSUPPORTED_OPERATION, p)
    else
      let set := w.SetCommTimeouts ⟨0, 0⟩ p.os
      if set.1 then after p (w.FlushFileBuffers set.2) else (.SER_API_ERROR, {p with os := set.2})
  else (.SER_NOT_OPEN, p)

def escapeRts (rts : Bool) (p : HmSerialPort δ) : Ser × HmSerialPort δ :=
  if p.isOpen then
    if p.flowControl ≠ SER_HANDSHAKE_NONE then (.SER_UNSUPPORTED_OPERATION, p)
    else after p (w.EscapeCommFunction rts p.os)
  else (.SER_NOT_OPEN, p)

def setRts (p : HmSerialPort δ) : Ser × HmSerialPort δ := escapeRts w true p
def clearRts (p : HmSerialPort δ) : Ser × HmSerialPort δ := escapeRts w false p

def send (bytes : List UInt8) (timeOut : Int) (p : HmSerialPort δ) : Ser × HmSerialPort δ :=
  if p.isOpen then
    let set := w.SetCommTimeouts ⟨0, timeOut⟩ p.os
    if set.1 then
      let written := w.WriteFile bytes set.2
      (if written.1.2 ≠ bytes.length then .SER_TIME_OUT
        else if written.1.1 then .SER_SUCCESS else .SER_API_ERROR, {p with os := written.2})
    else (.SER_API_ERROR, {p with os := set.2})
  else (.SER_NOT_OPEN, p)

/- A buffer that was not filled is not read by any caller. -/
def receive (len : Nat) (timeOut : Int) (p : HmSerialPort δ) : Except Ser (List UInt8) × HmSerialPort δ :=
  if p.isOpen then
    let set := w.SetCommTimeouts ⟨timeOut, 0⟩ p.os
    if set.1 then
      let read := w.ReadFile len set.2
      (if read.1.2.length ≠ len then .error .SER_TIME_OUT
        else if read.1.1 then .ok read.1.2 else .error .SER_API_ERROR, {p with os := read.2})
    else (.error .SER_API_ERROR, {p with os := set.2})
  else (.error .SER_NOT_OPEN, p)

/- The switches of config: none for a parameter that is not supported. -/
def modify (devCtrlBlock : DCB) (baudRate dataBits stopBits parity flowControl : Int) : Option DCB := do
  let size ←
    if dataBits = SER_DATABITS_7 then some 7 else if dataBits = SER_DATABITS_8 then some 8 else none
  let stops ←
    if stopBits = SER_STOPBITS_1 then some StopBits.ONESTOPBIT
    else if stopBits = SER_STOPBITS_2 then some StopBits.TWOSTOPBITS else none
  let (checked, kind) ←
    if parity = SER_PARITY_NONE then some (false, Parity.NOPARITY)
    else if parity = SER_PARITY_EVEN then some (true, Parity.EVENPARITY)
    else if parity = SER_PARITY_ODD then some (true, Parity.ODDPARITY) else none
  let (cts, rts) ←
    if flowControl = SER_HANDSHAKE_RTS_CTS then some (true, RtsControl.RTS_CONTROL_HANDSHAKE)
    else if flowControl = SER_HANDSHAKE_NONE then some (false, RtsControl.RTS_CONTROL_DISABLE)
    else if flowControl = SER_HANDSHAKE_RTS_TOGGLE then some (false, RtsControl.RTS_CONTROL_TOGGLE) else none
  some {devCtrlBlock with
    BaudRate := UInt32.ofInt baudRate
    ByteSize := size
    StopBits := stops
    fParity := checked
    Parity := kind
    fOutX := false
    fInX := false
    fOutxCtsFlow := cts
    fOutxDsrFlow := false
    fRtsControl := rts
    fDtrControl := .DTR_CONTROL_ENABLE
    fDsrSensitivity := false
    fBinary := true
    fErrorChar := false
    fNull := false
    fAbortOnError := false}

def config (baudRate dataBits stopBits parity flowControl : Int) (p : HmSerialPort δ) : Ser × HmSerialPort δ :=
  if p.isOpen then
    let got := w.GetCommState p.os
    match got.1 with
    | none => (.SER_API_ERROR, {p with os := got.2})
    | some devCtrlBlock =>
        match modify devCtrlBlock baudRate dataBits stopBits parity flowControl with
        | none => (.SER_INVALID_PARAMETER, {p with os := got.2})
        | some devCtrlBlock =>
            let set := w.SetCommState devCtrlBlock got.2
            if set.1 then
              (.SER_SUCCESS, {p with baudRate := baudRate, flowControl := flowControl, os := set.2})
            else (.SER_INVALID_PARAMETER, {p with os := set.2})
  else (.SER_NOT_OPEN, p)

def closePort (p : HmSerialPort δ) : HmSerialPort δ :=
  if p.isOpen then
    let p := (flush w p).2
    let set := w.SetCommState p.savedDevCtrlBlock p.os
    {p with isOpen := false, os := w.CloseHandle set.2}
  else p

/- The name of the device goes with CreateFile, made from portName there. -/
def openPort (portName : QString) (p : HmSerialPort δ) : Ser × HmSerialPort δ :=
  let p := if p.isOpen then closePort w p else p
  let created := w.CreateFile portName p.os
  match created.1 with
  | some .ERROR_FILE_NOT_FOUND => (.SER_PORT_NOT_FOUND, {p with os := created.2})
  | some .ERROR_ACCESS_DENIED => (.SER_ALREADY_OPEN, {p with os := created.2})
  | some .other => (.SER_API_ERROR, {p with os := created.2})
  | none =>
      let got := w.GetCommState created.2
      match got.1 with
      | none => (.SER_API_ERROR, {p with isOpen := true, os := got.2})
      | some saved =>
          let p := (flush w {p with isOpen := true, savedDevCtrlBlock := saved, os := got.2}).2
          config w 9600 SER_DATABITS_8 SER_STOPBITS_1 SER_PARITY_NONE SER_HANDSHAKE_NONE p

/-! A call on the port touches the system and nothing else. -/

def Touches (p q : HmSerialPort δ) : Prop := q = {p with os := q.os}

theorem touchesSelf (p : HmSerialPort δ) : Touches p p := rfl

theorem touchesTrans {p q r : HmSerialPort δ} (first : Touches p q) (second : Touches q r) : Touches p r := by
  unfold Touches at *
  rw [second, first]

theorem flushTouches (p : HmSerialPort δ) : Touches p (flush w p).2 := by
  unfold flush
  split <;> rfl

theorem drainTouches (p : HmSerialPort δ) : Touches p (drain w p).2 := by
  unfold drain
  split
  · split
    · rfl
    · dsimp only
      split <;> rfl
  · rfl

theorem escapeTouches (rts : Bool) (p : HmSerialPort δ) : Touches p (escapeRts w rts p).2 := by
  unfold escapeRts
  split
  · split <;> rfl
  · rfl

theorem sendTouches (bytes : List UInt8) (timeOut : Int) (p : HmSerialPort δ) :
    Touches p (send w bytes timeOut p).2 := by
  unfold send
  split
  · dsimp only
    split <;> rfl
  · rfl

theorem receiveTouches (len : Nat) (timeOut : Int) (p : HmSerialPort δ) :
    Touches p (receive w len timeOut p).2 := by
  unfold receive
  split
  · dsimp only
    split <;> rfl
  · rfl

/- What is received has the length that was asked for. -/
theorem receiveLength {len : Nat} {timeOut : Int} {p : HmSerialPort δ} {bytes : List UInt8}
    (ok : (receive w len timeOut p).1 = .ok bytes) : bytes.length = len := by
  unfold receive at ok
  split at ok <;> try contradiction
  dsimp only at ok
  split at ok <;> try contradiction
  dsimp only at ok
  split at ok <;> try contradiction
  split at ok <;> try contradiction
  rename_i same _
  cases ok
  exact not_not.mp same

end HmSerialPort
end SerialModbus
