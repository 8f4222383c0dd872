import SerialModbus.Line

/-! Opening and closing the port of a line. -/
namespace SerialModbus.Exchange
open MbusSerialMasterProtocol HmSerialPort

/- What is connected to the line is as before. -/
def Kept (l k : Line) : Prop := k.slaves = l.slaves ∧ k.faults = l.faults ∧ k.sent = l.sent

theorem keptTrans {l k j : Line} (first : Kept l k) (second : Kept k j) : Kept l j :=
  ⟨second.1.trans first.1, second.2.1.trans first.2.1, second.2.2.trans first.2.2⟩

theorem lineFlush (p : HmSerialPort Line) :
    (flush Line.win32 p).2.isOpen = p.isOpen ∧ Kept p.os (flush Line.win32 p).2.os := by
  unfold flush
  split <;> exact ⟨rfl, rfl, rfl, rfl⟩

theorem lineConfig {p : HmSerialPort Line} (opened : p.isOpen = true) (baudRate dataBits stopBits parity flow : Int) :
    ((config Line.win32 baudRate dataBits stopBits parity flow p).1 = .SER_SUCCESS ↔
        (modify p.os.control baudRate dataBits stopBits parity flow).isSome) ∧
      (config Line.win32 baudRate dataBits stopBits parity flow p).2.isOpen = true ∧
      Kept p.os (config Line.win32 baudRate dataBits stopBits parity flow p).2.os := by
  unfold config
  rw [if_pos opened]
  simp only [Line.win32]
  cases modify p.os.control baudRate dataBits stopBits parity flow with
  | none => exact ⟨by simp, opened, rfl, rfl, rfl⟩
  | some control => exact ⟨by simp, opened, rfl, rfl, rfl⟩

theorem lineOpenPort (portName : Text.QString) {p : HmSerialPort Line} (closed : p.isOpen = false) :
    (openPort Line.win32 portName p).1 = .SER_SUCCESS ∧ (openPort Line.win32 portName p).2.isOpen = true ∧
      Kept p.os (openPort Line.win32 portName p).2.os := by
  obtain ⟨flushed, kept⟩ := lineFlush
    {p with isOpen := true, savedDevCtrlBlock := p.os.control}
  obtain ⟨success, opened, after⟩ := lineConfig flushed 9600 SER_DATABITS_8 SER_STOPBITS_1 SER_PARITY_NONE
    SER_HANDSHAKE_NONE
  have shape : openPort Line.win32 portName p =
      config Line.win32 9600 SER_DATABITS_8 SER_STOPBITS_1 SER_PARITY_NONE SER_HANDSHAKE_NONE
        (flush Line.win32 {p with isOpen := true, savedDevCtrlBlock := p.os.control}).2 := by
    unfold openPort
    rw [closed]
    rfl
  rw [shape]
  exact ⟨success.mpr rfl, opened, keptTrans kept after⟩

theorem lineClose (p : HmSerialPort Line) :
    (closePort Line.win32 p).isOpen = false ∧ Kept p.os (closePort Line.win32 p).os := by
  obtain ⟨_, kept⟩ := lineFlush p
  unfold closePort
  split
  · exact ⟨rfl, kept⟩
  · rename_i closed
    exact ⟨Bool.eq_false_of_not_eq_true closed, rfl, rfl, rfl⟩

/- The settings that the port accepts. -/
def Supported (dataBits stopBits parity : Int) : Prop :=
  (dataBits = SER_DATABITS_7 ∨ dataBits = SER_DATABITS_8) ∧ (stopBits = SER_STOPBITS_1 ∨ stopBits = SER_STOPBITS_2) ∧
    (parity = SER_PARITY_NONE ∨ parity = SER_PARITY_EVEN ∨ parity = SER_PARITY_ODD)
instance (dataBits stopBits parity : Int) : Decidable (Supported dataBits stopBits parity) := by
  unfold Supported; infer_instance

theorem modifySupported (control : DCB) (baudRate dataBits stopBits parity : Int) :
    (HmSerialPort.modify control baudRate dataBits stopBits parity SER_HANDSHAKE_NONE).isSome ↔
      Supported dataBits stopBits parity := by
  unfold HmSerialPort.modify Supported
  by_cases bits : dataBits = SER_DATABITS_7 ∨ dataBits = SER_DATABITS_8
  · by_cases stops : stopBits = SER_STOPBITS_1 ∨ stopBits = SER_STOPBITS_2
    · by_cases kinds : parity = SER_PARITY_NONE ∨ parity = SER_PARITY_EVEN ∨ parity = SER_PARITY_ODD
      · refine iff_of_true ?_ ⟨bits, stops, kinds⟩
        rcases bits with rfl | rfl <;> rcases stops with rfl | rfl <;> rcases kinds with rfl | rfl | rfl <;> rfl
      · obtain ⟨none, even, odd⟩ := not_or.mp kinds |>.imp_right not_or.mp
        refine iff_of_false ?_ (fun all => kinds all.2.2)
        rcases bits with rfl | rfl <;> rcases stops with rfl | rfl <;> simp [none, even, odd]
    · obtain ⟨one, two⟩ := not_or.mp stops
      refine iff_of_false ?_ (fun all => stops all.2.1)
      rcases bits with rfl | rfl <;> simp [one, two]
  · obtain ⟨seven, eight⟩ := not_or.mp bits
    exact iff_of_false (by simp [seven, eight]) (fun all => bits all.1)

/- A port that refuses its settings stays open all the same. -/
theorem lineOpen {m : MbusSerialMasterProtocol Line} (closed : m.isOpen = false) (portName : Text.QString)
    (baudRate dataBits stopBits parity : Int) :
    ((openProtocol Line.win32 portName baudRate dataBits stopBits parity m).1 = FTALK_SUCCESS ↔
        Supported dataBits stopBits parity) ∧
      ((openProtocol Line.win32 portName baudRate dataBits stopBits parity m).2.isOpen = true ↔
        dataBits = SER_DATABITS_7 ∨ dataBits = SER_DATABITS_8) ∧
      Kept m.serialPort.os (openProtocol Line.win32 portName baudRate dataBits stopBits parity m).2.serialPort.os := by
  unfold openProtocol
  rw [if_neg (by rw [closed]; decide)]
  by_cases bits : dataBits ≠ SER_DATABITS_7 ∧ dataBits ≠ SER_DATABITS_8
  · rw [if_pos bits]
    have other : ¬ (dataBits = SER_DATABITS_7 ∨ dataBits = SER_DATABITS_8) := not_or.mpr bits
    refine ⟨⟨fun success => absurd success illegalArgument, fun supported => absurd supported.1 other⟩, ?_, rfl, rfl, rfl⟩
    exact ⟨fun opened => absurd opened (by rw [closed]; decide), fun right => absurd right other⟩
  · rw [if_neg bits]
    have right : dataBits = SER_DATABITS_7 ∨ dataBits = SER_DATABITS_8 := by
      rw [← not_not (a := dataBits = SER_DATABITS_7 ∨ _), not_or]
      exact bits
    obtain ⟨opening, opened, before⟩ := @lineOpenPort portName m.serialPort closed
    obtain ⟨success, still, after⟩ := lineConfig opened baudRate dataBits stopBits parity SER_HANDSHAKE_NONE
    rw [modifySupported] at success
    dsimp only
    rw [opening]
    dsimp only [openError]
    by_cases set : (config Line.win32 baudRate dataBits stopBits parity SER_HANDSHAKE_NONE
        (openPort Line.win32 portName m.serialPort).2).1 ≠ .SER_SUCCESS
    · rw [if_pos set]
      refine ⟨⟨fun done => absurd done illegalArgument, fun supported => absurd (success.mpr supported) set⟩, ?_,
        keptTrans before after⟩
      exact ⟨fun _ => right, fun _ => still⟩
    · rw [if_neg set]
      have quiet : (if m.serialMode = .SER_RS485 then
          clearRts Line.win32 (config Line.win32 baudRate dataBits stopBits parity SER_HANDSHAKE_NONE
            (openPort Line.win32 portName m.serialPort).2).2
          else setRts Line.win32 (config Line.win32 baudRate dataBits stopBits parity SER_HANDSHAKE_NONE
            (openPort Line.win32 portName m.serialPort).2).2).2 =
          (config Line.win32 baudRate dataBits stopBits parity SER_HANDSHAKE_NONE
            (openPort Line.win32 portName m.serialPort).2).2 := by
        split
        · exact lineEscape false _
        · exact lineEscape true _
      rw [quiet]
      refine ⟨⟨fun _ => success.mp (not_not.mp set), fun _ => rfl⟩, ?_, keptTrans before after⟩
      exact ⟨fun _ => right, fun _ => still⟩

end SerialModbus.Exchange
