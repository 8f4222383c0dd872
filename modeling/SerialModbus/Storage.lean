import SerialModbus.Access

/-! The data functions of the library that write, on the line: what is written the slave
keeps from then on. -/
namespace SerialModbus.Exchange
open MbusSerialMasterProtocol MbusMasterFunctions
open MbusAsciiMasterProtocol (ascii)

section Writing
variable {m : MbusSerialMasterProtocol Line} {slaveAddr startRef : Int} {ref : Nat}

/- Where the cells of one kind are kept. -/
structure Place (α : Type) where
  get : Slave → List α
  put : Slave → List α → Slave
  putGet : ∀ s cells, get (put s cells) = cells

def coils : Place Bool := ⟨Slave.coils, fun s cells => {s with coils := cells}, fun _ _ => rfl⟩
def registers : Place (BitVec 16) := ⟨Slave.registers, fun s cells => {s with registers := cells}, fun _ _ => rfl⟩

section Places
variable {α : Type} {place : Place α} {values : List α}

/- The memories with values written at a reference, when there are that many cells. -/
def stored (place : Place α) (m : MbusSerialMasterProtocol Line) (slaveAddr startRef : Int) (values : List α) :
    Option (UInt8 → Option Slave) := do
  let ref ← wireRef m slaveAddr startRef
  let s ← memory m (UInt8.ofInt slaveAddr)
  if ref + values.length ≤ (place.get s).length then
    some (Function.update (memory m) (UInt8.ofInt slaveAddr)
      (some (place.put s (overwrite (place.get s) ref values))))
  else none

theorem storedCells {slaves : UInt8 → Option Slave}
    (stores : stored place m slaveAddr startRef values = some slaves) :
    ∃ ref s, wireRef m slaveAddr startRef = some ref ∧ memory m (UInt8.ofInt slaveAddr) = some s ∧
      ref + values.length ≤ (place.get s).length ∧
      slaves = Function.update (memory m) (UInt8.ofInt slaveAddr)
        (some (place.put s (overwrite (place.get s) ref values))) := by
  obtain ⟨ref, wire, rest⟩ := Option.bind_eq_some_iff.mp stores
  obtain ⟨s, there, rest⟩ := Option.bind_eq_some_iff.mp rest
  split at rest <;> try contradiction
  rename_i fits
  exact ⟨ref, s, wire, there, fits, (Option.some.inj rest).symm⟩

/- What the last part of a function that writes compares. -/
def comparing (differs : MbusSerialMasterProtocol Line → Prop) [DecidablePred differs]
    (now : Int × MbusSerialMasterProtocol Line) : Int × MbusSerialMasterProtocol Line :=
  if now.1 ≠ FTALK_SUCCESS then (now.1, now.2)
  else if differs now.2 then (FTALK_INVALID_REPLY_ERROR, now.2)
  else (FTALK_SUCCESS, now.2)

/- What writing a range needs of a function: a slave that has the cells overwrites them
and gives four bytes. -/
structure Writes (place : Place α) (m : MbusSerialMasterProtocol Line) (slaveAddr startRef : Int) (ref : Nat)
    (function : UInt8) (request : List UInt8) (values : List α) (reply : List UInt8) : Prop where
  asked : Asked (asking slaveAddr function request) 4
  wire : wireRef m slaveAddr startRef = some ref
  performed : ∀ s : Slave, s.answer function request =
    if ref + values.length ≤ (place.get s).length then
      (place.put s (overwrite (place.get s) ref values), function, reply)
    else s.exception function 2

variable {function : UInt8} {request reply : List UInt8}

theorem writesTruth (writes : Writes place m slaveAddr startRef ref function request values reply)
    {data : List UInt8} (told : truth (memory m) (asking slaveAddr function request) = .ok data) :
    data = reply ∧ stored place m slaveAddr startRef values =
      some (Line.served (memory m) (asking slaveAddr function request)) := by
  obtain ⟨s, there, answer⟩ := (truthOrder rfl).mp told
  replace answer : (s.answer function request).2 = (function, data) := answer
  replace there : memory m (UInt8.ofInt slaveAddr) = some s := there
  rw [writes.performed] at answer
  obtain ⟨fits, same⟩ := rangeAnswer writes.asked.positive answer
  refine ⟨same, ?_⟩
  have served : Line.served (memory m) (asking slaveAddr function request) =
      Function.update (memory m) (UInt8.ofInt slaveAddr) (some (s.answer function request).1) := by
    rw [servedOne _ writes.asked.single]
    show Function.update (memory m) (UInt8.ofInt slaveAddr) ((memory m (UInt8.ofInt slaveAddr)).map _) = _
    rw [there]
    rfl
  unfold stored
  rw [writes.wire, there, served, writes.performed, if_pos fits]
  exact if_pos fits

theorem storedTruth (writes : Writes place m slaveAddr startRef ref function request values reply)
    {slaves : UInt8 → Option Slave} (stores : stored place m slaveAddr startRef values = some slaves) :
    truth (memory m) (asking slaveAddr function request) = .ok reply := by
  obtain ⟨ref', s, wire, there, fits, _⟩ := storedCells stores
  cases Option.some.inj (writes.wire.symm.trans wire)
  refine (truthOrder rfl).mpr ⟨s, there, ?_⟩
  show (s.answer function request).2 = _
  rw [writes.performed, if_pos fits]
  rfl

theorem writesServed (writes : Writes place m slaveAddr startRef ref function request values reply) :
    Line.served (memory m) (asking slaveAddr function request) = memory m ∨
      stored place m slaveAddr startRef values = some (Line.served (memory m) (asking slaveAddr function request)) := by
  cases told : truth (memory m) (asking slaveAddr function request) with
  | ok data => exact Or.inr (writesTruth writes told).2
  | error e =>
    refine Or.inl ?_
    cases there : memory m (asking slaveAddr function request).address with
    | none =>
      rw [servedOne _ writes.asked.single, there, Option.map_none, ← there]
      exact Function.update_eq_self _ _
    | some s => exact truthRefused writes.asked there (fun data ok => by rw [told] at ok; cases ok)

/- Whatever happens on the line, everything is written or nothing is, and a success has
written it. -/
theorem writeSafe (writes : Writes place m slaveAddr startRef ref function request values reply)
    (differs : MbusSerialMasterProtocol Line → Prop) [DecidablePred differs] :
    (memory (comparing differs (exchange Line.win32 ascii slaveAddr function request 4 m)).2 = memory m ∨
      stored place m slaveAddr startRef values =
        some (memory (comparing differs (exchange Line.win32 ascii slaveAddr function request 4 m)).2)) ∧
    ((comparing differs (exchange Line.win32 ascii slaveAddr function request 4 m)).1 = FTALK_SUCCESS →
      stored place m slaveAddr startRef values =
        some (memory (comparing differs (exchange Line.win32 ascii slaveAddr function request 4 m)).2)) := by
  obtain ⟨either, gave⟩ := exchangeSafe (m := m) writes.asked
  generalize exchange Line.win32 ascii slaveAddr function request 4 m = now at either gave
  have state : ∀ differs [DecidablePred differs], (comparing differs now).2 = now.2 := by
    intro differs _
    unfold comparing
    split
    · rfl
    · split <;> rfl
  rw [state]
  constructor
  · rcases either with same | served
    · exact Or.inl same
    · rw [served]
      exact writesServed writes
  · intro success
    have done : now.1 = FTALK_SUCCESS := by
      by_contra failed
      unfold comparing at success
      rw [if_pos failed] at success
      exact failed success
    obtain ⟨data, got⟩ := gave done
    rw [got.served]
    exact (writesTruth writes got.told).2

theorem writeLive (writes : Writes place m slaveAddr startRef ref function request values reply)
    (differs : MbusSerialMasterProtocol Line → Prop) [DecidablePred differs] {slaves : UInt8 → Option Slave} {k : Nat}
    (stores : stored place m slaveAddr startRef values = some slaves) (passes : Passes m k) :
    memory (comparing differs (exchange Line.win32 ascii slaveAddr function request 4 m)).2 = slaves ∧
      ∃ now, Got m (asking slaveAddr function request) reply now ∧
        (comparing differs (exchange Line.win32 ascii slaveAddr function request 4 m)).1 =
          if differs now.2 then FTALK_INVALID_REPLY_ERROR else FTALK_SUCCESS := by
  obtain ⟨_, s, _, there, _, _⟩ := storedCells stores
  have told := storedTruth writes stores
  have got := exchangeLive writes.asked there passes told
  have served := (writesTruth writes told).2
  rw [stores] at served
  unfold comparing
  rw [if_neg (not_not.mpr got.success)]
  split
  · rename_i other
    exact ⟨got.served.trans (Option.some.inj served).symm, _, got, by rw [if_pos other]⟩
  · rename_i alike
    exact ⟨got.served.trans (Option.some.inj served).symm, _, got, by rw [if_neg alike]⟩

end Places

/- Whatever happens on the line, all values are written or none is, and a success has
written them. -/
def Written {α : Type} (place : Place α) (m : MbusSerialMasterProtocol Line) (slaveAddr startRef : Int)
    (values : List α) (r : Int × MbusSerialMasterProtocol Line) : Prop :=
  (memory r.2 = memory m ∨ stored place m slaveAddr startRef values = some (memory r.2)) ∧
    (r.1 = FTALK_SUCCESS → stored place m slaveAddr startRef values = some (memory r.2))

/-! The functions that write. -/

theorem askedWrite {function : UInt8} {request : List UInt8} (single : UInt8.ofInt slaveAddr ≠ 0)
    (positive : ¬ function.toInt8 < 0) (fits : (Slave.order function request).replyLength = 4) :
    Asked (asking slaveAddr function request) 4 :=
  ⟨single, by decide, positive, fits⟩

theorem writesRegisters {regArr : List (BitVec 16)} (single : slaveAddr ≠ 0)
    (wire : wireRef m slaveAddr startRef = some ref) (few : regArr.length ≤ MAX_FC16_WORDS) :
    Writes registers m slaveAddr startRef ref 0x10
      (bytesOf ref ++ bytesOf regArr.length ++ [UInt8.ofNat (regArr.length * 2)] ++ regArr.flatMap charsOf) regArr
      (bytesOf ref ++ bytesOf regArr.length) := by
  obtain ⟨small, low, high⟩ := wireRefSmall wire
  have limit : MAX_FC16_WORDS < 65536 := by decide
  obtain ⟨a, b, start, first⟩ := numberBytes small
  obtain ⟨c, d, size, second⟩ := numberBytes (Nat.lt_of_le_of_lt few limit)
  have ordered := Slave.orderRegisters a b c d (UInt8.ofNat (regArr.length * 2)) second
  rw [first] at ordered
  rw [start, size, charsSplit]
  refine ⟨askedWrite (addressSingle low high single) (by decide) ?_, wire, fun s => ?_⟩
  · exact congrArg Slave.Order.replyLength ordered
  · exact congrArg (s.perform 0x10) ordered

theorem writesCoils {bits : List Bool} (single : slaveAddr ≠ 0) (wire : wireRef m slaveAddr startRef = some ref)
    (few : bits.length ≤ MAX_FC15_COILS) (c : UInt8) :
    Writes coils m slaveAddr startRef ref 0x0F (bytesOf ref ++ bytesOf bits.length ++ [c] ++ Packing.pack bits) bits
      (bytesOf ref ++ bytesOf bits.length) := by
  obtain ⟨small, low, high⟩ := wireRefSmall wire
  have limit : MAX_FC15_COILS < 65536 := by decide
  obtain ⟨a, b, start, first⟩ := numberBytes small
  obtain ⟨hi, lo, size, second⟩ := numberBytes (Nat.lt_of_le_of_lt few limit)
  have ordered := Slave.orderCoils a b hi lo c second
  rw [first] at ordered
  rw [start, size]
  refine ⟨askedWrite (addressSingle low high single) (by decide) ?_, wire, fun s => ?_⟩
  · exact congrArg Slave.Order.replyLength ordered
  · exact congrArg (s.perform 0x0F) ordered

theorem writesRegister {regVal : BitVec 16} (single : slaveAddr ≠ 0) (wire : wireRef m slaveAddr startRef = some ref) :
    Writes registers m slaveAddr startRef ref 0x06 (bytesOf ref ++ charsOf regVal) [regVal]
      (bytesOf ref ++ charsOf regVal) := by
  obtain ⟨small, low, high⟩ := wireRefSmall wire
  obtain ⟨a, b, start, first⟩ := numberBytes small
  have ordered := Slave.orderRegister a b (Packing.high regVal) (Packing.low regVal)
  rw [first, Packing.joinSplit] at ordered
  rw [start, charsHighLow]
  refine ⟨askedWrite (addressSingle low high single) (by decide) ?_, wire, fun s => ?_⟩
  · exact congrArg Slave.Order.replyLength ordered
  · exact congrArg (s.perform 0x06) ordered

theorem writesCoil {bitVal : Int} (single : slaveAddr ≠ 0) (wire : wireRef m slaveAddr startRef = some ref) :
    Writes coils m slaveAddr startRef ref 0x05 (bytesOf ref ++ [if bitVal ≠ 0 then 0xFF else 0, 0])
      [decide (bitVal ≠ 0)] (bytesOf ref ++ [if bitVal ≠ 0 then 0xFF else 0, 0]) := by
  obtain ⟨small, low, high⟩ := wireRefSmall wire
  obtain ⟨a, b, start, first⟩ := numberBytes small
  have ordered := Slave.orderCoil a b (if bitVal ≠ 0 then 0xFF else 0) (by split <;> simp)
  have bit : decide ((if bitVal ≠ 0 then 0xFF else 0 : UInt8) = 0xFF) = decide (bitVal ≠ 0) := by
    split
    · rename_i set
      simp [set]
    · rename_i clear
      simp [not_not.mp clear]
  rw [first, bit] at ordered
  rw [start]
  refine ⟨askedWrite (addressSingle low high single) (by decide) ?_, wire, fun s => ?_⟩
  · exact congrArg Slave.Order.replyLength ordered
  · exact congrArg (s.perform 0x05) ordered

theorem illegalWritten {α : Type} {place : Place α} {values : List α} :
    Written place m slaveAddr startRef values (FTALK_ILLEGAL_ARGUMENT_ERROR, m) :=
  ⟨Or.inl rfl, fun success => absurd success illegalArgument⟩

/- The reply is in the buffer, from its third byte on what it is compared with. -/
theorem gotReply {q : Frame} {start rest : List UInt8} {now : Int × MbusSerialMasterProtocol Line}
    (got : Got m q (start ++ rest) now) (two : start.length = 2) (more : rest.length = 2) :
    [now.2.bufferArr.get 2, now.2.bufferArr.get 3] = rest := by
  obtain ⟨a, b, rfl⟩ := List.length_eq_two.mp two
  obtain ⟨c, d, rfl⟩ := List.length_eq_two.mp more
  have room : ([a, b] ++ [c, d]).length ≤ MAX_DATA_SIZE := show 4 ≤ MAX_DATA_SIZE by decide
  have third := Buffer.overlayGet (m.bufferArr.overlay q.data) room (show 2 < 4 by decide)
  have fourth := Buffer.overlayGet (m.bufferArr.overlay q.data) room (show 3 < 4 by decide)
  rw [got.held, third, fourth]
  rfl

theorem writeRegistersRange {regArr : List (BitVec 16)} (wire : wireRef m slaveAddr startRef = some ref)
    (range : ¬ (regArr.length = 0 ∨ regArr.length > MAX_FC16_WORDS)) :
    writeMultipleRegisters Line.win32 ascii slaveAddr startRef regArr m =
      comparing (fun m => replyDiffers m slaveAddr regArr.length) (exchange Line.win32 ascii slaveAddr 0x10
        (bytesOf ref ++ bytesOf regArr.length ++ [UInt8.ofNat (regArr.length * 2)] ++ regArr.flatMap charsOf) 4 m) := by
  unfold writeMultipleRegisters writeRegisters
  rw [wire]
  exact if_neg range

theorem writeRegistersSafe (single : slaveAddr ≠ 0) (regArr : List (BitVec 16)) :
    Written registers m slaveAddr startRef regArr
      (writeMultipleRegisters Line.win32 ascii slaveAddr startRef regArr m) := by
  cases wire : wireRef m slaveAddr startRef with
  | none =>
    unfold writeMultipleRegisters writeRegisters
    rw [wire]
    exact illegalWritten
  | some ref =>
    by_cases range : regArr.length = 0 ∨ regArr.length > MAX_FC16_WORDS
    · unfold writeMultipleRegisters writeRegisters
      rw [wire]
      dsimp only
      rw [if_pos range]
      exact illegalWritten
    · rw [writeRegistersRange wire range]
      exact writeSafe (writesRegisters single wire (by omega)) _

theorem writeRegistersLive (single : slaveAddr ≠ 0) {regArr : List (BitVec 16)} (some : regArr ≠ [])
    (few : regArr.length ≤ MAX_FC16_WORDS) {slaves : UInt8 → Option Slave}
    (stores : stored registers m slaveAddr startRef regArr = .some slaves) {k : Nat} (passes : Passes m k) :
    (writeMultipleRegisters Line.win32 ascii slaveAddr startRef regArr m).1 = FTALK_SUCCESS ∧
      memory (writeMultipleRegisters Line.win32 ascii slaveAddr startRef regArr m).2 = slaves := by
  obtain ⟨ref, s, wire, _, _, _⟩ := storedCells stores
  have many := List.length_pos_iff.mpr some
  rw [writeRegistersRange wire (by omega)]
  obtain ⟨left, now, got, result⟩ := writeLive (writesRegisters single wire few)
    (fun m => replyDiffers m slaveAddr regArr.length) stores passes
  have echo := gotReply got rfl rfl
  rw [if_neg (fun differs => differs.1 echo)] at result
  exact ⟨result, left⟩

theorem forceCoilsRange {bitArr : List Int} (wire : wireRef m slaveAddr startRef = some ref)
    (range : ¬ (bitArr.length = 0 ∨ bitArr.length > MAX_FC15_COILS)) :
    forceMultipleCoils Line.win32 ascii slaveAddr startRef bitArr m =
      comparing (fun m => replyDiffers m slaveAddr bitArr.length) (exchange Line.win32 ascii slaveAddr 0x0F
        (bytesOf ref ++ bytesOf (bitArr.map (fun bit => decide (bit ≠ 0))).length ++
          [UInt8.ofNat (Packing.size bitArr.length)] ++ Packing.pack (bitArr.map (fun bit => decide (bit ≠ 0)))) 4
        m) := by
  have request := @packedRequest bitArr
    (bytesOf ref ++ bytesOf bitArr.length ++ [UInt8.ofNat (Packing.size bitArr.length)]) m.bufferArr rfl (by omega)
  unfold forceMultipleCoils
  rw [wire, List.length_map, ← request]
  exact if_neg range

theorem forceCoilsSafe (single : slaveAddr ≠ 0) (bitArr : List Int) :
    Written coils m slaveAddr startRef (bitArr.map (fun bit => decide (bit ≠ 0)))
      (forceMultipleCoils Line.win32 ascii slaveAddr startRef bitArr m) := by
  cases wire : wireRef m slaveAddr startRef with
  | none =>
    unfold forceMultipleCoils
    rw [wire]
    exact illegalWritten
  | some ref =>
    by_cases range : bitArr.length = 0 ∨ bitArr.length > MAX_FC15_COILS
    · unfold forceMultipleCoils
      rw [wire]
      dsimp only
      rw [if_pos range]
      exact illegalWritten
    · rw [forceCoilsRange wire range]
      exact writeSafe (writesCoils single wire (by rw [List.length_map]; omega) _) _

theorem writeSingleSafe (single : slaveAddr ≠ 0) (regVal : BitVec 16) :
    Written registers m slaveAddr startRef [regVal]
      (writeSingleRegister Line.win32 ascii slaveAddr startRef regVal m) := by
  unfold writeSingleRegister
  cases wire : wireRef m slaveAddr startRef with
  | none => exact illegalWritten
  | some ref => exact writeSafe (writesRegister single wire) (fun m => echoDiffers m slaveAddr (charsOf regVal) 2)

theorem writeCoilSafe (single : slaveAddr ≠ 0) (bitVal : Int) :
    Written coils m slaveAddr startRef [decide (bitVal ≠ 0)]
      (writeCoil Line.win32 ascii slaveAddr startRef bitVal m) := by
  unfold writeCoil
  cases wire : wireRef m slaveAddr startRef with
  | none => exact illegalWritten
  | some ref =>
    exact writeSafe (writesCoil single wire)
      (fun m => echoDiffers m slaveAddr [if UInt8.ofInt bitVal ≠ 0 then 0xFF else 0, 0] 1)

theorem lowByte (value : Int) : UInt8.ofInt value = 0 ↔ value % 256 = 0 := by
  rw [UInt8.ofInt, ← UInt8.toNat_inj, UInt8.toNat_ofNat', show (2 : Int) ^ 8 = 256 by rfl]
  show (value % 256).toNat % 256 = 0 ↔ _
  omega

/- A coil that is set by a value whose lowest byte is zero is reported as not set. -/
theorem writeCoilLive (single : slaveAddr ≠ 0) {bitVal : Int} {slaves : UInt8 → Option Slave}
    (stores : stored coils m slaveAddr startRef [decide (bitVal ≠ 0)] = some slaves) {k : Nat} (passes : Passes m k) :
    memory (writeCoil Line.win32 ascii slaveAddr startRef bitVal m).2 = slaves ∧
      (writeCoil Line.win32 ascii slaveAddr startRef bitVal m).1 =
        if bitVal ≠ 0 ∧ bitVal % 256 = 0 then FTALK_INVALID_REPLY_ERROR else FTALK_SUCCESS := by
  obtain ⟨ref, s, wire, _, _, _⟩ := storedCells stores
  unfold writeCoil
  rw [wire]
  obtain ⟨left, now, got, result⟩ := writeLive (writesCoil single wire)
    (fun m => echoDiffers m slaveAddr [if UInt8.ofInt bitVal ≠ 0 then 0xFF else 0, 0] 1) stores passes
  have echo := gotReply got rfl rfl
  refine ⟨left, result.trans (if_congr ?_ rfl rfl)⟩
  unfold echoDiffers
  rw [echo]
  by_cases clear : bitVal = 0
  · simp [clear, (lowByte 0).mpr rfl]
  · by_cases low : bitVal % 256 = 0
    · simp [clear, low, (lowByte bitVal).mpr low, single]
    · simp [clear, low, mt (lowByte bitVal).mp low]

end Writing

end SerialModbus.Exchange
