import SerialModbus.Attempts
import SerialModbus.Functions

/-! The data functions of the library that read, on the line: what is read is what a
slave keeps. -/
namespace SerialModbus.Exchange
open MbusSerialMasterProtocol MbusMasterFunctions
open MbusAsciiMasterProtocol (ascii)

def memory (m : MbusSerialMasterProtocol Line) : UInt8 → Option Slave := m.serialPort.os.slaves

/- The memories and what is to happen on the line are as before. -/
def Leaves (m n : MbusSerialMasterProtocol Line) : Prop :=
  memory n = memory m ∧ n.serialPort.os.faults = m.serialPort.os.faults

section Exchanges
variable {m : MbusSerialMasterProtocol Line} {slaveAddr : Int} {function : UInt8} {request : List UInt8} {n : Nat}

/- The request as a message. -/
def asking (slaveAddr : Int) (function : UInt8) (request : List UInt8) : Frame :=
  ⟨UInt8.ofInt slaveAddr, function, request⟩

/- A data function succeeded with this answer, which is in bufferArr then. -/
structure Got (m : MbusSerialMasterProtocol Line) (q : Frame) (data : List UInt8)
    (now : Int × MbusSerialMasterProtocol Line) : Prop where
  success : now.1 = FTALK_SUCCESS
  told : truth (memory m) q = .ok data
  served : memory now.2 = Line.served (memory m) q
  held : now.2.bufferArr = (m.bufferArr.overlay q.data).overlay data

theorem exchangeSafe (asked : Asked (asking slaveAddr function request) n) :
    Either (memory m) (asking slaveAddr function request)
        (memory (exchange Line.win32 ascii slaveAddr function request n m).2) ∧
      ((exchange Line.win32 ascii slaveAddr function request n m).1 = FTALK_SUCCESS →
        ∃ data, Got m (asking slaveAddr function request) data
          (exchange Line.win32 ascii slaveAddr function request n m)) := by
  obtain ⟨either, gave⟩ := @deliverSafe {m with bufferArr := m.bufferArr.overlay request} _ _ asked
  have talked := deliverTalked Line.win32 ascii (UInt8.ofInt slaveAddr) function request n
    {m with bufferArr := m.bufferArr.overlay request}
  have fails := @deliverFails _ Line.win32 ascii (fun _ _ _ _ _ => MbusAsciiMasterProtocol.checkFails)
    (UInt8.ofInt slaveAddr) function request n {m with bufferArr := m.bufferArr.overlay request}
  unfold exchange
  simp only [deliver, asking] at either gave talked fails ⊢
  generalize deliverMessage Line.win32 ascii (UInt8.ofInt slaveAddr) function request n
    {m with bufferArr := m.bufferArr.overlay request} = result at either gave talked fails ⊢
  obtain ⟨delivered, after⟩ := result
  cases delivered with
  | error e => exact ⟨either, fun success => absurd success (fails rfl)⟩
  | ok data =>
    obtain ⟨told, served⟩ := gave data rfl
    have buffer := congrArg MbusSerialMasterProtocol.bufferArr talked.1
    exact ⟨either, fun _ => ⟨data, rfl, told, served, congrArg (fun b => b.overlay data) buffer⟩⟩

theorem exchangeLive (asked : Asked (asking slaveAddr function request) n) {s : Slave} {k : Nat} {data : List UInt8}
    (there : memory m (UInt8.ofInt slaveAddr) = some s) (passes : Passes m k)
    (told : truth (memory m) (asking slaveAddr function request) = .ok data) :
    Got m (asking slaveAddr function request) data (exchange Line.win32 ascii slaveAddr function request n m) := by
  have passes' : Passes {m with bufferArr := m.bufferArr.overlay request} k :=
    ⟨passes.opened, passes.within, passes.intact, passes.benign⟩
  obtain ⟨result, served⟩ := @deliverLive {m with bufferArr := m.bufferArr.overlay request} _ _ _ asked s there passes'
  have talked := deliverTalked Line.win32 ascii (UInt8.ofInt slaveAddr) function request n
    {m with bufferArr := m.bufferArr.overlay request}
  replace result := result.trans told
  unfold exchange
  simp only [deliver, asking] at result served talked ⊢
  generalize deliverMessage Line.win32 ascii (UInt8.ofInt slaveAddr) function request n
    {m with bufferArr := m.bufferArr.overlay request} = gave at result served talked ⊢
  obtain ⟨delivered, after⟩ := gave
  cases result
  have buffer := congrArg MbusSerialMasterProtocol.bufferArr talked.1
  exact ⟨rfl, told, served, congrArg (fun b => b.overlay data) buffer⟩

end Exchanges

/-! The numbers of a request. -/

theorem byteNumber {value : Int} (low : 0 ≤ value) (high : value ≤ 255) : (UInt8.ofInt value).toNat = value.toNat := by
  have small : (value % 2 ^ 8).toNat = value.toNat := by
    rw [show (2 : Int) ^ 8 = 256 by rfl]
    omega
  rw [UInt8.ofInt, small, UInt8.toNat_ofNat', Nat.mod_eq_of_lt (by omega)]

theorem numberBytes {value : Nat} (small : value < 65536) :
    ∃ hi lo, bytesOf value = [hi, lo] ∧ Slave.number hi lo = value := by
  refine ⟨_, _, rfl, ?_⟩
  rw [Slave.number, byteNumber (by omega) (by omega), byteNumber (by omega) (by omega)]
  omega

theorem wireRefSmall {m : MbusSerialMasterProtocol Line} {slaveAddr startRef : Int} {ref : Nat}
    (wire : wireRef m slaveAddr startRef = some ref) : ref < 65536 ∧ 0 ≤ slaveAddr ∧ slaveAddr ≤ 255 := by
  unfold wireRef at wire
  split at wire <;> try contradiction
  dsimp only at wire
  generalize (if (m.slaveConfigFlagsArr (UInt8.ofInt slaveAddr)).REFERENCES_START_AT_ZERO = true then startRef
    else startRef - 1) = start at wire
  split at wire <;> try contradiction
  cases Option.some.inj wire
  omega

theorem addressSingle {slaveAddr : Int} (low : 0 ≤ slaveAddr) (high : slaveAddr ≤ 255) (single : slaveAddr ≠ 0) :
    UInt8.ofInt slaveAddr ≠ 0 := by
  intro zero
  have value := congrArg UInt8.toNat zero
  rw [byteNumber low high] at value
  replace value : slaveAddr.toNat = 0 := value
  omega

/-! Reading. -/

section Reading
variable {m now : MbusSerialMasterProtocol Line} {slaveAddr startRef : Int} {ref count : Nat}

/- The cells that a reference stands for, when there are that many. -/
def kept {α : Type} (cells : Slave → List α) (m : MbusSerialMasterProtocol Line) (slaveAddr startRef : Int)
    (count : Nat) : Option (List α) := do
  let ref ← wireRef m slaveAddr startRef
  let s ← memory m (UInt8.ofInt slaveAddr)
  if ref + count ≤ (cells s).length then some (slice (cells s) ref count) else none

theorem keptCells {α : Type} {cells : Slave → List α} {values : List α}
    (keeps : kept cells m slaveAddr startRef count = some values) :
    ∃ ref s, wireRef m slaveAddr startRef = some ref ∧ memory m (UInt8.ofInt slaveAddr) = some s ∧
      ref + count ≤ (cells s).length ∧ values = slice (cells s) ref count := by
  obtain ⟨ref, wire, rest⟩ := Option.bind_eq_some_iff.mp keeps
  obtain ⟨s, there, rest⟩ := Option.bind_eq_some_iff.mp rest
  split at rest <;> try contradiction
  rename_i fits
  exact ⟨ref, s, wire, there, fits, (Option.some.inj rest).symm⟩

theorem keptLength {α : Type} {cells : Slave → List α} {values : List α}
    (keeps : kept cells m slaveAddr startRef count = some values) : values.length = count := by
  obtain ⟨ref, s, _, _, fits, rfl⟩ := keptCells keeps
  exact sliceLength fits

theorem orderReadBits (small : ref < 65536) (few : count < 65536) :
    Slave.order 0x01 (bytesOf ref ++ bytesOf count) = .readBits ref count := by
  obtain ⟨a, b, start, first⟩ := numberBytes small
  obtain ⟨c, d, size, second⟩ := numberBytes few
  rw [start, size, ← first, ← second]
  rfl

theorem orderReadWords (small : ref < 65536) (few : count < 65536) :
    Slave.order 0x03 (bytesOf ref ++ bytesOf count) = .readWords ref count := by
  obtain ⟨a, b, start, first⟩ := numberBytes small
  obtain ⟨c, d, size, second⟩ := numberBytes few
  rw [start, size, ← first, ← second]
  rfl

/- A slave that gives data has carried out the order. -/
theorem truthOrder {slaves : UInt8 → Option Slave} {q : Frame} {o : Slave.Order} {data : List UInt8}
    (ordered : Slave.order q.function q.data = o) :
    truth slaves q = .ok data ↔
      ∃ s, slaves q.address = some s ∧ (s.perform q.function o).2 = (q.function, data) := by
  subst ordered
  constructor
  · intro told
    unfold truth at told
    split at told
    · cases told
    · rename_i s there
      dsimp only at told
      split at told <;> try contradiction
      rename_i plain
      cases Except.ok.inj told
      exact ⟨s, there, Prod.ext plain rfl⟩
  · rintro ⟨s, there, answer⟩
    unfold truth
    rw [there]
    exact (if_pos (congrArg Prod.fst answer)).trans (congrArg Except.ok (congrArg Prod.snd answer))

/- Whether data that a slave gives for a range is an answer or an exception. -/
theorem rangeAnswer {fits : Prop} [Decidable fits] {s t : Slave} {function code : UInt8} {data found : List UInt8}
    (positive : ¬ function.toInt8 < 0)
    (answer : (if fits then (t, function, found) else s.exception function code).2 = (function, data)) :
    fits ∧ data = found := by
  split at answer
  · rename_i within
    exact ⟨within, (congrArg Prod.snd answer).symm⟩
  · exact absurd (congrArg Prod.fst answer) (positiveMarked positive)

/- Reading leaves the memory as it is. -/
theorem readServes {slaves : UInt8 → Option Slave} {q : Frame}
    (kept : ∀ s : Slave, (s.answer q.function q.data).1 = s) : Line.served slaves q = slaves := by
  unfold Line.served
  split
  · funext a
    simp only [kept, Option.map_id']
  · simp only [kept, Option.map_id', Function.update_eq_self]

theorem readBitsKeeps (s : Slave) (function : UInt8) (ref count : Nat) :
    (s.perform function (.readBits ref count)).1 = s := by
  unfold Slave.perform
  dsimp only
  split <;> rfl

theorem readWordsKeeps (s : Slave) (function : UInt8) (ref count : Nat) :
    (s.perform function (.readWords ref count)).1 = s := by
  unfold Slave.perform
  dsimp only
  split <;> rfl

theorem askedCoils (single : UInt8.ofInt slaveAddr ≠ 0) (small : ref < 65536) (few : count ≤ MAX_FC01_COILS) :
    Asked (asking slaveAddr 0x01 (bytesOf ref ++ bytesOf count)) (1 + Packing.size count) := by
  constructor
  · exact single
  · omega
  · show ¬ (0x01 : UInt8).toInt8 < 0
    decide
  · have limit : MAX_FC01_COILS < 65536 := by decide
    exact congrArg Slave.Order.replyLength (orderReadBits small (Nat.lt_of_le_of_lt few limit))

/- The bits of an answer, read out of the buffer. -/
theorem gotBits {q : Frame} {bits : List Bool} {c : UInt8} {now : Int × MbusSerialMasterProtocol Line}
    (got : Got m q (c :: Packing.pack bits) now) (few : bits.length ≤ MAX_FC01_COILS) :
    now.2.bufferArr.get 0 = c ∧ unpackLoop now.2.bufferArr bits.length 0 0 = bits.map bitInt := by
  have room : (c :: Packing.pack bits).length ≤ MAX_DATA_SIZE := by
    simp only [MAX_FC01_COILS, MAX_FC03_WORDS, MAX_DATA_SIZE] at few
    simp only [List.length_cons, Packing.packLength, Packing.size, MAX_DATA_SIZE]
    omega
  rw [got.held]
  constructor
  · exact Buffer.overlayGet _ room (Nat.succ_pos _)
  · have front := Buffer.overlayFront (m.bufferArr.overlay q.data) room
    rw [List.length_cons, Packing.packLength, Buffer.front] at front
    rw [unpackLoopUnpack, Packing.unpackFront]
    rw [List.take_drop, Nat.add_comm, front]
    rfl

/- What a slave answers to an order that reads a range of its cells. -/
theorem truthRange {α : Type} {cells : Slave → List α} (coded : List α → List UInt8) {function : UInt8}
    {request data : List UInt8} (positive : ¬ function.toInt8 < 0)
    (wire : wireRef m slaveAddr startRef = some ref)
    (performed : ∀ s : Slave, s.answer function request =
      if ref + count ≤ (cells s).length then (s, function, coded (slice (cells s) ref count))
      else s.exception function 2) :
    truth (memory m) (asking slaveAddr function request) = .ok data ↔
      ∃ values, kept cells m slaveAddr startRef count = some values ∧ data = coded values := by
  rw [truthOrder rfl]
  constructor
  · rintro ⟨s, there, answer⟩
    replace answer : (s.answer function request).2 = (function, data) := answer
    rw [performed] at answer
    obtain ⟨fits, same⟩ := rangeAnswer positive answer
    refine ⟨slice (cells s) ref count, ?_, same⟩
    unfold kept
    rw [wire, show memory m (UInt8.ofInt slaveAddr) = some s from there]
    exact if_pos fits
  · rintro ⟨values, keeps, rfl⟩
    obtain ⟨ref', s, wire', there, fits, rfl⟩ := keptCells keeps
    cases Option.some.inj (wire.symm.trans wire')
    refine ⟨s, there, ?_⟩
    show (s.answer function request).2 = _
    rw [performed, if_pos fits]
    rfl

theorem truthCoils (wire : wireRef m slaveAddr startRef = some ref) (few : count ≤ MAX_FC01_COILS)
    {data : List UInt8} :
    truth (memory m) (asking slaveAddr 0x01 (bytesOf ref ++ bytesOf count)) = .ok data ↔
      ∃ cells, kept Slave.coils m slaveAddr startRef count = some cells ∧
        data = UInt8.ofNat (Packing.size count) :: Packing.pack cells := by
  have limit : MAX_FC01_COILS < 65536 := by decide
  have ordered := orderReadBits (wireRefSmall wire).1 (Nat.lt_of_le_of_lt few limit)
  refine truthRange (fun cells => UInt8.ofNat (Packing.size count) :: Packing.pack cells) (by decide) wire ?_
  intro s
  rw [Slave.answer, ordered]
  rfl

theorem truthRegisters (wire : wireRef m slaveAddr startRef = some ref) (few : count ≤ MAX_FC03_WORDS)
    {data : List UInt8} :
    truth (memory m) (asking slaveAddr 0x03 (bytesOf ref ++ bytesOf count)) = .ok data ↔
      ∃ cells, kept Slave.registers m slaveAddr startRef count = some cells ∧
        data = UInt8.ofNat (2 * count) :: Packing.split cells := by
  have limit : MAX_FC03_WORDS < 65536 := by decide
  have ordered := orderReadWords (wireRefSmall wire).1 (Nat.lt_of_le_of_lt few limit)
  refine truthRange (fun cells => UInt8.ofNat (2 * count) :: Packing.split cells) (by decide) wire ?_
  intro s
  rw [Slave.answer, ordered]
  rfl

theorem servedCoils (small : ref < 65536) (few : count ≤ MAX_FC01_COILS) :
    Line.served (memory m) (asking slaveAddr 0x01 (bytesOf ref ++ bytesOf count)) = memory m := by
  have limit : MAX_FC01_COILS < 65536 := by decide
  refine readServes (fun s => ?_)
  show (s.perform 0x01 (Slave.order 0x01 (bytesOf ref ++ bytesOf count))).1 = s
  rw [orderReadBits small (Nat.lt_of_le_of_lt few limit), readBitsKeeps]

theorem askedRegisters (single : UInt8.ofInt slaveAddr ≠ 0) (small : ref < 65536) (few : count ≤ MAX_FC03_WORDS) :
    Asked (asking slaveAddr 0x03 (bytesOf ref ++ bytesOf count)) (1 + count * 2) := by
  constructor
  · exact single
  · omega
  · show ¬ (0x03 : UInt8).toInt8 < 0
    decide
  · have limit : MAX_FC03_WORDS < 65536 := by decide
    rw [Nat.mul_comm]
    exact congrArg Slave.Order.replyLength (orderReadWords small (Nat.lt_of_le_of_lt few limit))

theorem servedRegisters (small : ref < 65536) (few : count ≤ MAX_FC03_WORDS) :
    Line.served (memory m) (asking slaveAddr 0x03 (bytesOf ref ++ bytesOf count)) = memory m := by
  have limit : MAX_FC03_WORDS < 65536 := by decide
  refine readServes (fun s => ?_)
  show (s.perform 0x03 (Slave.order 0x03 (bytesOf ref ++ bytesOf count))).1 = s
  rw [orderReadWords small (Nat.lt_of_le_of_lt few limit), readWordsKeeps]

theorem gotRegisters {q : Frame} {words : List (BitVec 16)} {c : UInt8} {now : Int × MbusSerialMasterProtocol Line}
    (got : Got m q (c :: Packing.split words) now) (few : words.length ≤ MAX_FC03_WORDS) :
    now.2.bufferArr.get 0 = c ∧ shortsLoop now.2.bufferArr words.length = words := by
  have room : (c :: Packing.split words).length ≤ MAX_DATA_SIZE := by
    simp only [MAX_FC03_WORDS, MAX_DATA_SIZE] at few
    simp only [List.length_cons, Packing.splitLength, MAX_DATA_SIZE]
    omega
  rw [got.held]
  constructor
  · exact Buffer.overlayGet _ room (Nat.succ_pos _)
  · have front := Buffer.overlayFront (m.bufferArr.overlay q.data) room
    rw [List.length_cons, Packing.splitLength, Nat.add_comm] at front
    exact shortsLoopJoins front

/- The last part of a function that reads: the first byte of the reply counts the others. -/
def counting {β : Type} (c : UInt8) (cleared : List β) (values : Buffer → List β)
    (now : Int × MbusSerialMasterProtocol Line) : Int × List β × MbusSerialMasterProtocol Line :=
  if now.1 ≠ FTALK_SUCCESS then (now.1, cleared, now.2)
  else if now.2.bufferArr.get 0 ≠ c then (FTALK_INVALID_REPLY_ERROR, cleared, now.2)
  else (FTALK_SUCCESS, values now.2.bufferArr, now.2)

/- What reading a range needs of a function: the answer is what the values are taken
from. -/
structure Reads {α β : Type} (cells : Slave → List α) (m : MbusSerialMasterProtocol Line) (slaveAddr startRef : Int)
    (function : UInt8) (request : List UInt8) (n count : Nat) (c : UInt8) (values : Buffer → List β) (shown : α → β) :
    Prop where
  asked : Asked (asking slaveAddr function request) n
  told : ∀ data, truth (memory m) (asking slaveAddr function request) = .ok data →
    ∃ found, kept cells m slaveAddr startRef count = some found
  gives : ∀ found, kept cells m slaveAddr startRef count = some found →
    ∃ data, truth (memory m) (asking slaveAddr function request) = .ok data ∧
      ∀ now, Got m (asking slaveAddr function request) data now →
        now.2.bufferArr.get 0 = c ∧ values now.2.bufferArr = found.map shown

section Ranges
variable {α β : Type} {cells : Slave → List α} {function : UInt8} {request : List UInt8} {n : Nat} {c : UInt8}
  {values : Buffer → List β} {shown : α → β}

theorem rangeSafe (reads : Reads cells m slaveAddr startRef function request n count c values shown)
    {cleared : List β}
    (success : (counting c cleared values (exchange Line.win32 ascii slaveAddr function request n m)).1 =
      FTALK_SUCCESS) :
    ∃ found, kept cells m slaveAddr startRef count = some found ∧
      (counting c cleared values (exchange Line.win32 ascii slaveAddr function request n m)).2.1 =
        found.map shown := by
  obtain ⟨_, gave⟩ := exchangeSafe (m := m) reads.asked
  generalize exchange Line.win32 ascii slaveAddr function request n m = now at gave success ⊢
  unfold counting at success ⊢
  split at success
  · rename_i failed
    exact absurd success failed
  · rename_i done
    obtain ⟨data, got⟩ := gave (not_not.mp done)
    obtain ⟨found, keeps⟩ := reads.told data got.told
    obtain ⟨data', told, taken⟩ := reads.gives found keeps
    cases Except.ok.inj (told.symm.trans got.told)
    obtain ⟨first, rest⟩ := taken now got
    rw [if_neg done, if_neg (not_not.mpr first)]
    exact ⟨found, keeps, rest⟩

theorem rangeLive (reads : Reads cells m slaveAddr startRef function request n count c values shown)
    (cleared : List β) {found : List α} (keeps : kept cells m slaveAddr startRef count = some found) {k : Nat}
    (passes : Passes m k) :
    (counting c cleared values (exchange Line.win32 ascii slaveAddr function request n m)).1 = FTALK_SUCCESS ∧
      (counting c cleared values (exchange Line.win32 ascii slaveAddr function request n m)).2.1 =
        found.map shown := by
  obtain ⟨ref, s, wire, there, fits, _⟩ := keptCells keeps
  obtain ⟨data, told, taken⟩ := reads.gives found keeps
  have got := exchangeLive reads.asked there passes told
  obtain ⟨first, rest⟩ := taken _ got
  unfold counting
  rw [if_neg (not_not.mpr got.success), if_neg (not_not.mpr first)]
  exact ⟨rfl, rest⟩

end Ranges

theorem readsCoils (single : slaveAddr ≠ 0) (wire : wireRef m slaveAddr startRef = some ref)
    (few : count ≤ MAX_FC01_COILS) :
    Reads Slave.coils m slaveAddr startRef 0x01 (bytesOf ref ++ bytesOf count) (1 + Packing.size count) count
      (UInt8.ofNat (Packing.size count)) (fun b => unpackLoop b count 0 0) bitInt := by
  obtain ⟨small, low, high⟩ := wireRefSmall wire
  have address := addressSingle low high single
  refine ⟨askedCoils address small few, ?_, ?_⟩
  · intro data told
    obtain ⟨cells, keeps, _⟩ := (truthCoils wire few).mp told
    exact ⟨cells, keeps⟩
  · intro found keeps
    refine ⟨_, (truthCoils wire few).mpr ⟨found, keeps, rfl⟩, fun now got => ?_⟩
    cases keptLength keeps
    exact gotBits got few

theorem readsRegisters (single : slaveAddr ≠ 0) (wire : wireRef m slaveAddr startRef = some ref)
    (few : count ≤ MAX_FC03_WORDS) :
    Reads Slave.registers m slaveAddr startRef 0x03 (bytesOf ref ++ bytesOf count) (1 + count * 2) count
      (UInt8.ofNat (count * 2)) (fun b => shortsLoop b count) id := by
  obtain ⟨small, low, high⟩ := wireRefSmall wire
  have address := addressSingle low high single
  refine ⟨askedRegisters address small few, ?_, ?_⟩
  · intro data told
    obtain ⟨cells, keeps, _⟩ := (truthRegisters wire few).mp told
    exact ⟨cells, keeps⟩
  · intro found keeps
    refine ⟨_, (truthRegisters wire few).mpr ⟨found, keeps, rfl⟩, fun now got => ?_⟩
    cases keptLength keeps
    rw [Nat.mul_comm] at got
    rw [List.map_id]
    exact gotRegisters got few

theorem readCoilsRange (wire : wireRef m slaveAddr startRef = some ref) (range : ¬ (count = 0 ∨ count > MAX_FC01_COILS)) :
    readCoils Line.win32 ascii slaveAddr startRef count m =
      counting (UInt8.ofNat (Packing.size count)) (List.replicate count 0) (fun b => unpackLoop b count 0 0)
        (exchange Line.win32 ascii slaveAddr 0x01 (bytesOf ref ++ bytesOf count) (1 + Packing.size count) m) := by
  unfold readCoils readBits
  rw [wire]
  exact if_neg range

theorem readRegistersRange (wire : wireRef m slaveAddr startRef = some ref)
    (range : ¬ (count = 0 ∨ count > MAX_FC03_WORDS)) :
    readMultipleRegisters Line.win32 ascii slaveAddr startRef count m =
      counting (UInt8.ofNat (count * 2)) (List.replicate count 0) (fun b => shortsLoop b count)
        (exchange Line.win32 ascii slaveAddr 0x03 (bytesOf ref ++ bytesOf count) (1 + count * 2) m) := by
  unfold readMultipleRegisters readRegisters
  rw [wire]
  exact if_neg range

theorem exchangeKeeps {function : UInt8} {request : List UInt8}
    (untouched : Line.served (memory m) (asking slaveAddr function request) = memory m) (n : Nat) :
    Leaves m (exchange Line.win32 ascii slaveAddr function request n m).2 := by
  have kept := @deliverKeeps {m with bufferArr := m.bufferArr.overlay request}
    (asking slaveAddr function request) (memory m) _ rfl rfl untouched n
  unfold exchange
  simp only [deliver, asking] at kept ⊢
  generalize deliverMessage Line.win32 ascii (UInt8.ofInt slaveAddr) function request n
    {m with bufferArr := m.bufferArr.overlay request} = result at kept ⊢
  obtain ⟨delivered, after⟩ := result
  cases delivered <;> exact kept

theorem countingKeeps {β : Type} (c : UInt8) (cleared : List β) (values : Buffer → List β)
    (now : Int × MbusSerialMasterProtocol Line) : (counting c cleared values now).2.2 = now.2 := by
  unfold counting
  split
  · rfl
  · split <;> rfl

/- No read changes a memory, whomever it is addressed to. -/
theorem readCoilsKeeps : Leaves m (readCoils Line.win32 ascii slaveAddr startRef count m).2.2 := by
  cases wire : wireRef m slaveAddr startRef with
  | none =>
    unfold readCoils readBits
    rw [wire]
    exact ⟨rfl, rfl⟩
  | some ref =>
    by_cases range : count = 0 ∨ count > MAX_FC01_COILS
    · unfold readCoils readBits
      rw [wire]
      dsimp only
      rw [if_pos range]
      exact ⟨rfl, rfl⟩
    · rw [readCoilsRange wire range, countingKeeps]
      exact exchangeKeeps (servedCoils (wireRefSmall wire).1 (by omega)) _

theorem readRegistersKeeps : Leaves m (readMultipleRegisters Line.win32 ascii slaveAddr startRef count m).2.2 := by
  cases wire : wireRef m slaveAddr startRef with
  | none =>
    unfold readMultipleRegisters readRegisters
    rw [wire]
    exact ⟨rfl, rfl⟩
  | some ref =>
    by_cases range : count = 0 ∨ count > MAX_FC03_WORDS
    · unfold readMultipleRegisters readRegisters
      rw [wire]
      dsimp only
      rw [if_pos range]
      exact ⟨rfl, rfl⟩
    · rw [readRegistersRange wire range, countingKeeps]
      exact exchangeKeeps (servedRegisters (wireRefSmall wire).1 (by omega)) _

/- Coils that are read are those the slave keeps. -/
theorem readCoilsSafe (single : slaveAddr ≠ 0)
    (success : (readCoils Line.win32 ascii slaveAddr startRef count m).1 = FTALK_SUCCESS) :
    ∃ cells, kept Slave.coils m slaveAddr startRef count = some cells ∧
      (readCoils Line.win32 ascii slaveAddr startRef count m).2.1 = cells.map bitInt := by
  cases wire : wireRef m slaveAddr startRef with
  | none =>
    unfold readCoils readBits at success
    rw [wire] at success
    exact absurd success illegalArgument
  | some ref =>
    by_cases range : count = 0 ∨ count > MAX_FC01_COILS
    · unfold readCoils readBits at success
      rw [wire] at success
      dsimp only at success
      rw [if_pos range] at success
      exact absurd success illegalArgument
    · rw [readCoilsRange wire range] at success ⊢
      exact rangeSafe (readsCoils single wire (by omega)) success

theorem readCoilsLive (single : slaveAddr ≠ 0) (some : 0 < count) (few : count ≤ MAX_FC01_COILS) {cells : List Bool}
    (keeps : kept Slave.coils m slaveAddr startRef count = .some cells) {k : Nat} (passes : Passes m k) :
    (readCoils Line.win32 ascii slaveAddr startRef count m).1 = FTALK_SUCCESS ∧
      (readCoils Line.win32 ascii slaveAddr startRef count m).2.1 = cells.map bitInt := by
  obtain ⟨ref, s, wire, _, _, _⟩ := keptCells keeps
  rw [readCoilsRange wire (by omega)]
  exact rangeLive (readsCoils single wire few) _ keeps passes

/- Registers that are read are those the slave keeps. -/
theorem readRegistersSafe (single : slaveAddr ≠ 0)
    (success : (readMultipleRegisters Line.win32 ascii slaveAddr startRef count m).1 = FTALK_SUCCESS) :
    kept Slave.registers m slaveAddr startRef count =
      some (readMultipleRegisters Line.win32 ascii slaveAddr startRef count m).2.1 := by
  cases wire : wireRef m slaveAddr startRef with
  | none =>
    unfold readMultipleRegisters readRegisters at success
    rw [wire] at success
    exact absurd success illegalArgument
  | some ref =>
    by_cases range : count = 0 ∨ count > MAX_FC03_WORDS
    · unfold readMultipleRegisters readRegisters at success
      rw [wire] at success
      dsimp only at success
      rw [if_pos range] at success
      exact absurd success illegalArgument
    · have few : count ≤ MAX_FC03_WORDS := by omega
      rw [readRegistersRange wire range] at success ⊢
      obtain ⟨cells, keeps, taken⟩ := rangeSafe (readsRegisters single wire few) success
      rw [taken, List.map_id]
      exact keeps

theorem readRegistersLive (single : slaveAddr ≠ 0) (some : 0 < count) (few : count ≤ MAX_FC03_WORDS)
    {cells : List (BitVec 16)} (keeps : kept Slave.registers m slaveAddr startRef count = .some cells) {k : Nat}
    (passes : Passes m k) :
    (readMultipleRegisters Line.win32 ascii slaveAddr startRef count m).1 = FTALK_SUCCESS ∧
      (readMultipleRegisters Line.win32 ascii slaveAddr startRef count m).2.1 = cells := by
  obtain ⟨ref, s, wire, _, _, _⟩ := keptCells keeps
  rw [readRegistersRange wire (by omega)]
  have read := rangeLive (readsRegisters single wire few) (List.replicate count 0) keeps passes
  rw [List.map_id] at read
  exact read

theorem exchangeBroadcast {function : UInt8} {request : List UInt8} {n : Nat} (broadcast : UInt8.ofInt slaveAddr = 0)
    (success : (exchange Line.win32 ascii slaveAddr function request n m).1 = FTALK_SUCCESS) :
    (exchange Line.win32 ascii slaveAddr function request n m).2.bufferArr =
      (m.bufferArr.overlay request).overlay [] := by
  have none := @deliverBroadcast _ Line.win32 ascii (UInt8.ofInt slaveAddr) function request
  have talked := deliverTalked Line.win32 ascii (UInt8.ofInt slaveAddr) function request n
    {m with bufferArr := m.bufferArr.overlay request}
  have fails := @deliverFails _ Line.win32 ascii (fun _ _ _ _ _ => MbusAsciiMasterProtocol.checkFails)
    (UInt8.ofInt slaveAddr) function request n {m with bufferArr := m.bufferArr.overlay request}
  unfold exchange at success ⊢
  dsimp only at success ⊢
  generalize result : deliverMessage Line.win32 ascii (UInt8.ofInt slaveAddr) function request n
    {m with bufferArr := m.bufferArr.overlay request} = gave at talked fails success ⊢
  obtain ⟨delivered, after⟩ := gave
  cases delivered with
  | error e => exact absurd success (fails rfl)
  | ok data =>
    cases none broadcast (congrArg Prod.fst result)
    exact congrArg (fun b => b.overlay []) (congrArg MbusSerialMasterProtocol.bufferArr talked.1)

theorem countingFirst {β : Type} {c : UInt8} {cleared : List β} {values : Buffer → List β}
    {now : Int × MbusSerialMasterProtocol Line} (success : (counting c cleared values now).1 = FTALK_SUCCESS) :
    now.1 = FTALK_SUCCESS ∧ now.2.bufferArr.get 0 = c := by
  unfold counting at success
  split at success
  · rename_i failed
    exact absurd success failed
  · rename_i done
    split at success
    · exact absurd success invalidReply
    · rename_i first
      exact ⟨not_not.mp done, not_not.mp first⟩

theorem requestFirst (b : Buffer) (ref count : Nat) :
    ((b.overlay (bytesOf ref ++ bytesOf count)).overlay []).get 0 = UInt8.ofInt (ref / 256) := by
  have kept : ∀ c : Buffer, c.overlay [] = c := by
    intro c
    obtain ⟨bytes, sized⟩ := c
    have whole : bytes.take MAX_DATA_SIZE = bytes := List.take_of_length_le (by omega)
    simp [Buffer.overlay, whole]
  rw [kept]
  exact @Buffer.overlayGet b (bytesOf ref ++ bytesOf count) (show 4 ≤ MAX_DATA_SIZE by decide) 0
    (show 0 < 4 by decide)

theorem readCoilsBroadcast (broadcast : UInt8.ofInt slaveAddr = 0) (wire : wireRef m slaveAddr startRef = some ref)
    (other : UInt8.ofInt (ref / 256) ≠ UInt8.ofNat (Packing.size count)) :
    (readCoils Line.win32 ascii slaveAddr startRef count m).1 ≠ FTALK_SUCCESS := by
  intro success
  by_cases range : count = 0 ∨ count > MAX_FC01_COILS
  · unfold readCoils readBits at success
    rw [wire] at success
    dsimp only at success
    rw [if_pos range] at success
    exact illegalArgument success
  · rw [readCoilsRange wire range] at success
    obtain ⟨done, first⟩ := countingFirst success
    rw [exchangeBroadcast broadcast done, requestFirst] at first
    exact other first

end Reading

end SerialModbus.Exchange
