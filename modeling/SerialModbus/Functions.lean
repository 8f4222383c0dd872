import SerialModbus.Hex
import SerialModbus.Packing
import SerialModbus.Protocol

/-! The data functions of the library (MbusMasterFunctions.cpp). Requests are made and
replies left in one buffer; a short is sixteen bits, and an int that stands for a bit is
set when it is not zero. -/
namespace SerialModbus.MbusMasterFunctions
open MbusSerialMasterProtocol

def MAX_FC03_WORDS : Nat := (MAX_DATA_SIZE - 1) / 2
def MAX_FC01_COILS : Nat := MAX_FC03_WORDS * 16
def MAX_FC16_WORDS : Nat := (MAX_DATA_SIZE - 5) / 2
def MAX_FC15_COILS : Nat := MAX_FC16_WORDS * 16

variable {δ : Type} (w : Win32 δ) (f : Framing)

/- The two bytes of (char) (value >> 8) and (char) (value & 0xFF). -/
def bytesOf (value : Int) : List UInt8 := [UInt8.ofInt (value / 256), UInt8.ofInt (value % 256)]

/- The reference on the wire, when slave address and reference are in range. -/
def wireRef (m : MbusSerialMasterProtocol δ) (slaveAddr ref : Int) : Option Nat :=
  if slaveAddr < 0 ∨ slaveAddr > 255 then none
  else
    let ref := if (m.slaveConfigFlagsArr (UInt8.ofInt slaveAddr)).REFERENCES_START_AT_ZERO then ref else ref - 1
    if ref < 0 ∨ ref ≥ 0x10000 then none else some ref.toNat

/- A request put into bufferArr, delivered, and its reply copied there. -/
def exchange (slaveAddr : Int) (function : UInt8) (request : List UInt8) (rcvDataLen : Nat)
    (m : MbusSerialMasterProtocol δ) : Int × MbusSerialMasterProtocol δ :=
  let m := {m with bufferArr := m.bufferArr.overlay request}
  match deliverMessage w f (UInt8.ofInt slaveAddr) function request rcvDataLen m with
  | (.error e, m) => (e, m)
  | (.ok data, m) => (FTALK_SUCCESS, {m with bufferArr := m.bufferArr.overlay data})

/- bitIdx counts through a byte, and byteIdx goes on when it starts again. -/
def unpackLoop (bufferArr : Buffer) : Nat → Nat → Nat → List Int
  | 0, _, _ => []
  | n + 1, i, byteIdx =>
      let bitIdx := i % 8
      let byteIdx := if bitIdx = 0 then byteIdx + 1 else byteIdx
      let bit := ((bufferArr.get byteIdx).toInt8 >>> Int8.ofNat bitIdx) &&& 0x01
      (if bit = 0x01 then 1 else 0) :: unpackLoop bufferArr n (i + 1) byteIdx

/- The second part of the result is bitArr. -/
def readBits (function : UInt8) (slaveAddr startRef : Int) (refCnt : Nat) (m : MbusSerialMasterProtocol δ) :
    Int × List Int × MbusSerialMasterProtocol δ :=
  let numBytes := (refCnt + 7) / 8
  let cleared := List.replicate refCnt 0
  match wireRef m slaveAddr startRef with
  | none => (FTALK_ILLEGAL_ARGUMENT_ERROR, cleared, m)
  | some startRef =>
      if refCnt = 0 ∨ refCnt > MAX_FC01_COILS then (FTALK_ILLEGAL_ARGUMENT_ERROR, cleared, m)
      else
        let (result, m) := exchange w f slaveAddr function (bytesOf startRef ++ bytesOf refCnt) (1 + numBytes) m
        if result ≠ FTALK_SUCCESS then (result, cleared, m)
        else if m.bufferArr.get 0 ≠ UInt8.ofNat numBytes then (FTALK_INVALID_REPLY_ERROR, cleared, m)
        else (FTALK_SUCCESS, unpackLoop m.bufferArr refCnt 0 0, m)

/- (short) ((hi << 8) + (lo & 0xFF)), where hi keeps its sign -/
def shortOf (hi lo : UInt8) : BitVec 16 :=
  ((hi.toBitVec.signExtend 32 <<< 8) + (lo.toBitVec.signExtend 32 &&& 0xFF)).setWidth 16

/- (char) (value >> 8) and (char) (value & 0xFF), where the shift keeps the sign -/
def charsOf (value : BitVec 16) : List UInt8 :=
  [⟨((value.signExtend 32).sshiftRight 8).setWidth 8⟩, ⟨(value.signExtend 32 &&& 0xFF).setWidth 8⟩]

def shortsLoop (bufferArr : Buffer) (regArrLen : Nat) : List (BitVec 16) :=
  (List.range regArrLen).map (fun i => shortOf (bufferArr.get (1 + i * 2)) (bufferArr.get (2 + i * 2)))

def readRegisters (function : UInt8) (slaveAddr startRef : Int) (regArrLen regCount : Nat)
    (m : MbusSerialMasterProtocol δ) : Int × List (BitVec 16) × MbusSerialMasterProtocol δ :=
  let cleared := List.replicate regArrLen 0
  match wireRef m slaveAddr startRef with
  | none => (FTALK_ILLEGAL_ARGUMENT_ERROR, cleared, m)
  | some startRef =>
      if regArrLen = 0 ∨ regArrLen > MAX_FC03_WORDS then (FTALK_ILLEGAL_ARGUMENT_ERROR, cleared, m)
      else
        let (result, m) :=
          exchange w f slaveAddr function (bytesOf startRef ++ bytesOf regCount) (1 + regArrLen * 2) m
        if result ≠ FTALK_SUCCESS then (result, cleared, m)
        else if m.bufferArr.get 0 ≠ UInt8.ofNat (regArrLen * 2) then (FTALK_INVALID_REPLY_ERROR, cleared, m)
        else (FTALK_SUCCESS, shortsLoop m.bufferArr regArrLen, m)

/- The count in the reply is compared, unless nobody replies. -/
def replyDiffers (m : MbusSerialMasterProtocol δ) (slaveAddr : Int) (count : Nat) : Prop :=
  [m.bufferArr.get 2, m.bufferArr.get 3] ≠ bytesOf count ∧ slaveAddr ≠ 0
instance (m : MbusSerialMasterProtocol δ) (slaveAddr : Int) (count : Nat) : Decidable (replyDiffers m slaveAddr count) := by
  unfold replyDiffers; infer_instance

def writeRegisters (slaveAddr startRef : Int) (regArr : List (BitVec 16)) (regCount : Nat)
    (m : MbusSerialMasterProtocol δ) : Int × MbusSerialMasterProtocol δ :=
  match wireRef m slaveAddr startRef with
  | none => (FTALK_ILLEGAL_ARGUMENT_ERROR, m)
  | some startRef =>
      if regArr.length = 0 ∨ regArr.length > MAX_FC16_WORDS then (FTALK_ILLEGAL_ARGUMENT_ERROR, m)
      else
        let (result, m) := exchange w f slaveAddr 0x10
          (bytesOf startRef ++ bytesOf regCount ++ [UInt8.ofNat (regArr.length * 2)] ++ regArr.flatMap charsOf) 4 m
        if result ≠ FTALK_SUCCESS then (result, m)
        else if replyDiffers m slaveAddr regCount then (FTALK_INVALID_REPLY_ERROR, m)
        else (FTALK_SUCCESS, m)

/- The bits are set one by one in the bytes behind the count of bytes, each cleared first. -/
def packLoop : List Int → Nat → Nat → Buffer → Buffer
  | [], _, _, bufferArr => bufferArr
  | bit :: rest, i, byteIdx, bufferArr =>
      let bitIdx := i % 8
      let (byteIdx, bufferArr) :=
        if bitIdx = 0 then (byteIdx + 1, bufferArr.set (byteIdx + 1) 0) else (byteIdx, bufferArr)
      let bufferArr :=
        if bit ≠ 0 then bufferArr.set byteIdx (bufferArr.get byteIdx ||| (1 <<< UInt8.ofNat bitIdx)) else bufferArr
      packLoop rest (i + 1) byteIdx bufferArr

def forceMultipleCoils (slaveAddr startRef : Int) (bitArr : List Int) (m : MbusSerialMasterProtocol δ) :
    Int × MbusSerialMasterProtocol δ :=
  let refCnt := bitArr.length
  let numBytes := (refCnt + 7) / 8
  match wireRef m slaveAddr startRef with
  | none => (FTALK_ILLEGAL_ARGUMENT_ERROR, m)
  | some startRef =>
      if refCnt = 0 ∨ refCnt > MAX_FC15_COILS then (FTALK_ILLEGAL_ARGUMENT_ERROR, m)
      else
        let header := bytesOf startRef ++ bytesOf refCnt ++ [UInt8.ofNat numBytes]
        let bufferArr := packLoop bitArr 0 4 (m.bufferArr.overlay header)
        let (result, m) := exchange w f slaveAddr 0x0F (bufferArr.front (5 + numBytes)) 4 m
        if result ≠ FTALK_SUCCESS then (result, m)
        else if replyDiffers m slaveAddr refCnt then (FTALK_INVALID_REPLY_ERROR, m)
        else (FTALK_SUCCESS, m)

/- A single value is echoed, or acknowledged with 0 and a number of the function's own. -/
def echoDiffers (m : MbusSerialMasterProtocol δ) (slaveAddr : Int) (echo : List UInt8) (other : UInt8) : Prop :=
  ([m.bufferArr.get 2, m.bufferArr.get 3] ≠ echo ∧ [m.bufferArr.get 2, m.bufferArr.get 3] ≠ [0, other]) ∧
    slaveAddr ≠ 0
instance (m : MbusSerialMasterProtocol δ) (slaveAddr : Int) (echo : List UInt8) (other : UInt8) :
    Decidable (echoDiffers m slaveAddr echo other) := by
  unfold echoDiffers; infer_instance

/- The request takes any bitVal but 0 as set, the reply is compared with the low byte. -/
def writeCoil (slaveAddr bitAddr bitVal : Int) (m : MbusSerialMasterProtocol δ) :
    Int × MbusSerialMasterProtocol δ :=
  match wireRef m slaveAddr bitAddr with
  | none => (FTALK_ILLEGAL_ARGUMENT_ERROR, m)
  | some bitAddr =>
      let (result, m) :=
        exchange w f slaveAddr 0x05 (bytesOf bitAddr ++ [if bitVal ≠ 0 then 0xFF else 0, 0]) 4 m
      if result ≠ FTALK_SUCCESS then (result, m)
      else if echoDiffers m slaveAddr [if UInt8.ofInt bitVal ≠ 0 then 0xFF else 0, 0] 1 then
        (FTALK_INVALID_REPLY_ERROR, m)
      else (FTALK_SUCCESS, m)

def writeSingleRegister (slaveAddr regAddr : Int) (regVal : BitVec 16) (m : MbusSerialMasterProtocol δ) :
    Int × MbusSerialMasterProtocol δ :=
  match wireRef m slaveAddr regAddr with
  | none => (FTALK_ILLEGAL_ARGUMENT_ERROR, m)
  | some regAddr =>
      let (result, m) := exchange w f slaveAddr 0x06 (bytesOf regAddr ++ charsOf regVal) 4 m
      if result ≠ FTALK_SUCCESS then (result, m)
      else if echoDiffers m slaveAddr (charsOf regVal) 2 then (FTALK_INVALID_REPLY_ERROR, m)
      else (FTALK_SUCCESS, m)

def readCoils (slaveAddr startRef : Int) (refCnt : Nat) (m : MbusSerialMasterProtocol δ) :=
  readBits w f 0x01 slaveAddr startRef refCnt m

def readMultipleRegisters (slaveAddr startRef : Int) (refCnt : Nat) (m : MbusSerialMasterProtocol δ) :=
  readRegisters w f 0x03 slaveAddr startRef refCnt refCnt m

def writeMultipleRegisters (slaveAddr startRef : Int) (regArr : List (BitVec 16)) (m : MbusSerialMasterProtocol δ) :=
  writeRegisters w f slaveAddr startRef regArr regArr.length m

/-! A function changes nothing of the master but its counters, its buffer and what lies
behind the port. -/

def Called (m n : MbusSerialMasterProtocol δ) : Prop := Talked {m with bufferArr := n.bufferArr} n

theorem calledSelf (m : MbusSerialMasterProtocol δ) : Called m m := talkedSelf m

theorem calledKeeps {m n : MbusSerialMasterProtocol δ} (called : Called m n) :
    n.isOpen = m.isOpen ∧ n.slaveConfigFlagsArr = m.slaveConfigFlagsArr := by
  have flags := congrArg MbusSerialMasterProtocol.slaveConfigFlagsArr called.1
  exact ⟨@talkedOpen _ {m with bufferArr := n.bufferArr} n called, flags⟩

theorem exchangeCalled (slaveAddr : Int) (function : UInt8) (request : List UInt8) (rcvDataLen : Nat)
    (m : MbusSerialMasterProtocol δ) : Called m (exchange w f slaveAddr function request rcvDataLen m).2 := by
  obtain ⟨same, port⟩ := deliverTalked w f (UInt8.ofInt slaveAddr) function request rcvDataLen
    {m with bufferArr := m.bufferArr.overlay request}
  unfold exchange
  dsimp only
  generalize deliverMessage w f (UInt8.ofInt slaveAddr) function request rcvDataLen
    {m with bufferArr := m.bufferArr.overlay request} = result at same port
  obtain ⟨delivered, after⟩ := result
  cases delivered with
  | error e =>
    refine ⟨?_, port⟩
    rw [same]
  | ok data =>
    refine ⟨?_, port⟩
    dsimp only at same ⊢
    rw [same]

theorem readBitsCalled (function : UInt8) (slaveAddr startRef : Int) (refCnt : Nat) (m : MbusSerialMasterProtocol δ) :
    Called m (readBits w f function slaveAddr startRef refCnt m).2.2 := by
  unfold readBits
  dsimp only
  split
  · exact calledSelf m
  · split
    · exact calledSelf m
    · split
      · exact exchangeCalled w f _ _ _ _ m
      · split <;> exact exchangeCalled w f _ _ _ _ m

theorem readRegistersCalled (function : UInt8) (slaveAddr startRef : Int) (regArrLen regCount : Nat)
    (m : MbusSerialMasterProtocol δ) :
    Called m (readRegisters w f function slaveAddr startRef regArrLen regCount m).2.2 := by
  unfold readRegisters
  dsimp only
  split
  · exact calledSelf m
  · split
    · exact calledSelf m
    · split
      · exact exchangeCalled w f _ _ _ _ m
      · split <;> exact exchangeCalled w f _ _ _ _ m

theorem comparedCalled {m : MbusSerialMasterProtocol δ} {r : Int × MbusSerialMasterProtocol δ} (called : Called m r.2)
    (differs : Prop) [Decidable differs] :
    Called m (if r.1 ≠ FTALK_SUCCESS then (r.1, r.2)
      else if differs then (FTALK_INVALID_REPLY_ERROR, r.2) else (FTALK_SUCCESS, r.2)).2 := by
  split
  · exact called
  · split <;> exact called

theorem writeRegistersCalled (slaveAddr startRef : Int) (regArr : List (BitVec 16)) (regCount : Nat)
    (m : MbusSerialMasterProtocol δ) : Called m (writeRegisters w f slaveAddr startRef regArr regCount m).2 := by
  unfold writeRegisters
  split
  · exact calledSelf m
  · split
    · exact calledSelf m
    · exact comparedCalled (exchangeCalled w f _ _ _ _ m) _

theorem forceMultipleCoilsCalled (slaveAddr startRef : Int) (bitArr : List Int) (m : MbusSerialMasterProtocol δ) :
    Called m (forceMultipleCoils w f slaveAddr startRef bitArr m).2 := by
  unfold forceMultipleCoils
  dsimp only
  split
  · exact calledSelf m
  · split
    · exact calledSelf m
    · exact comparedCalled (exchangeCalled w f _ _ _ _ m) _

theorem writeCoilCalled (slaveAddr bitAddr bitVal : Int) (m : MbusSerialMasterProtocol δ) :
    Called m (writeCoil w f slaveAddr bitAddr bitVal m).2 := by
  unfold writeCoil
  split
  · exact calledSelf m
  · exact comparedCalled (exchangeCalled w f _ _ _ _ m) _

theorem writeSingleRegisterCalled (slaveAddr regAddr : Int) (regVal : BitVec 16) (m : MbusSerialMasterProtocol δ) :
    Called m (writeSingleRegister w f slaveAddr regAddr regVal m).2 := by
  unfold writeSingleRegister
  split
  · exact calledSelf m
  · exact comparedCalled (exchangeCalled w f _ _ _ _ m) _

/-! The C expressions for bytes, bits and words are those of packing. -/

theorem shortJoin (hi lo : UInt8) : shortOf hi lo = Packing.join hi lo := by
  have apart : (hi.toBitVec.signExtend 32 <<< 8) &&& (lo.toBitVec.signExtend 32 &&& 0xFF) = 0 := by
    apply BitVec.eq_of_getLsbD_eq
    intro i within
    rw [BitVec.getLsbD_and, BitVec.getLsbD_and, BitVec.getLsbD_shiftLeft, Packing.maskBit i within]
    by_cases less : i < 8 <;> simp [less]
  rw [shortOf, BitVec.add_eq_or_of_and_eq_zero _ _ apart]
  apply BitVec.eq_of_getLsbD_eq
  intro i within
  have inside : i < 32 := by omega
  simp only [Packing.join, BitVec.getLsbD_or, BitVec.getLsbD_shiftLeft, BitVec.getLsbD_setWidth, BitVec.getLsbD_and,
    BitVec.getLsbD_signExtend, Packing.maskBit i inside, within, inside, decide_true, Bool.true_and]
  by_cases less : i < 8
  · simp only [less, decide_true, if_true, Bool.not_true, Bool.false_and, Bool.and_true]
  · simp only [less, decide_false, Bool.not_false, Bool.true_and, Bool.and_false, Bool.or_false,
      show i - 8 < 32 by omega, show i - 8 < 16 by omega, show i - 8 < 8 by omega, if_true, decide_true,
      BitVec.getLsbD_of_ge _ i (Nat.le_of_not_lt less)]

theorem charsHighLow (v : BitVec 16) : charsOf v = [Packing.high v, Packing.low v] := by
  have upper : ((v.signExtend 32).sshiftRight 8).setWidth 8 = (v >>> 8).setWidth 8 := by
    apply BitVec.eq_of_getLsbD_eq
    intro i within
    simp only [BitVec.getLsbD_setWidth, BitVec.getLsbD_sshiftRight, BitVec.getLsbD_signExtend,
      BitVec.getLsbD_ushiftRight, within, decide_true, Bool.true_and, show ¬ 32 ≤ i by omega,
      show 8 + i < 32 by omega, show 8 + i < 16 by omega, decide_false, Bool.not_false, if_true]
  have lower : (v.signExtend 32 &&& 0xFF).setWidth 8 = v.setWidth 8 := by
    apply BitVec.eq_of_getLsbD_eq
    intro i within
    have inside : i < 32 := by omega
    simp only [BitVec.getLsbD_setWidth, BitVec.getLsbD_and, BitVec.getLsbD_signExtend, Packing.maskBit i inside, within,
      inside, decide_true, Bool.true_and, Bool.and_true, show i < 16 by omega, if_true]
  rw [charsOf, upper, lower]
  rfl

theorem charsSplit (words : List (BitVec 16)) : words.flatMap charsOf = Packing.split words := by
  rw [Packing.split]
  congr 1
  funext v
  exact charsHighLow v

theorem bitRead (b : UInt8) (k : Nat) (inside : k < 8) :
    (b.toInt8 >>> Int8.ofNat k) &&& 0x01 = 0x01 ↔ b.toBitVec.getLsbD k = true :=
  @Hex.eachByte (fun b => ∀ k : Fin 8,
    (b.toInt8 >>> Int8.ofNat k.val) &&& 0x01 = 0x01 ↔ b.toBitVec.getLsbD k.val = true) (by decide +kernel) b ⟨k, inside⟩

theorem bitWritten (b : UInt8) (k : Nat) (inside : k < 8) (j : Nat) (within : j < 8) :
    (b ||| (1 <<< UInt8.ofNat k)).toBitVec.getLsbD j = (b.toBitVec.getLsbD j || decide (j = k)) :=
  @Hex.eachByte (fun b => ∀ k j : Fin 8,
    (b ||| (1 <<< UInt8.ofNat k.val)).toBitVec.getLsbD j.val = (b.toBitVec.getLsbD j.val || decide (j.val = k.val)))
    (by decide +kernel) b ⟨k, inside⟩ ⟨j, within⟩

/- An int for a bit. -/
def bitInt (b : Bool) : Int := if b then 1 else 0

theorem unpackLoopBits (b : Buffer) (n i : Nat) :
    unpackLoop b n i ((i + 7) / 8) =
      (List.range' i n).map (fun j => bitInt (Packing.bitAt (b.bytes.drop 1) j)) := by
  induction n generalizing i with
  | zero => rfl
  | succ n ih =>
    have byte : (if i % 8 = 0 then (i + 7) / 8 + 1 else (i + 7) / 8) = i / 8 + 1 := by
      split <;> omega
    have next : i / 8 + 1 = (i + 1 + 7) / 8 := by omega
    have first : b.get (i / 8 + 1) = (b.bytes.drop 1).getD (i / 8) 0 := by
      rw [Buffer.get, List.getD_eq_getElem?_getD, List.getD_eq_getElem?_getD, List.getElem?_drop, Nat.add_comm]
    have bit : (if (((b.bytes.drop 1).getD (i / 8) 0).toInt8 >>> Int8.ofNat (i % 8)) &&& 0x01 = 0x01 then 1 else 0) =
        bitInt (Packing.bitAt (b.bytes.drop 1) i) :=
      if_congr (bitRead _ (i % 8) (Nat.mod_lt i (by decide))) rfl rfl
    rw [unpackLoop]
    simp only [byte, first, bit, List.range'_succ, List.map_cons]
    rw [next, ih]

theorem unpackLoopUnpack (b : Buffer) (n : Nat) :
    unpackLoop b n 0 0 = (Packing.unpack n (b.bytes.drop 1)).map bitInt := by
  have loop := unpackLoopBits b n 0
  rw [show (0 + 7) / 8 = 0 from rfl] at loop
  rw [loop, Packing.unpack, List.map_map, List.range_eq_range']
  rfl

theorem shortsLoopJoins {b : Buffer} {words : List (BitVec 16)} {first : UInt8}
    (held : b.front (1 + 2 * words.length) = first :: Packing.split words) : shortsLoop b words.length = words := by
  have each : ∀ j < 2 * words.length, b.get (1 + j) = (Packing.split words).getD j 0 := by
    intro j less
    have place : b.get (1 + j) = (b.front (1 + 2 * words.length)).getD (1 + j) 0 := by
      rw [Buffer.get, Buffer.front, List.getD_eq_getElem?_getD, List.getD_eq_getElem?_getD,
        List.getElem?_take_of_lt (by omega)]
    rw [place, held, Nat.add_comm]
    rfl
  apply List.ext_getElem
  · simp [shortsLoop]
  · intro i _ inside
    obtain ⟨hi, lo⟩ := Packing.splitPlaces inside
    simp only [shortsLoop, List.getElem_map, List.getElem_range]
    rw [Nat.mul_comm i 2, each (2 * i) (by omega), show 2 + 2 * i = 1 + (2 * i + 1) by omega,
      each (2 * i + 1) (by omega), hi, lo, shortJoin, Packing.joinSplit]

/- The bits written so far, and zeros after them in their last byte. -/
structure Packed (b : Buffer) (bits : List Bool) : Prop where
  written : ∀ j < bits.length, Packing.bitAt (b.bytes.drop 5) j = bits.getD j false
  blank : ∀ j, bits.length ≤ j → j < 8 * Packing.size bits.length → Packing.bitAt (b.bytes.drop 5) j = false

theorem setBit (b : Buffer) (k : Nat) (x : UInt8) (room : 5 + k < MAX_DATA_SIZE) (j : Nat) :
    Packing.bitAt ((b.set (5 + k) x).bytes.drop 5) j =
      if j / 8 = k then x.toBitVec.getLsbD (j % 8) else Packing.bitAt (b.bytes.drop 5) j := by
  have sized := b.sized
  simp only [Packing.bitAt, Buffer.set, List.getD_eq_getElem?_getD, List.getElem?_drop, List.getElem?_set]
  by_cases same : j / 8 = k
  · simp [same, sized, room]
  · rw [if_neg (by omega), if_neg same]

theorem setGet (b : Buffer) (i j : Nat) (x : UInt8) (other : j ≠ i) : (b.set i x).get j = b.get j := by
  simp only [Buffer.get, Buffer.set, List.getD_eq_getElem?_getD, List.getElem?_set]
  rw [if_neg (Ne.symm other)]

/- The byte of the next bit is cleared when the bit is its first. -/
def entered (b : Buffer) (n : Nat) : Buffer := if n % 8 = 0 then b.set (5 + n / 8) 0 else b

theorem enteredBits {b : Buffer} {bits : List Bool} (packed : Packed b bits) (room : bits.length < MAX_FC15_COILS) :
    (∀ j < bits.length, Packing.bitAt ((entered b bits.length).bytes.drop 5) j = bits.getD j false) ∧
    ∀ j, bits.length ≤ j → j / 8 = bits.length / 8 →
      Packing.bitAt ((entered b bits.length).bytes.drop 5) j = false := by
  have fits : 5 + bits.length / 8 < MAX_DATA_SIZE := by
    simp only [MAX_FC15_COILS, MAX_FC16_WORDS, MAX_DATA_SIZE] at room ⊢
    omega
  unfold entered
  split
  · constructor
    · intro j less
      rw [setBit b _ 0 fits, if_neg (by omega), packed.written j less]
    · intro j behind same
      rw [setBit b _ 0 fits, if_pos same]
      exact BitVec.getLsbD_zero
  · refine ⟨packed.written, fun j behind same => packed.blank j behind ?_⟩
    unfold Packing.size
    omega

/- The bit is set in its byte when it is not zero. -/
def marked (b : Buffer) (n : Nat) (bit : Int) : Buffer :=
  if bit ≠ 0 then b.set (5 + n / 8) (b.get (5 + n / 8) ||| (1 <<< UInt8.ofNat (n % 8))) else b

theorem markedBit (b : Buffer) (n : Nat) (bit : Int) (room : 5 + n / 8 < MAX_DATA_SIZE) (j : Nat) :
    Packing.bitAt ((marked b n bit).bytes.drop 5) j =
      (Packing.bitAt (b.bytes.drop 5) j || (decide (bit ≠ 0) && decide (j = n))) := by
  unfold marked
  split
  · rename_i set
    have byte : b.get (5 + n / 8) = (b.bytes.drop 5).getD (n / 8) 0 := by
      rw [Buffer.get, List.getD_eq_getElem?_getD, List.getD_eq_getElem?_getD, List.getElem?_drop]
    rw [setBit b _ _ room, decide_eq_true set, Bool.true_and]
    split
    · rename_i same
      rw [bitWritten _ (n % 8) (Nat.mod_lt n (by decide)) _ (Nat.mod_lt j (by decide)), byte, ← same, Packing.bitAt]
      congr 1
      exact decide_eq_decide.mpr ⟨fun _ => by omega, fun equal => by rw [equal]⟩
    · rename_i differ
      rw [decide_eq_false (fun equal => differ (by rw [equal])), Bool.or_false]
  · rename_i clear
    rw [decide_eq_false clear, Bool.false_and, Bool.or_false]

/- One turn of the loop adds one bit. -/
theorem packTurn {b : Buffer} {bits : List Bool} (bit : Int) (packed : Packed b bits)
    (room : bits.length < MAX_FC15_COILS) (rest : List Int) :
    ∃ c, Packed c (bits ++ [decide (bit ≠ 0)]) ∧ (∀ j < 5, c.get j = b.get j) ∧
      packLoop (bit :: rest) bits.length (4 + Packing.size bits.length) b =
        packLoop rest (bits ++ [decide (bit ≠ 0)]).length (4 + Packing.size (bits ++ [decide (bit ≠ 0)]).length) c := by
  obtain ⟨written, blank⟩ := enteredBits packed room
  have fits : 5 + bits.length / 8 < MAX_DATA_SIZE := by
    simp only [MAX_FC15_COILS, MAX_FC16_WORDS, MAX_DATA_SIZE] at room ⊢
    omega
  have long : (bits ++ [decide (bit ≠ 0)]).length = bits.length + 1 := by simp
  refine ⟨marked (entered b bits.length) bits.length bit, ⟨?_, ?_⟩, ?_, ?_⟩
  · intro j less
    rw [markedBit _ _ _ fits]
    rw [long] at less
    rcases Nat.lt_or_eq_of_le (Nat.le_of_lt_succ less) with before | rfl
    · rw [written j before, decide_eq_false (Nat.ne_of_lt before), Bool.and_false, Bool.or_false]
      simp [List.getD_eq_getElem?_getD, List.getElem?_append_left before]
    · rw [blank _ (Nat.le_refl _) rfl, decide_eq_true rfl, Bool.and_true, Bool.false_or]
      simp [List.getD_eq_getElem?_getD]
  · intro j behind less
    rw [long] at behind less
    unfold Packing.size at less
    rw [markedBit _ _ _ fits, blank j (by omega) (by omega), decide_eq_false (show ¬ j = bits.length by omega),
      Bool.and_false, Bool.or_false]
  · intro j less
    have early : ∀ c : Buffer, ∀ x, (c.set (5 + bits.length / 8) x).get j = c.get j :=
      fun c x => setGet c _ _ x (by omega)
    simp only [marked, entered]
    split <;> split <;> simp only [early]
  · rw [long, packLoop]
    have stays : 4 + Packing.size (bits.length + 1) = 5 + bits.length / 8 := by
      unfold Packing.size
      omega
    rw [stays]
    by_cases first : bits.length % 8 = 0
    · have here : 4 + Packing.size bits.length + 1 = 5 + bits.length / 8 := by
        unfold Packing.size
        omega
      simp only [if_pos first, here, marked, entered]
    · have here : 4 + Packing.size bits.length = 5 + bits.length / 8 := by
        unfold Packing.size
        omega
      simp only [if_neg first, here, marked, entered]

theorem packLoopPacked (todo : List Int) (bits : List Bool) (b : Buffer) (packed : Packed b bits)
    (room : bits.length + todo.length ≤ MAX_FC15_COILS) :
    Packed (packLoop todo bits.length (4 + Packing.size bits.length) b)
        (bits ++ todo.map (fun bit => decide (bit ≠ 0))) ∧
      ∀ j < 5, (packLoop todo bits.length (4 + Packing.size bits.length) b).get j = b.get j := by
  induction todo generalizing bits b with
  | nil => exact ⟨by simpa [packLoop] using packed, fun j _ => rfl⟩
  | cons bit rest ih =>
    rw [List.length_cons] at room
    obtain ⟨c, next, kept, turned⟩ := packTurn bit packed (by omega) rest
    obtain ⟨done, same⟩ := ih (bits ++ [decide (bit ≠ 0)]) c next (by
      rw [List.length_append, List.length_singleton]
      omega)
    have grown : bits ++ (bit :: rest).map (fun bit => decide (bit ≠ 0)) =
        bits ++ [decide (bit ≠ 0)] ++ rest.map (fun bit => decide (bit ≠ 0)) := by simp
    rw [turned, grown]
    exact ⟨done, fun j less => (same j less).trans (kept j less)⟩

/- What forceMultipleCoils sends behind its header are the packed bits. -/
theorem packedRequest {bitArr : List Int} {header : List UInt8} (b : Buffer) (five : header.length = 5)
    (room : bitArr.length ≤ MAX_FC15_COILS) :
    (packLoop bitArr 0 4 (b.overlay header)).front (5 + Packing.size bitArr.length) =
      header ++ Packing.pack (bitArr.map (fun bit => decide (bit ≠ 0))) := by
  have fresh : Packed (b.overlay header) [] :=
    ⟨fun j less => absurd less (Nat.not_lt_zero j), fun j _ less => absurd less (Nat.not_lt_zero j)⟩
  obtain ⟨packed, same⟩ := packLoopPacked bitArr [] (b.overlay header) fresh (by simpa using room)
  rw [show 4 + Packing.size ([] : List Bool).length = 4 from rfl, List.nil_append] at packed
  replace same : ∀ j < 5, (packLoop bitArr 0 4 (b.overlay header)).get j = (b.overlay header).get j := same
  have sized := (packLoop bitArr 0 4 (b.overlay header)).sized
  have fits : 5 + Packing.size bitArr.length ≤ MAX_DATA_SIZE := by
    simp only [MAX_FC15_COILS, MAX_FC16_WORDS, MAX_DATA_SIZE, Packing.size] at room ⊢
    omega
  have long : (bitArr.map (fun bit => decide (bit ≠ 0))).length = bitArr.length := List.length_map _
  rw [Buffer.front, List.take_add]
  congr 1
  · apply List.ext_getElem
    · rw [List.length_take, sized, five]
      rfl
    · intro j _ inside
      have less : j < 5 := by omega
      have get := (same j less).trans (Buffer.overlayGet b (by rw [five]; decide) inside)
      rw [Buffer.get, List.getD_eq_getElem _ _ (by omega),
        List.getD_eq_getElem _ _ inside] at get
      rw [List.getElem_take]
      exact get
  · apply Packing.packUnique
    · rw [List.length_take, List.length_drop, sized, long]
      omega
    · intro i
      have taken : Packing.bitAt (((packLoop bitArr 0 4 (b.overlay header)).bytes.drop 5).take
          (Packing.size bitArr.length)) i =
          if i / 8 < Packing.size bitArr.length then
            Packing.bitAt ((packLoop bitArr 0 4 (b.overlay header)).bytes.drop 5) i else false := by
        simp only [Packing.bitAt, List.getD_eq_getElem?_getD, List.getElem?_take]
        split
        · rfl
        · exact BitVec.getLsbD_zero
      rw [taken]
      split
      · rename_i within
        rcases Nat.lt_or_ge i bitArr.length with less | behind
        · exact packed.written i (by rw [long]; exact less)
        · rw [List.getD_eq_default _ _ (by rw [long]; exact behind)]
          exact packed.blank i (by rw [long]; exact behind) (by rw [long]; omega)
      · rename_i beyond
        unfold Packing.size at beyond
        rw [List.getD_eq_default _ _ (by rw [long]; omega)]

end SerialModbus.MbusMasterFunctions
