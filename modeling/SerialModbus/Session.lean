import SerialModbus.Regular
import SerialModbus.Storage

/-! Calls of the data functions one after the other, to single slaves on a line with any
faults. A cell of a slave is one that is written by attempts. -/
namespace SerialModbus.Exchange
open MbusSerialMasterProtocol MbusMasterFunctions
open MbusAsciiMasterProtocol (ascii)
open Regular (Attempt Follows History possible)

inductive Request where
  | readCoils (slaveAddr startRef : Int) (refCnt : Nat)
  | readMultipleRegisters (slaveAddr startRef : Int) (refCnt : Nat)
  | writeCoil (slaveAddr bitAddr bitVal : Int)
  | writeSingleRegister (slaveAddr regAddr : Int) (regVal : BitVec 16)
  | forceMultipleCoils (slaveAddr startRef : Int) (bitArr : List Int)
  | writeMultipleRegisters (slaveAddr startRef : Int) (regArr : List (BitVec 16))
  deriving DecidableEq, Repr

namespace Request

def slaveAddr : Request → Int
  | readCoils slaveAddr _ _ => slaveAddr
  | readMultipleRegisters slaveAddr _ _ => slaveAddr
  | writeCoil slaveAddr _ _ => slaveAddr
  | writeSingleRegister slaveAddr _ _ => slaveAddr
  | forceMultipleCoils slaveAddr _ _ => slaveAddr
  | writeMultipleRegisters slaveAddr _ _ => slaveAddr

/- The reference and the values that a request writes. -/
def coils : Request → Option (Int × List Bool)
  | writeCoil _ bitAddr bitVal => some (bitAddr, [decide (bitVal ≠ 0)])
  | forceMultipleCoils _ startRef bitArr => some (startRef, bitArr.map (fun bit => decide (bit ≠ 0)))
  | _ => none

def registers : Request → Option (Int × List (BitVec 16))
  | writeSingleRegister _ regAddr regVal => some (regAddr, [regVal])
  | writeMultipleRegisters _ startRef regArr => some (startRef, regArr)
  | _ => none

/- The result code, and the master after the call. -/
def call (m : MbusSerialMasterProtocol Line) : Request → Int × MbusSerialMasterProtocol Line
  | readCoils slaveAddr startRef refCnt =>
      let (result, _, m) := MbusMasterFunctions.readCoils Line.win32 ascii slaveAddr startRef refCnt m
      (result, m)
  | readMultipleRegisters slaveAddr startRef refCnt =>
      let (result, _, m) := MbusMasterFunctions.readMultipleRegisters Line.win32 ascii slaveAddr startRef refCnt m
      (result, m)
  | writeCoil slaveAddr bitAddr bitVal =>
      MbusMasterFunctions.writeCoil Line.win32 ascii slaveAddr bitAddr bitVal m
  | writeSingleRegister slaveAddr regAddr regVal =>
      MbusMasterFunctions.writeSingleRegister Line.win32 ascii slaveAddr regAddr regVal m
  | forceMultipleCoils slaveAddr startRef bitArr =>
      MbusMasterFunctions.forceMultipleCoils Line.win32 ascii slaveAddr startRef bitArr m
  | writeMultipleRegisters slaveAddr startRef regArr =>
      MbusMasterFunctions.writeMultipleRegisters Line.win32 ascii slaveAddr startRef regArr m

end Request

def after (m : MbusSerialMasterProtocol Line) (requests : List Request) : MbusSerialMasterProtocol Line :=
  requests.foldl (fun m request => (request.call m).2) m

/- What is kept at one place of a slave. -/
def cell {α : Type} (place : Place α) (m : MbusSerialMasterProtocol Line) (a : UInt8) (i : Nat) : Option α :=
  (memory m a).bind (fun s => (place.get s)[i]?)

/- What a request to slaveAddr is about to write there. -/
def aimed {α : Type} (m : MbusSerialMasterProtocol Line) (a : UInt8) (i : Nat) (slaveAddr : Int) (write : Int × List α) :
    Option α := do
  let ref ← wireRef m slaveAddr write.1
  if UInt8.ofInt slaveAddr = a ∧ ref ≤ i then write.2[i - ref]? else none

section Cells
variable {α : Type} {place : Place α} {m n : MbusSerialMasterProtocol Line} {a : UInt8} {i : Nat}
  {slaveAddr startRef : Int} {values : List α}

theorem overwriteCell {cells values : List α} {start : Nat} (fits : start + values.length ≤ cells.length) (i : Nat) :
    (overwrite cells start values)[i]? = if start ≤ i ∧ i < start + values.length then values[i - start]? else cells[i]? := by
  split
  · rename_i inside
    have front : (cells.take start).length = start := by
      rw [List.length_take]
      omega
    unfold overwrite
    rw [List.append_assoc, List.getElem?_append_right (by omega), List.getElem?_append_left (by omega), front]
  · exact overwriteOutside fits (by omega)

/- A range that is written changes the cells it is aimed at. -/
theorem storedCell (stores : stored place m slaveAddr startRef values = some (memory n)) (a : UInt8) (i : Nat) :
    cell place n a i = (aimed m a i slaveAddr (startRef, values)).or (cell place m a i) := by
  obtain ⟨ref, s, wire, there, fits, written⟩ := storedCells stores
  unfold cell aimed
  rw [wire, written]
  simp only [bind, Option.bind_some]
  by_cases mine : UInt8.ofInt slaveAddr = a
  · subst mine
    rw [Function.update_self, there, Option.bind_some, Option.bind_some, place.putGet, overwriteCell fits]
    by_cases inside : ref ≤ i ∧ i < ref + values.length
    · rw [if_pos inside, if_pos ⟨rfl, inside.1⟩, List.getElem?_eq_getElem (by omega)]
      rfl
    · rw [if_neg inside]
      split
      · rename_i behind
        have gone : values[i - ref]? = none := List.getElem?_eq_none (by omega)
        rw [gone]
        rfl
      · rfl
  · rw [Function.update_of_ne (Ne.symm mine), if_neg (fun both => mine both.1)]
    rfl

theorem aimedInside {u : α} (stores : (stored place m slaveAddr startRef values).isSome)
    (aims : aimed m a i slaveAddr (startRef, values) = some u) : (cell place m a i).isSome := by
  obtain ⟨slaves, stores⟩ := Option.isSome_iff_exists.mp stores
  obtain ⟨ref, s, wire, there, fits, _⟩ := storedCells stores
  unfold aimed at aims
  rw [wire] at aims
  simp only [bind, Option.bind_some] at aims
  split at aims <;> try contradiction
  rename_i here
  obtain ⟨inside, _⟩ := List.getElem?_eq_some_iff.mp aims
  unfold cell
  rw [← here.1, there, Option.bind_some, List.getElem?_eq_getElem (by omega)]
  rfl

/- The cells of the other kind stay as they are. -/
theorem storedOther {β : Type} {other : Place β} (apart : ∀ s cells, other.get (place.put s cells) = other.get s)
    (stores : stored place m slaveAddr startRef values = some (memory n)) (a : UInt8) (i : Nat) :
    cell other n a i = cell other m a i := by
  obtain ⟨ref, s, wire, there, fits, written⟩ := storedCells stores
  unfold cell
  rw [written]
  by_cases mine : a = UInt8.ofInt slaveAddr
  · rw [mine, Function.update_self, there, Option.bind_some, Option.bind_some, apart]
  · rw [Function.update_of_ne mine]

/- What a call does to a cell. -/
def Changes (before after : Option α) (attempt : Attempt α) : Prop :=
  (before = none → after = none) ∧ ∀ v, before = some v → ∃ u, after = some u ∧ Follows v attempt u

theorem unchanged (before : Option α) : Changes before before none :=
  ⟨id, fun v here => ⟨v, here, .other⟩⟩

theorem changesStored {before : Option α} {aims : Option α} (inside : ∀ u, aims = some u → before.isSome) (known : Bool) :
    Changes before (aims.or before) (aims.map (fun u => (u, known))) := by
  cases aims with
  | none => exact unchanged before
  | some u =>
    constructor
    · rintro rfl
      cases inside u rfl
    · exact fun v _ => ⟨u, rfl, .wrote u known⟩

theorem changesLost (before aims : Option α) : Changes before before (aims.map (fun u => (u, false))) := by
  cases aims with
  | none => exact unchanged before
  | some u => exact ⟨id, fun v here => ⟨v, here, .lost u⟩⟩

theorem writtenCell {r : Int × MbusSerialMasterProtocol Line} (written : Written place m slaveAddr startRef values r)
    (a : UInt8) (i : Nat) :
    Changes (cell place m a i) (cell place r.2 a i)
      ((aimed m a i slaveAddr (startRef, values)).map (fun u => (u, decide (r.1 = FTALK_SUCCESS)))) := by
  obtain ⟨either, success⟩ := written
  have done : stored place m slaveAddr startRef values = some (memory r.2) → Changes (cell place m a i) (cell place r.2 a i)
      ((aimed m a i slaveAddr (startRef, values)).map (fun u => (u, decide (r.1 = FTALK_SUCCESS)))) := by
    intro stores
    rw [storedCell stores a i]
    exact changesStored (fun u aims => aimedInside (by rw [stores]; rfl) aims) _
  by_cases known : r.1 = FTALK_SUCCESS
  · exact done (success known)
  · rcases either with same | stores
    · have kept : cell place r.2 a i = cell place m a i := by
        unfold cell
        rw [same]
      rw [kept, decide_eq_false known]
      exact changesLost _ _
    · exact done stores

theorem writtenOther {β : Type} {other : Place β} (apart : ∀ s cells, other.get (place.put s cells) = other.get s)
    {r : Int × MbusSerialMasterProtocol Line} (written : Written place m slaveAddr startRef values r) (a : UInt8) (i : Nat) :
    cell other r.2 a i = cell other m a i := by
  rcases written.1 with same | stores
  · unfold cell
    rw [same]
  · exact storedOther apart stores a i

theorem leavesCell (leaves : Leaves m n) (a : UInt8) (i : Nat) : cell place n a i = cell place m a i := by
  unfold cell
  rw [leaves.1]

end Cells

/-! The calls. -/

/- What a request attempts at a cell, given what it writes of that kind. -/
def attempt {α : Type} (writes : Request → Option (Int × List α)) (a : UInt8) (i : Nat) (m : MbusSerialMasterProtocol Line)
    (request : Request) : Attempt α :=
  ((writes request).bind (aimed m a i request.slaveAddr)).map
    (fun u => (u, decide ((request.call m).1 = FTALK_SUCCESS)))

def attempts {α : Type} (writes : Request → Option (Int × List α)) (a : UInt8) (i : Nat) :
    MbusSerialMasterProtocol Line → List Request → List (Attempt α)
  | _, [] => []
  | m, request :: rest => attempt writes a i m request :: attempts writes a i (request.call m).2 rest

section Calls
variable {m : MbusSerialMasterProtocol Line}

theorem changesSame {α : Type} {before after : Option α} (same : after = before) : Changes before after none := by
  rw [same]
  exact unchanged before

theorem callCoils (request : Request) (single : request.slaveAddr ≠ 0) (a : UInt8) (i : Nat) :
    Changes (cell coils m a i) (cell coils (request.call m).2 a i) (attempt Request.coils a i m request) := by
  cases request with
  | readCoils slaveAddr startRef refCnt => exact changesSame (leavesCell readCoilsKeeps a i)
  | readMultipleRegisters slaveAddr startRef refCnt => exact changesSame (leavesCell readRegistersKeeps a i)
  | writeCoil slaveAddr bitAddr bitVal => exact writtenCell (writeCoilSafe single bitVal) a i
  | writeSingleRegister slaveAddr regAddr regVal =>
    exact changesSame (writtenOther (fun _ _ => rfl) (writeSingleSafe single regVal) a i)
  | forceMultipleCoils slaveAddr startRef bitArr => exact writtenCell (forceCoilsSafe single bitArr) a i
  | writeMultipleRegisters slaveAddr startRef regArr =>
    exact changesSame (writtenOther (fun _ _ => rfl) (writeRegistersSafe single regArr) a i)

theorem callRegisters (request : Request) (single : request.slaveAddr ≠ 0) (a : UInt8) (i : Nat) :
    Changes (cell registers m a i) (cell registers (request.call m).2 a i)
      (attempt Request.registers a i m request) := by
  cases request with
  | readCoils slaveAddr startRef refCnt => exact changesSame (leavesCell readCoilsKeeps a i)
  | readMultipleRegisters slaveAddr startRef refCnt => exact changesSame (leavesCell readRegistersKeeps a i)
  | writeCoil slaveAddr bitAddr bitVal =>
    exact changesSame (writtenOther (fun _ _ => rfl) (writeCoilSafe single bitVal) a i)
  | writeSingleRegister slaveAddr regAddr regVal => exact writtenCell (writeSingleSafe single regVal) a i
  | forceMultipleCoils slaveAddr startRef bitArr =>
    exact changesSame (writtenOther (fun _ _ => rfl) (forceCoilsSafe single bitArr) a i)
  | writeMultipleRegisters slaveAddr startRef regArr => exact writtenCell (writeRegistersSafe single regArr) a i

theorem callFlags (request : Request) : (request.call m).2.slaveConfigFlagsArr = m.slaveConfigFlagsArr := by
  cases request with
  | readCoils slaveAddr startRef refCnt => exact (calledKeeps (readBitsCalled Line.win32 ascii 0x01 _ _ _ m)).2
  | readMultipleRegisters slaveAddr startRef refCnt =>
    exact (calledKeeps (readRegistersCalled Line.win32 ascii 0x03 _ _ _ _ m)).2
  | writeCoil slaveAddr bitAddr bitVal => exact (calledKeeps (writeCoilCalled Line.win32 ascii _ _ _ m)).2
  | writeSingleRegister slaveAddr regAddr regVal =>
    exact (calledKeeps (writeSingleRegisterCalled Line.win32 ascii _ _ _ m)).2
  | forceMultipleCoils slaveAddr startRef bitArr =>
    exact (calledKeeps (forceMultipleCoilsCalled Line.win32 ascii _ _ _ m)).2
  | writeMultipleRegisters slaveAddr startRef regArr =>
    exact (calledKeeps (writeRegistersCalled Line.win32 ascii _ _ _ _ m)).2

end Calls

/-! Whole sessions. -/

section Sessions
variable {α : Type} {place : Place α} {writes : Request → Option (Int × List α)} {m : MbusSerialMasterProtocol Line}
  {requests : List Request} {a : UInt8} {i : Nat}

theorem afterFlags : (after m requests).slaveConfigFlagsArr = m.slaveConfigFlagsArr := by
  induction requests generalizing m with
  | nil => rfl
  | cons request rest ih =>
    show (after (request.call m).2 rest).slaveConfigFlagsArr = _
    rw [ih, callFlags]

theorem afterCell (each : ∀ (m : MbusSerialMasterProtocol Line) (request : Request), request.slaveAddr ≠ 0 →
      Changes (cell place m a i) (cell place (request.call m).2 a i) (attempt writes a i m request))
    (singles : ∀ request ∈ requests, request.slaveAddr ≠ 0) {u : α} (now : cell place (after m requests) a i = some u) :
    ∃ v, cell place m a i = some v ∧ History v (attempts writes a i m requests) u := by
  induction requests generalizing m with
  | nil => exact ⟨u, now, .done u⟩
  | cons request rest ih =>
    obtain ⟨w, next, later⟩ := ih (m := (request.call m).2) (fun r mem => singles r (List.mem_cons_of_mem _ mem)) now
    obtain ⟨absent, follows⟩ := each m request (singles request (List.mem_cons_self ..))
    cases here : cell place m a i with
    | none =>
      rw [absent here] at next
      cases next
    | some v =>
      obtain ⟨x, gives, first⟩ := follows v here
      cases Option.some.inj (next.symm.trans gives)
      exact ⟨v, rfl, .more first later⟩

theorem keptCell {slaveAddr startRef : Int} {count j : Nat} {values : List α} {x : α}
    (keeps : kept place.get m slaveAddr startRef count = some values) (found : values[j]? = some x) :
    ∃ ref, wireRef m slaveAddr startRef = some ref ∧ cell place m (UInt8.ofInt slaveAddr) (ref + j) = some x := by
  obtain ⟨ref, s, wire, there, fits, rfl⟩ := keptCells keeps
  refine ⟨ref, wire, ?_⟩
  obtain ⟨inside, _⟩ := List.getElem?_eq_some_iff.mp found
  rw [sliceLength fits] at inside
  rw [slice, List.getElem?_take_of_lt inside, List.getElem?_drop] at found
  unfold cell
  rw [there, Option.bind_some, found]

/- What the cell read may have been given by what was attempted at it. -/
theorem readCell (each : ∀ a i (m : MbusSerialMasterProtocol Line) (request : Request), request.slaveAddr ≠ 0 →
      Changes (cell place m a i) (cell place (request.call m).2 a i) (attempt writes a i m request))
    (singles : ∀ request ∈ requests, request.slaveAddr ≠ 0) {slaveAddr startRef : Int} {count j : Nat}
    {values : List α} {x : α} (keeps : kept place.get (after m requests) slaveAddr startRef count = some values)
    (found : values[j]? = some x) :
    ∃ ref initial, wireRef m slaveAddr startRef = some ref ∧
      cell place m (UInt8.ofInt slaveAddr) (ref + j) = some initial ∧
      x ∈ possible initial (attempts writes (UInt8.ofInt slaveAddr) (ref + j) m requests) := by
  obtain ⟨ref, wire, now⟩ := keptCell keeps found
  obtain ⟨initial, here, history⟩ := afterCell (each _ _) singles now
  refine ⟨ref, initial, ?_, here, (Regular.possibleExact _ _ _).mpr history⟩
  rw [← wire]
  unfold wireRef
  rw [afterFlags]

/- A write that needs three tries, and one that is not sent. -/
def rewriting : List Request := [.writeMultipleRegisters 7 2 [8, 9], .writeSingleRegister 7 2 10]

end Sessions

end SerialModbus.Exchange
