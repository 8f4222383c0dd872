import SerialModbus.Frame
import SerialModbus.Packing

/-! What a slave is for: it keeps coils and registers, and answers the messages that read
or write a range of them. A message that it cannot serve is answered by an exception. -/
namespace SerialModbus

section Ranges
variable {α : Type}

def slice (cells : List α) (start count : Nat) : List α := (cells.drop start).take count

def overwrite (cells : List α) (start : Nat) (values : List α) : List α :=
  cells.take start ++ values ++ cells.drop (start + values.length)

theorem sliceLength {cells : List α} {start count : Nat} (fits : start + count ≤ cells.length) :
    (slice cells start count).length = count := by
  simp only [slice, List.length_take, List.length_drop]
  omega

theorem overwriteLength {cells : List α} {start : Nat} {values : List α}
    (fits : start + values.length ≤ cells.length) : (overwrite cells start values).length = cells.length := by
  simp only [overwrite, List.length_append, List.length_take, List.length_drop]
  omega

theorem overwriteInside {cells : List α} {start : Nat} {values : List α}
    (fits : start + values.length ≤ cells.length) :
    slice (overwrite cells start values) start values.length = values := by
  have front : (cells.take start).length = start := by
    rw [List.length_take]
    omega
  rw [slice, overwrite, List.append_assoc, List.drop_append_of_le_length (by omega),
    List.drop_eq_nil_of_le (by omega), List.nil_append, List.take_left]

theorem overwriteOutside {cells : List α} {start : Nat} {values : List α}
    (fits : start + values.length ≤ cells.length) {i : Nat} (outside : i < start ∨ start + values.length ≤ i) :
    (overwrite cells start values)[i]? = cells[i]? := by
  have front : (cells.take start).length = start := by
    rw [List.length_take]
    omega
  unfold overwrite
  rcases outside with before | behind
  · rw [List.append_assoc, List.getElem?_append_left (by omega), List.getElem?_take_of_lt before]
  · rw [List.getElem?_append_right (by rw [List.length_append]; omega), List.getElem?_drop,
      List.length_append, front]
    congr 1
    omega

/- Writing the same values again changes nothing. -/
theorem overwriteTwice {cells : List α} {start : Nat} {values : List α}
    (fits : start + values.length ≤ cells.length) :
    overwrite (overwrite cells start values) start values = overwrite cells start values := by
  apply List.ext_getElem?
  intro i
  by_cases inside : start ≤ i ∧ i < start + values.length
  · have same := overwriteInside fits
    have room : start + values.length ≤ (overwrite cells start values).length := by rwa [overwriteLength fits]
    have again := overwriteInside room
    have place : ∀ cells : List α, slice cells start values.length = values → cells[i]? = values[i - start]? := by
      intro cells held
      rw [← held, slice, List.getElem?_take_of_lt (by omega), List.getElem?_drop]
      congr 1
      omega
    rw [place _ again, place _ same]
  · exact overwriteOutside (by rwa [overwriteLength fits]) (by omega)

end Ranges

structure Slave where
  coils : List Bool
  registers : List (BitVec 16)
  deriving DecidableEq, Repr

namespace Slave
open Packing

def number (hi lo : UInt8) : Nat := hi.toNat * 256 + lo.toNat

/- What a message asks for, with the data of the answer where it does not depend on the
memory. -/
inductive Order where
  | readBits (start count : Nat)
  | readWords (start count : Nat)
  | writeBits (start : Nat) (values : List Bool) (reply : List UInt8)
  | writeWords (start : Nat) (values : List (BitVec 16)) (reply : List UInt8)
  | unknown
  deriving DecidableEq, Repr

def order (function : UInt8) : List UInt8 → Order
  | a :: b :: c :: d :: rest =>
      if function = 0x01 ∧ rest = [] then .readBits (number a b) (number c d)
      else if function = 0x03 ∧ rest = [] then .readWords (number a b) (number c d)
      else if function = 0x05 ∧ rest = [] ∧ d = 0 ∧ (c = 0 ∨ c = 0xFF) then
        .writeBits (number a b) [decide (c = 0xFF)] [a, b, c, d]
      else if function = 0x06 ∧ rest = [] then .writeWords (number a b) [join c d] [a, b, c, d]
      else if function = 0x0F ∧ rest.length = 1 + size (number c d) then
        .writeBits (number a b) (unpack (number c d) rest.tail) [a, b, c, d]
      else if function = 0x10 ∧ rest.length = 1 + 2 * number c d then
        .writeWords (number a b) (joins rest.tail) [a, b, c, d]
      else .unknown
  | _ => .unknown

theorem orderCoil (a b c : UInt8) (value : c = 0 ∨ c = 0xFF) :
    order 0x05 [a, b, c, 0] = .writeBits (number a b) [decide (c = 0xFF)] [a, b, c, 0] := by
  simp [order, value]

theorem orderRegister (a b c d : UInt8) :
    order 0x06 [a, b, c, d] = .writeWords (number a b) [join c d] [a, b, c, d] := by
  simp [order]

theorem orderCoils (a b c d e : UInt8) {bits : List Bool} (count : number c d = bits.length) :
    order 0x0F (a :: b :: c :: d :: e :: pack bits) = .writeBits (number a b) bits [a, b, c, d] := by
  have size : (e :: pack bits).length = 1 + size bits.length := by
    rw [List.length_cons, packLength, Nat.add_comm]
  simp [order, count, size, unpackPack]

theorem orderRegisters (a b c d e : UInt8) {words : List (BitVec 16)} (count : number c d = words.length) :
    order 0x10 (a :: b :: c :: d :: e :: split words) = .writeWords (number a b) words [a, b, c, d] := by
  have size : (e :: split words).length = 1 + 2 * words.length := by
    rw [List.length_cons, splitLength, Nat.add_comm]
  simp [order, count, size, joinsSplit]

/- The function with its highest bit, and a code. -/
def exception (s : Slave) (function code : UInt8) : Slave × UInt8 × List UInt8 := (s, function ||| 0x80, [code])

/- The memory after an order, the function of the answer and its data. -/
def perform (s : Slave) (function : UInt8) : Order → Slave × UInt8 × List UInt8
  | .readBits start count =>
      if start + count ≤ s.coils.length then
        (s, function, UInt8.ofNat (size count) :: pack (slice s.coils start count))
      else s.exception function 2
  | .readWords start count =>
      if start + count ≤ s.registers.length then
        (s, function, UInt8.ofNat (2 * count) :: split (slice s.registers start count))
      else s.exception function 2
  | .writeBits start values reply =>
      if start + values.length ≤ s.coils.length then
        ({s with coils := overwrite s.coils start values}, function, reply)
      else s.exception function 2
  | .writeWords start values reply =>
      if start + values.length ≤ s.registers.length then
        ({s with registers := overwrite s.registers start values}, function, reply)
      else s.exception function 2
  | .unknown => s.exception function 1

def answer (s : Slave) (function : UInt8) (data : List UInt8) : Slave × UInt8 × List UInt8 :=
  s.perform function (order function data)

/- The number of data bytes of an answer that is no exception. -/
def Order.replyLength : Order → Nat
  | .readBits _ count => 1 + size count
  | .readWords _ count => 1 + 2 * count
  | .writeBits _ _ reply => reply.length
  | .writeWords _ _ reply => reply.length
  | .unknown => 1

/- An answer has the function and the length asked for, or is an exception of one byte
that leaves the memory alone. -/
theorem performCases (s : Slave) (function : UInt8) (o : Order) :
    ((s.perform function o).2.1 = function ∧ (s.perform function o).2.2.length = o.replyLength) ∨
      ∃ code, (code = 1 ∨ code = 2) ∧ s.perform function o = s.exception function code := by
  cases o with
  | readBits start count =>
    by_cases fits : start + count ≤ s.coils.length
    · exact Or.inl (by simp [perform, fits, Order.replyLength, sliceLength fits, Nat.add_comm])
    · exact Or.inr ⟨2, Or.inr rfl, if_neg fits⟩
  | readWords start count =>
    by_cases fits : start + count ≤ s.registers.length
    · exact Or.inl (by simp [perform, fits, Order.replyLength, sliceLength fits, Nat.add_comm])
    · exact Or.inr ⟨2, Or.inr rfl, if_neg fits⟩
  | writeBits start values reply =>
    by_cases fits : start + values.length ≤ s.coils.length
    · exact Or.inl (by simp [perform, fits, Order.replyLength])
    · exact Or.inr ⟨2, Or.inr rfl, if_neg fits⟩
  | writeWords start values reply =>
    by_cases fits : start + values.length ≤ s.registers.length
    · exact Or.inl (by simp [perform, fits, Order.replyLength])
    · exact Or.inr ⟨2, Or.inr rfl, if_neg fits⟩
  | unknown => exact Or.inr ⟨1, Or.inl rfl, rfl⟩

/- A message that is heard twice does what it does once, and is answered alike. -/
theorem performTwice (s : Slave) (function : UInt8) (o : Order) :
    (s.perform function o).1.perform function o = s.perform function o := by
  cases o with
  | readBits start count =>
    by_cases fits : start + count ≤ s.coils.length
    · simp only [perform, if_pos fits]
    · simp only [perform, if_neg fits, exception]
  | readWords start count =>
    by_cases fits : start + count ≤ s.registers.length
    · simp only [perform, if_pos fits]
    · simp only [perform, if_neg fits, exception]
  | writeBits start values reply =>
    by_cases fits : start + values.length ≤ s.coils.length
    · simp only [perform, if_pos fits, overwriteLength fits, overwriteTwice fits]
    · simp only [perform, if_neg fits, exception]
  | writeWords start values reply =>
    by_cases fits : start + values.length ≤ s.registers.length
    · simp only [perform, if_pos fits, overwriteLength fits, overwriteTwice fits]
    · simp only [perform, if_neg fits, exception]
  | unknown => rfl

end Slave
end SerialModbus
