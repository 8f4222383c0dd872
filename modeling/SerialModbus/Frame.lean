import SerialModbus.Checksum
import SerialModbus.Hex
import Mathlib.Data.UInt

/-! What a message of the protocol is, whatever carries it: an address, a function and
data. As text it is a colon, the digits of its bytes and of a byte that brings their
sum to zero, and a line end. -/
namespace SerialModbus

structure Frame where
  address : UInt8
  function : UInt8
  data : List UInt8
  deriving DecidableEq, Repr

namespace Frame

def body (m : Frame) : List UInt8 := m.address :: m.function :: m.data

def lrc (m : Frame) : UInt8 := -m.body.sum

def sealed (m : Frame) : List UInt8 := m.body ++ [m.lrc]

def colon : UInt8 := ':'.toUInt8

def encode (bytes : List UInt8) : List UInt8 := bytes.flatMap Hex.digits

/- The text without its line end. -/
def text (m : Frame) : List UInt8 := colon :: encode m.sealed

def lineEnd : List UInt8 := [0x0D, 0x0A]

theorem sealedSum (m : Frame) : m.sealed.sum = 0 := by
  simp only [sealed, lrc, List.sum_append, List.sum_cons, List.sum_nil, add_zero, add_neg_cancel]

@[simp] theorem encodeNil : encode [] = [] := rfl

@[simp] theorem encodeCons (b : UInt8) (rest : List UInt8) :
    encode (b :: rest) = Hex.hiNibbletoHex b :: Hex.loNibbletoHex b :: encode rest := rfl

theorem encodeAppend (xs ys : List UInt8) : encode (xs ++ ys) = encode xs ++ encode ys :=
  List.flatMap_append

@[simp] theorem encodeLength (bytes : List UInt8) : (encode bytes).length = 2 * bytes.length := by
  induction bytes with
  | nil => rfl
  | cons b rest ih =>
    simp only [encodeCons, List.length_cons, ih]
    omega

theorem textLength (m : Frame) : m.text.length = 2 * m.data.length + 7 := by
  simp only [text, sealed, body, List.length_cons, encodeLength, List.length_append, List.length_nil]
  omega

/- Two characters a byte; the last one may not be alone. -/
def decode : List UInt8 → Option (List UInt8)
  | [] => some []
  | [_] => none
  | hiNibble :: loNibble :: rest => do
      let b ← Hex.hexToByte hiNibble loNibble
      let bytes ← decode rest
      some (b :: bytes)

theorem decodeExact (chars bytes : List UInt8) : decode chars = some bytes ↔ chars = encode bytes := by
  induction chars using decode.induct generalizing bytes with
  | case1 =>
    cases bytes with
    | nil => simp [decode]
    | cons b rest => simp [decode]
  | case2 c =>
    cases bytes with
    | nil => simp [decode]
    | cons b rest => simp [decode]
  | case3 hiNibble loNibble rest ih =>
    constructor
    · intro decoded
      obtain ⟨b, first, more⟩ := Option.bind_eq_some_iff.mp decoded
      obtain ⟨later, tail, last⟩ := Option.bind_eq_some_iff.mp more
      cases Option.some.inj last
      have digits := (Hex.decodedExact hiNibble loNibble b).mp first
      rw [encodeCons, ← (ih later).mp tail]
      obtain ⟨rfl, more⟩ := List.cons.inj digits
      obtain ⟨rfl, _⟩ := List.cons.inj more
      rfl
    · intro same
      cases bytes with
      | nil => simp at same
      | cons b later =>
        obtain ⟨rfl, more⟩ := List.cons.inj same
        obtain ⟨rfl, tail⟩ := List.cons.inj more
        simp only [decode, Hex.encodedDecodes, (ih later).mpr tail, bind, Option.bind]

theorem decodeSnoc (chars : List UInt8) (hiNibble loNibble : UInt8) :
    decode (chars ++ [hiNibble, loNibble]) =
      (decode chars).bind (fun bytes => (Hex.hexToByte hiNibble loNibble).map (fun b => bytes ++ [b])) := by
  induction chars using decode.induct with
  | case1 =>
    simp only [List.nil_append, decode, bind]
    cases Hex.hexToByte hiNibble loNibble <;> rfl
  | case2 c =>
    simp only [List.cons_append, List.nil_append, decode, bind]
    cases Hex.hexToByte c hiNibble <;> rfl
  | case3 first second rest ih =>
    simp only [List.cons_append, decode, bind, ih]
    cases Hex.hexToByte first second with
    | none => rfl
    | some b =>
      cases decode rest with
      | none => rfl
      | some bytes => cases Hex.hexToByte hiNibble loNibble <;> rfl

theorem encodeInjective {xs ys : List UInt8} (same : encode xs = encode ys) : xs = ys := by
  have left := (decodeExact (encode xs) xs).mpr rfl
  rw [same, (decodeExact (encode ys) ys).mpr rfl] at left
  exact (Option.some.inj left).symm

theorem decodeLength {chars bytes : List UInt8} (ok : decode chars = some bytes) :
    chars.length = 2 * bytes.length := by
  rw [(decodeExact chars bytes).mp ok, encodeLength]

/- A list of bytes whose sum is zero is sealed by its last one. -/
theorem sealedExact (address function : UInt8) (data : List UInt8) (last : UInt8) :
    (address :: function :: (data ++ [last])).sum = 0 ↔
      address :: function :: (data ++ [last]) = sealed ⟨address, function, data⟩ := by
  constructor
  · intro zero
    have sums : last = lrc ⟨address, function, data⟩ := by
      simp only [List.sum_cons, List.sum_append, List.sum_nil, add_zero] at zero
      simp only [lrc, body, List.sum_cons]
      rw [eq_neg_iff_add_eq_zero, ← zero]
      abel
    rw [sums]
    rfl
  · intro same
    rw [same]
    exact sealedSum _

/- A whole text read back, with its line end. -/
def read (chars : List UInt8) : Option Frame :=
  if chars.head? = some colon ∧ chars.drop (chars.length - 2) = lineEnd then
    match decode ((chars.drop 1).take (chars.length - 3)) with
    | some (address :: function :: rest) =>
        if rest ≠ [] ∧ (address :: function :: rest).sum = 0 then some ⟨address, function, rest.dropLast⟩
        else none
    | _ => none
  else none

theorem readText (m : Frame) : read (m.text ++ lineEnd) = some m := by
  have head : (m.text ++ lineEnd).head? = some colon := rfl
  have size : (m.text ++ lineEnd).length = 1 + (encode m.sealed).length + 2 := by
    simp [text, lineEnd]
    omega
  have back : (m.text ++ lineEnd).drop ((m.text ++ lineEnd).length - 2) = lineEnd := by
    have front : (m.text ++ lineEnd).length - 2 = m.text.length := by simp [lineEnd]
    rw [front, List.drop_left]
  have middle : ((m.text ++ lineEnd).drop 1).take ((m.text ++ lineEnd).length - 3) = encode m.sealed := by
    rw [size, show 1 + (encode m.sealed).length + 2 - 3 = (encode m.sealed).length by omega]
    exact List.take_left
  have zero := sealedSum m
  unfold read
  rw [if_pos ⟨head, back⟩, middle, (decodeExact _ _).mpr rfl]
  simp only [sealed, body, List.cons_append] at zero ⊢
  rw [if_pos ⟨by simp, zero⟩, List.dropLast_concat]

end Frame
end SerialModbus
