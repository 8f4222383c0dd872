import Mathlib.Tactic.Common

/-! Hexadecimal coding of bytes (hmhex.c). A char is eight bits and signed; a decoder
that returns -1 has no result. -/
namespace SerialModbus.Hex

def loNibbletoHex (val : UInt8) : UInt8 :=
  let tempVal := val &&& 0x0F
  if tempVal.toInt8 ≤ 9 then tempVal + '0'.toUInt8 else tempVal + 'A'.toUInt8 - 10

/- The shift keeps the sign, which the mask removes. -/
def hiNibbletoHex (val : UInt8) : UInt8 :=
  loNibbletoHex (val.toInt8 >>> 4).toUInt8

def hexToNibble (nibble : UInt8) : Option UInt8 :=
  if '0'.toUInt8.toInt8 ≤ nibble.toInt8 ∧ nibble.toInt8 ≤ '9'.toUInt8.toInt8 then some (nibble - '0'.toUInt8)
  else if 'A'.toUInt8.toInt8 ≤ nibble.toInt8 ∧ nibble.toInt8 ≤ 'F'.toUInt8.toInt8 then
    some (nibble - ('A'.toUInt8 - 10))
  else none

def hexToByte (hiNibble loNibble : UInt8) : Option UInt8 := do
  let hi ← hexToNibble hiNibble
  let lo ← hexToNibble loNibble
  some ((hi <<< 4) ||| lo)

/- The two characters of a byte. -/
def digits (val : UInt8) : List UInt8 := [hiNibbletoHex val, loNibbletoHex val]

theorem eachByte {P : UInt8 → Prop} (all : ∀ n : Fin 256, P (UInt8.ofNat n.val)) (val : UInt8) : P val := by
  have here := all ⟨val.toNat, val.toNat_lt⟩
  rwa [UInt8.ofNat_toNat] at here

theorem encodedDecodes (val : UInt8) : hexToByte (hiNibbletoHex val) (loNibbletoHex val) = some val :=
  @eachByte (fun val => hexToByte (hiNibbletoHex val) (loNibbletoHex val) = some val) (by decide +kernel) val

/- A decoder accepts upper case digits only, and each value has one. -/
theorem nibbleExact (nibble value : UInt8) :
    hexToNibble nibble = some value ↔ value < 16 ∧ nibble = loNibbletoHex value := by
  have forward : ∀ nibble : UInt8, ∀ value, hexToNibble nibble = some value →
      value < 16 ∧ nibble = loNibbletoHex value := by
    intro nibble value decoded
    have small : (hexToNibble nibble).all (fun value => value < 16 ∧ nibble = loNibbletoHex value) = true :=
      @eachByte (fun nibble => (hexToNibble nibble).all
        (fun value => value < 16 ∧ nibble = loNibbletoHex value) = true) (by decide +kernel) nibble
    rw [decoded] at small
    simpa using small
  have back : ∀ value : UInt8, value < 16 → hexToNibble (loNibbletoHex value) = some value :=
    @eachByte (fun value => value < 16 → hexToNibble (loNibbletoHex value) = some value) (by decide +kernel)
  constructor
  · exact forward nibble value
  · rintro ⟨small, rfl⟩
    exact back value small

/- Decoding is encoding read backwards: no other pair of characters gives the byte. -/
theorem decodedExact (hiNibble loNibble val : UInt8) :
    hexToByte hiNibble loNibble = some val ↔ [hiNibble, loNibble] = digits val := by
  constructor
  · intro decoded
    obtain ⟨hi, hiDecoded, rest⟩ := Option.bind_eq_some_iff.mp decoded
    obtain ⟨lo, loDecoded, last⟩ := Option.bind_eq_some_iff.mp rest
    obtain ⟨hiSmall, rfl⟩ := (nibbleExact hiNibble hi).mp hiDecoded
    obtain ⟨loSmall, rfl⟩ := (nibbleExact loNibble lo).mp loDecoded
    cases Option.some.inj last
    have halves : ∀ m n : Fin 16,
        hiNibbletoHex ((UInt8.ofNat m.val <<< 4) ||| UInt8.ofNat n.val) = loNibbletoHex (UInt8.ofNat m.val) ∧
        loNibbletoHex ((UInt8.ofNat m.val <<< 4) ||| UInt8.ofNat n.val) = loNibbletoHex (UInt8.ofNat n.val) := by
      decide +kernel
    have here := halves ⟨hi.toNat, hiSmall⟩ ⟨lo.toNat, loSmall⟩
    simp only [UInt8.ofNat_toNat] at here
    rw [digits, here.1, here.2]
  · intro same
    obtain ⟨rfl, rest⟩ := List.cons.inj same
    obtain ⟨rfl, _⟩ := List.cons.inj rest
    exact encodedDecodes val

end SerialModbus.Hex
