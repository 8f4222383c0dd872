import Mathlib.Data.List.GetD
import Mathlib.Tactic.Common

/-! Bits packed into bytes, the first bit in the lowest place of the first byte. -/
namespace SerialModbus.Packing

def size (n : Nat) : Nat := (n + 7) / 8

def bitAt (bytes : List UInt8) (i : Nat) : Bool := (bytes.getD (i / 8) 0).toBitVec.getLsbD (i % 8)

def unpack (n : Nat) (bytes : List UInt8) : List Bool := (List.range n).map (bitAt bytes)

def byteAt (bits : List Bool) (j : Nat) : UInt8 :=
  ⟨(BitVec.ofBoolListLE ((bits.drop (8 * j)).take 8)).setWidth 8⟩

/- What the last byte has room for beyond the bits is zero. -/
def pack (bits : List Bool) : List UInt8 := (List.range (size bits.length)).map (byteAt bits)

@[simp] theorem unpackLength (n : Nat) (bytes : List UInt8) : (unpack n bytes).length = n := by
  simp [unpack]

@[simp] theorem packLength (bits : List Bool) : (pack bits).length = size bits.length := by
  simp [pack]

theorem byteAtBit (bits : List Bool) (j k : Nat) (inside : k < 8) :
    (byteAt bits j).toBitVec.getLsbD k = bits.getD (8 * j + k) false := by
  have here : (byteAt bits j).toBitVec.getLsbD k = ((bits.drop (8 * j)).take 8).getD k false := by
    simp only [byteAt, BitVec.getLsbD_setWidth, BitVec.getLsbD_ofBoolListLE, inside, decide_true,
      Bool.true_and]
  rw [here]
  simp only [List.getD_eq_getElem?_getD, List.getElem?_take, inside, if_true, List.getElem?_drop]

theorem bitAtPack (bits : List Bool) (i : Nat) : bitAt (pack bits) i = bits.getD i false := by
  have place : 8 * (i / 8) + i % 8 = i := Nat.div_add_mod i 8
  have inside : i % 8 < 8 := Nat.mod_lt i (by decide)
  unfold bitAt
  by_cases within : i / 8 < size bits.length
  · have found : (pack bits).getD (i / 8) 0 = byteAt bits (i / 8) := by
      simp [pack, List.getD_eq_getElem?_getD, within]
    rw [found, byteAtBit bits (i / 8) (i % 8) inside, place]
  · have beyond : bits.length ≤ i := by
      unfold size at within
      omega
    have none : (pack bits).getD (i / 8) 0 = 0 :=
      List.getD_eq_default _ _ (by rw [packLength]; exact Nat.le_of_not_lt within)
    rw [none, List.getD_eq_default _ _ beyond]
    simp

theorem unpackPack (bits : List Bool) : unpack bits.length (pack bits) = bits := by
  apply List.ext_getElem
  · simp
  · intro i _ within
    simp only [unpack, List.getElem_map, List.getElem_range, bitAtPack]
    exact List.getD_eq_getElem bits false within

/- What follows the packed bytes does not matter. -/
theorem unpackFront {bytes : List UInt8} {bits : List Bool} (front : bytes.take (size bits.length) = pack bits) :
    unpack bits.length bytes = bits := by
  have same : unpack bits.length bytes = unpack bits.length (pack bits) := by
    apply List.map_congr_left
    intro i inside
    have within : i / 8 < size bits.length := by
      have less := List.mem_range.mp inside
      unfold size
      omega
    simp only [bitAt, ← front, List.getD_eq_getElem?_getD, List.getElem?_take_of_lt within]
  rw [same, unpackPack]

/- Bytes are told apart by their bits. -/
theorem bytesEq {xs ys : List UInt8} (same : xs.length = ys.length)
    (bits : ∀ i < 8 * xs.length, bitAt xs i = bitAt ys i) : xs = ys := by
  apply List.ext_getElem same
  intro j left right
  apply UInt8.toBitVec_inj.mp
  apply BitVec.eq_of_getLsbD_eq
  intro k inside
  have here := bits (8 * j + k) (by omega)
  have byte : (8 * j + k) / 8 = j := by omega
  have place : (8 * j + k) % 8 = k := by omega
  simpa only [bitAt, byte, place, List.getD_eq_getElem _ _ left, List.getD_eq_getElem _ _ right] using here

/- The packed bytes are the only ones of their number with these bits and no others. -/
theorem packUnique {bytes : List UInt8} {bits : List Bool} (same : bytes.length = size bits.length)
    (each : ∀ i, bitAt bytes i = bits.getD i false) : bytes = pack bits :=
  bytesEq (by rw [packLength, same]) (fun i _ => (each i).trans (bitAtPack bits i).symm)

/-! Words of sixteen bits, the high byte first. -/

def high (v : BitVec 16) : UInt8 := ⟨(v >>> 8).setWidth 8⟩
def low (v : BitVec 16) : UInt8 := ⟨v.setWidth 8⟩
def join (hi lo : UInt8) : BitVec 16 := (hi.toBitVec.setWidth 16 <<< 8) ||| lo.toBitVec.setWidth 16

theorem maskBit : ∀ i < 32, (0xFF : BitVec 32).getLsbD i = decide (i < 8) := by decide

theorem joinSplit (v : BitVec 16) : join (high v) (low v) = v := by
  apply BitVec.eq_of_getLsbD_eq
  intro i within
  simp only [join, high, low, BitVec.getLsbD_or, BitVec.getLsbD_shiftLeft, BitVec.getLsbD_setWidth,
    BitVec.getLsbD_ushiftRight, within, decide_true, Bool.true_and]
  by_cases less : i < 8
  · simp [less]
  · simp [less, show i - 8 < 16 by omega, show i - 8 < 8 by omega, show 8 + (i - 8) = i by omega]

def split (words : List (BitVec 16)) : List UInt8 := words.flatMap (fun v => [high v, low v])

def joins : List UInt8 → List (BitVec 16)
  | hi :: lo :: rest => join hi lo :: joins rest
  | _ => []

@[simp] theorem splitLength (words : List (BitVec 16)) : (split words).length = 2 * words.length := by
  induction words with
  | nil => rfl
  | cons v rest ih =>
    simp only [split, List.flatMap_cons, List.length_append, List.length_cons, List.length_nil] at ih ⊢
    omega

theorem splitPlaces {words : List (BitVec 16)} {i : Nat} (inside : i < words.length) :
    (split words).getD (2 * i) 0 = high words[i] ∧ (split words).getD (2 * i + 1) 0 = low words[i] := by
  induction words generalizing i with
  | nil => exact absurd inside (Nat.not_lt_zero i)
  | cons v rest ih =>
    cases i with
    | zero => exact ⟨rfl, rfl⟩
    | succ i => exact ih (Nat.lt_of_succ_lt_succ inside)

theorem joinsSplit (words : List (BitVec 16)) : joins (split words) = words := by
  induction words with
  | nil => rfl
  | cons v rest ih =>
    have first : joins (split (v :: rest)) = join (high v) (low v) :: joins (split rest) := rfl
    rw [first, joinSplit, ih]

end SerialModbus.Packing
