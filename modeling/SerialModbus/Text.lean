import SerialModbus.Decimal
import Mathlib.Data.List.DropRight

/-! The Qt and C text operations the driver calls. A QString is its list of
characters. CharString, std::string and QString hold the same 8-bit text here, so
the conversions between them (QString(cs), toStdString) do not show. -/
namespace SerialModbus.Text

abbrev QString := List Char
abbrev PVSSchar := UInt8

/- -1 when the character does not occur. -/
def indexOf (s : QString) (c : Char) : Int := if c ∈ s then (s.idxOf c : Int) else -1

def left (s : QString) (n : Int) : QString :=
  if n < 0 ∨ (s.length : Int) < n then s else s.take n.toNat

def right (s : QString) (n : Int) : QString :=
  if n < 0 ∨ (s.length : Int) < n then s else s.drop (s.length - n.toNat)

def number (i : Int) : QString := Decimal.render i

def isSpace (c : Char) : Bool :=
  (9 ≤ c.toNat && c.toNat ≤ 13) || c.toNat == 32 || c.toNat == 160

def trimmed (s : QString) : QString := (s.dropWhile isSpace).rdropWhile isSpace

/- QString::toInt without an ok flag: 0 for text that is no decimal number, and
for a number that no 32-bit int holds. -/
def toInt (s : QString) : Int :=
  match Decimal.parse (trimmed s) with
  | some i => if -2147483648 ≤ i ∧ i ≤ 2147483647 then i else 0
  | none => 0

/- Only the %d conversion occurs in the driver's formats. -/
def sprintf : QString → List Int → QString
  | '%' :: 'd' :: format, i :: args => number i ++ sprintf format args
  | c :: format, args => c :: sprintf format args
  | [], _ => []

/- Latin-1 without a codec for C strings; other characters become '?'. -/
def toAscii (s : QString) : List PVSSchar :=
  s.map (fun c => if c.toNat < 256 then UInt8.ofNat c.toNat else 63)

/- The bytes behind QByteArray::data, the terminating NUL included. -/
def cString (s : QString) : List PVSSchar := toAscii s ++ [0]

/- What reading the first byte through a char pointer gives. -/
def deref (value : List PVSSchar) : PVSSchar := value.headD 0

theorem leftIndexOf {s : QString} {c : Char} (mem : c ∈ s) :
    left s (indexOf s c) = s.takeWhile (· != c) := by
  have inside : s.idxOf c < s.length := List.idxOf_lt_length_of_mem mem
  have range : ¬ (((s.idxOf c : Nat) : Int) < 0 ∨ (s.length : Int) < (s.idxOf c : Int)) := by omega
  rw [indexOf, if_pos mem, left, if_neg range, Int.toNat_natCast]
  clear range inside mem
  induction s with
  | nil => rfl
  | cons d rest ih =>
    by_cases same : d = c
    · simp [same]
    · simp [List.idxOf_cons_ne _ same, same, ih]

theorem leftMark {name rest : QString} {c : Char} (free : c ∉ name) :
    left (name ++ c :: rest) (indexOf (name ++ c :: rest) c) = name := by
  rw [leftIndexOf (by simp), List.takeWhile_append_of_pos]
  · simp
  · intro d mem
    have differ : d ≠ c := fun same => free (same ▸ mem)
    simpa using differ

theorem rightMark {name rest : QString} {c : Char} (free : c ∉ name) :
    right (name ++ c :: rest)
      ((name ++ c :: rest).length - indexOf (name ++ c :: rest) c - 1) = rest := by
  have place : indexOf (name ++ c :: rest) c = (name.length : Int) := by
    rw [indexOf, if_pos (by simp), List.idxOf_append_of_notMem free]
    simp
  have size : ((name ++ c :: rest).length : Int) - name.length - 1 = (rest.length : Int) := by
    simp only [List.length_append, List.length_cons]
    omega
  have range : ¬ ((rest.length : Int) < 0 ∨ ((name ++ c :: rest).length : Int) < rest.length) := by
    simp only [List.length_append, List.length_cons]
    omega
  have skip : (name ++ c :: rest).length - rest.length = (name ++ [c]).length := by
    simp only [List.length_append, List.length_cons, List.length_nil]
    omega
  rw [place, size, right, if_neg range, Int.toNat_natCast, skip]
  rw [show name ++ c :: rest = (name ++ [c]) ++ rest by simp, List.drop_left]

theorem sprintfPlain (format : QString) : sprintf format [] = format := by
  induction format with
  | nil => rfl
  | cons c rest ih => simp [sprintf, ih]

/- A format with one conversion. -/
theorem sprintfOne {front : QString} (plain : '%' ∉ front) (back : QString) (i : Int) :
    sprintf (front ++ '%' :: 'd' :: back) [i] = front ++ (number i ++ back) := by
  induction front with
  | nil => simp [sprintf, sprintfPlain]
  | cons c rest ih =>
    have later : '%' ∉ rest := fun mem => plain (List.mem_cons_of_mem _ mem)
    have differ : c ≠ '%' := fun same => plain (same ▸ List.mem_cons_self)
    rw [List.cons_append, sprintf, ih later, List.cons_append]
    -- the side condition of the plain equation: this is no conversion
    intros
    contradiction

theorem numberInjective {i j : Int} (same : number i = number j) : i = j :=
  Decimal.renderInjective same

theorem numberOmits {c : Char} (digit : c.isDigit = false) (sign : c ≠ '-') (i : Int) :
    c ∉ number i :=
  Decimal.renderOmits digit sign i

theorem numberSpaceless {i : Int} {c : Char} (mem : c ∈ number i) : isSpace c = false := by
  rcases Decimal.renderChars mem with digit | sign
  · have range : 48 ≤ c.toNat ∧ c.toNat ≤ 57 := Char.isDigit_iff_toNat.mp digit
    simp only [isSpace, Bool.or_eq_false_iff, Bool.and_eq_false_iff, decide_eq_false_iff_not,
      beq_eq_false_iff_ne]
    omega
  · subst sign
    decide

theorem trimmedNumber (i : Int) : trimmed (number i) = number i := by
  have front : (number i).dropWhile isSpace = number i := by
    cases h : number i with
    | nil => rfl
    | cons c rest =>
      have solid : isSpace c = false := numberSpaceless (i := i) (by rw [h]; exact List.mem_cons_self)
      simp [solid]
  have back : (number i).rdropWhile isSpace = number i := by
    rw [List.rdropWhile_eq_self_iff]
    intro nonempty space
    have solid := numberSpaceless (List.getLast_mem nonempty)
    rw [solid] at space
    contradiction
  rw [trimmed, front, back]

theorem toIntNumber {i : Int} (low : -2147483648 ≤ i) (high : i ≤ 2147483647) :
    toInt (number i) = i := by
  rw [toInt, trimmedNumber, number, Decimal.parseRender]
  exact if_pos ⟨low, high⟩

example : toInt "  +42 ".toList = 42 := rfl
example : toInt "99999999999".toList = 0 := rfl

end SerialModbus.Text
