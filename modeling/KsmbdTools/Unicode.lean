import KsmbdTools.Bytes

/-! Unicode text as UTF-8 and as UTF-16 bytes, and back. -/

namespace KsmbdTools.Unicode
open Bytes

def utf8 (text : List Char) : List UInt8 := text.flatMap String.utf8EncodeChar

/-- One unit, or the surrogate pair of a character beyond the basic plane. -/
def utf16Char (char : Char) : List UInt16 :=
  let code := char.toNat
  if code < 0x10000 then [UInt16.ofNat code]
  else [UInt16.ofNat (0xD800 + (code - 0x10000) / 0x400), UInt16.ofNat (0xDC00 + (code - 0x10000) % 0x400)]

def units (text : List Char) : Nat := (text.flatMap utf16Char).length

def utf16 (little : Bool) (text : List Char) : List UInt8 :=
  (text.flatMap utf16Char).flatMap fun unit => encode little 2 unit.toNat

theorem utf8_append (first second : List Char) : utf8 (first ++ second) = utf8 first ++ utf8 second :=
  List.flatMap_append

theorem length_utf8_cons (char : Char) (text : List Char) :
    (utf8 (char :: text)).length = (String.utf8EncodeChar char).length + (utf8 text).length := by
  simp [utf8]

theorem units_cons (char : Char) (text : List Char) : units (char :: text) = (utf16Char char).length + units text := by
  simp [units]

theorem units_append (first second : List Char) : units (first ++ second) = units first + units second := by
  simp [units]

@[simp] theorem length_utf16 (little : Bool) (text : List Char) : (utf16 little text).length = 2 * units text := by
  simp [utf16, units, List.length_flatMap, Nat.mul_comm]

/-! Sizes. -/

theorem length_utf16Char (char : Char) : (utf16Char char).length = if char.toNat < 0x10000 then 1 else 2 := by
  simp only [utf16Char]
  split <;> rfl

theorem length_utf8EncodeChar (char : Char) : (String.utf8EncodeChar char).length =
    if char.toNat < 0x80 then 1 else if char.toNat < 0x800 then 2 else if char.toNat < 0x10000 then 3 else 4 := by
  have code : char.val.toNat = char.toNat := rfl
  unfold String.utf8EncodeChar
  simp only [code, Nat.le_iff_lt_add_one]
  split
  · simp_all
  · split
    · simp_all
    · split <;> simp_all

/-- Bytes and units are as many only for an ASCII character. -/
theorem length_char_eq_iff (char : Char) :
    (String.utf8EncodeChar char).length = (utf16Char char).length ↔ char.toNat < 0x80 := by
  rw [length_utf16Char, length_utf8EncodeChar]
  split_ifs <;> omega

theorem length_char_le (char : Char) : (utf16Char char).length ≤ (String.utf8EncodeChar char).length := by
  rw [length_utf16Char, length_utf8EncodeChar]
  split_ifs <;> omega

theorem units_le_length (text : List Char) : units text ≤ (utf8 text).length := by
  induction text with
  | nil => exact Nat.le_refl 0
  | cons char rest ih =>
    rw [units_cons, length_utf8_cons]
    exact Nat.add_le_add (length_char_le char) ih

theorem length_eq_units_iff (text : List Char) : (utf8 text).length = units text ↔ ∀ char ∈ text, char.toNat < 0x80 := by
  induction text with
  | nil => simp [utf8, units]
  | cons char rest ih =>
    have one := length_char_le char
    have others := units_le_length rest
    rw [units_cons, length_utf8_cons, List.forall_mem_cons, ← ih, ← length_char_eq_iff]
    omega

theorem length_of_ascii {text : List Char} (ascii : ∀ char ∈ text, char.toNat < 0x80) : units text = text.length := by
  induction text with
  | nil => rfl
  | cons char rest ih =>
    rw [units_cons, length_utf16Char, ih fun other member => ascii other (List.mem_cons_of_mem _ member),
      if_pos (Nat.lt_trans (ascii char List.mem_cons_self) (by decide)), List.length_cons, Nat.add_comm]

theorem zero_mem_utf8EncodeChar {char : Char} (zero : 0 ∈ String.utf8EncodeChar char) : char = '\x00' := by
  have ascii : char.toNat = 0 → char = '\x00' := fun same => Char.toNat_inj.mp same
  have code : char.val.toNat = char.toNat := rfl
  have byte : ∀ value, (0 : UInt8) = UInt8.ofNat value → value % 256 = 0 := by
    intro value same
    simpa using (congrArg UInt8.toNat same).symm
  simp only [String.utf8EncodeChar, code] at zero
  split_ifs at zero <;> simp only [List.mem_cons, List.not_mem_nil, or_false] at zero
  · have low := byte _ zero
    exact ascii (by omega)
  · rcases zero with same | same <;> have low := byte _ same <;> omega
  · rcases zero with same | same | same <;> have low := byte _ same <;> omega
  · rcases zero with same | same | same | same <;> have low := byte _ same <;> omega

theorem zero_not_mem_utf8 {text : List Char} (none : '\x00' ∉ text) : 0 ∉ utf8 text := by
  intro zero
  obtain ⟨char, member, zero⟩ := List.mem_flatMap.mp zero
  rw [zero_mem_utf8EncodeChar zero] at member
  exact none member

/-! Decoding. -/

def utf8Decode? (bytes : List UInt8) : Option (List Char) := bytes.toByteArray.utf8Decode?.map Array.toList

theorem utf8Decode?_utf8 (text : List Char) : utf8Decode? (utf8 text) = some text := by
  have decoded : (utf8 text).toByteArray.utf8Decode? = some text.toArray := List.utf8Decode?_utf8Encode
  rw [utf8Decode?, decoded]
  rfl

def unitsOf? (little : Bool) : List UInt8 → Option (List UInt16)
  | [] => some []
  | [_] => none
  | first :: second :: rest => (UInt16.ofNat (decode little [first, second]) :: ·) <$> unitsOf? little rest

def charsOf? : List UInt16 → Option (List Char)
  | [] => some []
  | unit :: rest =>
    if unit.toNat < 0xD800 ∨ 0xE000 ≤ unit.toNat then (Char.ofNat unit.toNat :: ·) <$> charsOf? rest
    else match rest with
      | [] => none
      | low :: rest =>
        if unit.toNat < 0xDC00 ∧ 0xDC00 ≤ low.toNat ∧ low.toNat < 0xE000 then
          (Char.ofNat (0x10000 + (unit.toNat - 0xD800) * 0x400 + (low.toNat - 0xDC00)) :: ·) <$> charsOf? rest
        else none

def utf16Decode? (little : Bool) (bytes : List UInt8) : Option (List Char) := unitsOf? little bytes >>= charsOf?

theorem unitsOf?_encode (little : Bool) (list : List UInt16) :
    unitsOf? little (list.flatMap fun unit => encode little 2 unit.toNat) = some list := by
  induction list with
  | nil => rfl
  | cons unit rest ih =>
    have back := decode_encode little (show unit.toNat < 256 ^ 2 from unit.toNat_lt)
    obtain ⟨first, second, bytes⟩ := List.length_eq_two.mp (length_encode little 2 unit.toNat)
    rw [bytes] at back
    rw [List.flatMap_cons, bytes]
    simp only [List.cons_append, List.nil_append, unitsOf?, back, ih, UInt16.ofNat_toNat]
    rfl

theorem charsOf?_append (char : Char) (list : List UInt16) :
    charsOf? (utf16Char char ++ list) = (char :: ·) <$> charsOf? list := by
  have valid : char.toNat < 0xD800 ∨ 0xE000 ≤ char.toNat ∧ char.toNat < 0x110000 := by
    have range := char.valid
    simp only [UInt32.isValidChar, Nat.isValidChar] at range
    have code : char.val.toNat = char.toNat := rfl
    omega
  simp only [utf16Char]
  split
  next basic =>
    have unit : (UInt16.ofNat char.toNat).toNat = char.toNat := UInt16.toNat_ofNat_of_lt' basic
    have plain : char.toNat < 0xD800 ∨ 0xE000 ≤ char.toNat := by omega
    rw [List.cons_append, List.nil_append, charsOf?.eq_def]
    simp only [unit, if_pos plain, Char.ofNat_toNat]
  next beyond =>
    have high : (UInt16.ofNat (0xD800 + (char.toNat - 0x10000) / 0x400)).toNat =
        0xD800 + (char.toNat - 0x10000) / 0x400 := UInt16.toNat_ofNat_of_lt' (by rw [UInt16.size]; omega)
    have low : (UInt16.ofNat (0xDC00 + (char.toNat - 0x10000) % 0x400)).toNat =
        0xDC00 + (char.toNat - 0x10000) % 0x400 := UInt16.toNat_ofNat_of_lt' (by rw [UInt16.size]; omega)
    have code : 0x10000 + (0xD800 + (char.toNat - 0x10000) / 0x400 - 0xD800) * 0x400 +
        (0xDC00 + (char.toNat - 0x10000) % 0x400 - 0xDC00) = char.toNat := by omega
    rw [List.cons_append, List.cons_append, List.nil_append, charsOf?.eq_def]
    simp only [high, low]
    rw [if_neg (by omega), if_pos (by omega), code, Char.ofNat_toNat]

theorem utf16Decode?_utf16 (little : Bool) (text : List Char) : utf16Decode? little (utf16 little text) = some text := by
  have chars : charsOf? (text.flatMap utf16Char) = some text := by
    induction text with
    | nil => rfl
    | cons char rest ih => rw [List.flatMap_cons, charsOf?_append, ih]; rfl
  rw [utf16Decode?, utf16, unitsOf?_encode]
  exact chars

end KsmbdTools.Unicode
