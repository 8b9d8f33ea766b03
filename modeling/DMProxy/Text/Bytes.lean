import Mathlib.Data.List.DropRight

/-!
# Byte strings

A C++ `std::string` is a sequence of bytes.  This module has the operations the
program uses on them, with the meaning they have in the classic "C" locale.
-/

namespace DMProxy.Text

/-- The contents of a `std::string`. -/
abbrev Bytes := List UInt8

/-- What holds of the bytes of a string is decided byte by byte. -/
instance (priority := high) (bytes : Bytes) (holds : UInt8 → Prop) [DecidablePred holds] :
    Decidable (∀ byte ∈ bytes, holds byte) :=
  List.decidableBAll holds bytes

/-- The bytes of an ASCII literal. -/
def ascii (literal : String) : Bytes :=
  literal.toList.map fun char => char.toNat.toUInt8

/-- `std::isspace`: blank, tab, line feed, vertical tab, form feed, carriage
return. -/
def isSpace (byte : UInt8) : Bool :=
  byte == 32 || (9 ≤ byte && byte ≤ 13)

/-- `boost::trim`: drop white space at both ends. -/
def trim (text : Bytes) : Bytes :=
  (text.dropWhile isSpace).rdropWhile isSpace

/-- `std::string::find_first_of` of one character; `none` stands for `npos`. -/
def findFirstOf (byte : UInt8) (text : Bytes) : Option Nat :=
  text.findIdx? (· == byte)

/-- `str_is_num`: every character is a decimal digit. -/
def strIsNum (text : Bytes) : Bool :=
  text.all fun byte => 48 ≤ byte && byte ≤ 57

/-- The text a `const char *` to the bytes denotes: everything before the first
NUL. -/
def cString (text : Bytes) : Bytes :=
  text.takeWhile (· != 0)

theorem cString_of_noNul {text : Bytes} (noNul : 0 ∉ text) : cString text = text := by
  rw [cString, List.takeWhile_eq_self_iff]
  intro byte member
  simp only [bne_iff_ne]
  intro zero
  exact noNul (zero ▸ member)

/-- A NUL ends the text before it. -/
theorem cString_append {text : Bytes} (noNul : 0 ∉ text) (rest : Bytes) :
    cString (text ++ 0 :: rest) = text := by
  have same := cString_of_noNul noNul
  rw [cString] at same ⊢
  rw [List.takeWhile_append, same, if_pos rfl]
  simp

/-- The decimal digits of a number, as `std::to_string` writes them. -/
def decimal (value : Nat) : Bytes :=
  (Nat.toDigits 10 value).map fun char => char.toNat.toUInt8

theorem digit_of_mem_decimal {value : Nat} {byte : UInt8} (member : byte ∈ decimal value) :
    48 ≤ byte.toNat ∧ byte.toNat ≤ 57 := by
  rcases List.mem_map.mp member with ⟨char, listed, rfl⟩
  have digit := Nat.isDigit_of_mem_toDigits (by decide) (by decide) listed
  have range := Char.isDigit_iff_toNat.mp digit
  have low : '0'.toNat = 48 := rfl
  have high : '9'.toNat = 57 := rfl
  rw [Nat.toUInt8, UInt8.toNat_ofNat']
  omega

/-- The number of values of an `unsigned int`. -/
def unsignedRange : Nat := 0x100000000

/-- The `uint32_t` stored little-endian in the first four bytes. -/
def littleEndian32 (bytes : Bytes) : Nat :=
  (bytes.take 4).foldr (fun byte high => byte.toNat + 256 * high) 0

/-- The `uint32_t` stored big-endian in the first four bytes. -/
def bigEndian32 (bytes : Bytes) : Nat :=
  (bytes.take 4).foldl (fun high byte => 256 * high + byte.toNat) 0

/-- The four bytes of a `uint32_t`, least significant first. -/
def toLittleEndian32 (value : Nat) : Bytes :=
  [value.toUInt8, (value / 256).toUInt8, (value / 65536).toUInt8, (value / 16777216).toUInt8]

/-- The four bytes of a `uint32_t`, most significant first. -/
def toBigEndian32 (value : Nat) : Bytes :=
  (toLittleEndian32 value).reverse

/-- Whether `pattern` occurs in `text`. -/
def contains (pattern : Bytes) : Bytes → Bool
  | [] => pattern.isEmpty
  | byte :: rest => pattern.isPrefixOf (byte :: rest) || contains pattern rest

@[simp] theorem length_toLittleEndian32 (value : Nat) : (toLittleEndian32 value).length = 4 := rfl

@[simp] theorem length_toBigEndian32 (value : Nat) : (toBigEndian32 value).length = 4 := rfl

theorem littleEndian32_lt (bytes : Bytes) : littleEndian32 bytes < unsignedRange := by
  rw [littleEndian32, unsignedRange]
  have step : ∀ (byte : UInt8) (high bound : Nat), high < bound →
      byte.toNat + 256 * high < 256 * bound := by
    intro byte high bound below
    have small := byte.toNat_lt
    omega
  rcases bytes with - | ⟨first, - | ⟨second, - | ⟨third, - | ⟨fourth, rest⟩⟩⟩⟩
  · decide
  · exact (step first 0 1 (by decide)).trans (by decide)
  · exact (step first _ 256 (step second 0 1 (by decide))).trans (by decide)
  · exact (step first _ 65536 (step second _ 256 (step third 0 1 (by decide)))).trans (by decide)
  · have upper := step second _ 65536 (step third _ 256 (step fourth 0 1 (by decide)))
    exact step first _ 16777216 upper

/-- A word that was stored is read back. -/
theorem littleEndian32_append {value : Nat} (fits : value < unsignedRange) (rest : Bytes) :
    littleEndian32 (toLittleEndian32 value ++ rest) = value := by
  simp only [littleEndian32, toLittleEndian32, List.cons_append, List.nil_append,
    List.take_succ_cons, List.take_zero, List.foldr_cons, List.foldr_nil, UInt8.toNat_ofNat',
    Nat.toUInt8]
  rw [unsignedRange] at fits
  omega

theorem bigEndian32_append {value : Nat} (fits : value < unsignedRange) (rest : Bytes) :
    bigEndian32 (toBigEndian32 value ++ rest) = value := by
  simp only [bigEndian32, toBigEndian32, toLittleEndian32, List.reverse_cons, List.reverse_nil,
    List.cons_append, List.nil_append, List.take_succ_cons, List.take_zero, List.foldl_cons,
    List.foldl_nil, UInt8.toNat_ofNat', Nat.toUInt8]
  rw [unsignedRange] at fits
  omega

/-- The first occurrence of a separator is right after a prefix without it. -/
theorem findFirstOf_append {separator : UInt8} {front : Bytes} (absent : separator ∉ front)
    (rest : Bytes) :
    findFirstOf separator (front ++ separator :: rest) = some front.length := by
  induction front with
  | nil => simp [findFirstOf, List.findIdx?_cons]
  | cons byte front ih =>
      simp only [List.mem_cons, not_or] at absent
      have differs : (byte == separator) = false := by simpa using Ne.symm absent.1
      have tail := ih absent.2
      simp only [findFirstOf] at tail ⊢
      simp [List.findIdx?_cons, differs, tail]

/-- Cutting a text at the first occurrence of a separator and gluing the parts
back together gives the text. -/
theorem take_append_of_findFirstOf {separator : UInt8} {text : Bytes} {position : Nat}
    (found : findFirstOf separator text = some position) :
    text.take position ++ separator :: text.drop (position + 1) = text := by
  induction text generalizing position with
  | nil => simp [findFirstOf] at found
  | cons byte rest ih =>
      simp only [findFirstOf, List.findIdx?_cons] at found
      split at found
      next here =>
        cases found
        simp [eq_of_beq here]
      next =>
        simp only [Option.map_eq_some_iff] at found
        rcases found with ⟨inner, foundInner, rfl⟩
        simp [ih foundInner]

end DMProxy.Text
