import DMProxy.Text.Base64

/-!
# JSON values

The part of `json11` the platforms use: reading members of a parsed document, where
a value of another type answers with an empty default, and dumping an object of
strings.
-/

namespace DMProxy.Text

/-- What the program reads from a JSON number: the conversions it applies to the
stored `int` or `double`. -/
structure JsonNumber where
  /-- `int_value()` -/
  intValue : Int
  /-- `static_cast<uint64_t>(number_value())` -/
  unsignedValue : Nat
  /-- `number_value()` printed fixed with precision zero -/
  fixedText : Bytes
  deriving DecidableEq, Repr

/-- `JsonValue::number_value` of anything that is not a number. -/
def JsonNumber.zero : JsonNumber where
  intValue := 0
  unsignedValue := 0
  fixedText := ascii "0"

/-- A `json11::Json` value. -/
inductive Json where
  | null
  | bool (value : Bool)
  | number (value : JsonNumber)
  | string (value : Bytes)
  | array (items : List Json)
  | object (members : List (Bytes × Json))

namespace Json

/-- `Json::operator[] (const string &)`. -/
def member (key : Bytes) : Json → Json
  | .object members => ((members.find? fun entry => entry.1 == key).map Prod.snd).getD .null
  | _ => .null

/-- `Json::string_value`. -/
def stringValue : Json → Bytes
  | .string value => value
  | _ => []

/-- `Json::array_items`. -/
def arrayItems : Json → List Json
  | .array items => items
  | _ => []

/-- The number read by `number_value` or `int_value`. -/
def numberValue : Json → JsonNumber
  | .number value => value
  | _ => .zero

/-- `snprintf("\\u%04x")` of a control character. -/
def unicodeEscape (byte : UInt8) : Bytes :=
  let digit (nibble : UInt8) : UInt8 := if nibble < 10 then 48 + nibble else 87 + nibble
  ascii "\\u00" ++ [digit (byte >>> 4), digit (byte &&& 15)]

/-- The escaping loop of `dump(const string &, string &)`. -/
def escape : Bytes → Bytes
  | 0xe2 :: 0x80 :: 0xa8 :: rest => ascii "\\u2028" ++ escape rest
  | 0xe2 :: 0x80 :: 0xa9 :: rest => ascii "\\u2029" ++ escape rest
  | 92 :: rest => ascii "\\\\" ++ escape rest
  | 34 :: rest => ascii "\\\"" ++ escape rest
  | 8 :: rest => ascii "\\b" ++ escape rest
  | 12 :: rest => ascii "\\f" ++ escape rest
  | 10 :: rest => ascii "\\n" ++ escape rest
  | 13 :: rest => ascii "\\r" ++ escape rest
  | 9 :: rest => ascii "\\t" ++ escape rest
  | byte :: rest =>
      if byte ≤ 0x1f then unicodeEscape byte ++ escape rest else byte :: escape rest
  | [] => []

/-- `dump` of a string. -/
def dumpString (text : Bytes) : Bytes :=
  34 :: escape text ++ [34]

/-- `dump` of an object whose values are strings, in the order of the members. -/
def dumpStrings (members : List (Bytes × Bytes)) : Bytes :=
  ascii "\x7b" ++
    (ascii ", ").intercalate
      (members.map fun entry => dumpString entry.1 ++ ascii ": " ++ dumpString entry.2) ++
    ascii "\x7d"

/-- A character that a JSON string holds as it is. -/
def Printable (byte : UInt8) : Prop :=
  0x20 ≤ byte ∧ byte < 0x80 ∧ byte ≠ 34 ∧ byte ≠ 92

instance (byte : UInt8) : Decidable (Printable byte) :=
  inferInstanceAs (Decidable (_ ∧ _))

theorem printable_of_mem_base64Alphabet : ∀ char ∈ base64Alphabet, Printable char := by
  decide

/-- Printable text is not escaped. -/
theorem escape_of_printable {text : Bytes} (printable : ∀ byte ∈ text, Printable byte) :
    escape text = text := by
  induction text with
  | nil => rfl
  | cons byte text ih =>
      have here := printable byte List.mem_cons_self
      have later := ih fun other member => printable other (List.mem_cons_of_mem byte member)
      rw [escape, if_neg, later]
      · intro control
        exact absurd (UInt8.le_trans here.1 control) (by decide)
      iterate 2
        · intro rest same
          subst same
          exact absurd here (by decide)
      all_goals
        intro same
        subst same
        exact absurd here (by decide)

theorem dumpString_base64Encode (bytes : Bytes) :
    dumpString (base64Encode bytes) = 34 :: base64Encode bytes ++ [34] := by
  rw [dumpString, escape_of_printable]
  intro char member
  exact printable_of_mem_base64Alphabet char (mem_base64Encode bytes char member)

end Json

end DMProxy.Text
