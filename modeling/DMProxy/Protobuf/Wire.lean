import DMProxy.Text.Bytes

/-!
# The wire format of protocol buffers

A message is the concatenation of its fields.  A field is a tag, which tells the number and the
type of the field, and a value: a number in groups of seven bits, bytes behind their length, or
four or eight bytes.
-/

namespace DMProxy.Protobuf

open DMProxy.Text

/-! ## Numbers -/

/-- The number of values of a `uint64`. -/
def wordRange : Nat := 0x10000000000000000

/-- The loop of `WriteVarint64ToArray`; the first argument bounds its rounds. -/
def varintLoop : Nat → Nat → Bytes
  | 0, value => [value.toUInt8]
  | rounds + 1, value =>
      if value < 0x80 then [value.toUInt8]
      else (value % 0x80 + 0x80).toUInt8 :: varintLoop rounds (value / 0x80)

/-- A number, lowest seven bits first; every byte but the last one has its high bit set. -/
def varint (value : Nat) : Bytes :=
  varintLoop 9 value

/-- The number at the front of a text of at most so many bytes, and what follows it. -/
def readVarintLoop : Nat → Bytes → Option (Nat × Bytes)
  | 0, _ => none
  | _ + 1, [] => none
  | rounds + 1, byte :: rest =>
      if byte.toNat < 0x80 then some (byte.toNat, rest)
      else (readVarintLoop rounds rest).map fun read =>
        (byte.toNat - 0x80 + 0x80 * read.1, read.2)

/-- `ReadVarint64`: the bits beyond a `uint64` are lost. -/
def readVarint (text : Bytes) : Option (Nat × Bytes) :=
  (readVarintLoop 10 text).map fun read => (read.1 % wordRange, read.2)

/-- The number fits into one byte more than so many rounds. -/
def Short : Nat → Nat → Prop
  | 0, value => value < 0x80
  | rounds + 1, value => Short rounds (value / 0x80)

theorem toNat_toUInt8 {value : Nat} (byte : value < 0x100) : value.toUInt8.toNat = value := by
  rw [Nat.toUInt8_eq, UInt8.toNat_ofNat', Nat.mod_eq_of_lt byte]

theorem readVarintLoop_append {rounds value : Nat} (short : Short rounds value) (rest : Bytes) :
    readVarintLoop (rounds + 1) (varintLoop rounds value ++ rest) = some (value, rest) := by
  induction rounds generalizing value with
  | zero =>
      simp only [Short] at short
      simp [varintLoop, readVarintLoop, toNat_toUInt8 (by omega : value < 0x100), short]
  | succ rounds ih =>
      rw [varintLoop]
      split
      next small =>
        simp [readVarintLoop, toNat_toUInt8 (by omega : value < 0x100), small]
      next large =>
        have byte := toNat_toUInt8 (by omega : value % 0x80 + 0x80 < 0x100)
        rw [List.cons_append, readVarintLoop, byte, if_neg (by omega), ih short, Option.map_some]
        exact congrArg (fun value => some (value, rest)) (by omega)

theorem short_of_lt {value : Nat} (bounded : value < wordRange) : Short 9 value := by
  simp only [Short, wordRange] at bounded ⊢
  omega

/-- A number is read back, whatever follows it. -/
theorem readVarint_append {value : Nat} (bounded : value < wordRange) (rest : Bytes) :
    readVarint (varint value ++ rest) = some (value, rest) := by
  rw [readVarint, varint, readVarintLoop_append (short_of_lt bounded), Option.map_some,
    Nat.mod_eq_of_lt bounded]

theorem length_varint_pos (value : Nat) : 0 < (varint value).length := by
  rw [varint, varintLoop]
  split <;> exact Nat.succ_pos _

/-! ## Fields -/

/-- The value of a field. -/
inductive Value where
  | varint (number : Nat)
  | fixed64 (bytes : Bytes)
  | delimited (bytes : Bytes)
  | fixed32 (bytes : Bytes)
  deriving DecidableEq, Repr

namespace Value

/-- `WireType`. -/
def wireType : Value → Nat
  | .varint _ => 0
  | .fixed64 _ => 1
  | .delimited _ => 2
  | .fixed32 _ => 5

def encode : Value → Bytes
  | .varint number => Protobuf.varint number
  | .fixed64 bytes | .fixed32 bytes => bytes
  | .delimited bytes => Protobuf.varint bytes.length ++ bytes

/-- The value of a type at the front of a text, and what follows it. -/
def read (wireType : Nat) (text : Bytes) : Option (Value × Bytes) :=
  match wireType with
  | 0 => (readVarint text).map fun read => (.varint read.1, read.2)
  | 1 => if 8 ≤ text.length then some (.fixed64 (text.take 8), text.drop 8) else none
  | 2 => do
      let (length, rest) ← readVarint text
      if length ≤ rest.length then some (.delimited (rest.take length), rest.drop length) else none
  | 5 => if 4 ≤ text.length then some (.fixed32 (text.take 4), text.drop 4) else none
  | _ => none

/-- The value is one of its type. -/
def Fits : Value → Prop
  | .varint number => number < wordRange
  | .fixed64 bytes => bytes.length = 8
  | .delimited bytes => bytes.length < wordRange
  | .fixed32 bytes => bytes.length = 4

instance : (value : Value) → Decidable value.Fits
  | .varint number => inferInstanceAs (Decidable (number < wordRange))
  | .fixed64 bytes => inferInstanceAs (Decidable (bytes.length = 8))
  | .delimited bytes => inferInstanceAs (Decidable (bytes.length < wordRange))
  | .fixed32 bytes => inferInstanceAs (Decidable (bytes.length = 4))

theorem wireType_lt (value : Value) : value.wireType < 8 := by
  cases value <;> simp [wireType]

theorem read_append {value : Value} (fits : value.Fits) (rest : Bytes) :
    read value.wireType (value.encode ++ rest) = some (value, rest) := by
  cases value with
  | varint number =>
      rw [wireType, encode, read, readVarint_append fits, Option.map_some]
  | fixed64 bytes | fixed32 bytes =>
      simp only [Fits] at fits
      simp [wireType, encode, read, fits]
  | delimited bytes =>
      rw [wireType, encode, read, List.append_assoc, readVarint_append fits]
      simp

end Value

/-- A field of a message. -/
structure Field where
  number : Nat
  value : Value
  deriving DecidableEq, Repr

namespace Field

/-- `MakeTag`. -/
def tag (field : Field) : Nat :=
  field.number * 8 + field.value.wireType

def encode (field : Field) : Bytes :=
  varint field.tag ++ field.value.encode

/-- The field at the front of a text, and what follows it.  A tag is a `uint32`, and no field has
the number zero. -/
def read (text : Bytes) : Option (Field × Bytes) := do
  let (tag, rest) ← readVarint text
  if tag < 8 ∨ unsignedRange ≤ tag then none
  else
    let (value, rest) ← Value.read (tag % 8) rest
    return (⟨tag / 8, value⟩, rest)

/-- The number is one that a field can have. -/
structure Fits (field : Field) : Prop where
  positive : 0 < field.number
  bounded : field.number < 0x20000000
  value : field.value.Fits

instance (field : Field) : Decidable field.Fits :=
  decidable_of_iff (0 < field.number ∧ field.number < 0x20000000 ∧ field.value.Fits)
    ⟨fun fits => ⟨fits.1, fits.2.1, fits.2.2⟩,
      fun fits => ⟨fits.positive, fits.bounded, fits.value⟩⟩

theorem read_append {field : Field} (fits : field.Fits) (rest : Bytes) :
    read (field.encode ++ rest) = some (field, rest) := by
  rcases fits with ⟨positive, bounded, valueFits⟩
  have low := field.value.wireType_lt
  have inside : field.tag < wordRange := by
    simp only [tag, wordRange]
    omega
  have valid : ¬(field.tag < 8 ∨ unsignedRange ≤ field.tag) := by
    simp only [tag, unsignedRange]
    omega
  have number : field.tag / 8 = field.number := by
    rw [tag]
    omega
  have wireType : field.tag % 8 = field.value.wireType := by
    rw [tag]
    omega
  rw [read, encode, List.append_assoc, readVarint_append inside, Option.bind_eq_bind,
    Option.bind_some]
  dsimp only
  rw [if_neg valid, number, wireType, Value.read_append valueFits, Option.bind_eq_bind,
    Option.bind_some]
  rfl

end Field

/-! ## Messages -/

/-- The fields of a message, one after the other. -/
def encode (fields : List Field) : Bytes :=
  fields.flatMap Field.encode

/-- The first argument bounds the number of fields. -/
def decodeLoop : Nat → Bytes → Option (List Field)
  | _, [] => some []
  | 0, _ :: _ => none
  | rounds + 1, byte :: text =>
      (Field.read (byte :: text)).bind fun read =>
        (decodeLoop rounds read.2).map (read.1 :: ·)

/-- The fields of a message. -/
def decode (text : Bytes) : Option (List Field) :=
  decodeLoop text.length text

/-- The value of a field; of a field that is repeated, the last one counts. -/
def lookup (number : Nat) (fields : List Field) : Option Value :=
  (fields.reverse.find? fun field => field.number == number).map Field.value

/-- The number in a field. -/
def numberOf (number : Nat) (fields : List Field) : Option Nat :=
  match lookup number fields with
  | some (.varint value) => some value
  | _ => none

/-- The bytes in a field. -/
def bytesOf (number : Nat) (fields : List Field) : Option Bytes :=
  match lookup number fields with
  | some (.delimited bytes) => some bytes
  | _ => none

/-- The fields of the message in a field. -/
def messageOf (number : Nat) (fields : List Field) : Option (List Field) :=
  (bytesOf number fields).bind decode

theorem encode_cons (field : Field) (fields : List Field) :
    encode (field :: fields) = field.encode ++ encode fields :=
  List.flatMap_cons

theorem length_fieldEncode_pos (field : Field) : 0 < field.encode.length := by
  rw [Field.encode, List.length_append]
  exact Nat.add_pos_left (length_varint_pos _) _

theorem length_encode_cons (field : Field) (fields : List Field) :
    (encode (field :: fields)).length = field.encode.length + (encode fields).length := by
  rw [encode_cons, List.length_append]

/-- A message is longer than the bytes in one of its fields. -/
theorem length_delimited_lt {number : Nat} {bytes : Bytes} {fields : List Field}
    (member : ⟨number, .delimited bytes⟩ ∈ fields) : bytes.length < (encode fields).length := by
  induction fields with
  | nil => cases member
  | cons field fields ih =>
      rw [length_encode_cons]
      rcases List.mem_cons.mp member with here | later
      · subst here
        have positive := length_varint_pos (Field.tag ⟨number, .delimited bytes⟩)
        simp only [Field.encode, Value.encode, List.length_append]
        omega
      · exact Nat.lt_add_left _ (ih later)

theorem decodeLoop_succ {text : Bytes} (nonempty : text ≠ []) (rounds : Nat) :
    decodeLoop (rounds + 1) text =
      (Field.read text).bind fun read => (decodeLoop rounds read.2).map (read.1 :: ·) := by
  cases text with
  | nil => exact absurd rfl nonempty
  | cons byte text => rfl

theorem decodeLoop_encode {fields : List Field} (fits : ∀ field ∈ fields, field.Fits)
    {rounds : Nat} (enough : (encode fields).length ≤ rounds) :
    decodeLoop rounds (encode fields) = some fields := by
  induction fields generalizing rounds with
  | nil => cases rounds <;> rfl
  | cons field fields ih =>
      have positive := length_fieldEncode_pos field
      rw [encode_cons] at enough ⊢
      rw [List.length_append] at enough
      cases rounds with
      | zero => omega
      | succ rounds =>
          have nonempty : field.encode ++ encode fields ≠ [] := by
            intro empty
            have none := congrArg List.length empty
            simp only [List.length_append, List.length_nil] at none
            omega
          rw [decodeLoop_succ nonempty, Field.read_append (fits field List.mem_cons_self),
            Option.bind_some,
            ih (fun other member => fits other (List.mem_cons_of_mem field member)) (by omega),
            Option.map_some]

/-- Decoding gives back the fields that were encoded. -/
theorem decode_encode {fields : List Field} (fits : ∀ field ∈ fields, field.Fits) :
    decode (encode fields) = some fields :=
  decodeLoop_encode fits (Nat.le_refl _)

/-- The number is one that a field can have, and the value is one of its type; bytes may be too
long. -/
def Field.Typed (field : Field) : Prop :=
  0 < field.number ∧ field.number < 0x20000000 ∧
    match field.value with
    | .delimited _ => True
    | value => value.Fits

/-- In a message that is not too long, no bytes are. -/
theorem decode_of_typed {fields : List Field} (typed : ∀ field ∈ fields, field.Typed)
    (short : (encode fields).length < wordRange) : decode (encode fields) = some fields := by
  refine decode_encode fun field member => ?_
  rcases typed field member with ⟨positive, bounded, valued⟩
  rcases field with ⟨number, value⟩
  refine ⟨positive, bounded, ?_⟩
  cases value with
  | delimited bytes => exact Nat.lt_trans (length_delimited_lt member) short
  | varint | fixed64 | fixed32 => exact valued

theorem length_lt_of_bytesOf {number : Nat} {fields : List Field} {bytes : Bytes}
    (found : bytesOf number fields = some bytes) : bytes.length < (encode fields).length := by
  simp only [bytesOf, lookup] at found
  split at found
  next bytes' same =>
    cases found
    rcases Option.map_eq_some_iff.mp same with ⟨⟨number', value⟩, listed, rfl⟩
    exact length_delimited_lt (List.mem_reverse.mp (List.mem_of_find?_eq_some listed))
  next => cases found

/-- The message in a field of a message that is not too long. -/
theorem messageOf_of_bytesOf {number : Nat} {fields inner : List Field}
    (found : bytesOf number fields = some (encode inner))
    (typed : ∀ field ∈ inner, field.Typed) (short : (encode fields).length < wordRange) :
    messageOf number fields = some inner ∧ (encode inner).length < wordRange := by
  have shorter := Nat.lt_trans (length_lt_of_bytesOf found) short
  refine ⟨?_, shorter⟩
  rw [messageOf, found, Option.bind_some, decode_of_typed typed shorter]

end DMProxy.Protobuf
