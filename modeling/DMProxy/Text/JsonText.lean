import DMProxy.Text.Json

/-!
# The text of JSON documents

The parser of `json11`, on the bytes that are left of the document.  A string is decoded, a
number is kept as it is written, and an object is the list of its members in the order of the
document, repetitions of a key included.  Of equal keys, the `std::map` keeps the last member.
-/

namespace DMProxy.Text

/-- What a JSON document says.  An object has the members of the text, in order and with
repetitions. -/
inductive JsonText where
  | null
  | bool (value : Bool)
  | number (literal : Bytes)
  | string (value : Bytes)
  | array (items : List JsonText)
  | object (members : List (Bytes × JsonText))

namespace JsonText

def isDigit (byte : UInt8) : Bool :=
  48 ≤ byte && byte ≤ 57

def isBlank (byte : UInt8) : Bool :=
  byte == 32 || byte == 13 || byte == 10 || byte == 9

/-- `consume_whitespace`. -/
def skipBlanks (text : Bytes) : Bytes :=
  text.dropWhile isBlank

/-! ## Numbers -/

/-- The digits in front of a text. -/
def digits (text : Bytes) : Bytes :=
  text.takeWhile isDigit

def afterDigits (text : Bytes) : Bytes :=
  text.dropWhile isDigit

/-- A sign, where there is one of those that are allowed. -/
def sign (allowed : Bytes) : Bytes → Bytes × Bytes
  | [] => ([], [])
  | byte :: rest => if byte ∈ allowed then ([byte], rest) else ([], byte :: rest)

/-- The integer part: a zero that no digit follows, or digits of which the first is not zero. -/
def integerPart : Bytes → Option (Bytes × Bytes)
  | [] => none
  | byte :: rest =>
      if byte = 48 then if (digits rest).isEmpty then some ([48], rest) else none
      else if isDigit byte then some (byte :: digits rest, afterDigits rest)
      else none

/-- The digits behind a sign or a point, of which there has to be one. -/
def someDigits (front text : Bytes) : Option (Bytes × Bytes) :=
  if (digits text).isEmpty then none else some (front ++ digits text, afterDigits text)

def fractionPart : Bytes → Option (Bytes × Bytes)
  | [] => some ([], [])
  | byte :: rest => if byte = 46 then someDigits [46] rest else some ([], byte :: rest)

def exponentPart : Bytes → Option (Bytes × Bytes)
  | [] => some ([], [])
  | byte :: rest =>
      if byte = 101 ∨ byte = 69 then
        someDigits (byte :: (sign [43, 45] rest).1) (sign [43, 45] rest).2
      else some ([], byte :: rest)

/-- `parse_number`: the number as it is written, and what follows it. -/
def parseNumber (text : Bytes) : Option (Bytes × Bytes) := do
  let (minus, unsigned) := sign [45] text
  let (integer, afterInteger) ← integerPart unsigned
  let (fraction, afterFraction) ← fractionPart afterInteger
  let (exponent, rest) ← exponentPart afterFraction
  return (minus ++ integer ++ fraction ++ exponent, rest)

/-- The text is a number and nothing else. -/
def IsNumber (text : Bytes) : Prop :=
  parseNumber text = some (text, [])

instance (text : Bytes) : Decidable (IsNumber text) :=
  inferInstanceAs (Decidable (_ = _))

/-! ## Strings -/

/-- `encode_utf8`. -/
def encodeUtf8 (point : Nat) : Bytes :=
  if point < 0x80 then [point.toUInt8]
  else if point < 0x800 then [(point / 0x40 + 0xc0).toUInt8, (point % 0x40 + 0x80).toUInt8]
  else if point < 0x10000 then
    [(point / 0x1000 + 0xe0).toUInt8, (point / 0x40 % 0x40 + 0x80).toUInt8,
      (point % 0x40 + 0x80).toUInt8]
  else
    [(point / 0x40000 + 0xf0).toUInt8, (point / 0x1000 % 0x40 + 0x80).toUInt8,
      (point / 0x40 % 0x40 + 0x80).toUInt8, (point % 0x40 + 0x80).toUInt8]

/-- The value of a hexadecimal digit. -/
def hexValue (byte : UInt8) : Option Nat :=
  if isDigit byte then some (byte.toNat - 48)
  else if 97 ≤ byte && byte ≤ 102 then some (byte.toNat - 87)
  else if 65 ≤ byte && byte ≤ 70 then some (byte.toNat - 55)
  else none

/-- The code point of the four digits of an escape. -/
def hexPoint (first second third fourth : UInt8) : Option Nat := do
  return 0x1000 * (← hexValue first) + 0x100 * (← hexValue second) +
    0x10 * (← hexValue third) + (← hexValue fourth)

/-- The character of a short escape. -/
def shortEscape (byte : UInt8) : Option UInt8 :=
  if byte = 98 then some 8
  else if byte = 102 then some 12
  else if byte = 110 then some 10
  else if byte = 114 then some 13
  else if byte = 116 then some 9
  else if byte = 34 ∨ byte = 92 ∨ byte = 47 then some byte
  else none

/-- What `encode_utf8` adds for the last escaped code point, if there is one. -/
def pendingText (lastEscaped : Option Nat) : Bytes :=
  (lastEscaped.map encodeUtf8).getD []

/-- `parse_string`, behind the opening quote.  A high surrogate waits for a low one. -/
def parseString (out : Bytes) (lastEscaped : Option Nat) : Bytes → Option (Bytes × Bytes)
  | [] => none
  | 34 :: rest => some (out ++ pendingText lastEscaped, rest)
  | 92 :: 117 :: first :: second :: third :: fourth :: rest =>
      match hexPoint first second third fourth with
      | none => none
      | some point =>
          match lastEscaped with
          | none => parseString out (some point) rest
          | some high =>
              if 0xd800 ≤ high ∧ high ≤ 0xdbff ∧ 0xdc00 ≤ point ∧ point ≤ 0xdfff then
                parseString
                  (out ++ encodeUtf8 ((high - 0xd800) * 0x400 + (point - 0xdc00) + 0x10000))
                  none rest
              else parseString (out ++ encodeUtf8 high) (some point) rest
  | 92 :: byte :: rest =>
      match shortEscape byte with
      | none => none
      | some char => parseString (out ++ pendingText lastEscaped ++ [char]) none rest
  | byte :: rest =>
      if byte ≤ 0x1f then none
      else parseString (out ++ pendingText lastEscaped ++ [byte]) none rest

/-! ## Documents -/

/-- `max_depth`. -/
def maxDepth : Nat := 200

/-- `expect`, on the text that begins with the character just read. -/
def expect (expected : Bytes) (result : JsonText) (text : Bytes) : Option (JsonText × Bytes) :=
  if expected <+: text then some (result, text.drop expected.length) else none

mutual

/-- `parse_json`.  The first argument bounds the recursion. -/
def parseJson : Nat → Nat → Bytes → Option (JsonText × Bytes)
  | 0, _, _ => none
  | fuel + 1, depth, text =>
      if depth > maxDepth then none
      else
        match skipBlanks text with
        | [] => none
        | byte :: rest =>
            if byte = 45 ∨ isDigit byte then
              (parseNumber (byte :: rest)).map fun parsed => (.number parsed.1, parsed.2)
            else if byte = 116 then expect (ascii "true") (.bool true) (byte :: rest)
            else if byte = 102 then expect (ascii "false") (.bool false) (byte :: rest)
            else if byte = 110 then expect (ascii "null") .null (byte :: rest)
            else if byte = 34 then
              (parseString [] none rest).map fun parsed => (.string parsed.1, parsed.2)
            else if byte = 123 then
              match skipBlanks rest with
              | 125 :: rest => some (.object [], rest)
              | _ => (parseMembers fuel depth rest).map fun parsed => (.object parsed.1, parsed.2)
            else if byte = 91 then
              match skipBlanks rest with
              | 93 :: rest => some (.array [], rest)
              | _ => (parseItems fuel depth rest).map fun parsed => (.array parsed.1, parsed.2)
            else none

/-- The loop of `parse_json` over the members of an object, up to the closing brace. -/
def parseMembers : Nat → Nat → Bytes → Option (List (Bytes × JsonText) × Bytes)
  | 0, _, _ => none
  | fuel + 1, depth, text =>
      match skipBlanks text with
      | 34 :: rest =>
          (parseString [] none rest).bind fun key =>
            match skipBlanks key.2 with
            | 58 :: rest =>
                (parseJson fuel (depth + 1) rest).bind fun value =>
                  match skipBlanks value.2 with
                  | 125 :: rest => some ([(key.1, value.1)], rest)
                  | 44 :: rest =>
                      (parseMembers fuel depth rest).map fun others =>
                        ((key.1, value.1) :: others.1, others.2)
                  | _ => none
            | _ => none
      | _ => none

/-- The loop over the elements of an array, up to the closing bracket. -/
def parseItems : Nat → Nat → Bytes → Option (List JsonText × Bytes)
  | 0, _, _ => none
  | fuel + 1, depth, text =>
      (parseJson fuel (depth + 1) text).bind fun item =>
        match skipBlanks item.2 with
        | 93 :: rest => some ([item.1], rest)
        | 44 :: rest =>
            (parseItems fuel depth rest).map fun others => (item.1 :: others.1, others.2)
        | _ => none

end

/-- `Json::parse`: only blanks may follow the value.  Of two levels of the recursion, one has
taken a character. -/
def parse (document : Bytes) : Option JsonText :=
  (parseJson (2 * document.length + 2) 0 document).bind fun parsed =>
    if skipBlanks parsed.2 = [] then some parsed.1 else none

/-! ## What follows a number -/

/-- No byte of a number comes first. -/
def Closed (tail : Bytes) : Prop :=
  ∀ byte ∈ tail.head?, isDigit byte = false ∧ byte ∉ ascii ".eE+-"

theorem digits_append {tail : Bytes} (closed : Closed tail) (text : Bytes) :
    digits (text ++ tail) = digits text ∧
      afterDigits (text ++ tail) = afterDigits text ++ tail := by
  induction text with
  | nil =>
      cases tail with
      | nil => exact ⟨rfl, rfl⟩
      | cons byte tail =>
          have other := (closed byte rfl).1
          simp [digits, afterDigits, other]
  | cons byte text ih =>
      simp only [digits, afterDigits] at ih
      simp only [digits, afterDigits, List.cons_append, List.takeWhile_cons, List.dropWhile_cons]
      split
      next => exact ⟨congrArg (byte :: ·) ih.1, ih.2⟩
      next => exact ⟨rfl, rfl⟩

theorem sign_append {tail allowed : Bytes} (subset : ∀ byte ∈ allowed, byte ∈ ascii ".eE+-")
    (closed : Closed tail) (text : Bytes) :
    sign allowed (text ++ tail) = ((sign allowed text).1, (sign allowed text).2 ++ tail) := by
  cases text with
  | nil =>
      cases tail with
      | nil => rfl
      | cons byte tail =>
          have other := (closed byte rfl).2
          simp only [List.nil_append, sign]
          rw [if_neg fun member => other (subset byte member)]
  | cons byte text =>
      simp only [List.cons_append, sign]
      split <;> rfl

/-- A part of a number is the same when something else follows. -/
def Local (part : Bytes → Option (Bytes × Bytes)) : Prop :=
  ∀ tail, Closed tail → ∀ text,
    part (text ++ tail) = (part text).map fun parsed => (parsed.1, parsed.2 ++ tail)

theorem local_someDigits (front : Bytes) : Local (someDigits front) := by
  intro tail closed text
  rcases digits_append closed text with ⟨taken, left⟩
  simp only [someDigits, taken, left]
  split <;> rfl

theorem local_integerPart : Local integerPart := by
  intro tail closed text
  cases text with
  | nil =>
      cases tail with
      | nil => rfl
      | cons byte tail =>
          have digit := (closed byte rfl).1
          have other : byte ≠ 48 := by
            intro same
            subst same
            cases digit
          simp [integerPart, other, digit]
  | cons byte text =>
      rcases digits_append closed text with ⟨taken, left⟩
      simp only [List.cons_append, integerPart, taken, left]
      split
      next => split <;> rfl
      next => split <;> rfl

theorem local_fractionPart : Local fractionPart := by
  intro tail closed text
  cases text with
  | nil =>
      cases tail with
      | nil => rfl
      | cons byte tail =>
          have other : byte ≠ 46 := by
            intro same
            subst same
            exact (closed 46 rfl).2 (by decide)
          simp [fractionPart, other]
  | cons byte text =>
      simp only [List.cons_append, fractionPart]
      split
      next => exact local_someDigits [46] tail closed text
      next => rfl

theorem local_exponentPart : Local exponentPart := by
  intro tail closed text
  cases text with
  | nil =>
      cases tail with
      | nil => rfl
      | cons byte tail =>
          have lower : byte ≠ 101 := by
            intro same
            subst same
            exact (closed 101 rfl).2 (by decide)
          have upper : byte ≠ 69 := by
            intro same
            subst same
            exact (closed 69 rfl).2 (by decide)
          simp [exponentPart, lower, upper]
  | cons byte text =>
      simp only [List.cons_append, exponentPart]
      split
      next =>
        rw [sign_append (by decide) closed]
        exact local_someDigits _ tail closed _
      next => rfl

theorem local_parseNumber : Local parseNumber := by
  intro tail closed text
  simp only [parseNumber, sign_append (show ∀ byte ∈ [45], byte ∈ ascii ".eE+-" by decide) closed,
    local_integerPart tail closed]
  cases integerPart (sign [45] text).2 with
  | none => rfl
  | some integer =>
      simp only [Option.map_some, Option.bind_eq_bind, Option.bind_some,
        local_fractionPart tail closed]
      cases fractionPart integer.2 with
      | none => rfl
      | some fraction =>
          simp only [Option.map_some, Option.bind_some, local_exponentPart tail closed]
          cases exponentPart fraction.2 <;> rfl

/-! ## What a number is made of -/

/-- A byte of a number. -/
def NumberByte (byte : UInt8) : Prop :=
  isDigit byte = true ∨ byte ∈ ascii ".eE+-"

instance (byte : UInt8) : Decidable (NumberByte byte) :=
  inferInstanceAs (Decidable (_ ∨ _))

/-- A part of a number is the front of the text, and made of bytes of numbers. -/
def Cuts (part : Bytes → Option (Bytes × Bytes)) : Prop :=
  ∀ text taken rest, part text = some (taken, rest) →
    text = taken ++ rest ∧ ∀ byte ∈ taken, NumberByte byte

theorem digits_append_afterDigits (text : Bytes) : digits text ++ afterDigits text = text :=
  List.takeWhile_append_dropWhile

theorem numberByte_of_mem_digits {text : Bytes} {byte : UInt8} (member : byte ∈ digits text) :
    NumberByte byte :=
  .inl (List.mem_takeWhile_imp member)

theorem cut_sign {allowed : Bytes} (subset : ∀ byte ∈ allowed, byte ∈ ascii ".eE+-")
    (text : Bytes) :
    text = (sign allowed text).1 ++ (sign allowed text).2 ∧
      ∀ byte ∈ (sign allowed text).1, NumberByte byte := by
  cases text with
  | nil => exact ⟨rfl, fun _ member => by cases member⟩
  | cons byte text =>
      simp only [sign]
      split
      next member =>
        refine ⟨rfl, fun other listed => ?_⟩
        cases List.mem_singleton.mp listed
        exact .inr (subset byte member)
      next => exact ⟨rfl, by simp⟩

theorem someDigits_eq_some {front text taken rest : Bytes}
    (cut : someDigits front text = some (taken, rest)) :
    front ++ text = taken ++ rest ∧ ∀ byte ∈ taken, byte ∈ front ∨ NumberByte byte := by
  simp only [someDigits] at cut
  split at cut
  next => cases cut
  next =>
    cases cut
    refine ⟨by rw [List.append_assoc, digits_append_afterDigits], fun byte member => ?_⟩
    exact (List.mem_append.mp member).imp_right numberByte_of_mem_digits

theorem cuts_integerPart : Cuts integerPart := by
  intro text taken rest cut
  cases text with
  | nil => cases cut
  | cons byte text =>
      simp only [integerPart] at cut
      split at cut
      next zero =>
        subst zero
        split at cut
        next =>
          cases cut
          exact ⟨rfl, by decide⟩
        next => cases cut
      next =>
        split at cut
        next digit =>
          cases cut
          refine ⟨by rw [List.cons_append, digits_append_afterDigits], fun other member => ?_⟩
          rcases List.mem_cons.mp member with rfl | later
          · exact .inl digit
          · exact numberByte_of_mem_digits later
        next => cases cut

theorem cuts_fractionPart : Cuts fractionPart := by
  intro text taken rest cut
  cases text with
  | nil =>
      cases cut
      exact ⟨rfl, by simp⟩
  | cons byte text =>
      simp only [fractionPart] at cut
      split at cut
      next point =>
        subst point
        rcases someDigits_eq_some cut with ⟨split, bytes⟩
        refine ⟨split, fun byte member => (bytes byte member).elim (fun listed => ?_) id⟩
        cases List.mem_singleton.mp listed
        decide
      next =>
        cases cut
        exact ⟨rfl, by simp⟩

theorem cuts_exponentPart : Cuts exponentPart := by
  intro text taken rest cut
  cases text with
  | nil =>
      cases cut
      exact ⟨rfl, by simp⟩
  | cons byte text =>
      simp only [exponentPart] at cut
      split at cut
      next marked =>
        have signed := cut_sign (show ∀ byte ∈ [43, 45], byte ∈ ascii ".eE+-" by decide) text
        rcases someDigits_eq_some cut with ⟨split, bytes⟩
        refine ⟨?_, fun other member => (bytes other member).elim (fun listed => ?_) id⟩
        · rw [← split, List.cons_append, ← signed.1]
        · rcases List.mem_cons.mp listed with rfl | later
          · rcases marked with rfl | rfl <;> decide
          · exact signed.2 other later
      next =>
        cases cut
        exact ⟨rfl, by simp⟩

theorem cuts_parseNumber : Cuts parseNumber := by
  intro text taken rest cut
  have signed := cut_sign (show ∀ byte ∈ [45], byte ∈ ascii ".eE+-" by decide) text
  simp only [parseNumber, Option.bind_eq_bind, Option.bind_eq_some_iff] at cut
  rcases cut with ⟨integer, cutInteger, fraction, cutFraction, exponent, cutExponent, last⟩
  cases last
  have one := cuts_integerPart _ _ _ cutInteger
  have two := cuts_fractionPart _ _ _ cutFraction
  have three := cuts_exponentPart _ _ _ cutExponent
  refine ⟨?_, fun byte member => ?_⟩
  · rw [List.append_assoc, List.append_assoc, List.append_assoc, ← three.1, ← two.1, ← one.1]
    exact signed.1
  · simp only [List.mem_append] at member
    rcases member with ((listed | listed) | listed) | listed
    · exact signed.2 byte listed
    · exact one.2 byte listed
    · exact two.2 byte listed
    · exact three.2 byte listed

/-! ## Parsing a member -/

theorem skipBlanks_cons {byte : UInt8} (other : isBlank byte = false) (text : Bytes) :
    skipBlanks (byte :: text) = byte :: text := by
  rw [skipBlanks, List.dropWhile_cons_of_neg (by simp [other])]

/-- A plain string is read up to its quote. -/
theorem parseString_of_printable {key : Bytes} (printable : ∀ byte ∈ key, Json.Printable byte)
    (out rest : Bytes) : parseString out none (key ++ 34 :: rest) = some (out ++ key, rest) := by
  induction key generalizing out with
  | nil => simp [parseString, pendingText]
  | cons byte key ih =>
      have here := printable byte List.mem_cons_self
      have later := ih (fun other member => printable other (List.mem_cons_of_mem byte member))
        (out ++ [byte])
      have plain : ¬byte ≤ 0x1f := fun control =>
        absurd (UInt8.le_trans here.1 control) (by decide)
      rw [List.cons_append, parseString, if_neg plain]
      · simpa [pendingText] using later
      · exact here.2.2.1
      · exact fun _ _ _ _ _ backslash => absurd backslash here.2.2.2
      · exact fun _ _ backslash => absurd backslash here.2.2.2

/-- A member with a plain key. -/
theorem parseMembers_key {key : Bytes} (printable : ∀ byte ∈ key, Json.Printable byte)
    (fuel depth : Nat) (rest : Bytes) :
    parseMembers (fuel + 1) depth (34 :: key ++ 34 :: 58 :: rest) =
      (parseJson fuel (depth + 1) rest).bind fun value =>
        match skipBlanks value.2 with
        | 125 :: rest => some ([(key, value.1)], rest)
        | 44 :: rest =>
            (parseMembers fuel depth rest).map fun others =>
              ((key, value.1) :: others.1, others.2)
        | _ => none := by
  rw [parseMembers, List.cons_append, skipBlanks_cons (by decide)]
  simp only [parseString_of_printable printable, List.nil_append, Option.bind_some,
    skipBlanks_cons (show isBlank 58 = false by decide)]

/-- Blanks in front of a member are skipped. -/
theorem parseMembers_blank (fuel depth : Nat) (text : Bytes) :
    parseMembers (fuel + 1) depth (32 :: text) = parseMembers (fuel + 1) depth text := by
  have skipped : skipBlanks (32 :: text) = skipBlanks text :=
    List.dropWhile_cons_of_pos rfl
  rw [parseMembers, parseMembers, skipped]

/-- An object that is not empty. -/
theorem parseJson_object {depth : Nat} (fuel : Nat) (shallow : depth ≤ maxDepth) (text : Bytes) :
    parseJson (fuel + 1) depth (123 :: 34 :: text) =
      (parseMembers fuel depth (34 :: text)).map fun parsed => (.object parsed.1, parsed.2) := by
  rw [parseJson, if_neg (Nat.not_lt.mpr shallow), skipBlanks_cons (by decide)]
  simp only [skipBlanks_cons (show isBlank 34 = false by decide)]
  rfl

/-- A number begins with a minus or a digit, and is not empty. -/
theorem parseNumber_starts {text literal rest : Bytes}
    (parsed : parseNumber text = some (literal, rest)) :
    (∃ byte more, text = byte :: more ∧ (byte = 45 ∨ isDigit byte = true)) ∧ literal ≠ [] := by
  simp only [parseNumber, Option.bind_eq_bind, Option.bind_eq_some_iff] at parsed
  rcases parsed with ⟨integer, cut, fraction, -, exponent, -, last⟩
  cases last
  cases text with
  | nil => cases cut
  | cons byte more =>
      refine ⟨⟨byte, more, rfl, ?_⟩, fun empty => ?_⟩
      · by_cases minus : byte = 45
        · exact .inl minus
        · right
          simp only [sign, List.mem_singleton, minus, if_false, integerPart] at cut
          split at cut
          next zero =>
            subst zero
            rfl
          next =>
            split at cut
            next digit => exact digit
            next => cases cut
      · have none : integer.1 = [] := by
          simp only [List.append_eq_nil_iff] at empty
          exact empty.1.1.2
        cases signed : (sign [45] (byte :: more)).2 with
        | nil =>
            rw [signed] at cut
            cases cut
        | cons first others =>
            rw [signed] at cut
            simp only [integerPart] at cut
            split at cut
            next =>
              split at cut
              next =>
                cases cut
                cases none
              next => cases cut
            next =>
              split at cut
              next =>
                cases cut
                cases none
              next => cases cut

theorem isBlank_of_starts {byte : UInt8} (starts : byte = 45 ∨ isDigit byte = true) :
    isBlank byte = false := by
  rw [← Bool.not_eq_true]
  intro blank
  simp only [isBlank, Bool.or_eq_true, beq_iff_eq] at blank
  rcases blank with ((rfl | rfl) | rfl) | rfl <;> exact absurd starts (by decide)

/-- A number where a value is expected. -/
theorem parseJson_of_number {text literal rest : Bytes} {depth : Nat} (fuel : Nat)
    (shallow : depth ≤ maxDepth) (parsed : parseNumber text = some (literal, rest)) :
    parseJson (fuel + 1) depth text = some (.number literal, rest) := by
  rcases (parseNumber_starts parsed).1 with ⟨byte, more, rfl, starts⟩
  rw [parseJson, if_neg (Nat.not_lt.mpr shallow), skipBlanks_cons (isBlank_of_starts starts)]
  simp only [if_pos starts, parsed, Option.map_some]

/-- A number is read only where there is one. -/
theorem parseNumber_of_parseJson {literal rest text : Bytes} {fuel depth : Nat}
    (parsed : parseJson fuel depth text = some (.number literal, rest)) :
    parseNumber (skipBlanks text) = some (literal, rest) := by
  cases fuel with
  | zero => cases parsed
  | succ fuel =>
      rw [parseJson] at parsed
      split at parsed
      next => cases parsed
      next =>
        cases skipped : skipBlanks text with
        | nil => simp [skipped] at parsed
        | cons byte more =>
            simp only [skipped] at parsed
            split at parsed
            next =>
              rw [Option.map_eq_some_iff] at parsed
              rcases parsed with ⟨number, cut, same⟩
              cases same
              exact cut
            -- no other value is a number
            iterate 3
              split at parsed
              next => simp [expect] at parsed
            split at parsed
            next => simp at parsed
            iterate 2
              split at parsed
              next => split at parsed <;> simp at parsed
            cases parsed

/-- A number may be cut off where no byte of a number follows. -/
theorem isNumber_iff_of_closed {text tail : Bytes} (closed : Closed tail) :
    IsNumber text ↔ parseNumber (text ++ tail) = some (text, tail) := by
  rw [IsNumber, local_parseNumber tail closed, Option.map_eq_some_iff]
  constructor
  · intro number
    exact ⟨_, number, rfl⟩
  · intro cut
    rcases cut with ⟨⟨literal, rest⟩, parsed, same⟩
    simp only [Prod.mk.injEq, List.append_left_eq_self] at same
    rcases same with ⟨rfl, rfl⟩
    exact parsed

/-- The value in front of a closed text is a number of a given literal exactly if the text is
that literal, and a number. -/
theorem isNumber_iff_of_parseJson {text tail : Bytes} (closed : Closed tail) {depth : Nat}
    (fuel : Nat) (shallow : depth ≤ maxDepth) :
    IsNumber text ↔
      ∃ rest, parseJson (fuel + 1) depth (text ++ tail) = some (.number text, rest) := by
  constructor
  · intro number
    exact ⟨tail, parseJson_of_number fuel shallow ((isNumber_iff_of_closed closed).mp number)⟩
  · intro value
    rcases value with ⟨rest, parsed⟩
    have cut := parseNumber_of_parseJson parsed
    rcases parseNumber_starts cut with ⟨⟨byte, more, skipped, starts⟩, some⟩
    have split := (cuts_parseNumber _ _ _ cut).1
    cases text with
    | nil => exact absurd rfl some
    | cons first text =>
        -- the first byte is read, so it is not skipped
        have same : first = byte := by
          rw [skipped] at split
          simp only [List.cons_append, List.cons.injEq] at split
          exact split.1.symm
        subst same
        rw [List.cons_append, skipBlanks_cons (isBlank_of_starts starts)] at cut split
        have rested : tail = rest := by
          simpa using split
        subst rested
        exact (isNumber_iff_of_closed closed).mpr cut

/-- Digits without a leading zero are a number. -/
theorem isNumber_of_digits {first : UInt8} {more : Bytes} (leading : first = 48 → more = [])
    (digit : isDigit first = true) (others : ∀ byte ∈ more, isDigit byte = true) :
    IsNumber (first :: more) := by
  have taken : digits more = more := List.takeWhile_eq_self_iff.mpr others
  have left : afterDigits more = [] := by
    rw [afterDigits, List.dropWhile_eq_nil_iff]
    exact others
  have unsigned : first ≠ 45 := by
    intro same
    subst same
    cases digit
  have integer : integerPart (first :: more) = some (first :: more, []) := by
    simp only [integerPart, digit, taken, left, if_true]
    split
    next zero =>
      cases leading zero
      rw [zero]
      rfl
    next => rfl
  simp [IsNumber, parseNumber, sign, unsigned, integer, fractionPart, exponentPart]

theorem decimal_eq (value : Nat) :
    decimal value = if value < 10 then [(Nat.digitChar value).toNat.toUInt8]
      else decimal (value / 10) ++ [(Nat.digitChar (value % 10)).toNat.toUInt8] := by
  rw [decimal, Nat.toDigits_eq_if (by decide)]
  split
  next => rfl
  next => rw [List.map_append, decimal]; rfl

/-- A positive number does not begin with a zero. -/
theorem decimal_leading {value : Nat} (positive : 0 < value) :
    ∃ first more, decimal value = first :: more ∧ first ≠ 48 := by
  induction value using Nat.strong_induction_on with
  | _ value ih =>
      rw [decimal_eq]
      split
      next small =>
        refine ⟨_, [], rfl, ?_⟩
        have all : ∀ digit : Fin 10, digit ≠ 0 → (Nat.digitChar digit).toNat.toUInt8 ≠ 48 := by
          decide
        exact all ⟨value, small⟩ (by simpa [Fin.ext_iff] using Nat.ne_of_gt positive)
      next large =>
        rcases ih (value / 10) (by omega) (by omega) with ⟨first, more, leading, other⟩
        rw [leading]
        exact ⟨first, _, rfl, other⟩

theorem isNumber_decimal (value : Nat) : IsNumber (decimal value) := by
  rcases Nat.eq_zero_or_pos value with rfl | positive
  · decide
  · rcases decimal_leading positive with ⟨first, more, leading, other⟩
    have all : ∀ byte ∈ decimal value, isDigit byte = true := by
      intro byte member
      have range := digit_of_mem_decimal member
      simp only [isDigit, Bool.and_eq_true, decide_eq_true_eq, UInt8.le_iff_toNat_le]
      exact range
    rw [leading] at all ⊢
    exact isNumber_of_digits (fun zero => absurd zero other) (all first List.mem_cons_self)
      fun byte member => all byte (List.mem_cons_of_mem first member)

end JsonText

end DMProxy.Text
