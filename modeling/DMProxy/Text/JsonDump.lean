import DMProxy.Text.Base64Decode
import DMProxy.Text.JsonGrammar

/-!
# Writing JSON documents

`Json::dump` of `json11`, for the values that are made of strings, integers and the like.  What is
dumped is spelled by the grammar, so that the parser reads it back.
-/

namespace DMProxy.Text

/-- A value without floating-point numbers. -/
inductive JsonValue where
  | null
  | bool (value : Bool)
  | int (value : Int)
  | string (value : Bytes)
  | array (items : List JsonValue)
  | object (members : List (Bytes × JsonValue))

namespace JsonValue

/-- `dump(int, string &)`. -/
def dumpInt (value : Int) : Bytes :=
  if value < 0 then 45 :: decimal value.natAbs else decimal value.natAbs

mutual

/-- `Json::dump`. -/
def dump : JsonValue → Bytes
  | .null => ascii "null"
  | .bool value => if value then ascii "true" else ascii "false"
  | .int value => dumpInt value
  | .string value => Json.dumpString value
  | .array items => ascii "[" ++ dumpItems true items ++ ascii "]"
  | .object members => ascii "\x7b" ++ dumpMembers true members ++ ascii "\x7d"

/-- The loop of `dump(const Json::array &, string &)`. -/
def dumpItems (first : Bool) : List JsonValue → Bytes
  | [] => []
  | item :: items =>
      (if first then [] else ascii ", ") ++ dump item ++ dumpItems false items

/-- The loop of `dump(const Json::object &, string &)`. -/
def dumpMembers (first : Bool) : List (Bytes × JsonValue) → Bytes
  | [] => []
  | (key, value) :: members =>
      (if first then [] else ascii ", ") ++ Json.dumpString key ++ ascii ": " ++ dump value ++
        dumpMembers false members

end

mutual

/-- What the parser makes of a value. -/
def text : JsonValue → JsonText
  | .null => .null
  | .bool value => .bool value
  | .int value => .number (dumpInt value)
  | .string value => .string value
  | .array items => .array (textItems items)
  | .object members => .object (textMembers members)

def textItems : List JsonValue → List JsonText
  | [] => []
  | item :: items => text item :: textItems items

def textMembers : List (Bytes × JsonValue) → List (Bytes × JsonText)
  | [] => []
  | (key, value) :: members => (key, text value) :: textMembers members

end

mutual

/-- How deep brackets are nested in a value that is not empty. -/
def levels : JsonValue → Nat
  | .array items => levelsItems items
  | .object members => levelsMembers members
  | .null | .bool _ | .int _ | .string _ => 0

def levelsItems : List JsonValue → Nat
  | [] => 0
  | item :: items => max (levels item + 1) (levelsItems items)

def levelsMembers : List (Bytes × JsonValue) → Nat
  | [] => 0
  | (_, value) :: members => max (levels value + 1) (levelsMembers members)

end

/-! ## Strings -/

open JsonText

/-- A code unit that is no surrogate stands for itself. -/
theorem pieceText_unit {point : Nat} (low : point < 0xd800) (rest : List Piece) :
    pieceText (.unit point :: rest) = encodeUtf8 point ++ pieceText rest := by
  rcases rest with _ | ⟨piece, rest⟩
  · rfl
  · cases piece with
    | byte value => rfl
    | unit next => exact pieceText_apart (by simp only [SurrogatePair]; omega) rest

theorem hexPoint_unicodeEscape {byte : UInt8} (control : byte ≤ 0x1f) :
    ∃ third fourth, Json.unicodeEscape byte = [92, 117, 48, 48, third, fourth] ∧
      hexPoint 48 48 third fourth = some byte.toNat := by
  have all : ∀ index : Fin 32, ∃ third fourth,
      Json.unicodeEscape (UInt8.ofNat index) = [92, 117, 48, 48, third, fourth] ∧
        hexPoint 48 48 third fourth = some (UInt8.ofNat index).toNat := by
    intro index
    exact ⟨(Json.unicodeEscape (UInt8.ofNat index)).getD 4 0,
      (Json.unicodeEscape (UInt8.ofNat index)).getD 5 0, by revert index; decide⟩
  have small : byte.toNat < 32 := Nat.lt_succ_of_le (UInt8.le_iff_toNat_le.mp control)
  have here := all ⟨byte.toNat, small⟩
  rw [UInt8.ofNat_toNat] at here
  exact here

/-- Some text for which there is a short escape. -/
theorem spells_short {letter value : UInt8} {text written : Bytes}
    (short : shortEscape letter = some value)
    (spelled : ∃ pieces, Spells pieces written ∧ pieceText pieces = text) :
    ∃ pieces, Spells pieces (92 :: letter :: written) ∧ pieceText pieces = value :: text := by
  rcases spelled with ⟨pieces, spells, rfl⟩
  exact ⟨.byte value :: pieces, .short short spells, rfl⟩

theorem spells_unicode {first second third fourth : UInt8} {point : Nat} {text written : Bytes}
    (hex : hexPoint first second third fourth = some point) (low : point < 0xd800)
    (spelled : ∃ pieces, Spells pieces written ∧ pieceText pieces = text) :
    ∃ pieces, Spells pieces (92 :: 117 :: first :: second :: third :: fourth :: written) ∧
      pieceText pieces = encodeUtf8 point ++ text := by
  rcases spelled with ⟨pieces, spells, rfl⟩
  exact ⟨.unit point :: pieces, .unicode hex spells, pieceText_unit low pieces⟩

/-- An escaped text stands for the text, whatever its bytes are. -/
theorem spells_escape (text : Bytes) :
    ∃ pieces, Spells pieces (Json.escape text) ∧ pieceText pieces = text := by
  induction text using Json.escape.induct with
  | case1 rest ih =>
      exact spells_unicode (show hexPoint 50 48 50 56 = some 0x2028 by decide) (by decide) ih
  | case2 rest ih =>
      exact spells_unicode (show hexPoint 50 48 50 57 = some 0x2029 by decide) (by decide) ih
  | case3 rest ih => exact spells_short (show shortEscape 92 = some 92 by decide) ih
  | case4 rest ih => exact spells_short (show shortEscape 34 = some 34 by decide) ih
  | case5 rest ih => exact spells_short (show shortEscape 98 = some 8 by decide) ih
  | case6 rest ih => exact spells_short (show shortEscape 102 = some 12 by decide) ih
  | case7 rest ih => exact spells_short (show shortEscape 110 = some 10 by decide) ih
  | case8 rest ih => exact spells_short (show shortEscape 114 = some 13 by decide) ih
  | case9 rest ih => exact spells_short (show shortEscape 116 = some 9 by decide) ih
  | case10 byte rest _ _ quote backslash _ _ _ _ _ control ih =>
      rcases hexPoint_unicodeEscape control with ⟨third, fourth, written, hex⟩
      have small := UInt8.le_iff_toNat_le.mp control
      have encoded : encodeUtf8 byte.toNat = [byte] := by
        rw [encodeUtf8, if_pos (Nat.lt_of_le_of_lt small (by decide)), Nat.toUInt8,
          UInt8.ofNat_toNat]
      have spelled := spells_unicode hex (Nat.lt_of_le_of_lt small (by decide)) ih
      rw [encoded] at spelled
      rw [Json.escape, if_pos control, written]
      · exact spelled
      all_goals assumption
  | case11 byte rest _ _ backslash quote _ _ _ _ _ plain ih =>
      rcases ih with ⟨pieces, spells, same⟩
      rw [Json.escape, if_neg plain]
      · exact ⟨.byte byte :: pieces, .plain plain quote backslash spells, by
          rw [pieceText, same]⟩
      all_goals assumption
  | case12 => exact ⟨[], .nil, rfl⟩

theorem spelled_dumpString (levels : Nat) (text : Bytes) :
    Spelled levels (.value (.string text)) (Json.dumpString text) := by
  rcases spells_escape text with ⟨pieces, spells, same⟩
  have spelled : Spelled levels _ _ := .string spells
  rw [same] at spelled
  exact spelled

/-! ## Values -/

/-- A number may be negative. -/
theorem isNumber_minus {literal : Bytes} (number : IsNumber literal)
    (unsigned : literal.head? ≠ some 45) : IsNumber (45 :: literal) := by
  have plain : sign [45] literal = ([], literal) := by
    cases literal with
    | nil => rfl
    | cons byte literal =>
        exact if_neg fun minus => unsigned (congrArg some (List.mem_singleton.mp minus))
  have minus : sign [45] (45 :: literal) = ([45], literal) := rfl
  simp only [IsNumber, parseNumber, plain, minus, Option.bind_eq_bind, Option.bind_eq_some_iff]
    at number ⊢
  rcases number with ⟨integer, cutInteger, fraction, cutFraction, exponent, cutExponent, last⟩
  simp only [pure, Option.some.injEq, Prod.mk.injEq, List.nil_append] at last
  refine ⟨integer, cutInteger, fraction, cutFraction, exponent, cutExponent, ?_⟩
  rw [last.2, ← last.1]
  rfl

theorem isNumber_dumpInt (value : Int) : IsNumber (dumpInt value) := by
  have unsigned := isNumber_decimal value.natAbs
  rw [dumpInt]
  split
  next =>
    refine isNumber_minus unsigned fun first => ?_
    have digit := digit_of_mem_decimal (List.mem_of_mem_head? first)
    exact absurd digit.1 (by decide)
  next => exact unsigned

/-- All elements but the first are dumped behind a comma and a blank. -/
theorem dumpItems_false {items : List JsonValue} (some : items ≠ []) :
    dumpItems false items = 44 :: 32 :: dumpItems true items := by
  cases items with
  | nil => exact absurd rfl some
  | cons item items => rfl

theorem dumpMembers_false {members : List (Bytes × JsonValue)} (some : members ≠ []) :
    dumpMembers false members = 44 :: 32 :: dumpMembers true members := by
  cases members with
  | nil => exact absurd rfl some
  | cons member members => rfl

theorem blanks_blank : Blanks [32] := by
  decide

theorem blanks_nil : Blanks [] := by
  decide

/-- A member is dumped with a blank behind its colon. -/
theorem spelled_key (key : Bytes) {depth : Nat} {value : JsonText} {gap dumped : Bytes}
    (blanks : Blanks gap) (spelled : Spelled depth (.item value) ([32] ++ (dumped ++ []))) :
    Spelled depth (.member key value)
      (gap ++ (Json.dumpString key ++ ascii ": " ++ dumped)) := by
  rcases spells_escape key with ⟨pieces, spells, same⟩
  have member := Spelled.member blanks spells blanks_nil spelled
  have separator : ascii ": " = [58, 32] := by decide
  rw [same] at member
  simpa [Json.dumpString, separator] using member

mutual

/-- What is dumped is spelled, where there is room for its brackets. -/
theorem spelled_dump (value : JsonValue) {depth : Nat} (deep : value.levels ≤ depth) :
    Spelled depth (.value value.text) value.dump := by
  cases value with
  | null => exact .null
  | bool value =>
      cases value with
      | true => exact .true
      | false => exact .false
  | int value => exact .number (isNumber_dumpInt value)
  | string value => exact spelled_dumpString depth value
  | array items =>
      by_cases empty : items = []
      · subst empty
        exact .emptyArray blanks_nil
      · exact .array (spelled_dumpItems items empty deep blanks_nil)
  | object members =>
      by_cases empty : members = []
      · subst empty
        exact .emptyObject blanks_nil
      · exact .object (spelled_dumpMembers members empty deep blanks_nil)

theorem spelled_dumpItems (items : List JsonValue) (some : items ≠ []) {depth : Nat}
    (deep : levelsItems items ≤ depth) {gap : Bytes} (blanks : Blanks gap) :
    Spelled depth (.items (textItems items)) (gap ++ dumpItems true items) := by
  cases items with
  | nil => exact absurd rfl some
  | cons item items =>
      simp only [levelsItems, Nat.max_le] at deep
      cases depth with
      | zero => exact absurd deep.1 (Nat.not_succ_le_zero _)
      | succ depth =>
          have first := Spelled.item blanks blanks_nil
            (spelled_dump item (Nat.le_of_succ_le_succ deep.1))
          rw [List.append_nil] at first
          by_cases last : items = []
          · subst last
            rw [dumpItems, dumpItems, List.append_nil]
            exact .lastItem first
          · have others := spelled_dumpItems items last deep.2 blanks_blank
            rw [dumpItems, dumpItems_false last, if_pos rfl, List.nil_append,
              ← List.append_assoc]
            exact .moreItems first others

theorem spelled_dumpMembers (members : List (Bytes × JsonValue)) (some : members ≠ [])
    {depth : Nat} (deep : levelsMembers members ≤ depth) {gap : Bytes} (blanks : Blanks gap) :
    Spelled depth (.members (textMembers members)) (gap ++ dumpMembers true members) := by
  cases members with
  | nil => exact absurd rfl some
  | cons member members =>
      cases member with
      | mk key value =>
          simp only [levelsMembers, Nat.max_le] at deep
          cases depth with
          | zero => exact absurd deep.1 (Nat.not_succ_le_zero _)
          | succ depth =>
              have inner := Spelled.item blanks_blank blanks_nil
                (spelled_dump value (Nat.le_of_succ_le_succ deep.1))
              have first := spelled_key key blanks inner
              by_cases last : members = []
              · subst last
                simp only [dumpMembers, if_true, List.nil_append, List.append_nil]
                exact .lastMember first
              · have others := spelled_dumpMembers members last deep.2 blanks_blank
                rw [dumpMembers, dumpMembers_false last, if_pos rfl, List.nil_append,
                  ← List.append_assoc]
                exact .moreMembers first others

end

/-! ## Nothing is lost -/

/-- `std::atoi`, on digits. -/
def digitsValue (digits : Bytes) : Nat :=
  digits.foldl (fun high digit => 10 * high + (digit.toNat - 48)) 0

theorem digitsValue_append (digits : Bytes) (digit : UInt8) :
    digitsValue (digits ++ [digit]) = 10 * digitsValue digits + (digit.toNat - 48) := by
  simp [digitsValue, List.foldl_append]

theorem digitsValue_decimal (value : Nat) : digitsValue (decimal value) = value := by
  have digit : ∀ index : Fin 10, (Nat.digitChar index).toNat.toUInt8.toNat - 48 = index := by
    decide
  induction value using Nat.strong_induction_on with
  | _ value ih =>
      rw [decimal_eq]
      split
      next small =>
        have here := digit ⟨value, small⟩
        simpa [digitsValue] using here
      next large =>
        have here := digit ⟨value % 10, Nat.mod_lt _ (by decide)⟩
        rw [digitsValue_append, ih (value / 10) (by omega), here]
        exact Nat.div_add_mod value 10

/-- `std::atoi`. -/
def atoi (literal : Bytes) : Int :=
  if literal.head? = some 45 then -(digitsValue literal.tail : Int) else digitsValue literal

theorem atoi_dumpInt (value : Int) : atoi (dumpInt value) = value := by
  rw [dumpInt]
  split
  next negative =>
    rw [atoi, if_pos (by rfl), List.tail_cons, digitsValue_decimal]
    omega
  next positive =>
    have unsigned : (decimal value.natAbs).head? ≠ some 45 := fun first =>
      absurd (digit_of_mem_decimal (List.mem_of_mem_head? first)).1 (by decide)
    rw [atoi, if_neg unsigned, digitsValue_decimal]
    omega

theorem dumpInt_injective : Function.Injective dumpInt := by
  intro value other same
  rw [← atoi_dumpInt value, same, atoi_dumpInt]

mutual

theorem text_injective {value other : JsonValue} (same : value.text = other.text) :
    value = other := by
  cases value with
  | int value =>
      cases other <;> simp only [text, JsonText.number.injEq, reduceCtorEq] at same
      rw [dumpInt_injective same]
  | null | bool value | string value => cases other <;> simp_all [text]
  | array items =>
      cases other <;> simp only [text, JsonText.array.injEq, reduceCtorEq] at same
      rw [textItems_injective same]
  | object members =>
      cases other <;> simp only [text, JsonText.object.injEq, reduceCtorEq] at same
      rw [textMembers_injective same]

theorem textItems_injective {items others : List JsonValue}
    (same : textItems items = textItems others) : items = others := by
  cases items with
  | nil =>
      cases others with
      | nil => rfl
      | cons other others => simp [textItems] at same
  | cons item items =>
      cases others with
      | nil => simp [textItems] at same
      | cons other others =>
          simp only [textItems, List.cons.injEq] at same
          rw [text_injective same.1, textItems_injective same.2]

theorem textMembers_injective {members others : List (Bytes × JsonValue)}
    (same : textMembers members = textMembers others) : members = others := by
  cases members with
  | nil =>
      cases others with
      | nil => rfl
      | cons other others => simp [textMembers] at same
  | cons member members =>
      cases member with
      | mk key value =>
          cases others with
          | nil => simp [textMembers] at same
          | cons other others =>
              simp only [textMembers, List.cons.injEq, Prod.mk.injEq] at same
              rw [textMembers_injective same.2, same.1.1, text_injective same.1.2]

end

theorem parse_dump_text {value : JsonValue} (deep : value.levels ≤ maxDepth) :
    parse value.dump = some value.text := by
  have parsed := parse_of_spelled blanks_nil blanks_nil (spelled_dump value deep)
  rwa [List.nil_append, List.append_nil] at parsed

/-- A value with at most `maxDepth` levels of brackets is read as it was dumped, and as no other
value. -/
theorem parse_dump {value : JsonValue} (deep : value.levels ≤ maxDepth) (other : JsonValue) :
    parse value.dump = some other.text ↔ value = other := by
  rw [parse_dump_text deep, Option.some.injEq]
  exact ⟨text_injective, congrArg text⟩

theorem parse_dump_pair :
    parse (array [.int (-1), .string []]).dump = some (array [.int (-1), .string []]).text ↔
      array [.int (-1), .string []] = array [.int (-1), .string []] :=
  parse_dump (by decide) _

end JsonValue

/-! ## Objects of strings -/

namespace JsonText

/-- `Json::operator[] (const string &)`.  The parser overwrites a member that is repeated. -/
def member (key : Bytes) : JsonText → JsonText
  | .object members =>
      ((members.reverse.find? fun entry => entry.1 == key).map Prod.snd).getD .null
  | _ => .null

/-- `Json::string_value`. -/
def stringValue : JsonText → Bytes
  | .string value => value
  | _ => []

end JsonText

namespace JsonValue

/-- An object of which all members are strings. -/
def ofStrings (members : List (Bytes × Bytes)) : JsonValue :=
  .object (members.map fun entry => (entry.1, .string entry.2))

theorem dumpMembers_strings (first : Bool) (members : List (Bytes × Bytes)) :
    dumpMembers first (members.map fun entry => (entry.1, .string entry.2)) =
      (if first || members.isEmpty then [] else ascii ", ") ++
        (ascii ", ").intercalate (members.map fun entry =>
          Json.dumpString entry.1 ++ ascii ": " ++ Json.dumpString entry.2) := by
  induction members generalizing first with
  | nil => cases first <;> rfl
  | cons entry members ih =>
      cases members with
      | nil => cases first <;> simp [dumpMembers, dump, List.intercalate]
      | cons next members =>
          rw [List.map_cons, dumpMembers, ih]
          cases first <;> simp [dump, List.intercalate]

theorem dump_ofStrings (members : List (Bytes × Bytes)) :
    (ofStrings members).dump = Json.dumpStrings members := by
  rw [ofStrings, dump, dumpMembers_strings, Json.dumpStrings]
  rfl

theorem textMembers_strings (members : List (Bytes × Bytes)) :
    textMembers (members.map fun entry => (entry.1, .string entry.2)) =
      members.map fun entry => (entry.1, .string entry.2) := by
  induction members with
  | nil => rfl
  | cons entry members ih => simp only [List.map_cons, textMembers, text, ih]

theorem levels_ofStrings (members : List (Bytes × Bytes)) : (ofStrings members).levels ≤ 1 := by
  rw [ofStrings, levels]
  induction members with
  | nil => exact Nat.zero_le _
  | cons entry members ih =>
      simp only [List.map_cons, levelsMembers, levels]
      omega

/-- What is dumped of some strings is read. -/
theorem parse_dumpStrings (members : List (Bytes × Bytes)) :
    JsonText.parse (Json.dumpStrings members) =
      some (.object (members.map fun entry => (entry.1, .string entry.2))) := by
  have read := parse_dump_text ((levels_ofStrings members).trans (by decide))
  rwa [dump_ofStrings, ofStrings, text, textMembers_strings] at read

end JsonValue

end DMProxy.Text
