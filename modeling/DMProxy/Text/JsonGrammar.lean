import DMProxy.Text.JsonText

/-!
# The grammar of JSON documents

What the parser of `json11` accepts, as a grammar: how a string, a number and a value are
spelled.  The parser reads a document exactly if the grammar spells it, and answers with the
value that is spelled.
-/

namespace DMProxy.Text

namespace JsonText

/-! ## Strings -/

/-- What one character of a string literal stands for. -/
inductive Piece where
  /-- a byte that is written as it is or behind a backslash -/
  | byte (value : UInt8)
  /-- a code unit that is written with four hexadecimal digits -/
  | unit (point : Nat)
  deriving DecidableEq, Repr

/-- A high and a low surrogate. -/
def SurrogatePair (high low : Nat) : Prop :=
  0xd800 ≤ high ∧ high ≤ 0xdbff ∧ 0xdc00 ≤ low ∧ low ≤ 0xdfff

instance (high low : Nat) : Decidable (SurrogatePair high low) :=
  inferInstanceAs (Decidable (_ ∧ _))

/-- The character of a surrogate pair. -/
def combined (high low : Nat) : Nat :=
  (high - 0xd800) * 0x400 + (low - 0xdc00) + 0x10000

/-- The string some pieces stand for, in UTF-8.  Two code units can be one character. -/
def pieceText : List Piece → Bytes
  | [] => []
  | .byte value :: rest => value :: pieceText rest
  | .unit high :: .unit low :: rest =>
      if SurrogatePair high low then encodeUtf8 (combined high low) ++ pieceText rest
      else encodeUtf8 high ++ pieceText (.unit low :: rest)
  | .unit point :: rest => encodeUtf8 point ++ pieceText rest

theorem pieceText_pair {high low : Nat} (pair : SurrogatePair high low) (rest : List Piece) :
    pieceText (.unit high :: .unit low :: rest) =
      encodeUtf8 (combined high low) ++ pieceText rest :=
  if_pos pair

theorem pieceText_apart {high low : Nat} (apart : ¬SurrogatePair high low) (rest : List Piece) :
    pieceText (.unit high :: .unit low :: rest) =
      encodeUtf8 high ++ pieceText (.unit low :: rest) :=
  if_neg apart

/-- How pieces are written between the quotes of a literal. -/
inductive Spells : List Piece → Bytes → Prop where
  | nil : Spells [] []
  | plain {value : UInt8} {rest : List Piece} {text : Bytes} :
      ¬value ≤ 0x1f → value ≠ 34 → value ≠ 92 → Spells rest text →
      Spells (.byte value :: rest) (value :: text)
  | short {letter value : UInt8} {rest : List Piece} {text : Bytes} :
      shortEscape letter = some value → Spells rest text →
      Spells (.byte value :: rest) (92 :: letter :: text)
  | unicode {first second third fourth : UInt8} {point : Nat} {rest : List Piece}
      {text : Bytes} :
      hexPoint first second third fourth = some point → Spells rest text →
      Spells (.unit point :: rest) (92 :: 117 :: first :: second :: third :: fourth :: text)

/-- The code unit that waits for its other half. -/
def pendingPieces (lastEscaped : Option Nat) : List Piece :=
  (lastEscaped.map Piece.unit).toList

theorem pieceText_pending_nil (lastEscaped : Option Nat) :
    pieceText (pendingPieces lastEscaped) = pendingText lastEscaped := by
  cases lastEscaped with
  | none => rfl
  | some point => simp [pendingPieces, pieceText, pendingText]

theorem pieceText_pending_byte (lastEscaped : Option Nat) (value : UInt8) (rest : List Piece) :
    pieceText (pendingPieces lastEscaped ++ .byte value :: rest) =
      pendingText lastEscaped ++ value :: pieceText rest := by
  cases lastEscaped with
  | none => rfl
  | some point => simp [pendingPieces, pieceText, pendingText]

/-- The letter of a `\\u` escape is none of the short ones. -/
theorem shortEscape_u : shortEscape 117 = none := rfl

/-- What the loop of `parse_string` adds to its output is spelled by what it reads. -/
theorem parseString_sound {out value rest text : Bytes} {lastEscaped : Option Nat}
    (parsed : parseString out lastEscaped text = some (value, rest)) :
    ∃ pieces literal, text = literal ++ 34 :: rest ∧ Spells pieces literal ∧
      value = out ++ pieceText (pendingPieces lastEscaped ++ pieces) := by
  induction out, lastEscaped, text using parseString.induct with
  | case1 out lastEscaped => cases parsed
  | case2 out lastEscaped text =>
      rw [parseString] at parsed
      cases parsed
      exact ⟨[], [], rfl, .nil, by rw [List.append_nil, pieceText_pending_nil]⟩
  | case3 out lastEscaped first second third fourth text invalid =>
      simp only [parseString, invalid] at parsed
      cases parsed
  | case4 out first second third fourth text point valid ih =>
      simp only [parseString, valid] at parsed
      rcases ih parsed with ⟨pieces, literal, rfl, spelled, rfl⟩
      exact ⟨.unit point :: pieces, _, rfl, .unicode valid spelled, rfl⟩
  | case5 out first second third fourth text low valid high pair ih =>
      simp only [parseString, valid, if_pos pair] at parsed
      rcases ih parsed with ⟨pieces, literal, rfl, spelled, rfl⟩
      refine ⟨.unit low :: pieces, _, rfl, .unicode valid spelled, ?_⟩
      simp only [pendingPieces, Option.map_some, Option.toList_some, List.singleton_append,
        pieceText_pair pair, Option.map_none, Option.toList_none, List.nil_append,
        List.append_assoc]
      rfl
  | case6 out first second third fourth text low valid high apart ih =>
      simp only [parseString, valid, if_neg apart] at parsed
      rcases ih parsed with ⟨pieces, literal, rfl, spelled, rfl⟩
      refine ⟨.unit low :: pieces, _, rfl, .unicode valid spelled, ?_⟩
      simp only [pendingPieces, Option.map_some, Option.toList_some, List.singleton_append,
        pieceText_apart apart, List.append_assoc]
  | case7 out lastEscaped letter text other invalid =>
      rw [parseString] at parsed
      · simp only [invalid] at parsed
        cases parsed
      · exact other
  | case8 out lastEscaped letter text other value valid ih =>
      rw [parseString] at parsed
      · simp only [valid] at parsed
        rcases ih parsed with ⟨pieces, literal, rfl, spelled, rfl⟩
        refine ⟨.byte value :: pieces, _, rfl, .short valid spelled, ?_⟩
        rw [pieceText_pending_byte]
        simp [pendingPieces]
      · exact other
  | case9 out lastEscaped byte text quote escape backslash control =>
      rw [parseString, if_pos control] at parsed
      · cases parsed
      · exact quote
      · exact escape
      · exact backslash
  | case10 out lastEscaped byte text quote escape backslash plain ih =>
      rw [parseString, if_neg plain] at parsed
      · rcases ih parsed with ⟨pieces, literal, rfl, spelled, rfl⟩
        refine ⟨.byte byte :: pieces, byte :: literal, rfl, .plain plain quote ?_ spelled, ?_⟩
        · -- something follows the byte, so a backslash would be the start of an escape
          intro same
          subst same
          cases literal with
          | nil => exact backslash _ _ rfl rfl
          | cons letter literal => exact backslash _ _ rfl rfl
        · rw [pieceText_pending_byte]
          simp [pendingPieces]
      · exact quote
      · exact escape
      · exact backslash

/-- A literal is read up to the quote behind it. -/
theorem parseString_complete {pieces : List Piece} {literal : Bytes}
    (spelled : Spells pieces literal) (out : Bytes) (lastEscaped : Option Nat) (rest : Bytes) :
    parseString out lastEscaped (literal ++ 34 :: rest) =
      some (out ++ pieceText (pendingPieces lastEscaped ++ pieces), rest) := by
  induction spelled generalizing out lastEscaped with
  | nil => rw [List.append_nil, pieceText_pending_nil, List.nil_append, parseString]
  | @plain value pieces text plain quote backslash spelled ih =>
      rw [List.cons_append, parseString, if_neg plain, ih, pieceText_pending_byte]
      · simp [pendingPieces]
      · exact quote
      · exact fun _ _ _ _ _ same => absurd same backslash
      · exact fun _ _ same => absurd same backslash
  | @short letter value pieces text valid spelled ih =>
      rw [List.cons_append, List.cons_append, parseString]
      · simp only [valid, ih, pieceText_pending_byte]
        simp [pendingPieces]
      · intro first second third fourth rest same
        subst same
        rw [shortEscape_u] at valid
        cases valid
  | @unicode first second third fourth point pieces text valid spelled ih =>
      simp only [List.cons_append, parseString, valid]
      cases lastEscaped with
      | none =>
          rw [ih]
          rfl
      | some high =>
          simp only [pendingPieces, Option.map_some, Option.toList_some, List.singleton_append]
          by_cases pair : SurrogatePair high point
          · have combine := pair
            rw [SurrogatePair] at combine
            rw [if_pos combine, ih, pieceText_pair pair, List.append_assoc]
            rfl
          · have separate := pair
            rw [SurrogatePair] at separate
            rw [if_neg separate, ih, pieceText_apart pair, List.append_assoc]
            rfl

/-! ## Numbers -/

/-- Nothing, or a text that begins as another one does. -/
def BeginsAs (tail rest : Bytes) : Prop :=
  tail = [] ∨ tail.head? = rest.head?

/-- A part of the beginning of a text begins as the text does. -/
theorem beginsAs_append (front rest : Bytes) : BeginsAs front (front ++ rest) := by
  cases front with
  | nil => exact .inl rfl
  | cons byte front => exact .inr rfl

/-- A part of a number is cut off in front of any text that begins in the same way. -/
def Peeks (part : Bytes → Option (Bytes × Bytes)) : Prop :=
  ∀ text taken rest tail, part text = some (taken, rest) → BeginsAs tail rest →
    part (taken ++ tail) = some (taken, tail)

/-- The digits in front of a text, in front of another one that begins in the same way. -/
theorem digits_cut (text : Bytes) {tail : Bytes} (begins : BeginsAs tail (afterDigits text)) :
    digits (digits text ++ tail) = digits text ∧ afterDigits (digits text ++ tail) = tail := by
  have all : ∀ byte ∈ digits text, isDigit byte = true := fun _ => List.mem_takeWhile_imp
  have ended : ∀ byte ∈ tail.head?, isDigit byte = false := by
    intro byte first
    rcases begins with rfl | same
    · cases first
    · rw [same] at first
      have none := List.head?_dropWhile_not isDigit text
      rw [← afterDigits, first] at none
      simpa using none
  have taken : digits tail = [] := by
    cases tail with
    | nil => rfl
    | cons byte tail => exact List.takeWhile_cons_of_neg (by simp [ended byte rfl])
  have dropped : afterDigits tail = tail := by
    cases tail with
    | nil => rfl
    | cons byte tail => exact List.dropWhile_cons_of_neg (by simp [ended byte rfl])
  constructor
  · rw [digits, List.takeWhile_append_of_pos all, ← digits, taken, List.append_nil]
  · rw [afterDigits, List.dropWhile_append_of_pos all, ← afterDigits, dropped]

theorem beginsAs_cons {byte : UInt8} {tail rest : Bytes}
    (begins : BeginsAs tail (byte :: rest)) : tail = [] ∨ ∃ more, tail = byte :: more := by
  cases tail with
  | nil => exact .inl rfl
  | cons first tail =>
      rcases begins with empty | same
      · cases empty
      · cases Option.some.inj same
        exact .inr ⟨tail, rfl⟩

theorem beginsAs_nil {tail : Bytes} (begins : BeginsAs tail []) : tail = [] := by
  cases tail with
  | nil => rfl
  | cons first tail => rcases begins with empty | same <;> contradiction

/-- A sign is found, or missed, in front of a text that begins in the same way. -/
theorem sign_cut (allowed text tail : Bytes) (begins : BeginsAs tail (sign allowed text).2) :
    sign allowed ((sign allowed text).1 ++ tail) = ((sign allowed text).1, tail) := by
  cases text with
  | nil =>
      cases beginsAs_nil begins
      rfl
  | cons byte text =>
      by_cases signed : byte ∈ allowed
      · have cut : sign allowed (byte :: text) = ([byte], text) := if_pos signed
        rw [cut]
        exact if_pos signed
      · have cut : sign allowed (byte :: text) = ([], byte :: text) := if_neg signed
        rw [cut] at begins ⊢
        rcases beginsAs_cons begins with rfl | ⟨more, rfl⟩
        · rfl
        · exact if_neg signed

theorem someDigits_cut {front text taken rest tail : Bytes}
    (cut : someDigits front text = some (taken, rest)) (begins : BeginsAs tail rest) :
    taken = front ++ digits text ∧ someDigits front (digits text ++ tail) = some (taken, tail) ∧
      BeginsAs (digits text ++ tail) text := by
  simp only [someDigits] at cut
  split at cut
  next => cases cut
  next some =>
    cases cut
    rcases digits_cut text begins with ⟨same, left⟩
    refine ⟨rfl, ?_, ?_⟩
    · rw [someDigits, same, left, if_neg some]
    · have split := digits_append_afterDigits text
      cases first : digits text with
      | nil => exact absurd (by rw [first]; rfl) some
      | cons byte more =>
          rw [first] at split
          exact .inr (by rw [← split]; rfl)

theorem peeks_integerPart : Peeks integerPart := by
  intro text taken rest tail cut begins
  cases text with
  | nil => cases cut
  | cons byte text =>
      simp only [integerPart] at cut
      split at cut
      next zero =>
        split at cut
        next none =>
          cases cut
          have empty : digits rest = [] := by simpa using none
          have left : afterDigits rest = rest := by
            have split := digits_append_afterDigits rest
            rwa [empty] at split
          have same := (digits_cut rest (left.symm ▸ begins)).1
          rw [empty, List.nil_append] at same
          simp [integerPart, same]
        next => cases cut
      next other =>
        split at cut
        next digit =>
          cases cut
          rcases digits_cut text begins with ⟨same, left⟩
          simp only [List.cons_append, integerPart, if_neg other, if_pos digit, same, left]
        next => cases cut

theorem peeks_fractionPart : Peeks fractionPart := by
  intro text taken rest tail cut begins
  cases text with
  | nil =>
      cases cut
      cases beginsAs_nil begins
      rfl
  | cons byte text =>
      simp only [fractionPart] at cut
      split at cut
      next point =>
        rcases someDigits_cut cut begins with ⟨rfl, again, -⟩
        simpa [fractionPart] using again
      next other =>
        cases cut
        rcases beginsAs_cons begins with rfl | ⟨more, rfl⟩
        · rfl
        · exact if_neg other

theorem peeks_exponentPart : Peeks exponentPart := by
  intro text taken rest tail cut begins
  cases text with
  | nil =>
      cases cut
      cases beginsAs_nil begins
      rfl
  | cons byte text =>
      simp only [exponentPart] at cut
      split at cut
      next marked =>
        rcases someDigits_cut cut begins with ⟨rfl, again, follows⟩
        simp only [List.cons_append, List.append_assoc, exponentPart, if_pos marked,
          sign_cut _ _ _ follows]
        exact again
      next other =>
        cases cut
        rcases beginsAs_cons begins with rfl | ⟨more, rfl⟩
        · rfl
        · exact if_neg other

/-- What is read of a number is a number. -/
theorem isNumber_of_parseNumber {text literal rest : Bytes}
    (parsed : parseNumber text = some (literal, rest)) : IsNumber literal := by
  simp only [parseNumber, Option.bind_eq_bind, Option.bind_eq_some_iff] at parsed
  rcases parsed with ⟨integer, cutInteger, fraction, cutFraction, exponent, cutExponent, last⟩
  cases last
  have splitInteger := (cuts_integerPart _ _ _ cutInteger).1
  have splitFraction := (cuts_fractionPart _ _ _ cutFraction).1
  have splitExponent := (cuts_exponentPart _ _ _ cutExponent).1
  have one := peeks_exponentPart _ _ _ [] cutExponent (.inl rfl)
  have two := peeks_fractionPart _ _ _ exponent.1 cutFraction
    (splitExponent ▸ beginsAs_append exponent.1 exponent.2)
  have three := peeks_integerPart _ _ _ (fraction.1 ++ exponent.1) cutInteger (by
    rw [splitFraction, splitExponent, ← List.append_assoc]
    exact beginsAs_append _ _)
  have four := sign_cut [45] text (integer.1 ++ (fraction.1 ++ exponent.1)) (by
    rw [splitInteger, splitFraction, splitExponent, ← List.append_assoc, ← List.append_assoc,
      ← List.append_assoc]
    exact beginsAs_append _ _)
  rw [List.append_nil] at one
  simp only [IsNumber, parseNumber, List.append_assoc, four, three, two, one,
    Option.bind_eq_bind, Option.bind_some]
  rfl

/-! ## Values -/

/-- White space between two tokens. -/
def Blanks (text : Bytes) : Prop :=
  ∀ byte ∈ text, isBlank byte = true

instance (text : Bytes) : Decidable (Blanks text) :=
  inferInstanceAs (Decidable (∀ byte ∈ text, _))

/-- What the text of a document is made of. -/
inductive Phrase where
  | value (value : JsonText)
  /-- a value inside of brackets or behind a colon, with white space around it -/
  | item (value : JsonText)
  | member (key : Bytes) (value : JsonText)
  /-- what is between the brackets of an array that is not empty -/
  | items (items : List JsonText)
  | members (members : List (Bytes × JsonText))

/-- How a phrase is written that is nested in some levels fewer than `maxDepth`. -/
inductive Spelled : Nat → Phrase → Bytes → Prop where
  | null {levels : Nat} : Spelled levels (.value .null) (ascii "null")
  | true {levels : Nat} : Spelled levels (.value (.bool true)) (ascii "true")
  | false {levels : Nat} : Spelled levels (.value (.bool false)) (ascii "false")
  | number {levels : Nat} {literal : Bytes} :
      IsNumber literal → Spelled levels (.value (.number literal)) literal
  | string {levels : Nat} {pieces : List Piece} {literal : Bytes} :
      Spells pieces literal →
      Spelled levels (.value (.string (pieceText pieces))) (34 :: (literal ++ [34]))
  | emptyArray {levels : Nat} {gap : Bytes} :
      Blanks gap → Spelled levels (.value (.array [])) (91 :: (gap ++ [93]))
  | array {levels : Nat} {items : List JsonText} {text : Bytes} :
      Spelled levels (.items items) text →
      Spelled levels (.value (.array items)) (91 :: (text ++ [93]))
  | emptyObject {levels : Nat} {gap : Bytes} :
      Blanks gap → Spelled levels (.value (.object [])) (123 :: (gap ++ [125]))
  | object {levels : Nat} {members : List (Bytes × JsonText)} {text : Bytes} :
      Spelled levels (.members members) text →
      Spelled levels (.value (.object members)) (123 :: (text ++ [125]))
  | item {levels : Nat} {value : JsonText} {before literal after : Bytes} :
      Blanks before → Blanks after → Spelled levels (.value value) literal →
      Spelled (levels + 1) (.item value) (before ++ (literal ++ after))
  | member {levels : Nat} {pieces : List Piece} {value : JsonText}
      {before key after text : Bytes} :
      Blanks before → Spells pieces key → Blanks after → Spelled levels (.item value) text →
      Spelled levels (.member (pieceText pieces) value)
        (before ++ 34 :: (key ++ 34 :: (after ++ 58 :: text)))
  | lastItem {levels : Nat} {value : JsonText} {text : Bytes} :
      Spelled levels (.item value) text → Spelled levels (.items [value]) text
  | moreItems {levels : Nat} {value : JsonText} {others : List JsonText} {text rest : Bytes} :
      Spelled levels (.item value) text → Spelled levels (.items others) rest →
      Spelled levels (.items (value :: others)) (text ++ 44 :: rest)
  | lastMember {levels : Nat} {key : Bytes} {value : JsonText} {text : Bytes} :
      Spelled levels (.member key value) text → Spelled levels (.members [(key, value)]) text
  | moreMembers {levels : Nat} {key : Bytes} {value : JsonText}
      {others : List (Bytes × JsonText)} {text rest : Bytes} :
      Spelled levels (.member key value) text → Spelled levels (.members others) rest →
      Spelled levels (.members ((key, value) :: others)) (text ++ 44 :: rest)

/-! ## What is accepted is spelled -/

/-- The white space in front of a text. -/
theorem blanks_skipBlanks (text : Bytes) :
    ∃ before, text = before ++ skipBlanks text ∧ Blanks before :=
  ⟨text.takeWhile isBlank, List.takeWhile_append_dropWhile.symm,
    fun _ => List.mem_takeWhile_imp⟩

theorem skipBlanks_append {before : Bytes} (blanks : Blanks before) (text : Bytes) :
    skipBlanks (before ++ text) = skipBlanks text := by
  rw [skipBlanks, List.dropWhile_append_of_pos blanks, ← skipBlanks]

theorem expect_eq_some {expected rest text : Bytes} {result value : JsonText}
    (parsed : expect expected result text = some (value, rest)) :
    value = result ∧ text = expected ++ rest := by
  simp only [expect] at parsed
  split at parsed
  next front =>
    cases parsed
    exact ⟨rfl, (List.prefix_iff_eq_append.mp front).symm⟩
  next => cases parsed

/-- What the three functions of the parser answer with is spelled by what they read. -/
structure Sound (fuel : Nat) : Prop where
  value : ∀ {depth text value rest}, parseJson fuel depth text = some (value, rest) →
    ∃ levels before literal, depth + levels = maxDepth ∧ text = before ++ (literal ++ rest) ∧
      Blanks before ∧ Spelled levels (.value value) literal
  items : ∀ {depth text items rest}, parseItems fuel depth text = some (items, rest) →
    ∃ levels literal, depth + levels = maxDepth ∧ text = literal ++ 93 :: rest ∧
      Spelled levels (.items items) literal
  members : ∀ {depth text members rest}, parseMembers fuel depth text = some (members, rest) →
    ∃ levels literal, depth + levels = maxDepth ∧ text = literal ++ 125 :: rest ∧
      Spelled levels (.members members) literal

theorem Sound.value_succ {fuel : Nat} (sound : Sound fuel) {depth : Nat} {text rest : Bytes}
    {value : JsonText} (parsed : parseJson (fuel + 1) depth text = some (value, rest)) :
    ∃ levels before literal, depth + levels = maxDepth ∧ text = before ++ (literal ++ rest) ∧
      Blanks before ∧ Spelled levels (.value value) literal := by
  rw [parseJson] at parsed
  split at parsed
  next => cases parsed
  next shallow =>
    have room : depth + (maxDepth - depth) = maxDepth := by omega
    rcases blanks_skipBlanks text with ⟨before, front, blanks⟩
    -- it is enough to spell what is left behind the white space
    suffices spelled : ∃ levels literal, depth + levels = maxDepth ∧
        skipBlanks text = literal ++ rest ∧ Spelled levels (.value value) literal by
      rcases spelled with ⟨levels, literal, deep, cut, spelled⟩
      exact ⟨levels, before, literal, deep, front.trans (by rw [cut]), blanks, spelled⟩
    cases skipped : skipBlanks text with
    | nil => simp [skipped] at parsed
    | cons byte more =>
        simp only [skipped] at parsed
        split at parsed
        next =>
          rw [Option.map_eq_some_iff] at parsed
          rcases parsed with ⟨number, cut, same⟩
          cases same
          exact ⟨_, _, room, (cuts_parseNumber _ _ _ cut).1,
            .number (isNumber_of_parseNumber cut)⟩
        split at parsed
        next =>
          rcases expect_eq_some parsed with ⟨rfl, same⟩
          exact ⟨_, _, room, same, .true⟩
        split at parsed
        next =>
          rcases expect_eq_some parsed with ⟨rfl, same⟩
          exact ⟨_, _, room, same, .false⟩
        split at parsed
        next =>
          rcases expect_eq_some parsed with ⟨rfl, same⟩
          exact ⟨_, _, room, same, .null⟩
        split at parsed
        next quote =>
          subst quote
          rw [Option.map_eq_some_iff] at parsed
          rcases parsed with ⟨⟨string, left⟩, cut, same⟩
          cases same
          rcases parseString_sound cut with ⟨pieces, literal, split, spelled, rfl⟩
          refine ⟨_, _, room, ?_, .string spelled⟩
          rw [split]
          simp
        split at parsed
        next brace =>
          subst brace
          rcases blanks_skipBlanks more with ⟨gap, inner, white⟩
          split at parsed
          next closing =>
            cases parsed
            refine ⟨_, _, room, ?_, .emptyObject white⟩
            rw [inner, closing]
            simp
          next =>
            rw [Option.map_eq_some_iff] at parsed
            rcases parsed with ⟨members, cut, same⟩
            cases same
            rcases sound.members cut with ⟨levels, literal, deep, split, spelled⟩
            refine ⟨levels, _, deep, ?_, .object spelled⟩
            rw [split]
            simp
        split at parsed
        next bracket =>
          subst bracket
          rcases blanks_skipBlanks more with ⟨gap, inner, white⟩
          split at parsed
          next closing =>
            cases parsed
            refine ⟨_, _, room, ?_, .emptyArray white⟩
            rw [inner, closing]
            simp
          next =>
            rw [Option.map_eq_some_iff] at parsed
            rcases parsed with ⟨items, cut, same⟩
            cases same
            rcases sound.items cut with ⟨levels, literal, deep, split, spelled⟩
            refine ⟨levels, _, deep, ?_, .array spelled⟩
            rw [split]
            simp
        next => cases parsed

/-- A value that is read, with the white space around it. -/
theorem Sound.item {fuel : Nat} (sound : Sound fuel) {depth : Nat} {text rest : Bytes}
    {value : JsonText} (parsed : parseJson fuel (depth + 1) text = some (value, rest)) :
    ∃ levels literal, depth + levels = maxDepth ∧ text = literal ++ skipBlanks rest ∧
      Spelled levels (.item value) literal := by
  rcases sound.value parsed with ⟨levels, before, literal, deep, rfl, blanks, spelled⟩
  rcases blanks_skipBlanks rest with ⟨after, behind, white⟩
  refine ⟨levels + 1, _, by omega, ?_, .item blanks white spelled⟩
  rw [List.append_assoc, List.append_assoc, ← behind]

theorem Sound.items_succ {fuel : Nat} (sound : Sound fuel) {depth : Nat} {text rest : Bytes}
    {items : List JsonText} (parsed : parseItems (fuel + 1) depth text = some (items, rest)) :
    ∃ levels literal, depth + levels = maxDepth ∧ text = literal ++ 93 :: rest ∧
      Spelled levels (.items items) literal := by
  rw [parseItems, Option.bind_eq_some_iff] at parsed
  rcases parsed with ⟨⟨value, left⟩, parsedItem, parsed⟩
  rcases sound.item parsedItem with ⟨levels, literal, deep, rfl, spelled⟩
  split at parsed
  next closing =>
    cases parsed
    exact ⟨levels, literal, deep, by rw [closing], .lastItem spelled⟩
  next comma =>
    rw [Option.map_eq_some_iff] at parsed
    rcases parsed with ⟨others, parsedOthers, same⟩
    cases same
    rcases sound.items parsedOthers with ⟨levels', literal', deep', split, spelled'⟩
    obtain rfl : levels' = levels := by omega
    refine ⟨levels', _, deep, ?_, .moreItems spelled spelled'⟩
    rw [comma, split, List.append_assoc, List.cons_append]
  next => cases parsed

theorem Sound.members_succ {fuel : Nat} (sound : Sound fuel) {depth : Nat} {text rest : Bytes}
    {members : List (Bytes × JsonText)}
    (parsed : parseMembers (fuel + 1) depth text = some (members, rest)) :
    ∃ levels literal, depth + levels = maxDepth ∧ text = literal ++ 125 :: rest ∧
      Spelled levels (.members members) literal := by
  rw [parseMembers] at parsed
  rcases blanks_skipBlanks text with ⟨before, front, blanks⟩
  split at parsed
  next quote =>
    rw [Option.bind_eq_some_iff] at parsed
    rcases parsed with ⟨⟨key, behind⟩, parsedKey, parsed⟩
    rcases parseString_sound parsedKey with ⟨pieces, spelling, cut, spells, named⟩
    rcases blanks_skipBlanks behind with ⟨after, gap, white⟩
    simp only at parsed
    split at parsed
    next colon =>
      rw [Option.bind_eq_some_iff] at parsed
      rcases parsed with ⟨⟨value, left⟩, parsedItem, parsed⟩
      rcases sound.item parsedItem with ⟨levels, literal, deep, split, spelled⟩
      have member := Spelled.member blanks spells white spelled
      have whole : text = before ++ 34 :: (spelling ++ 34 :: (after ++ 58 :: literal)) ++
          skipBlanks left := by
        rw [front, quote, cut, gap, colon, split]
        simp
      subst named
      simp only at parsed
      split at parsed
      next closing =>
        cases parsed
        exact ⟨levels, _, deep, by rw [whole, closing], .lastMember member⟩
      next comma =>
        rw [Option.map_eq_some_iff] at parsed
        rcases parsed with ⟨others, parsedOthers, same⟩
        cases same
        rcases sound.members parsedOthers with ⟨levels', literal', deep', split', spelled'⟩
        obtain rfl : levels' = levels := by omega
        refine ⟨levels', _, deep, ?_, .moreMembers member spelled'⟩
        rw [whole, comma, split']
        simp
      next => cases parsed
    next => cases parsed
  next => cases parsed

theorem sound (fuel : Nat) : Sound fuel := by
  induction fuel with
  | zero => exact ⟨fun parsed => by simp [parseJson] at parsed,
      fun parsed => by simp [parseItems] at parsed,
      fun parsed => by simp [parseMembers] at parsed⟩
  | succ fuel ih => exact ⟨ih.value_succ, ih.items_succ, ih.members_succ⟩

/-! ## What is spelled is accepted -/

/-- A byte with which a value begins. -/
def Leads (byte : UInt8) : Prop :=
  isBlank byte = false ∧ byte ≠ 93

theorem leads_of_spelled {levels : Nat} {value : JsonText} {literal : Bytes}
    (spelled : Spelled levels (.value value) literal) :
    ∃ byte more, literal = byte :: more ∧ Leads byte := by
  cases spelled with
  | null | true | false => exact ⟨_, _, rfl, by decide, by decide⟩
  | number isNumber =>
      rcases (parseNumber_starts isNumber).1 with ⟨byte, more, rfl, starts⟩
      refine ⟨byte, more, rfl, isBlank_of_starts starts, fun same => ?_⟩
      subst same
      exact absurd starts (by decide)
  | string | emptyArray | array | emptyObject | object =>
      exact ⟨_, _, rfl, by decide, by decide⟩

/-- No phrase is empty. -/
theorem length_pos_of_spelled {levels : Nat} {phrase : Phrase} {text : Bytes}
    (spelled : Spelled levels phrase text) : 0 < text.length := by
  induction spelled with
  | null | true | false => decide
  | number isNumber => exact List.length_pos_iff.mpr (parseNumber_starts isNumber).2
  | string | emptyArray | array | emptyObject | object => exact Nat.succ_pos _
  | item _ _ _ ih =>
      simp only [List.length_append]
      omega
  | member =>
      simp only [List.length_append, List.length_cons]
      omega
  | lastItem _ ih | lastMember _ ih => exact ih
  | moreItems _ _ ih | moreMembers _ _ ih =>
      simp only [List.length_append]
      omega

/-- No byte of a number comes first, and no white space. -/
def Token (tail : Bytes) : Prop :=
  Closed tail ∧ skipBlanks tail = tail

theorem token_cons {byte : UInt8} {rest : Bytes}
    (other : isDigit byte = false ∧ byte ∉ ascii ".eE+-" ∧ isBlank byte = false) :
    Token (byte :: rest) := by
  refine ⟨fun first head => ?_, skipBlanks_cons other.2.2 rest⟩
  cases Option.some.inj head
  exact ⟨other.1, other.2.1⟩

theorem closed_blanks {after : Bytes} (blanks : Blanks after) {tail : Bytes}
    (closed : Closed tail) : Closed (after ++ tail) := by
  cases after with
  | nil => exact closed
  | cons byte after =>
      intro first head
      cases Option.some.inj head
      have blank := blanks byte List.mem_cons_self
      simp only [isBlank, Bool.or_eq_true, beq_iff_eq] at blank
      rcases blank with ((rfl | rfl) | rfl) | rfl <;> decide

/-- What the parser does with a phrase, whatever follows.  The fuel is in proportion to the
text, because every other level of the recursion takes a character. -/
def Reads (depth fuel : Nat) (text : Bytes) : Phrase → Prop
  | .value value => ∀ tail, 2 * text.length ≤ fuel + 2 → Closed tail →
      parseJson (fuel + 1) depth (text ++ tail) = some (value, tail)
  | .item value => ∀ tail, 2 * text.length ≤ fuel + 2 → Token tail →
      ∃ rest, parseJson (fuel + 1) (depth + 1) (text ++ tail) = some (value, rest) ∧
        skipBlanks rest = tail
  | .member key value => ∀ tail, 2 * text.length ≤ fuel + 2 → Token tail →
      ∃ inside behind colon rest, skipBlanks (text ++ tail) = 34 :: inside ∧
        parseString [] none inside = some (key, behind) ∧ skipBlanks behind = 58 :: colon ∧
        parseJson (fuel + 1) (depth + 1) colon = some (value, rest) ∧ skipBlanks rest = tail
  | .items items => ∀ tail, 2 * text.length ≤ fuel →
      parseItems fuel depth (text ++ 93 :: tail) = some (items, tail)
  | .members members => ∀ tail, 2 * text.length ≤ fuel →
      parseMembers fuel depth (text ++ 125 :: tail) = some (members, tail)

/-- The text of elements begins with one. -/
theorem skipBlanks_items {levels : Nat} {items : List JsonText} {text : Bytes}
    (spelled : Spelled levels (.items items) text) (rest : Bytes) :
    ∃ byte more, skipBlanks (text ++ rest) = byte :: more ∧ byte ≠ 93 := by
  have first {levels : Nat} {value : JsonText} {text : Bytes}
      (spelled : Spelled levels (.item value) text) (rest : Bytes) :
      ∃ byte more, skipBlanks (text ++ rest) = byte :: more ∧ byte ≠ 93 := by
    cases spelled with
    | @item _ _ before literal after blanks white spelled =>
        rcases leads_of_spelled spelled with ⟨byte, more, rfl, leads⟩
        refine ⟨byte, more ++ after ++ rest, ?_, leads.2⟩
        rw [List.append_assoc, skipBlanks_append blanks]
        exact skipBlanks_cons leads.1 _
  cases spelled with
  | lastItem spelled => exact first spelled rest
  | moreItems spelled =>
      rw [List.append_assoc]
      exact first spelled _

theorem skipBlanks_members {levels : Nat} {members : List (Bytes × JsonText)} {text : Bytes}
    (spelled : Spelled levels (.members members) text) (rest : Bytes) :
    ∃ more, skipBlanks (text ++ rest) = 34 :: more := by
  have first {levels : Nat} {key : Bytes} {value : JsonText} {text : Bytes}
      (spelled : Spelled levels (.member key value) text) (rest : Bytes) :
      ∃ more, skipBlanks (text ++ rest) = 34 :: more := by
    cases spelled with
    | @member _ _ _ before key after text blanks spells white spelled =>
        refine ⟨key ++ 34 :: (after ++ 58 :: text) ++ rest, ?_⟩
        rw [List.append_assoc, skipBlanks_append blanks]
        exact skipBlanks_cons (by decide) _
  cases spelled with
  | lastMember spelled => exact first spelled rest
  | moreMembers spelled =>
      rw [List.append_assoc]
      exact first spelled _

theorem expect_append (expected : Bytes) (result : JsonText) (tail : Bytes) :
    expect expected result (expected ++ tail) = some (result, tail) := by
  rw [expect, if_pos (List.prefix_append _ _), List.drop_left]

section

variable {depth : Nat} (shallow : depth ≤ maxDepth) (fuel : Nat) (text : Bytes)

include shallow

theorem parseJson_null :
    parseJson (fuel + 1) depth (ascii "null" ++ text) = some (.null, text) := by
  rw [← expect_append (ascii "null") .null, parseJson, if_neg (Nat.not_lt.mpr shallow)]
  rfl

theorem parseJson_true :
    parseJson (fuel + 1) depth (ascii "true" ++ text) = some (.bool true, text) := by
  rw [← expect_append (ascii "true") (.bool true), parseJson, if_neg (Nat.not_lt.mpr shallow)]
  rfl

theorem parseJson_false :
    parseJson (fuel + 1) depth (ascii "false" ++ text) = some (.bool false, text) := by
  rw [← expect_append (ascii "false") (.bool false), parseJson, if_neg (Nat.not_lt.mpr shallow)]
  rfl

theorem parseJson_string :
    parseJson (fuel + 1) depth (34 :: text) =
      (parseString [] none text).map fun parsed => (.string parsed.1, parsed.2) := by
  rw [parseJson, if_neg (Nat.not_lt.mpr shallow), skipBlanks_cons (by decide)]
  rfl

theorem parseJson_brace :
    parseJson (fuel + 1) depth (123 :: text) =
      match skipBlanks text with
      | 125 :: rest => some (.object [], rest)
      | _ => (parseMembers fuel depth text).map fun parsed => (.object parsed.1, parsed.2) := by
  rw [parseJson, if_neg (Nat.not_lt.mpr shallow), skipBlanks_cons (by decide)]
  rfl

theorem parseJson_bracket :
    parseJson (fuel + 1) depth (91 :: text) =
      match skipBlanks text with
      | 93 :: rest => some (.array [], rest)
      | _ => (parseItems fuel depth text).map fun parsed => (.array parsed.1, parsed.2) := by
  rw [parseJson, if_neg (Nat.not_lt.mpr shallow), skipBlanks_cons (by decide)]
  rfl

end

/-- Whatever follows it, a phrase is read as it is spelled. -/
theorem reads {levels : Nat} {phrase : Phrase} {text : Bytes}
    (spelled : Spelled levels phrase text) {depth : Nat} (deep : depth + levels = maxDepth)
    (fuel : Nat) : Reads depth fuel text phrase := by
  induction spelled generalizing depth fuel with
  | null => exact fun tail _ _ => parseJson_null (by omega) fuel tail
  | true => exact fun tail _ _ => parseJson_true (by omega) fuel tail
  | false => exact fun tail _ _ => parseJson_false (by omega) fuel tail
  | number isNumber =>
      intro tail _ closed
      exact parseJson_of_number fuel (by omega) ((isNumber_iff_of_closed closed).mp isNumber)
  | @string _ pieces literal spells =>
      intro tail _ _
      rw [List.cons_append, List.append_assoc, parseJson_string (by omega)]
      simp only [List.singleton_append, parseString_complete spells, Option.map_some]
      rfl
  | @emptyArray _ gap blanks =>
      intro tail _ _
      rw [List.cons_append, List.append_assoc, parseJson_bracket (by omega),
        skipBlanks_append blanks, List.singleton_append, skipBlanks_cons (by decide)]
      rfl
  | @array _ items text spelled ih =>
      intro tail enough _
      simp only [List.length_cons, List.length_append, List.length_nil] at enough
      have inner := ih deep fuel tail (by omega)
      rcases skipBlanks_items spelled (93 :: tail) with ⟨byte, more, first, other⟩
      rw [List.cons_append, List.append_assoc, List.singleton_append,
        parseJson_bracket (by omega), first, inner]
      split
      next closing => exact absurd (List.cons.inj closing).1 other
      next => rfl
  | @emptyObject _ gap blanks =>
      intro tail _ _
      rw [List.cons_append, List.append_assoc, parseJson_brace (by omega),
        skipBlanks_append blanks, List.singleton_append, skipBlanks_cons (by decide)]
      rfl
  | @object _ members text spelled ih =>
      intro tail enough _
      simp only [List.length_cons, List.length_append, List.length_nil] at enough
      have inner := ih deep fuel tail (by omega)
      rcases skipBlanks_members spelled (125 :: tail) with ⟨more, first⟩
      rw [List.cons_append, List.append_assoc, List.singleton_append,
        parseJson_brace (by omega), first, inner]
      rfl
  | @item _ value before literal after blanks white spelled ih =>
      intro tail enough token
      simp only [List.length_append] at enough
      have closed := closed_blanks white token.1
      have inner := ih (show depth + 1 + _ = maxDepth by omega) fuel (after ++ tail) (by omega)
        closed
      refine ⟨after ++ tail, ?_, (skipBlanks_append white tail).trans token.2⟩
      rw [← inner, List.append_assoc, List.append_assoc]
      -- the white space in front is skipped
      simp only [parseJson, skipBlanks_append blanks]
  | @member _ pieces value before key after text blanks spells white spelled ih =>
      intro tail enough token
      simp only [List.length_append, List.length_cons] at enough
      rcases ih deep fuel tail (by omega) token with ⟨rest, parsed, left⟩
      refine ⟨key ++ 34 :: (after ++ 58 :: (text ++ tail)), after ++ 58 :: (text ++ tail),
        text ++ tail, rest, ?_, ?_, ?_, parsed, left⟩
      · rw [List.append_assoc, skipBlanks_append blanks, List.cons_append,
          skipBlanks_cons (by decide)]
        simp
      · rw [parseString_complete spells]
        rfl
      · rw [skipBlanks_append white, skipBlanks_cons (by decide)]
  | @lastItem _ value text spelled ih =>
      intro tail enough
      have long := length_pos_of_spelled spelled
      rcases fuel with _ | _ | fuel
      iterate 2 omega
      rcases ih deep fuel (93 :: tail) (by omega) (token_cons (by decide)) with
        ⟨rest, parsed, left⟩
      rw [parseItems, parsed, Option.bind_some, left]
      rfl
  | @moreItems _ value others text rest spelled spelled' ih ih' =>
      intro tail enough
      simp only [List.length_append, List.length_cons] at enough
      have long := length_pos_of_spelled spelled
      rcases fuel with _ | _ | fuel
      iterate 2 omega
      rcases ih deep fuel (44 :: (rest ++ 93 :: tail)) (by omega) (token_cons (by decide)) with
        ⟨behind, parsed, left⟩
      have later := ih' deep (fuel + 1) tail (by omega)
      rw [List.append_assoc, List.cons_append, parseItems, parsed, Option.bind_some, left]
      simp only [later, Option.map_some]
  | @lastMember _ key value text spelled ih =>
      intro tail enough
      have long := length_pos_of_spelled spelled
      rcases fuel with _ | _ | fuel
      iterate 2 omega
      rcases ih deep fuel (125 :: tail) (by omega) (token_cons (by decide)) with
        ⟨inside, behind, colon, rest, quote, named, gap, parsed, left⟩
      rw [parseMembers, quote]
      simp only [named, Option.bind_some, gap, parsed, left]
  | @moreMembers _ key value others text rest spelled spelled' ih ih' =>
      intro tail enough
      simp only [List.length_append, List.length_cons] at enough
      have long := length_pos_of_spelled spelled
      rcases fuel with _ | _ | fuel
      iterate 2 omega
      rcases ih deep fuel (44 :: (rest ++ 125 :: tail)) (by omega) (token_cons (by decide)) with
        ⟨inside, behind, colon, rest, quote, named, gap, parsed, left⟩
      have later := ih' deep (fuel + 1) tail (by omega)
      rw [List.append_assoc, List.cons_append, parseMembers, quote]
      simp only [named, Option.bind_some, gap, parsed, left, later, Option.map_some]

/-! ## Documents -/

/-- What the parser accepts is a value with nothing but white space around it. -/
theorem spelled_of_parse {document : Bytes} {value : JsonText}
    (parsed : parse document = some value) :
    ∃ before literal after, document = before ++ (literal ++ after) ∧ Blanks before ∧
      Blanks after ∧ Spelled maxDepth (.value value) literal := by
  rcases Option.bind_eq_some_iff.mp parsed with ⟨⟨value, rest⟩, parsed, ended⟩
  rcases (sound _).value parsed with ⟨levels, before, literal, deep, split, blanks, spelled⟩
  split at ended
  next nothing =>
    cases ended
    rcases blanks_skipBlanks rest with ⟨after, behind, white⟩
    rw [nothing, List.append_nil] at behind
    subst behind
    obtain rfl : levels = maxDepth := by omega
    exact ⟨before, literal, rest, split, blanks, white, spelled⟩
  next => cases ended

theorem parse_of_spelled {before literal after : Bytes} {value : JsonText}
    (blanks : Blanks before) (white : Blanks after)
    (spelled : Spelled maxDepth (.value value) literal) :
    parse (before ++ (literal ++ after)) = some value := by
  have nothing : skipBlanks after = [] := List.dropWhile_eq_nil_iff.mpr white
  have closed : Closed after := by
    have behind := closed_blanks white (show Closed [] by simp [Closed])
    rwa [List.append_nil] at behind
  have parsed := reads spelled (Nat.zero_add _)
    (2 * (before ++ (literal ++ after)).length + 1) after (by
      simp only [List.length_append]
      omega) closed
  rw [parse, Option.bind_eq_some_iff]
  refine ⟨(value, after), ?_, by rw [if_pos nothing]⟩
  rw [← parsed, parseJson, parseJson, skipBlanks_append blanks]

/-- The parser answers with a value exactly if the document is spelled so, with nothing but white
space around it.  An object is here the list of the members of the text, order and repetitions
kept, of which the `std::map` keeps the last of equal keys. -/
theorem parse_eq_some_iff {document : Bytes} {value : JsonText} :
    parse document = some value ↔
      ∃ before literal after, document = before ++ (literal ++ after) ∧ Blanks before ∧
        Blanks after ∧ Spelled maxDepth (.value value) literal := by
  constructor
  · exact spelled_of_parse
  · intro document
    rcases document with ⟨before, literal, after, rfl, blanks, white, spelled⟩
    exact parse_of_spelled blanks white spelled

/-! ## What is refused -/

/-- A byte that a value or the white space in front of it begins with. -/
def opens (byte : UInt8) : Bool :=
  isBlank byte || isDigit byte || (ascii "ntf-\"[\x7b").contains byte

theorem opens_of_spelled {levels : Nat} {value : JsonText} {literal : Bytes}
    (spelled : Spelled levels (.value value) literal) :
    ∃ byte more, literal = byte :: more ∧ opens byte = true := by
  cases spelled with
  | null | true | false | string | emptyArray | array | emptyObject | object =>
      exact ⟨_, _, rfl, by decide⟩
  | number isNumber =>
      rcases (parseNumber_starts isNumber).1 with ⟨byte, more, rfl, rfl | digit⟩
      · exact ⟨_, _, rfl, by decide⟩
      · exact ⟨_, _, rfl, by simp [opens, digit]⟩

theorem parse_eq_none {byte : UInt8} (closed : opens byte = false) (more : Bytes) :
    parse (byte :: more) = none := by
  cases parsed : parse (byte :: more) with
  | none => rfl
  | some value =>
      rcases spelled_of_parse parsed with ⟨before, literal, after, split, blanks, -, spelled⟩
      rcases opens_of_spelled spelled with ⟨first, rest, rfl, opened⟩
      cases before with
      | nil =>
          cases split
          cases closed.symm.trans opened
      | cons blank before =>
          cases split
          have white := blanks byte List.mem_cons_self
          simp [opens, white] at closed

end JsonText

end DMProxy.Text
