import DMProxy.Text.JsonGrammar
import DMProxy.Text.Utf8

/-!
# The characters of JSON strings

The parser copies the bytes of a string literal, and encodes what is escaped with `\u`.  It does
not ask whether a surrogate has its other half.  The strings that it reads in a document in valid
UTF-8 are valid UTF-8 exactly if every surrogate that is escaped in the document belongs to a
pair.  Among them are those of a member that a later one with its key replaces in the `std::map`.
-/

namespace DMProxy.Text

/-- An ASCII byte stands between two valid texts, or in none. -/
theorem utf8_split {byte : UInt8} (ascii : byte < 0x80) (first second : Bytes) :
    Utf8 (first ++ byte :: second) ↔ Utf8 first ∧ Utf8 second := by
  have single : Utf8 [byte] := utf8_one (UInt8.lt_iff_toNat_lt.mp ascii)
  constructor
  · intro whole
    rw [utf8_iff, Utf8State.run_append, Option.bind_eq_some_iff] at whole
    rcases whole with ⟨state, ran, rest⟩
    have restart := Utf8State.run_append_of_utf8 (List.cons_ne_nil byte []) single state second
    rw [List.singleton_append, rest] at restart
    split at restart
    next boundary => exact ⟨utf8_iff.mpr (boundary ▸ ran), utf8_iff.mpr restart.symm⟩
    next => cases restart
  · intro parts
    have tail : Utf8 (byte :: second) := single.append parts.2
    exact parts.1.append tail

namespace JsonText

/-! ## Surrogates -/

/-- The number of a surrogate, which is no character. -/
def Surrogate (point : Nat) : Prop :=
  0xd800 ≤ point ∧ point ≤ 0xdfff

instance (point : Nat) : Decidable (Surrogate point) :=
  inferInstanceAs (Decidable (_ ∧ _))

/-- Every surrogate among the pieces belongs to a pair. -/
def paired : List Piece → Bool
  | [] => true
  | .byte _ :: rest => paired rest
  | .unit high :: .unit low :: rest =>
      if SurrogatePair high low then paired rest
      else !decide (Surrogate high) && paired (.unit low :: rest)
  | .unit point :: rest => !decide (Surrogate point) && paired rest

/-- What the escapes of a text stand for; other bytes stand for themselves. -/
def unescaped : Bytes → List Piece
  | [] => []
  | 92 :: 117 :: first :: second :: third :: fourth :: rest =>
      match hexPoint first second third fourth with
      | none => unescaped rest
      | some point => .unit point :: unescaped rest
  | 92 :: letter :: rest => .byte ((shortEscape letter).getD letter) :: unescaped rest
  | byte :: rest => .byte byte :: unescaped rest

theorem paired_append_byte (pieces : List Piece) (value : UInt8) (rest : List Piece) :
    paired (pieces ++ .byte value :: rest) = (paired pieces && paired rest) := by
  induction pieces using paired.induct with
  | case1 => rfl
  | case2 byte pieces ih => exact ih
  | case3 high low pieces pair ih =>
      simp only [List.cons_append, paired, if_pos pair]
      exact ih
  | case4 high low pieces apart ih =>
      simp only [List.cons_append] at ih
      simp only [List.cons_append, paired, if_neg apart, ih, Bool.and_assoc]
  | case5 point pieces alone ih =>
      cases pieces with
      | nil => simp [paired]
      | cons head pieces =>
          cases head with
          | byte other =>
              simp only [List.cons_append, paired] at ih
              simp only [List.cons_append, paired, ih, Bool.and_assoc]
          | unit low => exact absurd rfl (alone low pieces)

theorem unescaped_cons {byte : UInt8} (plain : byte ≠ 92) (rest : Bytes) :
    unescaped (byte :: rest) = .byte byte :: unescaped rest := by
  rw [unescaped]
  · intro first second third fourth rest same
    exact absurd same plain
  · intro letter rest same
    exact absurd same plain

/-- Where nothing is escaped, there are no surrogates. -/
theorem paired_unescaped_append {text : Bytes} (plain : 92 ∉ text) (rest : Bytes) :
    paired (unescaped (text ++ rest)) = paired (unescaped rest) := by
  induction text with
  | nil => rfl
  | cons byte text ih =>
      have other : byte ≠ 92 := fun same => plain (same ▸ List.mem_cons_self)
      rw [List.cons_append, unescaped_cons other, paired]
      exact ih fun member => plain (List.mem_cons_of_mem byte member)

theorem unescaped_spelled {pieces : List Piece} {literal : Bytes}
    (spelled : Spells pieces literal) (rest : Bytes) :
    unescaped (literal ++ rest) = pieces ++ unescaped rest := by
  induction spelled with
  | nil => rfl
  | plain _ _ other _ ih => rw [List.cons_append, unescaped_cons other, ih, List.cons_append]
  | short escape _ ih =>
      rw [List.cons_append, List.cons_append, unescaped]
      · rw [escape, Option.getD_some, ih, List.cons_append]
      · intro first second third fourth rest same
        subst same
        cases escape
  | unicode valid _ ih =>
      simp only [List.cons_append, unescaped, valid, ih]

/-! ## What the parser encodes -/

theorem lt_of_hexValue {byte : UInt8} {value : Nat} (digit : hexValue byte = some value) :
    byte < 0x80 ∧ value < 16 := by
  simp only [hexValue, isDigit, Bool.and_eq_true, decide_eq_true_eq, UInt8.le_iff_toNat_le,
    UInt8.reduceToNat] at digit
  simp only [UInt8.lt_iff_toNat_lt, UInt8.reduceToNat]
  grind

theorem lt_of_hexPoint {first second third fourth : UInt8} {point : Nat}
    (valid : hexPoint first second third fourth = some point) :
    (∀ byte ∈ [92, 117, first, second, third, fourth], byte < 0x80) ∧ point < 0x10000 := by
  simp only [hexPoint, Option.bind_eq_bind, Option.bind_eq_some_iff, Option.pure_def] at valid
  rcases valid with ⟨_, one, _, two, _, three, _, four, same⟩
  have one := lt_of_hexValue one
  have two := lt_of_hexValue two
  have three := lt_of_hexValue three
  have four := lt_of_hexValue four
  cases same
  refine ⟨?_, by omega⟩
  simp only [List.mem_cons, List.not_mem_nil, or_false, forall_eq_or_imp, forall_eq]
  exact ⟨by decide, by decide, one.1, two.1, three.1, four.1⟩

theorem lt_of_shortEscape {letter value : UInt8} (escape : shortEscape letter = some value) :
    letter < 0x80 ∧ value < 0x80 := by
  simp only [shortEscape] at escape
  grind

/-- A number that is no surrogate is encoded as the character it is. -/
theorem utf8_encodeUtf8 {point : Nat} (bounded : point < 0x110000) (single : ¬Surrogate point) :
    Utf8 (encodeUtf8 point) := by
  have valid : point.isValidChar := by
    simp only [Surrogate] at single
    simp only [Nat.isValidChar]
    omega
  have same : encodeUtf8 point = String.utf8EncodeChar (Char.ofNat point) := by
    rw [utf8EncodeChar_ofNat valid, encodeUtf8]
    simp only [Nat.toUInt8_eq]
    by_cases one : point < 0x80
    · rw [if_pos one, if_pos (show point ≤ 0x7f by omega)]
    · rw [if_neg one, if_neg (show ¬point ≤ 0x7f by omega)]
      by_cases two : point < 0x800
      · rw [if_pos two, if_pos (show point ≤ 0x7ff by omega),
          Nat.mod_eq_of_lt (by omega : point / 64 < 0x20)]
      · rw [if_neg two, if_neg (show ¬point ≤ 0x7ff by omega)]
        by_cases three : point < 0x10000
        · rw [if_pos three, if_pos (show point ≤ 0xffff by omega),
            Nat.mod_eq_of_lt (by omega : point / 4096 < 0x10)]
        · rw [if_neg three, if_neg (show ¬point ≤ 0xffff by omega),
            Nat.mod_eq_of_lt (by omega : point / 262144 < 0x08)]
  rw [same]
  exact .encodeChar _

/-- What a surrogate is encoded as cannot be continued to valid UTF-8. -/
theorem run_encodeUtf8_surrogate {point : Nat} (surrogate : Surrogate point) (rest : Bytes) :
    Utf8State.boundary.run (encodeUtf8 point ++ rest) = none := by
  simp only [Surrogate] at surrogate
  have lead : point / 0x1000 + 0xe0 = 0xed := by omega
  have high : 0x9f < point / 0x40 % 0x40 + 0x80 ∧ point / 0x40 % 0x40 + 0x80 < 0x100 := by omega
  rw [encodeUtf8, if_neg (by omega), if_neg (by omega), if_pos (by omega), lead]
  have second : (point / 0x40 % 0x40 + 0x80).toUInt8.toNat = point / 0x40 % 0x40 + 0x80 := by
    rw [Nat.toUInt8_eq, UInt8.toNat_ofNat', Nat.mod_eq_of_lt high.2]
  have refused : (Utf8State.within 1 0x80 0x9f).step (point / 0x40 % 0x40 + 0x80).toUInt8 =
      none := by
    rw [Utf8State.step, second, if_neg (by omega)]
  have first : Utf8State.boundary.step (0xed : Nat).toUInt8 = some (.within 1 0x80 0x9f) := by
    decide
  rw [List.cons_append, Utf8State.run_cons, first, Option.bind_some, List.cons_append,
    Utf8State.run_cons, refused, Option.bind_none]

/-- The validator takes an escape only between two characters. -/
theorem run_escape {escape rest : Bytes} (nonempty : escape ≠ [])
    (ascii : ∀ byte ∈ escape, byte < 0x80) {state : Utf8State}
    (ran : state.run (escape ++ rest) = some .boundary) :
    state = .boundary ∧ Utf8State.boundary.run rest = some .boundary := by
  rw [Utf8State.run_append_of_utf8 nonempty (utf8_of_ascii ascii)] at ran
  split at ran
  next boundary => exact ⟨boundary, ran⟩
  next => cases ran

theorem run_behind {first : Bytes} (valid : Utf8 first) (rest : Bytes) :
    Utf8State.boundary.run (first ++ rest) = Utf8State.boundary.run rest := by
  rw [Utf8State.run_append, utf8_iff.mp valid, Option.bind_some]

/-- A code unit of its own. -/
theorem run_unit_iff {point : Nat} (bounded : point < 0x10000) {rest : Bytes} {others : Bool}
    (later : Utf8State.boundary.run rest = some .boundary ↔ others = true) :
    Utf8State.boundary.run (encodeUtf8 point ++ rest) = some .boundary ↔
      (!decide (Surrogate point) && others) = true := by
  by_cases surrogate : Surrogate point
  · rw [run_encodeUtf8_surrogate surrogate]
    simp [surrogate]
  · rw [run_behind (utf8_encodeUtf8 (by omega) surrogate), later]
    simp [surrogate]

/-- A literal in valid UTF-8 stands for valid UTF-8 exactly if its surrogates are paired. -/
theorem run_pieceText_iff {pieces : List Piece} {literal : Bytes} {state : Utf8State}
    (spelled : Spells pieces literal) (ran : state.run literal = some .boundary) :
    state.run (pieceText pieces) = some .boundary ↔ paired pieces = true := by
  induction pieces using pieceText.induct generalizing literal state with
  | case1 =>
      cases spelled
      exact iff_of_true ran rfl
  | case2 value pieces ih =>
      rw [pieceText, paired]
      cases spelled with
      | plain _ _ _ later =>
          rw [Utf8State.run_cons, Option.bind_eq_some_iff] at ran
          rcases ran with ⟨next, stepped, ran⟩
          rw [Utf8State.run_cons, stepped, Option.bind_some]
          exact ih later ran
      | @short letter _ _ _ escape later =>
          have ascii := lt_of_shortEscape escape
          have escaped : ∀ byte ∈ [92, letter], byte < 0x80 := by simpa using ascii.1
          have taken := run_escape (List.cons_ne_nil 92 [letter]) escaped ran
          have single : Utf8 [value] := utf8_one (UInt8.lt_iff_toNat_lt.mp ascii.2)
          rw [taken.1, ← List.singleton_append, run_behind single]
          exact ih later taken.2
  | case3 high low pieces pair ih =>
      cases spelled with
      | unicode valid next =>
          cases next with
          | unicode valid' later =>
              have ascii := lt_of_hexPoint valid
              have ascii' := lt_of_hexPoint valid'
              have taken := run_escape (List.cons_ne_nil _ _) ascii.1 ran
              have taken' := run_escape (List.cons_ne_nil _ _) ascii'.1 taken.2
              have character : Utf8 (encodeUtf8 (combined high low)) := by
                simp only [SurrogatePair] at pair
                refine utf8_encodeUtf8 ?_ ?_
                · simp only [combined]
                  omega
                · simp only [combined, Surrogate]
                  omega
              rw [pieceText_pair pair, paired, if_pos pair, taken.1, run_behind character]
              exact ih later taken'.2
  | case4 high low pieces apart ih =>
      cases spelled with
      | unicode valid later =>
          have ascii := lt_of_hexPoint valid
          have taken := run_escape (List.cons_ne_nil _ _) ascii.1 ran
          rw [pieceText_apart apart, paired, if_neg apart, taken.1]
          exact run_unit_iff ascii.2 (ih later taken.2)
  | case5 point pieces alone ih =>
      cases spelled with
      | unicode valid later =>
          have ascii := lt_of_hexPoint valid
          have taken := run_escape (List.cons_ne_nil _ _) ascii.1 ran
          rw [pieceText, paired, taken.1]
          · exact run_unit_iff ascii.2 (ih later taken.2)
          · exact alone
          · exact alone

theorem utf8_pieceText_iff {pieces : List Piece} {literal : Bytes}
    (spelled : Spells pieces literal) (valid : Utf8 literal) :
    Utf8 (pieceText pieces) ↔ paired pieces = true := by
  rw [utf8_iff]
  exact run_pieceText_iff spelled (utf8_iff.mp valid)

/-! ## Documents -/

mutual

/-- The strings that the parser reads in a value, the keys of members among them.  Those of a
member that a later one with the same key replaces are read as well. -/
def readStrings : JsonText → List Bytes
  | .null | .bool _ | .number _ => []
  | .string value => [value]
  | .array items => readStringsItems items
  | .object members => readStringsMembers members

def readStringsItems : List JsonText → List Bytes
  | [] => []
  | item :: items => readStrings item ++ readStringsItems items

def readStringsMembers : List (Bytes × JsonText) → List Bytes
  | [] => []
  | (key, value) :: members => key :: (readStrings value ++ readStringsMembers members)

end

def Phrase.readStrings : Phrase → List Bytes
  | .value json | .item json => json.readStrings
  | .member key json => key :: json.readStrings
  | .items values => readStringsItems values
  | .members entries => readStringsMembers entries

theorem paired_unescaped_cons {byte : UInt8} (plain : byte ≠ 92) (rest : Bytes) :
    paired (unescaped (byte :: rest)) = paired (unescaped rest) := by
  rw [unescaped_cons plain, paired]

theorem paired_quoted {pieces : List Piece} {literal : Bytes} (spelled : Spells pieces literal)
    (valid : Utf8 literal) (rest : Bytes) :
    paired (unescaped (34 :: (literal ++ 34 :: rest))) = true ↔
      Utf8 (pieceText pieces) ∧ paired (unescaped rest) = true := by
  rw [paired_unescaped_cons (by decide), unescaped_spelled spelled,
    unescaped_cons (by decide), paired_append_byte, Bool.and_eq_true,
    utf8_pieceText_iff spelled valid]

theorem ascii_of_blanks {text : Bytes} (blanks : Blanks text) : Utf8 text ∧ 92 ∉ text := by
  have blank (byte : UInt8) (member : byte ∈ text) : byte < 0x80 ∧ byte ≠ 92 := by
    have white := blanks byte member
    simp only [isBlank, Bool.or_eq_true, beq_iff_eq] at white
    rcases white with ((rfl | rfl) | rfl) | rfl <;> decide
  exact ⟨utf8_of_ascii fun byte member => (blank byte member).1,
    fun member => (blank 92 member).2 rfl⟩

theorem plain_of_isNumber {literal : Bytes} (number : IsNumber literal) : 92 ∉ literal := by
  intro member
  have cut := (cuts_parseNumber _ _ _ number).2 92 member
  exact absurd cut (by decide)

/-- The strings that are read in a phrase in valid UTF-8 are valid exactly if the surrogates that
are escaped in it are paired. -/
theorem paired_spelled {levels : Nat} {phrase : Phrase} {text : Bytes}
    (spelled : Spelled levels phrase text) (valid : Utf8 text) (rest : Bytes) :
    paired (unescaped (text ++ rest)) = true ↔
      (∀ string ∈ phrase.readStrings, Utf8 string) ∧ paired (unescaped rest) = true := by
  induction spelled generalizing rest with
  | null | true | false =>
      rw [paired_unescaped_append (by decide)]
      simp [Phrase.readStrings, readStrings]
  | number number =>
      rw [paired_unescaped_append (plain_of_isNumber number)]
      simp [Phrase.readStrings, readStrings]
  | @string _ pieces literal spelled =>
      have inner := (utf8_split (by decide) literal []).mp
        ((utf8_split (by decide) [] (literal ++ [34])).mp valid).2
      rw [List.cons_append, List.append_assoc]
      simpa [Phrase.readStrings, readStrings] using paired_quoted spelled inner.1 rest
  | emptyArray blanks | emptyObject blanks =>
      rw [List.cons_append, paired_unescaped_cons (by decide), List.append_assoc,
        paired_unescaped_append (ascii_of_blanks blanks).2, List.singleton_append,
        paired_unescaped_cons (by decide)]
      simp [Phrase.readStrings, readStrings, readStringsItems, readStringsMembers]
  | @array _ _ text spelled ih | @object _ _ text spelled ih =>
      have inner := (utf8_split (by decide) text []).mp
        ((utf8_split (by decide) [] (text ++ _)).mp valid).2
      rw [List.cons_append, paired_unescaped_cons (by decide), List.append_assoc, ih inner.1,
        List.singleton_append, paired_unescaped_cons (by decide)]
      simp only [Phrase.readStrings, readStrings]
  | item blanks white spelled ih =>
      rw [utf8_append_iff (ascii_of_blanks blanks).1,
        utf8_append_iff_left (ascii_of_blanks white).1] at valid
      rw [List.append_assoc, paired_unescaped_append (ascii_of_blanks blanks).2, List.append_assoc,
        ih valid, paired_unescaped_append (ascii_of_blanks white).2]
      simp only [Phrase.readStrings]
  | @member _ _ _ before key after text blanks spelled white value ih =>
      rw [utf8_split (by decide) before, utf8_split (by decide) key,
        utf8_split (by decide) after] at valid
      rw [List.append_assoc, paired_unescaped_append (ascii_of_blanks blanks).2, List.cons_append,
        List.append_assoc, List.cons_append, paired_quoted spelled valid.2.1, List.append_assoc,
        paired_unescaped_append (ascii_of_blanks white).2, List.cons_append,
        paired_unescaped_cons (by decide), ih valid.2.2.2]
      simp only [Phrase.readStrings, List.mem_cons, forall_eq_or_imp, and_assoc]
  | lastItem spelled ih =>
      simpa [Phrase.readStrings, readStringsItems] using ih valid rest
  | lastMember spelled ih =>
      simpa [Phrase.readStrings, readStringsMembers] using ih valid rest
  | @moreItems _ _ _ text others first later ih ih' =>
      have parts := (utf8_split (by decide) text others).mp valid
      rw [List.append_assoc, ih parts.1, List.cons_append, paired_unescaped_cons (by decide),
        ih' parts.2]
      simp only [Phrase.readStrings, readStringsItems, List.mem_append, or_imp, forall_and,
        and_assoc]
  | @moreMembers _ _ _ _ text others first later ih ih' =>
      have parts := (utf8_split (by decide) text others).mp valid
      rw [List.append_assoc, ih parts.1, List.cons_append, paired_unescaped_cons (by decide),
        ih' parts.2]
      simp only [Phrase.readStrings, readStringsMembers, List.mem_cons, List.mem_append, or_imp,
        forall_and, and_assoc]

theorem utf8_readStrings {document : Bytes} {value : JsonText} (valid : Utf8 document)
    (parsed : parse document = some value) :
    (∀ string ∈ value.readStrings, Utf8 string) ↔ paired (unescaped document) = true := by
  rcases spelled_of_parse parsed with ⟨before, literal, after, rfl, blanks, white, spelled⟩
  have whole := paired_spelled spelled
    ((utf8_append_iff_left (ascii_of_blanks white).1 literal).mp
      ((utf8_append_iff (ascii_of_blanks blanks).1 _).mp valid)) (after ++ [])
  rw [paired_unescaped_append (ascii_of_blanks white).2, List.append_nil] at whole
  rw [paired_unescaped_append (ascii_of_blanks blanks).2, whole]
  simp [Phrase.readStrings, unescaped, paired]

/-- The strings that are read in a document in valid UTF-8 are valid exactly if the surrogates
that are escaped in it are paired. -/
theorem utf8_readStrings_iff {document : Bytes} {value : JsonText} (valid : Utf8 document)
    (parsed : parse document = some value) :
    (∀ string ∈ value.readStrings, Utf8 string) ↔ paired (unescaped document) = true :=
  utf8_readStrings valid parsed

/-- A surrogate without its other half. -/
theorem utf8_readStrings_iff_half :
    (∀ text ∈ (string [0xed, 0xa0, 0xbd]).readStrings, Utf8 text) ↔
      paired (unescaped (ascii "\"\\ud83d\"")) = true := by
  have spelled : Spelled maxDepth (.value (.string (pieceText [.unit 0xd83d])))
      (34 :: ([92, 117, 100, 56, 51, 100] ++ [34])) :=
    .string (.unicode rfl .nil)
  have nothing : Blanks [] := by decide
  exact utf8_readStrings_iff (by decide) (parse_of_spelled nothing nothing spelled)

end JsonText

end DMProxy.Text
