import DMProxy.Text.Bytes

/-!
# UTF-8

A text is valid UTF-8 if it is the encoding of some characters.  A validator reads it byte by
byte, and its state says what has to follow.
-/

namespace DMProxy.Text

/-- The bytes are the encoding of some characters. -/
def Utf8 (bytes : Bytes) : Prop :=
  ∃ chars : List Char, bytes = chars.flatMap String.utf8EncodeChar

namespace Utf8

theorem nil : Utf8 [] := ⟨[], rfl⟩

theorem append {first second : Bytes} (one : Utf8 first) (two : Utf8 second) :
    Utf8 (first ++ second) := by
  rcases one with ⟨chars, rfl⟩
  rcases two with ⟨others, rfl⟩
  exact ⟨chars ++ others, List.flatMap_append.symm⟩

theorem encodeChar (char : Char) : Utf8 (String.utf8EncodeChar char) :=
  ⟨[char], (List.flatMap_singleton _ _).symm⟩

end Utf8

/-! ## The validator -/

/-- A validator is at the boundary of two characters, or expects a continuation byte in a range
and then a number of others. -/
inductive Utf8State where
  | boundary
  | within (more low high : Nat)
  deriving DecidableEq, Repr

namespace Utf8State

/-- The state after the first byte of a character. -/
def lead (byte : Nat) : Option Utf8State :=
  if byte < 0x80 then some .boundary
  else if byte < 0xc2 then none
  else if byte < 0xe0 then some (.within 0 0x80 0xbf)
  else if byte = 0xe0 then some (.within 1 0xa0 0xbf)
  else if byte = 0xed then some (.within 1 0x80 0x9f)
  else if byte < 0xf0 then some (.within 1 0x80 0xbf)
  else if byte = 0xf0 then some (.within 2 0x90 0xbf)
  else if byte < 0xf4 then some (.within 2 0x80 0xbf)
  else if byte = 0xf4 then some (.within 2 0x80 0x8f)
  else none

/-- The state after a continuation byte. -/
def next : Nat → Utf8State
  | 0 => .boundary
  | more + 1 => .within more 0x80 0xbf

def step : Utf8State → UInt8 → Option Utf8State
  | .boundary, byte => lead byte.toNat
  | .within more low high, byte =>
      if 0x80 ≤ byte.toNat ∧ byte.toNat < 0xc0 ∧ low ≤ byte.toNat ∧ byte.toNat ≤ high then
        some (next more)
      else none

/-- The state after some bytes; `none` when they cannot be continued to valid UTF-8. -/
def run (state : Utf8State) : Bytes → Option Utf8State
  | [] => some state
  | byte :: bytes => (state.step byte).bind fun next => next.run bytes

@[simp] theorem run_nil (state : Utf8State) : state.run [] = some state := rfl

@[simp] theorem run_cons (state : Utf8State) (byte : UInt8) (bytes : Bytes) :
    state.run (byte :: bytes) = (state.step byte).bind fun next => next.run bytes := rfl

theorem run_append (state : Utf8State) (first second : Bytes) :
    state.run (first ++ second) = (state.run first).bind fun middle => middle.run second := by
  induction first generalizing state with
  | nil => rfl
  | cons byte first ih =>
      simp only [List.cons_append, run_cons]
      cases state.step byte with
      | none => rfl
      | some next => exact ih next

end Utf8State

/-! ## Characters -/

/-- The bytes of the encoding of a number that is a character. -/
theorem utf8EncodeChar_ofNat {value : Nat} (valid : value.isValidChar) :
    String.utf8EncodeChar (Char.ofNat value) =
      if value ≤ 0x7f then [UInt8.ofNat value]
      else if value ≤ 0x7ff then
        [UInt8.ofNat (value / 64 % 0x20 + 0xc0), UInt8.ofNat (value % 0x40 + 0x80)]
      else if value ≤ 0xffff then
        [UInt8.ofNat (value / 4096 % 0x10 + 0xe0), UInt8.ofNat (value / 64 % 0x40 + 0x80),
          UInt8.ofNat (value % 0x40 + 0x80)]
      else
        [UInt8.ofNat (value / 262144 % 0x08 + 0xf0), UInt8.ofNat (value / 4096 % 0x40 + 0x80),
          UInt8.ofNat (value / 64 % 0x40 + 0x80), UInt8.ofNat (value % 0x40 + 0x80)] := by
  have same : (Char.ofNat value).val.toNat = value := by
    rw [Char.ofNat, dif_pos valid]
    rfl
  simp only [String.utf8EncodeChar, same]

namespace Utf8State

/-- A continuation byte in the range is taken. -/
theorem step_within {more low high value : Nat} (bounds : 0x80 ≤ value ∧ value < 0xc0)
    (range : low ≤ value ∧ value ≤ high) :
    (within more low high).step (UInt8.ofNat value) = some (next more) := by
  have same : (UInt8.ofNat value).toNat = value := by
    rw [UInt8.toNat_ofNat']
    omega
  simp only [step, same]
  exact if_pos ⟨bounds.1, bounds.2, range⟩

theorem step_boundary {value : Nat} (byte : value < 0x100) :
    boundary.step (UInt8.ofNat value) = lead value := by
  rw [step, UInt8.toNat_ofNat', Nat.mod_eq_of_lt (by omega)]

/-- What follows the first byte of a character of two, three or four bytes. -/
theorem lead_two {byte : Nat} (range : 0xc2 ≤ byte ∧ byte < 0xe0) :
    lead byte = some (.within 0 0x80 0xbf) := by
  rw [lead, if_neg (by omega), if_neg (by omega), if_pos (by omega)]

theorem lead_three {byte : Nat} (range : 0xe0 ≤ byte ∧ byte < 0xf0) :
    lead byte = some (.within 1 (if byte = 0xe0 then 0xa0 else 0x80)
      (if byte = 0xed then 0x9f else 0xbf)) := by
  rw [lead, if_neg (by omega), if_neg (by omega), if_neg (by omega)]
  by_cases least : byte = 0xe0
  · subst least
    rfl
  by_cases surrogates : byte = 0xed
  · subst surrogates
    rfl
  simp only [least, surrogates, if_false, if_pos range.2]

theorem lead_four {byte : Nat} (range : 0xf0 ≤ byte ∧ byte ≤ 0xf4) :
    lead byte = some (.within 2 (if byte = 0xf0 then 0x90 else 0x80)
      (if byte = 0xf4 then 0x8f else 0xbf)) := by
  rw [lead, if_neg (by omega), if_neg (by omega), if_neg (by omega), if_neg (by omega),
    if_neg (by omega), if_neg (by omega)]
  by_cases least : byte = 0xf0
  · subst least
    rfl
  by_cases most : byte = 0xf4
  · subst most
    rfl
  simp only [least, most, if_false, if_pos (show byte < 0xf4 by omega)]

/-- The validator is at a boundary again after a character. -/
theorem run_encodeChar (char : Char) :
    boundary.run (String.utf8EncodeChar char) = some .boundary := by
  have valid : char.val.toNat < 0xd800 ∨ 0xdfff < char.val.toNat ∧ char.val.toNat < 0x110000 :=
    char.valid
  simp only [String.utf8EncodeChar]
  generalize char.val.toNat = value at valid
  split
  next one =>
    rw [run_cons, step_boundary (by omega), lead, if_pos (by omega)]
    rfl
  split
  next two =>
    rw [run_cons, step_boundary (by omega), lead_two (by omega), Option.bind_some, run_cons,
      step_within (by omega) (by omega)]
    rfl
  split
  next three =>
    rw [run_cons, step_boundary (by omega), lead_three (by omega), Option.bind_some, run_cons,
      step_within (by omega) (by split <;> split <;> omega), Option.bind_some, next, run_cons,
      step_within (by omega) (by omega)]
    rfl
  next four =>
    rw [run_cons, step_boundary (by omega), lead_four (by omega), Option.bind_some, run_cons,
      step_within (by omega) (by split <;> split <;> omega), Option.bind_some, next, run_cons,
      step_within (by omega) (by omega), Option.bind_some, next, run_cons,
      step_within (by omega) (by omega)]
    rfl

theorem run_of_utf8 {bytes : Bytes} (valid : Utf8 bytes) :
    boundary.run bytes = some .boundary := by
  rcases valid with ⟨chars, rfl⟩
  induction chars with
  | nil => rfl
  | cons char chars ih =>
      rw [List.flatMap_cons, run_append, run_encodeChar, Option.bind_some, ih]

/-- The first bytes of characters. -/
theorem lead_eq_some {byte : Nat} {state : Utf8State} (led : lead byte = some state) :
    (byte < 0x80 ∧ state = .boundary) ∨
      ((0xc2 ≤ byte ∧ byte < 0xe0) ∧ state = .within 0 0x80 0xbf) ∨
      ((0xe0 ≤ byte ∧ byte < 0xf0) ∧ state = .within 1 (if byte = 0xe0 then 0xa0 else 0x80)
        (if byte = 0xed then 0x9f else 0xbf)) ∨
      ((0xf0 ≤ byte ∧ byte ≤ 0xf4) ∧ state = .within 2 (if byte = 0xf0 then 0x90 else 0x80)
        (if byte = 0xf4 then 0x8f else 0xbf)) := by
  rcases Nat.lt_or_ge byte 0x80 with ascii | long
  · rw [lead, if_pos ascii] at led
    cases led
    exact .inl ⟨ascii, rfl⟩
  rcases Nat.lt_or_ge byte 0xc2 with trailing | long
  · rw [lead, if_neg (by omega), if_pos trailing] at led
    cases led
  rcases Nat.lt_or_ge byte 0xe0 with two | long
  · rw [lead_two ⟨long, two⟩] at led
    cases led
    exact .inr (.inl ⟨⟨long, two⟩, rfl⟩)
  rcases Nat.lt_or_ge byte 0xf0 with three | long
  · rw [lead_three ⟨long, three⟩] at led
    cases led
    exact .inr (.inr (.inl ⟨⟨long, three⟩, rfl⟩))
  rcases Nat.lt_or_ge byte 0xf5 with four | long
  · rw [lead_four ⟨long, by omega⟩] at led
    cases led
    exact .inr (.inr (.inr ⟨⟨long, by omega⟩, rfl⟩))
  · simp (disch := omega) only [lead, if_neg] at led
    cases led

/-- Inside of a character, the next byte continues it. -/
theorem run_within {more low high : Nat} {bytes : Bytes}
    (ran : (within more low high).run bytes = some .boundary) :
    ∃ byte rest, bytes = byte :: rest ∧ (0x80 ≤ byte.toNat ∧ byte.toNat < 0xc0) ∧
      (low ≤ byte.toNat ∧ byte.toNat ≤ high) ∧ (next more).run rest = some .boundary := by
  cases bytes with
  | nil => cases ran
  | cons byte rest =>
      simp only [run_cons, step] at ran
      split at ran
      next taken =>
        exact ⟨byte, rest, rfl, ⟨taken.1, taken.2.1⟩, ⟨taken.2.2.1, taken.2.2.2⟩, ran⟩
      next => cases ran

end Utf8State

/-- A byte is its number. -/
theorem ofNat_eq_of_toNat {value : Nat} (byte : UInt8) (same : value = byte.toNat) :
    UInt8.ofNat value = byte := by
  rw [same, UInt8.ofNat_toNat]

theorem utf8_ofNat {value : Nat} (_ : value.isValidChar) :
    Utf8 (String.utf8EncodeChar (Char.ofNat value)) :=
  .encodeChar _

theorem utf8_one {byte : UInt8} (range : byte.toNat < 0x80) : Utf8 [byte] := by
  have valid : byte.toNat.isValidChar := .inl (by omega)
  have encoded := utf8_ofNat valid
  rw [utf8EncodeChar_ofNat valid, if_pos (by omega), UInt8.ofNat_toNat] at encoded
  exact encoded

theorem utf8_two {first second : UInt8} (range : 0xc2 ≤ first.toNat ∧ first.toNat < 0xe0)
    (tail : 0x80 ≤ second.toNat ∧ second.toNat < 0xc0) : Utf8 [first, second] := by
  have valid : ((first.toNat - 0xc0) * 64 + (second.toNat - 0x80)).isValidChar :=
    .inl (by omega)
  have encoded := utf8_ofNat valid
  rw [utf8EncodeChar_ofNat valid, if_neg (by omega), if_pos (by omega),
    ofNat_eq_of_toNat first (by omega), ofNat_eq_of_toNat second (by omega)] at encoded
  exact encoded

theorem utf8_three {first second third : UInt8} (range : 0xe0 ≤ first.toNat ∧ first.toNat < 0xf0)
    (least : first.toNat = 0xe0 → 0xa0 ≤ second.toNat)
    (surrogates : first.toNat = 0xed → second.toNat ≤ 0x9f)
    (tail : 0x80 ≤ second.toNat ∧ second.toNat < 0xc0)
    (tail' : 0x80 ≤ third.toNat ∧ third.toNat < 0xc0) : Utf8 [first, second, third] := by
  have valid : ((first.toNat - 0xe0) * 4096 + (second.toNat - 0x80) * 64 +
      (third.toNat - 0x80)).isValidChar := by
    rw [Nat.isValidChar]
    omega
  have encoded := utf8_ofNat valid
  rw [utf8EncodeChar_ofNat valid, if_neg (by omega), if_neg (by omega), if_pos (by omega),
    ofNat_eq_of_toNat first (by omega), ofNat_eq_of_toNat second (by omega),
    ofNat_eq_of_toNat third (by omega)] at encoded
  exact encoded

theorem utf8_four {first second third fourth : UInt8}
    (range : 0xf0 ≤ first.toNat ∧ first.toNat ≤ 0xf4)
    (least : first.toNat = 0xf0 → 0x90 ≤ second.toNat)
    (most : first.toNat = 0xf4 → second.toNat ≤ 0x8f)
    (tail : 0x80 ≤ second.toNat ∧ second.toNat < 0xc0)
    (tail' : 0x80 ≤ third.toNat ∧ third.toNat < 0xc0)
    (tail'' : 0x80 ≤ fourth.toNat ∧ fourth.toNat < 0xc0) : Utf8 [first, second, third, fourth] := by
  have valid : ((first.toNat - 0xf0) * 262144 + (second.toNat - 0x80) * 4096 +
      (third.toNat - 0x80) * 64 + (fourth.toNat - 0x80)).isValidChar := by
    rw [Nat.isValidChar]
    omega
  have encoded := utf8_ofNat valid
  rw [utf8EncodeChar_ofNat valid, if_neg (by omega), if_neg (by omega), if_neg (by omega),
    ofNat_eq_of_toNat first (by omega), ofNat_eq_of_toNat second (by omega),
    ofNat_eq_of_toNat third (by omega), ofNat_eq_of_toNat fourth (by omega)] at encoded
  exact encoded

open Utf8State in
theorem utf8_of_run {bytes : Bytes} (ran : boundary.run bytes = some .boundary) : Utf8 bytes := by
  induction size : bytes.length using Nat.strong_induction_on generalizing bytes with
  | _ size ih =>
      subst size
      cases bytes with
      | nil => exact .nil
      | cons first rest =>
          rw [run_cons, Option.bind_eq_some_iff] at ran
          rcases ran with ⟨state, led, ran⟩
          rcases lead_eq_some led with ⟨range, rfl⟩ | ⟨range, rfl⟩ | ⟨range, rfl⟩ | ⟨range, rfl⟩
          · have shorter : rest.length < (first :: rest).length := Nat.lt_succ_self _
            exact (utf8_one range).append (ih _ shorter ran rfl)
          · rcases run_within ran with ⟨second, rest, rfl, tail, -, ran⟩
            have shorter : rest.length < (first :: second :: rest).length := by
              simp only [List.length_cons]
              omega
            exact (utf8_two range tail).append (ih _ shorter ran rfl)
          · rcases run_within ran with ⟨second, rest, rfl, tail, bounds, ran⟩
            rcases run_within ran with ⟨third, rest, rfl, tail', -, ran⟩
            have shorter : rest.length < (first :: second :: third :: rest).length := by
              simp only [List.length_cons]
              omega
            refine (utf8_three range ?_ ?_ tail tail').append (ih _ shorter ran rfl)
            · intro least
              rw [if_pos least] at bounds
              exact bounds.1
            · intro surrogates
              rw [if_pos surrogates] at bounds
              exact bounds.2
          · rcases run_within ran with ⟨second, rest, rfl, tail, bounds, ran⟩
            rcases run_within ran with ⟨third, rest, rfl, tail', -, ran⟩
            rcases run_within ran with ⟨fourth, rest, rfl, tail'', -, ran⟩
            have shorter : rest.length < (first :: second :: third :: fourth :: rest).length := by
              simp only [List.length_cons]
              omega
            refine (utf8_four range ?_ ?_ tail tail' tail'').append (ih _ shorter ran rfl)
            · intro least
              rw [if_pos least] at bounds
              exact bounds.1
            · intro most
              rw [if_pos most] at bounds
              exact bounds.2

/-- The validator accepts exactly the valid texts. -/
theorem utf8_iff {bytes : Bytes} :
    Utf8 bytes ↔ Utf8State.boundary.run bytes = some .boundary :=
  ⟨Utf8State.run_of_utf8, utf8_of_run⟩

instance (bytes : Bytes) : Decidable (Utf8 bytes) :=
  decidable_of_iff _ utf8_iff.symm

theorem utf8_of_ascii {bytes : Bytes} (ascii : ∀ byte ∈ bytes, byte < 0x80) : Utf8 bytes := by
  induction bytes with
  | nil => exact .nil
  | cons byte bytes ih =>
      have here := UInt8.lt_iff_toNat_lt.mp (ascii byte List.mem_cons_self)
      exact (utf8_one here).append (ih fun other member =>
        ascii other (List.mem_cons_of_mem byte member))

/-- Behind a valid text, the validator is where it was before. -/
theorem utf8_append_iff {first : Bytes} (valid : Utf8 first) (second : Bytes) :
    Utf8 (first ++ second) ↔ Utf8 second := by
  rw [utf8_iff, utf8_iff, Utf8State.run_append, utf8_iff.mp valid, Option.bind_some]

namespace Utf8State

/-- A valid text is not read inside of a character. -/
theorem run_append_of_utf8 {text : Bytes} (some : text ≠ []) (valid : Utf8 text)
    (state : Utf8State) (rest : Bytes) :
    state.run (text ++ rest) = if state = .boundary then boundary.run rest else none := by
  have ran := utf8_iff.mp valid
  cases state with
  | boundary => rw [run_append, ran, Option.bind_some, if_pos rfl]
  | within more low high =>
      cases text with
      | nil => exact absurd rfl some
      | cons byte text =>
          rw [run_cons, Option.bind_eq_some_iff] at ran
          rcases ran with ⟨state, led, -⟩
          have first := lead_eq_some led
          rw [if_neg (by simp), List.cons_append, run_cons, step, if_neg (by omega),
            Option.bind_none]

/-- The validator cannot tell two valid texts apart. -/
theorem run_append_congr {first second : Bytes} (one : first ≠ []) (two : second ≠ [])
    (valid : Utf8 first) (valid' : Utf8 second) {rest rest' : Bytes}
    (same : ∀ state : Utf8State, state.run rest = state.run rest') (state : Utf8State) :
    state.run (first ++ rest) = state.run (second ++ rest') := by
  rw [run_append_of_utf8 one valid, run_append_of_utf8 two valid', same]

end Utf8State

/-- A valid text begins at the boundary of two characters. -/
theorem utf8_append_iff_left {second : Bytes} (valid : Utf8 second) (first : Bytes) :
    Utf8 (first ++ second) ↔ Utf8 first := by
  refine ⟨fun whole => ?_, fun one => one.append valid⟩
  by_cases empty : second = []
  · rw [empty, List.append_nil] at whole
    exact whole
  · rw [utf8_iff, Utf8State.run_append, Option.bind_eq_some_iff] at whole
    rcases whole with ⟨state, ran, rest⟩
    have restart := Utf8State.run_append_of_utf8 empty valid state []
    rw [List.append_nil, rest] at restart
    split at restart
    next boundary => exact utf8_iff.mpr (boundary ▸ ran)
    next => cases restart

end DMProxy.Text
