import DMProxy.Text.Bytes

/-!
# HTTP requests

A request without a body, and the text it is sent as.  The text says what the request is: no
other request has it.
-/

namespace DMProxy.Text

/-- A byte that may stand in a part of a request line: visible, and no blank. -/
def IsVisible (byte : UInt8) : Prop :=
  0x21 ≤ byte ∧ byte ≤ 0x7e

instance (byte : UInt8) : Decidable (IsVisible byte) :=
  inferInstanceAs (Decidable (_ ∧ _))

/-- A byte that may stand in the value of a header. -/
def IsField (byte : UInt8) : Prop :=
  byte ≠ 13 ∧ byte ≠ 10

instance (byte : UInt8) : Decidable (IsField byte) :=
  inferInstanceAs (Decidable (_ ∧ _))

/-- A header: a name without a colon, and a value on one line. -/
structure HttpHeader where
  name : Bytes
  value : Bytes
  named : name ≠ []
  visible : ∀ byte ∈ name, IsVisible byte ∧ byte ≠ 58
  field : ∀ byte ∈ value, IsField byte

/-- A request without a body. -/
structure HttpRequest where
  method : Bytes
  target : Bytes
  version : Bytes
  headers : List HttpHeader
  visible : ∀ part ∈ [method, target, version], part ≠ [] ∧ ∀ byte ∈ part, IsVisible byte

def HttpHeader.text (header : HttpHeader) : Bytes :=
  header.name ++ 58 :: 32 :: header.value ++ [13, 10]

/-- The request line, the headers and the blank line. -/
def HttpRequest.text (request : HttpRequest) : Bytes :=
  request.method ++ 32 :: request.target ++ 32 :: request.version ++ 13 :: 10 ::
    request.headers.flatMap HttpHeader.text ++ [13, 10]

/-! ## The text says what the request is -/

/-- Cutting at the first separator. -/
theorem append_cons_injective {separator : UInt8} {front front' rest rest' : Bytes}
    (absent : separator ∉ front) (absent' : separator ∉ front')
    (same : front ++ separator :: rest = front' ++ separator :: rest') :
    front = front' ∧ rest = rest' := by
  induction front generalizing front' with
  | nil =>
      cases front' with
      | nil => exact ⟨rfl, (List.cons.inj same).2⟩
      | cons byte front' =>
          cases (List.cons.inj same).1
          exact absurd List.mem_cons_self absent'
  | cons byte front ih =>
      simp only [List.mem_cons, not_or] at absent
      cases front' with
      | nil =>
          cases (List.cons.inj same).1
          exact absurd rfl absent.1
      | cons byte' front' =>
          simp only [List.mem_cons, not_or] at absent'
          have split := List.cons.inj same
          rcases ih absent.2 absent'.2 split.2 with ⟨rfl, rfl⟩
          exact ⟨by rw [split.1], rfl⟩

theorem notMem_of_visible {part : Bytes} (visible : ∀ byte ∈ part, IsVisible byte) :
    32 ∉ part ∧ 13 ∉ part :=
  ⟨fun member => absurd (visible 32 member) (by decide),
    fun member => absurd (visible 13 member) (by decide)⟩

theorem HttpHeader.text_append_injective {first second : HttpHeader} {rest rest' : Bytes}
    (same : first.text ++ rest = second.text ++ rest') : first = second ∧ rest = rest' := by
  simp only [text, List.append_assoc, List.cons_append, List.nil_append] at same
  have named := append_cons_injective (fun member => (first.visible 58 member).2 rfl)
    (fun member => (second.visible 58 member).2 rfl) same
  have valued := append_cons_injective (fun member => (first.field 13 member).1 rfl)
    (fun member => (second.field 13 member).1 rfl) (List.cons.inj named.2).2
  refine ⟨?_, (List.cons.inj valued.2).2⟩
  cases first
  cases second
  cases named.1
  cases valued.1
  rfl

/-- A header begins with a visible byte, and the blank line does not. -/
theorem HttpHeader.text_ne (header : HttpHeader) (rest : Bytes) :
    header.text ++ rest ≠ [13, 10] := by
  intro same
  cases name : header.name with
  | nil => exact header.named name
  | cons byte more =>
      simp only [text, name, List.cons_append] at same
      have first := header.visible byte (by simp [name])
      rw [(List.cons.inj same).1] at first
      exact absurd first.1 (by decide)

theorem headers_text_injective {headers headers' : List HttpHeader}
    (same : headers.flatMap HttpHeader.text ++ [13, 10] =
      headers'.flatMap HttpHeader.text ++ [13, 10]) : headers = headers' := by
  induction headers generalizing headers' with
  | nil =>
      cases headers' with
      | nil => rfl
      | cons header' headers' =>
          rw [List.flatMap_cons, List.append_assoc] at same
          exact absurd same.symm (header'.text_ne _)
  | cons header headers ih =>
      rw [List.flatMap_cons, List.append_assoc] at same
      cases headers' with
      | nil => exact absurd same (header.text_ne _)
      | cons header' headers' =>
          rw [List.flatMap_cons, List.append_assoc] at same
          rcases HttpHeader.text_append_injective same with ⟨rfl, others⟩
          rw [ih others]

theorem HttpRequest.text_injective {first second : HttpRequest}
    (same : first.text = second.text) : first = second := by
  simp only [text, List.append_assoc, List.cons_append] at same
  have separated (request : HttpRequest) :
      32 ∉ request.method ∧ 32 ∉ request.target ∧ 13 ∉ request.version := by
    have parts := request.visible
    simp only [List.forall_mem_cons, List.not_mem_nil, false_imp_iff, implies_true,
      and_true] at parts
    exact ⟨(notMem_of_visible parts.1.2).1, (notMem_of_visible parts.2.1.2).1,
      (notMem_of_visible parts.2.2.2).2⟩
  have methods := append_cons_injective (separated first).1 (separated second).1 same
  have targets := append_cons_injective (separated first).2.1 (separated second).2.1 methods.2
  have versions := append_cons_injective (separated first).2.2 (separated second).2.2 targets.2
  have headers := headers_text_injective (List.cons.inj versions.2).2
  cases first
  cases second
  cases methods.1
  cases targets.1
  cases versions.1
  cases headers
  rfl

end DMProxy.Text
