import DMProxy.Text.Bytes

/-!
# Framed byte streams

A frame is a header of a fixed size and a payload that the header announces.  A reader takes
one piece after the other from the stream and decides by the last header what the next piece
is: a payload to deliver, a payload to skip, or the next header.
-/

namespace DMProxy.Network

open DMProxy.Text

/-- What a reader waits for. -/
inductive Purpose where
  | header
  | deliver (size : Nat)
  | skip (size : Nat)
  deriving DecidableEq, Repr

structure Frame where
  header : Bytes
  payload : Bytes
  deriving DecidableEq, Repr

/-- The bytes of a list of frames. -/
def Frame.stream (frames : List Frame) : Bytes :=
  frames.flatMap fun frame => frame.header ++ frame.payload

/-- The size of a header, and what a header announces. -/
structure Framing where
  headerSize : Nat
  next : Bytes → Purpose
  positive : 0 < headerSize

namespace Framing

variable {framing : Framing} {frames : List Frame} {stream rest : Bytes}
  {log : List (Purpose × Bytes)} {purpose : Purpose}

/-- The size of a piece. -/
def size (framing : Framing) : Purpose → Nat
  | .header => framing.headerSize
  | .deliver size | .skip size => size

/-- What follows a piece. -/
def follow (framing : Framing) : Purpose → Bytes → Purpose
  | .header, header => framing.next header
  | .deliver _, _ | .skip _, _ => .header

/-- The header announces the payload. -/
structure Announces (framing : Framing) (frame : Frame) : Prop where
  header : frame.header.length = framing.headerSize
  empty : framing.next frame.header = .header → frame.payload = []
  payload : framing.next frame.header ≠ .header →
    frame.payload.length = framing.size (framing.next frame.header)

/-- The payload, when it is to be delivered. -/
def delivered (framing : Framing) (frame : Frame) : Option Bytes :=
  match framing.next frame.header with
  | .deliver _ => some frame.payload
  | .header | .skip _ => none

/-- The payloads that were delivered by a list of reads. -/
def payloads (log : List (Purpose × Bytes)) : List Bytes :=
  log.filterMap fun piece =>
    match piece.1 with
    | .deliver _ => some piece.2
    | .header | .skip _ => none

/-- The reads of a stream from its start on: what was read, what is waited for, and the rest
of the stream. -/
inductive Reads (framing : Framing) (stream : Bytes) :
    List (Purpose × Bytes) → Purpose → Bytes → Prop where
  | start : Reads framing stream [] .header stream
  | read {log : List (Purpose × Bytes)} {purpose : Purpose} {piece rest : Bytes} :
      Reads framing stream log purpose (piece ++ rest) →
      piece.length = framing.size purpose →
      Reads framing stream (log ++ [(purpose, piece)]) (framing.follow purpose piece) rest

/-- A purpose some header announces, or that of the header itself. -/
def Occurs (framing : Framing) (purpose : Purpose) : Prop :=
  purpose = .header ∨ ∃ header, framing.next header = purpose

theorem occurs_follow (purpose : Purpose) (piece : Bytes) :
    framing.Occurs (framing.follow purpose piece) := by
  cases purpose with
  | header => exact .inr ⟨piece, rfl⟩
  | deliver size => exact .inl rfl
  | skip size => exact .inl rfl

theorem Reads.occurs (reads : framing.Reads stream log purpose rest) :
    ∀ piece ∈ log, framing.Occurs piece.1 := by
  have all : framing.Occurs purpose ∧ ∀ piece ∈ log, framing.Occurs piece.1 := by
    induction reads with
    | start => exact ⟨.inl rfl, by simp⟩
    | @read log purpose piece rest earlier whole ih =>
        refine ⟨occurs_follow purpose piece, fun other member => ?_⟩
        rcases List.mem_append.mp member with older | last
        · exact ih.2 other older
        · rw [List.mem_singleton.mp last]
          exact ih.1
  exact all.2

/-- The reader is in step with the frames: the delivered payloads are those of the frames it
is past, and what is left is what is left of the other frames. -/
inductive InStep (framing : Framing) (frames : List Frame) (log : List (Purpose × Bytes)) :
    Purpose → Bytes → Prop where
  | between {done todo : List Frame} (split : frames = done ++ todo)
      (past : payloads log = done.filterMap framing.delivered) :
      InStep framing frames log .header (Frame.stream todo)
  | within {done todo : List Frame} {frame : Frame} (split : frames = done ++ frame :: todo)
      (past : payloads log = done.filterMap framing.delivered)
      (inside : framing.next frame.header ≠ .header) :
      InStep framing frames log (framing.next frame.header) (frame.payload ++ Frame.stream todo)

theorem payloads_append (log : List (Purpose × Bytes)) (purpose : Purpose) (piece : Bytes) :
    payloads (log ++ [(purpose, piece)]) = payloads log ++ payloads [(purpose, piece)] :=
  List.filterMap_append

theorem follow_of_ne_header (inside : purpose ≠ .header) (piece : Bytes) :
    framing.follow purpose piece = .header := by
  cases purpose with
  | header => exact absurd rfl inside
  | deliver size => rfl
  | skip size => rfl

/-- What a frame delivers, when its last piece is read. -/
theorem payloads_piece (framing : Framing) {frame : Frame}
    (inside : framing.next frame.header ≠ .header) :
    payloads [(framing.next frame.header, frame.payload)] =
      [frame].filterMap framing.delivered := by
  cases announced : framing.next frame.header with
  | header => exact absurd announced inside
  | deliver size => simp [payloads, delivered, announced]
  | skip size => simp [payloads, delivered, announced]

theorem InStep.read {piece : Bytes} (announces : ∀ frame ∈ frames, framing.Announces frame)
    (inStep : framing.InStep frames log purpose (piece ++ rest))
    (whole : piece.length = framing.size purpose) :
    framing.InStep frames (log ++ [(purpose, piece)]) (framing.follow purpose piece) rest := by
  generalize remaining : piece ++ rest = stream at inStep
  cases inStep with
  | @between done todo split past =>
      cases todo with
      | nil =>
          have nothing := List.append_eq_nil_iff.mp remaining
          rw [nothing.1] at whole
          exact absurd whole framing.positive.ne
      | cons frame todo =>
          have announced := announces frame (by simp [split])
          simp only [Frame.stream, List.flatMap_cons, List.append_assoc] at remaining
          rcases List.append_inj remaining (whole.trans announced.header.symm) with ⟨rfl, rfl⟩
          have past' : payloads (log ++ [(.header, frame.header)]) =
              done.filterMap framing.delivered := by
            rw [payloads_append, past]
            exact List.append_nil _
          by_cases inside : framing.next frame.header = .header
          · simp only [follow, inside, announced.empty inside, List.nil_append]
            have later : frames = (done ++ [frame]) ++ todo := by simpa using split
            exact .between later (by simpa [delivered, inside] using past')
          · exact .within split past' inside
  | @within done todo frame split past inside =>
      have announced := announces frame (by simp [split])
      rcases List.append_inj remaining (whole.trans (announced.payload inside).symm) with
        ⟨rfl, rfl⟩
      rw [follow_of_ne_header inside]
      have later : frames = (done ++ [frame]) ++ todo := by simpa using split
      apply InStep.between later
      rw [payloads_append, past, payloads_piece framing inside, List.filterMap_append]

/-- Whatever the frames, their reader is in step. -/
theorem Reads.inStep (announces : ∀ frame ∈ frames, framing.Announces frame)
    (reads : framing.Reads (Frame.stream frames) log purpose rest) :
    framing.InStep frames log purpose rest := by
  induction reads with
  | start => exact .between (List.nil_append _).symm rfl
  | read earlier whole ih => exact ih.read announces whole

theorem InStep.prefix_delivered (inStep : framing.InStep frames log purpose rest) :
    payloads log <+: frames.filterMap framing.delivered := by
  cases inStep with
  | between split past =>
      rw [split, past, List.filterMap_append]
      exact List.prefix_append _ _
  | within split past =>
      rw [split, past, List.filterMap_append]
      exact List.prefix_append _ _

theorem InStep.at_header (inStep : framing.InStep frames log .header rest) :
    ∃ done todo, frames = done ++ todo ∧ payloads log = done.filterMap framing.delivered ∧
      rest = Frame.stream todo := by
  generalize purposed : Purpose.header = purpose at inStep
  cases inStep with
  | @between done todo split past => exact ⟨done, todo, split, past, rfl⟩
  | within split past inside => exact absurd purposed.symm inside

/-- The piece a reader delivers is the payload of a frame that is to be delivered. -/
theorem InStep.delivers {size : Nat} {piece : Bytes}
    (announces : ∀ frame ∈ frames, framing.Announces frame)
    (inStep : framing.InStep frames log (.deliver size) (piece ++ rest))
    (whole : piece.length = size) :
    ∃ frame ∈ frames, framing.delivered frame = some piece := by
  generalize purposed : Purpose.deliver size = purpose at inStep
  generalize remaining : piece ++ rest = stream at inStep
  cases inStep with
  | between => cases purposed
  | @within done todo frame split past inside =>
      have announced := announces frame (by simp [split])
      have length := announced.payload inside
      rw [← purposed] at length
      rcases List.append_inj remaining (whole.trans length.symm) with ⟨rfl, -⟩
      refine ⟨frame, by simp [split], ?_⟩
      simp [delivered, ← purposed]

/-- A reader that lacks bytes of its piece when the stream is at its end is between two frames,
and past all of them. -/
theorem InStep.exhausted (announces : ∀ frame ∈ frames, framing.Announces frame)
    (inStep : framing.InStep frames log purpose rest)
    (lacking : rest.length < framing.size purpose) :
    purpose = .header ∧ rest = [] ∧ payloads log = frames.filterMap framing.delivered := by
  cases inStep with
  | @between done todo split past =>
      cases todo with
      | nil =>
          rw [List.append_nil] at split
          rw [split]
          exact ⟨rfl, rfl, past⟩
      | cons frame todo =>
          have announced := announces frame (by simp [split])
          simp only [Frame.stream, List.flatMap_cons, List.length_append, announced.header, size]
            at lacking
          omega
  | @within done todo frame split past inside =>
      have announced := announces frame (by simp [split])
      rw [List.length_append, announced.payload inside] at lacking
      omega

/-- Every second read at least takes a header away from the stream. -/
theorem Reads.length_le (reads : framing.Reads stream log purpose rest) :
    log.length + 2 * rest.length + (if purpose = .header then 0 else 1) ≤ 2 * stream.length := by
  induction reads with
  | start => simp
  | @read log purpose piece rest earlier whole ih =>
      have positive := framing.positive
      simp only [List.length_append, List.length_singleton] at ih ⊢
      by_cases header : purpose = .header
      · subst header
        simp only [size] at whole
        simp only [if_true] at ih
        split <;> omega
      · rw [follow_of_ne_header header, if_pos rfl]
        rw [if_neg header] at ih
        omega

end Framing

end DMProxy.Network
