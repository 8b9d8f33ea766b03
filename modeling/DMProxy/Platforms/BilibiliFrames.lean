import DMProxy.Platforms.Inbound
import DMProxy.Platforms.Reactions

/-!
# The frames of bilibili

A header of sixteen bytes begins with the length of the whole frame, most significant byte
first, and its byte eleven is the type.  Frames of type five are delivered, the others are
skipped.
-/

namespace DMProxy.Platforms.Bilibili

open DMProxy.Async
open DMProxy.Network
open DMProxy.Text
open DMProxy.Transition

/-- What `handle_header` reads after a header. -/
def framing : Framing where
  headerSize := headerSize
  next header :=
    if bigEndian32 header ≤ 16 then .header
    else if header.getD 11 0 = 5 then .deliver (bigEndian32 header - 16)
    else .skip (bigEndian32 header - 16)
  positive := by decide

/-- The read for each purpose. -/
def requestFor : Purpose → Request
  | .header => .readHeader
  | .deliver size => .readData size
  | .skip size => .skip size

/-- The size of the buffer of a read. -/
def limit : Request → Option Nat
  | .readHeader => some headerSize
  | .readData dataSize | .skip dataSize => some dataSize
  | .httpResolve | .httpConnect | .httpWrite _ | .httpReadStatusLine | .httpReadHeader
  | .httpReadContent | .tcpResolve | .tcpConnect | .write _ | .heartbeatWait => none

/-- `handle_data` neither closes the connection nor faults. -/
def Accepts (libraries : Libraries) (payload : Bytes) : Prop :=
  ¬(payloadVerdict libraries payload).IsReport ∧ payloadVerdict libraries payload ≠ .faults

/-- The payloads `handle_data` was called with. -/
def payloads (handled : List (Request × Bytes)) : List Bytes :=
  handled.filterMap fun read =>
    match read.1 with
    | .readData _ => some read.2
    | _ => none

theorem isSome_parseJson_of_accepts {libraries : Libraries} {payload : Bytes}
    (accepts : Accepts libraries payload) :
    (libraries.parseJson (cString payload)).isNone = false := by
  cases parsed : libraries.parseJson (cString payload) with
  | some message => rfl
  | none =>
      refine absurd ?_ accepts.1
      simp only [payloadVerdict, parsed]
      trivial

/-- A payload is not empty. -/
theorem size_next_ne_zero (header : Bytes) : framing.size (framing.next header) ≠ 0 := by
  simp only [framing]
  split
  next => exact Nat.succ_ne_zero 15
  next long =>
    split <;> simp only [Framing.size] <;> omega

theorem size_follow_ne_zero (purpose : Purpose) (piece : Bytes) :
    framing.size (framing.follow purpose piece) ≠ 0 := by
  cases purpose with
  | header => exact size_next_ne_zero piece
  | deliver size => exact Nat.succ_ne_zero 15
  | skip size => exact Nat.succ_ne_zero 15

/-- The handler of a read starts the one for the next purpose. -/
theorem calls_react (libraries : Libraries) (roomid : Bytes) (uid : Nat) (state : State)
    (purpose : Purpose) (data : Bytes)
    (accepts : ∀ size, purpose = .deliver size → Accepts libraries data) :
    (react libraries roomid uid state (requestFor purpose) (.success data)).calls =
      [.startOnSocket (requestFor (framing.follow purpose data))] := by
  cases purpose with
  | header =>
      simp only [react, reactFrom, Completion.success, requestFor, onSuccess, Framing.follow,
        framing]
      by_cases short : bigEndian32 data ≤ 16
      · simp only [short, if_true]
      · by_cases chat : data.getD 11 0 = 5
        · simp only [short, chat, if_true, if_false]
        · simp only [short, chat, if_false]
  | deliver size =>
      have parsed := isSome_parseJson_of_accepts (accepts size rfl)
      apply congrArg (List.cons _)
      apply if_neg
      rw [Bool.not_eq_true]
      exact parsed
  | skip size => rfl

theorem reader (libraries : Libraries) (roomid : Bytes) :
    (tcp libraries roomid).Reader limit framing requestFor (Accepts libraries) where
  isRead purpose := by cases purpose <;> rfl
  limit_eq purpose := by cases purpose <;> rfl
  admits_eq state purpose data := by cases purpose <;> rfl
  follows uid state purpose data io _ _ accepts isOpen none := by
    simp only [tcp]
    rw [calls_react libraries roomid uid state purpose data accepts]
    refine ⟨isOpen, ?_⟩
    rw [TcpPlatform.awaited, if_neg (size_follow_ne_zero purpose data)]
    apply TcpPlatform.reads_startOnSocket isOpen none
    cases framing.follow purpose data <;> rfl

/-! ## Frames -/

/-- The header tells the length of the frame. -/
structure WellFormed (frame : Frame) : Prop where
  header : frame.header.length = 16
  length : bigEndian32 frame.header = 16 + frame.payload.length

/-- The payload of a chat frame. -/
def chatPayload (frame : Frame) : Option Bytes :=
  if frame.header.getD 11 0 = 5 ∧ frame.payload ≠ [] then some frame.payload else none

theorem WellFormed.announces {frame : Frame} (wellFormed : WellFormed frame) :
    framing.Announces frame := by
  have long : bigEndian32 frame.header ≤ 16 ↔ frame.payload = [] := by
    rw [wellFormed.length, ← List.length_eq_zero_iff]
    omega
  refine ⟨wellFormed.header, fun empty => ?_, fun inside => ?_⟩
  · apply long.mp
    by_contra more
    simp only [framing, more, if_false] at empty
    split at empty <;> cases empty
  · have amount : bigEndian32 frame.header - 16 = frame.payload.length := by
      rw [wellFormed.length]
      omega
    simp only [framing] at inside ⊢
    split at inside
    next => exact absurd rfl inside
    next more =>
      rw [if_neg more]
      split <;> exact amount.symm

theorem WellFormed.delivered_eq {frame : Frame} (wellFormed : WellFormed frame) :
    framing.delivered frame = chatPayload frame := by
  have long : bigEndian32 frame.header ≤ 16 ↔ frame.payload = [] := by
    rw [wellFormed.length, ← List.length_eq_zero_iff]
    omega
  simp only [Framing.delivered, framing, chatPayload]
  by_cases empty : frame.payload = []
  · rw [if_pos (long.mpr empty), if_neg fun both => both.2 empty]
  · by_cases chat : frame.header.getD 11 0 = 5
    · rw [if_neg (long.not.mpr empty), if_pos chat, if_pos ⟨chat, empty⟩]
    · rw [if_neg (long.not.mpr empty), if_neg chat, if_neg fun both => chat both.1]

theorem payloads_map (log : List (Purpose × Bytes)) :
    payloads (log.map fun piece => (requestFor piece.1, piece.2)) = Framing.payloads log := by
  simp only [payloads, Framing.payloads, List.filterMap_map]
  apply List.filterMap_congr
  intro piece _
  rcases piece with ⟨purpose, data⟩
  cases purpose <;> rfl

/-! ## The packets -/

/-- The largest message the websocket server takes from a client. -/
def maxMessageSize : Nat := 32000000

/-- A packet is a frame. -/
def IsFrame (packet : Bytes) : Prop :=
  ∃ frame : Frame, WellFormed frame ∧ packet = frame.header ++ frame.payload

theorem isFrame_of_length {packet tail : Bytes} {total : Nat}
    (starts : packet = toBigEndian32 total ++ tail) (sized : packet.length = total)
    (long : 16 ≤ total) (fits : total < unsignedRange) : IsFrame packet := by
  refine ⟨⟨packet.take 16, packet.drop 16⟩, ⟨?_, ?_⟩, (List.take_append_drop 16 packet).symm⟩
  · simp [sized, long]
  · have word : bigEndian32 (packet.take 16) = bigEndian32 packet := by
      simp [bigEndian32, List.take_take]
    dsimp only
    rw [word, List.length_drop, sized, starts, bigEndian32_append fits]
    omega

theorem isFrame_newHeartbeatPacket : IsFrame newHeartbeatPacket :=
  isFrame_of_length rfl rfl (by decide) (by decide)

theorem length_decimal {value : Nat} (fits : value < 0x10000000000000000) :
    (decimal value).length ≤ 20 := by
  rw [decimal, List.length_map, Nat.length_toDigits_le_iff (by decide) (by decide)]
  omega

theorem isFrame_newRequestPacket {roomid : Bytes} {uid : Nat}
    (accepted : roomid.length ≤ maxMessageSize) (drawn : uid < 0x10000000000000000) :
    IsFrame (newRequestPacket roomid uid) := by
  have digits := length_decimal drawn
  simp only [newRequestPacket, List.append_assoc]
  rw [maxMessageSize] at accepted
  apply isFrame_of_length rfl
  · simp only [List.length_append, length_toBigEndian32, List.length_cons, List.length_nil]
    omega
  · omega
  · rw [unsignedRange]
    have opening : (ascii "\x7b\"roomid\":").length = 10 := rfl
    have middle : (ascii ", \"uid\":").length = 8 := rfl
    have closing : (ascii "\x7d").length = 1 := rfl
    simp only [List.length_append, opening, middle, closing]
    omega

/-- The reader of bilibili stays in step with its frames, and the packets are frames. -/
theorem delivers_frames :
    (∀ (libraries : Libraries) (roomid : Bytes) (frames : List Frame),
      (∀ frame ∈ frames, WellFormed frame) →
      (∀ frame ∈ frames, ∀ payload ∈ chatPayload frame, Accepts libraries payload) →
      ∀ state : State, (tcp libraries roomid).AtBoundary requestFor state →
      ∀ (arrivals : List (Arrival Nat)) (final : Inbound State Request),
        ((tcp libraries roomid).receiving limit state (Frame.stream frames)).exec
          ((tcp libraries roomid).receiving limit state (Frame.stream frames)).init arrivals =
            some final →
        (tcp libraries roomid).Delivers limit requestFor payloads state frames chatPayload
          arrivals final) ∧
    (∀ (roomid : Bytes) (uid : Nat), roomid.length ≤ maxMessageSize →
      uid < 0x10000000000000000 → IsFrame (newRequestPacket roomid uid)) ∧
    IsFrame newHeartbeatPacket := by
  refine ⟨?_, fun _ _ => isFrame_newRequestPacket, isFrame_newHeartbeatPacket⟩
  intro libraries roomid frames wellFormed accepted state boundary arrivals final executed
  have delivered : ∀ frame ∈ frames, framing.delivered frame = chatPayload frame :=
    fun frame member => (wellFormed frame member).delivered_eq
  have payloads_eq : ∀ log : List (Purpose × Bytes),
      (∀ piece ∈ log, framing.Occurs piece.1) →
      payloads (log.map fun piece => (requestFor piece.1, piece.2)) = Framing.payloads log :=
    fun log _ => payloads_map log
  have distinct : ∀ purpose, requestFor purpose = requestFor .header → purpose = .header := by
    intro purpose same
    cases purpose with
    | header => rfl
    | deliver size => cases same
    | skip size => cases same
  have accepted' : ∀ frame ∈ frames, ∀ payload ∈ framing.delivered frame,
      Accepts libraries payload := by
    intro frame member payload expected
    rw [delivered frame member] at expected
    exact accepted frame member payload expected
  exact ((reader libraries roomid).delivers payloads_eq distinct
    (fun frame member => (wellFormed frame member).announces) accepted' boundary executed).congr
      delivered

/-- A parser that knows the empty object. -/
def emptyObject : Libraries :=
  { (default : Libraries) with
    parseJson := fun text => if text = ascii "\x7b\x7d" then some (.object []) else none }

/-- An instance that waits for a header and for nothing else. -/
def waiting : State :=
  { State.fresh with io := { socketOpen := true, pending := [⟨.readHeader, .running⟩] } }

/-- A chat frame, a frame to skip and an empty one. -/
def talk : List Frame :=
  [⟨toBigEndian32 18 ++ [0, 16, 0, 1] ++ toBigEndian32 5 ++ [0, 0, 0, 0], ascii "\x7b\x7d"⟩,
    ⟨toBigEndian32 17 ++ [0, 16, 0, 1] ++ toBigEndian32 3 ++ [0, 0, 0, 0], [9]⟩,
    ⟨toBigEndian32 16 ++ [0, 16, 0, 1] ++ toBigEndian32 5 ++ [0, 0, 0, 0], []⟩]

def talkArrivals : List (Arrival Nat) :=
  [.segment 0 3, .segment 0 13, .handle 0 0, .segment 0 2, .handle 0 0, .segment 0 16,
    .handle 0 0, .segment 0 1, .handle 0 0, .segment 0 16, .handle 0 0]

theorem delivers_frames_talk :
    (∃ final, ((tcp emptyObject (ascii "7")).receiving limit waiting (Frame.stream talk)).exec
        ((tcp emptyObject (ascii "7")).receiving limit waiting (Frame.stream talk)).init
          talkArrivals = some final ∧
      (tcp emptyObject (ascii "7")).Delivers limit requestFor payloads waiting talk chatPayload
        talkArrivals final) ∧
    IsFrame (newRequestPacket (ascii "7") 5) := by
  rcases delivers_frames with ⟨delivers, packets, -⟩
  refine ⟨?_, packets (ascii "7") 5 (by decide) (by decide)⟩
  have ran : (((tcp emptyObject (ascii "7")).receiving limit waiting (Frame.stream talk)).exec
      ((tcp emptyObject (ascii "7")).receiving limit waiting (Frame.stream talk)).init
        talkArrivals).isSome = true := by decide
  rcases Option.isSome_iff_exists.mp ran with ⟨final, executed⟩
  refine ⟨final, executed, ?_⟩
  apply delivers emptyObject (ascii "7") talk _ _ waiting ⟨rfl, rfl⟩ talkArrivals final executed
  · intro frame member
    refine ⟨?_, ?_⟩ <;> revert frame <;> decide
  · intro frame member payload expected
    have only : payload = ascii "\x7b\x7d" := by
      revert payload frame
      decide
    subst only
    exact ⟨id, fun same => by cases same⟩

end DMProxy.Platforms.Bilibili
