import DMProxy.Network.Framing

/-!
# Packets on a framed stream

A sender writes packets, each as a frame.  A reader that has received a part of the stream has
read the first ones of them, and all of which it has every byte.
-/

namespace DMProxy.Network

open DMProxy.Text

universe u

namespace Frame

theorem stream_append (first second : List Frame) :
    stream (first ++ second) = stream first ++ stream second :=
  List.flatMap_append

theorem stream_cons (frame : Frame) (frames : List Frame) :
    stream (frame :: frames) = frame.header ++ (frame.payload ++ stream frames) := by
  rw [stream, List.flatMap_cons, List.append_assoc]
  rfl

theorem stream_singleton (frame : Frame) : stream [frame] = frame.header ++ frame.payload :=
  List.flatMap_singleton _ _

end Frame

namespace Framing

variable {framing : Framing} {frames : List Frame} {stream received rest : Bytes}
  {log : List (Purpose × Bytes)} {purpose : Purpose}

/-- The stream may be cut into pieces before it is read. -/
theorem Reads.of_cut {pieces : Bytes} (cut : pieces = stream) :
    framing.Reads stream [] .header pieces := by
  subst cut
  exact .start

theorem Reads.extend (reads : framing.Reads stream log purpose rest) (more : Bytes) :
    framing.Reads (stream ++ more) log purpose (rest ++ more) := by
  induction reads with
  | start => exact .start
  | read earlier whole ih =>
      rw [List.append_assoc] at ih
      exact .read ih whole

theorem Reads.suffix (reads : framing.Reads stream log purpose rest) : rest <:+ stream := by
  induction reads with
  | start => exact List.suffix_refl _
  | read earlier whole ih => exact (List.suffix_append _ _).trans ih

/-- What a reader has of the stream of some frames: it is past the first ones, and lacks bytes of
the next one if it can read no more. -/
theorem Reads.past (announces : ∀ frame ∈ frames, framing.Announces frame)
    (inside : received <+: Frame.stream frames)
    (reads : framing.Reads received log purpose rest) :
    ∃ done todo, frames = done ++ todo ∧ payloads log = done.filterMap framing.delivered ∧
      Frame.stream done <+: received ∧ (rest.length < framing.size purpose →
        ∀ frame ∈ todo.head?, ¬Frame.stream (done ++ [frame]) <+: received) := by
  rcases inside with ⟨more, whole⟩
  rcases reads.suffix with ⟨consumed, behind⟩
  have extended := reads.extend more
  rw [whole] at extended
  have all : consumed ++ (rest ++ more) = Frame.stream frames := by
    rw [← whole, ← behind, List.append_assoc]
  generalize remaining : rest ++ more = left at extended all
  cases extended.inStep announces with
  | @between done todo split past =>
      rw [split, Frame.stream_append] at all
      have same := List.append_cancel_right all
      refine ⟨done, todo, split, past, ⟨rest, by rw [← behind, same]⟩, ?_⟩
      intro lacking frame next arrived
      have listed : frame ∈ frames := by
        rw [split]
        exact List.mem_append_right done (List.mem_of_mem_head? next)
      have length := arrived.length_le
      rw [← behind, same, Frame.stream_append, Frame.stream_singleton] at length
      simp only [List.length_append, (announces frame listed).header] at length
      simp only [size] at lacking
      omega
  | @within done todo current split past within =>
      rw [split, Frame.stream_append, Frame.stream_cons, ← List.append_assoc (Frame.stream done)]
        at all
      have same := List.append_cancel_right all
      refine ⟨done, current :: todo, split, past, ?_, ?_⟩
      · exact ⟨current.header ++ rest, by rw [← behind, same, List.append_assoc]⟩
      · intro lacking frame next arrived
        cases next
        have listed : current ∈ frames := by simp [split]
        have length := arrived.length_le
        rw [← behind, same, Frame.stream_append, Frame.stream_singleton] at length
        simp only [List.length_append, (announces current listed).payload within] at length
        omega

end Framing

/-- A kind of packets: how they are framed, and how a payload is read. -/
structure Format (π : Type u) where
  framing : Framing
  frame : π → Frame
  read : Bytes → Option π

namespace Format

variable {π : Type u} {format : Format π} {packets : List π} {received rest : Bytes}
  {log : List (Purpose × Bytes)} {purpose : Purpose}

/-- The bytes of a packet. -/
def bytes (format : Format π) (packet : π) : Bytes :=
  (format.frame packet).header ++ (format.frame packet).payload

/-- The packet can be told from its bytes. -/
structure Clear (format : Format π) (packet : π) : Prop where
  announces : format.framing.Announces (format.frame packet)
  delivered : format.framing.delivered (format.frame packet) = some (format.frame packet).payload
  read : format.read (format.frame packet).payload = some packet

/-- What a reader makes of the bytes of some packets that it has received: it has read the first
ones, nothing before it arrived, and everything that arrived as a whole if it can read no more. -/
structure Served (format : Format π) (packets served : List π) (received : Bytes)
    (log : List (Purpose × Bytes)) (purpose : Purpose) (rest : Bytes) : Prop where
  order : served <+: packets
  read : (Framing.payloads log).map format.read = served.map some
  arrived : served.flatMap format.bytes <+: received
  complete : rest.length < format.framing.size purpose → ∀ first, first <+: packets →
    first.flatMap format.bytes <+: received → first <+: served

theorem stream_map_frame (packets : List π) :
    Frame.stream (packets.map format.frame) = packets.flatMap format.bytes := by
  rw [Frame.stream, List.flatMap_map]
  rfl

theorem filterMap_delivered (clear : ∀ packet ∈ packets, format.Clear packet) :
    ((packets.map format.frame).filterMap format.framing.delivered).map format.read =
      packets.map some := by
  rw [List.filterMap_map]
  have payloads : ∀ packet ∈ packets, (format.framing.delivered ∘ format.frame) packet =
      some (format.frame packet).payload :=
    fun packet member => (clear packet member).delivered
  rw [List.filterMap_congr payloads, List.filterMap_eq_map', List.map_map]
  exact List.map_congr_left fun packet member => (clear packet member).read

/-- Whatever part of the stream has arrived, and however far it was read. -/
theorem exists_served (clear : ∀ packet ∈ packets, format.Clear packet)
    (inside : received <+: packets.flatMap format.bytes)
    (reads : format.framing.Reads received log purpose rest) :
    ∃ served, format.Served packets served received log purpose rest := by
  have announces : ∀ frame ∈ packets.map format.frame, format.framing.Announces frame := by
    intro frame member
    rcases List.mem_map.mp member with ⟨packet, listed, rfl⟩
    exact (clear packet listed).announces
  rw [← stream_map_frame] at inside
  rcases reads.past announces inside with ⟨done, todo, split, past, arrived, complete⟩
  rcases List.map_eq_append_iff.mp split with ⟨served, unserved, rfl, rfl, rfl⟩
  rw [stream_map_frame] at arrived
  refine ⟨served, List.prefix_append _ _, ?_, arrived, ?_⟩
  · rw [past]
    exact filterMap_delivered fun packet member => clear packet (List.mem_append_left _ member)
  · intro lacking first before whole
    rcases List.prefix_or_prefix_of_prefix before (List.prefix_append served unserved) with
      shorter | ⟨others, rfl⟩
    · exact shorter
    · cases others with
      | nil => simp
      | cons packet others =>
          rw [List.prefix_append_right_inj] at before
          rcases before with ⟨later, rfl⟩
          refine absurd ?_ (complete lacking (format.frame packet) rfl)
          rw [← List.map_singleton, ← List.map_append, stream_map_frame]
          refine List.IsPrefix.trans ?_ whole
          exact ⟨others.flatMap format.bytes, by simp⟩

end Format

end DMProxy.Network
