import DMProxy.Platforms.Inbound
import DMProxy.Platforms.Reactions
import DMProxy.Platforms.SttCodec

/-!
# The packets of douyu as frames

`make_stt` writes the size of what follows the first word, and `handle_header` reads what is
left of it after a header of twelve bytes.
-/

namespace DMProxy.Platforms

open DMProxy.Async
open DMProxy.Network
open DMProxy.Text
open DMProxy.Transition

/-! ## The encoder -/

/-- The header and the payload of a packet. -/
def sttFrame (pairs : List (Bytes × Bytes)) : Frame where
  header :=
    toLittleEndian32 (9 + (sttText pairs).length) ++
      toLittleEndian32 (9 + (sttText pairs).length) ++ [177, 2, 0, 0]
  payload := sttText pairs ++ [0]

theorem makeStt_eq {pairs : List (Bytes × Bytes)} (plain : Plain pairs) :
    makeStt pairs = (sttFrame pairs).header ++ (sttFrame pairs).payload := by
  have size : 4 + 4 + 4 + (sttText pairs).length + 1 - 4 = 9 + (sttText pairs).length := by omega
  simp only [makeStt, sttFrame, cString_of_noNul plain.noNul_sttText, size,
    Nat.add_sub_cancel_left, List.append_assoc]
  rfl

theorem stream_sttFrame {lists : List (List (Bytes × Bytes))}
    (plain : ∀ pairs ∈ lists, Plain pairs) :
    Frame.stream (lists.map sttFrame) = lists.flatMap makeStt := by
  rw [Frame.stream, List.flatMap_map]
  apply List.flatMap_congr
  intro pairs member
  exact (makeStt_eq (plain pairs member)).symm

namespace Douyu

/-- What `handle_header` reads after a header. -/
def framing : Framing where
  headerSize := headerSize
  next header := .deliver (payloadSize header)
  positive := by decide

theorem size_deliver (size : Nat) : framing.size (.deliver size) = size := rfl

/-- The read for each purpose; nothing is skipped. -/
def requestFor : Purpose → Request
  | .header => .readHeader
  | .deliver size | .skip size => .readData size

/-- The size of the buffer of a read. -/
def limit : Request → Option Nat
  | .readHeader => some headerSize
  | .readData dataSize => some dataSize
  | .resolve | .connect | .write _ | .heartbeatWait => none

/-- The payloads `handle_data` was called with. -/
def payloads (handled : List (Request × Bytes)) : List Bytes :=
  handled.filterMap fun read =>
    match read.1 with
    | .readData _ => some read.2
    | _ => none

/-- A frame of pairs is announced by its header. -/
theorem announces_sttFrame {pairs : List (Bytes × Bytes)} (plain : Plain pairs)
    (fits : (makeStt pairs).length < unsignedRange) : framing.Announces (sttFrame pairs) := by
  have size : (makeStt pairs).length = 13 + (sttText pairs).length := by
    rw [makeStt_eq plain]
    simp [sttFrame]
    omega
  rw [size] at fits
  have word : littleEndian32 (sttFrame pairs).header = 9 + (sttText pairs).length := by
    rw [sttFrame, List.append_assoc]
    exact littleEndian32_append (by omega) _
  have announced : framing.next (sttFrame pairs).header =
      .deliver ((sttText pairs).length + 1) := by
    apply congrArg Purpose.deliver
    rw [payloadSize_of_long (by omega)]
    omega
  refine ⟨by simp [sttFrame, framing, headerSize], fun header => ?_, fun _ => ?_⟩
  · rw [announced] at header
    cases header
  · rw [announced]
    simp [sttFrame, Framing.size]

theorem read_of_tcp (roomid : Bytes) (request : Request)
    (isRead : (tcp roomid).action request = .read) : IoRequest.object request ≠ .timer := by
  cases request with
  | readHeader | readData => exact fun same => by cases same
  | _ => cases isRead

theorem calls_success (roomid : Bytes) (choice : Unit) (state : State) (request : Request)
    (data : Bytes) : ((tcp roomid).react choice state request (.success data)).calls =
      (onSuccess roomid data request).1 := rfl

/-- After a header its payload is read, which is there at once when it is empty. -/
theorem follows_header (roomid data : Bytes) (io : Io Request) (isOpen : io.socketOpen = true)
    (none : (tcp roomid).reads io.pending = []) {size : Nat} (sized : payloadSize data = size) :
    (io.run (onSuccess roomid data .readHeader).1).socketOpen = true ∧
      (tcp roomid).reads (io.run (onSuccess roomid data .readHeader).1).pending =
        [⟨.readData size, TcpPlatform.awaited size⟩] := by
  simp only [onSuccess, sized]
  by_cases empty : size = 0
  · subst empty
    rw [if_pos rfl, TcpPlatform.awaited, if_pos rfl]
    refine ⟨isOpen, ?_⟩
    simp only [TcpPlatform.reads] at none
    simp only [TcpPlatform.reads, Io.run_cons, Io.run_nil, Io.call, Io.startReady, Pending.start,
      List.filter_append, none]
    rfl
  · rw [if_neg empty, TcpPlatform.awaited, if_neg empty]
    exact ⟨isOpen, TcpPlatform.reads_startOnSocket isOpen none rfl⟩

/-- After a payload the next header is read, whatever else is started. -/
theorem follows_payload (roomid data : Bytes) (io : Io Request) (isOpen : io.socketOpen = true)
    (none : (tcp roomid).reads io.pending = []) (dataSize : Nat) :
    (io.run (onSuccess roomid data (.readData dataSize)).1).socketOpen = true ∧
      (tcp roomid).reads (io.run (onSuccess roomid data (.readData dataSize)).1).pending =
        [⟨.readHeader, .running⟩] := by
  have header : (tcp roomid).reads (io.startOnSocket .readHeader).pending =
      [⟨.readHeader, .running⟩] := TcpPlatform.reads_startOnSocket isOpen none rfl
  simp only [onSuccess]
  split
  next =>
    refine ⟨isOpen, ?_⟩
    simp only [Io.run_cons, Io.run_nil, Io.call]
    rw [Io.startOnSocket, TcpPlatform.reads_start (fun isRead => by cases isRead),
      Io.rearmTimer, Io.start, TcpPlatform.reads_start (fun isRead => by cases isRead)]
    exact (TcpPlatform.reads_abort _ (read_of_tcp roomid)).trans header
  next => exact ⟨isOpen, header⟩

theorem reader (roomid : Bytes) :
    (tcp roomid).Reader limit framing requestFor fun _ => True where
  isRead purpose := by cases purpose <;> rfl
  limit_eq purpose := by cases purpose <;> rfl
  admits_eq state purpose data := by cases purpose <;> rfl
  follows choice state purpose data io _ _ _ isOpen none := by
    rw [calls_success]
    cases purpose with
    | header =>
        have next : framing.follow .header data = .deliver (payloadSize data) := rfl
        rw [next, size_deliver]
        generalize sized : payloadSize data = size
        have first : requestFor .header = .readHeader := rfl
        have second : requestFor (.deliver size) = .readData size := rfl
        rw [first, second]
        exact follows_header roomid data io isOpen none sized
    | deliver size | skip size => exact follows_payload roomid data io isOpen none size

theorem payloads_map {log : List (Purpose × Bytes)}
    (occurs : ∀ piece ∈ log, framing.Occurs piece.1) :
    payloads (log.map fun piece => (requestFor piece.1, piece.2)) = Framing.payloads log := by
  simp only [payloads, Framing.payloads, List.filterMap_map]
  apply List.filterMap_congr
  intro piece member
  rcases piece with ⟨purpose, data⟩
  cases purpose with
  | header | deliver => rfl
  | skip size =>
      rcases occurs _ member with same | ⟨header, announced⟩
      · cases same
      · cases announced

/-- Whatever a frame of pairs announces, its payload is delivered. -/
theorem delivered_sttFrame (pairs : List (Bytes × Bytes)) :
    framing.delivered (sttFrame pairs) = some (sttText pairs ++ [0]) := rfl

/-- The payloads that the packets of a list deliver. -/
theorem filterMap_delivered (lists : List (List (Bytes × Bytes))) :
    (lists.map sttFrame).filterMap framing.delivered =
      lists.map fun pairs => sttText pairs ++ [0] := by
  have each : framing.delivered ∘ sttFrame = some ∘ fun pairs => sttText pairs ++ [0] :=
    funext delivered_sttFrame
  rw [List.filterMap_map, each, List.filterMap_eq_map]

/-- Payloads are read back as the lists of pairs they were written from. -/
theorem forall₂_decodes {lists : List (List (Bytes × Bytes))}
    (plain : ∀ pairs ∈ lists, Plain pairs) :
    List.Forall₂ Decodes lists (lists.map fun pairs => sttText pairs ++ [0]) := by
  rw [List.forall₂_map_right_iff, List.forall₂_same]
  exact fun pairs member => decodes_sttText (plain pairs member)

/-- What a run that is sent the packets of lists of pairs has delivered: one payload for each
packet in order, read back as the list it was written from.  The run is not longer than the
stream allows; where nothing more can happen all packets were delivered, and the next header is
waited for. -/
structure DeliversPairs (roomid : Bytes) (state : State) (lists : List (List (Bytes × Bytes)))
    (arrivals : List (Arrival Unit)) (final : Inbound State Request) : Prop where
  bounded : arrivals.length ≤ 3 * (lists.flatMap makeStt).length
  inOrder : ∃ done todo, lists = done ++ todo ∧
    List.Forall₂ Decodes done (payloads final.handled)
  complete : (∀ arrival, ((tcp roomid).receiving limit state (lists.flatMap makeStt)).step final
      arrival = none) →
    List.Forall₂ Decodes lists (payloads final.handled) ∧
      (tcp roomid).AtBoundary requestFor final.state ∧ final.filled = [] ∧ final.unread = []

theorem deliversPairs {roomid : Bytes} {state : State} {lists : List (List (Bytes × Bytes))}
    {arrivals : List (Arrival Unit)} {final : Inbound State Request}
    (plain : ∀ pairs ∈ lists, Plain pairs)
    (delivers : (tcp roomid).Delivers limit requestFor payloads state (lists.map sttFrame)
      framing.delivered arrivals final) :
    DeliversPairs roomid state lists arrivals final := by
  rcases delivers with ⟨bounded, inOrder, -, complete⟩
  rw [filterMap_delivered] at inOrder complete
  rw [stream_sttFrame plain] at bounded complete
  refine ⟨bounded, ?_, fun quiet => ?_⟩
  · have past : ∃ count, payloads final.handled =
        (lists.take count).map fun pairs => sttText pairs ++ [0] := by
      refine ⟨(payloads final.handled).length, ?_⟩
      rw [List.map_take]
      exact List.prefix_iff_eq_take.mp inOrder
    rcases past with ⟨count, past⟩
    refine ⟨_, _, (List.take_append_drop count lists).symm, ?_⟩
    rw [past]
    exact forall₂_decodes fun pairs member => plain pairs (List.mem_of_mem_take member)
  · rcases complete quiet with ⟨all, boundary⟩
    exact ⟨all ▸ forall₂_decodes plain, boundary⟩

/-- An instance that has just connected waits for the first header. -/
theorem atBoundary_onConnect (roomid : Bytes) {state : State} (isOpen : state.socketOpen = true)
    (idle : (tcp roomid).reads state.pending = []) :
    (tcp roomid).AtBoundary requestFor (onConnect roomid none state).1 := by
  have written : (tcp roomid).reads (doWrite (newLoginPacket roomid) state).pending = [] :=
    (TcpPlatform.reads_start (fun isRead => by cases isRead) _ _).trans idle
  exact ⟨isOpen, TcpPlatform.reads_startOnSocket isOpen written rfl⟩

/-- The packets of lists of pairs are delivered and read back, however they are cut. -/
theorem delivers_packets (roomid : Bytes) (lists : List (List (Bytes × Bytes)))
    (plain : ∀ pairs ∈ lists, Plain pairs)
    (fits : ∀ pairs ∈ lists, (makeStt pairs).length < unsignedRange) (state : State)
    (boundary : (tcp roomid).AtBoundary requestFor state) (arrivals : List (Arrival Unit))
    (final : Inbound State Request)
    (executed : ((tcp roomid).receiving limit state (lists.flatMap makeStt)).exec
      ((tcp roomid).receiving limit state (lists.flatMap makeStt)).init arrivals = some final) :
    DeliversPairs roomid state lists arrivals final := by
  have announces : ∀ frame ∈ lists.map sttFrame, framing.Announces frame := by
    intro frame member
    rcases List.mem_map.mp member with ⟨pairs, listed, rfl⟩
    exact announces_sttFrame (plain pairs listed) (fits pairs listed)
  have distinct : ∀ purpose, requestFor purpose = requestFor .header → purpose = .header := by
    intro purpose same
    cases purpose with
    | header => rfl
    | deliver size | skip size => cases same
  rw [← stream_sttFrame plain] at executed
  exact deliversPairs plain ((reader roomid).delivers (fun _ => payloads_map) distinct announces
    (fun _ _ _ _ => trivial) boundary executed)

/-- An instance that has just connected: it writes its login packet and waits for a header. -/
def waiting : State :=
  (onConnect (ascii "7") none ⟨true, []⟩).1

/-- A chat message whose key occurs twice, and an empty packet. -/
def talk : List (List (Bytes × Bytes)) :=
  [[(ascii "txt", ascii "=@="), (ascii "txt", ascii "")], []]

def talkArrivals : List (Arrival Unit) :=
  [.segment 1 5, .segment 1 7, .handle () 1, .segment 1 16, .handle () 1, .segment 1 12,
    .handle () 1, .segment 1 1, .handle () 1]

theorem delivers_packets_talk :
    ∃ final, ((tcp (ascii "7")).receiving limit waiting (talk.flatMap makeStt)).exec
        ((tcp (ascii "7")).receiving limit waiting (talk.flatMap makeStt)).init talkArrivals =
          some final ∧
      DeliversPairs (ascii "7") waiting talk talkArrivals final := by
  have ran : (((tcp (ascii "7")).receiving limit waiting (talk.flatMap makeStt)).exec
      ((tcp (ascii "7")).receiving limit waiting (talk.flatMap makeStt)).init
        talkArrivals).isSome = true := by decide
  rcases Option.isSome_iff_exists.mp ran with ⟨final, executed⟩
  refine ⟨final, executed, ?_⟩
  have boundary : (tcp (ascii "7")).AtBoundary requestFor waiting :=
    atBoundary_onConnect (ascii "7") rfl rfl
  apply delivers_packets (ascii "7") talk _ (by decide) waiting boundary talkArrivals final
    executed
  intro pairs member
  refine ⟨?_, ?_, ?_⟩ <;> revert pairs <;> decide

end Douyu

end DMProxy.Platforms
