import Mathlib.Data.List.Infix
import DMProxy.Network.Packets
import DMProxy.Platforms.DouyuFrames
import DMProxy.Platforms.Sessions
import DMProxy.Registry.Injection
import DMProxy.Text.JsonDump

/-!
# What the servers read

The server of a TCP platform has the bytes that went out, up to some point, and cuts them into
packets.  As long as no write is started before the earlier one is finished, it reads the packets
of the session, in their order.
-/

namespace DMProxy.Platforms

open DMProxy.Async
open DMProxy.Network
open DMProxy.Text
open DMProxy.Transition

namespace TcpPlatform

variable {σ ω ν : Type} [IoRequest ω] {platform : TcpPlatform σ ω ν}
  {prompts : ω → Completion → Prop} {wire : Wire σ} {events : List (WireEvent ν)}

/-- Along an unhurried run nothing goes out but the packets. -/
theorem Sender.prefix_packets (sender : platform.Sender prompts)
    (sequential : platform.Sequential)
    (executed : platform.outgoing.exec platform.outgoing.init events = some wire)
    (unhurried : platform.outgoing.Along
      (fun before event _ => platform.Unhurried prompts before event) platform.outgoing.init
      events) : wire.sent <+: wire.packets.flatten :=
  (((sender.undivided_iff sequential events).mpr unhurried).final
    (sender.tidy_init sequential).undivided executed).prefix_packets

instance [∀ request completion, Decidable (prompts request completion)] (wire : Wire σ) :
    (event : WireEvent ν) → Decidable (platform.Unhurried prompts wire event)
  | .stimulus (.progress (choice, .run index)) =>
      match taken : (platform.io wire.process.state).pending.take index with
      | none => isTrue fun _ _ _ _ _ run located _ => by
          cases run
          cases taken.symm.trans located
      | some (request, completion, rest) =>
          decidable_of_iff (prompts request completion →
            platform.packetsOf (platform.io wire.process.state).pending.requests = []) <| by
            constructor
            · intro unhurried _ _ _ _ _ run located
              cases run
              cases taken.symm.trans located
              exact unhurried
            · exact fun unhurried => unhurried choice index request completion rest rfl taken
  | .stimulus (.progress (_, .finish _ _)) | .stimulus .close | .transfer _ _ =>
      isTrue fun _ _ _ _ _ run => by cases run

end TcpPlatform

namespace Douyu

/-- How a server reads a payload. -/
def Packet.read (payload : Bytes) : Option Packet :=
  let stt := parseStt payload
  if stt.get (ascii "type") = ascii "loginreq" then some (.login (stt.get (ascii "roomid")))
  else if stt.get (ascii "type") = ascii "joingroup" ∧ stt.get (ascii "gid") = ascii "-9999" then
    some (.joingroup (stt.get (ascii "rid")))
  else if stt.get (ascii "type") = ascii "mrkl" then some .heartbeat
  else none

/-- Packets in the frames of `make_stt`. -/
def format : Format Packet where
  framing := framing
  frame packet := sttFrame packet.pairs
  read := Packet.read

/-- The room that a packet is about. -/
def Packet.room : Packet → Bytes
  | .login roomid | .joingroup roomid => roomid
  | .heartbeat => []

theorem plain_pairs {packet : Packet} (room : strIsNum packet.room = true) :
    Plain packet.pairs := by
  have absent : 0 ∉ packet.room ∧ 47 ∉ packet.room := by
    simp only [strIsNum, List.all_eq_true] at room
    exact ⟨fun member => absurd (room 0 member) (by decide),
      fun member => absurd (room 47 member) (by decide)⟩
  have texts : ∀ text ∈ [ascii "type", ascii "loginreq", ascii "roomid", ascii "joingroup",
      ascii "rid", ascii "gid", ascii "-9999", ascii "mrkl"],
      0 ∉ text ∧ 47 ∉ text ∧ contains Stt.mark text = false := by
    decide
  simp only [List.forall_mem_cons] at texts
  cases packet <;> constructor <;> simp only [Packet.room] at absent <;>
    simp [Packet.pairs, absent, texts]

theorem read_pairs (packet : Packet) (plain : Plain packet.pairs) :
    Packet.read (sttFrame packet.pairs).payload = some packet := by
  rw [sttFrame, Packet.read, parseStt_sttText plain]
  cases packet <;> rfl

theorem clear_packet {packet : Packet} (room : strIsNum packet.room = true)
    (fits : (makeStt packet.pairs).length < unsignedRange) : format.Clear packet where
  announces := announces_sttFrame (plain_pairs room) fits
  delivered := rfl
  read := read_pairs packet (plain_pairs room)

theorem bytes_eq {packet : Packet} (room : strIsNum packet.room = true) :
    format.bytes packet = makeStt packet.pairs :=
  (makeStt_eq (plain_pairs room)).symm

theorem room_of_session {roomid : Bytes} {requests : List Packet}
    (session : IsSession roomid requests) (room : strIsNum roomid = true) :
    ∀ packet ∈ requests, strIsNum packet.room = true := by
  rcases session with ⟨later, rfl, behind⟩
  intro packet member
  rcases List.mem_cons.mp member with rfl | member
  · exact room
  · rcases behind packet member with rfl | rfl
    · exact room
    · rfl

/-- What was written is a session, or nothing. -/
theorem exists_requests {roomid : Bytes} {state : State} {packets : List Bytes}
    (staged : (tcp roomid).Staged (fun _ _ packets => packets = []) (Written roomid) state
      packets) :
    ∃ requests, packets = requests.map (fun packet => makeStt packet.pairs) ∧
      (requests = [] ∨ IsSession roomid requests) := by
  cases staged with
  | setting only setup written => exact ⟨[], written, .inl rfl⟩
  | failed nothing written =>
      rcases written with ⟨-, -, written⟩
      exact ⟨[], written, .inl rfl⟩
  | running traffic written =>
      rcases written with ⟨requests, written, session⟩
      exact ⟨requests, written, .inr session⟩

instance (request : Request) (completion : Completion) : Decidable (Prompts request completion) :=
  match request with
  | .heartbeatWait => decidable_of_iff (completion.ec = none) (by simp [Prompts])
  | .readData _ => decidable_of_iff (completion.ec = none ∧
      isMessage (ascii "loginres") completion.data = true) (by simp [Prompts])
  | .resolve | .connect | .write _ | .readHeader => isFalse (by simp [Prompts])

/-- The login packet goes out, its answer arrives, and then a part of the packet that joins. -/
def joining : List (WireEvent Unit) :=
  let answer := makeStt [(ascii "type", ascii "loginres")]
  [.stimulus (.progress ((), .finish 0 (.success []))), .stimulus (.progress ((), .run 0)),
    .stimulus (.progress ((), .finish 0 (.success []))), .stimulus (.progress ((), .run 0)),
    .transfer 0 38, .stimulus (.progress ((), .finish 0 (.success []))),
    .stimulus (.progress ((), .run 0)),
    .stimulus (.progress ((), .finish 0 (.success (answer.take 12)))),
    .stimulus (.progress ((), .run 0)),
    .stimulus (.progress ((), .finish 0 (.success (answer.drop 12)))),
    .stimulus (.progress ((), .run 0)), .transfer 2 20]

/-- What went out in it. -/
def joiningSent : Bytes :=
  newLoginPacket (ascii "1") ++ (newJoingroupPacket (ascii "1")).take 20

theorem exec_joining :
    ((tcp (ascii "1")).outgoing.exec (tcp (ascii "1")).outgoing.init joining).map
      (fun wire => (wire.sent, wire.packets)) =
      some (joiningSent, [newLoginPacket (ascii "1"), newJoingroupPacket (ascii "1")]) := by
  decide

theorem reads_joining :
    framing.Reads joiningSent
      [(.header, (newLoginPacket (ascii "1")).take 12),
        (.deliver 26, (newLoginPacket (ascii "1")).drop 12),
        (.header, (newJoingroupPacket (ascii "1")).take 12)]
      (.deliver 35) (((newJoingroupPacket (ascii "1")).drop 12).take 8) := by
  have cut : (newLoginPacket (ascii "1")).take 12 ++ ((newLoginPacket (ascii "1")).drop 12 ++
      ((newJoingroupPacket (ascii "1")).take 12 ++
        ((newJoingroupPacket (ascii "1")).drop 12).take 8)) = joiningSent := by decide
  exact .read (.read (.read (.of_cut cut) rfl) rfl) rfl

/-- However far the server of douyu has read what went out in a run, it has the first packets of
the session, and all of them that arrived as a whole if it can read no more. -/
theorem served_of_executed {roomid : Bytes} (room : strIsNum roomid = true)
    {events : List (WireEvent Unit)} {wire : Wire State}
    (executed : (tcp roomid).outgoing.exec (tcp roomid).outgoing.init events = some wire)
    (unhurried : (tcp roomid).outgoing.Along
      (fun before event _ => (tcp roomid).Unhurried Prompts before event)
      (tcp roomid).outgoing.init events)
    (fits : ∀ packet ∈ wire.packets, packet.length < unsignedRange)
    {log : List (Purpose × Bytes)} {purpose : Purpose} {rest : Bytes}
    (reads : framing.Reads wire.sent log purpose rest) :
    ∃ requests served, wire.packets = requests.map (fun packet => makeStt packet.pairs) ∧
      (requests = [] ∨ IsSession roomid requests) ∧
      format.Served requests served wire.sent log purpose rest := by
  have staged := TcpPlatform.staged_of_reachable (script roomid) (sequential roomid)
    (sender roomid) (Machine.Reachable.exec .init executed)
  have inside := (sender roomid).prefix_packets (sequential roomid) executed unhurried
  rcases exists_requests staged with ⟨requests, written, session⟩
  have rooms : ∀ packet ∈ requests, strIsNum packet.room = true := by
    rcases session with rfl | session
    · simp
    · exact room_of_session session room
  rw [written] at fits inside
  have bytes : requests.flatMap format.bytes =
      (requests.map fun packet => makeStt packet.pairs).flatten := by
    rw [← List.flatMap_def]
    exact List.flatMap_congr fun packet member => bytes_eq (rooms packet member)
  rw [← bytes] at inside
  rcases Format.exists_served (fun packet member => clear_packet (rooms packet member)
    (fits _ (List.mem_map_of_mem member))) inside reads with ⟨served, holds⟩
  exact ⟨requests, served, written, session, holds⟩

theorem served_of_executed_joining :
    ∃ final, (tcp (ascii "1")).outgoing.exec (tcp (ascii "1")).outgoing.init joining =
        some final ∧
      ∃ requests served, final.packets = requests.map (fun packet => makeStt packet.pairs) ∧
        (requests = [] ∨ IsSession (ascii "1") requests) ∧
        format.Served requests served joiningSent
          [(.header, (newLoginPacket (ascii "1")).take 12),
            (.deliver 26, (newLoginPacket (ascii "1")).drop 12),
            (.header, (newJoingroupPacket (ascii "1")).take 12)]
          (.deliver 35) (((newJoingroupPacket (ascii "1")).drop 12).take 8) := by
  rcases Option.map_eq_some_iff.mp exec_joining with ⟨final, executed, result⟩
  simp only [Prod.mk.injEq] at result
  refine ⟨final, executed, ?_⟩
  rw [← result.1]
  refine served_of_executed (by decide) executed (by decide) ?_ (result.1 ▸ reads_joining)
  rw [result.2]
  decide

end Douyu

namespace Bilibili

/-- How a server reads what follows the length of a packet. -/
def Packet.read (payload : Bytes) : Option Packet := do
  if bigEndian32 (payload.drop 4) = 7 then
    let document ← JsonText.parse (payload.drop 12)
    match document.member (ascii "roomid"), document.member (ascii "uid") with
    | .number roomid, .number uid => some (.login roomid (JsonValue.digitsValue uid))
    | _, _ => none
  else if payload = [0, 16, 0, 1] ++ toBigEndian32 2 ++ [0, 0, 0, 1] then some .heartbeat
  else none

/-- Packets behind their length. -/
def format : Format Packet where
  framing :=
    { headerSize := 4
      next := fun header => .deliver (bigEndian32 header - 4)
      positive := by decide }
  frame packet := ⟨packet.bytes.take 4, packet.bytes.drop 4⟩
  read := Packet.read

theorem bytes_format (packet : Packet) : format.bytes packet = packet.bytes :=
  List.take_append_drop 4 packet.bytes

theorem take_bytes (packet : Packet) :
    packet.bytes.take 4 = toBigEndian32 packet.bytes.length := by
  cases packet with
  | heartbeat => rfl
  | login roomid uid =>
      have sized : (newRequestPacket roomid uid).length =
          16 + (ascii "\x7b\"roomid\":" ++ roomid ++ ascii ", \"uid\":" ++ decimal uid ++
            ascii "\x7d").length := by
        simp only [newRequestPacket, List.length_append, length_toBigEndian32, List.length_cons,
          List.length_nil]
      rw [Packet.bytes, sized]
      rfl

theorem read_bytes {packet : Packet}
    (number : ∀ roomid uid, packet = .login roomid uid → JsonText.IsNumber roomid) :
    Packet.read (packet.bytes.drop 4) = some packet := by
  cases packet with
  | heartbeat => decide
  | login roomid uid =>
      have request : bigEndian32 (((Packet.login roomid uid).bytes.drop 4).drop 4) = 7 := rfl
      have body := Registry.parse_of_isNumber (number roomid uid rfl) uid
      rw [Packet.read, if_pos request, List.drop_drop, Packet.bytes, body]
      exact congrArg (fun uid => some (Packet.login roomid uid)) (JsonValue.digitsValue_decimal uid)

theorem clear_packet {packet : Packet}
    (number : ∀ roomid uid, packet = .login roomid uid → JsonText.IsNumber roomid)
    (fits : packet.bytes.length < unsignedRange) : format.Clear packet where
  announces := by
    refine ⟨?_, fun none => ?_, fun _ => ?_⟩
    · simp only [format, take_bytes, length_toBigEndian32]
    · cases none
    · have word : bigEndian32 (packet.bytes.take 4) = packet.bytes.length := by
        rw [take_bytes, ← List.append_nil (toBigEndian32 _), bigEndian32_append fits]
      simp only [format, Framing.size, word, List.length_drop]
  delivered := rfl
  read := read_bytes number

theorem early_cases {roomid : Bytes} {state : State} {request : Request} {packets : List Bytes}
    (early : Before roomid state request packets) :
    packets = [] ∨ packets = [httpRequest roomid] := by
  cases request with
  | httpResolve | httpConnect => exact .inl early.1
  | httpWrite | httpReadStatusLine | httpReadHeader | httpReadContent | tcpResolve | tcpConnect
  | write | readHeader | readData | skip | heartbeatWait => exact .inr early

/-- What was written is the HTTP request and a session behind it, or the first of them. -/
theorem exists_requests {libraries : Libraries} {roomid : Bytes} {state : State}
    {packets : List Bytes}
    (staged : (tcp libraries roomid).Staged (Before roomid) (Written roomid) state packets) :
    ∃ requests, packets <+: httpRequest roomid :: requests.map Packet.bytes ∧
      packets.drop 1 = requests.map Packet.bytes ∧
      (requests = [] ∨ IsSession roomid requests) := by
  have nothing (written : packets = [] ∨ packets = [httpRequest roomid]) :
      ∃ requests, packets <+: httpRequest roomid :: requests.map Packet.bytes ∧
        packets.drop 1 = requests.map Packet.bytes ∧
        (requests = [] ∨ IsSession roomid requests) := by
    refine ⟨[], ?_⟩
    rcases written with rfl | rfl <;> simp
  cases staged with
  | setting only setup written => exact nothing (early_cases written)
  | failed ended written =>
      rcases written with ⟨earlier, request, written⟩
      exact nothing (early_cases written)
  | running traffic written =>
      rcases written with ⟨requests, rfl, session⟩
      exact ⟨requests, List.prefix_refl _, rfl, .inr session⟩

instance (request : Request) (completion : Completion) : Decidable (Prompts request completion) :=
  inferInstanceAs (Decidable (_ ∧ _))

def finished (index : Nat) (data : Bytes) : WireEvent Nat :=
  .stimulus (.progress (0, .finish index (.success data)))

def handled (index : Nat) : WireEvent Nat :=
  .stimulus (.progress (5, .run index))

/-- The HTTP response is read, the login packet goes out, and then a part of a heartbeat. -/
def beating : List (WireEvent Nat) :=
  [finished 0 [], handled 0, finished 0 [], handled 0,
    .transfer 0 (httpRequest (ascii "7")).length, finished 0 [], handled 0,
    finished 0 (ascii "HTTP/1.0 200 OK\r\nA: b\r\n\r\n"), handled 0, handled 0,
    finished 0 liveBody, handled 0,
    .stimulus (.progress (0, .finish 0 (.failure .eof))), handled 0,
    finished 0 [], handled 0, finished 0 [], handled 0,
    .transfer 0 (newRequestPacket (ascii "7") 5).length, finished 0 [], handled 0,
    finished 1 [], handled 1, .transfer 1 10]

/-- What went out in it behind the HTTP request. -/
def beatingSent : Bytes :=
  newRequestPacket (ascii "7") 5 ++ newHeartbeatPacket.take 10

theorem exec_beating :
    ((tcp live (ascii "7")).outgoing.exec (tcp live (ascii "7")).outgoing.init beating).map
      (fun wire => (wire.sent, wire.packets)) =
      some (httpRequest (ascii "7") ++ beatingSent,
        [httpRequest (ascii "7"), newRequestPacket (ascii "7") 5, newHeartbeatPacket]) := by
  decide

theorem reads_beating :
    format.framing.Reads beatingSent
      [(.header, (newRequestPacket (ascii "7") 5).take 4),
        (.deliver 33, (newRequestPacket (ascii "7") 5).drop 4),
        (.header, newHeartbeatPacket.take 4)]
      (.deliver 12) ((newHeartbeatPacket.drop 4).take 6) := by
  have cut : (newRequestPacket (ascii "7") 5).take 4 ++ ((newRequestPacket (ascii "7") 5).drop 4 ++
      (newHeartbeatPacket.take 4 ++ (newHeartbeatPacket.drop 4).take 6)) = beatingSent := by decide
  exact .read (.read (.read (.of_cut cut) rfl) rfl) rfl

/-- However far the chat server of bilibili has read what went out behind the HTTP request in a
run, it has the first packets of the session, and all of them that arrived as a whole if it can
read no more. -/
theorem served_behind_request {libraries : Libraries} {roomid : Bytes}
    (number : JsonText.IsNumber roomid) {events : List (WireEvent Nat)} {wire : Wire State}
    (executed : (tcp libraries roomid).outgoing.exec (tcp libraries roomid).outgoing.init events =
      some wire)
    (unhurried : (tcp libraries roomid).outgoing.Along
      (fun before event _ => (tcp libraries roomid).Unhurried Prompts before event)
      (tcp libraries roomid).outgoing.init events)
    (fits : ∀ packet ∈ wire.packets, packet.length < unsignedRange)
    {log : List (Purpose × Bytes)} {purpose : Purpose} {rest : Bytes}
    (reads : format.framing.Reads (wire.sent.drop (httpRequest roomid).length) log purpose rest) :
    wire.sent.take (httpRequest roomid).length <+: httpRequest roomid ∧
    ∃ requests served, wire.packets.drop 1 = requests.map Packet.bytes ∧
      (requests = [] ∨ IsSession roomid requests) ∧
      format.Served requests served (wire.sent.drop (httpRequest roomid).length) log purpose
        rest := by
  have staged := TcpPlatform.staged_of_reachable (script libraries roomid)
    (sequential libraries roomid) (sender libraries roomid)
    (Machine.Reachable.exec .init executed)
  have inside := (sender libraries roomid).prefix_packets (sequential libraries roomid) executed
    unhurried
  rcases exists_requests staged with ⟨requests, written, later, session⟩
  have whole : wire.sent <+: httpRequest roomid ++ requests.flatMap format.bytes := by
    have bytes : requests.flatMap format.bytes = (requests.map Packet.bytes).flatten := by
      rw [← List.flatMap_def]
      exact List.flatMap_congr fun packet _ => bytes_format packet
    rw [bytes, ← List.flatten_cons]
    exact inside.trans written.flatten
  have clear : ∀ packet ∈ requests, format.Clear packet := by
    intro packet member
    have listed : packet.bytes ∈ wire.packets := by
      have behind : packet.bytes ∈ wire.packets.drop 1 := by
        rw [later]
        exact List.mem_map_of_mem member
      exact List.mem_of_mem_drop behind
    refine clear_packet (fun room uid same => ?_) (fits _ listed)
    subst same
    rcases session with rfl | ⟨first, count, rfl⟩
    · cases member
    · rcases List.mem_cons.mp member with same | beat
      · cases same
        exact number
      · cases List.eq_of_mem_replicate beat
  have behind := whole.drop (httpRequest roomid).length
  rw [List.drop_left] at behind
  have front := whole.take (httpRequest roomid).length
  rw [List.take_left] at front
  rcases Format.exists_served clear behind reads with ⟨served, holds⟩
  exact ⟨front, requests, served, later, session, holds⟩

theorem served_behind_request_beating :
    ∃ final, (tcp live (ascii "7")).outgoing.exec (tcp live (ascii "7")).outgoing.init beating =
        some final ∧
      final.sent.take (httpRequest (ascii "7")).length <+: httpRequest (ascii "7") ∧
      ∃ requests served, final.packets.drop 1 = requests.map Packet.bytes ∧
        (requests = [] ∨ IsSession (ascii "7") requests) ∧
        format.Served requests served (final.sent.drop (httpRequest (ascii "7")).length)
          [(.header, (newRequestPacket (ascii "7") 5).take 4),
            (.deliver 33, (newRequestPacket (ascii "7") 5).drop 4),
            (.header, newHeartbeatPacket.take 4)]
          (.deliver 12) ((newHeartbeatPacket.drop 4).take 6) := by
  rcases Option.map_eq_some_iff.mp exec_beating with ⟨final, executed, result⟩
  simp only [Prod.mk.injEq] at result
  have behind : final.sent.drop (httpRequest (ascii "7")).length = beatingSent := by
    rw [result.1, List.drop_left]
  refine ⟨final, executed, ?_⟩
  refine served_behind_request (by decide) executed (by decide) ?_ (behind ▸ reads_beating)
  rw [result.2]
  decide

end Bilibili

end DMProxy.Platforms
