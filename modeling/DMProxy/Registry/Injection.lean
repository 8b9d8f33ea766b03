import DMProxy.Registry.Operations
import DMProxy.Text.Http
import DMProxy.Text.JsonText

/-!
# The room id of bilibili in requests

`is_room_valid` of bilibili accepts every room id, and the id is written unchanged into the
request line and into the JSON text of the join packet.
-/

namespace DMProxy.Registry

open DMProxy.Platforms
open DMProxy.Text

/-- The room id of a payload that `on_server_message` accepts for bilibili. -/
def acceptedRoom (payload : Bytes) : Option Bytes :=
  match parseRoomstr (trim payload) with
  | some (tag, roomid) =>
      if tag = ascii "bilibili" ∧ Bilibili.isRoomValid roomid = true then some roomid else none
  | none => none

/-- The bytes are one request for a room, and no other one, with the headers that `start`
writes. -/
def IsRoomRequest (roomid written : Bytes) : Prop :=
  ∃ request : HttpRequest, request.text = written ∧
    request.method = ascii "GET" ∧ request.target = Bilibili.liveApiPath ++ roomid ∧
    request.version = ascii "HTTP/1.0" ∧
    request.headers.map HttpHeader.name = [ascii "Host", ascii "Accept", ascii "Connection"] ∧
    ∀ other : HttpRequest, other.text = written → other = request

/-- The room id stays where it is written: the request asks for the room, and the body of the
join packet is an object of two members, of which the first is the number that the room id
is. -/
structure Contained (roomid : Bytes) (uid : Nat) : Prop where
  request : IsRoomRequest roomid (Bilibili.start roomid .fresh).request
  body : JsonText.parse ((Bilibili.newRequestPacket roomid uid).drop 16) =
    some (.object [(ascii "roomid", .number roomid), (ascii "uid", .number (decimal uid))])

/-! ## The request -/

/-- A byte of a number is visible. -/
theorem isVisible_of_numberByte {byte : UInt8} (number : JsonText.NumberByte byte) :
    IsVisible byte := by
  rcases number with digit | listed
  · simp only [JsonText.isDigit, Bool.and_eq_true, decide_eq_true_eq] at digit
    exact ⟨UInt8.le_trans (by decide) digit.1, UInt8.le_trans digit.2 (by decide)⟩
  · have all : ∀ byte ∈ ascii ".eE+-", IsVisible byte := by decide
    exact all byte listed

def hostHeader : HttpHeader where
  name := ascii "Host"
  value := Bilibili.liveApiHost
  named := by decide
  visible := by decide
  field := by decide

def acceptHeader : HttpHeader where
  name := ascii "Accept"
  value := ascii "*/*"
  named := by decide
  visible := by decide
  field := by decide

def connectionHeader : HttpHeader where
  name := ascii "Connection"
  value := ascii "close"
  named := by decide
  visible := by decide
  field := by decide

/-- The request for a room whose id is visible. -/
def roomRequest (roomid : Bytes) (visible : ∀ byte ∈ roomid, IsVisible byte) : HttpRequest where
  method := ascii "GET"
  target := Bilibili.liveApiPath ++ roomid
  version := ascii "HTTP/1.0"
  headers := [hostHeader, acceptHeader, connectionHeader]
  visible := by
    have path : ∀ byte ∈ Bilibili.liveApiPath, IsVisible byte := by decide
    have others : (∀ byte ∈ ascii "GET", IsVisible byte) ∧
        ∀ byte ∈ ascii "HTTP/1.0", IsVisible byte := by decide
    simp only [List.forall_mem_cons, List.not_mem_nil, false_imp_iff, implies_true, and_true]
    refine ⟨⟨by decide, others.1⟩, ⟨?_, fun byte member => ?_⟩, by decide, others.2⟩
    · exact List.append_ne_nil_of_left_ne_nil (by decide) _
    · exact (List.mem_append.mp member).elim (path byte) (visible byte)

theorem text_roomRequest (roomid : Bytes) (visible : ∀ byte ∈ roomid, IsVisible byte) :
    (roomRequest roomid visible).text = (Bilibili.start roomid .fresh).request := by
  have front : ascii "GET" ++ [32] = ascii "GET " := by decide
  have middle : 32 :: ascii "HTTP/1.0" = ascii " HTTP/1.0" := by decide
  have headers : hostHeader.text ++ (acceptHeader.text ++ connectionHeader.text) ++ [13, 10] =
      ascii "Host: " ++ Bilibili.liveApiHost ++ Bilibili.crlf ++ ascii "Accept: */*" ++
        Bilibili.crlf ++ ascii "Connection: close" ++ Bilibili.blankLine := by
    decide
  have written : (Bilibili.start roomid .fresh).request =
      ascii "GET " ++ Bilibili.liveApiPath ++ roomid ++ ascii " HTTP/1.0" ++ Bilibili.crlf ++
        (ascii "Host: " ++ Bilibili.liveApiHost ++ Bilibili.crlf ++ ascii "Accept: */*" ++
          Bilibili.crlf ++ ascii "Connection: close" ++ Bilibili.blankLine) := by
    simp only [Bilibili.start, Bilibili.State.fresh, Bilibili.httpRequest, List.append_assoc,
      List.nil_append]
  rw [written, ← headers, ← front, ← middle]
  simp [HttpRequest.text, roomRequest, Bilibili.crlf]

theorem isRoomRequest_of_visible {roomid : Bytes} (visible : ∀ byte ∈ roomid, IsVisible byte) :
    IsRoomRequest roomid (Bilibili.start roomid .fresh).request :=
  ⟨roomRequest roomid visible, text_roomRequest roomid visible, rfl, rfl, rfl, rfl,
    fun _ same => HttpRequest.text_injective (same.trans (text_roomRequest roomid visible).symm)⟩

/-! ## The join packet -/

/-- What follows the room id in the body of the join packet. -/
def bodyTail (uid : Nat) : Bytes :=
  ascii ", \"uid\":" ++ decimal uid ++ ascii "\x7d"

theorem closed_bodyTail (uid : Nat) : JsonText.Closed (bodyTail uid) := by
  intro byte first
  cases first
  decide

theorem body_eq (roomid : Bytes) (uid : Nat) :
    (Bilibili.newRequestPacket roomid uid).drop 16 =
      123 :: 34 :: ascii "roomid" ++ 34 :: 58 :: (roomid ++ bodyTail uid) := by
  have front : ascii "\x7b\"roomid\":" = 123 :: 34 :: ascii "roomid" ++ [34, 58] := by decide
  simp only [Bilibili.newRequestPacket, bodyTail, front, List.append_assoc]
  rfl

/-- The members of the body: the value behind the key `roomid` begins with the room id. -/
theorem parse_body (roomid : Bytes) (uid : Nat) : ∃ fuel,
    JsonText.parse ((Bilibili.newRequestPacket roomid uid).drop 16) =
      ((JsonText.parseMembers (fuel + 4) 0
        (34 :: ascii "roomid" ++ 34 :: 58 :: (roomid ++ bodyTail uid))).map fun parsed =>
          (.object parsed.1, parsed.2)).bind fun parsed : JsonText × Bytes =>
            if JsonText.skipBlanks parsed.2 = [] then some parsed.1 else none := by
  rw [body_eq]
  refine ⟨2 * (ascii "roomid" ++ 34 :: 58 :: (roomid ++ bodyTail uid)).length + 1, ?_⟩
  rw [JsonText.parse, List.cons_append, List.cons_append, JsonText.parseJson_object _ (by decide)]
  rfl

theorem isNumber_of_parse {roomid : Bytes} {uid : Nat}
    (body : JsonText.parse ((Bilibili.newRequestPacket roomid uid).drop 16) =
      some (.object [(ascii "roomid", .number roomid), (ascii "uid", .number (decimal uid))])) :
    JsonText.IsNumber roomid := by
  rcases parse_body roomid uid with ⟨fuel, parsed⟩
  have plain : ∀ byte ∈ ascii "roomid", Json.Printable byte := by decide
  rw [body, JsonText.parseMembers_key plain, eq_comm, Option.bind_eq_some_iff] at parsed
  rcases parsed with ⟨⟨document, rest⟩, members, ended⟩
  rw [Option.map_eq_some_iff] at members
  rcases members with ⟨⟨members, rest⟩, read, same⟩
  cases same
  split at ended
  next =>
    cases ended
    rw [Option.bind_eq_some_iff] at read
    rcases read with ⟨value, read, others⟩
    have shallow : 0 + 1 ≤ JsonText.maxDepth := by decide
    apply (JsonText.isNumber_iff_of_parseJson (closed_bodyTail uid) (fuel + 2) shallow).mpr
    split at others
    next => simp at others
    next =>
      rw [Option.map_eq_some_iff] at others
      rcases others with ⟨others, -, same⟩
      simp only [Prod.mk.injEq, List.cons.injEq, true_and] at same
      refine ⟨value.2, ?_⟩
      rw [← same.1.1]
      exact read
    next => cases others
  next => cases ended

theorem parse_of_isNumber {roomid : Bytes} (number : JsonText.IsNumber roomid) (uid : Nat) :
    JsonText.parse ((Bilibili.newRequestPacket roomid uid).drop 16) =
      some (.object [(ascii "roomid", .number roomid), (ascii "uid", .number (decimal uid))]) := by
  rcases parse_body roomid uid with ⟨fuel, parsed⟩
  have plain : ∀ byte ∈ ascii "roomid", Json.Printable byte := by decide
  have plain' : ∀ byte ∈ ascii "uid", Json.Printable byte := by decide
  have first := (JsonText.isNumber_iff_of_closed (closed_bodyTail uid)).mp number
  have closed : JsonText.Closed (ascii "\x7d") := by
    intro byte head
    cases head
    decide
  have second := (JsonText.isNumber_iff_of_closed closed).mp (JsonText.isNumber_decimal uid)
  have tail : JsonText.skipBlanks (bodyTail uid) =
      44 :: 32 :: (34 :: ascii "uid" ++ 34 :: 58 :: (decimal uid ++ ascii "\x7d")) := by
    rfl
  rw [parsed, JsonText.parseMembers_key plain,
    JsonText.parseJson_of_number (fuel + 2) (by decide) first]
  simp only [Option.bind_some, tail, JsonText.parseMembers_blank]
  rw [JsonText.parseMembers_key plain', JsonText.parseJson_of_number (fuel + 1) (by decide) second]
  rfl

theorem contained_iff_isNumber (roomid : Bytes) (uid : Nat) :
    Contained roomid uid ↔ JsonText.IsNumber roomid := by
  refine ⟨fun contained => isNumber_of_parse contained.body, fun number => ⟨?_, ?_⟩⟩
  · have made := (JsonText.cuts_parseNumber _ _ _ number).2
    exact isRoomRequest_of_visible fun byte member => isVisible_of_numberByte (made byte member)
  · exact parse_of_isNumber number uid

/-- The room ids that are accepted stay where they are written exactly if they are numbers. -/
theorem contained_iff (payload : Bytes) (uid : Nat) :
    (∀ roomid ∈ acceptedRoom payload, Contained roomid uid) ↔
      ∀ roomid ∈ acceptedRoom payload, JsonText.IsNumber roomid := by
  simp only [contained_iff_isNumber]

theorem not_contained :
    ¬ ∀ (payload : Bytes) (uid : Nat), ∀ roomid ∈ acceptedRoom payload, Contained roomid uid := by
  intro contained
  have here := contained (ascii "bilibili_1 HTTP/1.0\r\nX: y") 100000000000000
    (ascii "1 HTTP/1.0\r\nX: y") (by decide)
  rw [contained_iff_isNumber] at here
  exact absurd here (by decide)

end DMProxy.Registry
