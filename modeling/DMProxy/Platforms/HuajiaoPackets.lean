import DMProxy.Cipher.Rc4
import DMProxy.Platforms.HuajiaoLogin
import DMProxy.Protobuf.Wire

/-!
# The packets of huajiao

A packet is a protobuf message behind its length.  The first one has a longer header, and the
first two are encrypted under the default key.  A server that follows the same steps the other
way round reads what was put into them.
-/

namespace DMProxy.Platforms.Huajiao

open DMProxy.Cipher
open DMProxy.Network
open DMProxy.Protobuf
open DMProxy.Text
open DMProxy.Transition

/-! ## Writing -/

/-- The types of requests among `PACKET_TYPE` for which `new_request_message` sets a field. -/
def loginReq : Nat := 100001
def chatReq : Nat := 100002
def getInfoReq : Nat := 100004
def logoutReq : Nat := 100005
def initLoginReq : Nat := 100009
def serviceReq : Nat := 100011
def ex1QueryUserStatusReq : Nat := 100012

/-- `conn_info.userid` and `conn_info.sender`. -/
def userid : Bytes := ascii "688961111731502278921563"
def sender : Bytes := ascii "688961111731502278921563"

/-- `huajiao_config.senderType` and `huajiao_config.appId`. -/
def senderType : Bytes := ascii "jid"
def appId : Nat := 2080

/-- The values an instance draws at random. -/
structure Drawn where
  /-- `conn_info.client_ram`, a `random_string(10)` -/
  clientRam : Bytes
  /-- `conn_info.sn`, a `random_number(10)` -/
  sn : Nat
  /-- the `random_string(8)` of a login packet -/
  nonce : Bytes
  /-- the `random_string(20)` of a packet that joins a chat room -/
  uuid : Bytes
  deriving DecidableEq, Repr

/-- The field of a request that `new_request_message` sets; the other types leave it empty. -/
def requestNumber (msgid : Nat) : Option Nat :=
  if msgid = loginReq then some 2
  else if msgid = chatReq then some 3
  else if msgid = getInfoReq then some 5
  else if msgid = logoutReq then some 6
  else if msgid = initLoginReq then some 9
  else if msgid = serviceReq then some 11
  else if msgid = ex1QueryUserStatusReq then some 12
  else none

/-- The fields of `Request`. -/
def requestFields (msgid : Nat) (reqObject : List Field) : List Field :=
  match requestNumber msgid with
  | some number => [⟨number, .delimited (encode reqObject)⟩]
  | none => []

/-- `platform_huajiao::new_request_message`. -/
def newRequestMessage (drawn : Drawn) (msgid : Nat) (reqObject : List Field) : List Field :=
  [⟨1, .varint msgid⟩, ⟨2, .varint drawn.sn⟩, ⟨3, .delimited sender⟩,
    ⟨6, .delimited (encode (requestFields msgid reqObject))⟩, ⟨12, .delimited senderType⟩]

/-- `HEX_NUMBERS`. -/
def hexNumbers : Bytes := ascii "0123456789abcdef"

/-- `md5_str`; `md5` is the digest of sixteen bytes. -/
def md5Str (md5 : Bytes → Bytes) (text : Bytes) : Bytes :=
  (md5 text).flatMap fun byte =>
    [hexNumbers.getD (byte.toNat / 16) 0, hexNumbers.getD (byte.toNat % 16) 0]

/-- `make_verf_code`. -/
def makeVerfCode (md5 : Bytes → Bytes) (text : Bytes) : Bytes :=
  ((md5Str md5 (text ++ ascii "360tantan@1408$")).drop 24).take 8

/-- `szHeader`. -/
def szHeader : Bytes := [113, 104, 16, 101, 8, 32, 0, 0, 0, 0, 0, 0]

/-- A body behind a header and the size of the packet, which `swap_uint32` turns around. -/
def framed (header body : Bytes) : Bytes :=
  header ++ (toBigEndian32 (header.length + 4 + body.length) ++ body)

/-- The fields of `InitLoginReq`; `conn_info.sign` is empty. -/
def initLoginFields (drawn : Drawn) : List Field :=
  [⟨1, .delimited drawn.clientRam⟩, ⟨2, .delimited []⟩]

/-- The fields of `LoginReq`. -/
def loginFields (rc4 : Bytes → Bytes → Bytes) (md5 : Bytes → Bytes) (drawn : Drawn)
    (serverRam : Bytes) : List Field :=
  [⟨1, .delimited (ascii "pc")⟩, ⟨2, .varint 4⟩, ⟨3, .delimited serverRam⟩,
    ⟨4, .delimited (rc4 password (serverRam ++ drawn.nonce))⟩, ⟨5, .varint appId⟩,
    ⟨8, .delimited (ascii "h5")⟩, ⟨9, .delimited (makeVerfCode md5 userid)⟩, ⟨10, .varint 1⟩]

/-- The fields of `ApplyJoinChatRoomRequest`, with the `ChatRoom` in it. -/
def applyJoinFields (roomId : Bytes) : List Field :=
  [⟨1, .delimited roomId⟩, ⟨2, .delimited (encode [⟨1, .delimited roomId⟩])⟩, ⟨3, .varint 0⟩]

/-- The fields of `ChatRoomUpToServer`. -/
def toServerFields (roomId : Bytes) : List Field :=
  [⟨1, .varint 102⟩, ⟨4, .delimited (encode (applyJoinFields roomId))⟩]

/-- The fields of `ChatRoomPacket`. -/
def chatRoomPacketFields (md5 : Bytes → Bytes) (drawn : Drawn) (roomId : Bytes) : List Field :=
  [⟨1, .delimited roomId⟩, ⟨2, .delimited (encode (toServerFields roomId))⟩,
    ⟨4, .delimited (md5Str md5 drawn.uuid)⟩, ⟨5, .varint drawn.sn⟩, ⟨6, .varint appId⟩]

/-- The fields of `Service_Req`. -/
def serviceFields (md5 : Bytes → Bytes) (drawn : Drawn) (roomId : Bytes) : List Field :=
  [⟨1, .varint 10000006⟩, ⟨2, .delimited (encode (chatRoomPacketFields md5 drawn roomId))⟩]

/-- `platform_huajiao::new_handshake_packet`. -/
def newHandshakePacket (rc4 : Bytes → Bytes → Bytes) (drawn : Drawn) : Bytes :=
  framed szHeader
    (rc4 defaultKey (encode (newRequestMessage drawn initLoginReq (initLoginFields drawn))))

/-- `platform_huajiao::new_login_packet`. -/
def newLoginPacket (rc4 : Bytes → Bytes → Bytes) (md5 : Bytes → Bytes) (drawn : Drawn)
    (serverRam : Bytes) : Bytes :=
  framed [] (rc4 defaultKey
    (encode (newRequestMessage drawn loginReq (loginFields rc4 md5 drawn serverRam))))

/-- `platform_huajiao::new_join_chatroom_packet`. -/
def newJoinChatroomPacket (md5 : Bytes → Bytes) (drawn : Drawn) (roomId : Bytes) : Bytes :=
  framed [] (encode (newRequestMessage drawn serviceReq (serviceFields md5 drawn roomId)))

/-- The bytes of a packet. -/
def Packet.bytes (rc4 : Bytes → Bytes → Bytes) (md5 : Bytes → Bytes) (drawn : Drawn) :
    Packet → Bytes
  | .handshake => newHandshakePacket rc4 drawn
  | .login serverRam => newLoginPacket rc4 md5 drawn serverRam
  | .joinChatroom roomId => newJoinChatroomPacket md5 drawn roomId

/-! ## Reading -/

/-- The body of a packet with a header, if it has the size that it tells. -/
def unframed (header packet : Bytes) : Option Bytes :=
  let sized := packet.drop header.length
  if header <+: packet ∧ bigEndian32 sized = packet.length then some (sized.drop 4) else none

/-- The fields of the request in a message of a type. -/
def readRequest (msgid : Nat) (text : Bytes) : Option (List Field) := do
  let message ← decode text
  if numberOf 1 message = some msgid then
    let number ← requestNumber msgid
    messageOf number (← messageOf 6 message)
  else none

/-- What a server reads from a packet. -/
inductive Reading where
  | handshake (clientRam : Bytes)
  | login (serverRam nonce : Bytes)
  | joinChatroom (roomId : Bytes)
  deriving DecidableEq, Repr

/-- What a server waits for. -/
inductive Phase where
  | handshake
  | login
  | joinChatroom
  deriving DecidableEq, Repr

def readHandshake (rc4 : Bytes → Bytes → Bytes) (packet : Bytes) : Option Reading := do
  let body ← unframed szHeader packet
  let request ← readRequest initLoginReq (rc4 defaultKey body)
  return .handshake (← bytesOf 1 request)

/-- The secret repeats the string of the server, before the one that the instance has drawn. -/
def readLogin (rc4 : Bytes → Bytes → Bytes) (packet : Bytes) : Option Reading := do
  let body ← unframed [] packet
  let request ← readRequest loginReq (rc4 defaultKey body)
  let serverRam ← bytesOf 3 request
  let secret := rc4 password (← bytesOf 4 request)
  if serverRam <+: secret then return .login serverRam (secret.drop serverRam.length) else none

/-- The room stands in the packet three times. -/
def readJoinChatroom (packet : Bytes) : Option Reading := do
  let body ← unframed [] packet
  let request ← readRequest serviceReq body
  let chatRoomPacket ← messageOf 2 request
  let applyJoin ← messageOf 4 (← messageOf 2 chatRoomPacket)
  let room ← messageOf 2 applyJoin
  let roomId ← bytesOf 1 room
  if bytesOf 1 chatRoomPacket = some roomId ∧ bytesOf 1 applyJoin = some roomId then
    return .joinChatroom roomId
  else none

def Phase.read (rc4 : Bytes → Bytes → Bytes) : Phase → Bytes → Option Reading
  | .handshake => readHandshake rc4
  | .login => readLogin rc4
  | .joinChatroom => readJoinChatroom

/-- The phase in which a packet is read. -/
def Packet.phase : Packet → Phase
  | .handshake => .handshake
  | .login _ => .login
  | .joinChatroom _ => .joinChatroom

/-- What was put into a packet. -/
def Packet.reading (drawn : Drawn) : Packet → Reading
  | .handshake => .handshake drawn.clientRam
  | .login serverRam => .login serverRam drawn.nonce
  | .joinChatroom roomId => .joinChatroom roomId

variable {rc4 : Bytes → Bytes → Bytes} {md5 : Bytes → Bytes} {drawn : Drawn}

/-! ## Packets are read back -/

theorem unframed_framed {header body : Bytes}
    (fits : (framed header body).length < unsignedRange) :
    unframed header (framed header body) = some body := by
  have length : (framed header body).length = header.length + 4 + body.length := by
    simp only [framed, List.length_append, length_toBigEndian32, Nat.add_assoc]
  rw [length] at fits
  have sized : (framed header body).drop header.length =
      toBigEndian32 (header.length + 4 + body.length) ++ body := List.drop_left
  rw [unframed, sized, bigEndian32_append fits, length, if_pos ⟨List.prefix_append _ _, rfl⟩]
  rfl

theorem requestNumber_bounds {msgid number : Nat} (known : requestNumber msgid = some number) :
    0 < number ∧ number < 0x20000000 := by
  simp only [requestNumber] at known
  grind

theorem bytesOf_requestFields {msgid number : Nat} (known : requestNumber msgid = some number)
    (reqObject : List Field) :
    bytesOf number (requestFields msgid reqObject) = some (encode reqObject) := by
  simp [requestFields, known, bytesOf, lookup]

theorem readRequest_newRequestMessage (msgid : Nat) {number : Nat} {reqObject : List Field}
    (known : requestNumber msgid = some number) (bounded : msgid < wordRange)
    (numbered : drawn.sn < wordRange) (typed : ∀ field ∈ reqObject, field.Typed)
    (short : (encode (newRequestMessage drawn msgid reqObject)).length < wordRange) :
    readRequest msgid (encode (newRequestMessage drawn msgid reqObject)) = some reqObject ∧
      (encode reqObject).length < wordRange := by
  have bounds := requestNumber_bounds known
  have request : requestFields msgid reqObject = [⟨number, .delimited (encode reqObject)⟩] := by
    rw [requestFields, known]
  have whole : decode (encode (newRequestMessage drawn msgid reqObject)) =
      some (newRequestMessage drawn msgid reqObject) :=
    decode_of_typed (by simp [newRequestMessage, Field.Typed, Value.Fits, bounded, numbered]) short
  have type : numberOf 1 (newRequestMessage drawn msgid reqObject) = some msgid := rfl
  have field : bytesOf 6 (newRequestMessage drawn msgid reqObject) =
      some (encode (requestFields msgid reqObject)) := rfl
  rcases messageOf_of_bytesOf field (by simp [request, Field.Typed, bounds]) short with
    ⟨outer, shorter⟩
  rcases messageOf_of_bytesOf (bytesOf_requestFields known reqObject) typed shorter with
    ⟨object, shortest⟩
  refine ⟨?_, shortest⟩
  simp only [readRequest, whole, Option.bind_eq_bind, Option.bind_some, if_pos type, known, outer,
    object]

/-! ## The three packets -/

/-- A body of some size is that of a message. -/
theorem short_of_framed {header body message : Bytes} (same : body.length = message.length)
    (fits : (framed header body).length < unsignedRange) : message.length < wordRange := by
  have inside : body.length ≤ (framed header body).length := by
    simp only [framed, List.length_append]
    omega
  simp only [unsignedRange, wordRange] at fits ⊢
  omega

theorem read_handshake (cipher : StreamCipher rc4) (numbered : drawn.sn < wordRange)
    (fits : (newHandshakePacket rc4 drawn).length < unsignedRange) :
    readHandshake rc4 (newHandshakePacket rc4 drawn) = some (.handshake drawn.clientRam) := by
  have request := readRequest_newRequestMessage initLoginReq rfl (by decide) numbered
    (by simp [initLoginFields, Field.Typed]) (short_of_framed (cipher.length _ _) fits)
  have clientRam : bytesOf 1 (initLoginFields drawn) = some drawn.clientRam := rfl
  simp only [readHandshake, newHandshakePacket, unframed_framed fits, Option.bind_eq_bind,
    Option.bind_some, cipher.involutive, request.1, clientRam]
  rfl

theorem read_login (cipher : StreamCipher rc4) (numbered : drawn.sn < wordRange)
    {serverRam : Bytes}
    (fits : (newLoginPacket rc4 md5 drawn serverRam).length < unsignedRange) :
    readLogin rc4 (newLoginPacket rc4 md5 drawn serverRam) =
      some (.login serverRam drawn.nonce) := by
  have request := readRequest_newRequestMessage loginReq rfl (by decide) numbered
    (by simp [loginFields, Field.Typed, Value.Fits, wordRange, appId])
    (short_of_framed (cipher.length _ _) fits)
  have ram : bytesOf 3 (loginFields rc4 md5 drawn serverRam) = some serverRam := rfl
  have secret : bytesOf 4 (loginFields rc4 md5 drawn serverRam) =
      some (rc4 password (serverRam ++ drawn.nonce)) := rfl
  simp only [readLogin, newLoginPacket, unframed_framed fits, Option.bind_eq_bind,
    Option.bind_some, cipher.involutive, request.1, ram, secret, List.prefix_append, if_true,
    List.drop_left]
  rfl

theorem read_joinChatroom (numbered : drawn.sn < wordRange) {roomId : Bytes}
    (fits : (newJoinChatroomPacket md5 drawn roomId).length < unsignedRange) :
    readJoinChatroom (newJoinChatroomPacket md5 drawn roomId) = some (.joinChatroom roomId) := by
  have application : appId < wordRange := by decide
  rcases readRequest_newRequestMessage serviceReq rfl (by decide) numbered
    (by simp [serviceFields, Field.Typed, Value.Fits, wordRange]) (short_of_framed rfl fits) with
    ⟨request, short⟩
  -- the messages in each other, from the outermost one on
  rcases messageOf_of_bytesOf
    (show bytesOf 2 (serviceFields md5 drawn roomId) =
      some (encode (chatRoomPacketFields md5 drawn roomId)) from rfl)
    (by simp [chatRoomPacketFields, Field.Typed, Value.Fits, numbered, application]) short with
    ⟨packet, short⟩
  rcases messageOf_of_bytesOf
    (show bytesOf 2 (chatRoomPacketFields md5 drawn roomId) =
      some (encode (toServerFields roomId)) from rfl)
    (by simp [toServerFields, Field.Typed, Value.Fits, wordRange]) short with ⟨toServer, short⟩
  rcases messageOf_of_bytesOf
    (show bytesOf 4 (toServerFields roomId) = some (encode (applyJoinFields roomId)) from rfl)
    (by simp [applyJoinFields, Field.Typed, Value.Fits, wordRange]) short with ⟨applyJoin, short⟩
  rcases messageOf_of_bytesOf
    (show bytesOf 2 (applyJoinFields roomId) = some (encode [⟨1, .delimited roomId⟩]) from rfl)
    (by simp [Field.Typed]) short with ⟨room, -⟩
  have inRoom : bytesOf 1 [⟨1, .delimited roomId⟩] = some roomId := rfl
  have again : bytesOf 1 (chatRoomPacketFields md5 drawn roomId) = some roomId ∧
      bytesOf 1 (applyJoinFields roomId) = some roomId := ⟨rfl, rfl⟩
  simp only [readJoinChatroom, newJoinChatroomPacket, unframed_framed fits, Option.bind_eq_bind,
    Option.bind_some, request, packet, toServer, applyJoin, room, inRoom, again, and_self, if_true]
  rfl

theorem read_packet (cipher : StreamCipher rc4) (numbered : drawn.sn < wordRange)
    (packet : Packet) (fits : (packet.bytes rc4 md5 drawn).length < unsignedRange) :
    packet.phase.read rc4 (packet.bytes rc4 md5 drawn) = some (packet.reading drawn) := by
  cases packet with
  | handshake => exact read_handshake cipher numbered fits
  | login serverRam => exact read_login cipher numbered fits
  | joinChatroom roomId => exact read_joinChatroom numbered fits

/-! ## The packets of a run -/

/-- The packets in their order; the login request may be repeated. -/
def packetsOf (roomid : Bytes) (logins : List Bytes) : List Packet :=
  .handshake :: (logins.map .login ++ [.joinChatroom roomid])

/-- The packets sent so far are the first ones of handshake, login requests and join request. -/
structure Phased (roomid : Bytes) (state : State) : Prop where
  sent : ∃ logins, state.sent <+: packetsOf roomid logins
  early : state.connection = .connecting → state.sent = [] ∧ state.bJoin = false
  current : state.connection = .open →
    (state.bJoin = true ∧ state.bLogin = true) ∨
      state.bJoin = false ∧ ∃ logins : List Bytes, state.sent = .handshake :: logins.map .login

variable {libraries : Libraries} {roomid : Bytes} {ec : Option ErrorCode} {state : State}

theorem phased_sendPacket {packet : Packet} (outcome : Option ErrorCode)
    (isOpen : state.connection = .open) (before : ∃ logins, state.sent <+: packetsOf roomid logins)
    (after : ∃ logins, state.sent ++ [packet] <+: packetsOf roomid logins)
    (current : (state.bJoin = true ∧ state.bLogin = true) ∨
      state.bJoin = false ∧
        ∃ logins : List Bytes, state.sent ++ [packet] = .handshake :: logins.map .login) :
    Phased roomid (sendPacket outcome packet state).1 := by
  cases outcome with
  | none =>
      rw [sendPacket_accepted packet isOpen]
      refine ⟨after, fun connecting => ?_, fun _ => current⟩
      cases isOpen.symm.trans connecting
  | some error =>
      rw [sendPacket_refused packet error isOpen]
      refine ⟨before, fun connecting => ?_, fun isOpen => ?_⟩
      · cases connecting
      · cases isOpen

theorem phased_sendNextPacket (phased : Phased roomid state) (isOpen : state.connection = .open)
    (outcome : Option ErrorCode) : Phased roomid (sendNextPacket roomid outcome state).1 := by
  simp only [sendNextPacket]
  split
  next due =>
    simp only [Bool.and_eq_true, Bool.not_eq_true'] at due
    rcases phased.current isOpen with joined | ⟨bJoin, logins, sent⟩
    · cases due.2.symm.trans joined.2
    · refine phased_sendPacket outcome isOpen phased.sent ⟨logins ++ [state.serverRam], ?_⟩
        (.inr ⟨bJoin, logins ++ [state.serverRam], ?_⟩)
      · simp [sent, packetsOf]
      · simp [sent]
  next =>
    split
    next due =>
      simp only [Bool.and_eq_true, Bool.not_eq_true'] at due
      rcases phased.current isOpen with joined | ⟨bJoin, logins, sent⟩
      · cases due.2.symm.trans joined.1
      · refine phased_sendPacket outcome isOpen phased.sent ⟨logins, ?_⟩
          (.inl ⟨rfl, due.1.2⟩)
        simp [sent, packetsOf]
    next => exact phased

theorem phased_handled {payload : Bytes} {handled : State} (phased : Phased roomid state)
    (handling : Handling libraries payload state handled) :
    Phased roomid handled ∧ handled.connection = state.connection := by
  cases handling with
  | greeted => exact ⟨⟨phased.sent, phased.early, phased.current⟩, rfl⟩
  | admitted =>
      refine ⟨⟨phased.sent, phased.early, fun isOpen => ?_⟩, rfl⟩
      exact (phased.current isOpen).imp_left fun joined => ⟨joined.1, rfl⟩
  | ignored => exact ⟨phased, rfl⟩

theorem phased_moves {happening : Happening} {next : State} (phased : Phased roomid state)
    (moved : Moves libraries roomid state happening next) : Phased roomid next := by
  cases moved with
  | opened connecting =>
      rcases phased.early connecting with ⟨nothing, bJoin⟩
      apply phased_sendPacket
      · rfl
      · exact phased.sent
      · exact ⟨[], by simp [nothing, packetsOf]⟩
      · exact .inr ⟨bJoin, [], by simp [nothing]⟩
  | @message outcome opcode payload isOpen =>
      cases opcode with
      | text => exact phased
      | binary =>
          rcases Nat.lt_or_ge payload.length (headerSize state) with short | long
          · rw [onClientMessage_short outcome short]
            exact phased
          · rw [onClientMessage_eq outcome long]
            rcases phased_handled phased (handling_handleBinaryMessage libraries payload state) with
              ⟨handled, same⟩
            exact phased_sendNextPacket handled (same.trans isOpen) outcome
  | leaves quiet notOpen notConnecting =>
      exact ⟨phased.sent, fun connecting => absurd connecting notConnecting,
        fun isOpen => absurd isOpen notOpen⟩

theorem phased_start (ec : Option ErrorCode) : Phased roomid (start ec .fresh).1 := by
  cases ec <;> exact ⟨⟨[], by simp [start, State.fresh]⟩, by simp [start, State.fresh],
    by simp [start, State.fresh]⟩

theorem phased_of_reachable {process : Process}
    (reachable : (machine libraries roomid ec).Reachable process) :
    Phased roomid process.platform := by
  induction reachable with
  | init => exact phased_start ec
  | step _ _ stepped phased => exact phased_moves phased (moves stepped)

/-- What a server is to read of the packets of a run. -/
def readingsOf (roomid clientRam : Bytes) (logins : List (Bytes × Bytes)) : List Reading :=
  .handshake clientRam ::
    ((logins.map fun login => .login login.1 login.2) ++ [.joinChatroom roomid])

theorem readings_after_handshake {sends : List (Packet × Drawn)} {rams : List Bytes}
    (order : sends.map Prod.fst <+: rams.map .login ++ [.joinChatroom roomid]) :
    ∃ logins : List (Bytes × Bytes), (sends.map fun send => send.1.reading send.2) <+:
      (logins.map fun login => .login login.1 login.2) ++ [.joinChatroom roomid] := by
  induction sends generalizing rams with
  | nil => exact ⟨[], List.nil_prefix⟩
  | cons send sends ih =>
      rcases send with ⟨packet, drawn⟩
      cases rams with
      | nil =>
          rw [List.map_nil, List.nil_append, List.map_cons, List.cons_prefix_cons,
            List.prefix_nil, List.map_eq_nil_iff] at order
          rcases order with ⟨rfl, rfl⟩
          exact ⟨[], List.prefix_refl _⟩
      | cons ram rams =>
          rw [List.map_cons, List.map_cons, List.cons_append, List.cons_prefix_cons] at order
          rcases order with ⟨rfl, order⟩
          rcases ih order with ⟨logins, later⟩
          refine ⟨(ram, drawn.nonce) :: logins, ?_⟩
          rw [List.map_cons, List.map_cons, List.cons_append, List.cons_prefix_cons]
          exact ⟨rfl, later⟩

theorem readings_of_order {sends : List (Packet × Drawn)} {rams : List Bytes}
    (order : sends.map Prod.fst <+: packetsOf roomid rams) :
    ∃ clientRam logins,
      (sends.map fun send => send.1.reading send.2) <+: readingsOf roomid clientRam logins := by
  cases sends with
  | nil => exact ⟨[], [], List.nil_prefix⟩
  | cons send sends =>
      rcases send with ⟨packet, drawn⟩
      rw [packetsOf, List.map_cons, List.cons_prefix_cons] at order
      rcases order with ⟨rfl, order⟩
      rcases readings_after_handshake order with ⟨logins, later⟩
      refine ⟨drawn.clientRam, logins, ?_⟩
      rw [List.map_cons, readingsOf, List.cons_prefix_cons]
      exact ⟨rfl, later⟩

/-! ## An answered handshake -/

/-- `Message::ParseFromArray` for an answer to the handshake. -/
def parseInitLogin (text : Bytes) : HuajiaoMessage :=
  let message := (decode text).getD []
  let response := ((messageOf 7 message).bind (messageOf 10)).getD []
  { (default : HuajiaoMessage) with
    msgid := (numberOf 1 message).getD 0
    clientRam := (bytesOf 1 response).getD []
    serverRam := (bytesOf 2 response).getD [] }

/-- The libraries that an answer to the handshake needs. -/
def linked : Libraries :=
  { (default : Libraries) with rc4 := Cipher.rc4, parseMessage := parseInitLogin }

/-- The fields of an answer to the handshake. -/
def initLoginAnswer : List Field :=
  [⟨1, .varint initLoginResp⟩, ⟨7, .delimited (encode
    [⟨10, .delimited (encode [⟨1, .delimited [1, 2]⟩, ⟨2, .delimited [3, 4]⟩])⟩])⟩]

/-- The answer behind its header. -/
def answered : Bytes :=
  [0, 0, 0, 0, 0, 0] ++ Cipher.rc4 defaultKey (encode initLoginAnswer)

theorem rest_append (header : Bytes) {body : Bytes} (short : body.length < unsignedRange) :
    rest header.length (header ++ body) = some body := by
  rw [rest, List.length_append, if_pos (Nat.le_add_right _ _), List.drop_left,
    Nat.add_sub_cancel_left, Nat.mod_eq_of_lt short, List.take_length]

theorem parseHandshakePacket_answered (state : State) :
    parseHandshakePacket linked answered state =
      ({ state with serverRam := [3, 4], clientRam := [1, 2], handshake := true }, []) := by
  have short : (Cipher.rc4 defaultKey (encode initLoginAnswer)).length < unsignedRange := by
    rw [streamCipher_rc4.length]
    decide
  have encrypted : rest 6 answered = some (Cipher.rc4 defaultKey (encode initLoginAnswer)) :=
    rest_append [0, 0, 0, 0, 0, 0] short
  have parsed : parseInitLogin (encode initLoginAnswer) =
      { (default : HuajiaoMessage) with
        msgid := initLoginResp, clientRam := [1, 2], serverRam := [3, 4] } := by decide
  simp [parseHandshakePacket, encrypted, linked, streamCipher_rc4.involutive, parsed]

/-- The state after an answered handshake. -/
def loggingIn : State :=
  { State.fresh with
    connection := .open, handshake := true, serverRam := [3, 4], clientRam := [1, 2],
    sent := [.handshake, .login [3, 4]] }

theorem exec_answered :
    (machine linked (ascii "123456789") none).exec
      (machine linked (ascii "123456789") none).init
      [(none, .opened), (none, .message .binary answered)] = some ⟨loggingIn, false⟩ := by
  simp [Machine.exec, machine, start, step, onClientOpen, sendPacket, ClientConnection.send,
    onClientMessage, handleBinaryMessage, parseHandshakePacket_answered, sendNextPacket,
    State.fresh, loggingIn]

/-! ## What a server reads -/

/-- Whatever is drawn for each packet of a run, a server reads what was put into it: a handshake,
then login requests, and then a request to join the room. -/
theorem readings_of_run {libraries : Libraries} {roomid : Bytes} {ec : Option ErrorCode}
    {md5 : Bytes → Bytes} (cipher : StreamCipher libraries.rc4) {happenings : List Happening}
    {final : Process} (executed : (machine libraries roomid ec).exec
      (machine libraries roomid ec).init happenings = some final)
    {sends : List (Packet × Drawn)} (sent : sends.map Prod.fst = final.platform.sent)
    (fits : ∀ send ∈ sends, send.2.sn < wordRange ∧
      (send.1.bytes libraries.rc4 md5 send.2).length < unsignedRange) :
    sends.map (fun send =>
        send.1.phase.read libraries.rc4 (send.1.bytes libraries.rc4 md5 send.2)) =
      sends.map (fun send => some (send.1.reading send.2)) ∧
      ∃ clientRam logins,
        (sends.map fun send => send.1.reading send.2) <+: readingsOf roomid clientRam logins := by
  refine ⟨List.map_congr_left fun send member => ?_, ?_⟩
  · rcases fits send member with ⟨numbered, bounded⟩
    exact read_packet cipher numbered send.1 bounded
  · rcases (phased_of_reachable (Machine.Reachable.exec .init executed)).sent with ⟨rams, order⟩
    rw [← sent] at order
    exact readings_of_order order

theorem readings_of_run_answered :
    [(Packet.handshake, Drawn.mk [5] 6 [7] [8]), (.login [3, 4], Drawn.mk [5] 6 [9] [10])].map
        (fun send => send.1.phase.read Cipher.rc4 (send.1.bytes Cipher.rc4 id send.2)) =
      [some (.handshake [5]), some (.login [3, 4] [9])] ∧
      ∃ clientRam logins, [.handshake [5], .login [3, 4] [9]] <+:
        readingsOf (ascii "123456789") clientRam logins :=
  readings_of_run streamCipher_rc4 exec_answered rfl <| by
    simp only [List.forall_mem_cons, List.not_mem_nil, false_implies, implies_true, and_true,
      Packet.bytes, newHandshakePacket, newLoginPacket, framed, linked, List.length_append,
      streamCipher_rc4.length]
    decide

end DMProxy.Platforms.Huajiao
