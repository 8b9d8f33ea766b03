import DMProxy.Network.Client
import DMProxy.Platforms.Base
import DMProxy.Platforms.Libraries

/-!
# The huajiao platform

A websocket platform.  The next packet is chosen after every incoming message from
the three flags `handshake`, `bLogin` and `bJoin`; the contents of the packets are
protobuf serializations, so a packet is recorded by its kind and the field that
varies.
-/

namespace DMProxy.Platforms.Huajiao

open DMProxy.Network
open DMProxy.Text

/-- The packets an instance sends upstream. -/
inductive Packet where
  | handshake
  | login (serverRam : Bytes)
  | joinChatroom (roomId : Bytes)
  deriving DecidableEq, Repr

/-- `platform_huajiao` apart from its base class. -/
structure State where
  /-- the connection `chdl` refers to -/
  connection : ClientConnection
  handshake : Bool
  bLogin : Bool
  bJoin : Bool
  serverRam : Bytes
  clientRam : Bytes
  session : Bytes
  /-- the packets `client.send` accepted, oldest first -/
  sent : List Packet
  deriving DecidableEq, Repr

/-- A freshly constructed instance. -/
def State.fresh : State where
  connection := .unset
  handshake := false
  bLogin := false
  bJoin := false
  serverRam := []
  clientRam := []
  session := []
  sent := []

/-- `huajiao_config.defaultKey`. -/
def defaultKey : Bytes := ascii "3f190210cb1cf32a2378ee57900acf78"

/-- `conn_info.password`. -/
def password : Bytes := ascii "688961111731502278921563"

/-- `PACKET_TYPE::LoginResp`, `InitLoginResp` and `NewMessageNotify`. -/
def loginResp : Nat := 200001
def initLoginResp : Nat := 200009
def newMessageNotify : Nat := 300000

/-- `MSG_NOTIFY_TYPE::SuccessFul`, `NewmsgNotify` and `MemberGzipNotify`. -/
def successFul : Nat := 0
def newmsgNotify : Nat := 1000
def memberGzipNotify : Nat := 1003

/-- `platform_huajiao::is_room_valid`. -/
def isRoomValid (roomid : Bytes) : Bool :=
  if !strIsNum roomid || roomid.length ≠ 9 then false else true

/-- `platform_huajiao::start`; the argument is the error code `client.get_connection`
gives. -/
def start (ec : Option ErrorCode) (state : State) : State × List Effect :=
  match ec with
  | some error => (state, clientReportWhenError (some error))
  | none => ({ state with connection := .connecting }, [])

/-- `platform_huajiao::close`. -/
def close (state : State) : State × List Effect :=
  let closed := state.connection.close
  ({ state with connection := closed.1 }, clientReportWhenError closed.2)

/-- `CLIENT_CLOSE_AND_REPORT_WHEN_ERROR_WS(ec, chdl)`. -/
def closeAndReport (ec : Option ErrorCode) (state : State) : State × List Effect :=
  match ec with
  | some error =>
      ({ state with connection := state.connection.close.1 },
        clientReportWhenError (some error))
  | none => (state, [])

/-- `client.send` of a packet, followed by the report of its error code. -/
def sendPacket (outcome : Option ErrorCode) (packet : Packet) (state : State) :
    State × List Effect :=
  match state.connection.send outcome none with
  | some error => closeAndReport (some error) state
  | none => ({ state with sent := state.sent ++ [packet] }, [])

/-- `platform_huajiao::on_client_open`. -/
def onClientOpen (outcome : Option ErrorCode) (state : State) : State × List Effect :=
  sendPacket outcome .handshake state

/-- `platform_huajiao::on_client_fail`. -/
def onClientFail (ec : Option ErrorCode) (state : State) : State × List Effect :=
  (state, clientReportWhenError ec)

/-- The `length` bytes of a message of `data.length` bytes that start at an offset,
where `length` is the rest of the message computed in 32 bits; `none` when the
subtraction wraps around and the bytes lie outside the message. -/
def rest (offset : Nat) (data : Bytes) : Option Bytes :=
  if offset ≤ data.length then
    some ((data.drop offset).take ((data.length - offset) % unsignedRange))
  else none

/-- `platform_huajiao::parse_handshake_packet`. -/
def parseHandshakePacket (libraries : Libraries) (data : Bytes) (state : State) :
    State × List Effect :=
  match rest 6 data with
  | none => (state, [.fault])
  | some encrypted =>
      let message := libraries.parseMessage (libraries.rc4 defaultKey encrypted)
      if message.msgid = initLoginResp then
        ({ state with
            serverRam := message.serverRam
            clientRam := message.clientRam
            handshake := true }, [])
      else (state, [])

/-- `platform_huajiao::parse_login_response_packet`. -/
def parseLoginResponsePacket (libraries : Libraries) (data : Bytes) (state : State) :
    State × List Effect :=
  match rest 4 data with
  | none => (state, [.fault])
  | some encrypted =>
      let message := libraries.parseMessage (libraries.rc4 password encrypted)
      if message.msgid = loginResp then
        ({ state with session := message.sessionKey, bLogin := true }, [])
      else (state, [])

/-- `platform_huajiao::parse_json_message`. -/
def parseJsonMessage (libraries : Libraries) (message : Bytes) : List Effect :=
  match libraries.parseJson message with
  | none => []
  | some json =>
      let text := (json.member (ascii "text")).stringValue
      let extended := json.member (ascii "extends")
      let uid :=
        if (json.member (ascii "type")).numberValue.intValue = 16 then
          ascii "uid:" ++ (extended.member (ascii "userid")).numberValue.fixedText
        else (extended.member (ascii "userid")).stringValue
      let nickname := (extended.member (ascii "nickname")).stringValue
      [.publish (publishJson uid nickname text)]

/-- `platform_huajiao::parse_new_message_notify`. -/
def parseNewMessageNotify (libraries : Libraries) (message : HuajiaoMessage) : List Effect :=
  let userData := libraries.parseChatRoomPacket message.infoContent
  if userData.result = successFul then
    if userData.payloadtype = newmsgNotify then
      if userData.msgtype = 0 ∧ userData.memcount ≠ 0 then
        parseJsonMessage libraries userData.msgcontent
      else []
    else if userData.payloadtype = memberGzipNotify then
      userData.multinotify.flatMap fun data =>
        match libraries.ungzip data with
        | none => []
        | some unpacked => parseJsonMessage libraries (libraries.parseNewMsgContent unpacked)
    else []
  else []

/-- `platform_huajiao::parse_message_packet`.  `parse_service_resp` only reads. -/
def parseMessagePacket (libraries : Libraries) (data : Bytes) (state : State) :
    State × List Effect :=
  if data = [0, 0, 0, 0] then (state, [])
  else
    match rest 4 data with
    | none => (state, [.fault])
    | some body =>
        let message := libraries.parseMessage body
        if message.msgid = loginResp then parseLoginResponsePacket libraries data state
        else if message.msgid = newMessageNotify then
          (state, parseNewMessageNotify libraries message)
        else (state, [])

/-- `platform_huajiao::handle_binary_message`. -/
def handleBinaryMessage (libraries : Libraries) (data : Bytes) (state : State) :
    State × List Effect :=
  if state.handshake then
    if state.bLogin then parseMessagePacket libraries data state
    else parseLoginResponsePacket libraries data state
  else parseHandshakePacket libraries data state

/-- The packet `on_client_message` sends after a message was handled. -/
def sendNextPacket (roomid : Bytes) (outcome : Option ErrorCode) (state : State) :
    State × List Effect :=
  if state.handshake && !state.bLogin then
    sendPacket outcome (.login state.serverRam) state
  else if state.handshake && state.bLogin && !state.bJoin then
    sendPacket outcome (.joinChatroom roomid) { state with bJoin := true }
  else (state, [])

/-- `platform_huajiao::on_client_message`. -/
def onClientMessage (libraries : Libraries) (roomid : Bytes) (opcode : Opcode)
    (payload : Bytes) (outcome : Option ErrorCode) (state : State) : State × List Effect :=
  match opcode with
  | .text => (state, [])
  | .binary =>
      let handled := handleBinaryMessage libraries payload state
      if Effect.fault ∈ handled.2 then handled
      else
        let sent := sendNextPacket roomid outcome handled.1
        (sent.1, handled.2 ++ sent.2)

/-- `platform_huajiao::on_client_close`. -/
def onClientClose (state : State) : State × List Effect :=
  (state, [.publish (ascii "huajiao danmu connection closed!"), .closeCallback])

/-- What happens to the connection of an instance, with the handler that runs.
`outcome` is the answer of `connection::send` to the packet the handler sends. -/
def step (libraries : Libraries) (roomid : Bytes) (outcome : Option ErrorCode)
    (state : State) : ClientEvent → Option (State × List Effect)
  | .opened =>
      if state.connection = .connecting then
        some (onClientOpen outcome { state with connection := .open })
      else none
  | .message opcode payload =>
      if state.connection = .open then
        some (onClientMessage libraries roomid opcode payload outcome state)
      else none
  | .closing =>
      if state.connection = .open then some ({ state with connection := .closing }, [])
      else none
  | .failed ec =>
      if state.connection = .connecting then
        some ({ state with connection := .failed ec }, [])
      else none
  | .closed =>
      if state.connection = .open ∨ state.connection = .closing then
        some ({ state with connection := .closed }, [])
      else none
  | .terminated =>
      match state.connection with
      | .failed ec => some (onClientFail ec { state with connection := .finished })
      | .closed => some (onClientClose { state with connection := .finished })
      | _ => none
  | .expire =>
      if state.connection = .finished then
        some ({ state with connection := .expired }, [])
      else none

/-- An instance whose handler calls the close callback and does not come back from it; the
connection is closed only afterwards. -/
def stalled (libraries : Libraries) (state : State) : ClientEvent → State
  | .opened => { state with connection := .open }
  | .message _ payload =>
      let handled := (handleBinaryMessage libraries payload state).1
      { handled with bJoin := handled.bJoin || handled.handshake && handled.bLogin }
  | .terminated => { state with connection := .finished }
  | .closing | .failed _ | .closed | .expire => state

end DMProxy.Platforms.Huajiao
