import DMProxy.Async.Pending
import DMProxy.Network.Client
import DMProxy.Network.Io
import DMProxy.Platforms.Base
import DMProxy.Platforms.Libraries

/-!
# The YY platform

A websocket platform with a heartbeat timer.  `client.set_timer` creates a new timer
object on every call; `m_hb_timer` holds the last one, and the earlier ones stay
pending until they fire.
-/

namespace DMProxy.Platforms.YY

open DMProxy.Async
open DMProxy.Network
open DMProxy.Text

/-- A timer object created by `client.set_timer`. -/
abbrev TimerId := Nat

/-- `platform_YY` apart from its base class. -/
structure State where
  /-- the connection `m_hdl` refers to -/
  connection : ClientConnection
  /-- `m_hb_timer`; `none` is the null pointer -/
  hbTimer : Option TimerId
  /-- the timers whose handler has not run -/
  timers : Pending TimerId Completion
  nextTimer : TimerId
  /-- the packets `client.send` accepted, oldest first -/
  sent : List Bytes
  deriving DecidableEq, Repr

/-- A freshly constructed instance. -/
def State.fresh : State where
  connection := .unset
  hbTimer := none
  timers := []
  nextTimer := 0
  sent := []

/-- What the environment decides while a handler runs: the answer of
`connection::send` on an open connection, and the current time. -/
structure Answers where
  send : Option ErrorCode
  time : Nat
  deriving DecidableEq, Repr

/-- What happens next to an instance: an event of its connection or progress of one
of its timers. -/
inductive Event where
  | connection (event : ClientEvent)
  | timer (progress : Progress Completion)
  deriving DecidableEq, Repr

/-- `platform_YY::is_room_valid`. -/
def isRoomValid (roomid : Bytes) : Bool :=
  strIsNum roomid

/-- `platform_YY::start`; the argument is the error code `client.get_connection`
gives. -/
def start (ec : Option ErrorCode) (state : State) : State × List Effect :=
  match ec with
  | some error => (state, clientReportWhenError (some error))
  | none => ({ state with connection := .connecting }, [])

/-- `m_hb_timer->cancel()`; `none` when the pointer is null. -/
def cancelHbTimer (state : State) : Option State :=
  state.hbTimer.map fun timer =>
    { state with
      timers := state.timers.cancel (fun other => other == timer)
        (.failure .timerAborted) }

/-- `m_hb_timer = client.set_timer(45000, …)`. -/
def setHbTimer (state : State) : State :=
  { state with
    hbTimer := some state.nextTimer
    timers := state.timers.start state.nextTimer .running
    nextTimer := state.nextTimer + 1 }

/-- `CLIENT_CLOSE_AND_REPORT_WHEN_ERROR_WS`. -/
def closeAndReport (ec : Option ErrorCode) (state : State) : State × List Effect :=
  match ec with
  | some error =>
      ({ state with connection := state.connection.close.1 },
        clientReportWhenError (some error))
  | none => (state, [])

/-- `client.send` of a packet: the error code it leaves. -/
def sendPacket (answers : Answers) (ec : Option ErrorCode) (packet : Bytes)
    (state : State) : State × Option ErrorCode :=
  match state.connection.send answers.send ec with
  | some error => (state, some error)
  | none => ({ state with sent := state.sent ++ [packet] }, none)

/-- `platform_YY::close`. -/
def close (state : State) : State × List Effect :=
  match cancelHbTimer state with
  | none => (state, [.fault])
  | some cancelled =>
      let closed := cancelled.connection.close
      ({ cancelled with connection := closed.1 }, clientReportWhenError closed.2)

def svcLink : Bytes := ascii "66b2c67d-f7ab-4355-a6f0-b52ffccc857e"

/-- `platform_YY::new_login_packet`. -/
def newLoginPacket : Bytes :=
  Json.dumpStrings
    [(ascii "svc_link", svcLink), (ascii "type", ascii "0"), (ascii "uri", ascii "0")]

/-- `platform_YY::new_init_packet`. -/
def newInitPacket (roomid : Bytes) : Bytes :=
  Json.dumpStrings
    [(ascii "sub_sid", roomid), (ascii "svc_link", svcLink), (ascii "top_sid", roomid),
      (ascii "uri", ascii "1")]

/-- The heartbeat text of `handle_heartbeat`. -/
def heartbeat (time : Nat) : Bytes :=
  Json.dumpStrings
    [(ascii "svc_link", svcLink), (ascii "ts", decimal time), (ascii "uri", ascii "6")]

/-- `platform_YY::on_client_open` only looks its connection up. -/
def onClientOpen (state : State) : State × List Effect :=
  (state, [])

/-- `platform_YY::on_client_fail`. -/
def onClientFail (ec : Option ErrorCode) (state : State) : State × List Effect :=
  (state, clientReportWhenError ec)

/-- The `login` branch of `on_client_message`; the timer is set whether or not the
packet was sent. -/
def onLogin (answers : Answers) (ec : Option ErrorCode) (state : State) :
    State × List Effect :=
  let sent := sendPacket answers ec newLoginPacket state
  let reported := closeAndReport sent.2 sent.1
  (setHbTimer reported.1, reported.2)

/-- The `init` branch of `on_client_message`; on an error the timer is cancelled. -/
def onInit (roomid : Bytes) (answers : Answers) (ec : Option ErrorCode) (state : State) :
    State × List Effect :=
  let sent := sendPacket answers ec (newInitPacket roomid) state
  let reported := closeAndReport sent.2 sent.1
  if sent.2.isSome then
    match cancelHbTimer reported.1 with
    | none => (reported.1, reported.2 ++ [.fault])
    | some cancelled => (cancelled, reported.2)
  else reported

/-- The `chat` branch of `on_client_message`: the text published is the whole
`chat_msg`, once its `data` attribute has been found. -/
def onChat (libraries : Libraries) (message : Json) : List Effect :=
  let uid := decimal (message.member (ascii "uid")).numberValue.unsignedValue
  let nickname := (message.member (ascii "nick")).stringValue
  let chatMsg := (message.member (ascii "chat_msg")).stringValue
  match libraries.readXml chatMsg with
  | none => []
  | some tree =>
      match tree [ascii "msg", ascii "txt", ascii "<xmlattr>", ascii "data"] with
      | none => []
      | some _ => [.publish (publishJson uid nickname chatMsg)]

/-- The part of `on_client_message` after its two checks. -/
def dispatch (libraries : Libraries) (roomid : Bytes) (answers : Answers)
    (ec : Option ErrorCode) (message : Json) (state : State) : State × List Effect :=
  let resp := (message.member (ascii "response")).stringValue
  if resp = ascii "login" then onLogin answers ec state
  else if resp = ascii "init" then onInit roomid answers ec state
  else if resp = ascii "join" then (state, [])
  else if resp = ascii "chat" then (state, onChat libraries message)
  else (state, [])

/-- `platform_YY::on_client_message`.  Neither check returns: a message that fails
one is reported and then handled with the error code still set, and text that does
not parse is the null value. -/
def onClientMessage (libraries : Libraries) (roomid : Bytes) (opcode : Opcode)
    (payload : Bytes) (answers : Answers) (state : State) : State × List Effect :=
  let badOpcode : Option ErrorCode := if opcode ≠ .text then some .badMessage else none
  let first := closeAndReport badOpcode state
  match libraries.parseJson payload with
  | some message =>
      let handled := dispatch libraries roomid answers badOpcode message first.1
      (handled.1, first.2 ++ handled.2)
  | none =>
      let second := closeAndReport (some .badMessage) first.1
      let handled := dispatch libraries roomid answers (some .badMessage) .null second.1
      (handled.1, first.2 ++ second.2 ++ handled.2)

/-- `platform_YY::on_client_close`. -/
def onClientClose (state : State) : State × List Effect :=
  let farewell : Effect := .publish (ascii "YY danmu connection closed!")
  match cancelHbTimer state with
  | none => (state, [farewell, .fault])
  | some cancelled => (cancelled, [farewell, .closeCallback])

/-- `platform_YY::handle_heartbeat`. -/
def handleHeartbeat (answers : Answers) (ec : Option ErrorCode) (state : State) :
    State × List Effect :=
  match ec with
  | some error => closeAndReport (some error) state
  | none =>
      let sent := sendPacket answers none (heartbeat answers.time) state
      match sent.2 with
      | some error => closeAndReport (some error) sent.1
      | none => (setHbTimer sent.1, [])

/-- What a connection event does to an instance. -/
def connectionStep (libraries : Libraries) (roomid : Bytes) (answers : Answers)
    (state : State) : ClientEvent → Option (State × List Effect)
  | .opened =>
      if state.connection = .connecting then
        some (onClientOpen { state with connection := .open })
      else none
  | .message opcode payload =>
      if state.connection = .open then
        some (onClientMessage libraries roomid opcode payload answers state)
      else none
  | .closing =>
      if state.connection = .open then some ({ state with connection := .closing }, [])
      else none
  | .failed ec =>
      if state.connection = .connecting then
        some ({ state with connection := .failed ec }, [])
      else none
  | .closed =>
      if state.connection = .open ∨ state.connection = .closing then
        some ({ state with connection := .closed }, [])
      else none
  | .terminated =>
      match state.connection with
      | .failed ec => some (onClientFail ec { state with connection := .finished })
      | .closed => some (onClientClose { state with connection := .finished })
      | _ => none
  | .expire =>
      if state.connection = .finished then
        some ({ state with connection := .expired }, [])
      else none

/-- A timer that is not cancelled expires without an error. -/
def admits (_ : TimerId) (completion : Completion) : Bool :=
  completion.ec.isNone

/-- What the progress of a timer does to an instance. -/
def timerStep (answers : Answers) (state : State) :
    Progress Completion → Option (State × List Effect)
  | .finish index completion =>
      (Pending.finish admits completion state.timers index).map fun timers =>
        ({ state with timers := timers }, [])
  | .run index =>
      (state.timers.take index).map fun taken =>
        handleHeartbeat answers taken.2.1.ec { state with timers := taken.2.2 }

/-- What happens to an instance, with the handler that runs. -/
def step (libraries : Libraries) (roomid : Bytes) (answers : Answers) (state : State) :
    Event → Option (State × List Effect)
  | .connection event => connectionStep libraries roomid answers state event
  | .timer progress => timerStep answers state progress

/-- An instance whose handler calls the close callback and does not come back from it.  The first
report of a message comes before anything is sent or closed, and `on_client_close` cancels the
timer first. -/
def stalled (state : State) : Event → State
  | .connection .terminated =>
      let ended := { state with connection := .finished }
      if state.connection = .closed then (cancelHbTimer ended).getD ended else ended
  | .connection _ | .timer (.finish _ _) => state
  | .timer (.run index) =>
      match state.timers.take index with
      | none => state
      | some taken => { state with timers := taken.2.2 }

end DMProxy.Platforms.YY
