import DMProxy.Network.Io
import DMProxy.Platforms.Base
import DMProxy.Platforms.Libraries
import DMProxy.Platforms.Stt

/-!
# The douyu platform

A TCP platform.  After connecting, the instance logs in and alternates between
reading a header of twelve bytes and the data it announces; a login response starts
the heartbeat timer and joins the room.
-/

namespace DMProxy.Platforms.Douyu

open DMProxy.Async
open DMProxy.Network
open DMProxy.Text

/-- The asynchronous operations of an instance, named after what they wait for. -/
inductive Request where
  | resolve
  | connect
  | write (packet : Bytes)
  | readHeader
  | readData (dataSize : Nat)
  | heartbeatWait
  deriving DecidableEq, Repr

instance : IoRequest Request where
  object
    | .resolve => .resolver
    | .connect | .write _ | .readHeader | .readData _ => .socket
    | .heartbeatWait => .timer

/-- `platform_douyu` apart from its base class. -/
abbrev State := Io Request

/-- A freshly constructed instance. -/
def State.fresh : State := Io.idle

/-- `HEADER_SIZE`. -/
def headerSize : Nat := 12

/-- The results an operation can have: a read that succeeds fills its buffer, and a
wait that is not cancelled expires. -/
def admits (request : Request) (completion : Completion) : Bool :=
  match completion.ec, request with
  | none, .readHeader => completion.data.length == headerSize
  | none, .readData dataSize => completion.data.length == dataSize
  | some _, .heartbeatWait => false
  | _, _ => true

/-- `platform_douyu::is_room_valid`. -/
def isRoomValid (roomid : Bytes) : Bool :=
  strIsNum roomid

/-- `platform_douyu::start`. -/
def start (state : State) : State :=
  Io.start state .resolve

/-- `platform_douyu::close`. -/
def close (state : State) : State :=
  state.closeSocket.cancelTimer

/-- `platform_douyu::new_login_packet`. -/
def newLoginPacket (roomid : Bytes) : Bytes :=
  makeStt [(ascii "type", ascii "loginreq"), (ascii "roomid", roomid)]

/-- `platform_douyu::new_joingroup_packet`. -/
def newJoingroupPacket (roomid : Bytes) : Bytes :=
  makeStt [(ascii "type", ascii "joingroup"), (ascii "rid", roomid), (ascii "gid", ascii "-9999")]

/-- `platform_douyu::new_heartbeat_packet`. -/
def newHeartbeatPacket : Bytes :=
  makeStt [(ascii "type", ascii "mrkl")]

/-- `platform_douyu::do_write`. -/
def doWrite (packet : Bytes) (state : State) : State :=
  state.startOnSocket (.write packet)

/-- `platform_douyu::do_read_header`. -/
def doReadHeader (state : State) : State :=
  state.startOnSocket .readHeader

/-- `platform_douyu::do_read_data`; a read of no bytes completes at once. -/
def doReadData (dataSize : Nat) (state : State) : State :=
  if dataSize = 0 then state.startReady (.readData 0) (.success [])
  else state.startOnSocket (.readData dataSize)

/-- The error branch of the handlers of reads and writes. -/
def abandon (error : ErrorCode) (state : State) : State × List Effect :=
  (state.closeSocket.cancelTimer, clientReportWhenError (some error))

/-- `platform_douyu::on_resolve`. -/
def onResolve (ec : Option ErrorCode) (state : State) : State × List Effect :=
  match ec with
  | some error => (state, clientReportWhenError (some error))
  | none => (Io.connect state .connect, [])

/-- `platform_douyu::on_connect`. -/
def onConnect (roomid : Bytes) (ec : Option ErrorCode) (state : State) :
    State × List Effect :=
  match ec with
  | some error => (state, clientReportWhenError (some error))
  | none => (doReadHeader (doWrite (newLoginPacket roomid) state), [])

/-- The completion handler of `do_write`. -/
def onWritten (ec : Option ErrorCode) (state : State) : State × List Effect :=
  match ec with
  | some error => abandon error state
  | none => (state, [])

/-- The payload size `handle_header` passes to `do_read_data`: `data_len - 8` in
32-bit arithmetic. -/
def payloadSize (header : Bytes) : Nat :=
  (littleEndian32 header + unsignedRange - 8) % unsignedRange

theorem payloadSize_of_long {header : Bytes} (long : 8 ≤ littleEndian32 header) :
    payloadSize header = littleEndian32 header - 8 := by
  have bound := littleEndian32_lt header
  rw [payloadSize]
  generalize littleEndian32 header = length at long bound
  generalize unsignedRange = range at bound
  have shifted : length + range - 8 = length - 8 + range := by omega
  rw [shifted, Nat.add_mod_right, Nat.mod_eq_of_lt (by omega)]

/-- `platform_douyu::handle_header`. -/
def handleHeader (completion : Completion) (state : State) : State × List Effect :=
  match completion.ec with
  | some error => abandon error state
  | none => (doReadData (payloadSize completion.data) state, [])

/-- `platform_douyu::handle_loginres_msg`. -/
def handleLoginresMsg (roomid : Bytes) (state : State) : State × List Effect :=
  (doWrite (newJoingroupPacket roomid) (state.rearmTimer .heartbeatWait), [])

/-- `platform_douyu::handle_chatmsg_msg`. -/
def handleChatmsgMsg (msg : Bytes) (state : State) : State × List Effect :=
  let stt := parseStt msg
  (state, [.publish (publishJson (stt.get (ascii "uid")) (stt.get (ascii "nn"))
    (stt.get (ascii "txt")))])

/-- The dispatch of `handle_data` over `msg_handlers`. -/
def handleMsg (roomid msg : Bytes) (state : State) : State × List Effect :=
  let type := (parseStt msg).get (ascii "type")
  if type = ascii "loginres" then handleLoginresMsg roomid state
  else if type = ascii "chatmsg" then handleChatmsgMsg msg state
  else (state, [])

/-- `platform_douyu::handle_data`.  The next header read is started first; a payload
that does not end in NUL is reported, and nothing is closed. -/
def handleData (roomid : Bytes) (completion : Completion) (state : State) :
    State × List Effect :=
  let rearmed := doReadHeader state
  match completion.ec with
  | some error => abandon error rearmed
  | none =>
      match completion.data.getLast? with
      | none => (rearmed, [.fault])
      | some last =>
          if last ≠ 0 then (rearmed, clientReportWhenError (some .badMessage))
          else handleMsg roomid completion.data rearmed

/-- `platform_douyu::handle_heartbeat_timer`. -/
def handleHeartbeatTimer (ec : Option ErrorCode) (state : State) : State × List Effect :=
  match ec with
  | some error => (state.closeSocket, clientReportWhenError (some error))
  | none => ((doWrite newHeartbeatPacket state).rearmTimer .heartbeatWait, [])

/-- The handler of a completed operation. -/
def handle (roomid : Bytes) (request : Request) (completion : Completion) (state : State) :
    State × List Effect :=
  match request with
  | .resolve => onResolve completion.ec state
  | .connect => onConnect roomid completion.ec state
  | .write _ => onWritten completion.ec state
  | .readHeader => handleHeader completion state
  | .readData _ => handleData roomid completion state
  | .heartbeatWait => handleHeartbeatTimer completion.ec state

/-- What happens next to an instance: an operation obtains its result, or its handler
runs. -/
def step (roomid : Bytes) (state : State) :
    Progress Completion → Option (State × List Effect)
  | .finish index completion =>
      (Pending.finish admits completion state.pending index).map fun pending =>
        ({ state with pending := pending }, [])
  | .run index =>
      (state.pending.take index).map fun taken =>
        handle roomid taken.1 taken.2.1 { state with pending := taken.2.2 }

/-- The state in which a handler calls the close callback.  The socket is closed and the timer
cancelled only afterwards. -/
def reporting (request : Request) (state : State) : State :=
  match request with
  | .readData _ => doReadHeader state
  | .resolve | .connect | .write _ | .readHeader | .heartbeatWait => state

/-- An instance whose handler calls the close callback and does not come back from it. -/
def stalled (state : State) : Progress Completion → State
  | .finish _ _ => state
  | .run index =>
      match state.pending.take index with
      | none => state
      | some taken => reporting taken.1 { state with pending := taken.2.2 }

end DMProxy.Platforms.Douyu
