import DMProxy.Network.Io
import DMProxy.Platforms.Base
import DMProxy.Platforms.Libraries
import DMProxy.Text.IStream

/-!
# The bilibili platform

A TCP platform with two phases on one socket.  An HTTP request for the room gives the
address of the chat server as XML; the instance then connects to that server and reads
frames of a sixteen byte header and a payload.
-/

namespace DMProxy.Platforms.Bilibili

open DMProxy.Async
open DMProxy.Network
open DMProxy.Text

/-- The asynchronous operations of an instance, named after what they wait for. -/
inductive Request where
  | httpResolve
  | httpConnect
  | httpWrite (request : Bytes)
  | httpReadStatusLine
  | httpReadHeader
  | httpReadContent
  | tcpResolve
  | tcpConnect
  | write (packet : Bytes)
  | readHeader
  | readData (dataSize : Nat)
  | skip (dataSize : Nat)
  | heartbeatWait
  deriving DecidableEq, Repr

instance : IoRequest Request where
  object
    | .httpResolve | .tcpResolve => .resolver
    | .httpConnect | .httpWrite _ | .httpReadStatusLine | .httpReadHeader
    | .httpReadContent | .tcpConnect | .write _ | .readHeader | .readData _
    | .skip _ => .socket
    | .heartbeatWait => .timer

/-- `platform_bilibili` apart from its base class. -/
structure State where
  io : Io Request
  /-- the stream buffers `m_request` and `m_response` -/
  request : Bytes
  response : Bytes
  liveMsg : Bytes
  deriving DecidableEq, Repr

/-- A freshly constructed instance. -/
def State.fresh : State where
  io := Io.idle
  request := []
  response := []
  liveMsg := []

/-- Line feed with carriage return, and the blank line that ends the header block. -/
def crlf : Bytes := [13, 10]
def blankLine : Bytes := [13, 10, 13, 10]

/-- The size of a frame header. -/
def headerSize : Nat := 16

/-- The results an operation can have.  A read until a delimiter appends bytes that
complete it, a read of at least one byte appends some unless it fails, a read into a
buffer fills it, and a wait that is not cancelled expires. -/
def admits (response : Bytes) (request : Request) (completion : Completion) : Bool :=
  match completion.ec, request with
  | none, .httpReadStatusLine => contains crlf (response ++ completion.data)
  | none, .httpReadHeader => contains blankLine (response ++ completion.data)
  | none, .httpReadContent => !completion.data.isEmpty
  | some _, .httpReadContent => completion.data.isEmpty
  | none, .readHeader => completion.data.length == headerSize
  | none, .readData dataSize => completion.data.length == dataSize
  | none, .skip dataSize => completion.data.length == dataSize
  | some _, .heartbeatWait => false
  | _, _ => true

/-- `platform_bilibili::is_room_valid`. -/
def isRoomValid (_roomid : Bytes) : Bool :=
  true

def liveApiHost : Bytes := ascii "live.bilibili.com"
def liveApiPath : Bytes := ascii "/api/player?id=cid:"

/-- The text `start` writes into `m_request`. -/
def httpRequest (roomid : Bytes) : Bytes :=
  ascii "GET " ++ liveApiPath ++ roomid ++ ascii " HTTP/1.0" ++ crlf ++
    ascii "Host: " ++ liveApiHost ++ crlf ++
    ascii "Accept: */*" ++ crlf ++
    ascii "Connection: close" ++ blankLine

/-- `platform_bilibili::start`. -/
def start (roomid : Bytes) (state : State) : State :=
  { state with
    request := state.request ++ httpRequest roomid
    io := state.io.start .httpResolve }

/-- `platform_bilibili::close`. -/
def close (state : State) : State :=
  { state with io := state.io.closeSocket.cancelTimer }

/-- `m_socket.close(ec)` alone. -/
def closeSocket (state : State) : State :=
  { state with io := state.io.closeSocket }

/-- `platform_bilibili::new_request_packet`; `uid` is drawn at random. -/
def newRequestPacket (roomid : Bytes) (uid : Nat) : Bytes :=
  let reqData := ascii "\x7b\"roomid\":" ++ roomid ++ ascii ", \"uid\":" ++ decimal uid ++
    ascii "\x7d"
  toBigEndian32 (16 + reqData.length) ++ [0, 16, 0, 1] ++ toBigEndian32 7 ++ [0, 0, 0, 1] ++
    reqData

/-- `platform_bilibili::new_heartbeat_packet`. -/
def newHeartbeatPacket : Bytes :=
  toBigEndian32 16 ++ [0, 16, 0, 1] ++ toBigEndian32 2 ++ [0, 0, 0, 1]

/-- `platform_bilibili::do_write`. -/
def doWrite (packet : Bytes) (state : State) : State :=
  { state with io := state.io.startOnSocket (.write packet) }

/-- `platform_bilibili::do_read_header`. -/
def doReadHeader (state : State) : State :=
  { state with io := state.io.startOnSocket .readHeader }

/-- `platform_bilibili::do_read_data`. -/
def doReadData (dataSize : Nat) (state : State) : State :=
  { state with io := state.io.startOnSocket (.readData dataSize) }

/-- `async_read_until` on `m_response`, which completes at once when the delimiter is
already there. -/
def readUntil (request : Request) (delimiter : Bytes) (state : State) : State :=
  if contains delimiter state.response then
    { state with io := state.io.startReady request (.success []) }
  else { state with io := state.io.startOnSocket request }

/-- A report after which the handler returns. -/
def fail (error : ErrorCode) (state : State) : State × List Effect :=
  (state, clientReportWhenError (some error))

/-- A report after which the socket is closed. -/
def failClosing (error : ErrorCode) (state : State) : State × List Effect :=
  (closeSocket state, clientReportWhenError (some error))

/-- A report after which the socket is closed and the timer cancelled. -/
def abandon (error : ErrorCode) (state : State) : State × List Effect :=
  (close state, clientReportWhenError (some error))

/-- `platform_bilibili::on_http_resolve`. -/
def onHttpResolve (ec : Option ErrorCode) (state : State) : State × List Effect :=
  match ec with
  | some error => fail error state
  | none => ({ state with io := state.io.connect .httpConnect }, [])

/-- `platform_bilibili::on_http_connect`. -/
def onHttpConnect (ec : Option ErrorCode) (state : State) : State × List Effect :=
  match ec with
  | some error => fail error state
  | none =>
      ({ state with
          io := state.io.startOnSocket (.httpWrite state.request)
          request := [] }, [])

/-- The completion handler of the HTTP request. -/
def onHttpWritten (ec : Option ErrorCode) (state : State) : State × List Effect :=
  match ec with
  | some error => failClosing error state
  | none => (readUntil .httpReadStatusLine crlf state, [])

/-- The three extractions of `handle_http_read_status_line`: the version, the status
code and the bytes left in the buffer. -/
def parseStatusLine (buffer : Bytes) : Option (Bytes × Nat × Bytes) := do
  let (httpVersion, afterVersion) ← readWord buffer
  let (statusCode, afterCode) ← readUnsigned afterVersion
  let (_, afterLine) ← getLine afterCode
  return (httpVersion, statusCode, afterLine)

/-- `platform_bilibili::handle_http_read_status_line`. -/
def handleHttpReadStatusLine (ec : Option ErrorCode) (state : State) : State × List Effect :=
  match ec with
  | some error => failClosing error state
  | none =>
      match parseStatusLine state.response with
      | none => fail .badMessage state
      | some (httpVersion, statusCode, remaining) =>
          let consumed := { state with response := remaining }
          if httpVersion.take 5 ≠ ascii "HTTP/" then fail .badMessage consumed
          else if statusCode ≠ 200 then fail .badMessage consumed
          else (readUntil .httpReadHeader blankLine consumed, [])

/-- `platform_bilibili::handle_http_read_header`: everything read so far is dropped. -/
def handleHttpReadHeader (ec : Option ErrorCode) (state : State) : State × List Effect :=
  match ec with
  | some error => failClosing error state
  | none =>
      let cleared := { state with response := [] }
      ({ cleared with io := cleared.io.startOnSocket .httpReadContent }, [])

/-- `platform_bilibili::parse_live_msg`. -/
def parseLiveMsg (libraries : Libraries) (state : State) : State × List Effect :=
  match libraries.readXml state.liveMsg with
  | none => failClosing .badMessage state
  | some tree =>
      match tree [ascii "state"] with
      | none => failClosing .badMessage state
      | some live =>
          if live ≠ ascii "LIVE" then failClosing .badMessage state
          else
            match tree [ascii "server"], tree [ascii "dm_port"] with
            | some _, some _ =>
                let closed := closeSocket state
                ({ closed with io := closed.io.start .tcpResolve }, [])
            | _, _ => failClosing .badMessage state

/-- `platform_bilibili::handle_http_read_content`.  The end of the stream is the only
error that is not reported: closing the socket clears the code before the check. -/
def handleHttpReadContent (libraries : Libraries) (ec : Option ErrorCode) (state : State) :
    State × List Effect :=
  match ec with
  | some .eof => parseLiveMsg libraries (closeSocket state)
  | some error => failClosing error state
  | none =>
      let appended := { state with liveMsg := state.liveMsg ++ state.response }
      ({ appended with io := appended.io.startOnSocket .httpReadContent }, [])

/-- `platform_bilibili::on_tcp_resolve`. -/
def onTcpResolve (ec : Option ErrorCode) (state : State) : State × List Effect :=
  match ec with
  | some error => fail error state
  | none => ({ state with io := state.io.connect .tcpConnect }, [])

/-- `platform_bilibili::on_tcp_connect`. -/
def onTcpConnect (roomid : Bytes) (uid : Nat) (ec : Option ErrorCode) (state : State) :
    State × List Effect :=
  match ec with
  | some error => fail error state
  | none =>
      let reading := doReadHeader (doWrite (newRequestPacket roomid uid) state)
      ({ reading with io := reading.io.rearmTimer .heartbeatWait }, [])

/-- The completion handler of `do_write`. -/
def onWritten (ec : Option ErrorCode) (state : State) : State × List Effect :=
  match ec with
  | some error => abandon error state
  | none => (state, [])

/-- `platform_bilibili::handle_header`: an empty frame, a frame of type five that is
delivered, or a frame that is skipped. -/
def handleHeader (completion : Completion) (state : State) : State × List Effect :=
  match completion.ec with
  | some error => abandon error state
  | none =>
      let dataLen := bigEndian32 completion.data
      let dataType := completion.data.getD 11 0
      if dataLen ≤ 16 then (doReadHeader state, [])
      else if dataType = 5 then (doReadData (dataLen - 16) state, [])
      else ({ state with io := state.io.startOnSocket (.skip (dataLen - 16)) }, [])

/-- The completion handler of a skipped payload. -/
def onSkipped (ec : Option ErrorCode) (state : State) : State × List Effect :=
  match ec with
  | some error => abandon error state
  | none => (doReadHeader state, [])

/-- The user id of a chat message: the first element of `info[2]`. -/
def uidText : Json → Bytes
  | .number value => decimal value.unsignedValue
  | .string value => value
  | _ => []

/-- What `handle_data` publishes for a `DANMU_MSG`.  The element accesses are
unchecked, so an index out of range is undefined behaviour. -/
def danmuMsg (message : Json) : List Effect :=
  let infoArray := (message.member (ascii "info")).arrayItems
  match infoArray[1]?, infoArray[2]? with
  | some text, some user =>
      match user.arrayItems[0]?, user.arrayItems[1]? with
      | some uid, some nickname =>
          [.publish (publishJson (uidText uid) nickname.stringValue text.stringValue)]
      | _, _ => [.fault]
  | _, _ => [.fault]

/-- `platform_bilibili::handle_data`.  The next header read is started first. -/
def handleData (libraries : Libraries) (completion : Completion) (state : State) :
    State × List Effect :=
  let rearmed := doReadHeader state
  match completion.ec with
  | some error => abandon error rearmed
  | none =>
      match libraries.parseJson (cString completion.data) with
      | none => abandon .badMessage rearmed
      | some message =>
          if (message.member (ascii "cmd")).stringValue ≠ ascii "DANMU_MSG" then (rearmed, [])
          else (rearmed, danmuMsg message)

/-- `platform_bilibili::handle_heartbeat_timer`. -/
def handleHeartbeatTimer (ec : Option ErrorCode) (state : State) : State × List Effect :=
  match ec with
  | some error => failClosing error state
  | none =>
      let written := doWrite newHeartbeatPacket state
      ({ written with io := written.io.rearmTimer .heartbeatWait }, [])

/-- The reads into `m_response` leave their bytes there before the handler runs. -/
def receive (request : Request) (data : Bytes) (state : State) : State :=
  match request with
  | .httpReadStatusLine | .httpReadHeader | .httpReadContent =>
      { state with response := state.response ++ data }
  | _ => state

/-- The handler of a completed operation. -/
def handle (libraries : Libraries) (roomid : Bytes) (uid : Nat) (request : Request)
    (completion : Completion) (state : State) : State × List Effect :=
  match request with
  | .httpResolve => onHttpResolve completion.ec state
  | .httpConnect => onHttpConnect completion.ec state
  | .httpWrite _ => onHttpWritten completion.ec state
  | .httpReadStatusLine => handleHttpReadStatusLine completion.ec state
  | .httpReadHeader => handleHttpReadHeader completion.ec state
  | .httpReadContent => handleHttpReadContent libraries completion.ec state
  | .tcpResolve => onTcpResolve completion.ec state
  | .tcpConnect => onTcpConnect roomid uid completion.ec state
  | .write _ => onWritten completion.ec state
  | .readHeader => handleHeader completion state
  | .readData _ => handleData libraries completion state
  | .skip _ => onSkipped completion.ec state
  | .heartbeatWait => handleHeartbeatTimer completion.ec state

/-- What happens next to an instance: an operation obtains its result, or its handler
runs.  `uid` is the random number drawn by the handler. -/
def step (libraries : Libraries) (roomid : Bytes) (uid : Nat) (state : State) :
    Progress Completion → Option (State × List Effect)
  | .finish index completion =>
      (Pending.finish (admits state.response) completion state.io.pending index).map
        fun pending => ({ state with io := { state.io with pending := pending } }, [])
  | .run index =>
      (state.io.pending.take index).map fun taken =>
        handle libraries roomid uid taken.1 taken.2.1
          (receive taken.1 taken.2.1.data
            { state with io := { state.io with pending := taken.2.2 } })

/-- The state in which a handler calls the close callback.  Only at the end of the HTTP stream is
the socket closed by then. -/
def reporting (request : Request) (completion : Completion) (state : State) : State :=
  match request with
  | .httpReadStatusLine =>
      match completion.ec, parseStatusLine state.response with
      | none, some (_, _, remaining) => { state with response := remaining }
      | _, _ => state
  | .httpReadContent => if completion.ec = some .eof then closeSocket state else state
  | .readData _ => doReadHeader state
  | _ => state

/-- An instance whose handler calls the close callback and does not come back from it. -/
def stalled (state : State) : Progress Completion → State
  | .finish _ _ => state
  | .run index =>
      match state.io.pending.take index with
      | none => state
      | some taken =>
          reporting taken.1 taken.2.1
            (receive taken.1 taken.2.1.data
              { state with io := { state.io with pending := taken.2.2 } })

end DMProxy.Platforms.Bilibili
