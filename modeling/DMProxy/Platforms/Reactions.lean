import DMProxy.Platforms.Tcp

/-!
# The reactions of douyu and bilibili

One table for each platform: what the handler of each operation does when the operation
has failed, and what it does when it has succeeded.
-/

namespace DMProxy.Platforms

open DMProxy.Async
open DMProxy.Network
open DMProxy.Text

namespace Douyu

def action : Request → Action
  | .resolve => .resolve
  | .connect => .connect
  | .write packet => .write packet
  | .readHeader | .readData _ => .read
  | .heartbeatWait => .wait

def setup : Request → Bool
  | .resolve | .connect => true
  | .write _ | .readHeader | .readData _ | .heartbeatWait => false

/-- What a handler calls besides reporting the error. -/
def onError : Request → List (Call Request)
  | .resolve | .connect => []
  | .write _ | .readHeader => [.closeSocket, .cancelTimer]
  | .readData _ => [.startOnSocket .readHeader, .closeSocket, .cancelTimer]
  | .heartbeatWait => [.closeSocket]

/-- The payload ends in NUL and has a type. -/
def isMessage (type payload : Bytes) : Bool :=
  payload.getLast? == some 0 && (parseStt payload).get (ascii "type") == type

/-- What `handle_data` makes of a payload. -/
def payloadVerdict (payload : Bytes) : Verdict :=
  match payload.getLast? with
  | none => .faults
  | some last =>
      if last ≠ 0 then .reports .badMessage
      else if isMessage (ascii "chatmsg") payload then
        let stt := parseStt payload
        .chats (stt.get (ascii "uid")) (stt.get (ascii "nn")) (stt.get (ascii "txt"))
      else .quiet

def onSuccess (roomid data : Bytes) : Request → List (Call Request) × Verdict
  | .resolve => ([.connect .connect], .quiet)
  | .connect =>
      ([.startOnSocket (.write (newLoginPacket roomid)), .startOnSocket .readHeader], .quiet)
  | .write _ => ([], .quiet)
  | .readHeader =>
      ([if payloadSize data = 0 then .startReady (.readData 0) (.success [])
        else .startOnSocket (.readData (payloadSize data))], .quiet)
  | .readData _ =>
      (.startOnSocket .readHeader ::
        (if isMessage (ascii "loginres") data then
          [.rearmTimer .heartbeatWait, .startOnSocket (.write (newJoingroupPacket roomid))]
        else []), payloadVerdict data)
  | .heartbeatWait =>
      ([.startOnSocket (.write newHeartbeatPacket), .rearmTimer .heartbeatWait], .quiet)

def react (roomid : Bytes) (request : Request) (completion : Completion) :
    List (Call Request) × Verdict :=
  match completion.ec with
  | some error => (onError request, .reports error)
  | none => onSuccess roomid completion.data request

theorem handleData_eq (roomid data : Bytes) (state : State) :
    handleData roomid (.success data) state =
      (state.run (onSuccess roomid data (.readData 0)).1, (payloadVerdict data).effects) := by
  have differ : ascii "loginres" ≠ ascii "chatmsg" := by decide
  cases ends : data.getLast? with
  | none =>
      simp [handleData, Completion.success, onSuccess, payloadVerdict, isMessage, doReadHeader,
        ends, Io.call, Verdict.effects]
  | some last =>
      simp only [handleData, Completion.success, onSuccess, payloadVerdict, isMessage,
        doReadHeader, ends]
      by_cases terminated : last = 0
      · subst terminated
        simp only [ne_eq, not_true_eq_false, if_false, handleMsg, beq_self_eq_true,
          Bool.true_and, beq_iff_eq]
        split
        next login => simp [login, differ, handleLoginresMsg, doWrite, Io.call, Verdict.effects]
        next =>
          split
          next => simp [handleChatmsgMsg, Io.call, Verdict.effects]
          next => simp [Io.call, Verdict.effects]
      · simp [terminated, Io.call, Verdict.effects]

/-- The handlers do what the table says. -/
theorem handle_eq (roomid : Bytes) (request : Request) (completion : Completion)
    (state : State) :
    handle roomid request completion state =
      (state.run (react roomid request completion).1,
        (react roomid request completion).2.effects) := by
  rcases completion with ⟨ec, data⟩
  cases ec with
  | some error => cases request <;> rfl
  | none =>
      cases request with
      | readData dataSize => exact handleData_eq roomid data state
      | readHeader =>
          simp only [handle, handleHeader, doReadData, react, onSuccess]
          split <;> simp [Io.call, Verdict.effects]
      | resolve | connect | write | heartbeatWait => rfl

/-- A header is followed by a read of its payload, which may be empty. -/
@[simp] theorem requestsOf_onSuccess_readHeader (roomid data : Bytes) :
    requestsOf (onSuccess roomid data .readHeader).1 = [.readData (payloadSize data)] := by
  simp only [onSuccess]
  split
  next empty => simp [empty]
  next => simp

/-- After a payload the next header is read, and a login response is answered. -/
@[simp] theorem requestsOf_onSuccess_readData (roomid data : Bytes) (dataSize : Nat) :
    requestsOf (onSuccess roomid data (.readData dataSize)).1 =
      .readHeader :: if isMessage (ascii "loginres") data then
        [.heartbeatWait, .write (newJoingroupPacket roomid)] else [] := by
  simp only [onSuccess]
  split <;> simp

/-- `platform_douyu` as a TCP platform. -/
def tcp (roomid : Bytes) : TcpPlatform State Request Unit where
  started := start .fresh
  close := close
  step _ := step roomid
  io state := state
  action := action
  setup := setup
  setIo objects _ := objects
  admits _ := admits
  react _ state request completion :=
    ⟨(react roomid request completion).1, (react roomid request completion).2, state⟩
  io_setIo _ _ := rfl
  close_eq _ := rfl
  step_finish _ _ _ _ := rfl
  step_run _ state index := by simp only [step, handle_eq]

end Douyu

namespace Bilibili

def action : Request → Action
  | .httpResolve | .tcpResolve => .resolve
  | .httpConnect | .tcpConnect => .connect
  | .httpWrite packet | .write packet => .write packet
  | .httpReadStatusLine | .httpReadHeader | .httpReadContent | .readHeader | .readData _
  | .skip _ => .read
  | .heartbeatWait => .wait

def setup : Request → Bool
  | .httpResolve | .httpConnect | .httpWrite _ | .httpReadStatusLine | .httpReadHeader
  | .httpReadContent | .tcpResolve | .tcpConnect => true
  | .write _ | .readHeader | .readData _ | .skip _ | .heartbeatWait => false

/-- What a handler calls besides reporting the error. -/
def onError : Request → List (Call Request)
  | .httpResolve | .httpConnect | .tcpResolve | .tcpConnect => []
  | .httpWrite _ | .httpReadStatusLine | .httpReadHeader | .httpReadContent
  | .heartbeatWait => [.closeSocket]
  | .write _ | .readHeader | .skip _ => [.closeSocket, .cancelTimer]
  | .readData _ => [.startOnSocket .readHeader, .closeSocket, .cancelTimer]

/-- The text says that the room is live, and where its chat server is. -/
def namesChatServer (libraries : Libraries) (liveMsg : Bytes) : Bool :=
  match libraries.readXml liveMsg with
  | none => false
  | some tree =>
      tree [ascii "state"] == some (ascii "LIVE") && (tree [ascii "server"]).isSome &&
        (tree [ascii "dm_port"]).isSome

/-- What `handle_data` makes of a payload. -/
def payloadVerdict (libraries : Libraries) (payload : Bytes) : Verdict :=
  match libraries.parseJson (cString payload) with
  | none => .reports .badMessage
  | some message =>
      if (message.member (ascii "cmd")).stringValue ≠ ascii "DANMU_MSG" then .quiet
      else
        let infoArray := (message.member (ascii "info")).arrayItems
        match infoArray[1]?, infoArray[2]? with
        | some text, some user =>
            match user.arrayItems[0]?, user.arrayItems[1]? with
            | some uid, some nickname =>
                .chats (uidText uid) nickname.stringValue text.stringValue
            | _, _ => .faults
        | _, _ => .faults

/-- `async_read_until` as a call. -/
def untilCall (request : Request) (delimiter response : Bytes) : Call Request :=
  if contains delimiter response then .startReady request (.success [])
  else .startOnSocket request

/-- What `handle_http_read_status_line` does with a status line that was read. -/
def onStatusLine (state : State) : Reaction State Request :=
  match parseStatusLine state.response with
  | none => ⟨[], .reports .badMessage, state⟩
  | some (httpVersion, statusCode, remaining) =>
      let consumed := { state with response := remaining }
      if httpVersion.take 5 ≠ ascii "HTTP/" ∨ statusCode ≠ 200 then
        ⟨[], .reports .badMessage, consumed⟩
      else ⟨[untilCall .httpReadHeader blankLine remaining], .quiet, consumed⟩

def onSuccess (libraries : Libraries) (roomid : Bytes) (uid : Nat) (state : State)
    (data : Bytes) : Request → Reaction State Request
  | .httpResolve => ⟨[.connect .httpConnect], .quiet, state⟩
  | .httpConnect =>
      ⟨[.startOnSocket (.httpWrite state.request)], .quiet, { state with request := [] }⟩
  | .httpWrite _ => ⟨[untilCall .httpReadStatusLine crlf state.response], .quiet, state⟩
  | .httpReadStatusLine => onStatusLine state
  | .httpReadHeader =>
      ⟨[.startOnSocket .httpReadContent], .quiet, { state with response := [] }⟩
  | .httpReadContent =>
      ⟨[.startOnSocket .httpReadContent], .quiet,
        { state with liveMsg := state.liveMsg ++ state.response }⟩
  | .tcpResolve => ⟨[.connect .tcpConnect], .quiet, state⟩
  | .tcpConnect =>
      ⟨[.startOnSocket (.write (newRequestPacket roomid uid)), .startOnSocket .readHeader,
        .rearmTimer .heartbeatWait], .quiet, state⟩
  | .write _ => ⟨[], .quiet, state⟩
  | .readHeader =>
      ⟨[.startOnSocket
        (if bigEndian32 data ≤ 16 then .readHeader
        else if data.getD 11 0 = 5 then .readData (bigEndian32 data - 16)
        else .skip (bigEndian32 data - 16))], .quiet, state⟩
  | .readData _ => ⟨.startOnSocket .readHeader ::
      (if (libraries.parseJson (cString data)).isNone then [.closeSocket, .cancelTimer] else []),
      payloadVerdict libraries data, state⟩
  | .skip _ => ⟨[.startOnSocket .readHeader], .quiet, state⟩
  | .heartbeatWait =>
      ⟨[.startOnSocket (.write newHeartbeatPacket), .rearmTimer .heartbeatWait], .quiet, state⟩

/-- The end of the response, which is what the whole body is for. -/
def onEof (libraries : Libraries) (state : State) : Reaction State Request :=
  if namesChatServer libraries state.liveMsg then
    ⟨[.closeSocket, .closeSocket, .start .tcpResolve], .quiet, state⟩
  else ⟨[.closeSocket, .closeSocket], .reports .badMessage, state⟩

/-- The reaction from the state in which the handler begins. -/
def reactFrom (libraries : Libraries) (roomid : Bytes) (uid : Nat) (state : State)
    (request : Request) (completion : Completion) : Reaction State Request :=
  match completion.ec with
  | some error =>
      if request = .httpReadContent ∧ error = .eof then onEof libraries state
      else ⟨onError request, .reports error, state⟩
  | none => onSuccess libraries roomid uid state completion.data request

def react (libraries : Libraries) (roomid : Bytes) (uid : Nat) (state : State)
    (request : Request) (completion : Completion) : Reaction State Request :=
  reactFrom libraries roomid uid (receive request completion.data state) request completion

theorem requestsOf_untilCall (request : Request) (delimiter response : Bytes) :
    requestsOf [untilCall request delimiter response] = [request] := by
  simp only [untilCall]
  split <;> rfl

/-- The status line is refused, or the header block is read next. -/
theorem onStatusLine_cases (state : State) :
    (onStatusLine state).calls = [] ∧ (onStatusLine state).verdict.IsReport ∨
      requestsOf (onStatusLine state).calls = [.httpReadHeader] ∧
        (onStatusLine state).verdict = .quiet := by
  simp only [onStatusLine]
  rcases parseStatusLine state.response with - | parts
  · exact .inl ⟨rfl, trivial⟩
  · dsimp only
    split
    next => exact .inl ⟨rfl, trivial⟩
    next => exact .inr ⟨requestsOf_untilCall .., rfl⟩

/-- The body is refused, or the chat server is resolved next. -/
theorem onEof_cases (libraries : Libraries) (state : State) :
    requestsOf (onEof libraries state).calls = [] ∧ (onEof libraries state).verdict.IsReport ∨
      requestsOf (onEof libraries state).calls = [.tcpResolve] ∧
        (onEof libraries state).verdict = .quiet := by
  simp only [onEof]
  split
  next => exact .inr ⟨by simp, rfl⟩
  next => exact .inl ⟨by simp, trivial⟩

/-- Replace the I/O objects. -/
def setIo (io : Io Request) (state : State) : State :=
  { state with io := io }

/-- The result of a reaction in a state. -/
def resultOf (io : Io Request) (reaction : Reaction State Request) : State × List Effect :=
  (setIo (io.run reaction.calls) reaction.state, reaction.verdict.effects)

theorem danmuMsg_eq (libraries : Libraries) (payload : Bytes) (message : Json)
    (parsed : libraries.parseJson (cString payload) = some message)
    (danmu : (message.member (ascii "cmd")).stringValue = ascii "DANMU_MSG") :
    danmuMsg message = (payloadVerdict libraries payload).effects := by
  simp only [danmuMsg, payloadVerdict, parsed, danmu, ne_eq, not_true_eq_false, if_false]
  generalize (message.member (ascii "info")).arrayItems = infoArray
  cases infoArray[1]? with
  | none => rfl
  | some text =>
      cases infoArray[2]? with
      | none => rfl
      | some user =>
          dsimp only
          cases user.arrayItems[0]? with
          | none => rfl
          | some uid =>
              cases user.arrayItems[1]? with
              | none => rfl
              | some nickname => rfl

theorem handleData_eq (libraries : Libraries) (roomid data : Bytes) (uid dataSize : Nat)
    (state : State) :
    handleData libraries (.success data) state =
      resultOf state.io (onSuccess libraries roomid uid state data (.readData dataSize)) := by
  simp only [handleData, Completion.success, resultOf, onSuccess]
  cases parsed : libraries.parseJson (cString data) with
  | none => simp [payloadVerdict, parsed, Io.call, doReadHeader, abandon, close, setIo,
      Verdict.effects]
  | some message =>
      dsimp only
      split
      next other =>
        simp [payloadVerdict, parsed, other, Io.call, doReadHeader, setIo, Verdict.effects]
      next danmu =>
        rw [danmuMsg_eq libraries data message parsed (not_not.mp danmu)]
        simp [Io.call, doReadHeader, setIo]

theorem handleHttpReadStatusLine_eq (state : State) :
    handleHttpReadStatusLine none state = resultOf state.io (onStatusLine state) := by
  simp only [handleHttpReadStatusLine, onStatusLine]
  cases parsed : parseStatusLine state.response with
  | none => rfl
  | some parts =>
      rcases parts with ⟨httpVersion, statusCode, remaining⟩
      dsimp only
      by_cases version : httpVersion.take 5 = ascii "HTTP/"
      · by_cases code : statusCode = 200
        · simp only [version, code, ne_eq, not_true_eq_false, if_false, or_self, readUntil,
            untilCall, resultOf]
          split <;> rfl
        · simp [version, code, resultOf, fail, setIo, Verdict.effects]
      · simp [version, resultOf, fail, setIo, Verdict.effects]

theorem parseLiveMsg_eq (libraries : Libraries) (state : State) :
    parseLiveMsg libraries (closeSocket state) = resultOf state.io (onEof libraries state) := by
  cases read : libraries.readXml state.liveMsg with
  | none =>
      simp [parseLiveMsg, onEof, namesChatServer, closeSocket, read, resultOf, failClosing, setIo,
        Io.call, Verdict.effects]
  | some tree =>
      simp only [parseLiveMsg, onEof, namesChatServer, closeSocket, read]
      rcases tree [ascii "state"] with - | live
      · rfl
      · by_cases isLive : live = ascii "LIVE"
        · subst isLive
          rcases tree [ascii "server"] with - | server
          · simp [resultOf, failClosing, closeSocket, setIo, Io.call, Verdict.effects]
          · rcases tree [ascii "dm_port"] with - | port
            · simp [resultOf, failClosing, closeSocket, setIo, Io.call, Verdict.effects]
            · simp [resultOf, setIo, Io.call, Verdict.effects]
        · simp [isLive, resultOf, failClosing, closeSocket, setIo, Io.call, Verdict.effects]

/-- The handlers do what the table says. -/
theorem handle_eq (libraries : Libraries) (roomid : Bytes) (uid : Nat) (request : Request)
    (completion : Completion) (state : State) :
    handle libraries roomid uid request completion state =
      resultOf state.io (reactFrom libraries roomid uid state request completion) := by
  rcases completion with ⟨ec, data⟩
  cases ec with
  | some error =>
      cases request with
      | httpReadContent =>
          cases error with
          | eof => exact parseLiveMsg_eq libraries state
          | _ => rfl
      | _ => rfl
  | none =>
      cases request with
      | readData dataSize => exact handleData_eq libraries roomid data uid dataSize state
      | httpReadStatusLine => exact handleHttpReadStatusLine_eq state
      | httpWrite =>
          simp only [handle, onHttpWritten, readUntil, reactFrom, onSuccess, untilCall, resultOf]
          split <;> rfl
      | readHeader =>
          simp only [handle, handleHeader, reactFrom, onSuccess, resultOf]
          split
          · rfl
          · split <;> rfl
      | _ => rfl

/-- A reaction does not look at the I/O objects. -/
theorem resultOf_setIo (libraries : Libraries) (roomid : Bytes) (uid : Nat) (io held : Io Request)
    (state : State) (request : Request) (completion : Completion) :
    resultOf io (reactFrom libraries roomid uid (setIo held state) request completion) =
      resultOf io (reactFrom libraries roomid uid state request completion) := by
  rcases completion with ⟨ec, data⟩
  cases ec with
  | some error =>
      simp only [reactFrom]
      split
      · cases named : namesChatServer libraries state.liveMsg <;>
          simp [onEof, setIo, named, resultOf]
      · rfl
  | none =>
      cases request with
      | httpReadStatusLine =>
          simp only [reactFrom, onSuccess, onStatusLine, setIo]
          rcases parseStatusLine state.response with - | parts
          · rfl
          · dsimp only
            split_ifs <;> rfl
      | _ => rfl

/-- `platform_bilibili` as a TCP platform; the choice is the random `uid`. -/
def tcp (libraries : Libraries) (roomid : Bytes) : TcpPlatform State Request Nat where
  started := start roomid .fresh
  close := close
  step := step libraries roomid
  io := State.io
  action := action
  setup := setup
  setIo := setIo
  admits state := admits state.response
  react := react libraries roomid
  io_setIo _ _ := rfl
  close_eq _ := rfl
  step_finish _ _ _ _ := rfl
  step_run uid state index := by
    simp only [step, handle_eq]
    congr 1
    funext taken
    have moved :
        receive taken.1 taken.2.1.data (setIo { state.io with pending := taken.2.2 } state) =
        setIo { state.io with pending := taken.2.2 } (receive taken.1 taken.2.1.data state) := by
      cases taken.1 <;> rfl
    simp only [setIo] at moved
    rw [moved]
    exact resultOf_setIo libraries roomid uid _ _ _ taken.1 taken.2.1

/-- A live room and its chat server. -/
def liveBody : Bytes :=
  ascii "<state>LIVE</state><server>1</server><dm_port>1</dm_port>"

/-- What `read_xml` makes of it. -/
def liveTree (path : List Bytes) : Option Bytes :=
  if path = [ascii "state"] then some (ascii "LIVE")
  else if path = [ascii "server"] ∨ path = [ascii "dm_port"] then some (ascii "1")
  else none

def live : Libraries :=
  { (default : Libraries) with
    readXml := fun text => if text = liveBody then some liveTree else none }

end Bilibili

/-- A chat message of bilibili. -/
def danmuText : Bytes :=
  ascii "\x7b\"cmd\":\"DANMU_MSG\",\"info\":[[],\"hi\",[\"7\",\"a\"]]\x7d"

/-- A parser that knows this message only. -/
def danmuLibraries : Libraries :=
  { (default : Libraries) with
    parseJson := fun document =>
      if document = danmuText then
        some (.object [(ascii "cmd", .string (ascii "DANMU_MSG")),
          (ascii "info", .array [.array [], .string (ascii "hi"),
            .array [.string (ascii "7"), .string (ascii "a")]])])
      else none }

end DMProxy.Platforms
