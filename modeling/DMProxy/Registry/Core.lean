import DMProxy.Platforms.Upstream

/-!
# The registry of rooms

`main.cpp`: the map from room strings to platform instances, and the three functions
that change it under one lock.  `on_server_message` and `on_server_close` hold the lock
while they call `start` and `close` of an instance; `on_platform_close`, which takes the
same lock, is what an instance calls to report that it is closed.
-/

namespace DMProxy.Registry

open DMProxy.Collections
open DMProxy.Network
open DMProxy.Platforms
open DMProxy.Text

/-- The identity of an instance, that is of the object a `platform_base_ptr_t` owns. -/
abbrev InstanceId := Nat

/-- A platform instance: the fields of `platform_base`, the state of the derived class,
and how often it was started and closed and has reported closure. -/
structure Instance where
  platformName : Bytes
  roomid : Bytes
  listeners : Listeners
  /-- Whether `m_close_callback` is set; it can only be `on_platform_close`. -/
  closeCallback : Bool
  upstream : Upstream
  starts : Nat
  closes : Nat
  reports : Nat
  /-- Whether a handler holds the strand of the upstream connection for ever. -/
  blocked : Bool

/-- The string an instance passes to its close callback. -/
def Instance.roomstr (inst : Instance) : Bytes :=
  inst.platformName ++ ascii "_" ++ inst.roomid

/-- A freshly constructed instance of the platform an upstream state belongs to. -/
def Instance.make (upstream : Upstream) (roomid : Bytes) : Instance where
  platformName := upstream.platformName
  roomid := roomid
  listeners := OrderedSet.empty
  closeCallback := false
  upstream := upstream
  starts := 0
  closes := 0
  reports := 0
  blocked := false

/-- The state of the program. -/
structure State where
  rpMap : Bytes → Option InstanceId
  instances : InstanceId → Option Instance
  nextInstance : InstanceId
  server : Server
  /-- A handler that holds the registry lock waits for that lock. -/
  deadlocked : Bool
  /-- A handler ran into undefined behaviour or an uncaught exception. -/
  crashed : Bool

/-- Before the first client connects. -/
def State.initial : State where
  rpMap := fun _ => none
  instances := fun _ => none
  nextInstance := 0
  server := fun _ => none
  deadlocked := false
  crashed := false

/-- What the environment decides while a handler runs: the answers of the server
connections to what is sent to them, and the error code of `client.get_connection`. -/
structure Environment where
  send : SendOutcome
  getConnection : Option ErrorCode

namespace State

/-- A handler will never return. -/
def halted (state : State) : Bool :=
  state.deadlocked || state.crashed

/-- Change an instance in place. -/
def modify (i : InstanceId) (change : Instance → Instance) (state : State) : State :=
  { state with
    instances := Function.update state.instances i ((state.instances i).map change) }

/-- The connection is a listener of the instance. -/
def Listens (state : State) (hdl : ConnectionHdl) (i : InstanceId) : Prop :=
  ∃ inst, state.instances i = some inst ∧ hdl ∈ inst.listeners

/-- `platform_base::add_listener`. -/
def addListener (i : InstanceId) (hdl : ConnectionHdl) : State → State :=
  modify i fun inst => { inst with listeners := inst.listeners.insert hdl }

/-- `platform_base::erase_listener`. -/
def eraseListener (i : InstanceId) (hdl : ConnectionHdl) : State → State :=
  modify i fun inst => { inst with listeners := inst.listeners.erase hdl }

/-- `platform_base::have_listener`. -/
def haveListener (i : InstanceId) (hdl : ConnectionHdl) (state : State) : Bool :=
  match state.instances i with
  | none => false
  | some inst => decide (hdl ∈ inst.listeners)

/-- `platform_base::listeners_count`. -/
def listenersCount (i : InstanceId) (state : State) : Nat :=
  match state.instances i with
  | none => 0
  | some inst => inst.listeners.size

/-- `platform_base::set_close_callback(on_platform_close)`. -/
def setCloseCallback (i : InstanceId) : State → State :=
  modify i fun inst => { inst with closeCallback := true }

/-- The upstream state of an instance after one of its handlers. -/
def setUpstream (i : InstanceId) (upstream : Upstream) : State → State :=
  modify i fun inst => { inst with upstream := upstream }

/-- `publish` on an instance. -/
def publish (send : SendOutcome) (i : InstanceId) (dmMsg : Bytes) (state : State) : State :=
  match state.instances i with
  | none => state
  | some inst =>
      let published := Platforms.publish send state.server inst.listeners dmMsg
      { state.modify i fun inst => { inst with listeners := published.2 } with
        server := published.1 }

/-- `rp_map.erase`. -/
def eraseRoom (roomstr : Bytes) (state : State) : State :=
  { state with rpMap := Function.update state.rpMap roomstr none }

/-- `on_platform_close`, called without the lock. -/
def onPlatformClose (roomstr : Bytes) (state : State) : State :=
  state.eraseRoom roomstr

/-- The call of `m_close_callback`.  With the registry lock `locked`, by the caller or by a
handler that is deadlocked, it waits for that lock for ever; called before it is set, it
throws. -/
def fireCloseCallback (locked : Bool) (i : InstanceId) (state : State) : State :=
  match state.instances i with
  | none => state
  | some inst =>
      if inst.closeCallback then
        let reported := state.modify i fun inst => { inst with reports := inst.reports + 1 }
        if locked then { reported with deadlocked := true }
        else reported.onPlatformClose inst.roomstr
      else { state with crashed := true }

/-- Carry out what a handler of an instance does outside its upstream state, up to the
first point at which the handler does not go on. -/
def runEffects (send : SendOutcome) (locked : Bool) (i : InstanceId) :
    List Effect → State → State
  | [], state => state
  | .publish dmMsg :: rest, state =>
      runEffects send locked i rest (state.publish send i dmMsg)
  | .closeCallback :: rest, state =>
      let fired := state.fireCloseCallback locked i
      if fired.halted then fired else runEffects send locked i rest fired
  | .fault :: _, state => { state with crashed := true }

/-- `pbase->start()` under the lock. -/
def startInstance (environment : Environment) (i : InstanceId) (state : State) : State :=
  match state.instances i with
  | none => state
  | some inst =>
      let started := inst.upstream.start inst.roomid environment.getConnection
      runEffects environment.send true i started.2
        (state.modify i fun inst =>
          { inst with upstream := started.1, starts := inst.starts + 1 })

/-- `pbase->close()` under the lock. -/
def closeInstance (environment : Environment) (i : InstanceId) (state : State) : State :=
  match state.instances i with
  | none => state
  | some inst =>
      let closed := inst.upstream.close
      runEffects environment.send true i closed.2
        (state.modify i fun inst =>
          { inst with upstream := closed.1, closes := inst.closes + 1 })

/-- Drop a connection from the room registered under a string, and the room with its
last listener.  This is the body of `on_server_close`, which `on_server_message`
repeats for the room the client leaves. -/
def leaveRoom (environment : Environment) (roomstr : Bytes) (hdl : ConnectionHdl)
    (state : State) : State :=
  match state.rpMap roomstr with
  | none => state
  | some i =>
      let erased := state.eraseListener i hdl
      if erased.listenersCount i = 0 then
        let closed := erased.closeInstance environment i
        if closed.halted then closed else closed.eraseRoom roomstr
      else erased

/-- `on_server_close`. -/
def onServerClose (environment : Environment) (roomstr : Bytes) (hdl : ConnectionHdl)
    (state : State) : State :=
  state.leaveRoom environment roomstr hdl

/-- Change the handlers installed on a connection. -/
def modifyHandlers (hdl : ConnectionHdl) (change : Handlers → Handlers) (state : State) :
    State :=
  { state with
    server := Function.update state.server hdl
      ((state.server hdl).map fun con => { con with handlers := change con.handlers }) }

/-- `set_message_handler` with a room string bound. -/
def setMessageHandler (hdl : ConnectionHdl) (roomstr : Bytes) : State → State :=
  modifyHandlers hdl fun handlers => { handlers with message := roomstr }

/-- `set_close_handler` with a room string bound. -/
def setCloseHandler (hdl : ConnectionHdl) (roomstr : Bytes) : State → State :=
  modifyHandlers hdl fun handlers => { handlers with close := some roomstr }

/-- Answer a request that is refused. -/
def reject (environment : Environment) (hdl : ConnectionHdl) (text : Bytes)
    (state : State) : State :=
  let sent := state.server.send environment.send hdl text none
  { state with server := sent.1.closeAndReportWhenError sent.2 hdl }

/-- The last part of `on_server_message`: the connection becomes a listener of an
instance, which is registered and started. -/
def install (environment : Environment) (hdl : ConnectionHdl) (roomstr : Bytes)
    (i : InstanceId) (state : State) : State :=
  let joined := ((state.setCloseHandler hdl roomstr).addListener i hdl).setCloseCallback i
  { joined with rpMap := Function.update joined.rpMap roomstr (some i) }.startInstance
    environment i

/-- `std::make_shared` of a platform instance. -/
def allocate (upstream : Upstream) (roomid : Bytes) (state : State) : State :=
  { state with
    instances := Function.update state.instances state.nextInstance
      (some (Instance.make upstream roomid))
    nextInstance := state.nextInstance + 1 }

/-- The part of `on_server_message` after the old room was left. -/
def enterRoom (environment : Environment) (hdl : ConnectionHdl)
    (roomstr tag roomid : Bytes) (state : State) : State :=
  match state.rpMap roomstr with
  | some i =>
      if state.haveListener i hdl then state.install environment hdl roomstr i
      else state.addListener i hdl
  | none =>
      match platformGetInstance tag with
      | none =>
          state.reject environment hdl (ascii "platform " ++ tag ++ ascii " is not valid!")
      | some upstream =>
          if upstream.isRoomValid roomid then
            (state.allocate upstream roomid).install environment hdl roomstr
              state.nextInstance
          else state.reject environment hdl (ascii "roomid invalid!")

/-- The critical section of `on_server_message`. -/
def subscribe (environment : Environment) (oldRoomstr : Bytes) (hdl : ConnectionHdl)
    (roomstr tag roomid : Bytes) (state : State) : State :=
  if oldRoomstr = roomstr ∧ (state.rpMap oldRoomstr).isSome then state
  else
    let left := (state.setMessageHandler hdl roomstr).leaveRoom environment oldRoomstr hdl
    if left.halted then left else left.enterRoom environment hdl roomstr tag roomid

end State

/-- The format check of `on_server_message` and the two parts of a room string. -/
def parseRoomstr (roomstr : Bytes) : Option (Bytes × Bytes) :=
  match findFirstOf 95 roomstr with
  | none => none
  | some pos =>
      if roomstr.length > 3 ∧ pos > 0 ∧ pos < roomstr.length - 1 then
        some (roomstr.take pos, roomstr.drop (pos + 1))
      else none

/-- `on_server_message`. -/
def State.onServerMessage (environment : Environment) (oldRoomstr : Bytes)
    (hdl : ConnectionHdl) (opcode : Opcode) (payload : Bytes) (state : State) : State :=
  if opcode ≠ .text then state
  else
    match parseRoomstr (trim payload) with
    | none => state.reject environment hdl (ascii "format error!")
    | some (tag, roomid) =>
        state.subscribe environment oldRoomstr hdl (trim payload) tag roomid

end DMProxy.Registry
