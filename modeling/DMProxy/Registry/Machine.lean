import DMProxy.Registry.Operations
import DMProxy.Transition.Machine

/-!
# The proxy as a machine

The events are what the two I/O services can do next: a client connection is accepted,
sends a message, closes and has its close handler run, or an upstream handler of some
platform instance runs.  Every handler runs to its end in one step.  Once a handler is
deadlocked, a message or close handler that needs the registry lock takes no step, and an
upstream handler gets as far as the close callback; after undefined behaviour there is none.
-/

namespace DMProxy.Registry

open DMProxy.Async
open DMProxy.Network
open DMProxy.Platforms
open DMProxy.Text
open DMProxy.Transition

/-- What happens next, with what the environment decides meanwhile. -/
inductive Event where
  /-- A client completes its opening handshake. -/
  | accept (hdl : ConnectionHdl)
  /-- A data message arrives on an open connection and the message handler runs. -/
  | message (hdl : ConnectionHdl) (opcode : Opcode) (payload : Bytes)
      (environment : Environment)
  /-- A close frame arrives. -/
  | closing (hdl : ConnectionHdl)
  /-- The transport of a connection ends. -/
  | terminate (hdl : ConnectionHdl)
  /-- The close handler of a terminated connection runs, if one is installed. -/
  | closeHandler (hdl : ConnectionHdl) (environment : Environment)
  /-- The last shared pointer to a connection is released. -/
  | expire (hdl : ConnectionHdl)
  /-- A handler of a platform instance runs, or one of its operations obtains its
  result. -/
  | upstream (i : InstanceId) (activity : UpstreamEvent) (send : SendOutcome)

/-- The connection an event belongs to, if it is one of a client. -/
def Event.client : Event → Option ConnectionHdl
  | .accept hdl | .message hdl _ _ _ | .closing hdl | .terminate hdl | .closeHandler hdl _
  | .expire hdl => some hdl
  | .upstream _ _ _ => none

namespace State

/-- A new connection. -/
def accept (hdl : ConnectionHdl) (state : State) : Option State :=
  match state.server hdl with
  | none => some { state with server := state.server.put hdl .accepted }
  | some _ => none

/-- Change a connection for which a condition holds. -/
def transport (hdl : ConnectionHdl) (possible : ServerConnection → Bool)
    (change : ServerConnection → ServerConnection) (state : State) : Option State :=
  match state.server hdl with
  | none => none
  | some con =>
      if possible con then some { state with server := state.server.put hdl (change con) }
      else none

/-- A message handler waits for the lock when it gets past its format check. -/
def needsLock (opcode : Opcode) (payload : Bytes) : Bool :=
  opcode == .text && (parseRoomstr (trim payload)).isSome

/-- The message handler of an open connection runs. -/
def receive (hdl : ConnectionHdl) (opcode : Opcode) (payload : Bytes)
    (environment : Environment) (state : State) : Option State :=
  match state.server hdl with
  | none => none
  | some con =>
      if con.state ≠ .open then none
      else if state.deadlocked && needsLock opcode payload then none
      else some (state.onServerMessage environment con.handlers.message hdl opcode payload)

/-- The close handler of a connection is done, or there is none. -/
def setCloseRan (hdl : ConnectionHdl) : State → State :=
  modifyHandlers hdl fun handlers => { handlers with closeRan := true }

/-- The close handler of a terminated connection runs. -/
def runCloseHandler (hdl : ConnectionHdl) (environment : Environment) (state : State) :
    Option State :=
  match state.server hdl with
  | none => none
  | some con =>
      if con.state ≠ .closed || con.handlers.closeRan then none
      else
        match con.handlers.close with
        | none => some (state.setCloseRan hdl)
        | some roomstr =>
            if state.deadlocked then none
            else some ((state.setCloseRan hdl).onServerClose environment roomstr hdl)

/-- An instance whose handler never returns: what it has changed by then, and its strand. -/
def stall (libraries : Libraries) (i : InstanceId) (activity : UpstreamEvent) : State → State :=
  modify i fun inst =>
    { inst with
      upstream := inst.upstream.stalled libraries activity
      blocked := inst.blocked || activity.onStrand }

/-- A handler of the upstream side runs.  One that reports closure while the registry lock is
lost publishes its notice and stays in the close callback. -/
def runUpstream (libraries : Libraries) (i : InstanceId) (activity : UpstreamEvent)
    (send : SendOutcome) (state : State) : Option State :=
  match state.instances i with
  | none => none
  | some inst =>
      if inst.blocked && activity.onStrand then none
      else
        match inst.upstream.step libraries inst.roomid activity with
        | none => none
        | some (upstream, effects) =>
            let changed :=
              if state.deadlocked && reportsClosure effects then state.stall libraries i activity
              else state.setUpstream i upstream
            some (changed.runEffects send state.deadlocked i effects)

/-- One step of the program. -/
def step (libraries : Libraries) (state : State) (event : Event) : Option State :=
  if state.crashed then none
  else
    match event with
    | .accept hdl => state.accept hdl
    | .message hdl opcode payload environment =>
        state.receive hdl opcode payload environment
    | .closing hdl =>
        state.transport hdl (fun con => con.state == .open)
          fun con => { con with state := .closing }
    | .terminate hdl =>
        state.transport hdl (fun con => con.state != .closed)
          fun con => { con with state := .closed }
    | .closeHandler hdl environment => state.runCloseHandler hdl environment
    | .expire hdl =>
        state.transport hdl (fun con => con.handlers.closeRan && !con.expired)
          fun con => { con with expired := true }
    | .upstream i activity send => state.runUpstream libraries i activity send

end State

/-- An environment in which nothing fails. -/
def Environment.calm : Environment where
  send := fun _ _ => none
  getConnection := none

/-- Progress of a douyu instance, while every text it publishes can be sent. -/
def Event.douyu (i : InstanceId) (progress : Progress Completion) : Event :=
  .upstream i (.douyu progress) Environment.calm.send

/-- The proxy, from the moment it listens. -/
def machine (libraries : Libraries) : Machine State Event where
  init := State.initial
  step := State.step libraries

end DMProxy.Registry
