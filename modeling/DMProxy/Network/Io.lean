import DMProxy.Async.Pending
import DMProxy.Network.ErrorCode

/-!
# Socket, resolver and timer of a TCP platform

A TCP platform owns one resolver, one socket and one deadline timer.  Closing the
socket aborts the operations running on the socket, cancelling the timer aborts its
waits, and neither touches an operation of another object or one whose result is
already queued.  An operation started on a closed socket fails; connecting opens
the socket.
-/

namespace DMProxy.Network

open DMProxy.Async
open DMProxy.Text

/-- What the handler of an asynchronous operation receives. -/
structure Completion where
  ec : Option ErrorCode
  data : Bytes
  deriving DecidableEq, Repr

/-- An operation failed with an error and without data. -/
def Completion.failure (error : ErrorCode) : Completion where
  ec := some error
  data := []

def Completion.success (data : Bytes) : Completion where
  ec := none
  data := data

/-- The object an operation runs on. -/
inductive IoObject where
  | resolver
  | socket
  | timer
  deriving DecidableEq, Repr

/-- Requests whose object is known. -/
class IoRequest (ω : Type) where
  object : ω → IoObject

/-- The I/O objects of one platform instance. -/
structure Io (ω : Type) where
  socketOpen : Bool
  pending : Pending ω Completion
  deriving DecidableEq, Repr

namespace Io

variable {ω : Type} [IoRequest ω]

/-- Before anything was started. -/
def idle : Io ω where
  socketOpen := false
  pending := []

/-- Start an operation of the resolver or the timer. -/
def start (io : Io ω) (request : ω) : Io ω :=
  { io with pending := io.pending.start request .running }

/-- `async_connect`, which opens a closed socket. -/
def connect (io : Io ω) (request : ω) : Io ω where
  socketOpen := true
  pending := io.pending.start request .running

/-- Start a read or write on the socket. -/
def startOnSocket (io : Io ω) (request : ω) : Io ω :=
  { io with
    pending := io.pending.start request
      (if io.socketOpen then .running else .ready (.failure .badDescriptor)) }

/-- Start an operation that has its result at once, such as a read of no bytes. -/
def startReady (io : Io ω) (request : ω) (completion : Completion) : Io ω :=
  { io with pending := io.pending.start request (.ready completion) }

/-- Give `operation_aborted` to the operations running on an object. -/
def abort (object : IoObject) (io : Io ω) : Pending ω Completion :=
  io.pending.cancel (fun request => IoRequest.object request == object)
    (.failure .operationAborted)

/-- `m_socket.close(ec)`. -/
def closeSocket (io : Io ω) : Io ω where
  socketOpen := false
  pending := io.abort .socket

/-- `m_hb_timer.cancel(ec)`. -/
def cancelTimer (io : Io ω) : Io ω :=
  { io with pending := io.abort .timer }

/-- `expires_from_now` followed by `async_wait`: the waits that are running are
cancelled first. -/
def rearmTimer (io : Io ω) (request : ω) : Io ω :=
  io.cancelTimer.start request

/-- Closing the socket and cancelling the timer complete no operation. -/
@[simp] theorem isEmpty_closeSocket (io : Io ω) :
    io.closeSocket.pending.isEmpty = io.pending.isEmpty := by
  simp [closeSocket, abort]

@[simp] theorem isEmpty_cancelTimer (io : Io ω) :
    io.cancelTimer.pending.isEmpty = io.pending.isEmpty := by
  simp [cancelTimer, abort]

end Io

end DMProxy.Network
