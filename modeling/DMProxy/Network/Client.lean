import DMProxy.Network.ErrorCode

/-!
# A websocket client connection

The upstream connection of a websocket platform, as `dmp_client` drives it.  A
terminated connection runs its fail or close handler some time after its state has
changed, so the two are separate states.
-/

namespace DMProxy.Network

open DMProxy.Text

/-- The opcode of a data message. -/
inductive Opcode where
  | text
  | binary
  deriving DecidableEq, Repr

/-- The connection a platform's handle refers to. -/
inductive ClientConnection where
  /-- The handle was never assigned. -/
  | unset
  | connecting
  | «open»
  | closing
  /-- Terminated during the opening handshake, the fail handler is due. -/
  | failed (ec : Option ErrorCode)
  /-- Terminated after the opening handshake, the close handler is due. -/
  | closed
  /-- Terminated, and the handlers have run. -/
  | finished
  /-- The last shared pointer to the connection is gone. -/
  | expired
  deriving DecidableEq, Repr

/-- What the transport does next with a client connection. -/
inductive ClientEvent where
  /-- The opening handshake succeeds and the open handler runs. -/
  | opened
  /-- A data message arrives and the message handler runs. -/
  | message (opcode : Opcode) (payload : Bytes)
  /-- A close frame arrives. -/
  | closing
  /-- The opening handshake fails. -/
  | failed (ec : Option ErrorCode)
  /-- The transport of an opened connection ends. -/
  | closed
  /-- The fail or close handler of a terminated connection runs. -/
  | terminated
  /-- The last shared pointer to the connection is released. -/
  | expire
  deriving DecidableEq, Repr

namespace ClientConnection

/-- `endpoint::send(hdl, payload, op, ec)`: the resulting error code.  `outcome` is
the answer of `connection::send` on an open connection. -/
def send (outcome ec : Option ErrorCode) : ClientConnection → Option ErrorCode
  | .unset | .expired => some .badConnection
  | .open => if ec.isSome then ec else outcome
  | .connecting | .closing | .failed _ | .closed | .finished =>
      if ec.isSome then ec else some .invalidState

/-- `endpoint::close(hdl, close::status::normal, "close", ec)` with a clear error
code. -/
def close : ClientConnection → ClientConnection × Option ErrorCode
  | .unset => (.unset, some .badConnection)
  | .expired => (.expired, some .badConnection)
  | .open => (.closing, none)
  | other => (other, some .invalidState)

/-- Whether the connection still has asynchronous operations pending. -/
def pending : ClientConnection → Bool
  | .connecting | .open | .closing | .failed _ | .closed => true
  | .unset | .finished | .expired => false

/-- The verdict of `close`. -/
theorem close_verdict (connection : ClientConnection) :
    ∃ error, connection.close.2 = if connection = .open then none else some error := by
  cases connection with
  | unset => exact ⟨.badConnection, rfl⟩
  | expired => exact ⟨.badConnection, rfl⟩
  | _ => exact ⟨.invalidState, rfl⟩

theorem pending_close (connection : ClientConnection) :
    connection.close.1.pending = connection.pending := by
  cases connection <;> rfl

end ClientConnection

end DMProxy.Network
