import Mathlib.Logic.Function.Basic
import DMProxy.Network.ErrorCode

/-!
# The websocket server endpoint

The connections of `dmp_server` as the program sees them: a `connection_hdl` is a
weak reference that may have expired, a connection has a session state, and the
handlers installed on it are `std::bind` objects whose only varying part is the
room string they carry.
-/

namespace DMProxy.Network

open DMProxy.Text

/-- A `connection_hdl`.  Handles are compared by owner, which is an arbitrary but
fixed linear order. -/
abbrev ConnectionHdl := Nat

/-- `session::state` of a connection whose opening handshake is over. -/
inductive SessionState where
  | «open»
  | closing
  | closed
  deriving DecidableEq, Repr

/-- What the handlers installed on a connection carry. -/
structure Handlers where
  /-- The room string bound in the message handler. -/
  message : Bytes
  /-- The room string bound in the close handler, if one was installed. -/
  close : Option Bytes
  /-- Whether the connection has terminated and its close handler has run. -/
  closeRan : Bool
  deriving DecidableEq, Repr

/-- A connection accepted by the server. -/
structure ServerConnection where
  state : SessionState
  /-- Whether the last shared pointer to the connection is gone. -/
  expired : Bool
  handlers : Handlers
  /-- The messages `connection::send` accepted, oldest first. -/
  sent : List Bytes
  /-- The reason given in the close frame this side sent. -/
  closeReason : Option Bytes
  deriving Repr

/-- A connection right after the opening handshake: the message handler of the
endpoint, bound to the empty room string, and no close handler. -/
def ServerConnection.accepted : ServerConnection where
  state := .open
  expired := false
  handlers := { message := [], close := none, closeRan := false }
  sent := []
  closeReason := none

/-- The connections ever accepted. -/
abbrev Server := ConnectionHdl → Option ServerConnection

/-- The answer of `connection::send` for a payload on an open connection: framing
may refuse it, for instance because the text is not valid UTF-8. -/
abbrev SendOutcome := ConnectionHdl → Bytes → Option ErrorCode

namespace Server

/-- `endpoint::get_con_from_hdl`: lock the weak reference. -/
def getConFromHdl (server : Server) (hdl : ConnectionHdl) : Option ServerConnection :=
  (server hdl).filter fun con => !con.expired

/-- Write a connection back. -/
def put (server : Server) (hdl : ConnectionHdl) (con : ServerConnection) : Server :=
  Function.update server hdl (some con)

/-- `endpoint::send(hdl, payload, opcode::TEXT, ec)`.  A code that is already set
when the call is made is returned unchanged and nothing is sent. -/
def send (outcome : SendOutcome) (server : Server) (hdl : ConnectionHdl) (payload : Bytes)
    (ec : Option ErrorCode) : Server × Option ErrorCode :=
  match server.getConFromHdl hdl with
  | none => (server, some .badConnection)
  | some con =>
      if ec.isSome then (server, ec)
      else if con.state ≠ .open then (server, some .invalidState)
      else
        match outcome hdl payload with
        | some error => (server, some error)
        | none => (server.put hdl { con with sent := con.sent ++ [payload] }, none)

/-- The longest reason a close frame carries. -/
def closeReasonSize : Nat := 123

/-- `endpoint::close(hdl, close::status::normal, reason, ec)`. -/
def close (server : Server) (hdl : ConnectionHdl) (reason : Bytes)
    (ec : Option ErrorCode) : Server × Option ErrorCode :=
  match server.getConFromHdl hdl with
  | none => (server, some .badConnection)
  | some con =>
      if ec.isSome then (server, ec)
      else if con.state ≠ .open then (server, some .invalidState)
      else
        (server.put hdl
          { con with state := .closing, closeReason := some (reason.take closeReasonSize) },
          none)

/-- `SERVER_CLOSE_AND_REPORT_WHEN_ERROR`: on an error, close the connection with a
fresh error code. -/
def closeAndReportWhenError (server : Server) (ec : Option ErrorCode)
    (hdl : ConnectionHdl) : Server :=
  match ec with
  | none => server
  | some error => (server.close hdl error.closedBecause none).1

/-- The handlers installed on a connection. -/
def handlers (server : Server) (hdl : ConnectionHdl) : Option Handlers :=
  (server hdl).map ServerConnection.handlers

@[simp] theorem put_self (server : Server) (hdl : ConnectionHdl) (con : ServerConnection) :
    server.put hdl con hdl = some con := by
  simp [put]

@[simp] theorem put_of_ne (server : Server) {hdl other : ConnectionHdl}
    (con : ServerConnection) (differ : other ≠ hdl) :
    server.put hdl con other = server other := by
  simp [put, differ]

theorem eq_some_of_getConFromHdl {server : Server} {hdl : ConnectionHdl}
    {con : ServerConnection} (found : server.getConFromHdl hdl = some con) :
    server hdl = some con := by
  simp only [getConFromHdl, Option.filter_eq_some_iff] at found
  exact found.1

/-- The connection has terminated. -/
def IsClosed (server : Server) (hdl : ConnectionHdl) : Prop :=
  ∃ con, server hdl = some con ∧ con.state = .closed

/-- What sending and closing may do to the connections: no handlers are installed and
nothing comes back to life. -/
structure Advances (before after : Server) : Prop where
  handlers : after.handlers = before.handlers
  closed : ∀ hdl, before.IsClosed hdl → after.IsClosed hdl

theorem Advances.refl (server : Server) : server.Advances server :=
  ⟨rfl, fun _ => id⟩

theorem Advances.trans {first second third : Server} (left : first.Advances second)
    (right : second.Advances third) : first.Advances third :=
  ⟨right.handlers.trans left.handlers, fun hdl ended => right.closed hdl (left.closed hdl ended)⟩

/-- Writing back a connection with unchanged handlers that stays closed if it was. -/
theorem advances_put {server : Server} {hdl : ConnectionHdl} {old con : ServerConnection}
    (found : server hdl = some old) (same : con.handlers = old.handlers)
    (stays : old.state = .closed → con.state = .closed) :
    server.Advances (server.put hdl con) := by
  constructor
  · funext other
    by_cases equal : other = hdl
    · subst other
      simp [Server.handlers, found, same]
    · simp [Server.handlers, equal]
  · intro other ended
    rcases ended with ⟨target, located, closed⟩
    by_cases equal : other = hdl
    · subst other
      rw [found, Option.some.injEq] at located
      exact ⟨con, server.put_self hdl con, stays (located ▸ closed)⟩
    · exact ⟨target, by rw [server.put_of_ne con equal, located], closed⟩

theorem advances_send (outcome : SendOutcome) (server : Server) (hdl : ConnectionHdl)
    (payload : Bytes) (ec : Option ErrorCode) :
    server.Advances (server.send outcome hdl payload ec).1 := by
  simp only [send]
  cases found : server.getConFromHdl hdl with
  | none => exact .refl server
  | some con =>
      dsimp only
      split
      · exact .refl server
      · split
        · exact .refl server
        next isOpen =>
          cases outcome hdl payload with
          | some error => exact .refl server
          | none =>
              refine advances_put (eq_some_of_getConFromHdl found) rfl ?_
              simp [not_not.mp isOpen]

theorem advances_close (server : Server) (hdl : ConnectionHdl) (reason : Bytes)
    (ec : Option ErrorCode) : server.Advances (server.close hdl reason ec).1 := by
  simp only [close]
  cases found : server.getConFromHdl hdl with
  | none => exact .refl server
  | some con =>
      dsimp only
      split
      · exact .refl server
      · split
        · exact .refl server
        next isOpen =>
          refine advances_put (eq_some_of_getConFromHdl found) rfl ?_
          simp [not_not.mp isOpen]

theorem advances_closeAndReportWhenError (server : Server) (ec : Option ErrorCode)
    (hdl : ConnectionHdl) : server.Advances (server.closeAndReportWhenError ec hdl) := by
  cases ec with
  | none => exact .refl server
  | some error => exact advances_close server hdl error.closedBecause none

/-- `send` touches no other connection. -/
theorem send_of_ne (outcome : SendOutcome) (server : Server) {hdl other : ConnectionHdl}
    (payload : Bytes) (ec : Option ErrorCode) (differ : other ≠ hdl) :
    (server.send outcome hdl payload ec).1 other = server other := by
  simp only [send]
  cases server.getConFromHdl hdl with
  | none => rfl
  | some con =>
      dsimp only
      split
      · rfl
      · split
        · rfl
        · cases outcome hdl payload with
          | some error => rfl
          | none => exact server.put_of_ne _ differ

/-- `close` touches no other connection. -/
theorem close_of_ne (server : Server) {hdl other : ConnectionHdl} (reason : Bytes)
    (ec : Option ErrorCode) (differ : other ≠ hdl) :
    (server.close hdl reason ec).1 other = server other := by
  simp only [close]
  cases server.getConFromHdl hdl with
  | none => rfl
  | some con =>
      dsimp only
      split
      · rfl
      · split
        · rfl
        · exact server.put_of_ne _ differ

theorem closeAndReportWhenError_of_ne (server : Server) (ec : Option ErrorCode)
    {hdl other : ConnectionHdl} (differ : other ≠ hdl) :
    server.closeAndReportWhenError ec hdl other = server other := by
  cases ec with
  | none => rfl
  | some error => exact server.close_of_ne error.closedBecause none differ

end Server

end DMProxy.Network
