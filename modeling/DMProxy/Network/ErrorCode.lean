import DMProxy.Text.Bytes

/-!
# Error codes

An `error_code` is `none` when the operation succeeded.  The code converts it to
a boolean and reads its message; no other part of it is used, so codes the program
only passes on are represented by their message.
-/

namespace DMProxy.Network

open DMProxy.Text

/-- The error codes the program tells apart, and every other one by its message. -/
inductive ErrorCode where
  /-- `websocketpp::error::bad_connection` -/
  | badConnection
  /-- `websocketpp::error::invalid_state` -/
  | invalidState
  /-- `websocketpp::transport::error::operation_aborted`, given to a cancelled timer -/
  | timerAborted
  /-- `errc::bad_message` -/
  | badMessage
  /-- `boost::asio::error::operation_aborted` -/
  | operationAborted
  /-- `boost::asio::error::eof` -/
  | eof
  /-- `boost::asio::error::bad_descriptor` -/
  | badDescriptor
  | other (text : Bytes)
  deriving DecidableEq, Repr

/-- `error_code::message`. -/
def ErrorCode.message : ErrorCode → Bytes
  | .badConnection => ascii "Bad Connection"
  | .invalidState => ascii "invalid state"
  | .timerAborted => ascii "The operation was aborted"
  | .badMessage => ascii "Bad message"
  | .operationAborted => ascii "Operation canceled"
  | .eof => ascii "End of file"
  | .badDescriptor => ascii "Bad file descriptor"
  | .other text => text

/-- The text published to the listeners, and sent as close reason, on an error. -/
def ErrorCode.closedBecause (error : ErrorCode) : Bytes :=
  ascii "connection closed because:" ++ error.message

end DMProxy.Network
