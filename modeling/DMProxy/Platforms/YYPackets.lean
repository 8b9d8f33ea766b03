import DMProxy.Platforms.YYTimer
import DMProxy.Text.JsonDump
import DMProxy.Transition.Output

/-!
# The packets of YY

An instance answers a `login` and an `init` response, and sends a heartbeat whenever its timer
fires.  A server that parses the packets has the answers again, in their order, and nothing else.
-/

namespace DMProxy.Platforms.YY

open DMProxy.Async
open DMProxy.Network
open DMProxy.Text
open DMProxy.Transition

/-- What an instance asks of the server. -/
inductive Request where
  | login
  | init (roomid : Bytes)
  | heartbeat (time : Nat)
  deriving DecidableEq, Repr

namespace Request

/-- The packet of a request. -/
def packet : Request → Bytes
  | .login => newLoginPacket
  | .init roomid => newInitPacket roomid
  | .heartbeat time => YY.heartbeat time

/-- How a server reads a packet; its kind is told by `uri`. -/
def read (packet : Bytes) : Option Request := do
  let document ← JsonText.parse packet
  let uri := (document.member (ascii "uri")).stringValue
  if uri = ascii "0" then some .login
  else if uri = ascii "1" then some (.init (document.member (ascii "top_sid")).stringValue)
  else if uri = ascii "6" then
    some (.heartbeat (JsonValue.digitsValue (document.member (ascii "ts")).stringValue))
  else none

theorem read_packet (request : Request) : read request.packet = some request := by
  cases request with
  | login =>
      rw [packet, newLoginPacket, read, JsonValue.parse_dumpStrings]
      rfl
  | init roomid =>
      rw [packet, newInitPacket, read, JsonValue.parse_dumpStrings]
      rfl
  | heartbeat time =>
      rw [packet, YY.heartbeat, read, JsonValue.parse_dumpStrings]
      exact congrArg (fun time => some (heartbeat time)) (JsonValue.digitsValue_decimal time)

end Request

/-- The request a response of the server is answered with. -/
def answer (roomid response : Bytes) : List Request :=
  if response = ascii "login" then [.login]
  else if response = ascii "init" then [.init roomid]
  else []

/-- The requests that a call makes and `client.send` accepts. -/
def requests (libraries : Libraries) (roomid : Bytes) (state : State) : Call → List Request
  | .handle answers (.connection (.message opcode payload)) =>
      if opcode = .text ∧ answers.send = none then answer roomid (response libraries payload)
      else []
  | .handle answers (.timer (.run index)) =>
      match state.timers.take index with
      | none => []
      | some (_, completion, _) =>
          if completion.ec = none ∧ state.connection = .open ∧ answers.send = none then
            [.heartbeat answers.time]
          else []
  | _ => []

/-- A part of a handler adds the packets of some requests to those that were sent. -/
def Sends (state : State) (result : State × List Effect) (requests : List Request) : Prop :=
  result.1.sent = state.sent ++ requests.map Request.packet

variable {libraries : Libraries} {roomid : Bytes} {answers : Answers} {state : State}
  {first second result : State × List Effect} {requested : List Request}

/-! ## The handlers -/

theorem sends_nothing (same : result.1.sent = state.sent) : Sends state result [] := by
  rw [Sends, same, List.map_nil, List.append_nil]

/-- A part that sends nothing, followed by another one. -/
theorem Sends.after (before : Sends state first []) (sends : Sends first.1 second requested) :
    Sends state (second.1, first.2 ++ second.2) requested := by
  rw [Sends, List.map_nil, List.append_nil] at before
  rw [Sends, sends, before]

theorem sends_closeAndReport (ec : Option ErrorCode) (state : State) :
    Sends state (closeAndReport ec state) [] := by
  cases ec with
  | none => exact sends_nothing rfl
  | some error => exact sends_nothing rfl

/-- A packet is sent, and a failure is reported. -/
theorem sends_send (answers : Answers) (ec : Option ErrorCode) (request : Request)
    (state : State) :
    Sends state (closeAndReport (sendPacket answers ec request.packet state).2
        (sendPacket answers ec request.packet state).1)
      (if state.connection.send answers.send ec = none then [request] else []) := by
  simp only [sendPacket]
  split
  next error failed =>
    rw [if_neg (by simp [failed])]
    exact sends_closeAndReport (some error) state
  next accepted =>
    rw [if_pos accepted]
    simp [Sends, closeAndReport]

theorem sent_cancelHbTimer {cancelled : State} (held : cancelHbTimer state = some cancelled) :
    cancelled.sent = state.sent := by
  simp only [cancelHbTimer, Option.map_eq_some_iff] at held
  rcases held with ⟨timer, -, rfl⟩
  rfl

theorem sends_onInit (roomid : Bytes) (answers : Answers) (ec : Option ErrorCode)
    (state : State) :
    Sends state (onInit roomid answers ec state)
      (if state.connection.send answers.send ec = none then [.init roomid] else []) := by
  have sent := sends_send answers ec (.init roomid) state
  simp only [Request.packet] at sent
  simp only [onInit]
  split
  next =>
    split
    next => exact sent
    next cancelled held => rw [Sends, sent_cancelHbTimer held, sent]
  next => exact sent

theorem sends_dispatch (libraries : Libraries) (roomid : Bytes) (answers : Answers)
    (ec : Option ErrorCode) (message : Json) (state : State) :
    Sends state (dispatch libraries roomid answers ec message state)
      (if state.connection.send answers.send ec = none then
        answer roomid (message.member (ascii "response")).stringValue else []) := by
  simp only [dispatch, answer]
  split
  next => exact sends_send answers ec .login state
  next =>
    split
    next => exact sends_onInit roomid answers ec state
    next =>
      rw [ite_self]
      split
      next => exact sends_nothing rfl
      next => split <;> exact sends_nothing rfl

theorem sends_onClientMessage (roomid : Bytes) (opcode : Opcode) (payload : Bytes)
    (answers : Answers) (isOpen : state.connection = .open) :
    Sends state (onClientMessage libraries roomid opcode payload answers state)
      (if opcode = .text ∧ answers.send = none then answer roomid (response libraries payload)
        else []) := by
  simp only [onClientMessage, response]
  have checked := sends_closeAndReport (if opcode ≠ .text then some .badMessage else none) state
  split
  next message parsed =>
    have sent := checked.after (sends_dispatch libraries roomid answers
      (if opcode ≠ .text then some .badMessage else none) message _)
    cases opcode with
    | text => simpa [parsed, closeAndReport, isOpen, ClientConnection.send] using sent
    | binary =>
        simpa [closeAndReport, isOpen, ClientConnection.send, ClientConnection.close] using sent
  next unparsed =>
    have reported := checked.after (sends_closeAndReport (some .badMessage) _)
    have sent := reported.after (sends_dispatch libraries roomid answers (some .badMessage) .null _)
    have silent : answer roomid (Json.null.member (ascii "response")).stringValue = [] := rfl
    rw [silent, ite_self] at sent
    rw [unparsed, Option.getD_none, silent, ite_self]
    exact sent

theorem sends_handleHeartbeat (answers : Answers) (ec : Option ErrorCode) (state : State) :
    Sends state (handleHeartbeat answers ec state)
      (if ec = none ∧ state.connection = .open ∧ answers.send = none then
        [.heartbeat answers.time] else []) := by
  simp only [handleHeartbeat]
  cases ec with
  | some error => simpa using sends_closeAndReport (some error) state
  | none =>
      have sent := sends_send answers none (.heartbeat answers.time) state
      rw [sendPacket_error] at sent
      have accepts : state.connection.send answers.send none = none ↔
          state.connection = .open ∧ answers.send = none := by
        cases state.connection <;> simp [ClientConnection.send]
      simp only [true_and, ← accepts]
      simp only [sendPacket_error]
      split
      next error failed =>
        rw [Request.packet, failed] at sent
        rw [failed]
        exact sent
      next accepted =>
        rw [Request.packet, accepted] at sent
        rw [accepted]
        exact sent

/-! ## Runs -/

theorem sends_connectionStep {event : ClientEvent}
    (stepped : connectionStep libraries roomid answers state event = some result) :
    Sends state result (requests libraries roomid state (.handle answers (.connection event))) := by
  cases event with
  | message opcode payload =>
      simp only [connectionStep] at stepped
      split at stepped
      next isOpen =>
        cases stepped
        exact sends_onClientMessage roomid opcode payload answers isOpen
      next => cases stepped
  | terminated =>
      simp only [connectionStep] at stepped
      split at stepped
      next =>
        cases stepped
        exact sends_nothing rfl
      next =>
        cases stepped
        refine sends_nothing ?_
        simp only [onClientClose]
        split
        next => rfl
        next cancelled held =>
          have same := sent_cancelHbTimer held
          exact same
      next => cases stepped
  | opened | closing | failed | closed | expire =>
      simp only [connectionStep] at stepped
      split at stepped
      next =>
        cases stepped
        exact sends_nothing rfl
      next => cases stepped

theorem sends_timerStep {progress : Progress Completion}
    (stepped : timerStep answers state progress = some result) :
    Sends state result (requests libraries roomid state (.handle answers (.timer progress))) := by
  cases progress with
  | finish index completion =>
      simp only [timerStep, Option.map_eq_some_iff] at stepped
      rcases stepped with ⟨timers, -, rfl⟩
      exact sends_nothing rfl
  | run index =>
      simp only [timerStep, Option.map_eq_some_iff] at stepped
      rcases stepped with ⟨⟨timer, completion, rest⟩, taken, rfl⟩
      simp only [requests, taken]
      exact sends_handleHeartbeat answers completion.ec { state with timers := rest }

theorem sends_invoke {call : Call} (invoked : invoke libraries roomid state call = some result) :
    Sends state result (requests libraries roomid state call) := by
  cases call with
  | close =>
      cases invoked
      refine sends_nothing ?_
      simp only [close]
      split
      next => rfl
      next cancelled held =>
        have same := sent_cancelHbTimer held
        exact same
  | handle answers event =>
      cases event with
      | connection event => exact sends_connectionStep invoked
      | timer progress => exact sends_timerStep invoked

/-- What a server reads from the packets of an instance are the requests of its calls, in order. -/
theorem requests_of_run {libraries : Libraries} {roomid : Bytes} {ec : Option ErrorCode}
    {calls : List Call} {final : Process}
    (executed : (machine libraries roomid ec).exec (machine libraries roomid ec).init calls =
      some final) :
    final.platform.sent.map Request.read =
      ((machine libraries roomid ec).outputs
        (fun process call => requests libraries roomid process.platform call)
        (machine libraries roomid ec).init calls).map some := by
  have grows {before after : Process} {call : Call} (_ : True)
      (stepped : (machine libraries roomid ec).step before call = some after) (_ : True) :
      True ∧ ∃ new, after.platform.sent = before.platform.sent ++ new ∧
        new = (requests libraries roomid before.platform call).map Request.packet := by
    simp only [machine] at stepped
    split at stepped
    next => cases stepped
    next =>
      rcases Option.map_eq_some_iff.mp stepped with ⟨result, invoked, rfl⟩
      exact ⟨trivial, _, sends_invoke invoked, rfl⟩
  rcases Machine.log_of_run rfl (fun one two => congrArg₂ (· ++ ·) one two) (fun _ => True) grows
    trivial Machine.along_true executed with ⟨new, grown, rfl⟩
  have fresh : (machine libraries roomid ec).init.platform.sent = [] := by
    cases ec <;> rfl
  rw [grown, fresh, List.nil_append, Machine.outputs_map, List.map_map]
  exact List.map_congr_left fun request _ => request.read_packet

/-- A parser that knows the first two responses of the server. -/
def responses : Libraries :=
  { (default : Libraries) with
    parseJson := fun document =>
      if document = ascii "\x7b\"response\":\"login\"\x7d" then
        some (.object [(ascii "response", .string (ascii "login"))])
      else if document = ascii "\x7b\"response\":\"init\"\x7d" then
        some (.object [(ascii "response", .string (ascii "init"))])
      else none }

/-- The two responses come in, and the timer fires. -/
def heartbeatSent : List Call :=
  [.handle ⟨none, 0⟩ (.connection .opened),
    .handle ⟨none, 0⟩ (.connection (.message .text (ascii "\x7b\"response\":\"login\"\x7d"))),
    .handle ⟨none, 0⟩ (.connection (.message .text (ascii "\x7b\"response\":\"init\"\x7d"))),
    .handle ⟨none, 0⟩ (.timer (.finish 0 (.success []))), .handle ⟨none, 45⟩ (.timer (.run 0))]

theorem requests_of_run_heartbeat :
    ∃ final, (machine responses (ascii "1") none).exec
        (machine responses (ascii "1") none).init heartbeatSent = some final ∧
      final.platform.sent.map Request.read =
        [some .login, some (.init (ascii "1")), some (.heartbeat 45)] := by
  have query : ((machine responses (ascii "1") none).exec
      (machine responses (ascii "1") none).init heartbeatSent).isSome = true := by
    decide
  rcases Option.isSome_iff_exists.mp query with ⟨final, executed⟩
  refine ⟨final, executed, (requests_of_run executed).trans ?_⟩
  decide

end DMProxy.Platforms.YY
