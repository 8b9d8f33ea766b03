import DMProxy.Platforms.Tcp
import DMProxy.Platforms.YY

/-!
# The messages of YY

The opcode, the JSON text, the `response` and the XML inside `chat_msg` are tested one after the
other.  The first two tests report a bad message and go on with it, and the attribute that the
last one looks up is not what is published.
-/

namespace DMProxy.Platforms.YY

open DMProxy.Network
open DMProxy.Text

def responseOf (message : Json) : Bytes :=
  (message.member (ascii "response")).stringValue

def chatMsg (message : Json) : Bytes :=
  (message.member (ascii "chat_msg")).stringValue

/-- The `data` attribute on `msg/txt` in the XML of a chat message. -/
def chatData (libraries : Libraries) (message : Json) : Option Bytes :=
  if responseOf message = ascii "chat" then
    (libraries.readXml (chatMsg message)).bind fun tree =>
      tree [ascii "msg", ascii "txt", ascii "<xmlattr>", ascii "data"]
  else none

/-- The JSON text that is published for a chat message. -/
def chatJson (message : Json) (text : Bytes) : Bytes :=
  publishJson (decimal (message.member (ascii "uid")).numberValue.unsignedValue)
    (message.member (ascii "nick")).stringValue text

/-- What `on_client_message` is to publish: the `data` attribute of a chat message in a TEXT
frame. -/
def expectedChat (libraries : Libraries) (opcode : Opcode) (payload : Bytes) : Option Bytes :=
  if opcode = .text then
    (libraries.parseJson payload).bind fun message =>
      (chatData libraries message).map (chatJson message)
  else none

/-- A wrong opcode, or text that does not parse. -/
def Bad (libraries : Libraries) (opcode : Opcode) (payload : Bytes) : Prop :=
  opcode ≠ .text ∨ libraries.parseJson payload = none

/-- The message has the result it should have: a chat message is published once and with its
`data` attribute, nothing else is published as chat, and a bad message is reported once and
processed no further. -/
structure HandledWell (libraries : Libraries) (opcode : Opcode) (payload : Bytes)
    (state : State) (result : State × List Effect) : Prop where
  chat : ∀ text ∈ expectedChat libraries opcode payload, result.2 = [.publish text]
  noChat : expectedChat libraries opcode payload = none → ¬PublishesChat result.2
  bad : Bad libraries opcode payload → result = closeAndReport (some .badMessage) state

/-- The message is one of those that the code handles well: it holds no chat message, apart from
one in a TEXT frame that is its own `data` attribute, and where the frame is not TEXT it parses
and is no `login` or `init` response. -/
def Harmless (libraries : Libraries) (opcode : Opcode) (payload : Bytes) : Prop :=
  match libraries.parseJson payload with
  | none => opcode = .text
  | some message =>
      match opcode with
      | .text => ∀ data ∈ chatData libraries message,
          base64Encode data = base64Encode (chatMsg message)
      | .binary => chatData libraries message = none ∧ responseOf message ≠ ascii "login" ∧
          responseOf message ≠ ascii "init"

variable {libraries : Libraries} {roomid payload : Bytes} {opcode : Opcode} {answers : Answers}
  {state : State} {message : Json}

theorem onChat_eq (chat : responseOf message = ascii "chat") :
    onChat libraries message =
      ((chatData libraries message).map fun _ =>
        Effect.publish (chatJson message (chatMsg message))).toList := by
  simp only [onChat, chatData, chat, if_true]
  cases parsed : libraries.readXml (chatMsg message) with
  | none =>
      simp only [chatMsg] at parsed
      simp [parsed]
  | some tree =>
      simp only [chatMsg] at parsed
      simp only [parsed, Option.bind_some]
      cases tree [ascii "msg", ascii "txt", ascii "<xmlattr>", ascii "data"] with
      | none => rfl
      | some data => rfl

/-- The three ways a message is dispatched. -/
theorem dispatch_eq (ec : Option ErrorCode) :
    dispatch libraries roomid answers ec message state =
      if responseOf message = ascii "login" then onLogin answers ec state
      else if responseOf message = ascii "init" then onInit roomid answers ec state
      else (state, ((chatData libraries message).map fun _ =>
        Effect.publish (chatJson message (chatMsg message))).toList) := by
  simp only [dispatch]
  rw [show (message.member (ascii "response")).stringValue = responseOf message from rfl]
  split
  next => rfl
  next =>
    split
    next => rfl
    next =>
      split
      next join =>
        have differ : ascii "join" ≠ ascii "chat" := by decide
        simp [chatData, join, differ]
      next =>
        split
        next chat => rw [onChat_eq chat]
        next other => simp [chatData, other]

/-- Two chat texts of one message agree exactly if their encodings do. -/
theorem chatJson_eq_iff (message : Json) (first second : Bytes) :
    chatJson message first = chatJson message second ↔
      base64Encode first = base64Encode second := by
  constructor
  · intro same
    simp only [chatJson, publishJson_eq, Json.dumpString_base64Encode, List.append_cancel_left_eq,
      List.append_cancel_right_eq, List.cons_append, List.cons.injEq, true_and] at same
    exact same
  · intro same
    simp only [chatJson, publishJson, same]

/-! ## What is published -/

theorem not_publishesChat_closeAndReport (ec : Option ErrorCode) (state : State) :
    ¬PublishesChat (closeAndReport ec state).2 := by
  cases ec with
  | none => exact not_publishesChat_report none
  | some error => exact not_publishesChat_report (some error)

theorem not_publishesChat_onLogin (ec : Option ErrorCode) :
    ¬PublishesChat (onLogin answers ec state).2 :=
  not_publishesChat_closeAndReport _ _

theorem not_publishesChat_onInit (ec : Option ErrorCode) :
    ¬PublishesChat (onInit roomid answers ec state).2 := by
  have reported := not_publishesChat_closeAndReport
    (sendPacket answers ec (newInitPacket roomid) state).2
    (sendPacket answers ec (newInitPacket roomid) state).1
  simp only [onInit]
  split
  next =>
    split
    next =>
      rw [publishesChat_append, not_or]
      exact ⟨reported, by simp [PublishesChat]⟩
    next => exact reported
  next => exact reported

/-- A message is dispatched without a chat exactly if it has no data attribute. -/
theorem publishesChat_dispatch (ec : Option ErrorCode) :
    PublishesChat (dispatch libraries roomid answers ec message state).2 ↔
      chatData libraries message ≠ none := by
  rw [dispatch_eq]
  split
  next login =>
    have differ : ascii "login" ≠ ascii "chat" := by decide
    have none : chatData libraries message = none := by simp [chatData, login, differ]
    exact iff_of_false (not_publishesChat_onLogin ec) (not_not.mpr none)
  next =>
    split
    next init =>
      have differ : ascii "init" ≠ ascii "chat" := by decide
      have none : chatData libraries message = none := by simp [chatData, init, differ]
      exact iff_of_false (not_publishesChat_onInit ec) (not_not.mpr none)
    next =>
      cases chatData libraries message with
      | none => simp [PublishesChat]
      | some data => exact iff_of_true ⟨_, _, _, List.mem_singleton_self _⟩ (by simp)

/-- A packet is not sent while an error code is set. -/
theorem send_of_error (error : ErrorCode) (connection : ClientConnection)
    (outcome : Option ErrorCode) : ∃ other, connection.send outcome (some error) = some other := by
  cases connection <;> exact ⟨_, rfl⟩

/-- A report and one more report are not one report. -/
theorem two_reports (first second : ErrorCode) (state state' : State) (more : List Effect) :
    (closeAndReport (some first) state).2 ++
        ((closeAndReport (some second) state').2 ++ more) ≠
      (closeAndReport (some first) state).2 := by
  simp [closeAndReport, clientReportWhenError]

/-- A bad message whose response makes the instance send is reported a second time. -/
theorem reports_dispatch (first error : ErrorCode) (before : State)
    (sends : responseOf message = ascii "login" ∨ responseOf message = ascii "init") :
    (closeAndReport (some first) before).2 ++
        (dispatch libraries roomid answers (some error) message state).2 ≠
      (closeAndReport (some first) before).2 := by
  have sent (packet : Bytes) : ∃ other state',
      closeAndReport (sendPacket answers (some error) packet state).2
        (sendPacket answers (some error) packet state).1 = closeAndReport (some other) state' := by
    rcases send_of_error error state.connection answers.send with ⟨other, refused⟩
    exact ⟨other, state, by simp [sendPacket, refused]⟩
  rw [dispatch_eq]
  split
  next =>
    rcases sent newLoginPacket with ⟨other, state', reported⟩
    simp only [onLogin, reported]
    simpa using two_reports first other before state' []
  next other =>
    rw [if_pos (sends.resolve_left other)]
    rcases sent (newInitPacket roomid) with ⟨other, state', reported⟩
    have failed : (sendPacket answers (some error) (newInitPacket roomid) state).2.isSome =
        true := by
      rcases send_of_error error state.connection answers.send with ⟨refusal, refused⟩
      simp [sendPacket, refused]
    simp only [onInit, failed, if_true, reported]
    split
    next => exact two_reports first other before state' [.fault]
    next => simpa using two_reports first other before state' []

theorem dispatch_null (ec : Option ErrorCode) :
    dispatch libraries roomid answers ec .null state = (state, []) := by
  have login : responseOf .null ≠ ascii "login" := by decide
  have init : responseOf .null ≠ ascii "init" := by decide
  have chat : responseOf .null ≠ ascii "chat" := by decide
  rw [dispatch_eq, if_neg login, if_neg init, chatData, if_neg chat]
  rfl

/-- A message without a chat that is no `login` or `init` response changes nothing. -/
theorem dispatch_idle (ec : Option ErrorCode) (noChat : chatData libraries message = none)
    (noLogin : responseOf message ≠ ascii "login") (noInit : responseOf message ≠ ascii "init") :
    dispatch libraries roomid answers ec message state = (state, []) := by
  rw [dispatch_eq, if_neg noLogin, if_neg noInit, noChat]
  rfl

/-- A message with a data attribute is a chat message. -/
theorem dispatch_chat (ec : Option ErrorCode) {data : Bytes}
    (chat : chatData libraries message = some data) :
    dispatch libraries roomid answers ec message state =
      (state, [.publish (chatJson message (chatMsg message))]) := by
  have response : responseOf message = ascii "chat" := by
    by_contra other
    simp [chatData, other] at chat
  have noLogin : ascii "chat" ≠ ascii "login" := by decide
  have noInit : ascii "chat" ≠ ascii "init" := by decide
  rw [dispatch_eq, response, if_neg noLogin, if_neg noInit, chat]
  rfl

theorem handledWell_text_iff (parsed : libraries.parseJson payload = some message) :
    HandledWell libraries .text payload state
        (onClientMessage libraries roomid .text payload answers state) ↔
      ∀ data ∈ chatData libraries message,
        base64Encode data = base64Encode (chatMsg message) := by
  have result : onClientMessage libraries roomid .text payload answers state =
      dispatch libraries roomid answers none message state := by
    simp [onClientMessage, parsed, closeAndReport]
  have expected : expectedChat libraries .text payload =
      (chatData libraries message).map (chatJson message) := by
    simp [expectedChat, parsed]
  have fine : ¬Bad libraries .text payload := by simp [Bad, parsed]
  rw [result]
  cases chat : chatData libraries message with
  | none =>
      rw [chat] at expected
      refine iff_of_true ⟨?_, fun _ => ?_, fun bad => absurd bad fine⟩ (by simp)
      · rw [expected]
        simp
      · rw [publishesChat_dispatch, chat]
        simp
  | some data =>
      rw [chat, Option.map_some] at expected
      rw [dispatch_chat none chat]
      simp only [Option.mem_def, Option.some.injEq, forall_eq']
      rw [← chatJson_eq_iff]
      constructor
      · intro well
        have published := well.chat _ expected
        simp only [List.cons.injEq, Effect.publish.injEq, and_true] at published
        exact published.symm
      · intro same
        refine ⟨fun text due => ?_, fun none => ?_, fun bad => absurd bad fine⟩
        · cases expected.symm.trans due
          rw [same]
        · cases expected.symm.trans none

theorem handledWell_binary_iff (parsed : libraries.parseJson payload = some message) :
    HandledWell libraries .binary payload state
        (onClientMessage libraries roomid .binary payload answers state) ↔
      chatData libraries message = none ∧ responseOf message ≠ ascii "login" ∧
        responseOf message ≠ ascii "init" := by
  have result : onClientMessage libraries roomid .binary payload answers state =
      ((dispatch libraries roomid answers (some .badMessage) message
          (closeAndReport (some .badMessage) state).1).1,
        (closeAndReport (some .badMessage) state).2 ++
          (dispatch libraries roomid answers (some .badMessage) message
            (closeAndReport (some .badMessage) state).1).2) := by
    simp [onClientMessage, parsed]
  have expected : expectedChat libraries .binary payload = none := rfl
  rw [result]
  constructor
  · intro well
    have noChat := well.noChat expected
    rw [publishesChat_append, not_or, publishesChat_dispatch, not_not] at noChat
    have once := congrArg Prod.snd (well.bad (.inl (by simp)))
    refine ⟨noChat.2, fun login => ?_, fun init => ?_⟩
    · exact reports_dispatch _ _ state (.inl login) once
    · exact reports_dispatch _ _ state (.inr init) once
  · intro harmless
    rcases harmless with ⟨noChat, noLogin, noInit⟩
    rw [dispatch_idle _ noChat noLogin noInit, List.append_nil]
    refine ⟨fun text due => ?_, fun _ => ?_, fun _ => rfl⟩
    · cases expected.symm.trans due
    · exact not_publishesChat_closeAndReport _ state

theorem handledWell_unparsed_iff (unparsed : libraries.parseJson payload = none) :
    HandledWell libraries opcode payload state
        (onClientMessage libraries roomid opcode payload answers state) ↔ opcode = .text := by
  have expected : expectedChat libraries opcode payload = none := by
    cases opcode <;> simp [expectedChat, unparsed]
  cases opcode with
  | text =>
      have result : onClientMessage libraries roomid .text payload answers state =
          closeAndReport (some .badMessage) state := by
        simp [onClientMessage, unparsed, closeAndReport, dispatch_null]
      rw [result]
      refine iff_of_true ⟨fun _ due => ?_, fun _ => ?_, fun _ => rfl⟩ rfl
      · cases expected.symm.trans due
      · exact not_publishesChat_closeAndReport _ state
  | binary =>
      have result : (onClientMessage libraries roomid .binary payload answers state).2 =
          (closeAndReport (some .badMessage) state).2 ++
            ((closeAndReport (some .badMessage)
              (closeAndReport (some .badMessage) state).1).2 ++ []) := by
        simp [onClientMessage, unparsed, dispatch_null]
      refine iff_of_false (fun well => ?_) (by simp)
      have once := congrArg Prod.snd (well.bad (.inl (by simp)))
      rw [result] at once
      exact two_reports _ _ state _ [] once

/-- A message is handled as it should be exactly if it is harmless. -/
theorem handledWell_iff (libraries : Libraries) (roomid : Bytes) (opcode : Opcode)
    (payload : Bytes) (answers : Answers) (state : State) :
    HandledWell libraries opcode payload state
        (onClientMessage libraries roomid opcode payload answers state) ↔
      Harmless libraries opcode payload := by
  simp only [Harmless]
  cases parsed : libraries.parseJson payload with
  | none => exact handledWell_unparsed_iff parsed
  | some message =>
      cases opcode with
      | text => exact handledWell_text_iff parsed
      | binary => exact handledWell_binary_iff parsed

/-- A chat message with the text `hi`, and what its XML says. -/
def greeting : Libraries :=
  { (default : Libraries) with
    parseJson := fun _ => some (.object [(ascii "response", .string (ascii "chat")),
      (ascii "chat_msg", .string (ascii "<msg><txt data=\"hi\"/></msg>"))])
    readXml := fun _ => some fun _ => some (ascii "hi") }

/-- The whole XML text is published. -/
theorem not_handledWell :
    ¬ ∀ (libraries : Libraries) (roomid : Bytes) (opcode : Opcode) (payload : Bytes)
        (answers : Answers) (state : State),
      HandledWell libraries opcode payload state
        (onClientMessage libraries roomid opcode payload answers state) := by
  intro well
  have published := (well greeting (ascii "1") .text [] ⟨none, 0⟩ .fresh).chat _ rfl
  revert published
  decide

end DMProxy.Platforms.YY
