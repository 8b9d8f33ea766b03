import DMProxy.Platforms.Reactions
import DMProxy.Platforms.Upstream
import DMProxy.Platforms.YYChat
import DMProxy.Text.Utf8

/-!
# The UTF-8 of published chat messages

`publish_json` encodes the nickname and the text in base64, and passes the user id on as it was
received.
-/

namespace DMProxy.Platforms

open DMProxy.Async
open DMProxy.Network
open DMProxy.Text
open DMProxy.Transition

/-! ## The text of a chat message -/

theorem utf8_unicodeEscape {byte : UInt8} (control : byte ≤ 0x1f) :
    Utf8 (Json.unicodeEscape byte) := by
  have all : ∀ index : Fin 32, Utf8 (Json.unicodeEscape (UInt8.ofNat index)) := by decide
  have small : byte.toNat < 32 := Nat.lt_succ_of_le (UInt8.le_iff_toNat_le.mp control)
  have here := all ⟨byte.toNat, small⟩
  rw [UInt8.ofNat_toNat] at here
  exact here

/-- A character and the text that is written for it are the same for a validator. -/
theorem run_escaped (char written : Bytes) {rest : Bytes} (some : char ≠ [] ∧ written ≠ [])
    (valid : Utf8 char ∧ Utf8 written)
    (ih : ∀ state : Utf8State, state.run (Json.escape rest) = state.run rest)
    (state : Utf8State) : state.run (written ++ Json.escape rest) = state.run (char ++ rest) :=
  Utf8State.run_append_congr some.2 some.1 valid.2 valid.1 ih state

/-- Escaping changes nothing for a validator. -/
theorem run_escape (text : Bytes) (state : Utf8State) :
    state.run (Json.escape text) = state.run text := by
  induction text using Json.escape.induct generalizing state with
  | case1 rest ih =>
      exact run_escaped [0xe2, 0x80, 0xa8] (ascii "\\u2028") (by decide) (by decide) ih state
  | case2 rest ih =>
      exact run_escaped [0xe2, 0x80, 0xa9] (ascii "\\u2029") (by decide) (by decide) ih state
  | case3 rest ih => exact run_escaped [92] (ascii "\\\\") (by decide) (by decide) ih state
  | case4 rest ih => exact run_escaped [34] (ascii "\\\"") (by decide) (by decide) ih state
  | case5 rest ih => exact run_escaped [8] (ascii "\\b") (by decide) (by decide) ih state
  | case6 rest ih => exact run_escaped [12] (ascii "\\f") (by decide) (by decide) ih state
  | case7 rest ih => exact run_escaped [10] (ascii "\\n") (by decide) (by decide) ih state
  | case8 rest ih => exact run_escaped [13] (ascii "\\r") (by decide) (by decide) ih state
  | case9 rest ih => exact run_escaped [9] (ascii "\\t") (by decide) (by decide) ih state
  | case10 byte rest _ _ _ _ _ _ _ _ _ control ih =>
      rw [Json.escape, if_pos control]
      · have valid : Utf8 [byte] := utf8_one (by
          have small := UInt8.le_iff_toNat_le.mp control
          exact Nat.lt_of_le_of_lt small (by decide))
        have some : [byte] ≠ [] ∧ Json.unicodeEscape byte ≠ [] :=
          ⟨List.cons_ne_nil _ _, fun empty => by cases empty⟩
        exact run_escaped [byte] (Json.unicodeEscape byte) some
          ⟨valid, utf8_unicodeEscape control⟩ ih state
      all_goals assumption
  | case11 byte rest _ _ _ _ _ _ _ _ _ other ih =>
      rw [Json.escape, if_neg other]
      · simp only [Utf8State.run_cons, ih]
      all_goals assumption
  | case12 => rfl

theorem utf8_escape_iff (text : Bytes) : Utf8 (Json.escape text) ↔ Utf8 text := by
  rw [utf8_iff, utf8_iff, run_escape]

theorem utf8_dumpString_iff (text : Bytes) : Utf8 (Json.dumpString text) ↔ Utf8 text := by
  have quote : Utf8 [34] := by decide
  have split : Json.dumpString text = [34] ++ (Json.escape text ++ [34]) := rfl
  rw [split, utf8_append_iff quote, utf8_append_iff_left quote, utf8_escape_iff]

theorem utf8_base64Encode (bytes : Bytes) : Utf8 (base64Encode bytes) :=
  utf8_of_ascii fun char member =>
    (Json.printable_of_mem_base64Alphabet char (mem_base64Encode bytes char member)).2.1

/-- A chat message is valid UTF-8 exactly if its user id is. -/
theorem utf8_publishJson_iff (uid nickname text : Bytes) :
    Utf8 (publishJson uid nickname text) ↔ Utf8 uid := by
  have encoded (bytes : Bytes) : Utf8 (Json.dumpString (base64Encode bytes)) :=
    (utf8_dumpString_iff _).mpr (utf8_base64Encode bytes)
  have closing : Utf8 (ascii "\x7d") := by decide
  rw [publishJson_eq, utf8_append_iff (by decide), utf8_append_iff (encoded nickname),
    utf8_append_iff (by decide), utf8_append_iff (encoded text), utf8_append_iff (by decide),
    utf8_append_iff_left closing, utf8_dumpString_iff]

/-- The chat messages among the effects are valid UTF-8. -/
def PublishesUtf8 (effects : List Effect) : Prop :=
  ∀ uid nickname text, .publish (publishJson uid nickname text) ∈ effects →
    Utf8 (publishJson uid nickname text)

theorem publishesUtf8_of_noChat {effects : List Effect} (noChat : ¬PublishesChat effects) :
    PublishesUtf8 effects :=
  fun uid nickname text member => absurd ⟨uid, nickname, text, member⟩ noChat

theorem publishesUtf8_append {first second : List Effect} :
    PublishesUtf8 (first ++ second) ↔ PublishesUtf8 first ∧ PublishesUtf8 second := by
  simp only [PublishesUtf8, List.mem_append, or_imp, forall_and]

theorem publishesUtf8_flatMap {α : Type} {items : List α} {effects : α → List Effect} :
    PublishesUtf8 (items.flatMap effects) ↔ ∀ item ∈ items, PublishesUtf8 (effects item) := by
  simp only [PublishesUtf8, List.mem_flatMap]
  constructor
  · intro published item listed uid nickname text member
    exact published uid nickname text ⟨item, listed, member⟩
  · intro published uid nickname text member
    rcases member with ⟨item, listed, member⟩
    exact published item listed uid nickname text member

theorem publishesUtf8_singleton (uid nickname text : Bytes) :
    PublishesUtf8 [.publish (publishJson uid nickname text)] ↔ Utf8 uid := by
  rw [← utf8_publishJson_iff uid nickname text]
  constructor
  · intro published
    exact published uid nickname text (List.mem_singleton_self _)
  · intro valid uid' nickname' text' member
    simp only [List.mem_singleton, Effect.publish.injEq] at member
    rw [member]
    exact valid

theorem publishesUtf8_verdict (verdict : Verdict) :
    PublishesUtf8 verdict.effects ↔
      ∀ uid nickname text, verdict = .chats uid nickname text → Utf8 uid := by
  cases verdict with
  | chats uid nickname text =>
      rw [Verdict.effects, publishesUtf8_singleton]
      constructor
      · intro valid uid' nickname' text' same
        cases same
        exact valid
      · exact fun valid => valid uid nickname text rfl
  | quiet | reports | faults =>
      refine iff_of_true (publishesUtf8_of_noChat ?_) (by simp)
      rw [Verdict.publishesChat_effects]
      exact id

/-! ## The user ids that are received -/

/-- The user id of a douyu packet that is a chat message. -/
def Douyu.rawUid (payload : Bytes) : Option Bytes :=
  if isMessage (ascii "chatmsg") payload then some ((parseStt payload).get (ascii "uid")) else none

/-- The user id of a `DANMU_MSG` of bilibili, when it is a string. -/
def Bilibili.rawUid (libraries : Libraries) (payload : Bytes) : Option Bytes :=
  match libraries.parseJson (cString payload) with
  | none => none
  | some message =>
      if (message.member (ascii "cmd")).stringValue ≠ ascii "DANMU_MSG" then none
      else
        let infoArray := (message.member (ascii "info")).arrayItems
        match infoArray[1]?, infoArray[2]? with
        | some _, some user =>
            match user.arrayItems[0]?, user.arrayItems[1]? with
            | some (Json.string uid), some _ => some uid
            | _, _ => none
        | _, _ => none

namespace Huajiao

/-- The JSON texts in a notification. -/
def chatDocuments (libraries : Libraries) (message : HuajiaoMessage) : List Bytes :=
  let userData := libraries.parseChatRoomPacket message.infoContent
  if userData.result = successFul then
    if userData.payloadtype = newmsgNotify then
      if userData.msgtype = 0 ∧ userData.memcount ≠ 0 then [userData.msgcontent] else []
    else if userData.payloadtype = memberGzipNotify then
      (userData.multinotify.filterMap libraries.ungzip).map libraries.parseNewMsgContent
    else []
  else []

/-- The user id in such a text, when it is read as a string. -/
def rawUid (libraries : Libraries) (document : Bytes) : Option Bytes :=
  (libraries.parseJson document).bind fun json =>
    if (json.member (ascii "type")).numberValue.intValue = 16 then none
    else some ((json.member (ascii "extends")).member (ascii "userid")).stringValue

/-- The notification in a message, once the instance is logged in. -/
def notification (libraries : Libraries) (payload : Bytes) (state : State) :
    Option HuajiaoMessage :=
  if state.handshake && state.bLogin && payload != [0, 0, 0, 0] then
    (rest 4 payload).bind fun body =>
      let message := libraries.parseMessage body
      if message.msgid = newMessageNotify then some message else none
  else none

end Huajiao

/-- The user ids that handling an event passes on as they were received. -/
inductive PassesOn (libraries : Libraries) : Upstream → UpstreamEvent → Bytes → Prop where
  | douyu {state : Douyu.State} {index size : Nat} {payload uid : Bytes}
      (located : state.pending[index]? = some ⟨.readData size, .ready (.success payload)⟩)
      (received : Douyu.rawUid payload = some uid) :
      PassesOn libraries (.douyu state) (.douyu (.run index)) uid
  | bilibili {state : Bilibili.State} {choice index size : Nat} {payload uid : Bytes}
      (located : state.io.pending[index]? = some ⟨.readData size, .ready (.success payload)⟩)
      (received : Bilibili.rawUid libraries payload = some uid) :
      PassesOn libraries (.bilibili state) (.bilibili choice (.run index)) uid
  | huajiao {state : Huajiao.State} {outcome : Option ErrorCode}
      {payload document uid : Bytes} {message : HuajiaoMessage}
      (notified : Huajiao.notification libraries payload state = some message)
      (listed : document ∈ Huajiao.chatDocuments libraries message)
      (received : Huajiao.rawUid libraries document = some uid) :
      PassesOn libraries (.huajiao state) (.huajiao outcome (.message .binary payload)) uid

/-- A number is printed in ASCII characters. -/
def PrintsAscii (libraries : Libraries) : Prop :=
  ∀ document json, libraries.parseJson document = some json →
    ∀ byte ∈ ((json.member (ascii "extends")).member (ascii "userid")).numberValue.fixedText,
      byte < 0x80

/-- An upstream from some state on, with what its last step did outside; nothing happens after
a fault. -/
def feed (libraries : Libraries) (roomid : Bytes) (upstream : Upstream) :
    Machine (Upstream × List Effect) UpstreamEvent where
  init := (upstream, [])
  step current event :=
    if .fault ∈ current.2 then none else current.1.step libraries roomid event

/-! ## What the handlers publish -/

variable {libraries : Libraries} {roomid : Bytes}

namespace Douyu

theorem isChat_react {request : Request} {completion : Completion}
    (chats : (react roomid request completion).2.IsChat) :
    (∃ size, request = .readData size) ∧ completion.ec = none := by
  rcases completion with ⟨ec, data⟩
  cases ec with
  | some error => cases chats
  | none =>
      cases request with
      | readData size => exact ⟨⟨size, rfl⟩, rfl⟩
      | resolve | connect | write | readHeader | heartbeatWait => cases chats

theorem publishesUtf8_payload (payload : Bytes) :
    PublishesUtf8 (payloadVerdict payload).effects ↔
      ∀ uid, rawUid payload = some uid → Utf8 uid := by
  rw [publishesUtf8_verdict]
  simp only [payloadVerdict, rawUid]
  cases ends : payload.getLast? with
  | none => simp [isMessage, ends]
  | some last =>
      by_cases terminated : last = 0
      · subst terminated
        cases chat : isMessage (ascii "chatmsg") payload <;> simp
      · simp [isMessage, ends, terminated]

theorem publishesUtf8_react (request : Request) (completion : Completion) :
    PublishesUtf8 (react roomid request completion).2.effects ↔
      ∀ uid, (∃ size, request = .readData size) → completion.ec = none →
        rawUid completion.data = some uid → Utf8 uid := by
  by_cases reads : (∃ size, request = .readData size) ∧ completion.ec = none
  · rcases completion with ⟨ec, data⟩
    rcases reads with ⟨⟨size, rfl⟩, rfl⟩
    exact (publishesUtf8_payload data).trans
      ⟨fun valid uid _ _ => valid uid, fun valid uid => valid uid ⟨size, rfl⟩ rfl⟩
  · refine iff_of_true (publishesUtf8_of_noChat ?_) ?_
    · rw [Verdict.publishesChat_effects]
      exact fun chats => reads (isChat_react chats)
    · exact fun uid size success => absurd ⟨size, success⟩ reads

end Douyu

namespace Bilibili

theorem isChat_react {choice : Nat} {state : State} {request : Request} {completion : Completion}
    (chats : (react libraries roomid choice state request completion).verdict.IsChat) :
    (∃ size, request = .readData size) ∧ completion.ec = none := by
  rcases completion with ⟨ec, data⟩
  simp only [react, reactFrom] at chats
  cases ec with
  | some error =>
      dsimp only at chats
      split at chats
      next =>
        rcases onEof_cases libraries (receive request data state) with
          ⟨-, reporting⟩ | ⟨-, quiet⟩
        · exact absurd chats reporting.not_isChat
        · rw [quiet] at chats
          cases chats
      next => cases chats
  | none =>
      cases request with
      | readData size => exact ⟨⟨size, rfl⟩, rfl⟩
      | httpReadStatusLine =>
          rcases onStatusLine_cases (receive .httpReadStatusLine data state) with
            ⟨-, reporting⟩ | ⟨-, quiet⟩
          · exact absurd chats reporting.not_isChat
          · simp [onSuccess, quiet, Verdict.IsChat] at chats
      | httpResolve | httpConnect | httpWrite | httpReadHeader | httpReadContent | tcpResolve
      | tcpConnect | write | readHeader | skip | heartbeatWait => cases chats

/-- A number has decimal digits, and what is neither a number nor a string has no text. -/
theorem utf8_uidText_iff (uid : Json) :
    Utf8 (uidText uid) ↔ ∀ text, uid = .string text → Utf8 text := by
  cases uid with
  | string text => simp [uidText]
  | number value =>
      refine iff_of_true (utf8_of_ascii fun byte member => ?_) (by simp)
      have digit := digit_of_mem_decimal member
      exact UInt8.lt_iff_toNat_lt.mpr (Nat.lt_of_le_of_lt digit.2 (by decide))
  | null | bool | array | object =>
      refine iff_of_true .nil (by simp)

theorem publishesUtf8_payload (payload : Bytes) :
    PublishesUtf8 (payloadVerdict libraries payload).effects ↔
      ∀ uid, rawUid libraries payload = some uid → Utf8 uid := by
  rw [publishesUtf8_verdict]
  simp only [payloadVerdict, rawUid]
  cases parsed : libraries.parseJson (cString payload) with
  | none => simp
  | some message =>
      dsimp only
      split
      next => simp
      next =>
        generalize (message.member (ascii "info")).arrayItems = infoArray
        generalize infoArray[1]? = text, infoArray[2]? = user
        rcases text with - | text
        · simp
        rcases user with - | user
        · simp
        dsimp only
        generalize user.arrayItems[0]? = uid, user.arrayItems[1]? = nickname
        rcases uid with - | uid
        · simp
        rcases nickname with - | nickname
        · cases uid <;> simp
        have decoded := utf8_uidText_iff uid
        cases uid with
        | string text => simp [uidText]
        | null | bool | number | array | object =>
            simpa using decoded.mpr (by simp)

theorem publishesUtf8_react (choice : Nat) (state : State) (request : Request)
    (completion : Completion) :
    PublishesUtf8 (react libraries roomid choice state request completion).verdict.effects ↔
      ∀ uid, (∃ size, request = .readData size) → completion.ec = none →
        rawUid libraries completion.data = some uid → Utf8 uid := by
  by_cases reads : (∃ size, request = .readData size) ∧ completion.ec = none
  · rcases completion with ⟨ec, data⟩
    rcases reads with ⟨⟨size, rfl⟩, rfl⟩
    exact (publishesUtf8_payload data).trans
      ⟨fun valid uid _ _ => valid uid, fun valid uid => valid uid ⟨size, rfl⟩ rfl⟩
  · refine iff_of_true (publishesUtf8_of_noChat ?_) ?_
    · rw [Verdict.publishesChat_effects]
      exact fun chats => reads (isChat_react chats)
    · exact fun uid size success => absurd ⟨size, success⟩ reads

end Bilibili

namespace Huajiao

theorem publishesUtf8_document (prints : PrintsAscii libraries) (document : Bytes) :
    PublishesUtf8 (parseJsonMessage libraries document) ↔
      ∀ uid, rawUid libraries document = some uid → Utf8 uid := by
  simp only [parseJsonMessage, rawUid]
  cases parsed : libraries.parseJson document with
  | none => simpa using publishesUtf8_of_noChat (by simp [PublishesChat])
  | some json =>
      dsimp only
      rw [publishesUtf8_singleton, Option.bind_some]
      split
      next =>
        have label : ∀ byte ∈ ascii "uid:", byte < 0x80 := by decide
        have labelled := List.forall_mem_append.mpr ⟨label, prints document json parsed⟩
        exact iff_of_true (utf8_of_ascii labelled) (by simp)
      next => simp

theorem parseNewMessageNotify_eq (message : HuajiaoMessage) :
    parseNewMessageNotify libraries message =
      (chatDocuments libraries message).flatMap (parseJsonMessage libraries) := by
  simp only [parseNewMessageNotify, chatDocuments]
  split
  next =>
    split
    next => split <;> simp
    next =>
      split
      next =>
        generalize (libraries.parseChatRoomPacket message.infoContent).multinotify = notifications
        induction notifications with
        | nil => rfl
        | cons data notifications ih =>
            rw [List.flatMap_cons, ih]
            cases unpacked : libraries.ungzip data with
            | none => simp [unpacked]
            | some content => simp [unpacked]
      next => rfl
  next => rfl

theorem not_publishesChat_parseHandshakePacket (payload : Bytes) (state : State) :
    ¬PublishesChat (parseHandshakePacket libraries payload state).2 := by
  simp only [parseHandshakePacket]
  split
  next => simp [PublishesChat]
  next => split <;> simp [PublishesChat]

theorem not_publishesChat_parseLoginResponsePacket (payload : Bytes) (state : State) :
    ¬PublishesChat (parseLoginResponsePacket libraries payload state).2 := by
  simp only [parseLoginResponsePacket]
  split
  next => simp [PublishesChat]
  next => split <;> simp [PublishesChat]

/-- A message publishes what its notification holds, and nothing without one. -/
theorem publishesUtf8_handleBinaryMessage (payload : Bytes) (state : State) :
    PublishesUtf8 (handleBinaryMessage libraries payload state).2 ↔
      ∀ message, notification libraries payload state = some message →
        PublishesUtf8 (parseNewMessageNotify libraries message) := by
  simp only [handleBinaryMessage, notification]
  cases state.handshake with
  | false =>
      exact iff_of_true
        (publishesUtf8_of_noChat (not_publishesChat_parseHandshakePacket payload state))
        (by simp)
  | true =>
      cases state.bLogin with
      | false =>
          exact iff_of_true
            (publishesUtf8_of_noChat (not_publishesChat_parseLoginResponsePacket payload state))
            (by simp)
      | true =>
          simp only [if_true, parseMessagePacket]
          have none (effects : List Effect) (noChat : ¬PublishesChat effects) :
              PublishesUtf8 effects := publishesUtf8_of_noChat noChat
          by_cases beat : payload = [0, 0, 0, 0]
          · simp [beat, PublishesUtf8]
          · cases read : rest 4 payload with
            | none => simp [beat, PublishesUtf8]
            | some body =>
                by_cases login : (libraries.parseMessage body).msgid = loginResp
                · have differ : loginResp ≠ newMessageNotify := by decide
                  simp [beat, login, differ, none _
                    (not_publishesChat_parseLoginResponsePacket payload state)]
                · by_cases notify : (libraries.parseMessage body).msgid = newMessageNotify
                  · have differ : newMessageNotify ≠ loginResp := by decide
                    simp [beat, notify, differ]
                  · simp [beat, login, notify, PublishesUtf8]

theorem not_publishesChat_sendPacket (outcome : Option ErrorCode) (packet : Packet)
    (state : State) : ¬PublishesChat (sendPacket outcome packet state).2 := by
  simp only [sendPacket]
  split
  next error _ => exact not_publishesChat_report (some error)
  next => simp [PublishesChat]

theorem not_publishesChat_sendNextPacket (roomid : Bytes) (outcome : Option ErrorCode)
    (state : State) :
    ¬PublishesChat (sendNextPacket roomid outcome state).2 := by
  simp only [sendNextPacket]
  split
  next => exact not_publishesChat_sendPacket _ _ _
  next =>
    split
    next => exact not_publishesChat_sendPacket _ _ _
    next => simp [PublishesChat]

theorem publishesUtf8_onClientMessage (payload : Bytes) (outcome : Option ErrorCode)
    (state : State) :
    PublishesUtf8 (onClientMessage libraries roomid .binary payload outcome state).2 ↔
      PublishesUtf8 (handleBinaryMessage libraries payload state).2 := by
  simp only [onClientMessage]
  split
  next => exact Iff.rfl
  next =>
    have sent := publishesUtf8_of_noChat (not_publishesChat_sendNextPacket roomid outcome
      (handleBinaryMessage libraries payload state).1)
    exact publishesUtf8_append.trans (and_iff_left sent)

end Huajiao

namespace YY

variable {answers : Answers} {state : State}

theorem publishesUtf8_chat (message : Json) (text : Bytes) :
    PublishesUtf8 [.publish (chatJson message text)] := by
  rw [chatJson, publishesUtf8_singleton]
  refine utf8_of_ascii fun byte member => ?_
  have digit := digit_of_mem_decimal member
  exact UInt8.lt_iff_toNat_lt.mpr (Nat.lt_of_le_of_lt digit.2 (by decide))

theorem publishesUtf8_dispatch (ec : Option ErrorCode) (message : Json) :
    PublishesUtf8 (dispatch libraries roomid answers ec message state).2 := by
  rw [dispatch_eq]
  split
  next => exact publishesUtf8_of_noChat (not_publishesChat_onLogin ec)
  next =>
    split
    next => exact publishesUtf8_of_noChat (not_publishesChat_onInit ec)
    next =>
      cases chatData libraries message with
      | none => exact publishesUtf8_of_noChat (by simp [PublishesChat])
      | some data => exact publishesUtf8_chat message _

theorem publishesUtf8_onClientMessage (opcode : Opcode) (payload : Bytes) :
    PublishesUtf8 (onClientMessage libraries roomid opcode payload answers state).2 := by
  have quiet (ec : Option ErrorCode) (state : State) :
      PublishesUtf8 (closeAndReport ec state).2 :=
    publishesUtf8_of_noChat (not_publishesChat_closeAndReport ec state)
  simp only [onClientMessage]
  split
  next => exact publishesUtf8_append.mpr ⟨quiet _ _, publishesUtf8_dispatch _ _⟩
  next =>
    exact publishesUtf8_append.mpr
      ⟨publishesUtf8_append.mpr ⟨quiet _ _, quiet _ _⟩, publishesUtf8_dispatch _ _⟩

theorem not_publishesChat_onClientClose : ¬PublishesChat (onClientClose state).2 := by
  simp only [onClientClose]
  split
  · exact not_publishesChat_text (by decide) (by simp [PublishesChat])
  · exact not_publishesChat_text (by decide) (by simp [PublishesChat])

theorem not_publishesChat_handleHeartbeat (ec : Option ErrorCode) :
    ¬PublishesChat (handleHeartbeat answers ec state).2 := by
  simp only [handleHeartbeat]
  split
  next => exact not_publishesChat_closeAndReport _ _
  next =>
    split
    next => exact not_publishesChat_closeAndReport _ _
    next => simp [PublishesChat]

/-- The user id of YY is printed from a number. -/
theorem publishesUtf8_step {event : Event} {result : State × List Effect}
    (stepped : step libraries roomid answers state event = some result) :
    PublishesUtf8 result.2 := by
  cases event with
  | timer progress =>
      cases progress with
      | finish index completion =>
          simp only [step, timerStep, Option.map_eq_some_iff] at stepped
          rcases stepped with ⟨timers, -, rfl⟩
          exact publishesUtf8_of_noChat (by simp [PublishesChat])
      | run index =>
          simp only [step, timerStep, Option.map_eq_some_iff] at stepped
          rcases stepped with ⟨taken, -, rfl⟩
          exact publishesUtf8_of_noChat (not_publishesChat_handleHeartbeat _)
  | connection event =>
      have quiet : ∀ state : State, PublishesUtf8 ((state, []) : State × List Effect).2 :=
        fun _ => publishesUtf8_of_noChat (by simp [PublishesChat])
      cases event with
      | message opcode payload =>
          simp only [step, connectionStep] at stepped
          split at stepped
          next =>
            cases stepped
            exact publishesUtf8_onClientMessage opcode payload
          next => cases stepped
      | terminated =>
          simp only [step, connectionStep] at stepped
          split at stepped
          next =>
            cases stepped
            exact publishesUtf8_of_noChat (not_publishesChat_report _)
          next =>
            cases stepped
            exact publishesUtf8_of_noChat not_publishesChat_onClientClose
          next => cases stepped
      | opened | closing | failed | closed | expire =>
          simp only [step, connectionStep] at stepped
          split at stepped
          next =>
            cases stepped
            exact quiet _
          next => cases stepped

end YY

/-! ## Runs -/

theorem Huajiao.publishesUtf8_binary (prints : PrintsAscii libraries) (payload : Bytes)
    (outcome : Option ErrorCode) (state : State) :
    PublishesUtf8 (onClientMessage libraries roomid .binary payload outcome state).2 ↔
      ∀ uid, PassesOn libraries (.huajiao state) (.huajiao outcome (.message .binary payload)) uid →
        Utf8 uid := by
  rw [publishesUtf8_onClientMessage, publishesUtf8_handleBinaryMessage]
  simp only [parseNewMessageNotify_eq, publishesUtf8_flatMap, publishesUtf8_document prints]
  constructor
  · intro valid uid passed
    cases passed with
    | huajiao notified listed received => exact valid _ notified _ listed uid received
  · intro valid message notified document listed uid received
    exact valid uid (.huajiao notified listed received)

theorem Huajiao.publishesUtf8_step (prints : PrintsAscii libraries) {state : State}
    {outcome : Option ErrorCode} {event : ClientEvent} {result : State × List Effect}
    (stepped : step libraries roomid outcome state event = some result) :
    PublishesUtf8 result.2 ↔
      ∀ uid, PassesOn libraries (.huajiao state) (.huajiao outcome event) uid → Utf8 uid := by
  cases event with
  | message opcode payload =>
      simp only [step] at stepped
      split at stepped
      next =>
        cases stepped
        cases opcode with
        | text => exact iff_of_true (publishesUtf8_of_noChat (by simp [onClientMessage,
            PublishesChat])) fun _ passed => by cases passed
        | binary => exact publishesUtf8_binary prints payload outcome state
      next => cases stepped
  | terminated =>
      refine iff_of_true (publishesUtf8_of_noChat ?_) fun _ passed => by cases passed
      simp only [step] at stepped
      split at stepped
      next =>
        cases stepped
        exact not_publishesChat_report _
      next =>
        cases stepped
        exact not_publishesChat_text (by decide) (by simp [PublishesChat])
      next => cases stepped
  | opened =>
      refine iff_of_true (publishesUtf8_of_noChat ?_) fun _ passed => by cases passed
      simp only [step] at stepped
      split at stepped
      next =>
        cases stepped
        exact not_publishesChat_sendPacket _ _ _
      next => cases stepped
  | closing | failed | closed | expire =>
      refine iff_of_true (publishesUtf8_of_noChat ?_) fun _ passed => by cases passed
      simp only [step] at stepped
      split at stepped
      next =>
        cases stepped
        simp [PublishesChat]
      next => cases stepped

theorem Douyu.publishesUtf8_step {state : State} {progress : Progress Completion}
    {result : State × List Effect} (stepped : step roomid state progress = some result) :
    PublishesUtf8 result.2 ↔
      ∀ uid, PassesOn libraries (.douyu state) (.douyu progress) uid → Utf8 uid := by
  cases progress with
  | finish index completion =>
      simp only [step, Option.map_eq_some_iff] at stepped
      rcases stepped with ⟨pending, -, rfl⟩
      exact iff_of_true (publishesUtf8_of_noChat (by simp [PublishesChat]))
        fun _ passed => by cases passed
  | run index =>
      simp only [step, Option.map_eq_some_iff, handle_eq] at stepped
      rcases stepped with ⟨⟨request, completion, rest⟩, taken, rfl⟩
      have located := (Pending.getElem?_of_take taken).1
      rw [publishesUtf8_react]
      constructor
      · intro valid uid passed
        cases passed with
        | douyu found received =>
            cases located.symm.trans found
            exact valid uid ⟨_, rfl⟩ rfl received
      · intro valid uid reads success received
        rcases reads with ⟨size, rfl⟩
        rcases completion with ⟨ec, data⟩
        cases success
        exact valid uid (.douyu located received)

theorem Bilibili.publishesUtf8_step {choice : Nat} {state : State}
    {progress : Progress Completion} {result : State × List Effect}
    (stepped : step libraries roomid choice state progress = some result) :
    PublishesUtf8 result.2 ↔
      ∀ uid, PassesOn libraries (.bilibili state) (.bilibili choice progress) uid → Utf8 uid := by
  cases progress with
  | finish index completion =>
      simp only [step, Option.map_eq_some_iff] at stepped
      rcases stepped with ⟨pending, -, rfl⟩
      exact iff_of_true (publishesUtf8_of_noChat (by simp [PublishesChat]))
        fun _ passed => by cases passed
  | run index =>
      have ran := (tcp libraries roomid).step_run choice state index
      simp only [tcp] at ran
      rw [ran, Option.map_eq_some_iff] at stepped
      rcases stepped with ⟨⟨request, completion, rest⟩, taken, rfl⟩
      have located := (Pending.getElem?_of_take taken).1
      rw [publishesUtf8_react]
      constructor
      · intro valid uid passed
        cases passed with
        | bilibili found received =>
            cases located.symm.trans found
            exact valid uid ⟨_, rfl⟩ rfl received
      · intro valid uid reads success received
        rcases reads with ⟨size, rfl⟩
        rcases completion with ⟨ec, data⟩
        cases success
        exact valid uid (.bilibili located received)

theorem publishesUtf8_step_iff (prints : PrintsAscii libraries) {upstream next : Upstream}
    {event : UpstreamEvent} {effects : List Effect}
    (stepped : upstream.step libraries roomid event = some (next, effects)) :
    PublishesUtf8 effects ↔ ∀ uid, PassesOn libraries upstream event uid → Utf8 uid := by
  cases upstream <;> cases event <;>
    simp only [Upstream.step, Option.map_eq_some_iff, reduceCtorEq] at stepped
  case huajiao.huajiao =>
    rcases stepped with ⟨result, stepped, equal⟩
    cases equal
    exact Huajiao.publishesUtf8_step prints stepped
  case douyu.douyu =>
    rcases stepped with ⟨result, stepped, equal⟩
    cases equal
    exact Douyu.publishesUtf8_step stepped
  case bilibili.bilibili =>
    rcases stepped with ⟨result, stepped, equal⟩
    cases equal
    exact Bilibili.publishesUtf8_step stepped
  case YY.YY =>
    rcases stepped with ⟨result, stepped, equal⟩
    cases equal
    exact iff_of_true (YY.publishesUtf8_step stepped) fun _ passed => by cases passed

/-- The chat messages of an upstream are valid UTF-8 exactly along the runs in which the user
ids it passes on are. -/
theorem publishesUtf8_along_iff (libraries : Libraries) (prints : PrintsAscii libraries)
    (roomid : Bytes) (upstream : Upstream) (events : List UpstreamEvent) :
    (feed libraries roomid upstream).Along (fun _ _ next => PublishesUtf8 next.2)
        (feed libraries roomid upstream).init events ↔
      (feed libraries roomid upstream).Along
        (fun before event _ => ∀ uid, PassesOn libraries before.1 event uid → Utf8 uid)
        (feed libraries roomid upstream).init events := by
  refine Machine.along_iff_of_invariant (fun _ => True) (fun _ _ => trivial) ?_ trivial
  intro before next event _ stepped
  simp only [feed] at stepped
  split at stepped
  next => cases stepped
  next => exact publishesUtf8_step_iff prints stepped

theorem printsAscii_danmuLibraries : PrintsAscii danmuLibraries := by
  intro document json parsed
  simp only [danmuLibraries] at parsed
  split at parsed
  next =>
    cases parsed
    decide
  next => cases parsed

theorem publishesUtf8_along_danmu :
    (feed danmuLibraries (ascii "1") (.bilibili { Bilibili.State.fresh with
        io := ⟨true, [⟨.readData danmuText.length, .ready (.success danmuText)⟩]⟩ })).Along
      (fun _ _ next => PublishesUtf8 next.2)
      (.bilibili { Bilibili.State.fresh with
        io := ⟨true, [⟨.readData danmuText.length, .ready (.success danmuText)⟩]⟩ }, [])
      [.bilibili 0 (.run 0)] := by
  apply (publishesUtf8_along_iff danmuLibraries printsAscii_danmuLibraries (ascii "1") _ _).mpr
  intro next stepped
  refine ⟨fun uid passed => ?_, trivial⟩
  have text : Bilibili.rawUid danmuLibraries danmuText = some (ascii "7") := by decide
  cases passed with
  | bilibili located received =>
      cases located
      cases text.symm.trans received
      decide

/-- A douyu packet whose user id is the byte 255. -/
def rawPacket : Bytes :=
  ascii "type@=chatmsg/uid@=" ++ [255] ++ ascii "/nn@=a/txt@=b/" ++ [0]

def rawPacketHeader : Bytes :=
  toLittleEndian32 43 ++ toLittleEndian32 43 ++ [178, 2, 0, 0]

/-- An instance connects and reads the packet. -/
def rawPacketRead : List UpstreamEvent :=
  [.douyu (.finish 0 (.success [])), .douyu (.run 0), .douyu (.finish 0 (.success [])),
    .douyu (.run 0), .douyu (.finish 1 (.success rawPacketHeader)), .douyu (.run 1),
    .douyu (.finish 1 (.success rawPacket))]

theorem not_publishesUtf8_along :
    ¬ ∀ (libraries : Libraries) (roomid : Bytes) (upstream : Upstream)
        (events : List UpstreamEvent), PrintsAscii libraries →
      (feed libraries roomid upstream).Along (fun _ _ next => PublishesUtf8 next.2)
        (feed libraries roomid upstream).init events := by
  intro along
  have here := along default (ascii "1") (.douyu (Douyu.start .fresh))
    (rawPacketRead ++ [.douyu (.run 1)]) fun _ _ parsed => by cases parsed
  rcases here.at_last (fun (_ next : Upstream × List Effect) =>
      decide (Effect.publish (publishJson [255] (ascii "a") (ascii "b")) ∈ next.2)) (by decide) with
    ⟨_, next, published, member⟩
  have valid := published _ _ _ (of_decide_eq_true member)
  rw [utf8_publishJson_iff] at valid
  exact absurd valid (by decide)

end DMProxy.Platforms
