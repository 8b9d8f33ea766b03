import DMProxy.Platforms.ChatMessage
import DMProxy.Platforms.PublishedText

/-!
# Notices

Besides chat messages, the platforms publish why a connection was closed.  These notices are no
JSON, so that a client can tell them from chat messages.
-/

namespace DMProxy.Platforms

open DMProxy.Async
open DMProxy.Network
open DMProxy.Text

/-- The texts that are published besides chat messages. -/
inductive Notice : Bytes → Prop where
  | closedBecause (error : ErrorCode) : Notice error.closedBecause
  | huajiao : Notice (ascii "huajiao danmu connection closed!")
  | YY : Notice (ascii "YY danmu connection closed!")

/-- No notice is accepted by a JSON parser. -/
theorem Notice.parse_eq_none {text : Bytes} (notice : Notice text) :
    JsonText.parse text = none := by
  cases notice with
  | closedBecause | huajiao | YY => exact JsonText.parse_eq_none (by decide) _

/-- What a platform publishes. -/
inductive Publication : Bytes → Prop where
  | chat (message : ChatMessage) : Publication message.published
  | notice {text : Bytes} (notice : Notice text) : Publication text

/-- Everything that is published is a chat message or a notice. -/
def Publishes (effects : List Effect) : Prop :=
  ∀ text, .publish text ∈ effects → Publication text

@[simp] theorem publishes_nil : Publishes [] := by
  simp [Publishes]

@[simp] theorem publishes_publish {text : Bytes} {effects : List Effect} :
    Publishes (.publish text :: effects) ↔ Publication text ∧ Publishes effects := by
  simp [Publishes]

@[simp] theorem publishes_closeCallback {effects : List Effect} :
    Publishes (.closeCallback :: effects) ↔ Publishes effects := by
  simp [Publishes]

@[simp] theorem publishes_fault {effects : List Effect} :
    Publishes (.fault :: effects) ↔ Publishes effects := by
  simp [Publishes]

@[simp] theorem publishes_append {first second : List Effect} :
    Publishes (first ++ second) ↔ Publishes first ∧ Publishes second := by
  simp only [Publishes, List.mem_append, or_imp, forall_and]

@[simp] theorem publishes_chat (uid nickname text : Bytes) :
    Publishes [.publish (publishJson uid nickname text)] := by
  rw [publishes_publish]
  exact ⟨.chat ⟨uid, nickname, text⟩, publishes_nil⟩

@[simp] theorem publishes_report (ec : Option ErrorCode) :
    Publishes (clientReportWhenError ec) := by
  cases ec with
  | none => exact publishes_nil
  | some error => simpa [clientReportWhenError] using .notice (.closedBecause error)

@[simp] theorem publishes_verdict (verdict : Verdict) : Publishes verdict.effects := by
  cases verdict with
  | chats uid nickname text => exact publishes_chat uid nickname text
  | reports error => exact publishes_report (some error)
  | quiet | faults => simp [Verdict.effects]

theorem publishes_flatMap {α : Type} {items : List α} {effects : α → List Effect}
    (each : ∀ item ∈ items, Publishes (effects item)) : Publishes (items.flatMap effects) := by
  intro text member
  rcases List.mem_flatMap.mp member with ⟨item, listed, member⟩
  exact each item listed text member

variable {libraries : Libraries} {roomid : Bytes}

/-! ## The four platforms -/

theorem Douyu.publishes_step {state : State} {progress : Progress Completion}
    {result : State × List Effect} (stepped : step roomid state progress = some result) :
    Publishes result.2 := by
  cases progress with
  | finish index completion =>
      simp only [step, Option.map_eq_some_iff] at stepped
      rcases stepped with ⟨pending, -, rfl⟩
      exact publishes_nil
  | run index =>
      simp only [step, Option.map_eq_some_iff, handle_eq] at stepped
      rcases stepped with ⟨taken, -, rfl⟩
      exact publishes_verdict _

theorem Bilibili.publishes_step {choice : Nat} {state : State} {progress : Progress Completion}
    {result : State × List Effect}
    (stepped : step libraries roomid choice state progress = some result) :
    Publishes result.2 := by
  cases progress with
  | finish index completion =>
      simp only [step, Option.map_eq_some_iff] at stepped
      rcases stepped with ⟨pending, -, rfl⟩
      exact publishes_nil
  | run index =>
      have ran := (tcp libraries roomid).step_run choice state index
      simp only [tcp] at ran
      rw [ran, Option.map_eq_some_iff] at stepped
      rcases stepped with ⟨taken, -, rfl⟩
      exact publishes_verdict _

namespace Huajiao

variable {state : State}

theorem publishes_parseHandshakePacket (payload : Bytes) :
    Publishes (parseHandshakePacket libraries payload state).2 := by
  simp only [parseHandshakePacket]
  split
  next => simp
  next => split <;> simp

theorem publishes_parseLoginResponsePacket (payload : Bytes) :
    Publishes (parseLoginResponsePacket libraries payload state).2 := by
  simp only [parseLoginResponsePacket]
  split
  next => simp
  next => split <;> simp

theorem publishes_parseJsonMessage (document : Bytes) :
    Publishes (parseJsonMessage libraries document) := by
  simp only [parseJsonMessage]
  split
  next => exact publishes_nil
  next => exact publishes_chat _ _ _

theorem publishes_parseMessagePacket (payload : Bytes) :
    Publishes (parseMessagePacket libraries payload state).2 := by
  simp only [parseMessagePacket]
  split
  next => exact publishes_nil
  next =>
    split
    next => simp
    next =>
      split
      next => exact publishes_parseLoginResponsePacket payload
      next =>
        split
        next =>
          rw [parseNewMessageNotify_eq]
          exact publishes_flatMap fun document _ => publishes_parseJsonMessage document
        next => exact publishes_nil

theorem publishes_handleBinaryMessage (payload : Bytes) :
    Publishes (handleBinaryMessage libraries payload state).2 := by
  simp only [handleBinaryMessage]
  split
  next =>
    split
    next => exact publishes_parseMessagePacket payload
    next => exact publishes_parseLoginResponsePacket payload
  next => exact publishes_parseHandshakePacket payload

theorem publishes_sendPacket (outcome : Option ErrorCode) (packet : Packet) :
    Publishes (sendPacket outcome packet state).2 := by
  simp only [sendPacket]
  split
  next error _ => exact publishes_report (some error)
  next => exact publishes_nil

theorem publishes_sendNextPacket (outcome : Option ErrorCode) :
    Publishes (sendNextPacket roomid outcome state).2 := by
  simp only [sendNextPacket]
  split
  next => exact publishes_sendPacket _ _
  next =>
    split
    next => exact publishes_sendPacket _ _
    next => exact publishes_nil

theorem publishes_onClientMessage (opcode : Opcode) (payload : Bytes)
    (outcome : Option ErrorCode) :
    Publishes (onClientMessage libraries roomid opcode payload outcome state).2 := by
  cases opcode with
  | text => exact publishes_nil
  | binary =>
      have handled : Publishes (handleBinaryMessage libraries payload state).2 :=
        publishes_handleBinaryMessage payload
      simp only [onClientMessage]
      split
      next => exact handled
      next => exact publishes_append.mpr ⟨handled, publishes_sendNextPacket outcome⟩

theorem publishes_step {outcome : Option ErrorCode} {event : ClientEvent}
    {result : State × List Effect}
    (stepped : step libraries roomid outcome state event = some result) : Publishes result.2 := by
  cases event with
  | message opcode payload =>
      simp only [step] at stepped
      split at stepped
      next =>
        cases stepped
        exact publishes_onClientMessage opcode payload outcome
      next => cases stepped
  | terminated =>
      simp only [step] at stepped
      split at stepped
      next =>
        cases stepped
        exact publishes_report _
      next =>
        cases stepped
        simpa [onClientClose] using .notice .huajiao
      next => cases stepped
  | opened =>
      simp only [step] at stepped
      split at stepped
      next =>
        cases stepped
        exact publishes_sendPacket outcome .handshake
      next => cases stepped
  | closing | failed | closed | expire =>
      simp only [step] at stepped
      split at stepped
      next =>
        cases stepped
        exact publishes_nil
      next => cases stepped

end Huajiao

namespace YY

variable {answers : Answers} {state : State}

@[simp] theorem publishes_closeAndReport (ec : Option ErrorCode) :
    Publishes (closeAndReport ec state).2 := by
  cases ec with
  | none => exact publishes_nil
  | some error => exact publishes_report (some error)

theorem publishes_onInit (ec : Option ErrorCode) :
    Publishes (onInit roomid answers ec state).2 := by
  simp only [onInit]
  split
  next => split <;> simp
  next => exact publishes_closeAndReport _

theorem publishes_dispatch (ec : Option ErrorCode) (message : Json) :
    Publishes (dispatch libraries roomid answers ec message state).2 := by
  rw [dispatch_eq]
  split
  next => exact publishes_closeAndReport _
  next =>
    split
    next => exact publishes_onInit ec
    next =>
      cases chatData libraries message with
      | none => exact publishes_nil
      | some data => exact publishes_chat _ _ _

theorem publishes_onClientMessage (opcode : Opcode) (payload : Bytes) :
    Publishes (onClientMessage libraries roomid opcode payload answers state).2 := by
  simp only [onClientMessage]
  split
  next => simp [publishes_dispatch]
  next => simp [publishes_dispatch]

theorem publishes_onClientClose : Publishes (onClientClose state).2 := by
  simp only [onClientClose]
  split <;> simpa using .notice .YY

theorem publishes_handleHeartbeat (ec : Option ErrorCode) :
    Publishes (handleHeartbeat answers ec state).2 := by
  simp only [handleHeartbeat]
  split
  next => exact publishes_closeAndReport _
  next => split <;> simp

theorem publishes_step {event : Event} {result : State × List Effect}
    (stepped : step libraries roomid answers state event = some result) :
    Publishes result.2 := by
  cases event with
  | timer progress =>
      cases progress with
      | finish index completion =>
          simp only [step, timerStep, Option.map_eq_some_iff] at stepped
          rcases stepped with ⟨timers, -, rfl⟩
          exact publishes_nil
      | run index =>
          simp only [step, timerStep, Option.map_eq_some_iff] at stepped
          rcases stepped with ⟨taken, -, rfl⟩
          exact publishes_handleHeartbeat _
  | connection event =>
      cases event with
      | message opcode payload =>
          simp only [step, connectionStep] at stepped
          split at stepped
          next =>
            cases stepped
            exact publishes_onClientMessage opcode payload
          next => cases stepped
      | terminated =>
          simp only [step, connectionStep] at stepped
          split at stepped
          next =>
            cases stepped
            exact publishes_report _
          next =>
            cases stepped
            exact publishes_onClientClose
          next => cases stepped
      | opened | closing | failed | closed | expire =>
          simp only [step, connectionStep] at stepped
          split at stepped
          next =>
            cases stepped
            exact publishes_nil
          next => cases stepped

end YY

namespace Upstream

variable {upstream next : Upstream} {event : UpstreamEvent} {effects : List Effect}

/-- Whatever a handler publishes is a chat message or a notice. -/
theorem publishes_step (stepped : upstream.step libraries roomid event = some (next, effects)) :
    Publishes effects := by
  cases upstream <;> cases event <;>
    simp only [step, Option.map_eq_some_iff, reduceCtorEq] at stepped
  case huajiao.huajiao =>
    rcases stepped with ⟨result, stepped, equal⟩
    cases equal
    exact Huajiao.publishes_step stepped
  case douyu.douyu =>
    rcases stepped with ⟨result, stepped, equal⟩
    cases equal
    exact Douyu.publishes_step stepped
  case bilibili.bilibili =>
    rcases stepped with ⟨result, stepped, equal⟩
    cases equal
    exact Bilibili.publishes_step stepped
  case YY.YY =>
    rcases stepped with ⟨result, stepped, equal⟩
    cases equal
    exact YY.publishes_step stepped

theorem publishes_start (roomid : Bytes) (ec : Option ErrorCode) (upstream : Upstream) :
    Publishes (upstream.start roomid ec).2 := by
  rw [start_effects]
  split
  next => exact publishes_report ec
  next => exact publishes_nil

end Upstream

end DMProxy.Platforms
