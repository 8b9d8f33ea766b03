import DMProxy.Platforms.Activity

/-!
# Instances that can still publish chat

An instance can still publish chat when some continuation of its upstream side makes one
of its handlers publish a chat message.  An event never gives this ability back, also where
the registry lock is lost and a handler that reports closure does not get past its report.
-/

namespace DMProxy.Platforms

open DMProxy.Network
open DMProxy.Text

/-- One of the effects is the publication of a chat message. -/
def PublishesChat (effects : List Effect) : Prop :=
  ∃ uid nickname text, .publish (publishJson uid nickname text) ∈ effects

theorem publishesChat_append {first second : List Effect} :
    PublishesChat (first ++ second) ↔ PublishesChat first ∨ PublishesChat second := by
  simp only [PublishesChat, List.mem_append]
  constructor
  · intro chats
    rcases chats with ⟨uid, nickname, text, member | member⟩
    · exact .inl ⟨uid, nickname, text, member⟩
    · exact .inr ⟨uid, nickname, text, member⟩
  · intro either
    rcases either with ⟨uid, nickname, text, member⟩ | ⟨uid, nickname, text, member⟩
    · exact ⟨uid, nickname, text, .inl member⟩
    · exact ⟨uid, nickname, text, .inr member⟩

/-- A text that is no JSON object is no chat message. -/
theorem not_publishesChat_text {dmMsg : Bytes} {more : List Effect}
    (first : dmMsg.head? ≠ some 123) (noChat : ¬PublishesChat more) :
    ¬PublishesChat (.publish dmMsg :: more) := by
  intro chats
  rcases chats with ⟨uid, nickname, text, member⟩
  rcases List.mem_cons.mp member with here | later
  · simp only [Effect.publish.injEq] at here
    rw [← here] at first
    simp [publishJson, Json.dumpStrings, ascii] at first
  · exact noChat ⟨uid, nickname, text, later⟩

theorem not_publishesChat_report (ec : Option ErrorCode) :
    ¬PublishesChat (clientReportWhenError ec) := by
  cases ec with
  | none => simp [clientReportWhenError, PublishesChat]
  | some error =>
      exact not_publishesChat_text (by simp [ErrorCode.closedBecause, ascii])
        (by simp [PublishesChat])

namespace Upstream

/-- Some sequence of upstream events ends with the publication of a chat message.  The handlers
come to their end, or are held in a report. -/
inductive CanChat (libraries : Libraries) (roomid : Bytes) : Upstream → Prop where
  | now {upstream upstream' : Upstream} {event : UpstreamEvent} {effects : List Effect}
      (stepped : upstream.step libraries roomid event = some (upstream', effects))
      (chats : PublishesChat effects) : CanChat libraries roomid upstream
  | later {upstream upstream' : Upstream} {event : UpstreamEvent} {effects : List Effect}
      (stepped : upstream.step libraries roomid event = some (upstream', effects))
      (rest : CanChat libraries roomid upstream') : CanChat libraries roomid upstream
  | held {upstream upstream' : Upstream} {event : UpstreamEvent} {effects : List Effect}
      (stepped : upstream.step libraries roomid event = some (upstream', effects))
      (reporting : reportsClosure effects = true)
      (rest : CanChat libraries roomid (upstream.stalled libraries event)) :
      CanChat libraries roomid upstream

variable {libraries : Libraries} {roomid : Bytes}

/-- An instance at rest cannot publish anything. -/
theorem CanChat.pending {upstream : Upstream} (able : CanChat libraries roomid upstream) :
    upstream.pending = true := by
  induction able with
  | now stepped chats =>
      by_contra idle
      rw [Bool.not_eq_true] at idle
      rcases chats with ⟨uid, nickname, text, member⟩
      rw [(step_of_idle idle stepped).2] at member
      cases member
  | later stepped _ ih => exact pending_of_step stepped ih
  | held stepped reporting => exact pending_of_reporting stepped reporting

/-- Whether a run of upstream events ends with the publication of a text. -/
def publishesAfter (libraries : Libraries) (roomid dmMsg : Bytes) :
    List UpstreamEvent → Upstream → Bool
  | [], _ => false
  | event :: events, upstream =>
      match upstream.step libraries roomid event with
      | none => false
      | some (upstream', effects) =>
          if events.isEmpty then decide (.publish dmMsg ∈ effects)
          else publishesAfter libraries roomid dmMsg events upstream'

theorem canChat_of_publishesAfter {uid nickname text : Bytes} {events : List UpstreamEvent}
    {upstream : Upstream}
    (published : publishesAfter libraries roomid (publishJson uid nickname text) events
      upstream = true) : CanChat libraries roomid upstream := by
  induction events generalizing upstream with
  | nil => cases published
  | cons event events ih =>
      simp only [publishesAfter] at published
      cases stepped : upstream.step libraries roomid event with
      | none => simp [stepped] at published
      | some result =>
          simp only [stepped] at published
          split at published
          next => exact .now stepped ⟨uid, nickname, text, of_decide_eq_true published⟩
          next => exact .later stepped (ih published)

end Upstream

end DMProxy.Platforms
