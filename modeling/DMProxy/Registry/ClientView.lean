import DMProxy.Platforms.Notices
import DMProxy.Registry.Delivery

/-!
# What a client can tell from the texts it receives

A client gets chat messages, notices and the answers to requests that were refused.  Only the
chat messages are JSON, and from each of them a client that knows the format has the message.
-/

namespace DMProxy.Registry

open DMProxy.Network
open DMProxy.Platforms
open DMProxy.Text
open DMProxy.Transition

/-- The answers to requests that are refused. -/
inductive Refusal : Bytes → Prop where
  | format : Refusal (ascii "format error!")
  | platform (tag : Bytes) : Refusal (ascii "platform " ++ tag ++ ascii " is not valid!")
  | room : Refusal (ascii "roomid invalid!")

theorem Refusal.parse_eq_none {text : Bytes} (refusal : Refusal text) :
    JsonText.parse text = none := by
  cases refusal with
  | format =>
      -- it begins like `false`
      decide
  | platform | room => exact JsonText.parse_eq_none (by decide) _

/-- What a connection can be sent. -/
inductive Receipt : Bytes → Prop where
  | published {text : Bytes} (publication : Publication text) : Receipt text
  | refused {text : Bytes} (refusal : Refusal text) : Receipt text

namespace State

variable {libraries : Libraries} {state next : State} {event : Event}

theorem receipt_of_answers {environment : Environment} {opcode : Opcode} {payload text : Bytes}
    (member : text ∈ answers environment opcode payload) : Receipt text := by
  simp only [answers] at member
  split at member
  next => cases member
  next =>
    split at member
    next =>
      rw [List.mem_singleton.mp member]
      exact .refused .format
    next tag roomid _ =>
      split at member
      next =>
        rw [List.mem_singleton.mp member]
        exact .refused (.platform tag)
      next upstream _ =>
        split at member
        next =>
          have started := upstream.publishes_start roomid environment.getConnection
          exact .published (started text (mem_publishedTexts.mp member))
        next =>
          rw [List.mem_singleton.mp member]
          exact .refused .room

theorem receipt_of_addressed {hdl : ConnectionHdl} {text : Bytes}
    (member : text ∈ state.addressed libraries hdl event) : Receipt text := by
  cases event with
  | message sender opcode payload environment =>
      simp only [addressed] at member
      split at member
      next => exact receipt_of_answers member
      next => cases member
  | upstream i activity send =>
      simp only [addressed] at member
      split at member
      next => cases member
      next =>
        split at member
        next => cases member
        next acted =>
          simp only [toListeners] at member
          split at member
          next =>
            have published := Upstream.publishes_step acted
            have effect := (carriedOut_sublist _ _).subset (mem_publishedTexts.mp member)
            exact .published (published text effect)
          next => cases member
  | accept | closing | terminate | closeHandler | expire => cases member

/-- What the connections were sent are publications and refusals. -/
def Receipts (state : State) : Prop :=
  ∀ hdl, ∀ text ∈ received state.server hdl, Receipt text

theorem receipts_initial : State.initial.Receipts := by
  intro hdl text member
  cases member

theorem Receipts.step (receipts : state.Receipts) (wellFormed : state.WellFormed)
    (stepped : state.step libraries event = some next) : next.Receipts := by
  intro hdl text member
  rcases delivers_step wellFormed stepped hdl with ⟨new, grown, part⟩
  rw [grown, List.mem_append] at member
  rcases member with older | fresh
  · exact receipts hdl text older
  · exact receipt_of_addressed (part.subset fresh)

theorem receipts_of_reachable (reachable : (machine libraries).Reachable state) :
    state.Receipts :=
  reachable.invariant receipts_initial fun source receipts _ stepped =>
    receipts.step (wellFormed_of_reachable source) stepped

end State

open State

/-- Every text that a client receives is a chat message, which the client reads back if it can be
decoded, or a notice or a refusal, which is no JSON. -/
theorem client_reads {libraries : Libraries} {state : State}
    (reachable : (machine libraries).Reachable state) {hdl : ConnectionHdl} {text : Bytes}
    (member : text ∈ received state.server hdl) :
    (∃ message : ChatMessage, text = message.published ∧
      (message.Decodable → ChatMessage.read text = some message)) ∨
    (Notice text ∨ Refusal text) ∧ JsonText.parse text = none := by
  cases receipts_of_reachable reachable hdl text member with
  | published publication =>
      cases publication with
      | chat message => exact .inl ⟨message, rfl, ChatMessage.read_of_decodable⟩
      | notice notice => exact .inr ⟨.inl notice, notice.parse_eq_none⟩
  | refused refusal => exact .inr ⟨.inr refusal, refusal.parse_eq_none⟩

theorem client_reads_chat :
    (∃ message : ChatMessage, publishJson [] [] [] = message.published ∧
      (message.Decodable → ChatMessage.read (publishJson [] [] []) = some message)) ∨
    (Notice (publishJson [] [] []) ∨ Refusal (publishJson [] [] [])) ∧
      JsonText.parse (publishJson [] [] []) = none := by
  rcases (Option.any_eq_true _ _).mp received_roomWithChat with ⟨final, executed, member⟩
  exact client_reads (Machine.Reachable.exec .init executed) (of_decide_eq_true member)

end DMProxy.Registry
