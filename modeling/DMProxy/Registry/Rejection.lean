import DMProxy.Registry.Runs

/-!
# Requests that are refused

A request is refused at three points of `on_server_message`.  The format check comes
before anything is changed; the other two come after the connection was bound to the new
room string and has left its old room.
-/

namespace DMProxy.Registry

open DMProxy.Collections
open DMProxy.Network
open DMProxy.Platforms
open DMProxy.Text
open DMProxy.Transition

/-- The text is badly formatted, has an unknown tag, or has a room id its platform does
not accept. -/
def Refuses (payload : Bytes) : Prop :=
  ∀ tag roomid upstream, parseRoomstr (trim payload) = some (tag, roomid) →
    platformGetInstance tag = some upstream → upstream.isRoomValid roomid = false

namespace State

variable {libraries : Libraries} {state next : State} {hdl : ConnectionHdl}

/-- The map, the instances with their listener sets, and the room strings bound in the
handlers of the connection are the same. -/
structure Unchanged (hdl : ConnectionHdl) (before after : State) : Prop where
  rpMap : after.rpMap = before.rpMap
  instances : after.instances = before.instances
  messageRoom : after.messageRoom hdl = before.messageRoom hdl
  closeRoomstr : after.closeRoomstr hdl = before.closeRoomstr hdl

theorem Unchanged.of_advances {server : Server} (advances : state.server.Advances server) :
    Unchanged hdl state { state with server := server } where
  rpMap := rfl
  instances := rfl
  messageRoom := by simp only [State.messageRoom, advances.handlers]
  closeRoomstr := by simp only [State.closeRoomstr, advances.handlers]

/-- Binding the message handler to the text it is bound to already. -/
theorem Unchanged.setMessageHandler {con : ServerConnection}
    (connected : state.server hdl = some con) {roomstr : Bytes}
    (same : con.handlers.message = roomstr) :
    Unchanged hdl state (state.setMessageHandler hdl roomstr) where
  rpMap := rfl
  instances := rfl
  messageRoom := by
    rw [State.setMessageHandler, messageRoom_modifyHandlers, if_pos rfl,
      messageRoom_of_connected connected, same, Server.handlers, connected]
    rfl
  closeRoomstr := by
    simp only [State.closeRoomstr, State.setMessageHandler]
    rw [handlers_modifyHandlers, if_pos rfl, Server.handlers, connected]
    rfl

theorem Unchanged.trans {middle : State} (first : Unchanged hdl state middle)
    (second : Unchanged hdl middle next) : Unchanged hdl state next where
  rpMap := second.rpMap.trans first.rpMap
  instances := second.instances.trans first.instances
  messageRoom := second.messageRoom.trans first.messageRoom
  closeRoomstr := second.closeRoomstr.trans first.closeRoomstr

/-- A message that gets past the early returns binds the message handler of its
connection. -/
theorem messageRoom_of_moved {con : ServerConnection} {old roomstr : Bytes} {left : State}
    (connected : state.server hdl = some con) (leaving : LeaveOutcome old hdl state left) :
    (left.setMessageHandler hdl roomstr).messageRoom hdl = some roomstr := by
  rw [setMessageHandler, messageRoom_modifyHandlers, if_pos rfl, leaving.server, Server.handlers,
    connected]
  rfl

/-- The room string bound before was another one, so its loss shows. -/
theorem not_unchanged_of_moved {con : ServerConnection} {roomstr : Bytes}
    (connected : state.server hdl = some con) (differ : con.handlers.message ≠ roomstr)
    (moved : next.messageRoom hdl = some roomstr) : ¬Unchanged hdl state next := by
  intro unchanged
  have room := unchanged.messageRoom
  rw [moved, messageRoom_of_connected connected, Option.some.injEq] at room
  exact differ room.symm

/-- A room that is not registered is left by doing nothing. -/
theorem LeaveOutcome.eq_of_unregistered {roomstr : Bytes}
    (leaving : LeaveOutcome roomstr hdl state next) (absent : state.rpMap roomstr = none) :
    next = state := by
  cases leaving with
  | unregistered => rfl
  | others registered => cases absent.symm.trans registered
  | last registered => cases absent.symm.trans registered

end State

open State

/-- In a reachable state, a refused request changes nothing exactly when its format is
bad, or when its text is the one bound in the message handler of the connection
already. -/
theorem unchanged_iff_of_refused {libraries : Libraries} {state next : State}
    {hdl : ConnectionHdl} {payload : Bytes} {environment : Environment}
    (reachable : (machine libraries).Reachable state) (refused : Refuses payload)
    (stepped : (machine libraries).step state (.message hdl .text payload environment) =
      some next) :
    Unchanged hdl state next ↔
      parseRoomstr (trim payload) = none ∨ state.messageRoom hdl = some (trim payload) := by
  have taken : state.step libraries (.message hdl .text payload environment) = some next :=
    stepped
  cases step_transition (wellFormed_of_reachable reachable) taken with
  | refused malformed advances =>
      exact iff_of_true (.of_advances advances) (.inl (malformed.resolve_left (by simp)))
  | already connected _ same =>
      have room := messageRoom_of_connected connected
      rw [same] at room
      exact iff_of_true ⟨rfl, rfl, rfl, rfl⟩ (.inr room)
  | @stuck _ _ _ con _ _ left connected _ running parsed moves leaving halted =>
      have differ : con.handlers.message ≠ trim payload := by
        intro same
        have stays := leaving.eq_of_unregistered (same ▸ moves same)
        rw [stays, running] at halted
        cases halted
      rw [parsed, messageRoom_of_connected connected]
      apply iff_of_false
      · exact not_unchanged_of_moved connected differ (messageRoom_of_moved connected leaving)
      · simpa using differ
  | @entered _ _ _ con tag roomid left _ connected _ _ parsed moves leaving _ entering =>
      rw [parsed, messageRoom_of_connected connected]
      simp only [reduceCtorEq, Option.some.injEq, false_or]
      constructor
      · intro unchanged
        by_contra differ
        apply not_unchanged_of_moved connected differ ?_ unchanged
        rw [entering.messageRoom]
        exact messageRoom_of_moved connected leaving
      · intro same
        have absent := moves same
        have stays := leaving.eq_of_unregistered (same ▸ absent)
        subst stays
        cases entering with
        | joined registered => cases absent.symm.trans registered
        | rejected _ _ advances =>
            exact (Unchanged.setMessageHandler connected same).trans (.of_advances advances)
        | created _ known valid =>
            cases (refused tag roomid _ parsed known).symm.trans valid

/-- A client that is subscribed sends a text without an underscore, and stays subscribed. -/
theorem unchanged_iff_of_refused_plain :
    ∃ state next, (machine default).exec State.initial
        [.accept 0, .message 0 .text (ascii "douyu_1") .calm] = some state ∧
      (machine default).step state (.message 0 .text (ascii "douyu") .calm) = some next ∧
      state.Subscribed (ascii "douyu_1") 0 ∧ Unchanged 0 state next := by
  have query : ((machine default).exec State.initial
      [.accept 0, .message 0 .text (ascii "douyu_1") .calm]).any (fun state =>
        ((machine default).step state (.message 0 .text (ascii "douyu") .calm)).isSome &&
          state.rpMap (ascii "douyu_1") == some 0 && state.haveListener 0 0) = true := by
    decide
  rcases (Option.any_eq_true _ _).mp query with ⟨state, executed, facts⟩
  simp only [Bool.and_eq_true, beq_iff_eq] at facts
  rcases facts with ⟨⟨answered, registered⟩, listens⟩
  rcases Option.isSome_iff_exists.mp answered with ⟨next, stepped⟩
  have parsed : parseRoomstr (trim (ascii "douyu")) = none := by decide
  have refused : Refuses (ascii "douyu") := by
    intro tag roomid upstream found
    cases parsed.symm.trans found
  have same := unchanged_iff_of_refused (Machine.Reachable.exec .init executed) refused stepped
  exact ⟨state, next, executed, stepped, ⟨0, registered, haveListener_iff.mp listens⟩,
    same.mpr (.inl parsed)⟩

/-- A client that is subscribed asks for a platform that does not exist. -/
theorem not_unchanged_of_refused :
    ¬ ∀ (libraries : Libraries) (state next : State) (hdl : ConnectionHdl) (payload : Bytes)
      (environment : Environment), (machine libraries).Reachable state → Refuses payload →
      (machine libraries).step state (.message hdl .text payload environment) = some next →
      Unchanged hdl state next := by
  intro atomic
  have refused : Refuses (ascii "nope_1") := by
    intro tag roomid upstream parsed known
    have split : parseRoomstr (trim (ascii "nope_1")) = some (ascii "nope", ascii "1") := by
      decide
    cases split.symm.trans parsed
    have unknown : (platformGetInstance (ascii "nope")).isNone = true := by decide
    simp [known] at unknown
  have query : ((machine default).exec State.initial
      [.accept 0, .message 0 .text (ascii "douyu_1") .calm]).any (fun middle =>
        ((machine default).step middle (.message 0 .text (ascii "nope_1") .calm)).any fun next =>
          middle.rpMap (ascii "douyu_1") == some 0 && next.rpMap (ascii "douyu_1") == none) =
      true := by
    decide
  rcases (Option.any_eq_true _ _).mp query with ⟨middle, executed, inner⟩
  rcases (Option.any_eq_true _ _).mp inner with ⟨next, stepped, facts⟩
  simp only [Bool.and_eq_true, beq_iff_eq] at facts
  have same := (atomic default middle next 0 _ .calm (Machine.Reachable.exec .init executed)
    refused stepped).rpMap
  rw [same, facts.1] at facts
  cases facts.2

end DMProxy.Registry
