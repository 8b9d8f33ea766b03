import DMProxy.Registry.Runs

/-!
# A subscription that is accepted takes effect

Before it does anything, `on_server_message` returns when the text equals the room string
bound in the message handler and some instance is registered under that string.  Neither
says that the connection is one of its listeners: the room may have closed and have been
created again by somebody else since the handler was bound.
-/

namespace DMProxy.Registry

open DMProxy.Collections
open DMProxy.Network
open DMProxy.Platforms
open DMProxy.Text
open DMProxy.Transition

/-- The trimmed text is the tag of a platform and a room id the platform accepts. -/
def WellAddressed (payload roomid : Bytes) : Prop :=
  ∃ tag upstream, trim payload = tag ++ ascii "_" ++ roomid ∧
    platformGetInstance tag = some upstream ∧ upstream.isRoomValid roomid = true

theorem WellAddressed.parsed {payload roomid : Bytes} (addressed : WellAddressed payload roomid) :
    ∃ tag upstream, platformGetInstance tag = some upstream ∧
      upstream.isRoomValid roomid = true ∧
      parseRoomstr (trim payload) = if roomid = [] then none else some (tag, roomid) := by
  rcases addressed with ⟨tag, upstream, text, known, valid⟩
  rcases separator_notMem_of_getInstance known with ⟨separator, long⟩
  exact ⟨tag, upstream, known, valid, by rw [text, parseRoomstr_append separator long]⟩

/-- A well addressed text with a room id gets past the format check. -/
theorem WellAddressed.of_parsed {payload tag roomid roomid' : Bytes}
    (addressed : WellAddressed payload roomid)
    (parsed : parseRoomstr (trim payload) = some (tag, roomid')) :
    roomid = roomid' ∧ roomid ≠ [] ∧
      ∃ upstream, platformGetInstance tag = some upstream ∧
        upstream.isRoomValid roomid = true := by
  rcases addressed.parsed with ⟨tag', upstream, known, valid, result⟩
  rw [parsed] at result
  split at result
  next => cases result
  next nonempty =>
    cases result
    exact ⟨rfl, nonempty, upstream, known, valid⟩

namespace State

variable {libraries : Libraries} {state next : State} {event : Event}

/-- If the event is a well addressed message and its handler returned, then the
connection is a listener of the instance registered under the text. -/
def TakesEffect (state : State) : Event → State → Prop
  | .message hdl .text payload _, next =>
      ∀ roomid, WellAddressed payload roomid → next.halted = state.halted →
        next.Subscribed (trim payload) hdl
  | _, _ => True

/-- If the event is a well addressed message whose room id is empty, or whose text is
already bound in the message handler and registered, then the connection is a listener
of that room as it is. -/
def EarlyExitSubscribed (state : State) : Event → Prop
  | .message hdl .text payload _ =>
      ∀ roomid, WellAddressed payload roomid →
        (roomid = [] ∨ state.messageRoom hdl = some (trim payload) ∧
          (state.rpMap (trim payload)).isSome = true) →
        state.Subscribed (trim payload) hdl
  | _ => True

/-- A message that gets to the critical section and past its first check takes neither
early exit. -/
theorem earlyExitSubscribed_of_moves {hdl : ConnectionHdl} {con : ServerConnection}
    {payload tag roomid : Bytes} (connected : state.server hdl = some con)
    (parsed : parseRoomstr (trim payload) = some (tag, roomid))
    (moves : con.handlers.message = trim payload → state.rpMap (trim payload) = none)
    (environment : Environment) :
    state.EarlyExitSubscribed (.message hdl .text payload environment) := by
  intro other addressed exit
  rcases exit with empty | ⟨same, registered⟩
  · exact absurd empty (addressed.of_parsed parsed).2.1
  · rw [messageRoom_of_connected connected, Option.some.injEq] at same
    simp [moves same] at registered

/-- A well addressed message that enters a room subscribes its connection. -/
theorem EnterOutcome.subscribes {environment : Environment} {hdl : ConnectionHdl}
    {payload tag roomid : Bytes} (parsed : parseRoomstr (trim payload) = some (tag, roomid))
    (addressed : WellAddressed payload roomid)
    (entering : EnterOutcome environment hdl (trim payload) tag roomid state next)
    (returned : next.halted = false) : next.Subscribed (trim payload) hdl := by
  cases entering with
  | @joined i inst registered found =>
      exact ⟨i, registered, (listens_addListener found).mpr (.inr ⟨rfl, rfl⟩)⟩
  | rejected absent invalid advances =>
      rcases addressed.of_parsed parsed with ⟨-, -, upstream, known, valid⟩
      rw [invalid upstream known] at valid
      cases valid
  | created absent known valid advances only included =>
      simp only [halted, createRoom, Bool.or_eq_false_iff] at returned
      exact ⟨_, Function.update_self .., _, Function.update_self .., included returned.1.1⟩

/-- A message takes effect exactly when it takes no early exit, or finds its connection
already subscribed. -/
theorem takesEffect_iff (transition : Transition libraries state event next) :
    state.TakesEffect event next ↔ state.EarlyExitSubscribed event := by
  cases transition with
  | accept | closing | terminate | expire | unhandled | closed | upstream | stalled =>
      exact iff_of_true trivial trivial
  | @refused _ opcode _ _ _ malformed advances =>
      cases opcode with
      | binary => exact iff_of_true trivial trivial
      | text =>
          refine forall_congr' fun roomid => forall_congr' fun addressed => ?_
          have empty : roomid = [] := by
            rcases addressed.parsed with ⟨tag, upstream, -, -, result⟩
            by_contra nonempty
            rw [malformed.resolve_left (by simp), if_neg nonempty] at result
            cases result
          exact ⟨fun takes _ => takes rfl, fun exit _ => exit (.inl empty)⟩
  | already connected parsed same registered =>
      refine forall_congr' fun roomid => forall_congr' fun addressed => ?_
      have bound := messageRoom_of_connected connected
      rw [same] at bound
      exact ⟨fun takes _ => takes rfl, fun exit _ => exit (.inr ⟨bound, registered⟩)⟩
  | stuck connected _ running parsed moves _ halted =>
      refine iff_of_true ?_ (earlyExitSubscribed_of_moves connected parsed moves _)
      intro roomid addressed returned
      rw [running] at returned
      cases halted.symm.trans returned
  | entered connected _ running parsed moves _ _ entering =>
      refine iff_of_true ?_ (earlyExitSubscribed_of_moves connected parsed moves _)
      intro roomid addressed returned
      rcases addressed.of_parsed parsed with ⟨rfl, -⟩
      exact entering.subscribes parsed addressed (returned.trans running)

end State

open State

/-- Well addressed messages take effect exactly along the runs in which none of them is
dropped by an early exit while its connection is not subscribed. -/
theorem takesEffect_along_iff (libraries : Libraries) (events : List Event) :
    (machine libraries).Along (fun state event next => state.TakesEffect event next)
        State.initial events ↔
      (machine libraries).Along (fun state event _ => state.EarlyExitSubscribed event)
        State.initial events :=
  Machine.along_iff_of_invariant WellFormed (fun wellFormed stepped => wellFormed.step stepped)
    (fun wellFormed stepped => takesEffect_iff (step_transition wellFormed stepped))
    wellFormed_initial

/-- The room of a client closes upstream, another client creates it again, and the first
one asks for it once more. -/
def staleRequest : List Event :=
  [.accept 0, .message 0 .text (ascii "douyu_1") .calm,
    .douyu 0 (.finish 0 (.failure (.other (ascii "Host not found")))), .douyu 0 (.run 0),
    .accept 1, .message 1 .text (ascii "douyu_1") .calm] ++
  [.message 0 .text (ascii "douyu_1") .calm]

/-- The handler of the first client still carries the room string, so its last request is
dropped. -/
theorem not_takesEffect_along :
    ¬ ∀ (libraries : Libraries) (events : List Event),
      (machine libraries).Along (fun state event next => state.TakesEffect event next)
        State.initial events := by
  intro along
  obtain ⟨middle, next, takes, facts⟩ := (along default staleRequest).at_last
    (fun middle next => next.rpMap (ascii "douyu_1") == some 1 && !next.haveListener 1 0 &&
      next.halted == middle.halted)
    (by decide)
  simp only [Bool.and_eq_true, beq_iff_eq, Bool.not_eq_true', ← Bool.not_eq_true,
    haveListener_iff] at facts
  rcases facts with ⟨⟨registered, stranger⟩, returned⟩
  obtain ⟨i, registered', listening⟩ := takes (ascii "1")
    ⟨ascii "douyu", .douyu .fresh, by decide, by decide, by decide⟩ returned
  have same : trim (ascii "douyu_1") = ascii "douyu_1" := by decide
  rw [same, registered, Option.some.injEq] at registered'
  subst registered'
  exact stranger listening

end DMProxy.Registry
