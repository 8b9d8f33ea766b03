import DMProxy.Registry.Runs

/-!
# Cleaning up after a closed connection

A connection that has closed and whose close handler has run should be a listener of no
registered instance.  Of the exits of `on_server_message` only the one that creates a
room installs a close handler, so this holds exactly as long as connections that close
happen to carry the handler of the room they are subscribed to.
-/

namespace DMProxy.Registry

open DMProxy.Collections
open DMProxy.Network
open DMProxy.Platforms
open DMProxy.Text
open DMProxy.Transition

namespace State

variable {libraries : Libraries} {state next : State} {event : Event}

/-- No connection that is done with is subscribed to a room. -/
def CleanedUp (state : State) : Prop :=
  ∀ hdl roomstr, state.Finished hdl → ¬state.Subscribed roomstr hdl

theorem cleanedUp_initial : State.initial.CleanedUp := by
  intro hdl roomstr _ subscribed
  rcases subscribed with ⟨i, registered, -⟩
  cases registered

/-- If the event runs the close handler of a connection that is subscribed to a room,
then the handler carries the string of that room. -/
def HandlerBound (state : State) : Event → Prop
  | .closeHandler hdl _ =>
      ∀ roomstr, state.Subscribed roomstr hdl → state.closeRoomstr hdl = some roomstr
  | _ => True

/-- Leaving a room leaves the subscriptions to other rooms alone. -/
theorem LeaveOutcome.subscribed_other (wellFormed : state.WellFormed)
    {roomstr other : Bytes} {hdl listener : ConnectionHdl}
    (leaving : LeaveOutcome roomstr hdl state next) (differ : other ≠ roomstr)
    (subscribed : state.Subscribed other listener) : next.Subscribed other listener := by
  rcases subscribed with ⟨j, registered', inst', found', member⟩
  have separate : ∀ {i}, state.rpMap roomstr = some i → j ≠ i := by
    intro i registered equal
    subst equal
    rcases wellFormed.registered registered with ⟨inst, found, named⟩
    rcases wellFormed.registered registered' with ⟨_, found', named'⟩
    cases found.symm.trans found'
    exact differ (named'.symm.trans named)
  cases leaving with
  | unregistered => exact ⟨j, registered', inst', found', member⟩
  | others registered found _ _ =>
      rw [eraseListener, modify_of_found found]
      exact ⟨j, registered', inst',
        update_some_eq_some.mpr (.inr ⟨separate registered, found'⟩), member⟩
  | last registered found _ =>
      refine ⟨j, ?_, inst', update_some_eq_some.mpr (.inr ⟨separate registered, found'⟩), member⟩
      simp only [closeRoom]
      split
      · exact registered'
      · exact update_none_eq_some.mpr ⟨differ, registered'⟩

/-- From a clean state, a step leads to a clean state exactly when the close handler it
runs, if it runs one, carries the right room string. -/
theorem cleanedUp_iff (wellFormed : state.WellFormed) (cleaned : state.CleanedUp)
    (transition : Transition libraries state event next) :
    next.CleanedUp ↔ state.HandlerBound event := by
  constructor
  · intro cleaned'
    cases transition with
    | accept | closing | terminate | expire | refused | already | stuck | entered
    | upstream | stalled => trivial
    | unhandled connected =>
        intro roomstr subscribed
        exact absurd subscribed
          (cleaned' _ _ ((finished_setCloseRan connected).mpr (.inl rfl)))
    | @closed hdl _ con bound left connected _ _ _ installed leaving =>
        intro roomstr subscribed
        rw [closeRoomstr_of_connected connected, installed, Option.some.injEq]
        by_contra differ
        have kept := leaving.subscribed_other wellFormed (Ne.symm differ) subscribed
        rw [← leaving.server] at connected
        exact cleaned' hdl roomstr ((finished_setCloseRan connected).mpr (.inl rfl)) kept
  · intro guarded hdl roomstr ended subscribed
    rcases subscribed_of_transition wellFormed transition subscribed with
      older | ⟨unfinished, payload, environment, rfl, -⟩
    · rcases finished_of_transition transition ended with before | ⟨environment, rfl⟩
      · exact cleaned hdl roomstr before older
      · have carried := guarded roomstr older
        cases transition with
        | unhandled connected _ _ absent =>
            rw [closeRoomstr_of_connected connected, absent] at carried
            cases carried
        | closed connected _ _ _ installed leaving =>
            rw [closeRoomstr_of_connected connected, installed, Option.some.injEq] at carried
            subst carried
            exact leaving.not_subscribed subscribed
    · rcases finished_of_transition transition ended with before | ⟨environment, equal⟩
      · exact unfinished before
      · cases equal

end State

open State

/-- Closed connections stay out of every registered listener set exactly along the runs
in which each connection that closes while it is subscribed carries the close handler of
that room. -/
theorem cleanedUp_along_iff (libraries : Libraries) (events : List Event) :
    (machine libraries).Along (fun _ _ next => next.CleanedUp) State.initial events ↔
      (machine libraries).Along (fun state event _ => state.HandlerBound event)
        State.initial events := by
  exact Machine.along_iff_of_propagates WellFormed CleanedUp HandlerBound
    (fun wellFormed stepped => wellFormed.step stepped)
    (fun wellFormed cleaned stepped =>
      cleanedUp_iff wellFormed cleaned (step_transition wellFormed stepped))
    wellFormed_initial cleanedUp_initial

/-- Two clients subscribe to one room, and the second one leaves. -/
def joinAndLeave : List Event :=
  [.accept 0, .message 0 .text (ascii "douyu_1") .calm,
    .accept 1, .message 1 .text (ascii "douyu_1") .calm,
    .terminate 1, .closeHandler 1 .calm]

/-- The exit of `on_server_message` that joins a room installs no close handler, so the
second client stays a listener. -/
theorem not_cleanedUp_along :
    ¬ ∀ (libraries : Libraries) (events : List Event),
      (machine libraries).Along (fun _ _ next => next.CleanedUp) State.initial events := by
  intro along
  have query : ((machine default).exec State.initial joinAndLeave).any (fun final =>
      final.rpMap (ascii "douyu_1") == some 0 && final.haveListener 0 1 &&
        ((final.server.handlers 1).map Handlers.closeRan == some true)) = true := by
    decide
  rcases (Option.any_eq_true _ _).mp query with ⟨final, executed, facts⟩
  simp only [Bool.and_eq_true, beq_iff_eq, haveListener_iff] at facts
  exact (along default joinAndLeave).final cleanedUp_initial executed 1 (ascii "douyu_1")
    facts.2 ⟨0, facts.1.1, facts.1.2⟩

end DMProxy.Registry
