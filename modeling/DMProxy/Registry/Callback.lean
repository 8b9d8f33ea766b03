import DMProxy.Platforms.Activity
import DMProxy.Registry.Runs

/-!
# What a close callback removes

The callback passes a room string and not the identity of its instance, and it arrives
some time after the instance was dropped.  By then the string may belong to a new
instance, which the callback removes.
-/

namespace DMProxy.Registry

open DMProxy.Collections
open DMProxy.Network
open DMProxy.Platforms
open DMProxy.Text
open DMProxy.Transition

namespace State

variable {libraries : Libraries} {state next : State} {event : Event}

/-- If a handler of an instance runs, every other instance that was registered still
is. -/
def RemovesOnlyOwn (state : State) : Event → State → Prop
  | .upstream i _ _, next =>
      ∀ roomstr j, j ≠ i → state.rpMap roomstr = some j → next.rpMap roomstr = some j
  | _, _ => True

/-- If a handler of an instance reports closure and can have the registry lock, no other instance
is registered under the room string of this one. -/
def NotReplaced (libraries : Libraries) (state : State) : Event → Prop
  | .upstream i activity _ =>
      state.deadlocked = false → ∀ inst upstream effects, state.instances i = some inst →
        inst.upstream.step libraries inst.roomid activity = some (upstream, effects) →
        reportsClosure effects = true →
        ∀ j, state.rpMap inst.roomstr = some j → j = i
  | _ => True

/-- A message that asks for an unregistered room comes when the earlier instances of that
room have no operation pending. -/
def AsksAtRest (state : State) : Event → Prop
  | .message _ .text payload _ =>
      state.rpMap (trim payload) = none →
        ∀ i inst, state.instances i = some inst → inst.roomstr = trim payload →
          inst.upstream.pending = false
  | _ => True

/-- An instance whose room string is registered to another one has no operation
pending. -/
def ReplacedAtRest (state : State) : Prop :=
  ∀ roomstr j i inst, state.rpMap roomstr = some j → state.instances i = some inst →
    inst.roomstr = roomstr → i ≠ j → inst.upstream.pending = false

theorem removesOnlyOwn_iff (transition : Transition libraries state event next) :
    state.RemovesOnlyOwn event next ↔ state.NotReplaced libraries event := by
  cases transition with
  | accept | closing | terminate | expire | refused | already | stuck | entered | unhandled
  | closed => exact iff_of_true trivial trivial
  | @upstream i activity _ inst upstream effects _ _ _ found stepped free =>
      constructor
      · intro own _ inst' upstream' effects' found' stepped' reports j registered
        cases found.symm.trans found'
        cases stepped.symm.trans stepped'
        by_contra differ
        have kept := own inst.roomstr j differ registered
        simp [afterHandler, reports] at kept
      · intro sole roomstr j differ registered
        simp only [afterHandler]
        split
        next reports =>
          refine update_none_eq_some.mpr ⟨?_, registered⟩
          intro equal
          subst equal
          exact differ (sole (unlocked_of_reporting free reports) inst upstream effects found
            stepped reports j registered)
        next => exact registered
  | stalled _ _ locked =>
      refine iff_of_true (fun _ _ _ registered => registered) fun unlocked => ?_
      cases locked.symm.trans unlocked

theorem ReplacedAtRest.leave {roomstr : Bytes} {hdl : ConnectionHdl}
    (atRest : state.ReplacedAtRest) (leaving : LeaveOutcome roomstr hdl state next) :
    next.ReplacedAtRest := by
  intro other j i inst' registered' found' named differ
  rcases leaving.instances found' with ⟨inst, found, sameName, -, evolved⟩
  have rest := atRest other j i inst (leaving.shrinks.rpMap registered') found
    (sameName.symm.trans named) differ
  rcases evolved with ⟨same, -⟩ | ⟨closed, -⟩
  · rw [same]
    exact rest
  · rw [closed, Upstream.pending_close]
    exact rest

theorem ReplacedAtRest.enter {environment : Environment} {hdl : ConnectionHdl}
    {roomstr tag roomid : Bytes}
    (entering : EnterOutcome environment hdl roomstr tag roomid state next)
    (parsed : parseRoomstr roomstr = some (tag, roomid)) (atRest : state.ReplacedAtRest)
    (quiet : state.rpMap roomstr = none → ∀ i inst, state.instances i = some inst →
      inst.roomstr = roomstr → inst.upstream.pending = false) :
    next.ReplacedAtRest := by
  intro other j i inst' registered' found' named differ
  rcases entering.instances parsed found' with
    ⟨inst, found, sameName, -, same, -⟩ | ⟨rfl, -, -, entry, -⟩
  · rw [same]
    rcases entering.rpMap registered' with registered | ⟨rfl, absent, -⟩
    · exact atRest other j i inst registered found (sameName.symm.trans named) differ
    · exact quiet absent i inst found (sameName.symm.trans named)
  · rw [← named] at registered'
    exact absurd (Option.some.inj (entry.symm.trans registered')) differ

theorem ReplacedAtRest.transition (atRest : state.ReplacedAtRest) (asks : state.AsksAtRest event)
    (transition : Transition libraries state event next) : next.ReplacedAtRest := by
  cases transition with
  | accept | closing | terminate | expire | refused | already | unhandled => exact atRest
  | stuck _ _ _ _ _ leaving =>
      have left := atRest.leave leaving
      exact left
  | entered _ _ _ parsed moves leaving _ entering =>
      have left := atRest.leave leaving
      refine .enter entering parsed left fun absent i inst' found' named => ?_
      rcases leaving.instances found' with ⟨inst, found, sameName, -, evolved⟩
      have rest := asks ((leaving.rpMap_target moves).symm.trans absent) i inst found
        (sameName.symm.trans named)
      rcases evolved with ⟨same, -⟩ | ⟨closed, -⟩
      · rw [same]
        exact rest
      · rw [closed, Upstream.pending_close]
        exact rest
  | closed _ _ _ _ _ leaving =>
      have left := atRest.leave leaving
      exact left
  | @upstream i activity _ inst upstream effects _ _ _ found stepped _ advances pruned =>
      intro roomstr j k inst' registered' found' named differ
      have registered := (afterHandler_shrinks found advances pruned).rpMap registered'
      rcases update_some_eq_some.mp found' with ⟨rfl, rfl⟩ | ⟨-, kept⟩
      · have rest := atRest roomstr j k inst registered found named differ
        exact (Upstream.step_of_idle rest stepped).1
      · exact atRest roomstr j k inst' registered kept named differ
  | stalled found stepped _ reporting =>
      intro roomstr j k inst' registered found' named differ
      rcases update_some_eq_some.mp found' with ⟨rfl, rfl⟩ | ⟨-, kept⟩
      · have rest := atRest roomstr j k _ registered found named differ
        rw [(Upstream.step_of_idle rest stepped).2] at reporting
        cases reporting
      · exact atRest roomstr j k inst' registered kept named differ

end State

open State

/-- Close callbacks remove only their own instances exactly along the runs in which an
instance that reports closure has not been replaced; and so they do whenever a room is
asked for again only when its earlier instances have no operation pending. -/
theorem removesOnlyOwn_along (libraries : Libraries) (events : List Event) :
    ((machine libraries).Along (fun state event next => state.RemovesOnlyOwn event next)
        State.initial events ↔
      (machine libraries).Along (fun state event _ => state.NotReplaced libraries event)
        State.initial events) ∧
    ((machine libraries).Along (fun state event _ => state.AsksAtRest event)
        State.initial events →
      (machine libraries).Along (fun state event next => state.RemovesOnlyOwn event next)
        State.initial events) := by
  constructor
  · exact Machine.along_iff_of_invariant WellFormed
      (fun wellFormed stepped => wellFormed.step stepped)
      (fun wellFormed stepped => removesOnlyOwn_iff (step_transition wellFormed stepped))
      wellFormed_initial
  · refine Machine.Along.of_invariant (fun state => state.WellFormed ∧ state.ReplacedAtRest)
      ?_ ⟨wellFormed_initial, fun _ _ _ _ registered => by cases registered⟩
    intro state next event holds stepped asks
    have transition := step_transition holds.1 stepped
    refine ⟨⟨holds.1.transition transition, holds.2.transition asks transition⟩, ?_⟩
    rw [removesOnlyOwn_iff transition]
    cases event with
    | upstream i activity send =>
        intro _ inst upstream effects found acted reports j registered
        by_contra differ
        have rest := holds.2 _ j i inst registered found rfl (Ne.symm differ)
        rw [(Upstream.step_of_idle rest acted).2] at reports
        cases reports
    | _ => trivial

/-- A client leaves its room and comes back before the resolver of the first instance has
answered; then that answer is an error. -/
def lateCompletion : List Event :=
  [.accept 0, .message 0 .text (ascii "douyu_1") .calm,
    .message 0 .text (ascii "douyu_2") .calm, .message 0 .text (ascii "douyu_1") .calm,
    .douyu 0 (.finish 0 (.failure (.other (ascii "Host not found"))))] ++
  [.douyu 0 (.run 0)]

theorem not_removesOnlyOwn_along :
    ¬ ∀ (libraries : Libraries) (events : List Event),
      (machine libraries).Along (fun state event next => state.RemovesOnlyOwn event next)
        State.initial events := by
  intro along
  obtain ⟨middle, next, own, facts⟩ := (along default lateCompletion).at_last
    (fun middle next => middle.rpMap (ascii "douyu_1") == some 2 &&
      next.rpMap (ascii "douyu_1") == none)
    (by decide)
  simp only [Bool.and_eq_true, beq_iff_eq] at facts
  cases (own _ 2 (by decide) facts.1).symm.trans facts.2

end DMProxy.Registry
