import DMProxy.Platforms.Activity
import DMProxy.Registry.Reentrancy

/-!
# One upstream connection for each room

An instance lives from `start` until `close` is called on it or its last operation has
completed.  Every report of closure drops the room from the map, and not every handler
that reports stops its instance; the next request for the room then creates a second one
beside it.
-/

namespace DMProxy.Registry

open DMProxy.Async
open DMProxy.Collections
open DMProxy.Network
open DMProxy.Platforms
open DMProxy.Text
open DMProxy.Transition

/-- The instance was started, was not closed, and has an operation pending. -/
def Instance.Live (inst : Instance) : Prop :=
  0 < inst.starts ∧ inst.closes = 0 ∧ inst.upstream.pending = true

namespace State

variable {libraries : Libraries} {state next : State} {event : Event} {roomstr : Bytes}

/-- No two live instances have the same room string. -/
def SingleLive (state : State) : Prop :=
  ∀ i j inst other, state.instances i = some inst → state.instances j = some other →
    inst.Live → other.Live → inst.roomstr = other.roomstr → i = j

/-- The event is a message that creates an instance, whose `start` reports no error. -/
def Creates (state : State) (roomstr : Bytes) : Event → Prop
  | .message hdl .text payload environment =>
      roomstr = trim payload ∧ state.rpMap roomstr = none ∧
        ∃ con tag roomid upstream, state.server hdl = some con ∧
          parseRoomstr roomstr = some (tag, roomid) ∧
          ¬state.LastOf con.handlers.message hdl Upstream.closeFails ∧
          ¬state.LastOf con.handlers.message hdl Upstream.closeFaults ∧
          platformGetInstance tag = some upstream ∧ upstream.isRoomValid roomid = true ∧
          startFails environment upstream = false
  | _ => False

/-- A room is created only while none of its earlier instances is live. -/
def CreatesAlone (state : State) (event : Event) : Prop :=
  ∀ roomstr, state.Creates roomstr event →
    ∀ i inst, state.instances i = some inst → inst.roomstr = roomstr → ¬inst.Live

/-- The step of a creating message: the old room is left, and the new instance gets the
next identity. -/
theorem Creates.created (creates : state.Creates roomstr event)
    (transition : Transition libraries state event next) :
    ∃ hdl environment old tag roomid upstream left server listeners,
      state.LeaveOutcome old hdl left ∧ (old = roomstr → state.rpMap roomstr = none) ∧
        parseRoomstr roomstr = some (tag, roomid) ∧
        platformGetInstance tag = some upstream ∧ startFails environment upstream = false ∧
        next = (left.setMessageHandler hdl roomstr).createRoom environment roomstr roomid
          upstream server listeners := by
  cases event with
  | message hdl opcode payload environment =>
      cases opcode with
      | binary => cases creates
      | text =>
          obtain ⟨rfl, absent, con, tag, roomid, upstream, connected, parsed, noReport, noFault,
            known, valid, starts⟩ := creates
          have moves : con.handlers.message = trim payload → state.rpMap (trim payload) = none :=
            fun _ => absent
          rcases entered_of_message transition connected parsed moves noReport noFault with
            ⟨left, leaving, entering⟩
          have free := (leaving.rpMap_target moves).trans absent
          cases entering with
          | joined registered => cases free.symm.trans registered
          | rejected _ invalid => cases (invalid upstream known).symm.trans valid
          | created _ known' =>
              cases known.symm.trans known'
              exact ⟨_, _, _, _, _, _, _, _, _, leaving, moves, parsed, known, starts, rfl⟩
  | _ => cases creates

theorem LeaveOutcome.live {old : Bytes} {hdl : ConnectionHdl} {i : InstanceId}
    {inst' : Instance} (leaving : LeaveOutcome old hdl state next)
    (found' : next.instances i = some inst') (live : inst'.Live) :
    ∃ inst, state.instances i = some inst ∧ inst'.roomstr = inst.roomstr ∧ inst.Live := by
  rcases leaving.instances found' with
    ⟨inst, found, name, starts, ⟨upstream, closes, -⟩ | ⟨-, closes, -⟩⟩
  · exact ⟨inst, found, name, by rwa [Instance.Live, ← starts, ← closes, ← upstream]⟩
  · have open_ := live.2.1
    omega

/-- A live instance was live before, or has just been created. -/
theorem live_of_transition
    (transition : Transition libraries state event next) {i : InstanceId} {inst' : Instance}
    (found' : next.instances i = some inst') (live : inst'.Live) :
    (∃ inst, state.instances i = some inst ∧ inst'.roomstr = inst.roomstr ∧ inst.Live) ∨
      i = state.nextInstance ∧ state.Creates inst'.roomstr event := by
  cases transition with
  | accept | closing | terminate | expire | refused | already | unhandled =>
      exact .inl ⟨inst', found', rfl, live⟩
  | stuck _ _ _ _ _ leaving => exact .inl (leaving.live found' live)
  | closed _ _ _ _ _ leaving => exact .inl (leaving.live found' live)
  | @entered hdl payload environment con tag roomid left _ connected _ running parsed moves
      leaving returned entering =>
      rcases entering.instances parsed found' with
        ⟨middle, foundMiddle, name, starts, upstream, closes, -⟩ |
          ⟨rfl, absent, name, -, upstream, known, valid, started⟩
      · left
        have liveMiddle : middle.Live := by rwa [Instance.Live, ← starts, ← closes, ← upstream]
        rcases leaving.live foundMiddle liveMiddle with ⟨inst, found, name', live⟩
        exact ⟨inst, found, name.trans name', live⟩
      · right
        refine ⟨leaving.shrinks.nextInstance, ?_⟩
        rcases leaving.not_lastOf running returned with ⟨noReport, noFault⟩
        have quiet : startFails environment upstream = false := by
          have pending := live.2.2
          rw [started, pending_start_of_getInstance known] at pending
          simpa only [Bool.not_eq_true', startFails] using pending
        rw [name]
        exact ⟨rfl, (leaving.rpMap_target moves).symm.trans absent, con, tag, roomid, upstream,
          connected, parsed, noReport, noFault, known, valid, quiet⟩
  | @upstream k _ _ inst _ _ _ _ _ found stepped =>
      left
      rcases update_some_eq_some.mp found' with ⟨rfl, rfl⟩ | ⟨-, kept⟩
      · exact ⟨inst, found, rfl, live.1, live.2.1, Upstream.pending_of_step stepped live.2.2⟩
      · exact ⟨inst', kept, rfl, live⟩
  | @stalled k _ _ inst _ _ _ _ found stepped _ reporting =>
      left
      rcases update_some_eq_some.mp found' with ⟨rfl, rfl⟩ | ⟨-, kept⟩
      · exact ⟨inst, found, rfl, live.1, live.2.1, Upstream.pending_of_reporting stepped reporting⟩
      · exact ⟨inst', kept, rfl, live⟩

/-- A step from a state with single live instances leads to such a state exactly when it
creates no room that still has a live instance. -/
theorem singleLive_iff (wellFormed : state.WellFormed) (single : state.SingleLive)
    (transition : Transition libraries state event next) :
    next.SingleLive ↔ state.CreatesAlone event := by
  constructor
  · intro single' roomstr creates i inst found named live
    obtain ⟨hdl, environment, old, tag, roomid, upstream, left, server, listeners, leaving,
      moves, parsed, known, starts, rfl⟩ := creates.created transition
    have foundLeft := leaving.instances_target wellFormed moves found named
    have differ := (wellFormed.shrinks leaving.shrinks).ne_nextInstance foundLeft
    have pending := pending_start_of_getInstance known roomid environment.getConnection
    rw [← startFails, starts] at pending
    have platform : upstream.platformName ++ ascii "_" ++ roomid = roomstr := by
      rw [platformName_of_getInstance known, ← parseRoomstr_eq parsed]
    refine differ (single' i left.nextInstance inst _
      (update_some_eq_some.mpr (.inr ⟨differ, foundLeft⟩)) (Function.update_self ..) live
      ⟨Nat.one_pos, rfl, pending⟩ (named.trans platform.symm))
  · intro alone i j inst' other' foundInst foundOther liveInst liveOther same
    rcases live_of_transition transition foundInst liveInst with
      ⟨inst, found, name, live⟩ | ⟨rfl, creates⟩
    · rcases live_of_transition transition foundOther liveOther with
        ⟨other, found', name', live'⟩ | ⟨rfl, creates⟩
      · exact single i j inst other found found' live live' (name.symm.trans (same.trans name'))
      · exact absurd live (alone _ creates i inst found (name.symm.trans same))
    · rcases live_of_transition transition foundOther liveOther with
        ⟨other, found', name', live'⟩ | ⟨rfl, -⟩
      · exact absurd live' (alone _ creates j other found' (name'.symm.trans same.symm))
      · rfl

/-- A handler that reports closure and can have the registry lock leaves no operation of its
instance pending, and no other instance is registered under the room string. -/
def ReportsAtRest (libraries : Libraries) (state : State) : Event → Prop
  | .upstream i activity _ =>
      state.deadlocked = false → ∀ inst upstream effects, state.instances i = some inst →
        inst.upstream.step libraries inst.roomid activity = some (upstream, effects) →
        reportsClosure effects = true →
        upstream.pending = false ∧ ∀ j, state.rpMap inst.roomstr = some j → j = i
  | _ => True

/-- Every live instance is registered under its room string. -/
def LiveRegistered (state : State) : Prop :=
  ∀ i inst, state.instances i = some inst → inst.Live → state.rpMap inst.roomstr = some i

theorem LiveRegistered.single (registered : state.LiveRegistered) : state.SingleLive := by
  intro i j inst other foundInst foundOther liveInst liveOther same
  have first := registered i inst foundInst liveInst
  have second := registered j other foundOther liveOther
  rw [same] at first
  exact Option.some.inj (first.symm.trans second)

theorem LiveRegistered.leave {old : Bytes} {hdl : ConnectionHdl}
    (registered : state.LiveRegistered) (leaving : LeaveOutcome old hdl state next) :
    next.LiveRegistered := by
  intro i inst' found' live'
  rcases leaving.live found' live' with ⟨inst, found, name, live⟩
  rw [name]
  exact leaving.entry_kept found found' (live'.2.1.trans live.2.1.symm)
    (registered i inst found live)

theorem LiveRegistered.transition
    (registered : state.LiveRegistered) (reports : state.ReportsAtRest libraries event)
    (transition : Transition libraries state event next) : next.LiveRegistered := by
  cases transition with
  | accept | closing | terminate | expire | refused | already | unhandled =>
      exact registered
  | stuck _ _ _ _ _ leaving =>
      have left := registered.leave leaving
      exact left
  | closed _ _ _ _ _ leaving =>
      have left := registered.leave leaving
      exact left
  | @entered hdl payload _ _ tag roomid left _ connected _ _ parsed _ leaving _ entering =>
      have before := registered.leave leaving
      intro i inst' found' live'
      rcases entering.instances parsed found' with
        ⟨inst, found, name, starts, upstream, closes, -⟩ | ⟨-, -, -, entry, -⟩
      · have live : inst.Live := by rwa [Instance.Live, ← starts, ← closes, ← upstream]
        rw [name]
        exact entering.entry_kept (before i inst found live)
      · exact entry
  | @upstream k activity _ inst upstream effects _ _ _ found stepped free =>
      intro i inst' found' live'
      rcases update_some_eq_some.mp found' with ⟨rfl, rfl⟩ | ⟨differ, kept⟩
      · have live : inst.Live := ⟨live'.1, live'.2.1, Upstream.pending_of_step stepped live'.2.2⟩
        apply afterHandler_entry_kept (registered _ inst found live)
        intro reporting
        have rest := (reports (unlocked_of_reporting free reporting) inst upstream effects found
          stepped reporting).1
        cases rest.symm.trans live'.2.2
      · have entry := registered i inst' kept live'
        apply afterHandler_entry_kept entry
        intro reporting same
        rw [same] at entry
        exact differ ((reports (unlocked_of_reporting free reporting) inst upstream effects found
          stepped reporting).2 i entry)
  | @stalled _ _ _ inst _ _ _ _ found stepped _ reporting =>
      intro i inst' found' live'
      rcases update_some_eq_some.mp found' with ⟨rfl, rfl⟩ | ⟨-, kept⟩
      · have pending := Upstream.pending_of_reporting stepped reporting
        exact registered _ inst found ⟨live'.1, live'.2.1, pending⟩
      · exact registered i inst' kept live'

theorem singleLive_initial : State.initial.SingleLive := by
  intro i j inst other found
  cases found

end State

open State

/-- There is at most one live instance for each room string exactly along the runs in
which no room is created while an earlier instance of it is live.  It is enough that every
report of closure leaves its own instance without pending operations and removes no other
one. -/
theorem singleLive_along (libraries : Libraries) (events : List Event) :
    ((machine libraries).Along (fun _ _ next => next.SingleLive) State.initial events ↔
      (machine libraries).Along (fun state event _ => state.CreatesAlone event)
        State.initial events) ∧
    ((machine libraries).Along (fun state event _ => state.ReportsAtRest libraries event)
        State.initial events →
      (machine libraries).Along (fun _ _ next => next.SingleLive) State.initial events) := by
  constructor
  · exact Machine.along_iff_of_propagates WellFormed SingleLive CreatesAlone
      (fun wellFormed stepped => wellFormed.step stepped)
      (fun wellFormed single stepped =>
        singleLive_iff wellFormed single (step_transition wellFormed stepped))
      wellFormed_initial singleLive_initial
  · refine Machine.Along.of_invariant (fun state => state.WellFormed ∧ state.LiveRegistered)
      ?_ ⟨wellFormed_initial, fun _ _ found => by cases found⟩
    intro state next event holds stepped reports
    have transition := step_transition holds.1 stepped
    have registered := holds.2.transition reports transition
    exact ⟨⟨holds.1.transition transition, registered⟩, registered.single⟩

/-- The douyu server sends a payload without a final NUL.  The instance reports closure
with its next read already started, and the client asks for a room again. -/
def badPayload (request : Bytes) : List Event :=
  [.accept 0, .message 0 .text (ascii "douyu_1") .calm,
    .douyu 0 (.finish 0 (.success [])), .douyu 0 (.run 0),
    .douyu 0 (.finish 0 (.success [])), .douyu 0 (.run 0),
    .douyu 0 (.finish 1 (.success [9, 0, 0, 0, 9, 0, 0, 0, 0, 0, 0, 0])), .douyu 0 (.run 1),
    .douyu 0 (.finish 1 (.success [1])), .douyu 0 (.run 1),
    .message 0 .text request .calm]

theorem not_singleLive_along :
    ¬ ∀ (libraries : Libraries) (events : List Event),
      (machine libraries).Along (fun _ _ next => next.SingleLive) State.initial events := by
  intro along
  have query : ((machine default).exec State.initial (badPayload (ascii "douyu_1"))).any
      (fun final =>
        (final.instances 0).any (fun inst => decide (inst.roomstr = ascii "douyu_1" ∧
          0 < inst.starts ∧ inst.closes = 0 ∧ inst.upstream.pending = true)) &&
        (final.instances 1).any (fun inst => decide (inst.roomstr = ascii "douyu_1" ∧
          0 < inst.starts ∧ inst.closes = 0 ∧ inst.upstream.pending = true))) = true := by
    decide
  rcases (Option.any_eq_true _ _).mp query with ⟨final, executed, facts⟩
  simp only [Bool.and_eq_true, Option.any_eq_true, decide_eq_true_eq] at facts
  rcases facts with ⟨⟨first, found, name, live⟩, second, found', name', live'⟩
  have single := (along default _).final singleLive_initial executed
  cases single 0 1 first second found found' live live' (name.trans name'.symm)

end DMProxy.Registry
