import DMProxy.Platforms.Chat
import DMProxy.Registry.SingleUpstream

/-!
# Each client listens to one live instance

A message takes its client out of the old room only if that room is still registered.  An
instance that was dropped from the map keeps its listeners, so a client that moves on
stays subscribed to it; that matters as long as the instance can still publish chat.
-/

namespace DMProxy.Registry

open DMProxy.Collections
open DMProxy.Network
open DMProxy.Platforms
open DMProxy.Text
open DMProxy.Transition

/-- The instance can still publish chat. -/
def Instance.CanChat (libraries : Libraries) (inst : Instance) : Prop :=
  inst.upstream.CanChat libraries inst.roomid

namespace State

variable {libraries : Libraries} {state next : State} {event : Event}

/-- No connection listens to two instances that can still publish chat. -/
def SingleFeed (libraries : Libraries) (state : State) : Prop :=
  ∀ hdl i j inst other, state.instances i = some inst → state.instances j = some other →
    hdl ∈ inst.listeners → hdl ∈ other.listeners →
    inst.CanChat libraries → other.CanChat libraries → i = j

/-- The message makes its connection a listener of an instance that can still publish
chat: of a registered one, or of one created for it. -/
def JoinsFeed (libraries : Libraries) (hdl : ConnectionHdl) (payload : Bytes)
    (environment : Environment) (state : State) : Prop :=
  ∃ con tag roomid, state.server hdl = some con ∧
    parseRoomstr (trim payload) = some (tag, roomid) ∧
    (con.handlers.message = trim payload → state.rpMap (trim payload) = none) ∧
    ¬state.LastOf con.handlers.message hdl Upstream.closeFails ∧
    ¬state.LastOf con.handlers.message hdl Upstream.closeFaults ∧
    ((∃ j inst, state.rpMap (trim payload) = some j ∧ state.instances j = some inst ∧
        inst.CanChat libraries) ∨
      state.rpMap (trim payload) = none ∧ ∃ upstream, platformGetInstance tag = some upstream ∧
        upstream.isRoomValid roomid = true ∧ startFails environment upstream = false ∧
        (upstream.start roomid environment.getConnection).1.CanChat libraries roomid)

/-- A message that subscribes its connection to an instance that can publish chat comes
when every other such instance that lists the connection is registered. -/
def MovesFromRegistered (libraries : Libraries) (state : State) : Event → Prop
  | .message hdl .text payload environment =>
      state.JoinsFeed libraries hdl payload environment →
        ∀ i inst, state.instances i = some inst → hdl ∈ inst.listeners →
          inst.CanChat libraries → ∃ roomstr, state.rpMap roomstr = some i
  | _ => True

/-! ## Who listens to what after a message -/

/-- A listener that is left after a connection left a room was one before, of an instance
that was not closed; the connection itself is none of the room it left. -/
theorem LeaveOutcome.listener {old : Bytes} {hdl listener : ConnectionHdl} {i : InstanceId}
    {inst' : Instance} (leaving : LeaveOutcome old hdl state next)
    (found' : next.instances i = some inst') (member' : listener ∈ inst'.listeners) :
    ∃ inst, state.instances i = some inst ∧ listener ∈ inst.listeners ∧
      inst'.upstream = inst.upstream ∧ inst'.roomid = inst.roomid ∧
      (listener = hdl → state.rpMap old ≠ some i) := by
  cases leaving with
  | unregistered absent => exact ⟨inst', found', member', rfl, rfl, by simp [absent]⟩
  | others registered found =>
      rw [eraseListener, modify_of_found found] at found'
      rcases update_some_eq_some.mp found' with ⟨rfl, rfl⟩ | ⟨differ, kept⟩
      · rcases OrderedSet.mem_erase.mp member' with ⟨member, other⟩
        exact ⟨_, found, member, rfl, rfl, fun equal => absurd equal other⟩
      · refine ⟨inst', kept, member', rfl, rfl, fun _ registered' => ?_⟩
        exact differ (Option.some.inj (registered'.symm.trans registered))
  | last registered found last =>
      rcases update_some_eq_some.mp found' with ⟨rfl, rfl⟩ | ⟨differ, kept⟩
      · rcases OrderedSet.mem_erase.mp member' with ⟨member, other⟩
        exact absurd (last listener member) other
      · refine ⟨inst', kept, member', rfl, rfl, fun _ registered' => ?_⟩
        exact differ (Option.some.inj (registered'.symm.trans registered))

/-- A listener that is there after a connection entered a room was one before, or is that
connection, in the room it asked for. -/
theorem EnterOutcome.listener {environment : Environment} {hdl listener : ConnectionHdl}
    {roomstr tag roomid : Bytes} {i : InstanceId} {inst' : Instance}
    (entering : EnterOutcome environment hdl roomstr tag roomid state next)
    (found' : next.instances i = some inst') (member' : listener ∈ inst'.listeners) :
    (∃ inst, state.instances i = some inst ∧ listener ∈ inst.listeners ∧
      inst'.upstream = inst.upstream ∧ inst'.roomid = inst.roomid) ∨
    listener = hdl ∧ next.rpMap roomstr = some i := by
  cases entering with
  | joined registered found =>
      rw [addListener, modify_of_found found] at found'
      rcases update_some_eq_some.mp found' with ⟨rfl, rfl⟩ | ⟨-, kept⟩
      · rcases OrderedSet.mem_insert.mp member' with rfl | older
        · exact .inr ⟨rfl, registered⟩
        · exact .inl ⟨_, found, older, rfl, rfl⟩
      · exact .inl ⟨inst', kept, member', rfl, rfl⟩
  | rejected => exact .inl ⟨inst', found', member', rfl, rfl⟩
  | created absent known valid advances only =>
      rcases update_some_eq_some.mp found' with ⟨rfl, rfl⟩ | ⟨-, kept⟩
      · exact .inr ⟨only listener member', Function.update_self ..⟩
      · exact .inl ⟨inst', kept, member', rfl, rfl⟩

/-- A step that makes nobody a listener of an instance that can publish chat. -/
theorem SingleFeed.of_listeners (single : state.SingleFeed libraries)
    (before : ∀ hdl i inst', next.instances i = some inst' → hdl ∈ inst'.listeners →
      inst'.CanChat libraries →
      ∃ inst, state.instances i = some inst ∧ hdl ∈ inst.listeners ∧ inst.CanChat libraries) :
    next.SingleFeed libraries := by
  intro hdl i j inst' other' foundInst foundOther memberInst memberOther ableInst ableOther
  rcases before hdl i inst' foundInst memberInst ableInst with ⟨inst, found, member, able⟩
  rcases before hdl j other' foundOther memberOther ableOther with ⟨other, found', member', able'⟩
  exact single hdl i j inst other found found' member member' able able'

theorem SingleFeed.leave {old : Bytes} {hdl : ConnectionHdl}
    (single : state.SingleFeed libraries) (leaving : LeaveOutcome old hdl state next) :
    next.SingleFeed libraries := by
  apply single.of_listeners
  intro listener i inst' found' member' able'
  rcases leaving.listener found' member' with ⟨inst, found, member, upstream, roomid, -⟩
  exact ⟨inst, found, member, by rwa [Instance.CanChat, ← upstream, ← roomid]⟩

/-- A message whose connection is a new listener of an instance that can publish chat. -/
theorem joinsFeed_of_entered (wellFormed : state.WellFormed) {environment : Environment}
    {hdl : ConnectionHdl} {con : ServerConnection} {payload tag roomid : Bytes} {left : State}
    {i : InstanceId} {inst' : Instance}
    (connected : state.server hdl = some con) (running : state.halted = false)
    (parsed : parseRoomstr (trim payload) = some (tag, roomid))
    (moves : con.handlers.message = trim payload → state.rpMap (trim payload) = none)
    (leaving : state.LeaveOutcome con.handlers.message hdl left)
    (returned : left.halted = false)
    (entering : (left.setMessageHandler hdl (trim payload)).EnterOutcome environment hdl
      (trim payload) tag roomid next)
    (registered' : next.rpMap (trim payload) = some i)
    (found' : next.instances i = some inst') (able : inst'.CanChat libraries) :
    state.JoinsFeed libraries hdl payload environment := by
  rcases leaving.not_lastOf running returned with ⟨noReport, noFault⟩
  have target : left.rpMap (trim payload) = state.rpMap (trim payload) :=
    leaving.rpMap_target moves
  refine ⟨con, tag, roomid, connected, parsed, moves, noReport, noFault, ?_⟩
  cases entering with
  | joined registered found =>
      have entry : state.rpMap (trim payload) = some i := target.symm.trans registered'
      rcases wellFormed.registered entry with ⟨inst, foundInst, named⟩
      have kept := leaving.instances_target wellFormed moves foundInst named
      cases registered.symm.trans registered'
      cases kept.symm.trans found
      rw [addListener, modify_of_found found] at found'
      simp only [Function.update_self, Option.some.injEq] at found'
      subst found'
      exact .inl ⟨i, _, entry, foundInst, able⟩
  | rejected absent => cases absent.symm.trans registered'
  | @created upstream _ _ absent known valid =>
      have created : left.nextInstance = i := by
        simpa [createRoom, setMessageHandler, modifyHandlers] using registered'
      subst created
      have same := Option.some.inj (found'.symm.trans (Function.update_self ..))
      subst same
      have pending := Upstream.CanChat.pending able
      rw [pending_start_of_getInstance known] at pending
      exact .inr ⟨target.symm.trans absent, upstream, known, valid,
        by simpa only [Bool.not_eq_true', startFails] using pending, able⟩

/-- A connection that joins an instance that can publish chat, while another such instance
lists it that is not registered, listens to both afterwards. -/
theorem not_singleFeed_of_joins (wellFormed : state.WellFormed) {hdl : ConnectionHdl}
    {payload : Bytes} {environment : Environment} {i : InstanceId} {inst : Instance}
    (transition : Transition libraries state (.message hdl .text payload environment) next)
    (joins : state.JoinsFeed libraries hdl payload environment)
    (found : state.instances i = some inst) (member : hdl ∈ inst.listeners)
    (able : inst.CanChat libraries) (orphan : ∀ roomstr, state.rpMap roomstr ≠ some i) :
    ¬next.SingleFeed libraries := by
  rcases joins with ⟨con, tag, roomid, connected, parsed, moves, noReport, noFault, target⟩
  rcases entered_of_message transition connected parsed moves noReport noFault with
    ⟨left, leaving, entering⟩
  have foundLeft : left.instances i = some inst :=
    (leaving.instances_other (orphan _)).trans found
  have entry : left.rpMap (trim payload) = state.rpMap (trim payload) :=
    leaving.rpMap_target moves
  intro single
  rcases target with ⟨j, other, registered, foundOther, ableOther⟩ |
    ⟨absent, upstream, known, valid, starts, ableNew⟩
  · have differ : i ≠ j := by
      intro equal
      subst equal
      exact orphan _ registered
    rcases wellFormed.registered registered with ⟨_, foundNamed, named⟩
    cases foundOther.symm.trans foundNamed
    have keptOther := leaving.instances_target wellFormed moves foundOther named
    cases entering with
    | joined registered' found' =>
        cases (entry.trans registered).symm.trans registered'
        cases keptOther.symm.trans found'
        rw [addListener, modify_of_found found'] at single
        exact differ (single hdl i j inst _
          (update_some_eq_some.mpr (.inr ⟨differ, foundLeft⟩)) (Function.update_self ..) member
          (OrderedSet.mem_insert.mpr (.inl rfl)) able ableOther)
    | rejected absent => cases (entry.trans registered).symm.trans absent
    | created absent => cases (entry.trans registered).symm.trans absent
  · have differ := (wellFormed.shrinks leaving.shrinks).ne_nextInstance foundLeft
    cases entering with
    | joined registered' => cases (entry.trans absent).symm.trans registered'
    | rejected _ invalid => cases (invalid upstream known).symm.trans valid
    | created _ known' _ _ _ included =>
        cases known.symm.trans known'
        exact differ (single hdl i left.nextInstance inst _
          (update_some_eq_some.mpr (.inr ⟨differ, foundLeft⟩)) (Function.update_self ..) member
          (included starts) able ableNew)

/-- After a message that moves from registered instances only, its connection listens to no
instance that can publish chat besides the one it asked for. -/
theorem SingleFeed.enter (wellFormed : state.WellFormed) (single : state.SingleFeed libraries)
    {hdl : ConnectionHdl} {con : ServerConnection} {roomstr : Bytes} {left : State}
    {environment : Environment} {tag roomid : Bytes}
    (connected : state.server hdl = some con)
    (leaving : state.LeaveOutcome con.handlers.message hdl left)
    (entering : (left.setMessageHandler hdl roomstr).EnterOutcome environment hdl roomstr tag
      roomid next)
    (guarded : ∀ k target, next.rpMap roomstr = some k → next.instances k = some target →
      target.CanChat libraries → ∀ i inst, state.instances i = some inst →
        hdl ∈ inst.listeners → inst.CanChat libraries → ∃ other, state.rpMap other = some i) :
    next.SingleFeed libraries := by
  have before := single.leave leaving
  have alone : ∀ k target i inst, next.rpMap roomstr = some k → next.instances k = some target →
      target.CanChat libraries → left.instances i = some inst → hdl ∈ inst.listeners →
      ¬inst.CanChat libraries := by
    intro k target i inst' registered' foundTarget ableTarget foundLeft member' able'
    rcases leaving.listener foundLeft member' with
      ⟨inst, found, member, upstream, roomid, elsewhere⟩
    have able : inst.CanChat libraries := by rwa [Instance.CanChat, ← upstream, ← roomid]
    rcases guarded k target registered' foundTarget ableTarget i inst found member able with
      ⟨other, registered⟩
    have room := wellFormed.bound ⟨i, registered, inst, found, member⟩
    rw [messageRoom_of_connected connected] at room
    exact elsewhere rfl (Option.some.inj room ▸ registered)
  intro listener i j inst' other' foundInst foundOther memberInst memberOther ableInst ableOther
  rcases entering.listener foundInst memberInst with
    ⟨inst, found, member, upstream, room⟩ | ⟨rfl, registered⟩
  · have able : inst.CanChat libraries := by rwa [Instance.CanChat, ← upstream, ← room]
    rcases entering.listener foundOther memberOther with
      ⟨other, found', member', upstream', room'⟩ | ⟨rfl, registered'⟩
    · apply before listener i j inst other found found' member member' able
      rwa [Instance.CanChat, ← upstream', ← room']
    · exact absurd able (alone j other' i inst registered' foundOther ableOther found member)
  · rcases entering.listener foundOther memberOther with
      ⟨other, found', member', upstream', room'⟩ | ⟨-, registered'⟩
    · have able : other.CanChat libraries := by rwa [Instance.CanChat, ← upstream', ← room']
      exact absurd able (alone i inst' j other registered foundInst ableInst found' member')
    · exact Option.some.inj (registered.symm.trans registered')

/-- From a state with single feeds, a step leads to such a state exactly when it makes no
connection a listener of a second instance that can publish chat. -/
theorem singleFeed_iff (wellFormed : state.WellFormed) (single : state.SingleFeed libraries)
    (transition : Transition libraries state event next) :
    next.SingleFeed libraries ↔ state.MovesFromRegistered libraries event := by
  constructor
  · intro single'
    cases event with
    | message hdl opcode payload environment =>
        cases opcode with
        | binary => trivial
        | text =>
            intro joins i inst found member able
            by_contra orphan
            exact not_singleFeed_of_joins wellFormed transition joins found member able
              (not_exists.mp orphan) single'
    | _ => trivial
  · intro guarded
    cases transition with
    | accept | closing | terminate | expire | refused | already | unhandled => exact single
    | stuck _ _ _ _ _ leaving =>
        have left := single.leave leaving
        exact left
    | closed _ _ _ _ _ leaving =>
        have left := single.leave leaving
        exact left
    | entered connected _ running parsed moves leaving returned entering =>
        refine .enter wellFormed single connected leaving entering ?_
        intro k target registered' found' able
        exact guarded (joinsFeed_of_entered wellFormed connected running parsed moves leaving
          returned entering registered' found' able)
    | upstream found stepped _ _ pruned =>
        apply single.of_listeners
        intro hdl i inst' found' member' able'
        rcases update_some_eq_some.mp found' with ⟨rfl, rfl⟩ | ⟨-, kept⟩
        · exact ⟨_, found, pruned hdl member', .later stepped able'⟩
        · exact ⟨inst', kept, member', able'⟩
    | stalled found stepped _ reporting _ pruned =>
        apply single.of_listeners
        intro hdl i inst' found' member' able'
        rcases update_some_eq_some.mp found' with ⟨rfl, rfl⟩ | ⟨-, kept⟩
        · exact ⟨_, found, pruned hdl member', .held stepped reporting able'⟩
        · exact ⟨inst', kept, member', able'⟩

theorem singleFeed_initial : State.initial.SingleFeed libraries := by
  intro hdl i j inst other found
  cases found

end State

open State

/-- No client listens to two instances that can publish chat exactly along the runs in
which no client joins such an instance while one that was dropped from the map still lists
it. -/
theorem singleFeed_along_iff (libraries : Libraries) (events : List Event) :
    (machine libraries).Along (fun _ _ next => next.SingleFeed libraries)
        State.initial events ↔
      (machine libraries).Along (fun state event _ => state.MovesFromRegistered libraries event)
        State.initial events :=
  Machine.along_iff_of_propagates WellFormed (SingleFeed libraries)
    (MovesFromRegistered libraries) (fun wellFormed stepped => wellFormed.step stepped)
    (fun wellFormed single stepped =>
      singleFeed_iff wellFormed single (step_transition wellFormed stepped))
    wellFormed_initial singleFeed_initial

/-- The douyu server sends a chat message to a connection with a header read pending. -/
def chatMessage : List UpstreamEvent :=
  [.douyu (.finish 1 (.success [23, 0, 0, 0, 23, 0, 0, 0, 0, 0, 0, 0])), .douyu (.run 1),
    .douyu (.finish 1 (.success (ascii "type@=chatmsg/" ++ [0]))), .douyu (.run 1)]

/-- A douyu instance that has just been started connects, and gets a chat message. -/
def connectAndChat : List UpstreamEvent :=
  [.douyu (.finish 0 (.success [])), .douyu (.run 0), .douyu (.finish 0 (.success [])),
    .douyu (.run 0)] ++ chatMessage

theorem not_singleFeed_along :
    ¬ ∀ (libraries : Libraries) (events : List Event),
      (machine libraries).Along (fun _ _ next => next.SingleFeed libraries)
        State.initial events := by
  intro along
  -- The client moves on to another room after the report of its first one.
  have query : ((machine default).exec State.initial (badPayload (ascii "douyu_2"))).any
      (fun final =>
        (final.instances 0).any (fun inst => decide (0 ∈ inst.listeners) &&
          inst.upstream.publishesAfter default inst.roomid (publishJson [] [] []) chatMessage) &&
        (final.instances 1).any (fun inst => decide (0 ∈ inst.listeners) &&
          inst.upstream.publishesAfter default inst.roomid (publishJson [] [] [])
            connectAndChat)) = true := by
    decide
  rcases (Option.any_eq_true _ _).mp query with ⟨final, executed, facts⟩
  simp only [Bool.and_eq_true, Option.any_eq_true, decide_eq_true_eq] at facts
  rcases facts with ⟨⟨first, found, member, chats⟩, second, found', member', chats'⟩
  have single := (along default _).final singleFeed_initial executed
  cases single 0 0 1 first second found found' member member'
    (Upstream.canChat_of_publishesAfter chats) (Upstream.canChat_of_publishesAfter chats')

end DMProxy.Registry
