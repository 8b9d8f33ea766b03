import DMProxy.Registry.Transition

/-!
# The invariant holds in every run

One lemma for each kind of write, and from them that every transition keeps
`WellFormed`.
-/

namespace DMProxy.Registry

open DMProxy.Collections
open DMProxy.Network
open DMProxy.Platforms
open DMProxy.Text
open DMProxy.Transition

namespace State

variable {libraries : Libraries} {state next : State} {event : Event}

theorem wellFormed_initial : State.initial.WellFormed where
  registered registered := by cases registered
  installed found := by cases found
  fresh _ := rfl
  bound subscribed := by
    rcases subscribed with ⟨i, registered, -⟩
    cases registered
  finished ended := by simp [Finished, State.initial, Server.handlers] at ended

theorem messageRoom_modifyHandlers (state : State) (hdl other : ConnectionHdl)
    (change : Handlers → Handlers) :
    (state.modifyHandlers hdl change).messageRoom other =
      if other = hdl then (state.server.handlers other).map fun handlers =>
        (change handlers).message
      else state.messageRoom other := by
  simp only [messageRoom, handlers_modifyHandlers]
  split <;> simp [Function.comp_def]

theorem finished_modifyHandlers (state : State) (hdl other : ConnectionHdl)
    (change : Handlers → Handlers) :
    (state.modifyHandlers hdl change).Finished other ↔
      if other = hdl then (state.server.handlers other).map (fun handlers =>
        (change handlers).closeRan) = some true
      else state.Finished other := by
  simp only [Finished, handlers_modifyHandlers]
  split <;> simp [Function.comp_def]

theorem isClosed_modifyHandlers (state : State) (hdl other : ConnectionHdl)
    (change : Handlers → Handlers) :
    (state.modifyHandlers hdl change).server.IsClosed other ↔ state.server.IsClosed other := by
  simp only [modifyHandlers, Server.IsClosed]
  by_cases equal : other = hdl
  · subst equal
    simp
  · simp [equal]

/-- Binding a new room string to the message handler of an unsubscribed connection. -/
theorem WellFormed.setMessageHandler (wellFormed : state.WellFormed) {hdl : ConnectionHdl}
    (absent : ∀ roomstr, ¬state.Subscribed roomstr hdl) (roomstr : Bytes) :
    (state.setMessageHandler hdl roomstr).WellFormed where
  registered := wellFormed.registered
  installed := wellFormed.installed
  fresh := wellFormed.fresh
  bound {other listener} subscribed := by
    have differ : listener ≠ hdl := by
      intro equal
      subst equal
      exact absent other subscribed
    rw [State.setMessageHandler, messageRoom_modifyHandlers, if_neg differ]
    exact wellFormed.bound subscribed
  finished {other} ended := by
    rw [State.setMessageHandler, isClosed_modifyHandlers]
    rw [State.setMessageHandler, finished_modifyHandlers] at ended
    split at ended
    · exact wellFormed.finished ended
    · exact wellFormed.finished ended

theorem WellFormed.setCloseRan (wellFormed : state.WellFormed) {hdl : ConnectionHdl}
    (ended : state.server.IsClosed hdl) : (state.setCloseRan hdl).WellFormed where
  registered := wellFormed.registered
  installed := wellFormed.installed
  fresh := wellFormed.fresh
  bound {other listener} subscribed := by
    have room := wellFormed.bound subscribed
    rw [State.setCloseRan, messageRoom_modifyHandlers]
    split
    · exact room
    · exact room
  finished {other} ran := by
    rw [State.setCloseRan, isClosed_modifyHandlers]
    rw [State.setCloseRan, finished_modifyHandlers] at ran
    split at ran
    next equal => exact equal ▸ ended
    next => exact wellFormed.finished ran

theorem listens_addListener {i j : InstanceId} {inst : Instance} {hdl other : ConnectionHdl}
    (found : state.instances i = some inst) :
    (state.addListener i hdl).Listens other j ↔
      state.Listens other j ∨ j = i ∧ other = hdl := by
  rw [addListener, modify_of_found found]
  constructor
  · intro listening
    rcases listening with ⟨inst', found', member⟩
    rcases update_some_eq_some.mp found' with ⟨rfl, rfl⟩ | ⟨differ, kept⟩
    · rcases OrderedSet.mem_insert.mp member with rfl | older
      · exact .inr ⟨rfl, rfl⟩
      · exact .inl ⟨inst, found, older⟩
    · exact .inl ⟨inst', kept, member⟩
  · intro listening
    rcases listening with ⟨inst', kept, member⟩ | ⟨rfl, rfl⟩
    · by_cases equal : j = i
      · subst equal
        cases found.symm.trans kept
        exact ⟨_, Function.update_self .., OrderedSet.mem_insert.mpr (.inr member)⟩
      · exact ⟨inst', update_some_eq_some.mpr (.inr ⟨equal, kept⟩), member⟩
    · exact ⟨_, Function.update_self .., OrderedSet.mem_insert.mpr (.inl rfl)⟩

theorem messageRoom_of_advances (advances : state.server.Advances next.server) :
    next.messageRoom = state.messageRoom := by
  funext hdl
  simp only [messageRoom, advances.handlers]

theorem finished_of_advances (advances : state.server.Advances next.server) :
    next.Finished = state.Finished := by
  funext hdl
  simp only [Finished, advances.handlers]

namespace EnterOutcome

variable {environment : Environment} {hdl : ConnectionHdl} {roomstr tag roomid : Bytes}

/-- Entering a room binds no message handler. -/
theorem messageRoom (entering : EnterOutcome environment hdl roomstr tag roomid state next) :
    next.messageRoom = state.messageRoom := by
  cases entering with
  | joined => rfl
  | rejected _ _ advances => exact messageRoom_of_advances advances
  | created _ _ _ advances =>
      apply (messageRoom_of_advances advances).trans
      funext other
      rw [setCloseHandler, messageRoom_modifyHandlers]
      split <;> rfl

theorem finished (entering : EnterOutcome environment hdl roomstr tag roomid state next) :
    next.Finished = state.Finished := by
  cases entering with
  | joined => rfl
  | rejected _ _ advances => exact finished_of_advances advances
  | created _ _ _ advances =>
      apply (finished_of_advances advances).trans
      funext other
      rw [setCloseHandler, eq_iff_iff, finished_modifyHandlers]
      split <;> rfl

theorem isClosed (entering : EnterOutcome environment hdl roomstr tag roomid state next)
    {other : ConnectionHdl} (ended : state.server.IsClosed other) :
    next.server.IsClosed other := by
  cases entering with
  | joined => exact ended
  | rejected _ _ advances => exact advances.closed other ended
  | created _ _ _ advances =>
      apply advances.closed other
      rw [setCloseHandler, isClosed_modifyHandlers]
      exact ended

/-- Entering a room subscribes nobody else, and to no other room. -/
theorem subscribed (wellFormed : state.WellFormed)
    (entering : EnterOutcome environment hdl roomstr tag roomid state next)
    {other : Bytes} {listener : ConnectionHdl} (subscribed : next.Subscribed other listener) :
    state.Subscribed other listener ∨ other = roomstr ∧ listener = hdl := by
  rcases subscribed with ⟨j, registered', listening⟩
  cases entering with
  | @joined i inst registered found =>
      rcases (listens_addListener found).mp listening with older | ⟨rfl, rfl⟩
      · exact .inl ⟨j, registered', older⟩
      · rcases wellFormed.registered registered' with ⟨inst', found', named'⟩
        rcases wellFormed.registered registered with ⟨original, foundOriginal, named⟩
        cases found'.symm.trans foundOriginal
        exact .inr ⟨named'.symm.trans named, rfl⟩
  | rejected => exact .inl ⟨j, registered', listening⟩
  | created absent known valid advances only included =>
      rcases listening with ⟨inst', found', member⟩
      rcases update_some_eq_some.mp registered' with ⟨rfl, rfl⟩ | ⟨-, kept⟩
      · simp only [createRoom, Function.update_self, Option.some.injEq] at found'
        subst found'
        exact .inr ⟨rfl, only listener member⟩
      · rcases update_some_eq_some.mp found' with ⟨rfl, -⟩ | ⟨-, older⟩
        · rcases wellFormed.registered kept with ⟨inst, found, -⟩
          exact absurd rfl (wellFormed.ne_nextInstance found)
        · exact .inl ⟨j, kept, inst', older, member⟩

theorem wellFormed (wellFormed : state.WellFormed)
    (parsed : parseRoomstr roomstr = some (tag, roomid))
    (room : state.messageRoom hdl = some roomstr)
    (entering : EnterOutcome environment hdl roomstr tag roomid state next) :
    next.WellFormed where
  registered {other i} registered := by
    cases entering with
    | @joined j inst _ found =>
        rcases wellFormed.registered registered with ⟨inst', found', named⟩
        rw [addListener, modify_of_found found]
        by_cases equal : i = j
        · subst equal
          cases found.symm.trans found'
          exact ⟨_, Function.update_self .., named⟩
        · exact ⟨inst', update_some_eq_some.mpr (.inr ⟨equal, found'⟩), named⟩
    | rejected => exact wellFormed.registered registered
    | created absent known =>
        rcases update_some_eq_some.mp registered with ⟨rfl, rfl⟩ | ⟨-, kept⟩
        · refine ⟨_, Function.update_self .., ?_⟩
          rw [parseRoomstr_eq parsed, ← platformName_of_getInstance known]
          rfl
        · rcases wellFormed.registered kept with ⟨inst', found', named⟩
          have differ := wellFormed.ne_nextInstance found'
          exact ⟨inst', update_some_eq_some.mpr (.inr ⟨differ, found'⟩), named⟩
  installed {i inst} found' := by
    cases entering with
    | joined _ found =>
        rw [addListener, modify_of_found found] at found'
        rcases update_some_eq_some.mp found' with ⟨-, rfl⟩ | ⟨-, kept⟩
        · have given := wellFormed.installed found
          exact given
        · exact wellFormed.installed kept
    | rejected => exact wellFormed.installed found'
    | created =>
        rcases update_some_eq_some.mp found' with ⟨-, rfl⟩ | ⟨-, kept⟩
        · exact ⟨rfl, Nat.one_pos⟩
        · exact wellFormed.installed kept
  fresh {i} late := by
    cases entering with
    | joined _ found =>
        have absent := wellFormed.fresh late
        rw [addListener, modify_of_found found]
        refine (Function.update_of_ne ?_ ..).trans absent
        intro equal
        subst equal
        cases found.symm.trans absent
    | rejected => exact wellFormed.fresh late
    | created =>
        have after : state.nextInstance < i := late
        exact (Function.update_of_ne after.ne' ..).trans (wellFormed.fresh after.le)
  bound subscribed := by
    rw [entering.messageRoom]
    rcases entering.subscribed wellFormed subscribed with older | ⟨rfl, rfl⟩
    · exact wellFormed.bound older
    · exact room
  finished ended := by
    rw [entering.finished] at ended
    exact entering.isClosed (wellFormed.finished ended)

end EnterOutcome

theorem Shrinks.of_advances {server : Server} (advances : state.server.Advances server) :
    state.Shrinks { state with server := server } where
  server := advances
  nextInstance := rfl
  rpMap := id
  instances found := ⟨_, found, rfl, rfl, rfl, fun _ => id⟩
  survives found := ⟨_, found⟩

theorem WellFormed.accept (wellFormed : state.WellFormed) {hdl : ConnectionHdl}
    (absent : state.server hdl = none) :
    { state with server := state.server.put hdl .accepted }.WellFormed where
  registered := wellFormed.registered
  installed := wellFormed.installed
  fresh := wellFormed.fresh
  bound {roomstr other} subscribed := by
    have room : state.messageRoom other = some roomstr := wellFormed.bound subscribed
    have differ : other ≠ hdl := by
      intro equal
      subst equal
      cases room.symm.trans (messageRoom_of_absent absent)
    simpa [messageRoom, Server.handlers, differ] using room
  finished {other} ended := by
    by_cases equal : other = hdl
    · subst equal
      simp [Finished, Server.handlers, ServerConnection.accepted] at ended
    · have before : state.Finished other := by
        simpa [Finished, Server.handlers, equal] using ended
      rcases wellFormed.finished before with ⟨con, located, closed⟩
      exact ⟨con, by rw [← located]; exact state.server.put_of_ne _ equal, closed⟩

/-- The state in which a message handler enters the new room. -/
theorem WellFormed.moved (wellFormed : state.WellFormed) {hdl : ConnectionHdl}
    {con : ServerConnection} {left : State} (connected : state.server hdl = some con)
    (leaving : state.LeaveOutcome con.handlers.message hdl left) (roomstr : Bytes) :
    (left.setMessageHandler hdl roomstr).WellFormed := by
  have room := messageRoom_of_connected connected
  exact (wellFormed.shrinks leaving.shrinks).setMessageHandler
    (wellFormed.unsubscribed room leaving) roomstr

theorem WellFormed.transition (wellFormed : state.WellFormed)
    (transition : Transition libraries state event next) : next.WellFormed := by
  cases transition with
  | accept absent => exact wellFormed.accept absent
  | closing advances | terminate advances | expire advances | refused _ advances =>
      exact wellFormed.shrinks (.of_advances advances)
  | already => exact wellFormed
  | stuck connected _ _ _ _ leaving => exact wellFormed.moved connected leaving _
  | @entered hdl payload _ con _ _ left _ connected _ _ parsed _ leaving _ entering =>
      apply entering.wellFormed (wellFormed.moved connected leaving _) parsed
      rw [State.setMessageHandler, messageRoom_modifyHandlers, if_pos rfl, leaving.server,
        Server.handlers, connected]
      rfl
  | unhandled connected ended => exact wellFormed.setCloseRan ⟨_, connected, ended⟩
  | closed connected ended _ _ _ leaving =>
      apply (wellFormed.shrinks leaving.shrinks).setCloseRan
      exact leaving.shrinks.server.closed _ ⟨_, connected, ended⟩
  | upstream found _ _ advances pruned =>
      exact wellFormed.shrinks (afterHandler_shrinks found advances pruned)
  | stalled found _ _ _ advances pruned =>
      exact wellFormed.shrinks (afterStall_shrinks found advances pruned)

theorem finished_setCloseRan {hdl other : ConnectionHdl} {con : ServerConnection}
    (connected : state.server hdl = some con) :
    (state.setCloseRan hdl).Finished other ↔ other = hdl ∨ state.Finished other := by
  rw [setCloseRan, finished_modifyHandlers]
  by_cases equal : other = hdl
  · subst equal
    simp [Server.handlers, connected]
  · simp [equal]

theorem finished_setMessageHandler {hdl other : ConnectionHdl} (roomstr : Bytes) :
    (state.setMessageHandler hdl roomstr).Finished other ↔ state.Finished other := by
  rw [setMessageHandler, finished_modifyHandlers]
  split <;> rfl

/-- Only its close handler finishes a connection. -/
theorem finished_of_transition (transition : Transition libraries state event next)
    {hdl : ConnectionHdl} (ended : next.Finished hdl) :
    state.Finished hdl ∨ ∃ environment, event = .closeHandler hdl environment := by
  cases transition with
  | @accept other absent =>
      left
      by_cases equal : hdl = other
      · subst equal
        simp [Finished, Server.handlers, ServerConnection.accepted] at ended
      · simpa [Finished, Server.handlers, equal] using ended
  | closing advances | terminate advances | expire advances | refused _ advances =>
      left
      rwa [finished_of_advances advances] at ended
  | already => exact .inl ended
  | stuck _ _ _ _ _ leaving =>
      left
      rwa [finished_setMessageHandler, leaving.shrinks.finished] at ended
  | entered _ _ _ _ _ leaving _ entering =>
      left
      rwa [entering.finished, finished_setMessageHandler, leaving.shrinks.finished] at ended
  | unhandled connected =>
      rcases (finished_setCloseRan connected).mp ended with rfl | before
      · exact .inr ⟨_, rfl⟩
      · exact .inl before
  | closed connected _ _ _ _ leaving =>
      have located := connected
      rw [← leaving.server] at located
      rcases (finished_setCloseRan located).mp ended with rfl | before
      · exact .inr ⟨_, rfl⟩
      · rw [leaving.shrinks.finished] at before
        exact .inl before
  | upstream _ _ _ advances | stalled _ _ _ _ advances =>
      left
      rwa [finished_of_advances advances] at ended

/-- Only its own message subscribes a connection, while it is open. -/
theorem subscribed_of_transition (wellFormed : state.WellFormed)
    (transition : Transition libraries state event next) {roomstr : Bytes}
    {hdl : ConnectionHdl} (subscribed : next.Subscribed roomstr hdl) :
    state.Subscribed roomstr hdl ∨ ¬state.Finished hdl ∧
      ∃ payload environment, event = .message hdl .text payload environment ∧
        roomstr = trim payload := by
  cases transition with
  | accept | closing | terminate | expire | refused | already | unhandled =>
      exact .inl subscribed
  | stuck _ _ _ _ _ leaving => exact .inl (leaving.shrinks.subscribed subscribed)
  | entered connected alive _ _ _ leaving _ entering =>
      rcases entering.subscribed (wellFormed.moved connected leaving _) subscribed with
        older | ⟨rfl, rfl⟩
      · exact .inl (leaving.shrinks.subscribed older)
      · refine .inr ⟨fun ended => ?_, _, _, rfl, rfl⟩
        rcases wellFormed.finished ended with ⟨con, located, closed⟩
        cases connected.symm.trans located
        cases alive.symm.trans closed
  | closed _ _ _ _ _ leaving => exact .inl (leaving.shrinks.subscribed subscribed)
  | upstream found _ _ advances pruned =>
      exact .inl ((afterHandler_shrinks found advances pruned).subscribed subscribed)
  | stalled found _ _ _ advances pruned =>
      exact .inl ((afterStall_shrinks found advances pruned).subscribed subscribed)

/-! ## Where the entries and the instances come from -/

theorem LeaveOutcome.rpMap_other {roomstr other : Bytes} {hdl : ConnectionHdl}
    (leaving : LeaveOutcome roomstr hdl state next) (differ : other ≠ roomstr) :
    next.rpMap other = state.rpMap other := by
  cases leaving with
  | unregistered => rfl
  | others => rfl
  | last =>
      simp only [closeRoom]
      split
      · rfl
      · exact Function.update_of_ne differ ..

/-- The target room of a message is registered after the old one was left exactly when it
was before. -/
theorem LeaveOutcome.rpMap_target {old roomstr : Bytes} {hdl : ConnectionHdl}
    (leaving : LeaveOutcome old hdl state next)
    (moves : old = roomstr → state.rpMap roomstr = none) :
    next.rpMap roomstr = state.rpMap roomstr := by
  by_cases same : roomstr = old
  · subst same
    cases leaving with
    | unregistered => rfl
    | others => rfl
    | last registered => cases registered.symm.trans (moves rfl)
  · exact leaving.rpMap_other same

/-- Entering a room adds at most the entry of a new instance. -/
theorem EnterOutcome.rpMap {environment : Environment} {hdl : ConnectionHdl}
    {roomstr tag roomid other : Bytes} {j : InstanceId}
    (entering : EnterOutcome environment hdl roomstr tag roomid state next)
    (registered : next.rpMap other = some j) :
    state.rpMap other = some j ∨
      other = roomstr ∧ state.rpMap roomstr = none ∧ j = state.nextInstance := by
  cases entering with
  | joined | rejected => exact .inl registered
  | created absent =>
      rcases update_some_eq_some.mp registered with ⟨rfl, rfl⟩ | ⟨-, kept⟩
      · exact .inr ⟨rfl, absent, rfl⟩
      · exact .inl kept

/-- Leaving a room closes an instance that has lost its last listener, and otherwise only
touches listener sets. -/
theorem LeaveOutcome.instances {roomstr : Bytes} {hdl : ConnectionHdl} {i : InstanceId}
    {inst' : Instance} (leaving : LeaveOutcome roomstr hdl state next)
    (found' : next.instances i = some inst') :
    ∃ inst, state.instances i = some inst ∧ inst'.roomstr = inst.roomstr ∧
      inst'.starts = inst.starts ∧
      (inst'.upstream = inst.upstream ∧ inst'.closes = inst.closes ∧
          inst'.reports = inst.reports ∨
        inst'.upstream = inst.upstream.close.1 ∧ inst'.closes = inst.closes + 1 ∧
          ∀ other, other ∉ inst'.listeners) := by
  cases leaving with
  | unregistered => exact ⟨inst', found', rfl, rfl, .inl ⟨rfl, rfl, rfl⟩⟩
  | others registered found =>
      rw [eraseListener, modify_of_found found] at found'
      rcases update_some_eq_some.mp found' with ⟨rfl, rfl⟩ | ⟨-, kept⟩
      · exact ⟨_, found, rfl, rfl, .inl ⟨rfl, rfl, rfl⟩⟩
      · exact ⟨inst', kept, rfl, rfl, .inl ⟨rfl, rfl, rfl⟩⟩
  | last registered found last =>
      rcases update_some_eq_some.mp found' with ⟨rfl, rfl⟩ | ⟨-, kept⟩
      · refine ⟨_, found, rfl, rfl, .inr ⟨rfl, rfl, ?_⟩⟩
        intro other member
        rcases OrderedSet.mem_erase.mp member with ⟨old, differ⟩
        exact differ (last other old)
      · exact ⟨inst', kept, rfl, rfl, .inl ⟨rfl, rfl, rfl⟩⟩

/-- An instance that is not registered under the room a connection leaves is not
touched. -/
theorem LeaveOutcome.instances_other {old : Bytes} {hdl : ConnectionHdl} {i : InstanceId}
    (leaving : LeaveOutcome old hdl state next) (differ : state.rpMap old ≠ some i) :
    next.instances i = state.instances i := by
  cases leaving with
  | unregistered => rfl
  | others registered found =>
      rw [eraseListener, modify_of_found found]
      refine Function.update_of_ne ?_ ..
      intro equal
      subst equal
      exact differ registered
  | last registered =>
      refine Function.update_of_ne ?_ ..
      intro equal
      subst equal
      exact differ registered

/-- The instances of the room a message asks for are not touched while the old one is
left. -/
theorem LeaveOutcome.instances_target {old roomstr : Bytes} {hdl : ConnectionHdl}
    {i : InstanceId} {inst : Instance} (leaving : LeaveOutcome old hdl state next)
    (wellFormed : state.WellFormed) (moves : old = roomstr → state.rpMap roomstr = none)
    (found : state.instances i = some inst) (named : inst.roomstr = roomstr) :
    next.instances i = some inst := by
  rw [← found]
  apply leaving.instances_other
  intro registered
  rcases wellFormed.registered registered with ⟨_, found', named'⟩
  cases found.symm.trans found'
  have same : old = roomstr := named'.symm.trans named
  rw [same, moves same] at registered
  cases registered

/-- Leaving a room drops the entry of no instance that it does not close. -/
theorem LeaveOutcome.entry_kept {roomstr other : Bytes} {hdl : ConnectionHdl} {i : InstanceId}
    {inst inst' : Instance} (leaving : LeaveOutcome roomstr hdl state next)
    (found : state.instances i = some inst) (found' : next.instances i = some inst')
    (same : inst'.closes = inst.closes) (entry : state.rpMap other = some i) :
    next.rpMap other = some i := by
  cases leaving with
  | unregistered => exact entry
  | others => exact entry
  | last owner foundOwner =>
      simp only [closeRoom]
      split
      · exact entry
      · refine update_none_eq_some.mpr ⟨?_, entry⟩
        intro equal
        subst equal
        cases owner.symm.trans entry
        cases foundOwner.symm.trans found
        rcases update_some_eq_some.mp found' with ⟨-, rfl⟩ | ⟨differ, -⟩
        · exact absurd same (Nat.succ_ne_self _)
        · exact differ rfl

/-- Entering a room drops no entry. -/
theorem EnterOutcome.entry_kept {environment : Environment} {hdl : ConnectionHdl}
    {roomstr tag roomid other : Bytes} {i : InstanceId}
    (entering : EnterOutcome environment hdl roomstr tag roomid state next)
    (entry : state.rpMap other = some i) : next.rpMap other = some i := by
  cases entering with
  | joined | rejected => exact entry
  | created absent =>
      refine update_some_eq_some.mpr (.inr ⟨?_, entry⟩)
      intro same
      rw [same] at entry
      cases absent.symm.trans entry

/-- A handler that does not report under a room string drops no entry of that string. -/
theorem afterHandler_entry_kept {i j : InstanceId} {inst : Instance} {upstream : Upstream}
    {effects : List Effect} {server : Server} {listeners : Listeners} {count : Nat}
    {roomstr : Bytes} (entry : state.rpMap roomstr = some j)
    (spared : reportsClosure effects = true → roomstr ≠ inst.roomstr) :
    (state.afterHandler i inst upstream effects server listeners count).rpMap roomstr =
      some j := by
  simp only [afterHandler]
  split
  next reporting => exact update_none_eq_some.mpr ⟨spared reporting, entry⟩
  next => exact entry

/-- Entering a room leaves the instances as they are, except for the listener, or creates
one, which is registered under its room string. -/
theorem EnterOutcome.instances {environment : Environment} {hdl : ConnectionHdl}
    {roomstr tag roomid : Bytes} {i : InstanceId} {inst' : Instance}
    (entering : EnterOutcome environment hdl roomstr tag roomid state next)
    (parsed : parseRoomstr roomstr = some (tag, roomid))
    (found' : next.instances i = some inst') :
    (∃ inst, state.instances i = some inst ∧ inst'.roomstr = inst.roomstr ∧
      inst'.starts = inst.starts ∧ inst'.upstream = inst.upstream ∧
      inst'.closes = inst.closes ∧ inst'.reports = inst.reports) ∨
    i = state.nextInstance ∧ state.rpMap roomstr = none ∧ inst'.roomstr = roomstr ∧
      next.rpMap inst'.roomstr = some i ∧
      ∃ upstream, platformGetInstance tag = some upstream ∧
        upstream.isRoomValid roomid = true ∧
        inst'.upstream = (upstream.start roomid environment.getConnection).1 := by
  cases entering with
  | joined registered found =>
      rw [addListener, modify_of_found found] at found'
      rcases update_some_eq_some.mp found' with ⟨rfl, rfl⟩ | ⟨-, kept⟩
      · exact .inl ⟨_, found, rfl, rfl, rfl, rfl, rfl⟩
      · exact .inl ⟨inst', kept, rfl, rfl, rfl, rfl, rfl⟩
  | rejected => exact .inl ⟨inst', found', rfl, rfl, rfl, rfl, rfl⟩
  | @created upstream _ _ absent known valid =>
      rcases update_some_eq_some.mp found' with ⟨rfl, rfl⟩ | ⟨-, kept⟩
      · have named : upstream.platformName ++ ascii "_" ++ roomid = roomstr := by
          rw [parseRoomstr_eq parsed, platformName_of_getInstance known]
        refine .inr ⟨rfl, absent, named, ?_, _, known, valid, rfl⟩
        exact update_some_eq_some.mpr (.inl ⟨named, rfl⟩)
      · exact .inl ⟨inst', kept, rfl, rfl, rfl, rfl, rfl⟩

theorem WellFormed.step (wellFormed : state.WellFormed)
    (stepped : state.step libraries event = some next) : next.WellFormed :=
  wellFormed.transition (step_transition wellFormed stepped)

theorem wellFormed_of_reachable (reachable : (machine libraries).Reachable state) :
    state.WellFormed :=
  reachable.invariant wellFormed_initial fun _ wellFormed _ stepped => wellFormed.step stepped

end State

end DMProxy.Registry
