import DMProxy.Registry.Reentrancy

/-!
# The life cycle of an instance

An instance is started once, by the request that creates it, and closed at most once, by
the handler that erases its last listener.  That handler then drops the instance from the
map, unless `close` keeps it from getting there.
-/

namespace DMProxy.Registry

open DMProxy.Collections
open DMProxy.Network
open DMProxy.Platforms
open DMProxy.Text
open DMProxy.Transition

namespace State

variable {libraries : Libraries} {state next : State} {event : Event}

/-- No instance on which `close` was called is registered. -/
def Retired (state : State) : Prop :=
  ∀ i inst, state.instances i = some inst → 0 < inst.closes →
    ∀ roomstr, state.rpMap roomstr ≠ some i

/-- What a step keeps to: every instance was started once and closed at most once; one
that was closed has no listener and is not registered; and one that is closed by this step
was registered before it. -/
structure LifeCycle (before after : State) : Prop where
  once : ∀ i inst, after.instances i = some inst → inst.starts = 1 ∧ inst.closes ≤ 1
  deserted : ∀ i inst, after.instances i = some inst → 0 < inst.closes →
    ∀ hdl, hdl ∉ inst.listeners
  retired : after.Retired
  registered : ∀ i inst', after.instances i = some inst' → 0 < inst'.closes →
    ∃ inst, before.instances i = some inst ∧
      (0 < inst.closes ∨ before.rpMap inst.roomstr = some i)

/-- The event makes no connection leave, as the last listener, a room whose `close` reports
an error or crashes. -/
def ClosesCleanly (state : State) : Event → Prop
  | .message hdl .text payload _ =>
      ∀ con tag roomid, state.server hdl = some con →
        parseRoomstr (trim payload) = some (tag, roomid) →
        (con.handlers.message = trim payload → state.rpMap (trim payload) = none) →
        ¬state.LastOf con.handlers.message hdl Upstream.closeFails ∧
          ¬state.LastOf con.handlers.message hdl Upstream.closeFaults
  | .closeHandler hdl _ =>
      ∀ roomstr, state.closeRoomstr hdl = some roomstr →
        ¬state.LastOf roomstr hdl Upstream.closeFails ∧
          ¬state.LastOf roomstr hdl Upstream.closeFaults
  | _ => True

/-- The part of the life cycle that holds in every run: as long as no handler got stuck,
an instance that was closed is not registered. -/
structure Instance.Lived (state : State) (i : InstanceId) (inst : Instance) : Prop where
  started : inst.starts = 1
  closed : inst.closes ≤ 1
  deserted : 0 < inst.closes → ∀ hdl, hdl ∉ inst.listeners
  retired : 0 < inst.closes → state.halted = false → ∀ roomstr, state.rpMap roomstr ≠ some i

def Lived (state : State) : Prop :=
  ∀ i inst, state.instances i = some inst → Instance.Lived state i inst

/-- An instance that is not called, and listens to no more connections. -/
theorem Instance.Lived.kept {i : InstanceId} {inst inst' : Instance}
    (lived : Instance.Lived state i inst) (starts : inst'.starts = inst.starts)
    (closes : inst'.closes = inst.closes) (subset : ∀ hdl ∈ inst'.listeners, hdl ∈ inst.listeners)
    (entries : next.halted = false → state.halted = false ∧
      ∀ roomstr, next.rpMap roomstr = some i → state.rpMap roomstr = some i) :
    Instance.Lived next i inst' where
  started := starts.trans lived.started
  closed := closes ▸ lived.closed
  deserted closed hdl member := lived.deserted (closes ▸ closed) hdl (subset hdl member)
  retired closed returned roomstr entry := by
    rcases entries returned with ⟨running, older⟩
    exact lived.retired (closes ▸ closed) running roomstr (older roomstr entry)

/-! ## One step -/

/-- A registered instance has not been closed while no handler got stuck. -/
theorem Lived.closes_eq_zero (lived : state.Lived) (running : state.halted = false)
    {roomstr : Bytes} {i : InstanceId} {inst : Instance}
    (registered : state.rpMap roomstr = some i) (found : state.instances i = some inst) :
    inst.closes = 0 := by
  by_contra closed
  exact (lived i inst found).retired (Nat.pos_of_ne_zero closed) running roomstr registered

/-- A step that touches no instance and no entry. -/
theorem Lived.of_same (lived : state.Lived) (instances : next.instances = state.instances)
    (rpMap : next.rpMap = state.rpMap) (halted : next.halted = state.halted) : next.Lived := by
  intro i inst found
  rw [instances] at found
  refine (lived i inst found).kept rfl rfl (fun _ => id) fun returned => ⟨halted ▸ returned, ?_⟩
  intro roomstr entry
  rwa [← rpMap]

/-- What is registered after `close` has returned. -/
theorem registered_of_closeRoom {roomstr other : Bytes} {hdl : ConnectionHdl}
    {i j : InstanceId} {inst : Instance}
    (returned : (state.closeRoom roomstr hdl i inst).halted = false)
    (entry : (state.closeRoom roomstr hdl i inst).rpMap other = some j) :
    other ≠ roomstr ∧ state.rpMap other = some j := by
  have clean : (inst.upstream.closeFails || inst.upstream.closeFaults) = false := returned
  simp only [closeRoom, clean, Bool.false_eq_true, if_false] at entry
  exact update_none_eq_some.mp entry

theorem Lived.leave (lived : state.Lived) (wellFormed : state.WellFormed)
    (running : state.halted = false) {roomstr : Bytes} {hdl : ConnectionHdl}
    (leaving : LeaveOutcome roomstr hdl state next) : next.Lived := by
  intro i inst' found'
  cases leaving with
  | unregistered => exact lived i inst' found'
  | others registered found =>
      rw [eraseListener, modify_of_found found] at found' ⊢
      rcases update_some_eq_some.mp found' with ⟨rfl, rfl⟩ | ⟨-, kept⟩
      · refine (lived _ _ found).kept rfl rfl ?_ fun _ => ⟨running, fun _ => id⟩
        intro other member
        exact (OrderedSet.mem_erase.mp member).1
      · exact (lived i inst' kept).kept rfl rfl (fun _ => id) fun _ => ⟨running, fun _ => id⟩
  | @last j inst registered found last =>
      rcases update_some_eq_some.mp found' with ⟨rfl, rfl⟩ | ⟨-, kept⟩
      · have zero := lived.closes_eq_zero running registered found
        refine ⟨(lived _ _ found).started, by simp [zero], fun _ other member => ?_, ?_⟩
        · rcases OrderedSet.mem_erase.mp member with ⟨old, differ⟩
          exact differ (last other old)
        · intro _ returned other entry
          rcases registered_of_closeRoom returned entry with ⟨differ, old⟩
          exact differ ((wellFormed.roomstr_eq old found).symm.trans
            (wellFormed.roomstr_eq registered found))
      · refine (lived i inst' kept).kept rfl rfl (fun _ => id) fun returned => ⟨running, ?_⟩
        intro other entry
        exact (registered_of_closeRoom returned entry).2

theorem Lived.enter {environment : Environment} {hdl : ConnectionHdl}
    {roomstr tag roomid : Bytes} (lived : state.Lived) (running : state.halted = false)
    (entering : EnterOutcome environment hdl roomstr tag roomid state next) : next.Lived := by
  intro i inst' found'
  cases entering with
  | joined registered found =>
      have zero := lived.closes_eq_zero running registered found
      rw [addListener, modify_of_found found] at found' ⊢
      rcases update_some_eq_some.mp found' with ⟨rfl, rfl⟩ | ⟨-, kept⟩
      · have before := lived _ _ found
        exact ⟨before.started, before.closed, fun closed => absurd zero closed.ne',
          before.retired⟩
      · exact (lived i inst' kept).kept rfl rfl (fun _ => id) fun _ => ⟨running, fun _ => id⟩
  | rejected =>
      exact (lived i inst' found').kept rfl rfl (fun _ => id) fun _ => ⟨running, fun _ => id⟩
  | created =>
      rcases update_some_eq_some.mp found' with ⟨rfl, rfl⟩ | ⟨differ, kept⟩
      · exact ⟨rfl, Nat.zero_le 1, fun closed => absurd closed (Nat.lt_irrefl 0),
          fun closed => absurd closed (Nat.lt_irrefl 0)⟩
      · refine (lived i inst' kept).kept rfl rfl (fun _ => id) fun _ => ⟨running, ?_⟩
        intro other entry
        rcases update_some_eq_some.mp entry with ⟨-, equal⟩ | ⟨-, old⟩
        · exact absurd equal.symm differ
        · exact old

theorem Lived.transition (lived : state.Lived) (wellFormed : state.WellFormed)
    (intact : state.crashed = false)
    (transition : Transition libraries state event next) : next.Lived := by
  cases transition with
  | accept | closing | terminate | expire | refused | unhandled =>
      exact lived.of_same rfl rfl rfl
  | already => exact lived
  | stuck _ _ running _ _ leaving =>
      exact (lived.leave wellFormed running leaving).of_same rfl rfl rfl
  | @entered hdl payload _ _ _ _ left _ _ _ running _ _ leaving returned entering =>
      have moved : (left.setMessageHandler hdl (trim payload)).Lived :=
        (lived.leave wellFormed running leaving).of_same rfl rfl rfl
      exact moved.enter returned entering
  | closed _ _ _ running _ leaving =>
      exact (lived.leave wellFormed running leaving).of_same rfl rfl rfl
  | @upstream j _ _ inst upstream effects server listeners count found _ _ advances pruned =>
      have shrinks := @afterHandler_shrinks state j inst upstream effects server listeners count
        found advances pruned
      intro i inst' found'
      have entries : (state.afterHandler j inst upstream effects server listeners count).halted =
          false → state.halted = false ∧ ∀ roomstr,
            (state.afterHandler j inst upstream effects server listeners count).rpMap roomstr =
              some i → state.rpMap roomstr = some i := by
        intro returned
        have free : state.deadlocked = false := (Bool.or_eq_false_iff.mp returned).1
        exact ⟨by simp [halted, free, intact], fun roomstr entry => shrinks.rpMap entry⟩
      rcases update_some_eq_some.mp found' with ⟨rfl, rfl⟩ | ⟨-, kept⟩
      · exact (lived _ _ found).kept rfl rfl pruned entries
      · exact (lived i inst' kept).kept rfl rfl (fun _ => id) entries
  | @stalled j activity _ inst _ _ server listeners found _ locked _ _ pruned =>
      have stuck : (state.afterStall libraries j inst activity server listeners).halted = true := by
        simp [halted, afterStall, locked]
      intro i inst' found'
      rcases update_some_eq_some.mp found' with ⟨rfl, rfl⟩ | ⟨-, kept⟩
      · exact (lived _ _ found).kept rfl rfl pruned fun returned => by
          cases stuck.symm.trans returned
      · exact (lived i inst' kept).kept rfl rfl (fun _ => id) fun returned => by
          cases stuck.symm.trans returned

/-! ## Where close is called -/

/-- Leaving a room calls `close` on the instance registered under its string only. -/
theorem LeaveOutcome.closed {roomstr : Bytes} {hdl : ConnectionHdl} {i : InstanceId}
    {inst' : Instance} (wellFormed : state.WellFormed)
    (leaving : LeaveOutcome roomstr hdl state next) (found' : next.instances i = some inst')
    (closed : 0 < inst'.closes) :
    ∃ inst, state.instances i = some inst ∧
      (0 < inst.closes ∨ state.rpMap inst.roomstr = some i) := by
  cases leaving with
  | unregistered => exact ⟨inst', found', .inl closed⟩
  | others registered found =>
      rw [eraseListener, modify_of_found found] at found'
      rcases update_some_eq_some.mp found' with ⟨rfl, rfl⟩ | ⟨-, kept⟩
      · exact ⟨_, found, .inl closed⟩
      · exact ⟨inst', kept, .inl closed⟩
  | last registered found =>
      rcases update_some_eq_some.mp found' with ⟨rfl, rfl⟩ | ⟨-, kept⟩
      · rw [← wellFormed.roomstr_eq registered found] at registered
        exact ⟨_, found, .inr registered⟩
      · exact ⟨inst', kept, .inl closed⟩

/-- Entering a room closes nothing. -/
theorem EnterOutcome.closed {environment : Environment} {hdl : ConnectionHdl}
    {roomstr tag roomid : Bytes} {i : InstanceId} {inst' : Instance}
    (entering : EnterOutcome environment hdl roomstr tag roomid state next)
    (found' : next.instances i = some inst') (closed : 0 < inst'.closes) :
    ∃ inst, state.instances i = some inst ∧ inst.closes = inst'.closes := by
  cases entering with
  | joined registered found =>
      rw [addListener, modify_of_found found] at found'
      rcases update_some_eq_some.mp found' with ⟨rfl, rfl⟩ | ⟨-, kept⟩
      · exact ⟨_, found, rfl⟩
      · exact ⟨inst', kept, rfl⟩
  | rejected => exact ⟨inst', found', rfl⟩
  | created =>
      rcases update_some_eq_some.mp found' with ⟨rfl, rfl⟩ | ⟨-, kept⟩
      · cases closed
      · exact ⟨inst', kept, rfl⟩

/-- An instance that was closed was closed before, or registered. -/
theorem closed_of_transition (wellFormed : state.WellFormed)
    (transition : Transition libraries state event next) {i : InstanceId} {inst' : Instance}
    (found' : next.instances i = some inst') (closed : 0 < inst'.closes) :
    ∃ inst, state.instances i = some inst ∧
      (0 < inst.closes ∨ state.rpMap inst.roomstr = some i) := by
  cases transition with
  | accept | closing | terminate | expire | refused | already | unhandled =>
      exact ⟨inst', found', .inl closed⟩
  | stuck _ _ _ _ _ leaving => exact leaving.closed wellFormed found' closed
  | closed _ _ _ _ _ leaving => exact leaving.closed wellFormed found' closed
  | entered _ _ _ _ _ leaving _ entering =>
      rcases entering.closed found' closed with ⟨middle, foundMiddle, same⟩
      exact leaving.closed wellFormed foundMiddle (same ▸ closed)
  | upstream found | stalled found =>
      rcases update_some_eq_some.mp found' with ⟨rfl, rfl⟩ | ⟨-, kept⟩
      · exact ⟨_, found, .inl closed⟩
      · exact ⟨inst', kept, .inl closed⟩

/-! ## Closed and still registered -/

theorem Retired.leave (retired : state.Retired) (wellFormed : state.WellFormed)
    {roomstr : Bytes} {hdl : ConnectionHdl} (leaving : LeaveOutcome roomstr hdl state next)
    (returned : next.halted = false) : next.Retired := by
  intro i inst' found' closed other entry'
  have entry := leaving.shrinks.rpMap entry'
  rcases leaving.closed wellFormed found' closed with ⟨inst, found, before | registered⟩
  · exact retired i inst found before other entry
  · cases leaving with
    | unregistered => exact retired i inst' found' closed other entry
    | others owner foundOwner =>
        rw [eraseListener, modify_of_found foundOwner] at found'
        rcases update_some_eq_some.mp found' with ⟨rfl, rfl⟩ | ⟨-, kept⟩
        · exact retired _ _ foundOwner closed other entry
        · exact retired i inst' kept closed other entry
    | last owner foundOwner =>
        rcases update_some_eq_some.mp found' with ⟨rfl, -⟩ | ⟨-, kept⟩
        · have key := wellFormed.roomstr_eq entry foundOwner
          have room := wellFormed.roomstr_eq owner foundOwner
          exact (registered_of_closeRoom returned entry').1 (key.symm.trans room)
        · exact retired i inst' kept closed other entry

theorem Retired.enter {environment : Environment} {hdl : ConnectionHdl}
    {roomstr tag roomid : Bytes} (retired : state.Retired)
    (entering : EnterOutcome environment hdl roomstr tag roomid state next) : next.Retired := by
  intro i inst' found' closed other entry'
  rcases entering.closed found' closed with ⟨inst, found, same⟩
  rcases entering.rpMap entry' with entry | ⟨rfl, absent, rfl⟩
  · exact retired i inst found (same ▸ closed) other entry
  · cases entering with
    | joined registered => cases absent.symm.trans registered
    | rejected => cases absent.symm.trans entry'
    | created =>
        have fresh := Option.some.inj (found'.symm.trans (Function.update_self ..))
        subst fresh
        cases closed

/-- A room whose `close` does not return stays registered. -/
theorem not_retired_of_stuck {roomstr : Bytes} {hdl : ConnectionHdl}
    (running : state.halted = false) (leaving : LeaveOutcome roomstr hdl state next)
    (stuck : state.LastOf roomstr hdl Upstream.closeFails ∨
      state.LastOf roomstr hdl Upstream.closeFaults) : ¬next.Retired := by
  intro retired
  have halted : next.halted = true := by
    rcases leaving.halted_iff running with ⟨locks, crashes⟩
    rw [halted, Bool.or_eq_true, locks, crashes]
    exact stuck
  cases leaving with
  | unregistered => cases running.symm.trans halted
  | others registered found =>
      rw [eraseListener, modify_of_found found] at halted
      cases running.symm.trans halted
  | @last i inst registered found =>
      have fails : (inst.upstream.closeFails || inst.upstream.closeFaults) = true := halted
      apply retired i _ (Function.update_self ..) (Nat.succ_pos _) roomstr
      simp only [closeRoom, fails, if_true]
      exact registered

/-- From a state in which closed instances are not registered, a step leads to such a state
exactly when `close`, if it is called, returns. -/
theorem retired_iff (wellFormed : state.WellFormed) (retired : state.Retired)
    (transition : Transition libraries state event next) :
    next.Retired ↔ state.ClosesCleanly event := by
  cases transition with
  | accept | closing | terminate | expire => exact iff_of_true retired trivial
  | @refused _ opcode _ _ _ malformed =>
      cases opcode with
      | binary => exact iff_of_true retired trivial
      | text =>
          apply iff_of_true retired
          intro con tag roomid _ parsed
          cases (malformed.resolve_left (by simp)).symm.trans parsed
  | already connected _ same registered =>
      apply iff_of_true retired
      intro con tag roomid connected' _ moves
      cases connected.symm.trans connected'
      simp [moves same] at registered
  | @stuck hdl payload _ con _ _ left connected _ running parsed moves leaving halted =>
      have stuck : state.LastOf con.handlers.message hdl Upstream.closeFails ∨
          state.LastOf con.handlers.message hdl Upstream.closeFaults := by
        rcases leaving.halted_iff running with ⟨locks, crashes⟩
        rwa [State.halted, Bool.or_eq_true, locks, crashes] at halted
      apply iff_of_false
      · exact fun retired' => not_retired_of_stuck running leaving stuck retired'
      · intro clean
        exact stuck.elim (clean con _ _ connected parsed moves).1
          (clean con _ _ connected parsed moves).2
  | @entered hdl payload _ con _ _ left _ connected _ running _ _ leaving returned entering =>
      apply iff_of_true
      · have left' := retired.leave wellFormed leaving returned
        have moved : (left.setMessageHandler hdl (trim payload)).Retired := left'
        exact moved.enter entering
      · intro con' _ _ connected' _ _
        cases connected.symm.trans connected'
        exact leaving.not_lastOf running returned
  | unhandled connected _ _ absent =>
      apply iff_of_true retired
      intro roomstr bound
      rw [closeRoomstr_of_connected connected, absent] at bound
      cases bound
  | @closed hdl _ con roomstr left connected _ _ running installed leaving =>
      have bound := (closeRoomstr_of_connected connected).trans installed
      constructor
      · intro retired' other bound'
        cases bound.symm.trans bound'
        rw [← not_or]
        exact fun stuck => not_retired_of_stuck running leaving stuck retired'
      · intro clean
        rcases clean roomstr bound with ⟨noReport, noFault⟩
        have returned : left.halted = false := by
          rcases leaving.halted_iff running with ⟨locks, crashes⟩
          rw [halted, Bool.or_eq_false_iff, ← Bool.not_eq_true, ← Bool.not_eq_true, locks,
            crashes]
          exact ⟨noReport, noFault⟩
        have left' := retired.leave wellFormed leaving returned
        exact left'
  | upstream found _ _ advances pruned =>
      apply iff_of_true ?_ trivial
      intro i inst' found' closed roomstr entry'
      have entry := (afterHandler_shrinks found advances pruned).rpMap entry'
      rcases update_some_eq_some.mp found' with ⟨rfl, rfl⟩ | ⟨-, kept⟩
      · exact retired _ _ found closed roomstr entry
      · exact retired i inst' kept closed roomstr entry
  | stalled found =>
      apply iff_of_true ?_ trivial
      intro i inst' found' closed roomstr entry
      rcases update_some_eq_some.mp found' with ⟨rfl, rfl⟩ | ⟨-, kept⟩
      · exact retired _ _ found closed roomstr entry
      · exact retired i inst' kept closed roomstr entry

end State

open State

/-- Every instance is started once and closed at most once, when its last listener leaves
and it is dropped, and is out of use from then on, exactly along the runs in which `close`
neither reports an error nor crashes. -/
theorem lifeCycle_along_iff (libraries : Libraries) (events : List Event) :
    (machine libraries).Along (fun state _ next => state.LifeCycle next) State.initial events ↔
      (machine libraries).Along (fun state event _ => state.ClosesCleanly event)
        State.initial events := by
  have preserved : ∀ {state next : State} {event : Event}, state.WellFormed ∧ state.Lived →
      (machine libraries).step state event = some next → next.WellFormed ∧ next.Lived := by
    intro state next event holds stepped
    have transition := step_transition holds.1 stepped
    have intact : state.crashed = false := by
      by_contra crashed
      simp [machine, State.step, crashed] at stepped
    exact ⟨holds.1.transition transition, holds.2.transition holds.1 intact transition⟩
  have initial : State.initial.WellFormed ∧ State.initial.Lived :=
    ⟨wellFormed_initial, fun _ _ found => by cases found⟩
  rw [← Machine.along_iff_of_propagates (fun state => state.WellFormed ∧ state.Lived) Retired
    ClosesCleanly preserved
    (fun holds retired stepped =>
      retired_iff holds.1 retired (step_transition holds.1 stepped))
    initial fun _ _ found => by cases found]
  apply Machine.along_iff_of_invariant _ preserved ?_ initial
  intro state next event holds stepped
  have lived := (preserved holds stepped).2
  constructor
  · exact fun cycle => cycle.retired
  · intro retired
    refine ⟨fun i inst found => ⟨(lived i inst found).started, (lived i inst found).closed⟩,
      fun i inst found => (lived i inst found).deserted, retired, ?_⟩
    exact fun i inst' => closed_of_transition holds.1 (step_transition holds.1 stepped)

/-- The handler that erases the last listener of a huajiao room calls `close` while the
upstream connection is being made, and never gets to drop the room. -/
theorem not_lifeCycle_along :
    ¬ ∀ (libraries : Libraries) (events : List Event),
      (machine libraries).Along (fun state _ next => state.LifeCycle next)
        State.initial events := by
  intro along
  have query : ((machine default).exec State.initial earlyDisconnect).any (fun final =>
      (final.instances 0).any (fun inst => inst.closes == 1) &&
        final.rpMap (ascii "huajiao_123456789") == some 0) = true := by
    decide
  rcases (Option.any_eq_true _ _).mp query with ⟨final, executed, facts⟩
  simp only [Bool.and_eq_true, Option.any_eq_true, beq_iff_eq] at facts
  rcases facts with ⟨⟨inst, found, closed⟩, registered⟩
  have kept : (machine default).Along (fun _ _ next => next.Retired) State.initial
      earlyDisconnect := (along default earlyDisconnect).imp fun cycle => cycle.retired
  have retired : final.Retired := kept.final (fun _ _ found => by cases found) executed
  exact retired 0 inst found (by omega) _ registered

end DMProxy.Registry
