import DMProxy.Registry.Callback
import DMProxy.Registry.Cleanup
import DMProxy.Registry.Reentrancy

/-!
# No instance outlives its subscribers

Once all client connections are gone, no room should be registered and every instance
should have been closed or have reported closure itself.  The argument gives every
registered room an owner, a connection that is not done with and whose message handler
carries the room string; the room goes away with its last owner.
-/

namespace DMProxy.Registry

open DMProxy.Collections
open DMProxy.Network
open DMProxy.Platforms
open DMProxy.Text
open DMProxy.Transition

namespace State

variable {libraries : Libraries} {state next : State} {event : Event}

/-- All client connections have closed, their close handlers have run, and no handler is
stuck. -/
def Quiescent (state : State) : Prop :=
  state.halted = false ∧ ∀ hdl roomstr, state.messageRoom hdl = some roomstr → state.Finished hdl

/-- No room is registered, and every instance that was started was closed or has reported
closure. -/
def TornDown (state : State) : Prop :=
  (∀ roomstr, state.rpMap roomstr = none) ∧
    ∀ i inst, state.instances i = some inst → 0 < inst.starts →
      0 < inst.closes ∨ 0 < inst.reports

/-- The connection is not done with, and its message handler carries the room string. -/
def Owns (state : State) (hdl : ConnectionHdl) (roomstr : Bytes) : Prop :=
  state.messageRoom hdl = some roomstr ∧ ¬state.Finished hdl

/-- If the event runs the close handler of a connection whose message handler carries the
string of a registered room, then that room is left by the handler, or the connection is
not subscribed to it and another one owns it.  If the event is a report of closure, no
other instance is registered under the room string. -/
def Tidy (libraries : Libraries) (state : State) : Event → Prop
  | .closeHandler hdl _ =>
      ∀ roomstr, state.messageRoom hdl = some roomstr → (state.rpMap roomstr).isSome = true →
        state.closeRoomstr hdl = some roomstr ∨
          ¬state.Subscribed roomstr hdl ∧ ∃ other, other ≠ hdl ∧ state.Owns other roomstr
  | event => state.NotReplaced libraries event

/-- Every registered room has an owner. -/
def Owned (state : State) : Prop :=
  ∀ roomstr i, state.rpMap roomstr = some i → ∃ hdl, state.Owns hdl roomstr

/-- Every started instance is registered, was closed, or has reported closure. -/
def Accounted (state : State) : Prop :=
  ∀ i inst, state.instances i = some inst → 0 < inst.starts →
    state.rpMap inst.roomstr = some i ∨ 0 < inst.closes ∨ 0 < inst.reports

theorem tornDown_of_quiescent (owned : state.Owned) (accounted : state.Accounted)
    (quiescent : state.Quiescent) : state.TornDown := by
  have unregistered : ∀ roomstr, state.rpMap roomstr = none := by
    intro roomstr
    cases registered : state.rpMap roomstr with
    | none => rfl
    | some i =>
        rcases owned roomstr i registered with ⟨hdl, room, unfinished⟩
        exact absurd (quiescent.2 hdl roomstr room) unfinished
  refine ⟨unregistered, fun i inst found started => ?_⟩
  exact (accounted i inst found started).resolve_left (by simp [unregistered])

theorem tornDown_initial : State.initial.TornDown :=
  ⟨fun _ => rfl, fun _ _ found => by cases found⟩

theorem Tidy.handlerBound (wellFormed : state.WellFormed)
    (tidy : state.Tidy libraries event) : state.HandlerBound event := by
  cases event with
  | closeHandler hdl environment =>
      intro roomstr subscribed
      rcases id subscribed with ⟨i, registered, -⟩
      rcases tidy roomstr (wellFormed.bound subscribed) (by simp [registered]) with
        carried | ⟨absent, -⟩
      · exact carried
      · exact absurd subscribed absent
  | _ => trivial

/-! ## Every started instance is accounted for -/

theorem Accounted.leave {old : Bytes} {hdl : ConnectionHdl}
    (accounted : state.Accounted) (leaving : LeaveOutcome old hdl state next) :
    next.Accounted := by
  intro i inst' found' started'
  rcases leaving.instances found' with ⟨inst, found, name, starts, evolved⟩
  rcases evolved with ⟨-, closes, reports⟩ | ⟨-, closes, -⟩
  · rw [name, closes, reports]
    rcases accounted i inst found (starts ▸ started') with entry | done
    · exact .inl (leaving.entry_kept found found' closes entry)
    · exact .inr done
  · exact .inr (.inl (closes ▸ Nat.succ_pos _))

theorem Accounted.transition (accounted : state.Accounted)
    (tidy : state.Tidy libraries event)
    (transition : Transition libraries state event next) : next.Accounted := by
  cases transition with
  | accept | closing | terminate | expire | refused | already | unhandled =>
      exact accounted
  | stuck _ _ _ _ _ leaving =>
      have left := accounted.leave leaving
      exact left
  | closed _ _ _ _ _ leaving =>
      have left := accounted.leave leaving
      exact left
  | entered _ _ _ parsed _ leaving _ entering =>
      have before := accounted.leave leaving
      intro i inst' found' started'
      rcases entering.instances parsed found' with
        ⟨inst, found, name, starts, -, closes, reports⟩ | ⟨-, -, -, entry, -⟩
      · rw [name, closes, reports]
        exact (before i inst found (starts ▸ started')).imp_left entering.entry_kept
      · exact .inl entry
  | @upstream k activity _ inst upstream effects _ _ count found stepped free _ _ counted =>
      intro i inst' found' started'
      rcases update_some_eq_some.mp found' with ⟨rfl, rfl⟩ | ⟨differ, kept⟩
      · by_cases reporting : reportsClosure effects = true
        · exact .inr (.inr (Nat.add_pos_right _ (counted.mpr reporting)))
        · rcases accounted _ inst found started' with entry | closed | reported
          · exact .inl (afterHandler_entry_kept entry fun reports => absurd reports reporting)
          · exact .inr (.inl closed)
          · exact .inr (.inr (Nat.add_pos_left reported _))
      · apply (accounted i inst' kept started').imp_left
        intro entry
        apply afterHandler_entry_kept entry
        intro reporting same
        rw [same] at entry
        exact differ (tidy (unlocked_of_reporting free reporting) inst upstream effects found
          stepped reporting i entry)
  | stalled found =>
      intro i inst' found' started'
      rcases update_some_eq_some.mp found' with ⟨rfl, rfl⟩ | ⟨-, kept⟩
      · exact .inr (.inr (Nat.succ_pos _))
      · exact accounted i inst' kept started'

/-! ## Every registered room is owned -/

/-- A room that stays registered after a connection left it has another listener. -/
theorem LeaveOutcome.other_subscribed {roomstr : Bytes} {hdl : ConnectionHdl} {i : InstanceId}
    (leaving : LeaveOutcome roomstr hdl state next) (running : next.halted = false)
    (registered' : next.rpMap roomstr = some i) :
    ∃ other, other ≠ hdl ∧ state.Subscribed roomstr other := by
  cases leaving with
  | unregistered absent => cases absent.symm.trans registered'
  | others registered found member differ =>
      exact ⟨_, differ, _, registered, _, found, member⟩
  | @last j inst registered found last =>
      have quiet : (inst.upstream.closeFails || inst.upstream.closeFaults) = false := running
      simp [closeRoom, quiet] at registered'

/-- The owners other than the connection that leaves, or one of the other listeners, own
what is still registered. -/
theorem Owned.leave (wellFormed : state.WellFormed) (cleaned : state.CleanedUp)
    (owned : state.Owned) {old : Bytes} {hdl : ConnectionHdl}
    (leaving : LeaveOutcome old hdl state next) (running : next.halted = false)
    {roomstr : Bytes} {i : InstanceId} (registered' : next.rpMap roomstr = some i) :
    ∃ owner, state.Owns owner roomstr ∧ (owner = hdl → roomstr ≠ old) := by
  by_cases same : roomstr = old
  · subst same
    rcases leaving.other_subscribed running registered' with ⟨other, differ, subscribed⟩
    have owns : state.Owns other roomstr :=
      ⟨wellFormed.bound subscribed, fun ended => cleaned other roomstr ended subscribed⟩
    exact ⟨other, owns, fun equal => absurd equal differ⟩
  · rcases owned roomstr i (leaving.shrinks.rpMap registered') with ⟨owner, owns⟩
    exact ⟨owner, owns, fun _ => same⟩

theorem Owns.of_handlers {hdl : ConnectionHdl} {roomstr : Bytes}
    (owns : state.Owns hdl roomstr)
    (same : next.server.handlers hdl = state.server.handlers hdl) : next.Owns hdl roomstr := by
  simpa only [Owns, messageRoom, Finished, same] using owns

theorem Owns.modifyHandlers {hdl other : ConnectionHdl} {roomstr : Bytes}
    (owns : state.Owns other roomstr) (differ : other ≠ hdl) (change : Handlers → Handlers) :
    (state.modifyHandlers hdl change).Owns other roomstr :=
  owns.of_handlers (by rw [handlers_modifyHandlers, if_neg differ])

/-- The connection that sent a message owns the room it asked for. -/
theorem owns_of_entered (wellFormed : state.WellFormed) {environment : Environment}
    {hdl : ConnectionHdl} {con : ServerConnection} {roomstr tag roomid : Bytes} {left : State}
    (connected : state.server hdl = some con) (alive : con.state = .open)
    (leaving : state.LeaveOutcome con.handlers.message hdl left)
    (entering : (left.setMessageHandler hdl roomstr).EnterOutcome environment hdl roomstr tag
      roomid next) : next.Owns hdl roomstr := by
  constructor
  · rw [entering.messageRoom, setMessageHandler, messageRoom_modifyHandlers, if_pos rfl,
      Server.handlers, leaving.server, connected]
    rfl
  · rw [entering.finished, finished_setMessageHandler, leaving.shrinks.finished]
    intro ended
    rcases wellFormed.finished ended with ⟨con', located, closed⟩
    cases connected.symm.trans located
    cases alive.symm.trans closed

/-- After its message a connection owns the room it asked for, and the others keep theirs. -/
theorem Owned.entered (wellFormed : state.WellFormed) (cleaned : state.CleanedUp)
    (owned : state.Owned) {environment : Environment} {hdl : ConnectionHdl}
    {con : ServerConnection} {target tag roomid : Bytes} {left : State}
    (connected : state.server hdl = some con) (alive : con.state = .open)
    (leaving : state.LeaveOutcome con.handlers.message hdl left)
    (returned : left.halted = false)
    (entering : (left.setMessageHandler hdl target).EnterOutcome environment hdl target tag
      roomid next) : next.Owned := by
  intro roomstr i registered'
  by_cases asked : roomstr = target
  · subst asked
    exact ⟨hdl, owns_of_entered wellFormed connected alive leaving entering⟩
  · have registered : left.rpMap roomstr = some i :=
      (entering.rpMap registered').resolve_right fun created => asked created.1
    rcases owned.leave wellFormed cleaned leaving returned registered with ⟨owner, owns, own⟩
    have differ : owner ≠ hdl := by
      intro equal
      have room := owns.1
      rw [equal, messageRoom_of_connected connected] at room
      exact own equal (Option.some.inj room).symm
    have kept : (left.setMessageHandler hdl target).Owns owner roomstr :=
      (owns.of_handlers (congrFun leaving.shrinks.server.handlers owner)).modifyHandlers differ _
    refine ⟨owner, ?_, ?_⟩
    · rw [entering.messageRoom]
      exact kept.1
    · rw [entering.finished]
      exact kept.2

/-- A room is handed over when its owner closes, unless the close handler leaves it. -/
theorem Owns.handedOver {hdl owner : ConnectionHdl} {environment : Environment}
    {roomstr : Bytes} (owns : state.Owns owner roomstr)
    (tidy : state.Tidy libraries (.closeHandler hdl environment))
    (registered : (state.rpMap roomstr).isSome = true) :
    owner = hdl ∧ state.closeRoomstr hdl = some roomstr ∨
      ∃ other, other ≠ hdl ∧ state.Owns other roomstr := by
  by_cases equal : owner = hdl
  · subst equal
    rcases tidy roomstr owns.1 registered with carried | ⟨-, handedOver⟩
    · exact .inl ⟨rfl, carried⟩
    · exact .inr handedOver
  · exact .inr ⟨owner, equal, owns⟩

theorem Owned.transition (wellFormed : state.WellFormed) (cleaned : state.CleanedUp)
    (owned : state.Owned) (tidy : state.Tidy libraries event)
    (transition : Transition libraries state event next) (running : next.halted = false) :
    next.Owned := by
  cases transition with
  | @accept hdl absent =>
      intro roomstr i registered
      rcases owned roomstr i registered with ⟨owner, owns⟩
      have differ : owner ≠ hdl := by
        intro equal
        subst equal
        cases owns.1.symm.trans (messageRoom_of_absent absent)
      exact ⟨owner, owns.of_handlers (by simp [Server.handlers, differ])⟩
  | closing advances | terminate advances | expire advances | refused _ advances =>
      intro roomstr i registered
      rcases owned roomstr i registered with ⟨owner, owns⟩
      exact ⟨owner, owns.of_handlers (congrFun advances.handlers owner)⟩
  | already => exact owned
  | stuck _ _ _ _ _ _ halted => cases halted.symm.trans running
  | entered connected alive _ _ _ leaving returned entering =>
      exact owned.entered wellFormed cleaned connected alive leaving returned entering
  | @unhandled hdl _ con connected _ _ absent =>
      intro roomstr i registered
      have entry : state.rpMap roomstr = some i := registered
      rcases owned roomstr i entry with ⟨owner, owns⟩
      rcases owns.handedOver tidy (by simp [entry]) with ⟨-, carried⟩ | ⟨other, differ, owns'⟩
      · rw [closeRoomstr_of_connected connected, absent] at carried
        cases carried
      · exact ⟨other, owns'.modifyHandlers differ _⟩
  | @closed hdl _ con bound left connected _ _ _ installed leaving =>
      intro roomstr i registered
      have entry := leaving.shrinks.rpMap registered
      rcases owned.leave wellFormed cleaned leaving running registered with ⟨owner, owns, own⟩
      rcases owns.handedOver tidy (by simp [entry]) with
        ⟨equal, carried⟩ | ⟨other, differ, owns'⟩
      · rw [closeRoomstr_of_connected connected, installed, Option.some.injEq] at carried
        exact absurd carried.symm (own equal)
      · have same := congrFun leaving.shrinks.server.handlers other
        exact ⟨other, (owns'.of_handlers same).modifyHandlers differ _⟩
  | upstream found _ _ advances pruned =>
      intro roomstr i registered'
      have registered := (afterHandler_shrinks found advances pruned).rpMap registered'
      rcases owned roomstr i registered with ⟨owner, owns⟩
      exact ⟨owner, owns.of_handlers (congrFun advances.handlers owner)⟩
  | stalled _ _ locked => simp [halted, afterStall, locked] at running

/-! ## Runs -/

/-- What the tidy steps keep; rooms are owned as long as no handler is stuck. -/
structure Supervised (state : State) : Prop where
  wellFormed : state.WellFormed
  cleaned : state.CleanedUp
  accounted : state.Accounted
  owned : state.halted = false → state.Owned

theorem supervised_initial : State.initial.Supervised where
  wellFormed := wellFormed_initial
  cleaned := cleanedUp_initial
  accounted := fun _ _ found => by cases found
  owned := fun _ _ _ registered => by cases registered

/-- A stuck handler stays stuck. -/
theorem running_of_step (stepped : state.step libraries event = some next)
    (transition : Transition libraries state event next) (running : next.halted = false) :
    state.halted = false := by
  have intact : state.crashed = false := by
    simp only [step] at stepped
    split at stepped
    next => cases stepped
    next sound => simpa using sound
  have unlocked : next.deadlocked = false := (Bool.or_eq_false_iff.mp running).1
  cases transition with
  | accept | closing | terminate | expire | refused | already | unhandled => exact running
  | stuck _ _ before | entered _ _ before | closed _ _ _ before => exact before
  | upstream =>
      have before : state.deadlocked = false := unlocked
      simp [halted, intact, before]
  | stalled _ _ locked => cases locked.symm.trans unlocked

theorem Supervised.step (supervised : state.Supervised)
    (stepped : state.step libraries event = some next) (tidy : state.Tidy libraries event) :
    next.Supervised := by
  have transition := step_transition supervised.wellFormed stepped
  have wellFormed := supervised.wellFormed
  refine ⟨wellFormed.transition transition, ?_, supervised.accounted.transition tidy transition,
    fun running => ?_⟩
  · exact (cleanedUp_iff wellFormed supervised.cleaned transition).mpr
      (tidy.handlerBound wellFormed)
  · exact (supervised.owned (running_of_step stepped transition running)).transition wellFormed
      supervised.cleaned tidy transition running

theorem messageRoom_of_modifyHandlers {state : State} {hdl other : ConnectionHdl}
    {change : Handlers → Handlers} {roomstr : Bytes}
    (room : (state.modifyHandlers hdl change).messageRoom other = some roomstr) :
    ∃ before, state.messageRoom other = some before := by
  rw [messageRoom_modifyHandlers] at room
  split at room
  · simp only [Option.map_eq_some_iff] at room
    rcases room with ⟨handlers, found, -⟩
    exact ⟨handlers.message, by simp [messageRoom, found]⟩
  · exact ⟨roomstr, room⟩

/-- A connection appears with its opening handshake. -/
theorem accepted_of_transition (transition : Transition libraries state event next)
    {hdl : ConnectionHdl} {roomstr : Bytes} (room : next.messageRoom hdl = some roomstr) :
    (∃ before, state.messageRoom hdl = some before) ∨ event = .accept hdl := by
  cases transition with
  | @accept other absent =>
      by_cases equal : hdl = other
      · exact .inr (by rw [equal])
      · exact .inl ⟨roomstr, by simpa [messageRoom, Server.handlers, equal] using room⟩
  | closing advances | terminate advances | expire advances | refused _ advances =>
      rw [messageRoom_of_advances advances] at room
      exact .inl ⟨roomstr, room⟩
  | already => exact .inl ⟨roomstr, room⟩
  | stuck _ _ _ _ _ leaving =>
      rw [← leaving.shrinks.messageRoom]
      exact .inl (messageRoom_of_modifyHandlers room)
  | entered _ _ _ _ _ leaving _ entering =>
      rw [entering.messageRoom] at room
      rw [← leaving.shrinks.messageRoom]
      exact .inl (messageRoom_of_modifyHandlers room)
  | unhandled => exact .inl (messageRoom_of_modifyHandlers room)
  | closed _ _ _ _ _ leaving =>
      rw [← leaving.shrinks.messageRoom]
      exact .inl (messageRoom_of_modifyHandlers room)
  | upstream _ _ _ advances | stalled _ _ _ _ advances =>
      rw [messageRoom_of_advances advances] at room
      exact .inl ⟨roomstr, room⟩

theorem accepted_of_exec {final : State} {events : List Event} (wellFormed : state.WellFormed)
    (executed : (machine libraries).exec state events = some final) {hdl : ConnectionHdl}
    {roomstr : Bytes} (room : final.messageRoom hdl = some roomstr) :
    (∃ before, state.messageRoom hdl = some before) ∨ .accept hdl ∈ events := by
  induction events generalizing state with
  | nil =>
      cases executed
      exact .inl ⟨roomstr, room⟩
  | cons event events ih =>
      cases stepped : (machine libraries).step state event with
      | none => simp [Machine.exec, stepped] at executed
      | some next =>
          rw [(machine libraries).exec_cons events stepped] at executed
          have transition := step_transition wellFormed stepped
          rcases ih (wellFormed.transition transition) executed with ⟨middle, room'⟩ | later
          · exact (accepted_of_transition transition room').imp_right fun equal => by simp [equal]
          · exact .inr (List.mem_cons_of_mem _ later)

/-- Only the connections that were accepted can be the ones a state waits for. -/
theorem quiescent_of_accepted {final : State} {events : List Event}
    (executed : (machine libraries).exec State.initial events = some final)
    (running : final.halted = false)
    (finished : ∀ hdl, .accept hdl ∈ events → final.Finished hdl) : final.Quiescent := by
  refine ⟨running, fun hdl roomstr room => ?_⟩
  rcases accepted_of_exec wellFormed_initial executed room with ⟨before, absent⟩ | accepted
  · cases absent
  · exact finished hdl accepted

end State

open State

/-- Along a run whose steps are all tidy, nothing is left once every client is gone. -/
theorem tornDown_along (libraries : Libraries) (events : List Event)
    (tidy : (machine libraries).Along (fun state event _ => state.Tidy libraries event)
      State.initial events) :
    (machine libraries).Along (fun _ _ next => next.Quiescent → next.TornDown)
      State.initial events := by
  refine Machine.Along.of_invariant Supervised ?_ supervised_initial tidy
  intro state next event supervised stepped tidy
  have after := supervised.step stepped tidy
  exact ⟨after, fun quiescent =>
    tornDown_of_quiescent (after.owned quiescent.1) after.accounted quiescent⟩

/-- A client creates a room and leaves it. -/
def visit : List Event :=
  [.accept 0, .message 0 .text (ascii "douyu_1") .calm, .terminate 0] ++ [.closeHandler 0 .calm]

/-- The visit is tidy and ends where every client is gone. -/
theorem tornDown_along_visit :
    (machine default).Along (fun state event _ => state.Tidy default event) State.initial visit ∧
      ∃ final, (machine default).exec State.initial visit = some final ∧ final.Quiescent ∧
        final.TornDown := by
  have tidy : (machine default).Along (fun state event _ => state.Tidy default event)
      State.initial visit := by
    refine Machine.along_append.mpr ⟨?_, fun middle executed => ?_⟩
    · exact fun _ _ => ⟨trivial, fun _ _ => ⟨trivial, fun _ _ => ⟨trivial, trivial⟩⟩⟩
    · have query : ((machine default).exec State.initial
          [.accept 0, .message 0 .text (ascii "douyu_1") .calm, .terminate 0]).map
            (fun middle => middle.messageRoom 0 == middle.closeRoomstr 0) = some true := by
        decide
      rw [executed, Option.map_some, Option.some.injEq, beq_iff_eq] at query
      refine fun next _ => ⟨fun roomstr room _ => .inl ?_, trivial⟩
      rw [← query, room]
  have ends : ((machine default).exec State.initial visit).any (fun final =>
      !final.halted && (final.server.handlers 0).map Handlers.closeRan == some true) = true := by
    decide
  rcases (Option.any_eq_true _ _).mp ends with ⟨final, executed, facts⟩
  simp only [Bool.and_eq_true, beq_iff_eq, Bool.not_eq_true'] at facts
  have quiescent : final.Quiescent := by
    refine quiescent_of_accepted executed facts.1 fun hdl accepted => ?_
    have only : hdl = 0 := by simpa [visit] using accepted
    rw [only]
    exact facts.2
  have along := tornDown_along default visit tidy
  exact ⟨tidy, final, executed, quiescent,
    along.final (fun _ => tornDown_initial) executed quiescent⟩

/-- Two clients subscribe to one room and leave in the order in which they came. -/
def bothLeave : List Event :=
  [.accept 0, .message 0 .text (ascii "douyu_1") .calm,
    .accept 1, .message 1 .text (ascii "douyu_1") .calm,
    .terminate 0, .closeHandler 0 .calm, .terminate 1, .closeHandler 1 .calm]

/-- The second client carries no close handler, so the room stays. -/
theorem not_tornDown_along :
    ¬ ∀ (libraries : Libraries) (events : List Event),
      (machine libraries).Along (fun _ _ next => next.Quiescent → next.TornDown)
        State.initial events := by
  intro along
  have query : ((machine default).exec State.initial bothLeave).any (fun final =>
      final.rpMap (ascii "douyu_1") == some 0 && !final.halted &&
        ((final.server.handlers 0).map Handlers.closeRan == some true) &&
        ((final.server.handlers 1).map Handlers.closeRan == some true)) = true := by
    decide
  rcases (Option.any_eq_true _ _).mp query with ⟨final, executed, facts⟩
  simp only [Bool.and_eq_true, beq_iff_eq, Bool.not_eq_true'] at facts
  rcases facts with ⟨⟨⟨registered, running⟩, first⟩, second⟩
  have quiescent : final.Quiescent := by
    refine quiescent_of_accepted executed running fun hdl accepted => ?_
    have either : hdl = 0 ∨ hdl = 1 := by simpa [bothLeave] using accepted
    rcases either with equal | equal
    · exact equal ▸ first
    · exact equal ▸ second
  have torn := (along default bothLeave).final (fun _ => tornDown_initial) executed quiescent
  cases (torn.1 (ascii "douyu_1")).symm.trans registered

end DMProxy.Registry
