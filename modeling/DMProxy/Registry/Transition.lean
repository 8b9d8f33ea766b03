import DMProxy.Registry.Invariant
import DMProxy.Registry.Machine

/-!
# The transitions of the proxy

`Transition` says once what each event can do, in terms of the results computed in
`Operations`; the later proofs go by cases on it and never unfold `step`.  That a
message handler does not get to `install` on an instance it already listens to is a
consequence of the invariant.
-/

namespace DMProxy.Registry

open DMProxy.Collections
open DMProxy.Network
open DMProxy.Platforms
open DMProxy.Text

namespace State

variable {state before after : State}

/-! ## Leaving a room -/

/-- What erasing a connection from a room does: nothing when the room is not registered,
and otherwise the instance stays with its other listeners or is closed. -/
inductive LeaveOutcome (roomstr : Bytes) (hdl : ConnectionHdl) (state : State) : State → Prop where
  | unregistered (absent : state.rpMap roomstr = none) : LeaveOutcome roomstr hdl state state
  | others {i inst other} (registered : state.rpMap roomstr = some i)
      (found : state.instances i = some inst) (member : other ∈ inst.listeners)
      (differ : other ≠ hdl) :
      LeaveOutcome roomstr hdl state (state.eraseListener i hdl)
  | last {i inst} (registered : state.rpMap roomstr = some i)
      (found : state.instances i = some inst) (last : ∀ other ∈ inst.listeners, other = hdl) :
      LeaveOutcome roomstr hdl state (state.closeRoom roomstr hdl i inst)

/-- `leaveRoom` only relies on the registered instances existing and being installed. -/
theorem leaveRoom_outcome (roomstr : Bytes)
    (existing : ∀ {i}, state.rpMap roomstr = some i →
      ∃ inst, state.instances i = some inst ∧ inst.closeCallback = true)
    (running : state.halted = false) (environment : Environment) (hdl : ConnectionHdl) :
    LeaveOutcome roomstr hdl state (state.leaveRoom environment roomstr hdl) := by
  cases registered : state.rpMap roomstr with
  | none =>
      rw [leaveRoom_of_unregistered registered]
      exact .unregistered registered
  | some i =>
      rcases existing registered with ⟨inst, found, callback⟩
      by_cases last : ∀ other ∈ inst.listeners, other = hdl
      · rw [leaveRoom_of_last registered found callback running last]
        exact .last registered found last
      · simp only [not_forall, exists_prop] at last
        rcases last with ⟨other, member, differ⟩
        rw [leaveRoom_of_others registered found member differ]
        exact .others registered found member differ

theorem LeaveOutcome.server {roomstr : Bytes} {hdl : ConnectionHdl}
    (leaving : LeaveOutcome roomstr hdl before after) : after.server = before.server := by
  cases leaving <;> rfl

theorem LeaveOutcome.shrinks {roomstr : Bytes} {hdl : ConnectionHdl}
    (leaving : LeaveOutcome roomstr hdl before after) : before.Shrinks after := by
  cases leaving with
  | unregistered => exact .refl before
  | others registered found member differ =>
      rw [eraseListener, modify_of_found found]
      refine .of_update found (.refl _) id ⟨rfl, rfl, rfl⟩ ?_
      intro other member
      exact (OrderedSet.mem_erase.mp member).1
  | last registered found last =>
      refine .of_update found (.refl _) ?_ ⟨rfl, rfl, rfl⟩ ?_
      · intro other j entry
        split at entry
        · exact entry
        · exact (update_none_eq_some.mp entry).2
      · intro other member
        exact (OrderedSet.mem_erase.mp member).1

/-- A connection that left a room is not subscribed to it. -/
theorem LeaveOutcome.not_subscribed {roomstr : Bytes} {hdl : ConnectionHdl}
    (leaving : LeaveOutcome roomstr hdl before after) : ¬after.Subscribed roomstr hdl := by
  intro subscribed
  rcases subscribed with ⟨j, registered', inst', found', member⟩
  cases leaving with
  | unregistered absent => cases absent.symm.trans registered'
  | others registered found _ _ =>
      rw [eraseListener, modify_of_found found] at registered' found'
      cases registered.symm.trans registered'
      simp only [Function.update_self, Option.some.injEq] at found'
      subst found'
      simp at member
  | @last i inst registered found _ =>
      have same : j = i := by
        simp only [closeRoom] at registered'
        split at registered'
        · exact Option.some.inj (registered'.symm.trans registered)
        · simp at registered'
      subst same
      simp only [closeRoom, Function.update_self, Option.some.injEq] at found'
      subst found'
      simp at member

/-- Leaving a room and changing the handlers of a connection can be done in either
order. -/
theorem LeaveOutcome.of_modifyHandlers {roomstr : Bytes} {hdl other : ConnectionHdl}
    {change : Handlers → Handlers}
    (leaving : LeaveOutcome roomstr hdl (before.modifyHandlers other change) after) :
    ∃ left, LeaveOutcome roomstr hdl before left ∧ after = left.modifyHandlers other change := by
  cases leaving with
  | unregistered absent => exact ⟨before, .unregistered absent, rfl⟩
  | @others i _ _ registered found member differ =>
      exact ⟨before.eraseListener i hdl, .others registered found member differ, rfl⟩
  | @last i inst registered found last =>
      exact ⟨before.closeRoom roomstr hdl i inst, .last registered found last, rfl⟩

/-! ## Entering a room -/

/-- What the rest of a message handler does once the old room was left: join the
registered instance, refuse the request, or create an instance. -/
inductive EnterOutcome (environment : Environment) (hdl : ConnectionHdl)
    (roomstr tag roomid : Bytes) (state : State) : State → Prop where
  | joined {i inst} (registered : state.rpMap roomstr = some i)
      (found : state.instances i = some inst) :
      EnterOutcome environment hdl roomstr tag roomid state (state.addListener i hdl)
  | rejected {server} (absent : state.rpMap roomstr = none)
      (invalid : ∀ upstream, platformGetInstance tag = some upstream →
        upstream.isRoomValid roomid = false)
      (advances : state.server.Advances server) :
      EnterOutcome environment hdl roomstr tag roomid state { state with server := server }
  | created {upstream server listeners} (absent : state.rpMap roomstr = none)
      (known : platformGetInstance tag = some upstream)
      (valid : upstream.isRoomValid roomid = true)
      (advances : (state.setCloseHandler hdl roomstr).server.Advances server)
      (only : ∀ other ∈ listeners, other = hdl)
      (included : startFails environment upstream = false → hdl ∈ listeners) :
      EnterOutcome environment hdl roomstr tag roomid state
        (state.createRoom environment roomstr roomid upstream server listeners)

/-- A connection that is subscribed nowhere never gets to `install` on an instance that
is already registered. -/
theorem enterRoom_outcome {hdl : ConnectionHdl} {roomstr : Bytes}
    (existing : ∀ {i}, state.rpMap roomstr = some i → ∃ inst, state.instances i = some inst)
    (absent : ¬state.Subscribed roomstr hdl) (environment : Environment) (tag roomid : Bytes) :
    EnterOutcome environment hdl roomstr tag roomid state
      (state.enterRoom environment hdl roomstr tag roomid) := by
  simp only [enterRoom]
  cases registered : state.rpMap roomstr with
  | some i =>
      rcases existing registered with ⟨inst, found⟩
      have stranger : state.haveListener i hdl = false := by
        simp only [haveListener, found, decide_eq_false_iff_not]
        exact fun member => absent ⟨i, registered, inst, found, member⟩
      simp only [stranger, Bool.false_eq_true, if_false]
      exact .joined registered found
  | none =>
      cases known : platformGetInstance tag with
      | none =>
          dsimp only
          rw [reject_eq]
          exact .rejected registered (by simp [known]) (advances_reject ..)
      | some upstream =>
          dsimp only
          split
          next valid =>
            rcases install_allocate environment hdl roomstr roomid upstream state with
              ⟨server, listeners, result, advances, only, included⟩
            rw [result]
            exact .created registered known valid advances only included
          next invalid =>
            rw [reject_eq]
            refine .rejected registered ?_ (advances_reject ..)
            intro other found
            cases known.symm.trans found
            simpa using invalid

/-- The state after a handler of an instance ran without the lock. -/
def afterHandler (i : InstanceId) (inst : Instance) (upstream : Upstream)
    (effects : List Effect) (server : Server) (listeners : Listeners) (count : Nat)
    (state : State) : State :=
  { state with
    rpMap :=
      if reportsClosure effects then Function.update state.rpMap inst.roomstr none
      else state.rpMap
    instances := Function.update state.instances i (some { inst with
      upstream := upstream
      listeners := listeners
      reports := inst.reports + count })
    server := server
    crashed := decide (.fault ∈ effects) }

/-- An upstream handler admits no new listener. -/
theorem afterHandler_shrinks {i : InstanceId} {inst : Instance} {upstream : Upstream}
    {effects : List Effect} {server : Server} {listeners : Listeners} {count : Nat}
    (found : state.instances i = some inst) (advances : state.server.Advances server)
    (pruned : ∀ hdl ∈ listeners, hdl ∈ inst.listeners) :
    state.Shrinks (state.afterHandler i inst upstream effects server listeners count) := by
  refine .of_update found advances ?_ ⟨rfl, rfl, rfl⟩ pruned
  intro roomstr j entry
  split at entry
  · exact (update_none_eq_some.mp entry).2
  · exact entry

/-- The state after a handler of an instance reported closure while the registry lock is lost. -/
def afterStall (libraries : Libraries) (i : InstanceId) (inst : Instance)
    (activity : UpstreamEvent) (server : Server) (listeners : Listeners) (state : State) : State :=
  { state with
    instances := Function.update state.instances i (some { inst with
      upstream := inst.upstream.stalled libraries activity
      listeners := listeners
      reports := inst.reports + 1
      blocked := inst.blocked || activity.onStrand })
    server := server }

theorem afterStall_shrinks {libraries : Libraries} {i : InstanceId} {inst : Instance}
    {activity : UpstreamEvent} {server : Server} {listeners : Listeners}
    (found : state.instances i = some inst) (advances : state.server.Advances server)
    (pruned : ∀ hdl ∈ listeners, hdl ∈ inst.listeners) :
    state.Shrinks (state.afterStall libraries i inst activity server listeners) :=
  .of_update found advances id ⟨rfl, rfl, rfl⟩ pruned

end State

/-! ## The transitions -/

/-- What the events can do. -/
inductive Transition (libraries : Libraries) (state : State) : Event → State → Prop where
  | accept {hdl} (absent : state.server hdl = none) :
      Transition libraries state (.accept hdl)
        { state with server := state.server.put hdl .accepted }
  | closing {hdl server} (advances : state.server.Advances server) :
      Transition libraries state (.closing hdl) { state with server := server }
  | terminate {hdl server} (advances : state.server.Advances server) :
      Transition libraries state (.terminate hdl) { state with server := server }
  | expire {hdl server} (advances : state.server.Advances server) :
      Transition libraries state (.expire hdl) { state with server := server }
  | refused {hdl opcode payload environment server}
      (malformed : opcode ≠ .text ∨ parseRoomstr (trim payload) = none)
      (advances : state.server.Advances server) :
      Transition libraries state (.message hdl opcode payload environment)
        { state with server := server }
  | already {hdl payload environment con tag roomid}
      (connected : state.server hdl = some con)
      (parsed : parseRoomstr (trim payload) = some (tag, roomid))
      (same : con.handlers.message = trim payload)
      (registered : (state.rpMap (trim payload)).isSome = true) :
      Transition libraries state (.message hdl .text payload environment) state
  | stuck {hdl payload environment con tag roomid left}
      (connected : state.server hdl = some con) (alive : con.state = .open)
      (running : state.halted = false)
      (parsed : parseRoomstr (trim payload) = some (tag, roomid))
      (moves : con.handlers.message = trim payload → state.rpMap (trim payload) = none)
      (leaving : state.LeaveOutcome con.handlers.message hdl left)
      (halted : left.halted = true) :
      Transition libraries state (.message hdl .text payload environment)
        (left.setMessageHandler hdl (trim payload))
  | entered {hdl payload environment con tag roomid left next}
      (connected : state.server hdl = some con) (alive : con.state = .open)
      (running : state.halted = false)
      (parsed : parseRoomstr (trim payload) = some (tag, roomid))
      (moves : con.handlers.message = trim payload → state.rpMap (trim payload) = none)
      (leaving : state.LeaveOutcome con.handlers.message hdl left)
      (returned : left.halted = false)
      (entering : (left.setMessageHandler hdl (trim payload)).EnterOutcome environment hdl
        (trim payload) tag roomid next) :
      Transition libraries state (.message hdl .text payload environment) next
  | unhandled {hdl environment con} (connected : state.server hdl = some con)
      (ended : con.state = .closed) (pending : con.handlers.closeRan = false)
      (absent : con.handlers.close = none) :
      Transition libraries state (.closeHandler hdl environment) (state.setCloseRan hdl)
  | closed {hdl environment con roomstr left} (connected : state.server hdl = some con)
      (ended : con.state = .closed) (pending : con.handlers.closeRan = false)
      (running : state.halted = false)
      (installed : con.handlers.close = some roomstr)
      (leaving : state.LeaveOutcome roomstr hdl left) :
      Transition libraries state (.closeHandler hdl environment) (left.setCloseRan hdl)
  | upstream {i activity send inst upstream effects server listeners count}
      (found : state.instances i = some inst)
      (stepped : inst.upstream.step libraries inst.roomid activity = some (upstream, effects))
      (free : state.deadlocked = true → reportsClosure effects = false)
      (advances : state.server.Advances server)
      (pruned : ∀ hdl ∈ listeners, hdl ∈ inst.listeners)
      (counted : 0 < count ↔ reportsClosure effects = true) :
      Transition libraries state (.upstream i activity send)
        (state.afterHandler i inst upstream effects server listeners count)
  | stalled {i activity send inst upstream effects server listeners}
      (found : state.instances i = some inst)
      (stepped : inst.upstream.step libraries inst.roomid activity = some (upstream, effects))
      (locked : state.deadlocked = true) (reporting : reportsClosure effects = true)
      (advances : state.server.Advances server)
      (pruned : ∀ hdl ∈ listeners, hdl ∈ inst.listeners) :
      Transition libraries state (.upstream i activity send)
        (state.afterStall libraries i inst activity server listeners)

namespace State

variable {libraries : Libraries} {state next : State} {event : Event}

theorem transport_advances {hdl : ConnectionHdl} {possible : ServerConnection → Bool}
    {change : ServerConnection → ServerConnection}
    (stepped : state.transport hdl possible change = some next)
    (same : ∀ con, (change con).handlers = con.handlers)
    (stays : ∀ con, possible con = true → con.state = .closed → (change con).state = .closed) :
    ∃ server, state.server.Advances server ∧ next = { state with server := server } := by
  simp only [transport] at stepped
  cases connected : state.server hdl with
  | none => simp [connected] at stepped
  | some con =>
      simp only [connected] at stepped
      split at stepped
      next allowed =>
        cases stepped
        exact ⟨_, Server.advances_put connected (same con) (stays con allowed), rfl⟩
      next => cases stepped

/-- A connection that left the room its message handler carries is subscribed to no
room. -/
theorem WellFormed.unsubscribed (wellFormed : state.WellFormed) {roomstr : Bytes}
    {hdl : ConnectionHdl} {left : State} (room : state.messageRoom hdl = some roomstr)
    (leaving : state.LeaveOutcome roomstr hdl left) (other : Bytes) :
    ¬left.Subscribed other hdl := by
  intro subscribed
  have same := wellFormed.bound (leaving.shrinks.subscribed subscribed)
  rw [room, Option.some.injEq] at same
  subst same
  exact leaving.not_subscribed subscribed

/-- Leaving a room after a handler of the connection was changed. -/
theorem WellFormed.leaveRoom_modifyHandlers (wellFormed : state.WellFormed)
    (running : state.halted = false) (environment : Environment) (roomstr : Bytes)
    (hdl : ConnectionHdl) (change : Handlers → Handlers) :
    ∃ left, state.LeaveOutcome roomstr hdl left ∧
      (state.modifyHandlers hdl change).leaveRoom environment roomstr hdl =
        left.modifyHandlers hdl change := by
  have outcome := @leaveRoom_outcome (state.modifyHandlers hdl change) roomstr
    (fun registered => by
      rcases wellFormed.registered registered with ⟨inst, found, -⟩
      exact ⟨inst, found, (wellFormed.installed found).1⟩)
    running environment hdl
  exact outcome.of_modifyHandlers

/-- The message handler, once the text was found well formed and the lock is free. -/
theorem subscribe_transition (wellFormed : state.WellFormed) {hdl : ConnectionHdl}
    {payload tag roomid : Bytes} {con : ServerConnection}
    (connected : state.server hdl = some con) (alive : con.state = .open)
    (running : state.halted = false)
    (parsed : parseRoomstr (trim payload) = some (tag, roomid)) (environment : Environment) :
    Transition libraries state (.message hdl .text payload environment)
      (state.subscribe environment con.handlers.message hdl (trim payload) tag roomid) := by
  have room := messageRoom_of_connected connected
  simp only [subscribe]
  split
  next early => exact .already connected parsed early.1 (early.1 ▸ early.2)
  next late =>
    have moves : con.handlers.message = trim payload → state.rpMap (trim payload) = none := by
      intro same
      rw [same] at late
      simpa using late
    obtain ⟨left, leaving, moved⟩ := wellFormed.leaveRoom_modifyHandlers running environment
      con.handlers.message hdl fun handlers => { handlers with message := trim payload }
    rw [setMessageHandler, moved]
    split
    next halted => exact .stuck connected alive running parsed moves leaving halted
    next returned =>
      refine .entered connected alive running parsed moves leaving
        (Bool.not_eq_true _ ▸ returned) ?_
      refine enterRoom_outcome (fun registered => ?_) ?_ environment tag roomid
      · rcases (wellFormed.shrinks leaving.shrinks).registered registered with ⟨inst, found, -⟩
        exact ⟨inst, found⟩
      · exact wellFormed.unsubscribed room leaving (trim payload)

theorem receive_transition (wellFormed : state.WellFormed) {hdl : ConnectionHdl}
    {opcode : Opcode} {payload : Bytes} {environment : Environment}
    (intact : state.crashed = false)
    (stepped : state.receive hdl opcode payload environment = some next) :
    Transition libraries state (.message hdl opcode payload environment) next := by
  simp only [receive] at stepped
  cases connected : state.server hdl with
  | none => simp [connected] at stepped
  | some con =>
      simp only [connected] at stepped
      split at stepped
      next => cases stepped
      next alive =>
        split at stepped
        next => cases stepped
        next free =>
          cases stepped
          simp only [onServerMessage]
          split
          next binary => exact .refused (.inl binary) (.refl _)
          next text =>
            have textual : opcode = .text := not_not.mp text
            subst textual
            cases parsed : parseRoomstr (trim payload) with
            | none => exact .refused (.inr parsed) (advances_reject ..)
            | some parts =>
                have running : state.halted = false := by
                  simpa [needsLock, parsed, halted, intact] using free
                exact subscribe_transition wellFormed connected (not_not.mp alive) running
                  parsed environment

theorem runCloseHandler_transition (wellFormed : state.WellFormed) {hdl : ConnectionHdl}
    {environment : Environment} (intact : state.crashed = false)
    (stepped : state.runCloseHandler hdl environment = some next) :
    Transition libraries state (.closeHandler hdl environment) next := by
  simp only [runCloseHandler] at stepped
  cases connected : state.server hdl with
  | none => simp [connected] at stepped
  | some con =>
      simp only [connected] at stepped
      split at stepped
      next => cases stepped
      next due =>
        have due : con.state = .closed ∧ con.handlers.closeRan = false := by simpa using due
        cases installed : con.handlers.close with
        | none =>
            simp only [installed, Option.some.injEq] at stepped
            subst stepped
            exact .unhandled connected due.1 due.2 installed
        | some roomstr =>
            simp only [installed] at stepped
            split at stepped
            next => cases stepped
            next free =>
              have running : state.halted = false := by simpa [halted, intact] using free
              obtain ⟨left, leaving, moved⟩ := wellFormed.leaveRoom_modifyHandlers running
                environment roomstr hdl fun handlers => { handlers with closeRan := true }
              cases stepped
              rw [onServerClose, setCloseRan, moved]
              exact .closed connected due.1 due.2 running installed leaving

/-- A handler of the upstream side that comes back from its report can have the registry lock. -/
theorem unlocked_of_reporting {effects : List Effect}
    (free : state.deadlocked = true → reportsClosure effects = false)
    (reporting : reportsClosure effects = true) : state.deadlocked = false := by
  by_contra locked
  cases (free (Bool.not_eq_false _ ▸ locked)).symm.trans reporting

theorem instances_setUpstream {i : InstanceId} {inst : Instance}
    (found : state.instances i = some inst) (upstream : Upstream) :
    (state.setUpstream i upstream).instances i = some { inst with upstream := upstream } := by
  simp [setUpstream, modify, found]

theorem instances_stall {i : InstanceId} {inst : Instance} (found : state.instances i = some inst)
    (libraries : Libraries) (activity : UpstreamEvent) :
    (state.stall libraries i activity).instances i =
      some { inst with
        upstream := inst.upstream.stalled libraries activity
        blocked := inst.blocked || activity.onStrand } := by
  simp [stall, modify, found]

/-- A handler that does not report, or that can have the registry lock. -/
theorem handler_transition (wellFormed : state.WellFormed) {i : InstanceId} {inst : Instance}
    {activity : UpstreamEvent} {upstream : Upstream} {effects : List Effect}
    (found : state.instances i = some inst) (intact : state.crashed = false)
    (acted : inst.upstream.step libraries inst.roomid activity = some (upstream, effects))
    (free : state.deadlocked = true → reportsClosure effects = false) (send : SendOutcome) :
    Transition libraries state (.upstream i activity send)
      ((state.setUpstream i upstream).runEffects send state.deadlocked i effects) := by
  obtain ⟨server, listeners, count, result, advances, pruned, counted⟩ :=
    runEffects_returning send effects (instances_setUpstream found upstream)
      (wellFormed.installed found).1 intact free
  rw [setUpstream, modify_of_found found] at result ⊢
  rw [result]
  simp only [Function.update_idem]
  exact @Transition.upstream libraries state i activity send inst upstream effects server
    listeners count found acted free advances pruned counted

/-- A handler that reports when the registry lock is lost. -/
theorem stall_transition (wellFormed : state.WellFormed) {i : InstanceId} {inst : Instance}
    {activity : UpstreamEvent} {upstream : Upstream} {effects : List Effect}
    (found : state.instances i = some inst)
    (acted : inst.upstream.step libraries inst.roomid activity = some (upstream, effects))
    (locked : state.deadlocked = true) (reporting : reportsClosure effects = true)
    (send : SendOutcome) :
    Transition libraries state (.upstream i activity send)
      ((state.stall libraries i activity).runEffects send true i effects) := by
  rcases runEffects_locked send (instances_stall found libraries activity)
    (wellFormed.installed found).1 reporting with ⟨server, listeners, result, advances, pruned⟩
  rw [result, stall, modify_of_found found, ← locked]
  simp only [Function.update_idem]
  exact @Transition.stalled libraries state i activity send inst upstream effects server
    listeners found acted locked reporting advances pruned

theorem runUpstream_transition (wellFormed : state.WellFormed) {i : InstanceId}
    {activity : UpstreamEvent} {send : SendOutcome} (intact : state.crashed = false)
    (stepped : state.runUpstream libraries i activity send = some next) :
    Transition libraries state (.upstream i activity send) next := by
  simp only [runUpstream] at stepped
  cases found : state.instances i with
  | none => simp [found] at stepped
  | some inst =>
      simp only [found] at stepped
      split at stepped
      next => cases stepped
      next =>
        cases acted : inst.upstream.step libraries inst.roomid activity with
        | none => simp [acted] at stepped
        | some outcome =>
            rcases outcome with ⟨upstream, effects⟩
            simp only [acted, Option.some.injEq] at stepped
            subst stepped
            by_cases stalls : state.deadlocked = true ∧ reportsClosure effects = true
            · rw [if_pos ((Bool.and_eq_true _ _).mpr stalls), stalls.1]
              exact stall_transition wellFormed found acted stalls.1 stalls.2 send
            · have free : state.deadlocked = true → reportsClosure effects = false :=
                fun locked => Bool.eq_false_iff.mpr fun reporting => stalls ⟨locked, reporting⟩
              rw [if_neg fun both => stalls ((Bool.and_eq_true _ _).mp both)]
              exact handler_transition wellFormed found intact acted free send

theorem step_transition (wellFormed : state.WellFormed)
    (stepped : state.step libraries event = some next) :
    Transition libraries state event next := by
  simp only [step] at stepped
  split at stepped
  next => cases stepped
  next intact =>
    have intact : state.crashed = false := by simpa using intact
    cases event with
    | accept hdl =>
        simp only [accept] at stepped
        cases absent : state.server hdl with
        | some con => simp [absent] at stepped
        | none =>
            simp only [absent, Option.some.injEq] at stepped
            subst stepped
            exact .accept absent
    | message hdl opcode payload environment =>
        exact receive_transition wellFormed intact stepped
    | closing hdl =>
        rcases transport_advances stepped (fun _ => rfl) (by simp +contextual) with
          ⟨server, advances, rfl⟩
        exact .closing advances
    | terminate hdl =>
        rcases transport_advances stepped (fun _ => rfl) (by simp) with ⟨server, advances, rfl⟩
        exact .terminate advances
    | closeHandler hdl environment =>
        exact runCloseHandler_transition wellFormed intact stepped
    | expire hdl =>
        rcases transport_advances stepped (fun _ => rfl) (fun _ _ ended => ended) with
          ⟨server, advances, rfl⟩
        exact .expire advances
    | upstream i activity send => exact runUpstream_transition wellFormed intact stepped

end State

end DMProxy.Registry
