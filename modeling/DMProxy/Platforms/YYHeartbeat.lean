import DMProxy.Platforms.YYTimer

/-!
# The heartbeat chain of YY

Every `login` response and every heartbeat stores a new timer in the one slot `m_hb_timer`.  A
timer that is overwritten there stays pending, and nothing can cancel it any more.
-/

namespace DMProxy.Platforms.YY

open DMProxy.Async
open DMProxy.Network
open DMProxy.Text
open DMProxy.Transition

/-- The connection has been open and no longer is. -/
def Gone : ClientConnection → Prop
  | .closing | .closed | .finished | .expired => True
  | .unset | .connecting | .open | .failed _ => False

/-- The connection has been open. -/
def Begun (connection : ClientConnection) : Prop :=
  connection = .open ∨ Gone connection

/-- Where a connection goes from there, it has been open, and does not open again. -/
structure Onward (before after : ClientConnection) : Prop where
  begun : Begun before → Begun after
  gone : Gone before → Gone after

theorem Onward.refl (connection : ClientConnection) : Onward connection connection := ⟨id, id⟩

theorem Onward.trans {first second third : ClientConnection} (before : Onward first second)
    (after : Onward second third) : Onward first third :=
  ⟨fun begun => after.begun (before.begun begun), fun gone => after.gone (before.gone gone)⟩

theorem onward_close (connection : ClientConnection) : Onward connection connection.close.1 := by
  cases connection with
  | «open» => exact ⟨fun _ => .inr trivial, fun gone => gone.elim⟩
  | _ => exact .refl _

/-- What was open is closing after a call of `close`. -/
theorem gone_close {connection : ClientConnection} (begun : Begun connection) :
    Gone connection.close.1 := by
  cases connection with
  | unset | connecting | failed => exact begun.elim (by simp) id
  | _ => trivial

/-- The call ends the instance: it is `close`, or the fail or close handler. -/
def Ends : Call → Prop
  | .close => True
  | .handle _ (.connection .terminated) => True
  | _ => False

/-- What a call can do with the timers. -/
inductive TimerMove (libraries : Libraries) (state : State) (call : Call) (next : State) :
    Prop where
  | keeps (timers : next.timers = state.timers) (hbTimer : next.hbTimer = state.hbTimer)
      (others : ¬LogsIn libraries call)
  | cancels {timer : TimerId} (held : state.hbTimer = some timer)
      (timers : next.timers =
        state.timers.cancel (fun other => other == timer) (.failure .timerAborted))
      (hbTimer : next.hbTimer = state.hbTimer) (others : ¬LogsIn libraries call)
  | logsIn {timer : TimerId} (login : LogsIn libraries call) (isOpen : state.connection = .open)
      (timers : next.timers = state.timers.start timer .running)
      (hbTimer : next.hbTimer = some timer)
  | finishes {index : Nat} {completion : Completion}
      (finished : Pending.finish admits completion state.timers index = some next.timers)
      (hbTimer : next.hbTimer = state.hbTimer) (others : ¬LogsIn libraries call)
  | fires {index : Nat} {timer : TimerId} {completion : Completion}
      (taken : state.timers.take index = some (timer, completion, next.timers))
      (hbTimer : next.hbTimer = state.hbTimer) (others : ¬LogsIn libraries call)
  | rearms {index : Nat} {timer later : TimerId} {completion : Completion}
      {rest : Pending TimerId Completion}
      (taken : state.timers.take index = some (timer, completion, rest))
      (isOpen : state.connection = .open) (timers : next.timers = rest.start later .running)
      (hbTimer : next.hbTimer = some later) (others : ¬LogsIn libraries call)
      (goesOn : ¬Ends call)

variable {libraries : Libraries} {roomid payload : Bytes} {answers : Answers} {state : State}

/-! ## The handlers -/

/-- Nothing but the connection and the packets changes. -/
structure SameTimers (before after : State) : Prop where
  timers : after.timers = before.timers
  hbTimer : after.hbTimer = before.hbTimer
  onward : Onward before.connection after.connection

theorem SameTimers.trans {first second third : State} (before : SameTimers first second)
    (after : SameTimers second third) : SameTimers first third :=
  ⟨after.timers.trans before.timers, after.hbTimer.trans before.hbTimer,
    before.onward.trans after.onward⟩

theorem sameTimers_closeAndReport (ec : Option ErrorCode) (state : State) :
    SameTimers state (closeAndReport ec state).1 := by
  cases ec with
  | none => exact ⟨rfl, rfl, .refl _⟩
  | some error => exact ⟨rfl, rfl, onward_close _⟩

theorem sameTimers_sendPacket (answers : Answers) (ec : Option ErrorCode) (packet : Bytes)
    (state : State) :
    SameTimers state (sendPacket answers ec packet state).1 := by
  simp only [sendPacket]
  split <;> exact ⟨rfl, rfl, .refl _⟩

/-- A packet is sent, and a failure is reported. -/
theorem sameTimers_send (answers : Answers) (ec : Option ErrorCode) (packet : Bytes)
    (state : State) :
    SameTimers state (closeAndReport (sendPacket answers ec packet state).2
      (sendPacket answers ec packet state).1).1 :=
  (sameTimers_sendPacket answers ec packet state).trans (sameTimers_closeAndReport _ _)

/-- The timer was cancelled, after something that did not touch it. -/
structure Cancelled (before after : State) : Prop where
  cancel : ∃ timer, before.hbTimer = some timer ∧ after.timers =
    before.timers.cancel (fun other => other == timer) (.failure .timerAborted)
  hbTimer : after.hbTimer = before.hbTimer
  onward : Onward before.connection after.connection

theorem SameTimers.cancelHbTimer {before after cancelled : State}
    (same : SameTimers before after) (held : cancelHbTimer after = some cancelled) :
    Cancelled before cancelled := by
  simp only [YY.cancelHbTimer, Option.map_eq_some_iff] at held
  rcases held with ⟨timer, set, rfl⟩
  refine ⟨⟨timer, same.hbTimer.symm.trans set, ?_⟩, same.hbTimer, same.onward⟩
  dsimp only
  rw [same.timers]

/-- What a message does with the timers. -/
inductive MessageMove (login : Prop) (before after : State) : Prop where
  | keeps (other : ¬login) (same : SameTimers before after)
  | cancels (other : ¬login) (cancelled : Cancelled before after)
  | logsIn {timer : TimerId} (login : login)
      (timers : after.timers = before.timers.start timer .running)
      (hbTimer : after.hbTimer = some timer)
      (onward : Onward before.connection after.connection)

theorem SameTimers.messageMove {login : Prop} {first second third : State}
    (before : SameTimers first second) (move : MessageMove login second third) :
    MessageMove login first third := by
  cases move with
  | keeps other same => exact .keeps other (before.trans same)
  | cancels other cancelled =>
      rcases cancelled with ⟨⟨timer, set, timers⟩, hbTimer, onward⟩
      refine .cancels other ⟨⟨timer, before.hbTimer.symm.trans set, ?_⟩,
        hbTimer.trans before.hbTimer, before.onward.trans onward⟩
      rw [timers, before.timers]
  | logsIn login timers hbTimer onward =>
      rw [before.timers] at timers
      exact .logsIn login timers hbTimer (before.onward.trans onward)

theorem messageMove_dispatch (libraries : Libraries) (roomid : Bytes) (answers : Answers)
    (ec : Option ErrorCode) (message : Json) (state : State) :
    MessageMove ((message.member (ascii "response")).stringValue = ascii "login") state
      (dispatch libraries roomid answers ec message state).1 := by
  have unchanged : SameTimers state state := ⟨rfl, rfl, .refl _⟩
  simp only [dispatch]
  split
  next login =>
    have sent := sameTimers_send answers ec newLoginPacket state
    refine .logsIn login ?_ rfl sent.onward
    simp only [onLogin, setHbTimer, sent.timers]
  next other =>
    split
    next =>
      have sent := sameTimers_send answers ec (newInitPacket roomid) state
      simp only [onInit]
      split
      next =>
        split
        next => exact .keeps other sent
        next cancelled held => exact .cancels other (sent.cancelHbTimer held)
      next => exact .keeps other sent
    next =>
      split
      next => exact .keeps other unchanged
      next => split <;> exact .keeps other unchanged

theorem messageMove_onClientMessage (libraries : Libraries) (roomid payload : Bytes)
    (answers : Answers) (state : State) (opcode : Opcode) :
    MessageMove (response libraries payload = ascii "login") state
      (onClientMessage libraries roomid opcode payload answers state).1 := by
  have checked := sameTimers_closeAndReport (if opcode ≠ .text then some .badMessage else none)
    state
  simp only [onClientMessage, response]
  split
  next message parsed =>
    rw [parsed, Option.getD_some]
    exact checked.messageMove (messageMove_dispatch libraries roomid answers _ message _)
  next unparsed =>
    rw [unparsed, Option.getD_none]
    have reported := checked.trans (sameTimers_closeAndReport (some .badMessage) _)
    exact reported.messageMove
      (messageMove_dispatch libraries roomid answers (some .badMessage) .null _)

/-- How an instance ends: the timer is cancelled, or the null pointer is dereferenced, or the
connection was never open. -/
inductive End (state : State) (next : State) (effects : List Effect) : Prop where
  | cancels {timer : TimerId} (held : state.hbTimer = some timer)
      (timers : next.timers =
        state.timers.cancel (fun other => other == timer) (.failure .timerAborted))
      (gone : Begun state.connection → Gone next.connection)
  | faults (null : state.hbTimer = none) (timers : next.timers = state.timers)
      (fault : .fault ∈ effects)
  | fails (never : ¬Begun state.connection) (timers : next.timers = state.timers)
      (gone : Gone next.connection)

/-- What a call does with the timers and the connection. -/
structure Moved (libraries : Libraries) (state : State) (call : Call) (next : State)
    (effects : List Effect) : Prop where
  timers : TimerMove libraries state call next
  onward : Onward state.connection next.connection
  ends : Ends call → End state next effects

theorem moved_close : Moved libraries state .close (close state).1 (close state).2 := by
  cases held : state.hbTimer with
  | none =>
      have result : close state = (state, [.fault]) := by simp [close, cancelHbTimer, held]
      rw [result]
      exact ⟨.keeps rfl rfl id, .refl _, fun _ => .faults held rfl List.mem_cons_self⟩
  | some timer =>
      have cancelled : cancelHbTimer state = some
          { state with
            timers := state.timers.cancel (fun other => other == timer)
              (.failure .timerAborted) } := by
        simp [cancelHbTimer, held]
      simp only [close, cancelled]
      exact ⟨.cancels held rfl rfl id, onward_close _, fun _ => .cancels held rfl gone_close⟩

theorem moved_onClientClose (libraries : Libraries) (answers : Answers) (state : State) :
    Moved libraries state (.handle answers (.connection .terminated))
      (onClientClose { state with connection := .finished }).1
      (onClientClose { state with connection := .finished }).2 := by
  have onward : Onward state.connection .finished :=
    ⟨fun _ => .inr trivial, fun _ => trivial⟩
  rcases Option.eq_none_or_eq_some state.hbTimer with held | ⟨timer, held⟩
  · have null : cancelHbTimer { state with connection := .finished } = none := by
      simp [cancelHbTimer, held]
    simp only [onClientClose, null]
    exact ⟨.keeps rfl rfl id, onward, fun _ => .faults held rfl (by simp)⟩
  · have cancelled : cancelHbTimer { state with connection := .finished } = some
        { state with
          connection := .finished
          timers := state.timers.cancel (fun other => other == timer)
            (.failure .timerAborted) } := by
      simp [cancelHbTimer, held]
    simp only [onClientClose, cancelled]
    exact ⟨.cancels held rfl rfl id, onward, fun _ => .cancels held rfl fun _ => trivial⟩

theorem moved_connection {event : ClientEvent} {next : State} {effects : List Effect}
    (stepped : connectionStep libraries roomid answers state event = some (next, effects)) :
    Moved libraries state (.handle answers (.connection event)) next effects := by
  cases event with
  | message opcode payload =>
      simp only [connectionStep] at stepped
      split at stepped
      next isOpen =>
        rw [Option.some.injEq] at stepped
        have move := messageMove_onClientMessage libraries roomid payload answers state opcode
        rw [stepped] at move
        cases move with
        | keeps other same =>
            exact ⟨.keeps same.timers same.hbTimer other, same.onward, fun ends => by cases ends⟩
        | cancels other cancelled =>
            rcases cancelled with ⟨⟨timer, held, timers⟩, hbTimer, onward⟩
            exact ⟨.cancels held timers hbTimer other, onward, fun ends => by cases ends⟩
        | logsIn login timers hbTimer onward =>
            exact ⟨.logsIn login isOpen timers hbTimer, onward, fun ends => by cases ends⟩
      next => cases stepped
  | terminated =>
      simp only [connectionStep] at stepped
      split at stepped
      next ec failed =>
        cases stepped
        have never : ¬Begun state.connection := by
          rw [failed]
          exact fun begun => begun.elim (by simp) id
        exact ⟨.keeps rfl rfl id, ⟨fun _ => .inr trivial, fun _ => trivial⟩,
          fun _ => .fails never rfl trivial⟩
      next closed =>
        rw [Option.some.injEq] at stepped
        have moved := moved_onClientClose libraries answers state
        rw [stepped] at moved
        exact moved
      next => cases stepped
  | opened =>
      simp only [connectionStep] at stepped
      split at stepped
      next connecting =>
        cases stepped
        refine ⟨.keeps rfl rfl id, ⟨fun _ => .inl rfl, fun gone => ?_⟩, fun ends => by cases ends⟩
        rw [connecting] at gone
        exact gone.elim
      next => cases stepped
  | failed ec =>
      simp only [connectionStep] at stepped
      split at stepped
      next connecting =>
        cases stepped
        refine ⟨.keeps rfl rfl id, ⟨fun begun => ?_, fun gone => ?_⟩, fun ends => by cases ends⟩
        · rw [connecting] at begun
          exact begun.elim (by simp) False.elim
        · rw [connecting] at gone
          exact gone.elim
      next => cases stepped
  | closing | closed | expire =>
      simp only [connectionStep] at stepped
      split at stepped
      next =>
        cases stepped
        exact ⟨.keeps rfl rfl id, ⟨fun _ => .inr trivial, fun _ => trivial⟩,
          fun ends => by cases ends⟩
      next => cases stepped

theorem moved_timer {progress : Progress Completion} {next : State} {effects : List Effect}
    (stepped : timerStep answers state progress = some (next, effects)) :
    Moved libraries state (.handle answers (.timer progress)) next effects := by
  cases progress with
  | finish index completion =>
      simp only [timerStep, Option.map_eq_some_iff, Prod.mk.injEq] at stepped
      rcases stepped with ⟨timers, finished, rfl, rfl⟩
      exact ⟨.finishes finished rfl id, .refl _, fun ends => by cases ends⟩
  | run index =>
      simp only [timerStep, Option.map_eq_some_iff] at stepped
      rcases stepped with ⟨⟨timer, completion, rest⟩, taken, handled⟩
      have result := congrArg Prod.fst handled
      dsimp only at result
      rw [← result]
      simp only [handleHeartbeat]
      split
      next error _ =>
        have reported := sameTimers_closeAndReport (some error) { state with timers := rest }
        have rested := reported.timers
        dsimp only at rested
        rw [← rested] at taken
        exact ⟨.fires taken reported.hbTimer id, reported.onward, fun ends => by cases ends⟩
      next =>
        split
        next error failed =>
          have sent := sameTimers_send answers none (heartbeat answers.time)
            { state with timers := rest }
          rw [failed] at sent
          have rested := sent.timers
          dsimp only at rested
          rw [← rested] at taken
          exact ⟨.fires taken sent.hbTimer id, sent.onward, fun ends => by cases ends⟩
        next accepted =>
          have sent := sameTimers_sendPacket answers none (heartbeat answers.time)
            { state with timers := rest }
          have isOpen : state.connection = .open := by
            rw [sendPacket_error] at accepted
            dsimp only at accepted
            cases connection : state.connection <;> simp [connection, ClientConnection.send]
              at accepted ⊢
          refine ⟨.rearms taken isOpen ?_ rfl id id, sent.onward, fun ends => by cases ends⟩
          rw [setHbTimer, sent.timers]

/-- What a call does. -/
theorem moved_invoke {call : Call} {next : State} {effects : List Effect}
    (invoked : invoke libraries roomid state call = some (next, effects)) :
    Moved libraries state call next effects := by
  cases call with
  | close =>
      simp only [invoke, Option.some.injEq] at invoked
      have moved : Moved libraries state .close (close state).1 (close state).2 := moved_close
      rw [invoked] at moved
      exact moved
  | handle answers event =>
      cases event with
      | connection event => exact moved_connection invoked
      | timer progress => exact moved_timer invoked

/-! ## Runs -/

/-- At most one timer is pending, and none is armed once the instance has ended. -/
structure OneTimer (source : List Call × Process) : Prop where
  single : source.2.platform.timers.length ≤ 1
  ended : (∃ call ∈ source.1, Ends call) →
    ∀ operation ∈ source.2.platform.timers, operation.IsReady

/-- A `login` response is handled only while no timer is pending. -/
def Unarmed (libraries : Libraries) (before : State) (call : Call) : Prop :=
  LogsIn libraries call → before.connection = .open → before.timers = []

/-- The invariant of an instance with one heartbeat chain. -/
structure Chained (source : List Call × Process) : Prop extends OneTimer source where
  held : ∀ operation ∈ source.2.platform.timers,
    source.2.platform.hbTimer = some operation.request
  begun : source.2.platform.hbTimer.isSome = true → Begun source.2.platform.connection
  gone : source.2.faulted = false → (∃ call ∈ source.1, Ends call) →
    Gone source.2.platform.connection

/-- Without a timer in the slot none is pending. -/
theorem Chained.nil {source : List Call × Process} (chained : Chained source)
    (null : source.2.platform.hbTimer = none) : source.2.platform.timers = [] := by
  rw [List.eq_nil_iff_forall_not_mem]
  intro operation member
  cases null.symm.trans (chained.held operation member)

theorem isReady_cancel {timers : Pending TimerId Completion} {timer : TimerId}
    (all : ∀ operation ∈ timers, timer = operation.request) :
    ∀ operation ∈ timers.cancel (fun other => other == timer) (.failure .timerAborted),
      operation.IsReady := by
  intro operation member
  simp only [Pending.cancel, List.mem_map] at member
  rcases member with ⟨⟨request, status⟩, listed, rfl⟩
  cases all _ listed
  cases status with
  | running => exact ⟨.failure .timerAborted, by simp⟩
  | ready completion => exact ⟨completion, rfl⟩

/-- A pending timer keeps its place in the slot and its result under all but a new timer. -/
structure Shrinks (before after : Pending TimerId Completion) : Prop where
  length : after.length ≤ before.length
  requests : ∀ operation ∈ after, ∃ other ∈ before, other.request = operation.request
  ready : (∀ operation ∈ before, operation.IsReady) → ∀ operation ∈ after, operation.IsReady

theorem shrinks_cancel (timers : Pending TimerId Completion) (timer : TimerId) :
    Shrinks timers
      (timers.cancel (fun other => other == timer) (.failure .timerAborted)) where
  length := by simp [Pending.cancel]
  requests operation member := by
    simp only [Pending.cancel, List.mem_map] at member
    rcases member with ⟨other, listed, rfl⟩
    refine ⟨other, listed, ?_⟩
    split
    · split <;> rfl
    · rfl
  ready all := by
    rw [Pending.cancel_of_ready all]
    exact all

theorem shrinks_finish {timers next : Pending TimerId Completion} {index : Nat}
    {completion : Completion}
    (finished : Pending.finish admits completion timers index = some next) :
    Shrinks timers next := by
  rcases Pending.finish_split finished with ⟨before, request, after, rfl, rfl, -⟩
  refine ⟨by simp, fun operation member => ?_, fun all => ?_⟩
  · simp only [List.mem_append, List.mem_cons] at member
    rcases member with earlier | rfl | later
    · exact ⟨operation, by simp [earlier], rfl⟩
    · exact ⟨⟨request, .running⟩, by simp, rfl⟩
    · exact ⟨operation, by simp [later], rfl⟩
  · rcases all ⟨request, .running⟩ (by simp) with ⟨_, fixed⟩
    cases fixed

theorem shrinks_take {timers rest : Pending TimerId Completion} {index : Nat} {timer : TimerId}
    {completion : Completion} (taken : timers.take index = some (timer, completion, rest)) :
    Shrinks timers rest := by
  rcases Pending.take_split taken with ⟨before, after, rfl, rfl⟩
  refine ⟨by simp, fun operation member => ?_, fun all operation member => ?_⟩
  · rcases List.mem_append.mp member with earlier | later
    · exact ⟨operation, by simp [earlier], rfl⟩
    · exact ⟨operation, by simp [later], rfl⟩
  · apply all
    rcases List.mem_append.mp member with earlier | later
    · simp [earlier]
    · simp [later]

theorem chained_init (ec : Option ErrorCode) :
    Chained (machine libraries roomid ec).recording.init := by
  have nothing : (machine libraries roomid ec).recording.init.2.platform.timers = [] := by
    cases ec <;> rfl
  have null : (machine libraries roomid ec).recording.init.2.platform.hbTimer = none := by
    cases ec <;> rfl
  have noEnd : ¬∃ call ∈ (machine libraries roomid ec).recording.init.1, Ends call := by
    intro ends
    rcases ends with ⟨call, member, -⟩
    cases member
  refine ⟨⟨?_, fun ended => absurd ended noEnd⟩, ?_, ?_, fun _ ended => absurd ended noEnd⟩
  · rw [nothing]
    exact Nat.zero_le 1
  · rw [nothing]
    exact fun _ member => by cases member
  · rw [null]
    intro impossible
    cases impossible

/-- The timers that are left belong to the slot. -/
theorem Chained.held_of_shrinks {source : List Call × Process} (chained : Chained source)
    {timers : Pending TimerId Completion}
    (shrinks : Shrinks source.2.platform.timers timers) :
    ∀ operation ∈ timers, source.2.platform.hbTimer = some operation.request := by
  intro operation member
  rcases shrinks.requests operation member with ⟨other, listed, same⟩
  rw [← same]
  exact chained.held other listed

theorem Chained.ready_of_end {source : List Call × Process} (chained : Chained source)
    {next : State} {effects : List Effect} (ended : End source.2.platform next effects) :
    ∀ operation ∈ next.timers, operation.IsReady := by
  cases ended with
  | cancels held timers =>
      rw [timers]
      apply isReady_cancel
      intro operation member
      exact Option.some.inj (held.symm.trans (chained.held operation member))
  | faults null timers =>
      rw [timers, chained.nil null]
      exact fun _ member => by cases member
  | fails never timers =>
      have null : source.2.platform.hbTimer = none := by
        rw [← Option.not_isSome_iff_eq_none]
        exact fun set => never (chained.begun set)
      rw [timers, chained.nil null]
      exact fun _ member => by cases member

/-- A connection that has been open is gone once the instance has ended without a fault. -/
theorem Chained.gone_of_end {source : List Call × Process} (chained : Chained source)
    {next : State} {effects : List Effect} (ended : End source.2.platform next effects)
    (noFault : .fault ∉ effects) : Gone next.connection := by
  cases ended with
  | cancels held timers gone => exact gone (chained.begun (by rw [held]; rfl))
  | faults null timers fault => exact absurd fault noFault
  | fails never timers gone => exact gone

/-- The timers of an instance, before and after a call that sets none. -/
theorem Chained.step_of_shrinks {source next : List Call × Process} {call : Call}
    {effects : List Effect} (chained : Chained source)
    (running : source.2.faulted = false) (history : next.1 = source.1 ++ [call])
    (moved : Moved libraries source.2.platform call next.2.platform effects)
    (faulted : next.2.faulted = decide (.fault ∈ effects))
    (shrinks : Shrinks source.2.platform.timers next.2.platform.timers)
    (hbTimer : next.2.platform.hbTimer = source.2.platform.hbTimer) : Chained next := by
  have ends : (∃ call ∈ next.1, Ends call) → (∃ call ∈ source.1, Ends call) ∨ Ends call := by
    rw [history]
    simp [or_and_right, exists_or]
  refine ⟨⟨shrinks.length.trans chained.single, fun ended => ?_⟩, ?_, fun set => ?_,
    fun noFault ended => ?_⟩
  · rcases ends ended with earlier | here
    · exact shrinks.ready (chained.ended earlier)
    · exact chained.ready_of_end (moved.ends here)
  · rw [hbTimer]
    exact chained.held_of_shrinks shrinks
  · rw [hbTimer] at set
    exact moved.onward.begun (chained.begun set)
  · rcases ends ended with earlier | here
    · exact moved.onward.gone (chained.gone running earlier)
    · rw [faulted, decide_eq_false_iff_not] at noFault
      exact chained.gone_of_end (moved.ends here) noFault

/-- A new timer is the only one, when it is set while the connection is open. -/
theorem Chained.step_of_set {source next : List Call × Process} {call : Call} {timer : TimerId}
    {effects : List Effect} (chained : Chained source) (running : source.2.faulted = false)
    (history : next.1 = source.1 ++ [call]) (goesOn : ¬Ends call)
    (moved : Moved libraries source.2.platform call next.2.platform effects)
    (isOpen : source.2.platform.connection = .open)
    (timers : next.2.platform.timers = [⟨timer, .running⟩])
    (hbTimer : next.2.platform.hbTimer = some timer) : Chained next := by
  have alive : ¬∃ call ∈ next.1, Ends call := by
    rw [history]
    intro ends
    rcases ends with ⟨other, member, ended⟩
    rcases List.mem_append.mp member with earlier | here
    · have gone := chained.gone running ⟨other, earlier, ended⟩
      rw [isOpen] at gone
      exact gone
    · rw [List.mem_singleton.mp here] at ended
      exact goesOn ended
  refine ⟨⟨?_, fun ended => absurd ended alive⟩, ?_, fun _ => ?_,
    fun _ ended => absurd ended alive⟩
  · rw [timers]
    exact Nat.le_refl 1
  · rw [timers, hbTimer]
    intro operation member
    rw [List.mem_singleton.mp member]
  · exact moved.onward.begun (.inl isOpen)

theorem not_ends_of_logsIn {call : Call} (login : LogsIn libraries call) : ¬Ends call := by
  cases call with
  | close => exact login.elim
  | handle answers event =>
      cases event with
      | timer => exact login.elim
      | connection event =>
          cases event with
          | message => exact id
          | _ => exact login.elim

variable {ec : Option ErrorCode} {source next : List Call × Process} {call : Call}

theorem running_of_step
    (stepped : (machine libraries roomid ec).recording.step source call = some next) :
    source.2.faulted = false := by
  have taken := (Machine.step_recording.mp stepped).1
  simp only [machine] at taken
  split at taken
  next => cases taken
  next running => rwa [Bool.not_eq_true] at running

theorem Chained.step (chained : Chained source)
    (stepped : (machine libraries roomid ec).recording.step source call = some next)
    (unarmed : Unarmed libraries source.2.platform call) : Chained next := by
  have running := running_of_step stepped
  rcases Machine.step_recording.mp stepped with ⟨taken, history⟩
  rcases invoke_of_step taken with ⟨effects, invoked, faulted⟩
  have moved := moved_invoke invoked
  cases moved.timers with
  | keeps timers hbTimer =>
      have same : Shrinks source.2.platform.timers next.2.platform.timers := by
        rw [timers]
        exact ⟨Nat.le_refl _, fun operation member => ⟨operation, member, rfl⟩, id⟩
      exact chained.step_of_shrinks running history moved faulted same hbTimer
  | @cancels timer _ timers hbTimer =>
      have fewer := shrinks_cancel source.2.platform.timers timer
      rw [← timers] at fewer
      exact chained.step_of_shrinks running history moved faulted fewer hbTimer
  | finishes finished hbTimer =>
      exact chained.step_of_shrinks running history moved faulted (shrinks_finish finished) hbTimer
  | fires taken hbTimer =>
      exact chained.step_of_shrinks running history moved faulted (shrinks_take taken) hbTimer
  | logsIn login isOpen timers hbTimer =>
      rw [unarmed login isOpen] at timers
      exact chained.step_of_set running history (not_ends_of_logsIn login) moved isOpen timers
        hbTimer
  | @rearms index timer later completion rest taken isOpen timers hbTimer _ goesOn =>
      have single := chained.single
      rcases Pending.take_split taken with ⟨before, after, split, rfl⟩
      rw [split, List.length_append, List.length_cons] at single
      have nothing : before ++ after = [] := by
        rw [← List.length_eq_zero_iff, List.length_append]
        omega
      rw [nothing] at timers
      exact chained.step_of_set running history goesOn moved isOpen timers hbTimer

/-- A `login` response that finds a timer pending leaves two. -/
theorem unarmed_of_oneTimer
    (stepped : (machine libraries roomid ec).recording.step source call = some next)
    (one : OneTimer next) : Unarmed libraries source.2.platform call := by
  intro login _
  rcases Machine.step_recording.mp stepped with ⟨taken, -⟩
  rcases invoke_of_step taken with ⟨effects, invoked, -⟩
  cases (moved_invoke invoked).timers with
  | keeps _ _ others => exact absurd login others
  | cancels _ _ _ others => exact absurd login others
  | finishes _ _ others => exact absurd login others
  | fires _ _ others => exact absurd login others
  | rearms _ _ _ _ others => exact absurd login others
  | logsIn _ _ timers =>
      have single := one.single
      rw [timers, Pending.start, List.length_append, List.length_singleton] at single
      rw [← List.length_eq_zero_iff]
      omega

/-- There is one heartbeat chain, which ends with the instance, exactly along the runs in which
every `login` response is handled while no timer is pending. -/
theorem oneTimer_along_iff (libraries : Libraries) (roomid : Bytes) (ec : Option ErrorCode)
    (calls : List Call) :
    (machine libraries roomid ec).recording.Along (fun _ _ next => OneTimer next)
        (machine libraries roomid ec).recording.init calls ↔
      (machine libraries roomid ec).recording.Along
        (fun source call _ => Unarmed libraries source.2.platform call)
        (machine libraries roomid ec).recording.init calls := by
  constructor
  · intro one
    exact one.of_invariant (fun _ => True)
      (fun _ stepped one => ⟨trivial, unarmed_of_oneTimer stepped one⟩) trivial
  · intro unarmed
    refine unarmed.of_invariant Chained ?_ (chained_init ec)
    intro source next call chained stepped unarmed
    have kept := chained.step stepped unarmed
    exact ⟨kept, kept.toOneTimer⟩

/-- Every text is a `login` response. -/
def loginResponse : Libraries :=
  { (default : Libraries) with
    parseJson := fun _ => some (.object [(ascii "response", .string (ascii "login"))]) }

/-- Two `login` responses arrive. -/
def twoLogins : List Call :=
  [.handle ⟨none, 0⟩ (.connection .opened), .handle ⟨none, 0⟩ (.connection (.message .text [])),
    .handle ⟨none, 0⟩ (.connection (.message .text []))]

theorem not_oneTimer_along :
    ¬ ∀ (libraries : Libraries) (roomid : Bytes) (ec : Option ErrorCode) (calls : List Call),
      (machine libraries roomid ec).recording.Along (fun _ _ next => OneTimer next)
        (machine libraries roomid ec).recording.init calls := by
  intro along
  have single := (along loginResponse (ascii "1") none twoLogins).imp fun one => one.single
  have two : ¬(machine loginResponse (ascii "1") none).recording.Along
      (fun _ _ next => next.2.platform.timers.length ≤ 1)
      (machine loginResponse (ascii "1") none).recording.init twoLogins := by
    decide
  exact two single

end DMProxy.Platforms.YY
