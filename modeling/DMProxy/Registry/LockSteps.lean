import DMProxy.Async.LockOrder
import DMProxy.Registry.Runs

/-!
# The locks that the handlers take

The machine of the proxy runs every handler in one step, and only notes that a handler waits for
ever.  Here each handler is the sequence of the lock operations it performs, as its lock guards
declare them, and the handlers of any number of threads are interleaved between these operations.
-/

namespace DMProxy.Registry

open DMProxy.Async
open DMProxy.Collections
open DMProxy.Network
open DMProxy.Platforms
open DMProxy.Text
open DMProxy.Transition

/-- The locks of the program. -/
inductive ProgramLock where
  /-- `rp_rw_mtx` -/
  | registry
  /-- `m_lmtx` of an instance -/
  | listeners (i : InstanceId)
  deriving DecidableEq, Repr

/-- The registry is locked first. -/
def ProgramLock.rank : ProgramLock → Nat
  | .registry => 0
  | .listeners _ => 1

abbrev LockSteps := List (LockStep ProgramLock)

/-- What runs in the scope of a `wlock_t` or an `rlock_t`. -/
def guarded (lock : ProgramLock) (mode : Mode) (body : LockSteps) : LockSteps :=
  .acquire lock mode :: (body ++ [.release lock])

/-! ## The operations of an instance -/

def addListenerLocks (i : InstanceId) : LockSteps :=
  guarded (.listeners i) .exclusive []

def eraseListenerLocks (i : InstanceId) : LockSteps :=
  guarded (.listeners i) .exclusive []

def haveListenerLocks (i : InstanceId) : LockSteps :=
  guarded (.listeners i) .shared []

def listenersCountLocks (i : InstanceId) : LockSteps :=
  guarded (.listeners i) .shared []

def publishLocks (i : InstanceId) : LockSteps :=
  guarded (.listeners i) .shared []

def onPlatformCloseLocks : LockSteps :=
  guarded .registry .exclusive []

/-- `m_close_callback` is `on_platform_close`. -/
def effectsLocks (i : InstanceId) : List Effect → LockSteps
  | [] | .fault :: _ => []
  | .publish _ :: rest => publishLocks i ++ effectsLocks i rest
  | .closeCallback :: rest => onPlatformCloseLocks ++ effectsLocks i rest

namespace State

def startLocks (environment : Environment) (i : InstanceId) (state : State) : LockSteps :=
  match state.instances i with
  | none => []
  | some inst => effectsLocks i (inst.upstream.start inst.roomid environment.getConnection).2

def closeLocks (i : InstanceId) (state : State) : LockSteps :=
  match state.instances i with
  | none => []
  | some inst => effectsLocks i inst.upstream.close.2

/-! ## The handlers of `main.cpp` -/

/-- The locks taken while `leaveRoom` runs. -/
def leaveRoomLocks (roomstr : Bytes) (hdl : ConnectionHdl) (state : State) : LockSteps :=
  match state.rpMap roomstr with
  | none => []
  | some i =>
      let erased := state.eraseListener i hdl
      eraseListenerLocks i ++ (listenersCountLocks i ++
        if erased.listenersCount i = 0 then erased.closeLocks i else [])

/-- The locks taken while `install` runs. -/
def installLocks (environment : Environment) (i : InstanceId) (state : State) : LockSteps :=
  addListenerLocks i ++ state.startLocks environment i

/-- The locks taken while `enterRoom` runs. -/
def enterRoomLocks (environment : Environment) (hdl : ConnectionHdl)
    (roomstr tag roomid : Bytes) (state : State) : LockSteps :=
  match state.rpMap roomstr with
  | some i =>
      haveListenerLocks i ++
        if state.haveListener i hdl then state.installLocks environment i
        else addListenerLocks i
  | none =>
      match platformGetInstance tag with
      | none => []
      | some upstream =>
          if upstream.isRoomValid roomid then
            (state.allocate upstream roomid).installLocks environment state.nextInstance
          else []

/-- The locks taken while `subscribe` runs, which holds the registry lock. -/
def subscribeLocks (environment : Environment) (oldRoomstr : Bytes) (hdl : ConnectionHdl)
    (roomstr tag roomid : Bytes) (state : State) : LockSteps :=
  guarded .registry .exclusive
    (if oldRoomstr = roomstr ∧ (state.rpMap oldRoomstr).isSome then []
    else
      let bound := state.setMessageHandler hdl roomstr
      let left := bound.leaveRoom environment oldRoomstr hdl
      bound.leaveRoomLocks oldRoomstr hdl ++
        if left.halted then [] else left.enterRoomLocks environment hdl roomstr tag roomid)

def onServerMessageLocks (environment : Environment) (oldRoomstr : Bytes)
    (hdl : ConnectionHdl) (opcode : Opcode) (payload : Bytes) (state : State) : LockSteps :=
  if opcode ≠ .text then []
  else
    match parseRoomstr (trim payload) with
    | none => []
    | some (tag, roomid) =>
        state.subscribeLocks environment oldRoomstr hdl (trim payload) tag roomid

def onServerCloseLocks (roomstr : Bytes) (hdl : ConnectionHdl) (state : State) : LockSteps :=
  guarded .registry .exclusive (state.leaveRoomLocks roomstr hdl)

/-- The locks that the handler of an event takes. -/
def eventLocks (libraries : Libraries) (state : State) : Event → LockSteps
  | .message hdl opcode payload environment =>
      match state.server hdl with
      | none => []
      | some con =>
          state.onServerMessageLocks environment con.handlers.message hdl opcode payload
  | .closeHandler hdl _ =>
      match state.closeRoomstr hdl with
      | none => []
      | some roomstr => (state.setCloseRan hdl).onServerCloseLocks roomstr hdl
  | .upstream i activity _ =>
      match state.instances i with
      | none => []
      | some inst =>
          match inst.upstream.step libraries inst.roomid activity with
          | none => []
          | some (_, effects) => effectsLocks i effects
  | .accept _ | .closing _ | .terminate _ | .expire _ => []

end State

/-! ## Sections that return and sections that do not -/

/-- What a thread holds in a critical section of `main.cpp`. -/
def insideRegistry : Held ProgramLock :=
  Function.update Held.nothing .registry (some .exclusive)

/-- Steps that can be taken and leave what is held as it was. -/
structure Neutral (held : Held ProgramLock) (steps : LockSteps) : Prop where
  ordered : ∀ {rest}, Ordered ProgramLock.rank held rest →
    Ordered ProgramLock.rank held (steps ++ rest)
  reenters : ∀ {rest}, Reenters .registry held rest → Reenters .registry held (steps ++ rest)

namespace Neutral

variable {held : Held ProgramLock} {first second : LockSteps}

theorem nil (held : Held ProgramLock) : Neutral held [] :=
  ⟨id, id⟩

theorem append (one : Neutral held first) (two : Neutral held second) :
    Neutral held (first ++ second) where
  ordered later := by
    rw [List.append_assoc]
    exact one.ordered (two.ordered later)
  reenters later := by
    rw [List.append_assoc]
    exact one.reenters (two.reenters later)

/-- A lock above all others is taken and given back. -/
theorem guarded {lock : ProgramLock} (mode : Mode)
    (above : ∀ other, held other ≠ none → other.rank < lock.rank) :
    Neutral held (guarded lock mode []) := by
  have free : held lock = none := by
    by_contra holds
    exact Nat.lt_irrefl _ (above lock holds)
  have back : Function.update (Function.update held lock (some mode)) lock none = held := by
    rw [Function.update_idem, ← free, Function.update_eq_self]
  constructor
  · intro rest later
    exact ⟨above, by simp, by rwa [back]⟩
  · intro rest later
    refine .inr ?_
    simp only [List.nil_append, List.append_eq, List.cons_append, Reenters, back]
    exact later

end Neutral

theorem insideRegistry_low {other : ProgramLock} (i : InstanceId)
    (holds : insideRegistry other ≠ none) : other.rank < (ProgramLock.listeners i).rank := by
  cases other with
  | registry => exact Nat.zero_lt_one
  | listeners j => simp [insideRegistry, Held.nothing] at holds

theorem neutral_listeners (i : InstanceId) (mode : Mode) :
    Neutral insideRegistry (guarded (.listeners i) mode []) :=
  .guarded mode fun _ holds => insideRegistry_low i holds

/-- The steps in a critical section, of which it is known if they wait for the lock that is held
already. -/
structure Follows (steps : LockSteps) (deadlocks : Bool) : Prop where
  returns : deadlocks = false → Neutral insideRegistry steps
  waits : deadlocks = true → ∀ rest, Reenters .registry insideRegistry (steps ++ rest)

namespace Follows

variable {first second : LockSteps} {deadlocks : Bool}

theorem of_neutral (neutral : Neutral insideRegistry first) : Follows first false :=
  ⟨fun _ => neutral, fun waits => by cases waits⟩

theorem after (neutral : Neutral insideRegistry first) (follows : Follows second deadlocks) :
    Follows (first ++ second) deadlocks where
  returns running := neutral.append (follows.returns running)
  waits stuck rest := by
    rw [List.append_assoc]
    exact neutral.reenters (follows.waits stuck rest)

theorem before (follows : Follows first true) (second : LockSteps) :
    Follows (first ++ second) true where
  returns running := by cases running
  waits stuck rest := by
    rw [List.append_assoc]
    exact follows.waits stuck _

end Follows

/-- The lock steps of a handler are in order or wait for the registry lock for ever, as it is
known of the handler. -/
structure Reflects (steps : LockSteps) (deadlocks : Bool) : Prop where
  ordered : deadlocks = false → Ordered ProgramLock.rank .nothing steps
  reenters : deadlocks = true → Reenters .registry .nothing steps

theorem Reflects.of_neutral {steps : LockSteps} (neutral : Neutral .nothing steps) :
    Reflects steps false where
  ordered _ := by
    rw [← List.append_nil steps]
    exact neutral.ordered rfl
  reenters waits := by cases waits

theorem Follows.reflects {steps : LockSteps} {deadlocks : Bool}
    (follows : Follows steps deadlocks) :
    Reflects (guarded .registry .exclusive steps) deadlocks where
  ordered returns := by
    refine ⟨fun other holds => absurd rfl holds, ?_⟩
    refine (follows.returns returns).ordered ⟨by simp [insideRegistry], ?_⟩
    simp only [Ordered, insideRegistry, Function.update_idem]
    exact Function.update_eq_self ProgramLock.registry Held.nothing
  reenters stuck := .inr (follows.waits stuck _)

/-- The effects of a handler that is called with the registry lock held. -/
theorem follows_effects (i : InstanceId) (effects : List Effect) :
    Follows (effectsLocks i effects) (reportsClosure effects) := by
  induction effects with
  | nil => exact .of_neutral (.nil _)
  | cons effect rest ih =>
      cases effect with
      | publish dmMsg =>
          rw [reportsClosure_publish]
          exact .after (neutral_listeners i .shared) ih
      | closeCallback =>
          rw [reportsClosure_closeCallback]
          constructor
          · intro running
            cases running
          · intro _ rest
            exact .inl ⟨rfl, rfl⟩
      | fault =>
          rw [reportsClosure_fault]
          exact .of_neutral (.nil _)

namespace State

variable {state : State} {environment : Environment} {hdl : ConnectionHdl}

theorem reportsClosure_close (upstream : Upstream) :
    reportsClosure upstream.close.2 = upstream.closeFails := by
  rcases upstream.close_effects with ⟨error, effects⟩
  rw [effects]
  by_cases faults : upstream.closeFaults = true
  · have noFailure : upstream.closeFails = false := by
      cases upstream <;> simp_all [Upstream.closeFaults, Upstream.closeFails]
    simp [faults, noFailure]
  · rw [if_neg faults]
    cases upstream.closeFails <;> simp [clientReportWhenError]

theorem reportsClosure_start (environment : Environment) (roomid : Bytes) (upstream : Upstream) :
    reportsClosure (upstream.start roomid environment.getConnection).2 =
      startFails environment upstream := by
  rw [Upstream.start_effects, startFails]
  cases upstream.usesClient with
  | false => simp
  | true => cases environment.getConnection <;> simp [clientReportWhenError]

/-- Leaving a room waits for the registry lock exactly if it is noted so. -/
theorem follows_leaveRoom {roomstr : Bytes}
    (existing : ∀ {i}, state.rpMap roomstr = some i →
      ∃ inst, state.instances i = some inst ∧ inst.closeCallback = true)
    (running : state.halted = false) (environment : Environment) (hdl : ConnectionHdl) :
    Follows (state.leaveRoomLocks roomstr hdl)
      (state.leaveRoom environment roomstr hdl).deadlocked := by
  have free : state.deadlocked = false := by
    simp only [halted, Bool.or_eq_false_iff] at running
    exact running.1
  cases registered : state.rpMap roomstr with
  | none =>
      rw [leaveRoom_of_unregistered registered, free]
      simp only [leaveRoomLocks, registered]
      exact .of_neutral (.nil _)
  | some i =>
      rcases existing registered with ⟨inst, found, callback⟩
      have count := listenersCount_eraseListener found hdl
      simp only [leaveRoomLocks, registered]
      refine .after (neutral_listeners i .exclusive) (.after (neutral_listeners i .shared) ?_)
      by_cases last : ∀ other ∈ inst.listeners, other = hdl
      · rw [leaveRoom_of_last registered found callback running last, if_pos (count.mpr last)]
        simp only [closeLocks, eraseListener, modify_of_found found, Function.update_self,
          closeRoom]
        rw [← reportsClosure_close]
        exact follows_effects i _
      · rw [if_neg fun empty => last (count.mp empty)]
        simp only [not_forall, exists_prop] at last
        rcases last with ⟨other, member, differ⟩
        rw [leaveRoom_of_others registered found member differ]
        have same : (state.eraseListener i hdl).deadlocked = false := free
        rw [same]
        exact .of_neutral (.nil _)

theorem follows_enterRoom {roomstr : Bytes} (free : state.deadlocked = false)
    (absent : ¬state.Subscribed roomstr hdl) (environment : Environment) (tag roomid : Bytes) :
    Follows (state.enterRoomLocks environment hdl roomstr tag roomid)
      (state.enterRoom environment hdl roomstr tag roomid).deadlocked := by
  simp only [enterRoom, enterRoomLocks]
  cases registered : state.rpMap roomstr with
  | some i =>
      have stranger : state.haveListener i hdl = false := by
        rw [← Bool.not_eq_true, haveListener_iff]
        exact fun listening => absent ⟨i, registered, listening⟩
      have same : (state.addListener i hdl).deadlocked = false := free
      simp only [stranger, Bool.false_eq_true, if_false, same]
      exact .of_neutral ((neutral_listeners i .shared).append (neutral_listeners i .exclusive))
  | none =>
      cases platformGetInstance tag with
      | none =>
          dsimp only
          rw [reject_eq, free]
          exact .of_neutral (.nil _)
      | some upstream =>
          dsimp only
          split
          next =>
            rcases install_allocate environment hdl roomstr roomid upstream state with
              ⟨server, listeners, result, -, -, -⟩
            rw [result]
            simp only [createRoom, free, Bool.or_false, installLocks, startLocks, allocate,
              Function.update_self]
            rw [← reportsClosure_start environment roomid upstream]
            exact .after (neutral_listeners _ .exclusive) (follows_effects _ _)
          next =>
            rw [reject_eq, free]
            exact .of_neutral (.nil _)

/-! ## The handlers -/

theorem WellFormed.existing (wellFormed : state.WellFormed) {roomstr : Bytes} {i : InstanceId}
    (registered : state.rpMap roomstr = some i) :
    ∃ inst, state.instances i = some inst ∧ inst.closeCallback = true := by
  rcases wellFormed.registered registered with ⟨inst, found, -⟩
  exact ⟨inst, found, (wellFormed.installed found).1⟩

theorem reflects_subscribe (wellFormed : state.WellFormed) (running : state.halted = false)
    {con : ServerConnection} (connected : state.server hdl = some con)
    (environment : Environment) (roomstr tag roomid : Bytes) :
    Reflects (state.subscribeLocks environment con.handlers.message hdl roomstr tag roomid)
      (state.subscribe environment con.handlers.message hdl roomstr tag roomid).deadlocked := by
  have free : state.deadlocked = false := by
    simp only [halted, Bool.or_eq_false_iff] at running
    exact running.1
  have left := @follows_leaveRoom (state.setMessageHandler hdl roomstr) con.handlers.message
    wellFormed.existing running environment hdl
  simp only [subscribeLocks, subscribe]
  apply Follows.reflects
  split
  next =>
    rw [free]
    exact .of_neutral (.nil _)
  next =>
    split
    next halted =>
      rw [List.append_nil]
      exact left
    next returned =>
      have unlocked : ((state.setMessageHandler hdl roomstr).leaveRoom environment
          con.handlers.message hdl).deadlocked = false := by
        simp only [halted, Bool.or_eq_true, not_or, Bool.not_eq_true] at returned
        exact returned.1
      refine .after (left.returns unlocked) (follows_enterRoom unlocked ?_ environment tag roomid)
      rcases wellFormed.leaveRoom_modifyHandlers running environment con.handlers.message hdl
        (fun handlers => { handlers with message := roomstr }) with ⟨gone, leaving, moved⟩
      rw [setMessageHandler, moved]
      exact wellFormed.unsubscribed (messageRoom_of_connected connected) leaving roomstr

theorem neutral_effects (i : InstanceId) (effects : List Effect) :
    Neutral .nothing (effectsLocks i effects) := by
  have lowest (lock : ProgramLock) (mode : Mode) : Neutral .nothing (guarded lock mode []) :=
    .guarded mode fun other holds => absurd rfl holds
  induction effects with
  | nil => exact .nil _
  | cons effect rest ih =>
      cases effect with
      | publish => exact (lowest (.listeners i) .shared).append ih
      | closeCallback => exact (lowest .registry .exclusive).append ih
      | fault => exact .nil _

/-- The lock steps of every handler tell if it deadlocks. -/
theorem reflects_event {libraries : Libraries} {event : Event} {next : State}
    (wellFormed : state.WellFormed) (free : state.deadlocked = false)
    (stepped : state.step libraries event = some next) :
    Reflects (state.eventLocks libraries event) next.deadlocked := by
  have quiet : Reflects [] state.deadlocked := free ▸ .of_neutral (.nil _)
  simp only [step] at stepped
  split at stepped
  next => cases stepped
  next intact =>
    have running : state.halted = false := by simpa [halted, free] using intact
    cases event with
    | message hdl opcode payload environment =>
        simp only [receive] at stepped
        cases connected : state.server hdl with
        | none => simp [connected] at stepped
        | some con =>
            simp only [connected] at stepped
            split at stepped
            next => cases stepped
            next =>
              split at stepped
              next => cases stepped
              next =>
                cases stepped
                simp only [eventLocks, connected, onServerMessageLocks, onServerMessage]
                split
                next => exact quiet
                next =>
                  cases parseRoomstr (trim payload) with
                  | none => exact quiet
                  | some parts => exact reflects_subscribe wellFormed running connected _ _ _ _
    | closeHandler hdl environment =>
        simp only [runCloseHandler] at stepped
        cases connected : state.server hdl with
        | none => simp [connected] at stepped
        | some con =>
            have bound := closeRoomstr_of_connected connected
            simp only [connected] at stepped
            split at stepped
            next => cases stepped
            next =>
              cases installed : con.handlers.close with
              | none =>
                  simp only [installed, Option.some.injEq] at stepped
                  subst stepped
                  simp only [eventLocks, bound, installed]
                  exact quiet
              | some roomstr =>
                  simp only [installed] at stepped
                  split at stepped
                  next => cases stepped
                  next =>
                    cases stepped
                    simp only [eventLocks, bound, installed, onServerCloseLocks, onServerClose]
                    have left := @follows_leaveRoom (state.setCloseRan hdl) roomstr
                      wellFormed.existing running environment hdl
                    exact left.reflects
    | upstream i activity send =>
        have same : next.deadlocked = false := by
          cases runUpstream_transition wellFormed (by simpa using intact) stepped with
          | upstream => exact free
          | stalled _ _ locked => cases locked.symm.trans free
        simp only [runUpstream] at stepped
        cases found : state.instances i with
        | none => simp [found] at stepped
        | some inst =>
            cases acted : inst.upstream.step libraries inst.roomid activity with
            | none => simp [found, acted] at stepped
            | some outcome =>
                simp only [eventLocks, found, acted]
                rw [same]
                exact .of_neutral (neutral_effects i outcome.2)
    | accept hdl =>
        simp only [accept] at stepped
        split at stepped
        next =>
          cases stepped
          exact quiet
        next => cases stepped
    | closing hdl | terminate hdl | expire hdl =>
        simp only [transport] at stepped
        split at stepped
        next => cases stepped
        next =>
          split at stepped
          next =>
            cases stepped
            exact quiet
          next => cases stepped

end State

/-! ## Threads that run handlers -/

/-- The handler of an event that runs in a state. -/
abbrev HandlerCall := State × Event

/-- The handler can run in the state of the proxy, and the registry lock is not lost. -/
def HandlerCall.Possible (libraries : Libraries) (call : HandlerCall) : Prop :=
  (machine libraries).Reachable call.1 ∧ call.1.deadlocked = false ∧
    (call.1.step libraries call.2).isSome = true

/-- The proxy notes that the handler waits for ever. -/
def HandlerCall.deadlocks (libraries : Libraries) (call : HandlerCall) : Bool :=
  (call.1.step libraries call.2).any State.deadlocked

/-- Threads that run some handlers one after the other. -/
def handlerThreads (libraries : Libraries) (calls : List (List HandlerCall)) :
    Threads ProgramLock :=
  calls.map fun calls =>
    { held := .nothing
      script := calls.flatMap fun call => call.1.eventLocks libraries call.2 }

theorem HandlerCall.Possible.reflects {libraries : Libraries} {call : HandlerCall}
    (possible : call.Possible libraries) :
    Reflects (call.1.eventLocks libraries call.2) (call.deadlocks libraries) := by
  rcases possible with ⟨reachable, free, some⟩
  rcases Option.isSome_iff_exists.mp some with ⟨next, stepped⟩
  have told := State.reflects_event (State.wellFormed_of_reachable reachable) free stepped
  rwa [HandlerCall.deadlocks, stepped]

theorem ordered_of_calls {libraries : Libraries} {calls : List HandlerCall}
    (possible : ∀ call ∈ calls, call.Possible libraries)
    (returns : ∀ call ∈ calls, call.deadlocks libraries = false) :
    Ordered ProgramLock.rank .nothing
      (calls.flatMap fun call => call.1.eventLocks libraries call.2) := by
  induction calls with
  | nil => rfl
  | cons call calls ih =>
      rw [List.forall_mem_cons] at possible returns
      exact (possible.1.reflects.ordered returns.1).append (ih possible.2 returns.2)

/-- One handler that waits for ever keeps its thread from coming to an end. -/
theorem reenters_of_calls {libraries : Libraries} {calls : List HandlerCall}
    (possible : ∀ call ∈ calls, call.Possible libraries) {call : HandlerCall}
    (member : call ∈ calls) (stuck : call.deadlocks libraries = true) :
    Reenters .registry .nothing
      (calls.flatMap fun call => call.1.eventLocks libraries call.2) := by
  induction calls with
  | nil => cases member
  | cons first calls ih =>
      rw [List.forall_mem_cons] at possible
      rw [List.flatMap_cons]
      cases waits : first.deadlocks libraries with
      | true => exact (possible.1.reflects.reenters waits).append_right _
      | false =>
          have later : call ∈ calls := by
            rcases List.mem_cons.mp member with rfl | later
            · cases waits.symm.trans stuck
            · exact later
          exact (possible.1.reflects.ordered waits).append_reenters (ih possible.2 later)

theorem allOrdered_handlerThreads {libraries : Libraries} {calls : List (List HandlerCall)}
    (possible : ∀ thread ∈ calls, ∀ call ∈ thread, call.Possible libraries)
    (returns : ∀ thread ∈ calls, ∀ call ∈ thread, call.deadlocks libraries = false) :
    (handlerThreads libraries calls).AllOrdered ProgramLock.rank := by
  intro thread member
  rcases List.mem_map.mp member with ⟨own, listed, rfl⟩
  exact ordered_of_calls (possible own listed) (returns own listed)

/-- The proxy after its first client has connected. -/
def oneClient : State :=
  { State.initial with server := State.initial.server.put 0 .accepted }

/-- Two threads that handle requests of the client. -/
def twoRequests : List (List HandlerCall) :=
  [[(oneClient, .message 0 .text (ascii "douyu_1") .calm)],
    [(oneClient, .message 0 .text (ascii "douyu_2") .calm)]]

theorem possible_twoRequests (libraries : Libraries) :
    ∀ thread ∈ twoRequests, ∀ call ∈ thread, call.Possible libraries := by
  have stepped : (machine libraries).step State.initial (.accept 0) = some oneClient := rfl
  have reachable : (machine libraries).Reachable oneClient := .step .init trivial stepped
  intro thread listed call member
  simp only [twoRequests, List.mem_cons, List.not_mem_nil, or_false] at listed
  rcases listed with rfl | rfl
  · rw [List.mem_singleton.mp member]
    exact ⟨reachable, rfl, rfl⟩
  · rw [List.mem_singleton.mp member]
    exact ⟨reachable, rfl, rfl⟩

/-- As long as no handler waits for ever, some thread can take its next step whatever was
interleaved before, also where readers wait while a writer waits. -/
theorem some_thread_ready {libraries : Libraries} {calls : List (List HandlerCall)}
    (possible : ∀ thread ∈ calls, ∀ call ∈ thread, call.Possible libraries)
    (returns : ∀ thread ∈ calls, ∀ call ∈ thread, call.deadlocks libraries = false)
    {threads : Threads ProgramLock}
    (reachable : (Threads.machine (handlerThreads libraries calls)).Reachable threads)
    (unfinished : ¬threads.Finished) : ∃ index, threads.Ready index := by
  have ordered := (allOrdered_handlerThreads possible returns).reachable reachable
  by_contra stuck
  refine unfinished (Threads.finished_of_ordered ordered fun thread member => ?_)
  by_contra more
  exact stuck (Threads.exists_ready ordered member more)

theorem some_thread_ready_requests :
    ∃ index, (handlerThreads default twoRequests).Ready index := by
  refine some_thread_ready (possible_twoRequests default) (by decide) .init fun finished => ?_
  have ended := (finished _ List.mem_cons_self).1
  exact absurd ended (by decide)

/-- Whatever was interleaved, all threads can be brought to their end, exactly if the proxy notes
for none of the handlers that it waits for ever. -/
theorem threads_finish_iff {libraries : Libraries} {calls : List (List HandlerCall)}
    (possible : ∀ thread ∈ calls, ∀ call ∈ thread, call.Possible libraries) :
    (∀ threads, (Threads.machine (handlerThreads libraries calls)).Reachable threads →
      ∃ events final, (Threads.machine (handlerThreads libraries calls)).exec threads events =
        some final ∧ final.Finished) ↔
    ∀ thread ∈ calls, ∀ call ∈ thread, call.deadlocks libraries = false := by
  constructor
  · intro finish thread listed call member
    by_contra waits
    rw [Bool.not_eq_false] at waits
    have reenters := reenters_of_calls (possible thread listed) member waits
    rcases List.mem_iff_getElem?.mp listed with ⟨index, located⟩
    have itself : Threads.WaitsForItself .registry index (handlerThreads libraries calls) :=
      ⟨⟨.nothing, thread.flatMap fun call => call.1.eventLocks libraries call.2⟩,
        by simp [handlerThreads, located], reenters⟩
    rcases finish _ .init with ⟨events, final, executed, finished⟩
    exact itself.not_finished (Machine.Reachable.exec .init executed) finished
  · intro returns threads reachable
    exact Threads.finishes ((allOrdered_handlerThreads possible returns).reachable reachable)

theorem threads_finish_iff_requests :
    (∀ threads, (Threads.machine (handlerThreads default twoRequests)).Reachable threads →
      ∃ events final, (Threads.machine (handlerThreads default twoRequests)).exec threads events =
        some final ∧ final.Finished) ↔
    ∀ thread ∈ twoRequests, ∀ call ∈ thread, call.deadlocks default = false :=
  threads_finish_iff (possible_twoRequests default)

end DMProxy.Registry
