import DMProxy.Registry.Core

/-!
# What the registry operations do

Every operation of `Core` that acts on an instance is computed here on a state in which
that instance exists: the handlers of the upstream side, leaving a room, and creating
one.  The results are plain record updates, so that later proofs need not look at
`publish`, `start` and `close` again.
-/

namespace DMProxy.Registry

open DMProxy.Collections
open DMProxy.Network
open DMProxy.Platforms
open DMProxy.Text

/-- A text that passes the format check is its tag and its room id, with an underscore
between them. -/
theorem parseRoomstr_eq {roomstr tag roomid : Bytes}
    (parsed : parseRoomstr roomstr = some (tag, roomid)) :
    roomstr = tag ++ ascii "_" ++ roomid := by
  simp only [parseRoomstr] at parsed
  cases found : findFirstOf 95 roomstr with
  | none => simp [found] at parsed
  | some pos =>
      simp only [found] at parsed
      split at parsed
      next =>
        cases parsed
        rw [List.append_assoc]
        exact (take_append_of_findFirstOf found).symm
      next => cases parsed

/-- The format check on a tag without underscore and a room id. -/
theorem parseRoomstr_append {tag roomid : Bytes} (separator : 95 ∉ tag) (long : 2 ≤ tag.length) :
    parseRoomstr (tag ++ ascii "_" ++ roomid) =
      if roomid = [] then none else some (tag, roomid) := by
  have found : findFirstOf 95 (tag ++ ascii "_" ++ roomid) = some tag.length := by
    rw [List.append_assoc]
    exact findFirstOf_append separator roomid
  have length : (tag ++ ascii "_" ++ roomid).length = tag.length + 1 + roomid.length := by
    simp [ascii, Nat.add_comm, Nat.add_left_comm]
  have dropped : (tag ++ ascii "_" ++ roomid).drop (tag.length + 1) = roomid :=
    List.drop_left' (by simp [ascii])
  simp only [parseRoomstr, found, length, dropped]
  cases roomid with
  | nil => simp
  | cons byte rest =>
      rw [if_pos (by simp; omega)]
      simp

namespace State

variable {state : State} {i : InstanceId} {inst : Instance}

theorem modify_of_found (found : state.instances i = some inst)
    (change : Instance → Instance) :
    state.modify i change =
      { state with instances := Function.update state.instances i (some (change inst)) } := by
  simp [modify, found]

theorem publish_of_found (found : state.instances i = some inst) (send : SendOutcome)
    (dmMsg : Bytes) :
    state.publish send i dmMsg =
      let published := Platforms.publish send state.server inst.listeners dmMsg
      { state with
        server := published.1
        instances := Function.update state.instances i
          (some { inst with listeners := published.2 }) } := by
  simp [publish, modify, found]

/-! ## Handlers of the upstream side -/

/-- A call of the close callback that gets the lock drops what is registered under the room
string. -/
theorem runEffects_closeCallback (send : SendOutcome) (rest : List Effect)
    (found : state.instances i = some inst) (callback : inst.closeCallback = true)
    (running : state.halted = false) :
    state.runEffects send state.deadlocked i (.closeCallback :: rest) =
      runEffects send state.deadlocked i rest { state with
        instances := Function.update state.instances i
          (some { inst with reports := inst.reports + 1 })
        rpMap := Function.update state.rpMap inst.roomstr none } := by
  simp only [halted, Bool.or_eq_false_iff] at running
  simp [runEffects, fireCloseCallback, found, callback, modify, onPlatformClose, eraseRoom,
    halted, running]

/-- What a handler of the upstream side that is not held in a report does: it prunes listeners,
counts its reports and, if it reports, drops whatever is registered under its room
string. -/
theorem runEffects_returning (send : SendOutcome) (effects : List Effect)
    (found : state.instances i = some inst) (callback : inst.closeCallback = true)
    (alive : state.crashed = false)
    (free : state.deadlocked = true → reportsClosure effects = false) :
    ∃ server listeners count,
      state.runEffects send state.deadlocked i effects =
        { state with
          server := server
          instances := Function.update state.instances i
            (some { inst with listeners := listeners, reports := inst.reports + count })
          rpMap :=
            if reportsClosure effects then Function.update state.rpMap inst.roomstr none
            else state.rpMap
          crashed := decide (.fault ∈ effects) } ∧
      state.server.Advances server ∧
      (∀ hdl ∈ listeners, hdl ∈ inst.listeners) ∧
      (0 < count ↔ reportsClosure effects = true) := by
  induction effects generalizing state inst with
  | nil =>
      refine ⟨state.server, inst.listeners, 0, ?_, .refl _, fun _ => id, by simp⟩
      cases state
      cases alive
      simp [runEffects, ← found]
  | cons effect rest ih =>
      cases effect with
      | publish dmMsg =>
          rw [reportsClosure_publish] at free
          rw [runEffects, publish_of_found found]
          obtain ⟨server, listeners, count, result, advances, pruned, counted⟩ :=
            @ih { state with
                server := (Platforms.publish send state.server inst.listeners dmMsg).1
                instances := Function.update state.instances i (some { inst with
                  listeners := (Platforms.publish send state.server inst.listeners dmMsg).2 }) }
              { inst with
                listeners := (Platforms.publish send state.server inst.listeners dmMsg).2 }
              (by simp) callback alive free
          refine ⟨server, listeners, count, ?_, ?_, ?_, by simpa using counted⟩
          · simpa [Instance.roomstr] using result
          · exact (advances_publish send state.server inst.listeners dmMsg).trans advances
          · intro hdl member
            exact mem_of_mem_publish (pruned hdl member)
      | closeCallback =>
          have unlocked : state.deadlocked = false := by
            cases locked : state.deadlocked with
            | false => rfl
            | true => cases free locked
          obtain ⟨server, listeners, count, result, advances, pruned, -⟩ :=
            @ih { state with
                instances := Function.update state.instances i
                  (some { inst with reports := inst.reports + 1 })
                rpMap := Function.update state.rpMap inst.roomstr none }
              { inst with reports := inst.reports + 1 } (by simp) callback alive
              (fun locked => by simp [unlocked] at locked)
          refine ⟨server, listeners, count + 1, ?_, advances, pruned, by simp⟩
          rw [runEffects_closeCallback send rest found callback (by simp [halted, unlocked, alive]),
            result]
          simp [Instance.roomstr, Nat.add_comm, Nat.add_left_comm]
      | fault =>
          refine ⟨state.server, inst.listeners, 0, ?_, .refl _, fun _ => id, by simp⟩
          simp [runEffects, ← found]

/-- What a handler does that calls the close callback while the registry lock is lost: it prunes
listeners, and stays in the call. -/
theorem runEffects_locked (send : SendOutcome) {effects : List Effect}
    (found : state.instances i = some inst) (callback : inst.closeCallback = true)
    (reporting : reportsClosure effects = true) :
    ∃ server listeners,
      state.runEffects send true i effects =
        { state with
          server := server
          instances := Function.update state.instances i
            (some { inst with listeners := listeners, reports := inst.reports + 1 })
          deadlocked := true } ∧
      state.server.Advances server ∧ ∀ hdl ∈ listeners, hdl ∈ inst.listeners := by
  induction effects generalizing state inst with
  | nil => cases reporting
  | cons effect rest ih =>
      cases effect with
      | publish dmMsg =>
          rw [reportsClosure_publish] at reporting
          rw [runEffects, publish_of_found found]
          rcases @ih { state with
                server := (Platforms.publish send state.server inst.listeners dmMsg).1
                instances := Function.update state.instances i (some { inst with
                  listeners := (Platforms.publish send state.server inst.listeners dmMsg).2 }) }
              { inst with
                listeners := (Platforms.publish send state.server inst.listeners dmMsg).2 }
              (by simp) callback reporting with ⟨server, listeners, result, advances, pruned⟩
          refine ⟨server, listeners, by simpa using result, ?_, ?_⟩
          · exact (advances_publish send state.server inst.listeners dmMsg).trans advances
          · intro hdl member
            exact mem_of_mem_publish (pruned hdl member)
      | closeCallback =>
          refine ⟨state.server, inst.listeners, ?_, .refl _, fun _ => id⟩
          simp [runEffects, fireCloseCallback, found, callback, modify, halted]
      | fault =>
          rw [reportsClosure_fault] at reporting
          cases reporting

/-! ## Leaving a room -/

theorem runEffects_report_locked (found : state.instances i = some inst)
    (callback : inst.closeCallback = true) (send : SendOutcome) (error : ErrorCode) :
    state.runEffects send true i (clientReportWhenError (some error)) =
      let published := Platforms.publish send state.server inst.listeners error.closedBecause
      { state with
        server := published.1
        instances := Function.update state.instances i
          (some { inst with listeners := published.2, reports := inst.reports + 1 })
        deadlocked := true } := by
  simp only [clientReportWhenError, runEffects, publish_of_found found]
  simp [fireCloseCallback, callback, modify, halted]

/-- The state after the last listener of a room was erased and `close` was called on its
instance. -/
def closeRoom (roomstr : Bytes) (hdl : ConnectionHdl) (i : InstanceId) (inst : Instance)
    (state : State) : State :=
  { state with
    instances := Function.update state.instances i (some { inst with
      listeners := inst.listeners.erase hdl
      upstream := inst.upstream.close.1
      closes := inst.closes + 1
      reports := inst.reports + if inst.upstream.closeFails then 1 else 0 })
    rpMap :=
      if inst.upstream.closeFails || inst.upstream.closeFaults then state.rpMap
      else Function.update state.rpMap roomstr none
    deadlocked := inst.upstream.closeFails
    crashed := inst.upstream.closeFaults }

theorem leaveRoom_of_unregistered {roomstr : Bytes} (absent : state.rpMap roomstr = none)
    (environment : Environment) (hdl : ConnectionHdl) :
    state.leaveRoom environment roomstr hdl = state := by
  simp [leaveRoom, absent]

theorem listenersCount_eraseListener (found : state.instances i = some inst)
    (hdl : ConnectionHdl) :
    (state.eraseListener i hdl).listenersCount i = 0 ↔
      ∀ other ∈ inst.listeners, other = hdl := by
  simp [eraseListener, modify, listenersCount, found, OrderedSet.size_erase_eq_zero]

theorem leaveRoom_of_others {roomstr : Bytes} {hdl other : ConnectionHdl}
    (registered : state.rpMap roomstr = some i) (found : state.instances i = some inst)
    (member : other ∈ inst.listeners) (differ : other ≠ hdl) (environment : Environment) :
    state.leaveRoom environment roomstr hdl = state.eraseListener i hdl := by
  have remaining : (state.eraseListener i hdl).listenersCount i ≠ 0 := by
    rw [Ne, listenersCount_eraseListener found]
    exact fun last => differ (last other member)
  simp [leaveRoom, registered, remaining]

theorem leaveRoom_of_last {roomstr : Bytes} {hdl : ConnectionHdl}
    (registered : state.rpMap roomstr = some i) (found : state.instances i = some inst)
    (callback : inst.closeCallback = true) (running : state.halted = false)
    (last : ∀ other ∈ inst.listeners, other = hdl) (environment : Environment) :
    state.leaveRoom environment roomstr hdl = state.closeRoom roomstr hdl i inst := by
  have nobody : (inst.listeners.erase hdl).toList = [] :=
    List.length_eq_zero_iff.mp (OrderedSet.size_erase_eq_zero.mpr last)
  have count := (listenersCount_eraseListener found hdl).mpr last
  obtain ⟨notDeadlocked, notCrashed⟩ : state.deadlocked = false ∧ state.crashed = false := by
    simpa [halted] using running
  rcases inst.upstream.close_effects with ⟨error, effects⟩
  simp only [leaveRoom, registered, count, if_true, closeInstance]
  rw [eraseListener, modify_of_found found]
  simp only [Function.update_self, modify, Option.map_some, Function.update_idem, effects]
  cases faults : inst.upstream.closeFaults with
  | true =>
      have noFailure : inst.upstream.closeFails = false := by
        cases upstream : inst.upstream <;>
          simp_all [Upstream.closeFaults, Upstream.closeFails]
      simp [runEffects, halted, closeRoom, faults, noFailure, notDeadlocked]
  | false =>
      cases fails : inst.upstream.closeFails with
      | true =>
          simp only [Bool.false_eq_true, if_false, if_true]
          rw [runEffects_report_locked]
          rotate_left
          · exact Function.update_self ..
          · exact callback
          simp [Platforms.publish, nobody, publishLoop, halted, closeRoom, faults, fails,
            notCrashed]
      | false =>
          simp [runEffects, halted, closeRoom, faults, fails, notDeadlocked, notCrashed,
            eraseRoom]

/-! ## Handlers installed on connections -/

theorem handlers_modifyHandlers (state : State) (hdl other : ConnectionHdl)
    (change : Handlers → Handlers) :
    (state.modifyHandlers hdl change).server.handlers other =
      if other = hdl then (state.server.handlers other).map change
      else state.server.handlers other := by
  by_cases equal : other = hdl
  · subst equal
    simp [modifyHandlers, Server.handlers, Function.comp_def]
  · simp [modifyHandlers, Server.handlers, equal]

theorem advances_reject (environment : Environment) (hdl : ConnectionHdl) (text : Bytes)
    (state : State) : state.server.Advances (state.reject environment hdl text).server :=
  (state.server.advances_send ..).trans (Server.advances_closeAndReportWhenError ..)

/-- Refusing a request only changes the server connections. -/
theorem reject_eq (environment : Environment) (hdl : ConnectionHdl) (text : Bytes)
    (state : State) :
    state.reject environment hdl text =
      { state with server := (state.reject environment hdl text).server } := rfl

/-! ## Creating a room -/

/-- Whether `start` of a new instance reports an error. -/
def startFails (environment : Environment) (upstream : Upstream) : Bool :=
  upstream.usesClient && environment.getConnection.isSome

/-- The state after a room was created for a connection. -/
def createRoom (environment : Environment) (roomstr roomid : Bytes) (upstream : Upstream)
    (server : Server) (listeners : Listeners) (state : State) : State :=
  { state with
    rpMap := Function.update state.rpMap roomstr (some state.nextInstance)
    instances := Function.update state.instances state.nextInstance
      (some { Instance.make upstream roomid with
        listeners := listeners
        closeCallback := true
        upstream := (upstream.start roomid environment.getConnection).1
        starts := 1
        reports := if startFails environment upstream then 1 else 0 })
    nextInstance := state.nextInstance + 1
    server := server
    deadlocked := startFails environment upstream || state.deadlocked }

/-- A connection that subscribes to an unregistered room becomes the only listener of a
new instance, unless `start` reports an error to it. -/
theorem install_allocate (environment : Environment) (hdl : ConnectionHdl)
    (roomstr roomid : Bytes) (upstream : Upstream) (state : State) :
    ∃ server listeners,
      (state.allocate upstream roomid).install environment hdl roomstr state.nextInstance =
        state.createRoom environment roomstr roomid upstream server listeners ∧
      (state.setCloseHandler hdl roomstr).server.Advances server ∧
      (∀ other ∈ listeners, other = hdl) ∧
      (startFails environment upstream = false → hdl ∈ listeners) := by
  have effects := upstream.start_effects roomid environment.getConnection
  simp only [install, setCloseHandler, modifyHandlers, allocate, addListener, setCloseCallback,
    modify, Function.update_self, Option.map_some, Function.update_idem, startInstance, effects,
    Instance.make, createRoom]
  cases fails : startFails environment upstream with
  | false =>
      have quiet : (if upstream.usesClient then
          clientReportWhenError environment.getConnection else []) = [] := by
        simp only [startFails, Bool.and_eq_false_iff] at fails
        rcases fails with offline | found
        · simp [offline]
        · have absent : environment.getConnection = none := by simpa using found
          simp [absent, clientReportWhenError]
      rw [quiet]
      refine ⟨_, OrderedSet.empty.insert hdl, rfl, .refl _, by simp, by simp⟩
  | true =>
      simp only [startFails, Bool.and_eq_true, Option.isSome_iff_exists] at fails
      rcases fails with ⟨online, error, found⟩
      rw [if_pos online, found, runEffects_report_locked]
      rotate_left
      · exact Function.update_self ..
      · rfl
      simp only [Function.update_idem]
      refine ⟨_, _, rfl, advances_publish .., ?_, by simp⟩
      intro other member
      simpa using mem_of_mem_publish member

end State

end DMProxy.Registry
