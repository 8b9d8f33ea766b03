import DMProxy.Registry.Runs

/-!
# Re-entering the registry lock

`start` and `close` of the websocket platforms report an error through the close
callback, which takes the registry lock; `on_server_message` and `on_server_close` call
them with that lock held.
-/

namespace DMProxy.Registry

open DMProxy.Collections
open DMProxy.Network
open DMProxy.Platforms
open DMProxy.Text
open DMProxy.Transition

namespace State

variable {libraries : Libraries} {state next : State} {event : Event}
variable {hdl : ConnectionHdl} {roomstr : Bytes}

/-- No listener but `hdl` is left in the room, and the upstream state of its instance
satisfies a predicate. -/
def LastOf (roomstr : Bytes) (hdl : ConnectionHdl) (verdict : Upstream → Bool)
    (state : State) : Prop :=
  ∃ i inst, state.rpMap roomstr = some i ∧ state.instances i = some inst ∧
    (∀ other ∈ inst.listeners, other = hdl) ∧ verdict inst.upstream = true

/-- The room is not registered, and `start` of the instance that would be created for it
reports an error. -/
def StartReports (environment : Environment) (roomstr tag roomid : Bytes) (state : State) :
    Prop :=
  state.rpMap roomstr = none ∧ ∃ upstream, platformGetInstance tag = some upstream ∧
    upstream.isRoomValid roomid = true ∧ startFails environment upstream = true

/-- The event neither closes the room its connection leaves, with an upstream connection
on which `client.close` fails, nor creates a room for which `client.get_connection`
fails. -/
def NoReport (state : State) : Event → Prop
  | .message hdl .text payload environment =>
      ∀ con tag roomid, state.server hdl = some con →
        parseRoomstr (trim payload) = some (tag, roomid) →
        (con.handlers.message = trim payload → state.rpMap (trim payload) = none) →
        ¬state.LastOf con.handlers.message hdl Upstream.closeFails ∧
          (state.LastOf con.handlers.message hdl Upstream.closeFaults ∨
            ¬state.StartReports environment (trim payload) tag roomid)
  | .closeHandler hdl _ =>
      ∀ roomstr, state.closeRoomstr hdl = some roomstr →
        ¬state.LastOf roomstr hdl Upstream.closeFails
  | _ => True

theorem lastOf_of_last {verdict : Upstream → Bool} {i : InstanceId} {inst : Instance}
    (registered : state.rpMap roomstr = some i) (found : state.instances i = some inst)
    (last : ∀ other ∈ inst.listeners, other = hdl) :
    state.LastOf roomstr hdl verdict ↔ verdict inst.upstream = true := by
  constructor
  · intro lastOf
    rcases lastOf with ⟨j, inst', registered', found', -, holds⟩
    cases registered.symm.trans registered'
    cases found.symm.trans found'
    exact holds
  · exact fun holds => ⟨i, inst, registered, found, last, holds⟩

theorem not_lastOf_of_others {verdict : Upstream → Bool} {i : InstanceId} {inst : Instance}
    {other : ConnectionHdl} (registered : state.rpMap roomstr = some i)
    (found : state.instances i = some inst) (member : other ∈ inst.listeners)
    (differ : other ≠ hdl) : ¬state.LastOf roomstr hdl verdict := by
  intro lastOf
  rcases lastOf with ⟨j, inst', registered', found', last, -⟩
  cases registered.symm.trans registered'
  cases found.symm.trans found'
  exact differ (last other member)

/-- Leaving a room deadlocks when `close` reports an error, and crashes when it finds no
timer. -/
theorem LeaveOutcome.halted_iff (leaving : LeaveOutcome roomstr hdl state next)
    (running : state.halted = false) :
    (next.deadlocked = true ↔ state.LastOf roomstr hdl Upstream.closeFails) ∧
      (next.crashed = true ↔ state.LastOf roomstr hdl Upstream.closeFaults) := by
  obtain ⟨free, intact⟩ : state.deadlocked = false ∧ state.crashed = false := by
    simpa [halted] using running
  cases leaving with
  | unregistered absent => simp [LastOf, free, intact, absent]
  | others registered found member differ =>
      have notLast {verdict} := @not_lastOf_of_others state hdl roomstr verdict _ _ _
        registered found member differ
      simp [notLast, eraseListener, modify, free, intact]
  | last registered found last =>
      simp only [lastOf_of_last registered found last]
      exact ⟨Iff.rfl, Iff.rfl⟩

/-- A handler that got past leaving the old room met neither. -/
theorem LeaveOutcome.not_lastOf (leaving : LeaveOutcome roomstr hdl state next)
    (running : state.halted = false) (returned : next.halted = false) :
    ¬state.LastOf roomstr hdl Upstream.closeFails ∧
      ¬state.LastOf roomstr hdl Upstream.closeFaults := by
  rcases leaving.halted_iff running with ⟨locks, crashes⟩
  obtain ⟨unlocked, intact⟩ : next.deadlocked = false ∧ next.crashed = false := by
    simpa [halted] using returned
  rw [← locks, ← crashes, unlocked, intact]
  exact ⟨Bool.false_ne_true, Bool.false_ne_true⟩

/-- A message that is neither malformed nor redundant, and does not get stuck in leaving the
old room, enters the new one. -/
theorem entered_of_message {environment : Environment} {con : ServerConnection}
    {payload tag roomid : Bytes}
    (transition : Transition libraries state (.message hdl .text payload environment) next)
    (connected : state.server hdl = some con)
    (parsed : parseRoomstr (trim payload) = some (tag, roomid))
    (moves : con.handlers.message = trim payload → state.rpMap (trim payload) = none)
    (noReport : ¬state.LastOf con.handlers.message hdl Upstream.closeFails)
    (noFault : ¬state.LastOf con.handlers.message hdl Upstream.closeFaults) :
    ∃ left, state.LeaveOutcome con.handlers.message hdl left ∧
      (left.setMessageHandler hdl (trim payload)).EnterOutcome environment hdl (trim payload)
        tag roomid next := by
  cases transition with
  | refused malformed => cases (malformed.resolve_left (by simp)).symm.trans parsed
  | already connected' _ same registered =>
      cases connected.symm.trans connected'
      simp [moves same] at registered
  | stuck connected' _ running _ _ leaving halted =>
      cases connected.symm.trans connected'
      rcases leaving.halted_iff running with ⟨locks, crashes⟩
      rw [← locks, Bool.not_eq_true] at noReport
      rw [← crashes, Bool.not_eq_true] at noFault
      simp [State.halted, noReport, noFault] at halted
  | entered connected' _ _ parsed' _ leaving _ entering =>
      cases connected.symm.trans connected'
      cases parsed.symm.trans parsed'
      exact ⟨_, leaving, entering⟩

/-- Entering a room deadlocks when `start` of a new instance reports an error. -/
theorem EnterOutcome.deadlocked_iff {environment : Environment} {tag roomid : Bytes}
    (entering : EnterOutcome environment hdl roomstr tag roomid state next)
    (free : state.deadlocked = false) :
    next.deadlocked = true ↔ state.StartReports environment roomstr tag roomid := by
  cases entering with
  | joined registered found =>
      simp [addListener, modify, free, StartReports, registered]
  | rejected absent invalid =>
      apply iff_of_false (by simp [free])
      intro reports
      rcases reports with ⟨-, upstream, known, valid, -⟩
      rw [invalid upstream known] at valid
      cases valid
  | created absent known valid =>
      simp [createRoom, free, StartReports, absent, known, valid]

/-- From a state without deadlock, a step ends in a deadlock exactly when its handler gets
an error report out of `start` or `close`. -/
theorem deadlocked_iff (free : state.deadlocked = false)
    (transition : Transition libraries state event next) :
    next.deadlocked = false ↔ state.NoReport event := by
  cases transition with
  | accept | closing | terminate | expire | upstream => exact iff_of_true free trivial
  | stalled _ _ locked => cases locked.symm.trans free
  | @refused _ opcode _ _ _ malformed =>
      cases opcode with
      | binary => exact iff_of_true free trivial
      | text =>
          apply iff_of_true free
          intro con tag roomid _ parsed _
          cases (malformed.resolve_left (by simp)).symm.trans parsed
  | already connected parsed same registered =>
      apply iff_of_true free
      intro con tag roomid connected' _ moves
      cases connected.symm.trans connected'
      simp [moves same] at registered
  | @stuck hdl payload _ con _ _ left connected _ running parsed moves leaving halted =>
      rcases leaving.halted_iff running with ⟨locks, crashes⟩
      constructor
      · intro unlocked con' _ _ connected' _ _
        cases connected.symm.trans connected'
        refine ⟨fun reports => ?_, .inl (crashes.mp ?_)⟩
        · cases (locks.mpr reports).symm.trans unlocked
        · exact ((Bool.or_eq_true _ _).mp halted).resolve_left fun locked =>
            Bool.false_ne_true (unlocked.symm.trans locked)
      · intro quiet
        exact Bool.eq_false_iff.mpr fun locked =>
          (quiet con _ _ connected parsed moves).1 (locks.mp locked)
  | @entered hdl payload _ con _ _ left _ connected _ running parsed moves leaving returned
      entering =>
      rcases leaving.not_lastOf running returned with ⟨noReport, noFault⟩
      have unlocked : left.deadlocked = false := (Bool.or_eq_false_iff.mp returned).1
      have target : (left.setMessageHandler hdl (trim payload)).rpMap (trim payload) =
          state.rpMap (trim payload) := leaving.rpMap_target moves
      have starts := entering.deadlocked_iff unlocked
      rw [StartReports, target] at starts
      rw [← Bool.not_eq_true, starts]
      constructor
      · intro noStart con' tag' roomid' connected' parsed' _
        cases connected.symm.trans connected'
        cases parsed.symm.trans parsed'
        exact ⟨noReport, .inr noStart⟩
      · intro quiet
        exact (quiet con _ _ connected parsed moves).2.resolve_left noFault
  | unhandled connected _ _ absent =>
      apply iff_of_true free
      intro roomstr bound
      rw [closeRoomstr_of_connected connected, absent] at bound
      cases bound
  | @closed hdl _ con roomstr left connected _ _ running installed leaving =>
      have bound := (closeRoomstr_of_connected connected).trans installed
      have locks := (leaving.halted_iff running).1
      constructor
      · intro unlocked other bound' reports
        cases bound.symm.trans bound'
        cases (locks.mpr reports).symm.trans unlocked
      · intro quiet
        exact Bool.eq_false_iff.mpr fun locked => quiet roomstr bound (locks.mp locked)

end State

open State

/-- No handler calls the close callback under the lock exactly along the runs without a
report out of `start` or `close`. -/
theorem deadlockFree_along_iff (libraries : Libraries) (events : List Event) :
    (machine libraries).Along (fun _ _ next => next.deadlocked = false)
        State.initial events ↔
      (machine libraries).Along (fun state event _ => state.NoReport event)
        State.initial events :=
  Machine.along_iff_of_propagates WellFormed (fun state => state.deadlocked = false) NoReport
    (fun wellFormed stepped => wellFormed.step stepped)
    (fun wellFormed free stepped => deadlocked_iff free (step_transition wellFormed stepped))
    wellFormed_initial rfl

/-- A client subscribes to a huajiao room and disconnects while the upstream connection is
being made. -/
def earlyDisconnect : List Event :=
  [.accept 0, .message 0 .text (ascii "huajiao_123456789") .calm, .terminate 0,
    .closeHandler 0 .calm]

theorem not_deadlockFree_along :
    ¬ ∀ (libraries : Libraries) (events : List Event),
      (machine libraries).Along (fun _ _ next => next.deadlocked = false)
        State.initial events := by
  intro along
  have query : ((machine default).exec State.initial earlyDisconnect).any
      (fun final => final.deadlocked) = true := by
    decide
  rcases (Option.any_eq_true _ _).mp query with ⟨final, executed, locked⟩
  have free := (along default earlyDisconnect).final rfl executed
  cases locked.symm.trans free

end DMProxy.Registry
