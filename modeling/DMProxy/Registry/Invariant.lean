import DMProxy.Collections.PartialMap
import DMProxy.Registry.Operations

/-!
# The basic invariant of the registry

`WellFormed` ties the map, the listener sets and the message handlers together: a
connection listens to a registered instance only under the room string its message
handler carries.  `Shrinks` is what every handler that admits no new listener does, and
keeps the invariant.
-/

namespace DMProxy.Registry

open DMProxy.Collections
open DMProxy.Network
open DMProxy.Platforms
open DMProxy.Text

namespace State

/-- The connection is a listener of the instance registered under a room string. -/
def Subscribed (state : State) (roomstr : Bytes) (hdl : ConnectionHdl) : Prop :=
  ∃ i, state.rpMap roomstr = some i ∧ state.Listens hdl i

theorem haveListener_iff {state : State} {i : InstanceId} {hdl : ConnectionHdl} :
    state.haveListener i hdl = true ↔ state.Listens hdl i := by
  simp only [haveListener, Listens]
  cases state.instances i with
  | none => simp
  | some inst => simp

/-- The room string bound in the message handler of a connection. -/
def messageRoom (state : State) (hdl : ConnectionHdl) : Option Bytes :=
  (state.server.handlers hdl).map Handlers.message

/-- The room string bound in the close handler of a connection. -/
def closeRoomstr (state : State) (hdl : ConnectionHdl) : Option Bytes :=
  (state.server.handlers hdl).bind Handlers.close

/-- The connection has closed, and its close handler has run if it had one. -/
def Finished (state : State) (hdl : ConnectionHdl) : Prop :=
  (state.server.handlers hdl).map Handlers.closeRan = some true

theorem messageRoom_of_connected {state : State} {hdl : ConnectionHdl} {con : ServerConnection}
    (connected : state.server hdl = some con) :
    state.messageRoom hdl = some con.handlers.message := by
  simp [messageRoom, Server.handlers, connected]

theorem closeRoomstr_of_connected {state : State} {hdl : ConnectionHdl} {con : ServerConnection}
    (connected : state.server hdl = some con) :
    state.closeRoomstr hdl = con.handlers.close := by
  simp [closeRoomstr, Server.handlers, connected]

theorem messageRoom_of_absent {state : State} {hdl : ConnectionHdl}
    (absent : state.server hdl = none) : state.messageRoom hdl = none := by
  simp [messageRoom, Server.handlers, absent]

/-- The invariant of every run. -/
structure WellFormed (state : State) : Prop where
  /-- A registered instance exists and reports under the string it is registered
  under. -/
  registered : ∀ {roomstr i}, state.rpMap roomstr = some i →
    ∃ inst, state.instances i = some inst ∧ inst.roomstr = roomstr
  /-- Every instance was given its close callback and started. -/
  installed : ∀ {i inst}, state.instances i = some inst →
    inst.closeCallback = true ∧ 0 < inst.starts
  fresh : ∀ {i}, state.nextInstance ≤ i → state.instances i = none
  bound : ∀ {roomstr hdl}, state.Subscribed roomstr hdl →
    state.messageRoom hdl = some roomstr
  finished : ∀ {hdl}, state.Finished hdl → state.server.IsClosed hdl

theorem WellFormed.ne_nextInstance {state : State} (wellFormed : state.WellFormed)
    {i : InstanceId} {inst : Instance} (found : state.instances i = some inst) :
    i ≠ state.nextInstance := by
  intro equal
  cases found.symm.trans (wellFormed.fresh equal.ge)

/-- An instance is registered under its own room string only. -/
theorem WellFormed.roomstr_eq {state : State} (wellFormed : state.WellFormed)
    {roomstr : Bytes} {i : InstanceId} {inst : Instance} (registered : state.rpMap roomstr = some i)
    (found : state.instances i = some inst) : inst.roomstr = roomstr := by
  rcases wellFormed.registered registered with ⟨_, found', named⟩
  cases found.symm.trans found'
  exact named

/-- What the handlers that admit no new listener may do. -/
structure Shrinks (before after : State) : Prop where
  server : before.server.Advances after.server
  nextInstance : after.nextInstance = before.nextInstance
  rpMap : ∀ {roomstr i}, after.rpMap roomstr = some i → before.rpMap roomstr = some i
  instances : ∀ {i inst'}, after.instances i = some inst' →
    ∃ inst, before.instances i = some inst ∧ inst'.roomstr = inst.roomstr ∧
      inst'.closeCallback = inst.closeCallback ∧ inst'.starts = inst.starts ∧
      ∀ hdl ∈ inst'.listeners, hdl ∈ inst.listeners
  survives : ∀ {i inst}, before.instances i = some inst → ∃ inst', after.instances i = some inst'

variable {state before after : State}

theorem Shrinks.listens (shrinks : before.Shrinks after) {hdl : ConnectionHdl}
    {i : InstanceId} (listening : after.Listens hdl i) : before.Listens hdl i := by
  rcases listening with ⟨inst', found', member⟩
  rcases shrinks.instances found' with ⟨inst, found, -, -, -, subset⟩
  exact ⟨inst, found, subset hdl member⟩

theorem Shrinks.subscribed (shrinks : before.Shrinks after) {roomstr : Bytes}
    {hdl : ConnectionHdl} (subscribed : after.Subscribed roomstr hdl) :
    before.Subscribed roomstr hdl := by
  rcases subscribed with ⟨i, registered, listening⟩
  exact ⟨i, shrinks.rpMap registered, shrinks.listens listening⟩

theorem Shrinks.messageRoom (shrinks : before.Shrinks after) :
    after.messageRoom = before.messageRoom := by
  funext hdl
  simp only [State.messageRoom, shrinks.server.handlers]

theorem Shrinks.finished (shrinks : before.Shrinks after) :
    after.Finished = before.Finished := by
  funext hdl
  simp only [Finished, shrinks.server.handlers]

theorem Shrinks.refl (state : State) : state.Shrinks state :=
  ⟨.refl _, rfl, id, fun found => ⟨_, found, rfl, rfl, rfl, fun _ => id⟩,
    fun found => ⟨_, found⟩⟩

/-- Replacing one instance by one that listens to no more connections, under a map with
no new entries. -/
theorem Shrinks.of_update {i : InstanceId} {inst inst' : Instance} {server : Server}
    {rpMap : Bytes → Option InstanceId} {deadlocked crashed : Bool}
    (found : before.instances i = some inst) (advances : before.server.Advances server)
    (entries : ∀ {roomstr j}, rpMap roomstr = some j → before.rpMap roomstr = some j)
    (same : inst'.roomstr = inst.roomstr ∧ inst'.closeCallback = inst.closeCallback ∧
      inst'.starts = inst.starts)
    (subset : ∀ hdl ∈ inst'.listeners, hdl ∈ inst.listeners) :
    before.Shrinks { before with
      rpMap := rpMap
      instances := Function.update before.instances i (some inst')
      server := server
      deadlocked := deadlocked
      crashed := crashed } where
  server := advances
  nextInstance := rfl
  rpMap := entries
  instances {j other} found' := by
    rcases update_some_eq_some.mp found' with ⟨rfl, rfl⟩ | ⟨-, kept⟩
    · exact ⟨inst, found, same.1, same.2.1, same.2.2, subset⟩
    · exact ⟨other, kept, rfl, rfl, rfl, fun _ => id⟩
  survives {j other} found' := by
    by_cases equal : j = i
    · exact ⟨inst', by simp [equal]⟩
    · exact ⟨other, update_some_eq_some.mpr (.inr ⟨equal, found'⟩)⟩

theorem WellFormed.shrinks (wellFormed : before.WellFormed) (shrinks : before.Shrinks after) :
    after.WellFormed where
  registered registered := by
    rcases wellFormed.registered (shrinks.rpMap registered) with ⟨inst, found, named⟩
    rcases shrinks.survives found with ⟨inst', found'⟩
    rcases shrinks.instances found' with ⟨original, foundOriginal, sameName, -⟩
    cases found.symm.trans foundOriginal
    exact ⟨inst', found', sameName.trans named⟩
  installed found' := by
    rcases shrinks.instances found' with ⟨inst, found, -, callback, starts, -⟩
    rw [callback, starts]
    exact wellFormed.installed found
  fresh {i} late := by
    rw [shrinks.nextInstance] at late
    cases found' : after.instances i with
    | none => rfl
    | some inst' =>
        rcases shrinks.instances found' with ⟨inst, found, -⟩
        cases found.symm.trans (wellFormed.fresh late)
  bound subscribed := by
    rw [shrinks.messageRoom]
    exact wellFormed.bound (shrinks.subscribed subscribed)
  finished ended := by
    rw [shrinks.finished] at ended
    exact shrinks.server.closed _ (wellFormed.finished ended)

end State

end DMProxy.Registry
