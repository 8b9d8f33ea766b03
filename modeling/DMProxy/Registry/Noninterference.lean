import DMProxy.Registry.Runs

/-!
# Clients do not disturb each other

One event of a client may take it out of a room, close that room and create or join
another one.  None of this changes who else listens to what: a room is only closed once
its listener set is empty, and an instance is only registered under a free string.
-/

namespace DMProxy.Registry

open DMProxy.Collections
open DMProxy.Network
open DMProxy.Platforms
open DMProxy.Text
open DMProxy.Transition

namespace State

variable {libraries : Libraries} {first second third state next : State} {event : Event}
variable {hdl : ConnectionHdl}

/-- Nothing that concerns a connection other than `hdl` has changed: it listens to the
same instances, and these keep their place in the map and were not closed. -/
structure Undisturbed (hdl : ConnectionHdl) (before after : State) : Prop where
  listens : ∀ other, other ≠ hdl → ∀ i, after.Listens other i ↔ before.Listens other i
  held : ∀ other, other ≠ hdl → ∀ i inst, before.instances i = some inst →
    other ∈ inst.listeners →
    (∀ roomstr, before.rpMap roomstr = some i → after.rpMap roomstr = some i) ∧
      ∃ inst', after.instances i = some inst' ∧ inst'.closes = inst.closes

/-- Operations that change neither the map nor the instances. -/
theorem Undisturbed.of_same (sameMap : next.rpMap = state.rpMap)
    (sameInstances : next.instances = state.instances) : Undisturbed hdl state next where
  listens other _ i := by simp only [Listens, sameInstances]
  held other _ i inst found member := by
    rw [sameMap, sameInstances]
    exact ⟨fun _ => id, inst, found, rfl⟩

theorem Undisturbed.trans (left : Undisturbed hdl first second)
    (right : Undisturbed hdl second third) : Undisturbed hdl first third where
  listens other differ i := (right.listens other differ i).trans (left.listens other differ i)
  held other differ i inst found member := by
    rcases left.held other differ i inst found member with ⟨kept, inst', found', closes⟩
    rcases (left.listens other differ i).mpr ⟨inst, found, member⟩ with
      ⟨middle, foundMiddle, member'⟩
    cases found'.symm.trans foundMiddle
    rcases right.held other differ i inst' found' member' with ⟨kept', inst'', found'', closes'⟩
    exact ⟨fun roomstr entry => kept' roomstr (kept roomstr entry), inst'', found'',
      closes'.trans closes⟩

/-- Replacing one instance by one to which the same other connections listen. -/
theorem Undisturbed.of_update {i : InstanceId} {inst inst' : Instance}
    (found : state.instances i = some inst)
    (changed : next.instances = Function.update state.instances i (some inst'))
    (listeners : ∀ other, other ≠ hdl → (other ∈ inst'.listeners ↔ other ∈ inst.listeners))
    (held : ∀ other ∈ inst.listeners, other ≠ hdl →
      next.rpMap = state.rpMap ∧ inst'.closes = inst.closes)
    (others : ∀ {roomstr j}, j ≠ i → state.rpMap roomstr = some j →
      next.rpMap roomstr = some j) :
    Undisturbed hdl state next where
  listens other differ j := by
    simp only [Listens, changed]
    by_cases equal : j = i
    · subst equal
      simp [found, listeners other differ]
    · simp [Function.update_of_ne equal]
  held other differ j original found' member := by
    by_cases equal : j = i
    · subst equal
      cases found.symm.trans found'
      rcases held other member differ with ⟨sameMap, closes⟩
      rw [sameMap, changed]
      exact ⟨fun _ => id, inst', Function.update_self .., closes⟩
    · rw [changed]
      exact ⟨fun roomstr => others equal, original,
        update_some_eq_some.mpr (.inr ⟨equal, found'⟩), rfl⟩

/-- A connection that leaves a room disturbs nobody. -/
theorem LeaveOutcome.undisturbed {roomstr : Bytes}
    (leaving : LeaveOutcome roomstr hdl state next) : Undisturbed hdl state next := by
  cases leaving with
  | unregistered => exact .of_same rfl rfl
  | others registered found member differ =>
      rw [eraseListener, modify_of_found found]
      refine .of_update found rfl ?_ (fun _ _ _ => ⟨rfl, rfl⟩) (fun _ => id)
      intro other differ
      simp [differ]
  | @last i inst registered found last =>
      refine .of_update found rfl ?_ ?_ ?_
      · intro other differ
        simp [differ]
      · intro other member differ
        exact absurd (last other member) differ
      · intro other j differ entry
        have elsewhere : other ≠ roomstr := by
          intro equal
          subst equal
          exact differ (Option.some.inj (entry.symm.trans registered))
        simp only [closeRoom]
        split
        · exact entry
        · exact update_none_eq_some.mpr ⟨elsewhere, entry⟩

/-- A connection that enters a room disturbs nobody. -/
theorem EnterOutcome.undisturbed (wellFormed : state.WellFormed) {environment : Environment}
    {roomstr tag roomid : Bytes}
    (entering : EnterOutcome environment hdl roomstr tag roomid state next) :
    Undisturbed hdl state next := by
  cases entering with
  | joined registered found =>
      rw [addListener, modify_of_found found]
      refine .of_update found rfl ?_ (fun _ _ _ => ⟨rfl, rfl⟩) (fun _ => id)
      intro other differ
      simp [differ]
  | rejected => exact .of_same rfl rfl
  | created absent _ _ _ only _ =>
      constructor
      · intro other differ j
        simp only [Listens, createRoom, update_some_eq_some]
        constructor
        · intro listening
          rcases listening with ⟨inst', ⟨rfl, rfl⟩ | ⟨-, found⟩, member⟩
          · exact absurd (only other member) differ
          · exact ⟨inst', found, member⟩
        · intro listening
          rcases listening with ⟨inst, found, member⟩
          exact ⟨inst, .inr ⟨wellFormed.ne_nextInstance found, found⟩, member⟩
      · intro other differ j inst found member
        have differ' := wellFormed.ne_nextInstance found
        refine ⟨fun other entry => ?_, inst, update_some_eq_some.mpr (.inr ⟨differ', found⟩), rfl⟩
        refine update_some_eq_some.mpr (.inr ⟨?_, entry⟩)
        intro equal
        subst equal
        cases absent.symm.trans entry

/-- Whatever a client does, and whatever happens to its connection, no other client is
disturbed. -/
theorem client_undisturbed (reachable : (machine libraries).Reachable state)
    (own : event.client = some hdl)
    (stepped : (machine libraries).step state event = some next) :
    Undisturbed hdl state next := by
  have wellFormed := wellFormed_of_reachable reachable
  cases step_transition wellFormed stepped with
  | accept | closing | terminate | expire | refused | already | unhandled =>
      exact .of_same rfl rfl
  | stuck _ _ _ _ _ leaving =>
      cases own
      exact leaving.undisturbed.trans (.of_same rfl rfl)
  | entered connected _ _ _ _ leaving _ entering =>
      cases own
      refine (leaving.undisturbed.trans ?_).trans
        (entering.undisturbed (wellFormed.moved connected leaving _))
      exact .of_same rfl rfl
  | closed _ _ _ _ _ leaving =>
      cases own
      exact leaving.undisturbed.trans (.of_same rfl rfl)
  | upstream | stalled => cases own

/-- A second client joins the room of a first one. -/
theorem client_undisturbed_join :
    ∃ state next : State,
      state.rpMap (ascii "douyu_1") = some 0 ∧ state.Listens 0 0 ∧
        (machine default).step state (.message 1 .text (ascii "douyu_1") .calm) = some next ∧
        Undisturbed 1 state next := by
  have query : ((machine default).exec State.initial
      [.accept 0, .message 0 .text (ascii "douyu_1") .calm, .accept 1]).any (fun middle =>
        middle.rpMap (ascii "douyu_1") == some 0 && middle.haveListener 0 0 &&
          ((machine default).step middle
            (.message 1 .text (ascii "douyu_1") .calm)).isSome) = true := by
    decide
  rcases (Option.any_eq_true _ _).mp query with ⟨middle, executed, facts⟩
  simp only [Bool.and_eq_true, beq_iff_eq, haveListener_iff, Option.isSome_iff_exists] at facts
  rcases facts with ⟨⟨registered, listening⟩, next, stepped⟩
  exact ⟨middle, next, registered, listening, stepped,
    client_undisturbed (Machine.Reachable.exec .init executed) rfl stepped⟩

end State

end DMProxy.Registry
