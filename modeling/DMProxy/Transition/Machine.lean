import Mathlib.Logic.Basic

/-!
# Labelled machines and properties of their runs

A machine takes partial steps labelled by events: an event that is impossible in
a state has no successor.  Nondeterminism is in the choice of the event, so a run
is a list of events.

`Along relation` says that every step a run takes satisfies a relation between the
state before, the event and the state after.  Safety properties, conditions on
the steps of a run and two-state (frame) properties are all instances, and the
rules below move between them through an inductive invariant.
-/

namespace DMProxy.Transition

universe u v

/-- An initial state together with partial labelled steps. -/
structure Machine (σ : Type u) (ε : Type v) where
  init : σ
  step : σ → ε → Option σ

namespace Machine

variable {σ : Type u} {ε : Type v}

/-- The state after all events of a list, when every one of them is possible. -/
def exec (machine : Machine σ ε) : σ → List ε → Option σ
  | state, [] => some state
  | state, event :: events =>
      match machine.step state event with
      | some next => machine.exec next events
      | none => none

@[simp] theorem exec_nil (machine : Machine σ ε) (state : σ) :
    machine.exec state [] = some state := rfl

theorem exec_cons (machine : Machine σ ε) {state next : σ} {event : ε}
    (events : List ε) (stepped : machine.step state event = some next) :
    machine.exec state (event :: events) = machine.exec next events := by
  simp only [exec, stepped]

/-- States reachable by steps that all satisfy `guard`. -/
inductive ReachableVia (machine : Machine σ ε) (guard : σ → ε → Prop) : σ → Prop where
  | init : ReachableVia machine guard machine.init
  | step {state next : σ} {event : ε} :
      ReachableVia machine guard state → guard state event →
      machine.step state event = some next → ReachableVia machine guard next

/-- States reachable by any steps. -/
abbrev Reachable (machine : Machine σ ε) : σ → Prop :=
  machine.ReachableVia fun _ _ => True

/-- An assertion that holds initially and is kept by the guarded steps holds in
every state they reach.  The step may use that its source is reachable. -/
theorem ReachableVia.invariant {machine : Machine σ ε} {guard : σ → ε → Prop}
    {holds : σ → Prop} (initial : holds machine.init)
    (preserved : ∀ {state next : σ} {event : ε},
      machine.ReachableVia guard state → holds state → guard state event →
      machine.step state event = some next → holds next)
    {state : σ} (reachable : machine.ReachableVia guard state) : holds state := by
  induction reachable with
  | init => exact initial
  | step source guarded stepped ih => exact preserved source ih guarded stepped

/-- Executing events from a reachable state leads to a reachable state. -/
theorem Reachable.exec {machine : Machine σ ε} {state final : σ} {events : List ε}
    (reachable : machine.Reachable state)
    (executed : machine.exec state events = some final) :
    machine.Reachable final := by
  induction events generalizing state with
  | nil =>
      cases executed
      exact reachable
  | cons event events ih =>
      cases stepped : machine.step state event with
      | none => simp [Machine.exec, stepped] at executed
      | some next =>
          rw [machine.exec_cons events stepped] at executed
          exact ih (.step reachable trivial stepped) executed

/-- Every step the run takes relates its source, its event and its target.  The
run ends at the first event that is impossible. -/
def Along (machine : Machine σ ε) (relation : σ → ε → σ → Prop) :
    σ → List ε → Prop
  | _, [] => True
  | state, event :: events =>
      ∀ next, machine.step state event = some next →
        relation state event next ∧ machine.Along relation next events

variable {machine : Machine σ ε} {relation condition : σ → ε → σ → Prop}

@[simp] theorem along_nil (state : σ) : machine.Along relation state [] := trivial

theorem along_cons (state : σ) (event : ε) (events : List ε) :
    machine.Along relation state (event :: events) ↔
      ∀ next, machine.step state event = some next →
        relation state event next ∧ machine.Along relation next events := Iff.rfl

instance decidableAlong [∀ state event next, Decidable (relation state event next)] :
    (state : σ) → (events : List ε) → Decidable (machine.Along relation state events)
  | _, [] => isTrue trivial
  | state, event :: events =>
      match stepped : machine.step state event with
      | none => isTrue fun next taken => by cases stepped.symm.trans taken
      | some next =>
          have := decidableAlong next events
          decidable_of_iff (relation state event next ∧ machine.Along relation next events)
            (by simp [along_cons, stepped])

/-- A relation holds along two runs in a row when it holds along the first and, from where
that ends, along the second. -/
theorem along_append {state : σ} {first second : List ε} :
    machine.Along relation state (first ++ second) ↔
      machine.Along relation state first ∧
        ∀ middle, machine.exec state first = some middle →
          machine.Along relation middle second := by
  induction first generalizing state with
  | nil => simp
  | cons event first ih =>
      simp only [List.cons_append, along_cons, ih, exec]
      cases machine.step state event with
      | none => simp
      | some next => simp [and_assoc]

/-- The relation holds at the step that follows an executed prefix of the run. -/
theorem Along.at_step {state middle next : σ} {before after : List ε} {event : ε}
    (along : machine.Along relation state (before ++ event :: after))
    (executed : machine.exec state before = some middle)
    (stepped : machine.step middle event = some next) :
    relation middle event next := by
  induction before generalizing state with
  | nil =>
      cases executed
      exact (along next stepped).1
  | cons head before ih =>
      cases headStep : machine.step state head with
      | none => simp [Machine.exec, headStep] at executed
      | some source =>
          rw [machine.exec_cons before headStep] at executed
          exact ih (along source headStep).2 executed

/-- A state property that holds initially and along a run holds at its end. -/
theorem Along.final {good : σ → Prop} {state final : σ} {events : List ε}
    (along : machine.Along (fun _ _ next => good next) state events) (start : good state)
    (executed : machine.exec state events = some final) : good final := by
  induction events generalizing state with
  | nil =>
      cases executed
      exact start
  | cons event events ih =>
      cases stepped : machine.step state event with
      | none => simp [exec, stepped] at executed
      | some next =>
          rw [machine.exec_cons events stepped] at executed
          exact ih (along next stepped).2 (along next stepped).1 executed

/-- A relation that holds along a run holds of its last step, of which a computable
query finds the two states. -/
theorem Along.at_last {state : σ} {before : List ε} {event : ε} (query : σ → σ → Bool)
    (along : machine.Along relation state (before ++ [event]))
    (found : ((machine.exec state before).bind fun middle =>
      (machine.step middle event).map (query middle)) = some true) :
    ∃ middle next, relation middle event next ∧ query middle next = true := by
  simp only [Option.bind_eq_some_iff, Option.map_eq_some_iff] at found
  rcases found with ⟨middle, executed, next, stepped, holds⟩
  exact ⟨middle, next, along.at_step executed stepped, holds⟩

/-- Steps that meet a condition satisfy a relation, when an invariant kept by
these steps makes each single step do so. -/
theorem Along.of_invariant (invariant : σ → Prop)
    (single : ∀ {state next : σ} {event : ε}, invariant state →
      machine.step state event = some next → condition state event next →
      invariant next ∧ relation state event next)
    {state : σ} {events : List ε} (holds : invariant state)
    (met : machine.Along condition state events) :
    machine.Along relation state events := by
  induction events generalizing state with
  | nil => trivial
  | cons event events ih =>
      intro next stepped
      have here := single holds stepped (met next stepped).1
      exact ⟨here.2, ih here.1 (met next stepped).2⟩

/-- What holds along a run may be weakened step by step. -/
theorem Along.imp {state : σ} {events : List ε} (along : machine.Along relation state events)
    (weaker : ∀ {state next : σ} {event : ε},
      relation state event next → condition state event next) :
    machine.Along condition state events :=
  along.of_invariant (fun _ => True) (fun _ _ related => ⟨trivial, weaker related⟩) trivial

theorem along_true {state : σ} {events : List ε} :
    machine.Along (fun _ _ _ => True) state events := by
  induction events generalizing state with
  | nil => trivial
  | cons event events ih => exact fun next _ => ⟨trivial, ih⟩

/-- Two relations that agree on every single step from a state satisfying an
unconditional invariant hold along the same runs. -/
theorem along_iff_of_invariant (invariant : σ → Prop)
    (preserved : ∀ {state next : σ} {event : ε}, invariant state →
      machine.step state event = some next → invariant next)
    (agree : ∀ {state next : σ} {event : ε}, invariant state →
      machine.step state event = some next →
      (relation state event next ↔ condition state event next))
    {state : σ} {events : List ε} (holds : invariant state) :
    machine.Along relation state events ↔ machine.Along condition state events := by
  constructor
  · exact Along.of_invariant invariant
      (fun holds stepped related =>
        ⟨preserved holds stepped, (agree holds stepped).mp related⟩) holds
  · exact Along.of_invariant invariant
      (fun holds stepped met =>
        ⟨preserved holds stepped, (agree holds stepped).mpr met⟩) holds

/-- Two relations hold along the same runs when they agree on every step from a good state,
and the first one leads from good states to good states. -/
theorem along_iff_of_good (invariant good : σ → Prop)
    (preserved : ∀ {state next : σ} {event : ε}, invariant state →
      machine.step state event = some next → invariant next)
    (agree : ∀ {state next : σ} {event : ε}, invariant state → good state →
      machine.step state event = some next →
      (relation state event next ↔ condition state event next))
    (kept : ∀ {state next : σ} {event : ε}, relation state event next → good next)
    {state : σ} {events : List ε} (holds : invariant state) (start : good state) :
    machine.Along relation state events ↔ machine.Along condition state events := by
  induction events generalizing state with
  | nil => exact ⟨fun _ => trivial, fun _ => trivial⟩
  | cons event events ih =>
      simp only [along_cons]
      refine forall_congr' fun next => forall_congr' fun stepped => ?_
      have here := agree holds start stepped
      constructor
      · intro along
        exact ⟨here.mp along.1, (ih (preserved holds stepped) (kept along.1)).mp along.2⟩
      · intro along
        have related := here.mpr along.1
        exact ⟨related, (ih (preserved holds stepped) (kept related)).mpr along.2⟩

/-- A state property holds at every state of a run exactly when the steps meet a
condition, provided that from a state with the property one step keeps it exactly
when that step meets the condition. -/
theorem along_iff_of_propagates (invariant good : σ → Prop) (guard : σ → ε → Prop)
    (preserved : ∀ {state next : σ} {event : ε}, invariant state →
      machine.step state event = some next → invariant next)
    (propagates : ∀ {state next : σ} {event : ε}, invariant state → good state →
      machine.step state event = some next → (good next ↔ guard state event))
    {state : σ} {events : List ε} (holds : invariant state) (start : good state) :
    machine.Along (fun _ _ next => good next) state events ↔
      machine.Along (fun source event _ => guard source event) state events :=
  along_iff_of_good invariant good preserved propagates id holds start

/-! ## History -/

/-- The machine with a history variable that records the events it has executed. -/
def recording (machine : Machine σ ε) : Machine (List ε × σ) ε where
  init := ([], machine.init)
  step source event :=
    (machine.step source.2 event).map fun next => (source.1 ++ [event], next)

theorem step_recording {source next : List ε × σ} {event : ε} :
    machine.recording.step source event = some next ↔
      machine.step source.2 event = some next.2 ∧ next.1 = source.1 ++ [event] := by
  rcases next with ⟨past, target⟩
  simp only [recording, Option.map_eq_some_iff, Prod.mk.injEq]
  constructor
  · intro taken
    rcases taken with ⟨_, stepped, rfl, rfl⟩
    exact ⟨stepped, rfl⟩
  · intro taken
    exact ⟨target, taken.1, taken.2.symm, rfl⟩

/-- Recording the history changes nothing that does not mention it. -/
theorem along_recording {past : List ε} {state : σ} {events : List ε} :
    machine.recording.Along (fun source event next => relation source.2 event next.2)
        (past, state) events ↔ machine.Along relation state events := by
  induction events generalizing past state with
  | nil => exact Iff.rfl
  | cons event events ih =>
      simp only [along_cons, step_recording]
      constructor
      · intro along next stepped
        have here := along (past ++ [event], next) ⟨stepped, rfl⟩
        exact ⟨here.1, ih.mp here.2⟩
      · intro along next taken
        have here := along next.2 taken.1
        exact ⟨here.1, ih.mpr here.2⟩

end Machine

end DMProxy.Transition
