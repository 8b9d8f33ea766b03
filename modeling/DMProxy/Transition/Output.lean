import DMProxy.Transition.Machine

/-!
# What the steps of a run put out

Every step may put something out, and the outputs of a run are those of its steps in order.  A
log in the state that grows by a part of the output with every step is a part of the outputs of
the whole run.
-/

namespace DMProxy.Transition

namespace Machine

universe u v w

variable {σ : Type u} {ε : Type v} {α : Type w}

/-- The outputs of the steps of a run, up to the first event that is impossible. -/
def outputs (machine : Machine σ ε) (output : σ → ε → List α) : σ → List ε → List α
  | _, [] => []
  | state, event :: events =>
      match machine.step state event with
      | some next => output state event ++ machine.outputs output next events
      | none => []

variable {machine : Machine σ ε} {output : σ → ε → List α}

theorem outputs_cons {state next : σ} {event : ε} (events : List ε)
    (stepped : machine.step state event = some next) :
    machine.outputs output state (event :: events) =
      output state event ++ machine.outputs output next events := by
  simp only [outputs, stepped]

theorem outputs_map {β : Type w} (change : α → β) (state : σ) (events : List ε) :
    machine.outputs (fun state event => (output state event).map change) state events =
      (machine.outputs output state events).map change := by
  induction events generalizing state with
  | nil => rfl
  | cons event events ih =>
      cases stepped : machine.step state event with
      | none => simp [outputs, stepped]
      | some next =>
          rw [outputs_cons events stepped, outputs_cons events stepped, ih, List.map_append]

/-- What is put out in a run is put out by one of its steps. -/
theorem mem_outputs {state : σ} {events : List ε} {item : α}
    (member : item ∈ machine.outputs output state events) :
    ∃ before event after middle, events = before ++ event :: after ∧
      machine.exec state before = some middle ∧ item ∈ output middle event := by
  induction events generalizing state with
  | nil => cases member
  | cons event events ih =>
      cases stepped : machine.step state event with
      | none => simp [outputs, stepped] at member
      | some next =>
          rw [outputs_cons events stepped, List.mem_append] at member
          rcases member with here | later
          · exact ⟨[], event, events, state, rfl, rfl, here⟩
          · rcases ih later with ⟨before, other, after, middle, rfl, executed, member⟩
            exact ⟨event :: before, other, after, middle, rfl,
              (machine.exec_cons before stepped).trans executed, member⟩

/-- A log to which every step adds a part of its output; what counts as a part may be put
together in the order of the steps. -/
theorem log_of_run {log : σ → List α} {part : List α → List α → Prop} (nothing : part [] [])
    (join : ∀ {one two whole more : List α}, part one whole → part two more →
      part (one ++ two) (whole ++ more))
    (invariant : σ → Prop) {condition : σ → ε → σ → Prop}
    (grows : ∀ {state next : σ} {event : ε}, invariant state →
      machine.step state event = some next → condition state event next →
      invariant next ∧ ∃ new, log next = log state ++ new ∧ part new (output state event))
    {state final : σ} {events : List ε} (holds : invariant state)
    (met : machine.Along condition state events)
    (executed : machine.exec state events = some final) :
    ∃ new, log final = log state ++ new ∧ part new (machine.outputs output state events) := by
  induction events generalizing state with
  | nil =>
      cases executed
      exact ⟨[], (List.append_nil _).symm, nothing⟩
  | cons event events ih =>
      cases stepped : machine.step state event with
      | none => simp [exec, stepped] at executed
      | some next =>
          rw [machine.exec_cons events stepped] at executed
          rcases grows holds stepped (met next stepped).1 with ⟨kept, new, grown, here⟩
          rcases ih kept (met next stepped).2 executed with ⟨more, grown', later⟩
          refine ⟨new ++ more, ?_, ?_⟩
          · rw [grown', grown, List.append_assoc]
          · rw [outputs_cons events stepped]
            exact join here later

/-- What relates the events so far to the state holds at the end of a run, if it does at its
beginning and every step keeps it. -/
theorem history_of_run (holds : List ε → σ → Prop)
    (kept : ∀ {past : List ε} {state next : σ} {event : ε}, holds past state →
      machine.step state event = some next → holds (past ++ [event]) next)
    {past events : List ε} {state final : σ} (start : holds past state)
    (executed : machine.exec state events = some final) : holds (past ++ events) final := by
  induction events generalizing past state with
  | nil =>
      cases executed
      rwa [List.append_nil]
  | cons event events ih =>
      cases stepped : machine.step state event with
      | none => simp [exec, stepped] at executed
      | some next =>
          rw [machine.exec_cons events stepped] at executed
          have later := ih (kept start stepped) executed
          rwa [List.append_assoc] at later

end Machine

end DMProxy.Transition
