import Mathlib.Data.List.InsertIdx

/-!
# Pending asynchronous operations

An operation is started with a request and stays pending until its handler has
run.  It is first `running`, where the environment may still decide its result,
and then `ready`, where the result is fixed and only the handler is due.
Cancelling fixes the result of the running operations it selects; a ready
operation keeps the result it already has.

Operations of one object finish and are handled in any order.
-/

namespace DMProxy.Async

universe u v

/-! ## One element of a list -/

/-- A list around one of its elements, which may be replaced or erased. -/
theorem split_of_getElem? {α : Type u} {items : List α} {index : Nat} {item : α}
    (located : items[index]? = some item) :
    ∃ before after, items = before ++ item :: after ∧
      (∀ other, items.set index other = before ++ other :: after) ∧
      items.eraseIdx index = before ++ after := by
  rcases List.getElem?_eq_some_iff.mp located with ⟨inside, rfl⟩
  refine ⟨items.take index, items.drop (index + 1), ?_, fun other => ?_, ?_⟩
  · rw [← List.drop_eq_getElem_cons inside, List.take_append_drop]
  · rw [List.set_eq_take_append_cons_drop, if_pos inside]
  · exact List.eraseIdx_eq_take_drop_succ items index

/-- At most one position satisfies a predicate that counts at most one element. -/
theorem index_unique_of_countP {α : Type u} {items : List α} {counted : α → Bool}
    (single : items.countP counted ≤ 1) {first second : Nat} {one other : α}
    (atFirst : items[first]? = some one) (atSecond : items[second]? = some other)
    (countedOne : counted one = true) (countedOther : counted other = true) :
    first = second := by
  by_contra different
  rcases split_of_getElem? atFirst with ⟨before, after, split, -, erased⟩
  have member : other ∈ before ++ after := by
    rw [← erased]
    exact List.mem_eraseIdx_iff_getElem?.mpr ⟨second, Ne.symm different, atSecond⟩
  have positive : 0 < (before ++ after).countP counted :=
    List.countP_pos_iff.mpr ⟨other, member, countedOther⟩
  simp only [split, List.countP_append, List.countP_cons, countedOne, if_true] at single positive
  omega

/-! ## Operations -/

/-- Whether the result of a pending operation is still open. -/
inductive Status (ρ : Type v) where
  | running
  | ready (result : ρ)
  deriving DecidableEq, Repr

/-- A started operation whose handler has not run yet. -/
structure Operation (ω : Type u) (ρ : Type v) where
  request : ω
  status : Status ρ
  deriving DecidableEq, Repr

/-- The result of the operation is fixed. -/
def Operation.IsReady {ω : Type u} {ρ : Type v} (operation : Operation ω ρ) : Prop :=
  ∃ result, operation.status = .ready result

/-- The operations of one object, oldest first. -/
abbrev Pending (ω : Type u) (ρ : Type v) := List (Operation ω ρ)

/-- What the executor does next with the pending operations of an object. -/
inductive Progress (ρ : Type v) where
  /-- The operation at a position obtains its result. -/
  | finish (index : Nat) (result : ρ)
  /-- The handler of the operation at a position is run. -/
  | run (index : Nat)
  deriving DecidableEq, Repr

namespace Pending

variable {ω : Type u} {ρ : Type v}

/-- Start an operation with a given status. -/
def start (pending : Pending ω ρ) (request : ω) (status : Status ρ) : Pending ω ρ :=
  pending ++ [⟨request, status⟩]

/-- Give the result `aborted` to every selected operation that is running. -/
def cancel (select : ω → Bool) (aborted : ρ) (pending : Pending ω ρ) : Pending ω ρ :=
  pending.map fun operation =>
    match operation.status with
    | .running =>
        if select operation.request then ⟨operation.request, .ready aborted⟩ else operation
    | .ready _ => operation

/-- Fix the result of the running operation at a position, if its request admits
that result. -/
def finish (admits : ω → ρ → Bool) (result : ρ) : Pending ω ρ → Nat → Option (Pending ω ρ)
  | [], _ => none
  | ⟨request, .running⟩ :: rest, 0 =>
      if admits request result then some (⟨request, .ready result⟩ :: rest) else none
  | ⟨_, .ready _⟩ :: _, 0 => none
  | operation :: rest, index + 1 =>
      (finish admits result rest index).map fun rest => operation :: rest

/-- Take the ready operation at a position out of the pending ones. -/
def take : Pending ω ρ → Nat → Option (ω × ρ × Pending ω ρ)
  | [], _ => none
  | ⟨_, .running⟩ :: _, 0 => none
  | ⟨request, .ready result⟩ :: rest, 0 => some (request, result, rest)
  | operation :: rest, index + 1 =>
      (take rest index).map fun taken => (taken.1, taken.2.1, operation :: taken.2.2)

/-- The operation that is taken is the one at the position. -/
theorem getElem?_of_take {pending rest : Pending ω ρ} {index : Nat} {request : ω} {result : ρ}
    (taken : pending.take index = some (request, result, rest)) :
    pending[index]? = some ⟨request, .ready result⟩ ∧ rest = pending.eraseIdx index := by
  induction pending generalizing index rest with
  | nil => simp [take] at taken
  | cons operation tail ih =>
      cases index with
      | zero =>
          rcases operation with ⟨held, status⟩
          cases status with
          | running => simp [take] at taken
          | ready fixed =>
              simp only [take, Option.some.injEq, Prod.mk.injEq] at taken
              rcases taken with ⟨rfl, rfl, rfl⟩
              exact ⟨rfl, rfl⟩
      | succ index =>
          simp only [take, Option.map_eq_some_iff] at taken
          rcases taken with ⟨⟨held, fixed, others⟩, inner, equal⟩
          simp only [Prod.mk.injEq] at equal
          rcases equal with ⟨rfl, rfl, rfl⟩
          rcases ih inner with ⟨located, rfl⟩
          exact ⟨located, rfl⟩

/-- Taking an operation splits the pending ones around it. -/
theorem take_split {pending rest : Pending ω ρ} {index : Nat} {request : ω} {result : ρ}
    (taken : pending.take index = some (request, result, rest)) :
    ∃ before after, pending = before ++ ⟨request, .ready result⟩ :: after ∧
      rest = before ++ after := by
  rcases getElem?_of_take taken with ⟨located, rfl⟩
  rcases split_of_getElem? located with ⟨before, after, split, -, erased⟩
  exact ⟨before, after, split, erased⟩

theorem mem_of_take {pending rest : Pending ω ρ} {index : Nat} {request : ω} {result : ρ}
    (taken : pending.take index = some (request, result, rest)) :
    ⟨request, .ready result⟩ ∈ pending := by
  rcases take_split taken with ⟨before, after, rfl, -⟩
  simp

theorem subset_of_take {pending rest : Pending ω ρ} {index : Nat} {request : ω} {result : ρ}
    (taken : pending.take index = some (request, result, rest)) : rest ⊆ pending := by
  rcases take_split taken with ⟨before, after, rfl, rfl⟩
  simp

/-- The operation that finishes is the one at the position. -/
theorem getElem?_of_finish {admits : ω → ρ → Bool} {pending next : Pending ω ρ} {index : Nat}
    {result : ρ} (finished : finish admits result pending index = some next) :
    ∃ request, pending[index]? = some ⟨request, .running⟩ ∧
      next = pending.set index ⟨request, .ready result⟩ ∧ admits request result = true := by
  induction pending generalizing index next with
  | nil => simp [finish] at finished
  | cons operation tail ih =>
      cases index with
      | zero =>
          rcases operation with ⟨held, status⟩
          cases status with
          | running =>
              simp only [finish] at finished
              split at finished
              next admitted =>
                cases finished
                exact ⟨held, rfl, rfl, admitted⟩
              next => cases finished
          | ready fixed => simp [finish] at finished
      | succ index =>
          simp only [finish, Option.map_eq_some_iff] at finished
          rcases finished with ⟨others, inner, rfl⟩
          rcases ih inner with ⟨request, located, rfl, admitted⟩
          exact ⟨request, located, rfl, admitted⟩

/-- Finishing changes the status of one operation and nothing else. -/
theorem finish_split {admits : ω → ρ → Bool} {pending next : Pending ω ρ} {index : Nat}
    {result : ρ} (finished : finish admits result pending index = some next) :
    ∃ before request after, pending = before ++ ⟨request, .running⟩ :: after ∧
      next = before ++ ⟨request, .ready result⟩ :: after ∧ admits request result = true := by
  rcases getElem?_of_finish finished with ⟨request, located, rfl, admitted⟩
  rcases split_of_getElem? located with ⟨before, after, split, replaced, -⟩
  exact ⟨before, request, after, split, replaced _, admitted⟩

theorem ne_nil_of_finish {admits : ω → ρ → Bool} {pending next : Pending ω ρ} {index : Nat}
    {result : ρ} (finished : finish admits result pending index = some next) :
    pending ≠ [] := by
  rcases finish_split finished with ⟨before, request, after, rfl, -, -⟩
  simp

/-- Cancelling does nothing to operations that are ready. -/
theorem cancel_of_ready {select : ω → Bool} {aborted : ρ} {pending : Pending ω ρ}
    (ready : ∀ operation ∈ pending, operation.IsReady) :
    pending.cancel select aborted = pending := by
  apply (List.map_congr_left ?_).trans (List.map_id pending)
  intro operation member
  rcases ready operation member with ⟨result, fixed⟩
  simp only [fixed, id_eq]

theorem take_of_getElem? {pending : Pending ω ρ} {index : Nat} {request : ω} {result : ρ}
    (located : pending[index]? = some ⟨request, .ready result⟩) :
    pending.take index = some (request, result, pending.eraseIdx index) := by
  induction pending generalizing index with
  | nil => simp at located
  | cons operation tail ih =>
      cases index with
      | zero =>
          cases located
          rfl
      | succ index =>
          simp only [take, ih located]
          rfl

theorem finish_of_getElem? {admits : ω → ρ → Bool} {pending : Pending ω ρ} {index : Nat}
    {request : ω} {result : ρ} (located : pending[index]? = some ⟨request, .running⟩)
    (admitted : admits request result = true) :
    finish admits result pending index = some (pending.set index ⟨request, .ready result⟩) := by
  induction pending generalizing index with
  | nil => simp at located
  | cons operation tail ih =>
      cases index with
      | zero =>
          cases located
          simp [finish, admitted]
      | succ index =>
          simp only [finish, ih located]
          rfl

/-- The ready operation between two lists is taken out at the length of the first. -/
theorem take_append (before after : Pending ω ρ) (request : ω) (result : ρ) :
    (before ++ ⟨request, .ready result⟩ :: after).take before.length =
      some (request, result, before ++ after) := by
  have located : (before ++ ⟨request, .ready result⟩ :: after)[before.length]? =
      some (⟨request, .ready result⟩ : Operation ω ρ) := by
    simp
  rw [take_of_getElem? located, List.eraseIdx_append_of_length_le (Nat.le_refl _), Nat.sub_self]
  rfl

theorem finish_append {admits : ω → ρ → Bool} (before after : Pending ω ρ) {request : ω}
    {result : ρ} (admitted : admits request result = true) :
    finish admits result (before ++ ⟨request, .running⟩ :: after) before.length =
      some (before ++ ⟨request, .ready result⟩ :: after) := by
  rw [finish_of_getElem? (by simp) admitted]
  simp

/-! ## The requests -/

/-- What the pending operations were started for, oldest first. -/
def requests (pending : Pending ω ρ) : List ω :=
  pending.map Operation.request

@[simp] theorem requests_nil : requests ([] : Pending ω ρ) = [] := rfl

@[simp] theorem length_requests (pending : Pending ω ρ) :
    pending.requests.length = pending.length := by
  simp [requests]

@[simp] theorem requests_start (pending : Pending ω ρ) (request : ω) (status : Status ρ) :
    (pending.start request status).requests = pending.requests ++ [request] := by
  simp [requests, start]

/-- Cancelling forgets no operation. -/
@[simp] theorem requests_cancel (select : ω → Bool) (aborted : ρ) (pending : Pending ω ρ) :
    (pending.cancel select aborted).requests = pending.requests := by
  simp only [requests, cancel, List.map_map, List.map_inj_left, Function.comp_apply]
  intro operation _
  split
  · split <;> rfl
  · rfl

theorem requests_finish {admits : ω → ρ → Bool} {pending next : Pending ω ρ} {index : Nat}
    {result : ρ} (finished : finish admits result pending index = some next) :
    next.requests = pending.requests := by
  rcases finish_split finished with ⟨before, request, after, rfl, rfl, -⟩
  simp [requests]

theorem requests_take {pending rest : Pending ω ρ} {index : Nat} {request : ω} {result : ρ}
    (taken : pending.take index = some (request, result, rest)) :
    pending.requests[index]? = some request ∧
      rest.requests = pending.requests.eraseIdx index := by
  rcases getElem?_of_take taken with ⟨located, rfl⟩
  simp [requests, located, List.eraseIdx_map]

@[simp] theorem isEmpty_cancel (select : ω → Bool) (aborted : ρ) (pending : Pending ω ρ) :
    (pending.cancel select aborted).isEmpty = pending.isEmpty := by
  simp [cancel]

@[simp] theorem cancel_eq_nil {select : ω → Bool} {aborted : ρ} {pending : Pending ω ρ} :
    pending.cancel select aborted = [] ↔ pending = [] := by
  simp [cancel]

end Pending

end DMProxy.Async
