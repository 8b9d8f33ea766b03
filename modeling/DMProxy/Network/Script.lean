import DMProxy.Network.Io

/-!
# Scripts of calls on the I/O objects

A handler acts on its resolver, socket and timer by a list of calls.  The lemmas say what
a whole list does: it forgets no pending operation, appends the ones it starts, and
changes the status of an older one only by aborting it.
-/

namespace DMProxy.Network

open DMProxy.Async
open DMProxy.Text

/-- A call on one of the I/O objects. -/
inductive Call (ω : Type) where
  | start (request : ω)
  | connect (request : ω)
  | startOnSocket (request : ω)
  | startReady (request : ω) (completion : Completion)
  | rearmTimer (request : ω)
  | closeSocket
  | cancelTimer
  deriving DecidableEq, Repr

/-- The operation a call starts. -/
@[simp] def Call.request {ω : Type} : Call ω → Option ω
  | .start request | .connect request | .startOnSocket request | .startReady request _
  | .rearmTimer request => some request
  | .closeSocket | .cancelTimer => none

/-- The operations a script starts, in order. -/
def requestsOf {ω : Type} (calls : List (Call ω)) : List ω :=
  calls.filterMap Call.request

@[simp] theorem requestsOf_nil {ω : Type} : requestsOf ([] : List (Call ω)) = [] := rfl

@[simp] theorem requestsOf_cons {ω : Type} (call : Call ω) (calls : List (Call ω)) :
    requestsOf (call :: calls) = call.request.toList ++ requestsOf calls := by
  cases call <;> rfl

namespace Io

variable {ω : Type} [IoRequest ω]

/-- Carry out one call. -/
def call (io : Io ω) : Call ω → Io ω
  | .start request => io.start request
  | .connect request => io.connect request
  | .startOnSocket request => io.startOnSocket request
  | .startReady request completion => io.startReady request completion
  | .rearmTimer request => io.rearmTimer request
  | .closeSocket => io.closeSocket
  | .cancelTimer => io.cancelTimer

/-- Carry out a script. -/
def run (io : Io ω) (calls : List (Call ω)) : Io ω :=
  calls.foldl call io

@[simp] theorem run_nil (io : Io ω) : io.run [] = io := rfl

@[simp] theorem run_cons (io : Io ω) (head : Call ω) (calls : List (Call ω)) :
    io.run (head :: calls) = (io.call head).run calls := rfl

theorem run_append (io : Io ω) (first second : List (Call ω)) :
    io.run (first ++ second) = (io.run first).run second := by
  simp [run]

theorem requests_call (io : Io ω) (head : Call ω) :
    (io.call head).pending.requests = io.pending.requests ++ head.request.toList := by
  cases head <;>
    simp [call, start, connect, startOnSocket, startReady, rearmTimer, cancelTimer, closeSocket,
      abort, Call.request]

/-- A script appends the operations it starts. -/
theorem requests_run (io : Io ω) (calls : List (Call ω)) :
    (io.run calls).pending.requests = io.pending.requests ++ requestsOf calls := by
  induction calls generalizing io with
  | nil => simp
  | cons head calls ih =>
      rw [run_cons, ih, requests_call, requestsOf_cons, List.append_assoc]

/-- An operation that has succeeded after a call had succeeded before it, or was started with
its result. -/
theorem getElem?_of_call {head : Call ω} {io : Io ω} {index : Nat} {request : ω}
    {completion : Completion}
    (found : (io.call head).pending[index]? = some ⟨request, .ready completion⟩)
    (success : completion.ec = none) :
    io.pending[index]? = some ⟨request, .ready completion⟩ ∨
      index = io.pending.length ∧ head = .startReady request completion := by
  have aborted : ∀ object, (io.abort object)[index]? = some ⟨request, .ready completion⟩ →
      io.pending[index]? = some ⟨request, .ready completion⟩ := by
    intro object located
    simp only [abort, Pending.cancel, List.getElem?_map, Option.map_eq_some_iff] at located
    rcases located with ⟨⟨held, status⟩, located, equal⟩
    cases status with
    | running =>
        dsimp only at equal
        split at equal
        next =>
          cases equal
          cases success
        next => cases equal
    | ready fixed =>
        cases equal
        exact located
  have appended : ∀ (pending : Pending ω Completion) (started : ω) (status : Status Completion),
      (pending.start started status)[index]? = some ⟨request, .ready completion⟩ →
      pending[index]? = some ⟨request, .ready completion⟩ ∨
        index = pending.length ∧ started = request ∧ status = .ready completion := by
    intro pending started status located
    rcases Nat.lt_or_ge index pending.length with inside | outside
    · rw [Pending.start, List.getElem?_append_left inside] at located
      exact .inl located
    · rw [Pending.start, List.getElem?_append_right outside, List.getElem?_singleton] at located
      split at located
      next last =>
        simp only [Option.some.injEq, Operation.mk.injEq] at located
        exact .inr ⟨by omega, located⟩
      next => cases located
  cases head with
  | start started | connect started =>
      rcases appended _ _ _ found with older | ⟨-, -, fresh⟩
      · exact .inl older
      · cases fresh
  | rearmTimer started =>
      rcases appended _ _ _ found with older | ⟨-, -, fresh⟩
      · exact .inl (aborted .timer older)
      · cases fresh
  | startOnSocket started =>
      rcases appended _ _ _ found with older | ⟨-, -, fresh⟩
      · exact .inl older
      · split at fresh
        next => cases fresh
        next =>
          cases fresh
          cases success
  | startReady started result =>
      rcases appended _ _ _ found with older | ⟨last, rfl, fresh⟩
      · exact .inl older
      · cases fresh
        exact .inr ⟨last, rfl⟩
  | closeSocket => exact .inl (aborted .socket found)
  | cancelTimer => exact .inl (aborted .timer found)

/-- A selected operation that has succeeded after a script had succeeded before it, unless
the script starts one with its result. -/
theorem getElem?_of_run (select : ω → Prop) {calls : List (Call ω)}
    (honest : ∀ request completion, .startReady request completion ∈ calls → ¬select request)
    {io : Io ω} {index : Nat} {request : ω} {completion : Completion}
    (found : (io.run calls).pending[index]? = some ⟨request, .ready completion⟩)
    (selected : select request) (success : completion.ec = none) :
    io.pending[index]? = some ⟨request, .ready completion⟩ := by
  induction calls generalizing io with
  | nil => exact found
  | cons head calls ih =>
      have after := ih (fun request completion member =>
        honest request completion (List.mem_cons_of_mem _ member)) found
      rcases getElem?_of_call after success with before | ⟨-, rfl⟩
      · exact before
      · exact absurd selected (honest request completion List.mem_cons_self)

theorem isReady_abort {object : IoObject} {io : Io ω} {operation : Operation ω Completion}
    (member : operation ∈ io.abort object)
    (ready : ∀ other ∈ io.pending, other.request = operation.request → other.IsReady) :
    operation.IsReady := by
  simp only [abort, Pending.cancel, List.mem_map] at member
  rcases member with ⟨⟨held, status⟩, listed, rfl⟩
  cases status with
  | ready fixed => exact ⟨fixed, rfl⟩
  | running =>
      by_cases stopped : IoRequest.object held == object
      · simp only [stopped, if_true]
        exact ⟨_, rfl⟩
      · simp only [stopped] at ready ⊢
        exact ready _ listed rfl

/-- What was running on the object is aborted. -/
theorem isReady_of_abort {object : IoObject} {io : Io ω} {operation : Operation ω Completion}
    (member : operation ∈ io.abort object)
    (here : IoRequest.object operation.request = object) : operation.IsReady := by
  simp only [abort, Pending.cancel, List.mem_map] at member
  rcases member with ⟨⟨request, status⟩, -, rfl⟩
  cases status with
  | ready completion => exact ⟨completion, rfl⟩
  | running =>
      by_cases stopped : IoRequest.object request == object
      · simp only [stopped, if_true]
        exact ⟨_, rfl⟩
      · simp only [stopped] at here
        exact absurd (beq_iff_eq.mpr here) stopped

/-- While the socket stays closed, the selected operations keep their results, when they are
started on the socket only. -/
theorem isReady_of_run (select : ω → Prop) {calls : List (Call ω)}
    (closed : ∀ request, .connect request ∉ calls)
    (onSocket : ∀ call ∈ calls, ∀ request, call.request = some request → select request →
      call = .startOnSocket request)
    {io : Io ω} (shut : io.socketOpen = false)
    (ready : ∀ operation ∈ io.pending, select operation.request → operation.IsReady) :
    (io.run calls).socketOpen = false ∧
      ∀ operation ∈ (io.run calls).pending, select operation.request → operation.IsReady := by
  induction calls generalizing io with
  | nil => exact ⟨shut, ready⟩
  | cons head calls ih =>
      have here := onSocket head List.mem_cons_self
      have aborted : ∀ object, ∀ operation ∈ io.abort object, select operation.request →
          operation.IsReady := by
        intro object operation member selected
        apply isReady_abort member
        intro other listed same
        exact ready other listed (same ▸ selected)
      have appended : ∀ (pending : Pending ω Completion) (request : ω)
          (status : Status Completion),
          (∀ operation ∈ pending, select operation.request → operation.IsReady) →
          (select request → ∃ completion, status = .ready completion) →
          ∀ operation ∈ pending.start request status, select operation.request →
            operation.IsReady := by
        intro pending request status older fresh operation member selected
        simp only [Pending.start, List.mem_append, List.mem_singleton] at member
        rcases member with listed | rfl
        · exact older operation listed selected
        · exact fresh selected
      apply ih (fun request member => closed request (List.mem_cons_of_mem _ member))
        (fun call member => onSocket call (List.mem_cons_of_mem _ member))
      · cases head with
        | connect request => exact absurd List.mem_cons_self (closed request)
        | closeSocket => rfl
        | _ => exact shut
      · cases head with
        | start request | connect request | startReady request =>
            exact appended _ _ _ ready fun selected => by cases here _ rfl selected
        | rearmTimer request =>
            exact appended _ _ _ (aborted .timer) fun selected => by cases here _ rfl selected
        | startOnSocket request =>
            apply appended _ _ _ ready
            intro _
            simp [shut]
        | closeSocket => exact aborted .socket
        | cancelTimer => exact aborted .timer

end Io

end DMProxy.Network
