import DMProxy.Platforms.Reactions

/-!
# The sizes douyu reads

`handle_header` subtracts eight from a length it has not looked at, and `handle_data` looks at
the last byte of a payload that may have none.
-/

namespace DMProxy.Platforms.Douyu

open DMProxy.Async
open DMProxy.Network
open DMProxy.Text
open DMProxy.Transition

/-- A length below eight wraps around. -/
theorem payloadSize_of_short {header : Bytes} (short : littleEndian32 header < 8) :
    payloadSize header = littleEndian32 header + unsignedRange - 8 := by
  have positive : 8 < unsignedRange := by decide
  exact Nat.mod_eq_of_lt (by omega)

/-- The size passed on is the integer it should be, and at least one. -/
theorem payloadSize_exact_iff (header : Bytes) :
    ((payloadSize header : Int) = (littleEndian32 header : Int) - 8 ∧ 1 ≤ payloadSize header) ↔
      9 ≤ littleEndian32 header := by
  rcases Nat.lt_or_ge (littleEndian32 header) 8 with short | long
  · have positive : 8 < unsignedRange := by decide
    rw [payloadSize_of_short short]
    omega
  · rw [payloadSize_of_long long]
    omega

abbrev Process := TcpPlatform.Process State

/-- The event is the handler of a header that was read. -/
def HandlesHeader (process : Process) (event : Unit × Progress Completion) (header : Bytes) :
    Prop :=
  ∃ index, event.2 = .run index ∧
    process.state.pending[index]? = some ⟨.readHeader, .ready (.success header)⟩

/-- No exception leaves the handler, and the handler of a header reads as many bytes as the
header announces, at least one, or reports an error. -/
structure ReadsSafely (roomid : Bytes) (before : Process) (event : Unit × Progress Completion)
    (next : Process) : Prop where
  noFault : .fault ∉ next.effects
  size : ∀ header, HandlesHeader before event header →
    .closeCallback ∈ next.effects ∨ ∃ size : Nat,
      (tcp roomid).startedBy before.state next.state event.2 = [.readData size] ∧
        (size : Int) = (littleEndian32 header : Int) - 8 ∧ 1 ≤ size

/-- The headers that are handled announce at least nine bytes behind their first word. -/
def Announces (before : Process) (event : Unit × Progress Completion) : Prop :=
  ∀ header, HandlesHeader before event header → 9 ≤ littleEndian32 header

/-- Every read of a payload is for at least one byte, and fills its buffer. -/
structure Fills (state : State) : Prop where
  positive : ∀ size, .readData size ∈ state.pending.requests → 1 ≤ size
  fills : ∀ (index size : Nat) (data : Bytes),
    state.pending[index]? = some ⟨.readData size, .ready (.success data)⟩ → data.length = size

variable {roomid : Bytes} {before next : Process} {event : Unit × Progress Completion}

theorem fills_finish {state : State} {pending : Pending Request Completion} {index : Nat}
    {completion : Completion} (holds : Fills state)
    (finished : Pending.finish admits completion state.pending index = some pending) :
    Fills { state with pending := pending } := by
  refine ⟨fun size member => ?_, fun position size data located => ?_⟩
  · rw [Pending.requests_finish finished] at member
    exact holds.positive size member
  · rcases Pending.getElem?_of_finish finished with ⟨request, -, rfl, admitted⟩
    simp only [List.getElem?_set] at located
    split at located
    next =>
      split at located
      next =>
        cases located
        simpa [admits, Completion.success] using admitted
      next => cases located
    next => exact holds.fills position size data located

theorem fills_run {state : State} {rest : Pending Request Completion} {index : Nat}
    {request : Request} {completion : Completion} {calls : List (Call Request)}
    (holds : Fills state) (taken : state.pending.take index = some (request, completion, rest))
    (sizes : ∀ size, .readData size ∈ requestsOf calls → 1 ≤ size)
    (honest : ∀ request completion, .startReady request completion ∉ calls) :
    Fills (Io.run { state with pending := rest } calls) := by
  rcases Pending.getElem?_of_take taken with ⟨-, rfl⟩
  refine ⟨fun size member => ?_, fun position size data located => ?_⟩
  · rw [Io.requests_run, List.mem_append] at member
    rcases member with older | started
    · rw [(Pending.requests_take taken).2] at older
      exact holds.positive size (List.mem_of_mem_eraseIdx older)
    · exact sizes size started
  · have older := Io.getElem?_of_run (fun _ => True)
      (fun request completion member => absurd member (honest request completion)) located trivial
      rfl
    rw [List.getElem?_eraseIdx] at older
    split at older
    next => exact holds.fills _ size data older
    next => exact holds.fills _ size data older

theorem fault_notMem_payloadVerdict {payload : Bytes} (some : payload ≠ []) :
    .fault ∉ (payloadVerdict payload).effects := by
  simp only [payloadVerdict]
  cases ends : payload.getLast? with
  | none => exact absurd (List.getLast?_eq_none_iff.mp ends) some
  | some last =>
      dsimp only
      split
      next => simp [Verdict.effects, clientReportWhenError]
      next => split <;> simp [Verdict.effects]

/-- What a handler starts and tells, when the header or payload it is given is long enough. -/
theorem react_safe (roomid : Bytes) (request : Request) (completion : Completion)
    (header : request = .readHeader → completion.ec = none →
      9 ≤ littleEndian32 completion.data)
    (payload : ∀ size, request = .readData size → completion.ec = none → completion.data ≠ []) :
    (∀ size, .readData size ∈ requestsOf (react roomid request completion).1 → 1 ≤ size) ∧
      (∀ request' completion', .startReady request' completion' ∉
        (react roomid request completion).1) ∧
      .fault ∉ (react roomid request completion).2.effects := by
  simp only [react]
  cases failed : completion.ec with
  | some error =>
      dsimp only
      refine ⟨?_, ?_, by simp [Verdict.effects, clientReportWhenError]⟩
      · cases request <;> simp [onError]
      · cases request <;> simp [onError]
  | none =>
      cases request with
      | readHeader =>
          have exact := (payloadSize_exact_iff completion.data).mpr (header rfl failed)
          simp only [onSuccess]
          generalize payloadSize completion.data = size at exact
          have positive : size ≠ 0 := by omega
          rw [if_neg positive]
          refine ⟨?_, by simp, by simp [Verdict.effects]⟩
          simp only [requestsOf_cons, Call.request, Option.toList_some, requestsOf_nil,
            List.append_nil, List.mem_singleton, Request.readData.injEq, forall_eq]
          exact exact.2
      | readData size =>
          refine ⟨?_, ?_, fault_notMem_payloadVerdict (payload size rfl failed)⟩
          · rw [requestsOf_onSuccess_readData]
            split <;> simp
          · simp only [onSuccess]
            split <;> simp
      | resolve | connect | write | heartbeatWait =>
          refine ⟨?_, ?_, List.not_mem_nil⟩
          · simp [onSuccess]
          · simp [onSuccess]

theorem step_handlesHeader {header : Bytes}
    (stepped : (tcp roomid).machine.step before event = some next)
    (handles : HandlesHeader before event header) :
    (tcp roomid).startedBy before.state next.state event.2 = [.readData (payloadSize header)] ∧
      next.effects = [] := by
  rcases handles with ⟨index, ran, located⟩
  have transition := TcpPlatform.transition stepped
  cases transition with
  | finished => cases ran
  | @handled _ position request completion rest taken =>
      cases ran
      rcases Pending.getElem?_of_take taken with ⟨found, -⟩
      cases located.symm.trans found
      refine ⟨?_, rfl⟩
      rw [TcpPlatform.startedBy_of_handled taken]
      exact requestsOf_onSuccess_readHeader roomid header

theorem announces_of_readsSafely (stepped : (tcp roomid).machine.step before event = some next)
    (safe : ReadsSafely roomid before event next) : Announces before event := by
  intro header handles
  rcases step_handlesHeader stepped handles with ⟨started, quiet⟩
  rw [← payloadSize_exact_iff]
  rcases safe.size header handles with reported | ⟨size, reads, exact⟩
  · rw [quiet] at reported
    cases reported
  · rw [started] at reads
    simp only [List.cons.injEq, Request.readData.injEq, and_true] at reads
    rw [reads]
    exact exact

theorem fills_step (holds : Fills before.state)
    (stepped : (tcp roomid).machine.step before event = some next)
    (announces : Announces before event) :
    Fills next.state ∧ ReadsSafely roomid before event next := by
  have size : ∀ header, HandlesHeader before event header →
      .closeCallback ∈ next.effects ∨ ∃ size : Nat,
        (tcp roomid).startedBy before.state next.state event.2 = [.readData size] ∧
          (size : Int) = (littleEndian32 header : Int) - 8 ∧ 1 ≤ size := by
    intro header handles
    exact .inr ⟨payloadSize header, (step_handlesHeader stepped handles).1,
      (payloadSize_exact_iff header).mpr (announces header handles)⟩
  have transition := TcpPlatform.transition stepped
  cases transition with
  | finished result => exact ⟨fills_finish holds result, List.not_mem_nil, size⟩
  | @handled _ index request completion rest taken =>
      rcases Pending.getElem?_of_take taken with ⟨found, -⟩
      rcases completion with ⟨ec, data⟩
      have long : request = .readHeader → ec = none → 9 ≤ littleEndian32 data := by
        intro same success
        subst same
        subst success
        exact announces data ⟨index, rfl, found⟩
      have some : ∀ size, request = .readData size → ec = none → data ≠ [] := by
        intro amount same success empty
        subst same success
        have filled := holds.fills index amount data found
        have positive := holds.positive amount
          (List.mem_of_getElem? (Pending.requests_take taken).1)
        rw [empty, List.length_nil] at filled
        omega
      rcases react_safe roomid request ⟨ec, data⟩ long some with ⟨sizes, honest, noFault⟩
      exact ⟨fills_run holds taken sizes honest, noFault, size⟩

theorem fills_started : Fills (start .fresh) where
  positive := by simp [start, Io.start, State.fresh, Io.idle]
  fills index size data located := by
    cases index with
    | zero => cases located
    | succ index => simp [start, Io.start, State.fresh, Io.idle, Pending.start] at located

/-- Payloads are read with their size exactly along the runs in which every header that is
handled announces at least nine bytes. -/
theorem readsSafely_along_iff (roomid : Bytes) (events : List (Unit × Progress Completion)) :
    (tcp roomid).machine.Along (ReadsSafely roomid) (tcp roomid).machine.init events ↔
      (tcp roomid).machine.Along (fun before event _ => Announces before event)
        (tcp roomid).machine.init events :=
  ⟨fun safe => safe.of_invariant (fun _ => True)
      (fun _ stepped safe => ⟨trivial, announces_of_readsSafely stepped safe⟩) trivial,
    fun announced => announced.of_invariant (fun process => Fills process.state)
      fills_step fills_started⟩

/-- The header of a packet of eight bytes. -/
def shortHeader : Bytes := toLittleEndian32 8 ++ toLittleEndian32 8 ++ [177, 2, 0, 0]

/-- An instance connects, reads the header of a packet without a payload, and goes on to handle
the payload. -/
def emptyPayload : List (Unit × Progress Completion) :=
  [((), .finish 0 (.success [])), ((), .run 0), ((), .finish 0 (.success [])), ((), .run 0),
    ((), .finish 1 (.success shortHeader)), ((), .run 1), ((), .run 1)]

theorem not_readsSafely_along :
    ¬ ∀ (roomid : Bytes) (events : List (Unit × Progress Completion)),
      (tcp roomid).machine.Along (ReadsSafely roomid) (tcp roomid).machine.init events := by
  intro along
  have harmless : (tcp (ascii "1")).machine.Along (fun _ _ next => .fault ∉ next.effects)
      (tcp (ascii "1")).machine.init emptyPayload :=
    (along (ascii "1") emptyPayload).imp fun safe => safe.noFault
  have faults : ¬(tcp (ascii "1")).machine.Along (fun _ _ next => .fault ∉ next.effects)
      (tcp (ascii "1")).machine.init emptyPayload := by
    decide
  exact faults harmless

end DMProxy.Platforms.Douyu
