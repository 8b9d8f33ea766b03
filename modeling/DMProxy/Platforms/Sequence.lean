import DMProxy.Platforms.Reactions

/-!
# The connection sequence

A TCP platform connects by a chain of operations, of which one at a time is pending.  Once
it is connected, reads, writes and timer waits are pending side by side, and the chain is
never entered again.
-/

namespace DMProxy.Platforms

open DMProxy.Async
open DMProxy.Network
open DMProxy.Text
open DMProxy.Transition

/-- A read, a write or a timer wait. -/
def Action.IsTraffic : Action → Prop
  | .read | .write _ | .wait => True
  | .resolve | .connect => False

namespace Verdict

@[simp] theorem count_effects (verdict : Verdict) [Decidable verdict.IsReport] :
    verdict.effects.count .closeCallback = if verdict.IsReport then 1 else 0 := by
  cases verdict <;> simp [effects, IsReport, clientReportWhenError]

end Verdict

namespace TcpPlatform

variable {σ ω ν : Type} [IoRequest ω] {platform : TcpPlatform σ ω ν} {choice : ν}
  {process next : Process σ} {event : ν × Progress Completion} {request : ω}

/-- The connection is set up by one operation after the other, and everything else follows
it. -/
structure Sequential (platform : TcpPlatform σ ω ν) : Prop where
  started : ∃ request, (platform.io platform.started).pending.requests = [request] ∧
    platform.setup request = true
  setup_next : ∀ choice state request completion, platform.setup request = true →
    (∃ later, requestsOf (platform.react choice state request completion).calls = [later] ∧
      platform.setup later = true) ∨
    ∀ later ∈ requestsOf (platform.react choice state request completion).calls,
      platform.setup later = false
  setup_report : ∀ choice state request completion, platform.setup request = true →
    (platform.react choice state request completion).verdict.IsReport →
    requestsOf (platform.react choice state request completion).calls = []
  traffic_next : ∀ choice state request completion, platform.setup request = false →
    ∀ later ∈ requestsOf (platform.react choice state request completion).calls,
      platform.setup later = false
  written : ∀ choice state request packet completion, platform.setup request = false →
    platform.action request = .write packet → completion.ec = none →
    requestsOf (platform.react choice state request completion).calls = [] ∧
      (platform.react choice state request completion).verdict = .quiet
  restless : ∀ choice state request completion, platform.setup request = false →
    (∀ packet, platform.action request = .write packet → completion.ec ≠ none) →
    (platform.react choice state request completion).verdict.IsReport ∨
      ∃ later ∈ requestsOf (platform.react choice state request completion).calls,
        (platform.action later).IsTraffic

/-- Either one operation of the connection sequence is pending, or none is. -/
def Orderly (platform : TcpPlatform σ ω ν) (state : σ) : Prop :=
  (∃ request, (platform.io state).pending.requests = [request] ∧
    platform.setup request = true) ∨
  ∀ request ∈ (platform.io state).pending.requests, platform.setup request = false

/-- The invariant of every run. -/
structure Settled (platform : TcpPlatform σ ω ν) (process : Process σ) : Prop where
  orderly : platform.Orderly process.state
  reported : 0 < process.reports →
    ∀ request ∈ (platform.io process.state).pending.requests, platform.setup request = false

theorem Sequential.settled_init (sequential : platform.Sequential) :
    platform.Settled platform.machine.init where
  orderly := .inl sequential.started
  reported reports := absurd reports (Nat.lt_irrefl 0)

/-- Where an operation of the connection sequence is handled, no other one is pending. -/
theorem Orderly.rest_of_setup {state : σ} {index : Nat} {completion : Completion}
    {rest : Pending ω Completion} (orderly : platform.Orderly state)
    (taken : (platform.io state).pending.take index = some (request, completion, rest))
    (setup : platform.setup request = true) : rest = [] := by
  rcases Pending.requests_take taken with ⟨located, erased⟩
  rcases orderly with ⟨only, single, -⟩ | none
  · rw [single] at located erased
    cases index with
    | zero => simpa [Pending.requests] using erased
    | succ index => simp at located
  · have traffic := none request (List.mem_of_getElem? located)
    cases setup.symm.trans traffic

/-- The other pending operations, where one that is not of the sequence is handled. -/
theorem Orderly.rest_of_traffic {state : σ} {index : Nat} {completion : Completion}
    {rest : Pending ω Completion} (orderly : platform.Orderly state)
    (taken : (platform.io state).pending.take index = some (request, completion, rest))
    (traffic : platform.setup request = false) :
    ∀ other ∈ rest.requests, platform.setup other = false := by
  rcases Pending.requests_take taken with ⟨located, erased⟩
  rcases orderly with ⟨only, single, setup⟩ | none
  · rw [single] at located
    cases index with
    | zero =>
        simp only [List.getElem?_cons_zero, Option.some.injEq] at located
        subst located
        cases setup.symm.trans traffic
    | succ index => simp at located
  · intro other member
    rw [erased] at member
    exact none other (List.mem_of_mem_eraseIdx member)

/-- Whatever is handled, none of the others is of the connection sequence. -/
theorem Orderly.rest {state : σ} {index : Nat} {completion : Completion}
    {rest : Pending ω Completion} (orderly : platform.Orderly state)
    (taken : (platform.io state).pending.take index = some (request, completion, rest)) :
    ∀ other ∈ rest.requests, platform.setup other = false := by
  cases setup : platform.setup request with
  | true =>
      rw [orderly.rest_of_setup taken setup]
      simp
  | false => exact orderly.rest_of_traffic taken setup

/-- The requests that are pending after a handler. -/
theorem requests_handled (state state' : σ) (rest : Pending ω Completion)
    (calls : List (Call ω)) :
    (platform.io (platform.setIo (Io.run { platform.io state with pending := rest } calls)
      state')).pending.requests = rest.requests ++ requestsOf calls := by
  rw [platform.io_setIo, Io.requests_run]

theorem Sequential.orderly_handled (sequential : platform.Sequential) {state : σ} {index : Nat}
    {completion : Completion} {rest : Pending ω Completion} (orderly : platform.Orderly state)
    (taken : (platform.io state).pending.take index = some (request, completion, rest)) :
    platform.Orderly (platform.setIo (Io.run { platform.io state with pending := rest }
      (platform.react choice state request completion).calls)
      (platform.react choice state request completion).state) := by
  rw [Orderly, requests_handled]
  cases setup : platform.setup request with
  | true =>
      rw [orderly.rest_of_setup taken setup]
      exact sequential.setup_next choice state request completion setup
  | false =>
      right
      intro other member
      rcases List.mem_append.mp member with older | started
      · exact orderly.rest_of_traffic taken setup other older
      · exact sequential.traffic_next choice state request completion setup other started

theorem Sequential.settled_step (sequential : platform.Sequential)
    (settled : platform.Settled process)
    (transition : Transition platform process event next) : platform.Settled next := by
  cases transition with
  | finished result =>
      have same := Pending.requests_finish result
      constructor
      · simpa only [Orderly, io_setIo, same] using settled.orderly
      · simpa only [io_setIo, same] using settled.reported
  | @handled choice index request completion rest taken =>
      refine ⟨sequential.orderly_handled settled.orderly taken, fun reports => ?_⟩
      rw [requests_handled]
      intro other member
      rcases List.mem_append.mp member with older | started
      · exact settled.orderly.rest taken other older
      · cases setup : platform.setup request with
        | false => exact sequential.traffic_next choice _ request completion setup other started
        | true =>
            -- Of the connection sequence only the handler that reports now is left.
            by_cases reporting :
                (platform.react choice process.state request completion).verdict.IsReport
            · rw [sequential.setup_report choice _ request completion setup reporting] at started
              cases started
            · classical
              simp only [Verdict.count_effects, reporting, if_false, Nat.add_zero] at reports
              rcases Pending.requests_take taken with ⟨located, -⟩
              have traffic := settled.reported reports request (List.mem_of_getElem? located)
              cases setup.symm.trans traffic

end TcpPlatform

/-! ## Both platforms are sequential -/

namespace Douyu

theorem sequential (roomid : Bytes) : (tcp roomid).Sequential where
  started := ⟨.resolve, rfl, rfl⟩
  setup_next _ _ request completion sets := by
    rcases completion with ⟨ec, data⟩
    cases request with
    | resolve | connect => cases ec <;> simp [tcp, react, onError, onSuccess, setup]
    | write | readHeader | readData | heartbeatWait => cases sets
  setup_report _ _ request completion sets reporting := by
    rcases completion with ⟨ec, data⟩
    cases request with
    | resolve | connect =>
        cases ec with
        | none => cases reporting
        | some error => rfl
    | write | readHeader | readData | heartbeatWait => cases sets
  traffic_next _ _ request completion traffic := by
    rcases completion with ⟨ec, data⟩
    cases request with
    | resolve | connect => cases traffic
    | write | heartbeatWait => cases ec <;> simp [tcp, react, onError, onSuccess, setup]
    | readHeader => cases ec <;> simp [tcp, react, onError, setup]
    | readData =>
        cases ec with
        | none =>
            simp only [tcp, react, requestsOf_onSuccess_readData]
            split <;> simp [setup]
        | some error => simp [tcp, react, onError, setup]
  written _ _ request packet completion traffic writes success := by
    cases request with
    | write => simp [tcp, react, success, onSuccess]
    | resolve | connect | readHeader | readData | heartbeatWait => cases writes
  restless _ _ request completion traffic other := by
    rcases completion with ⟨ec, data⟩
    cases ec with
    | some error => exact .inl trivial
    | none =>
        right
        cases request with
        | resolve | connect => cases traffic
        | write packet => exact absurd rfl (other packet rfl)
        | readHeader => exact ⟨.readData (payloadSize data), by simp [tcp, react], trivial⟩
        | readData => exact ⟨.readHeader, by simp [tcp, react], trivial⟩
        | heartbeatWait => exact ⟨.heartbeatWait, by simp [tcp, react, onSuccess], trivial⟩

end Douyu

namespace Bilibili

/-- An error is reported, unless it is the end of the HTTP response. -/
theorem react_error (libraries : Libraries) (roomid : Bytes) (uid : Nat) (state : State)
    (request : Request) (error : ErrorCode) (data : Bytes) :
    ((react libraries roomid uid state request ⟨some error, data⟩).calls = onError request ∧
      (react libraries roomid uid state request ⟨some error, data⟩).verdict.IsReport) ∨
    request = .httpReadContent ∧ error = .eof ∧
      react libraries roomid uid state request ⟨some error, data⟩ =
        onEof libraries (receive .httpReadContent data state) := by
  simp only [react, reactFrom]
  split
  next ended => exact .inr ⟨ended.1, ended.2, by rw [ended.1]⟩
  next => exact .inl ⟨rfl, trivial⟩

theorem requestsOf_onError_of_setup {request : Request} (sets : setup request = true) :
    requestsOf (onError request) = [] := by
  cases request <;> first | rfl | cases sets

theorem setup_onError (request : Request) :
    ∀ later ∈ requestsOf (onError request), setup later = false := by
  cases request <;> simp [onError, setup]

theorem sequential (libraries : Libraries) (roomid : Bytes) :
    (tcp libraries roomid).Sequential where
  started := ⟨.httpResolve, rfl, rfl⟩
  setup_next uid state request completion sets := by
    rcases completion with ⟨ec, data⟩
    cases ec with
    | some error =>
        rcases react_error libraries roomid uid state request error data with
          ⟨calls, -⟩ | ⟨-, -, ended⟩
        · right
          simp [tcp, calls, requestsOf_onError_of_setup sets]
        · simp only [tcp, ended]
          rcases onEof_cases libraries (receive .httpReadContent data state) with
            ⟨nothing, -⟩ | ⟨resolves, -⟩
          · simp [nothing]
          · exact .inl ⟨_, resolves, rfl⟩
    | none =>
        cases request with
        | httpReadStatusLine =>
            rcases onStatusLine_cases (receive .httpReadStatusLine data state) with
              ⟨nothing, -⟩ | ⟨reads, -⟩
            · right
              simp [tcp, react, reactFrom, onSuccess, nothing]
            · exact .inl ⟨_, reads, rfl⟩
        | httpWrite => exact .inl ⟨.httpReadStatusLine, requestsOf_untilCall .., rfl⟩
        | httpResolve | httpConnect | httpReadHeader | httpReadContent | tcpResolve =>
            left
            simp [tcp, react, reactFrom, onSuccess, setup]
        | tcpConnect =>
            right
            simp [tcp, react, reactFrom, onSuccess, setup]
        | write | readHeader | readData | skip | heartbeatWait => cases sets
  setup_report uid state request completion sets reporting := by
    rcases completion with ⟨ec, data⟩
    cases ec with
    | some error =>
        rcases react_error libraries roomid uid state request error data with
          ⟨calls, -⟩ | ⟨-, -, ended⟩
        · simp [tcp, calls, requestsOf_onError_of_setup sets]
        · simp only [tcp, ended] at reporting ⊢
          rcases onEof_cases libraries (receive .httpReadContent data state) with
            ⟨nothing, -⟩ | ⟨-, quiet⟩
          · exact nothing
          · rw [quiet] at reporting
            cases reporting
    | none =>
        cases request with
        | httpReadStatusLine =>
            rcases onStatusLine_cases (receive .httpReadStatusLine data state) with
              ⟨nothing, -⟩ | ⟨-, quiet⟩
            · simp [tcp, react, reactFrom, onSuccess, nothing]
            · simp [tcp, react, reactFrom, onSuccess, quiet, Verdict.IsReport] at reporting
        | httpResolve | httpConnect | httpWrite | httpReadHeader | httpReadContent
        | tcpResolve | tcpConnect => cases reporting
        | write | readHeader | readData | skip | heartbeatWait => cases sets
  traffic_next uid state request completion traffic := by
    rcases completion with ⟨ec, data⟩
    cases ec with
    | some error =>
        rcases react_error libraries roomid uid state request error data with
          ⟨calls, -⟩ | ⟨rfl, -, -⟩
        · simp only [tcp, calls]
          exact setup_onError request
        · cases traffic
    | none =>
        cases request with
        | httpResolve | httpConnect | httpWrite | httpReadStatusLine | httpReadHeader
        | httpReadContent | tcpResolve | tcpConnect => cases traffic
        | write | skip | heartbeatWait => simp [tcp, react, reactFrom, onSuccess, setup]
        | readHeader =>
            simp only [tcp, react, reactFrom, onSuccess]
            split
            · simp [setup]
            · split <;> simp [setup]
        | readData =>
            simp only [tcp, react, reactFrom, onSuccess]
            split <;> simp [setup]
  written uid state request packet completion traffic writes success := by
    cases request with
    | write => simp [tcp, react, reactFrom, success, onSuccess]
    | httpWrite => cases traffic
    | _ => cases writes
  restless uid state request completion traffic other := by
    rcases completion with ⟨ec, data⟩
    cases ec with
    | some error =>
        rcases react_error libraries roomid uid state request error data with
          ⟨-, reporting⟩ | ⟨rfl, -, -⟩
        · exact .inl reporting
        · cases traffic
    | none =>
        right
        cases request with
        | httpResolve | httpConnect | httpWrite | httpReadStatusLine | httpReadHeader
        | httpReadContent | tcpResolve | tcpConnect => cases traffic
        | write packet => exact absurd rfl (other packet rfl)
        | readHeader =>
            simp only [tcp, react, reactFrom, onSuccess]
            split
            · exact ⟨.readHeader, by simp, trivial⟩
            · split
              · exact ⟨.readData (bigEndian32 data - 16), by simp, trivial⟩
              · exact ⟨.skip (bigEndian32 data - 16), by simp, trivial⟩
        | readData | skip =>
            exact ⟨.readHeader, by simp [tcp, react, reactFrom, onSuccess], trivial⟩
        | heartbeatWait =>
            exact ⟨.heartbeatWait, by simp [tcp, react, reactFrom, onSuccess], trivial⟩

end Bilibili

end DMProxy.Platforms
