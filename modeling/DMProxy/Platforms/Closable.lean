import DMProxy.Platforms.Sequence

/-!
# Calls of close

The program calls `close` on an instance between two of its handlers.  It aborts what is
running on the socket and the timer, and starts nothing.
-/

namespace DMProxy.Platforms

open DMProxy.Async
open DMProxy.Network
open DMProxy.Transition

/-- What happens to an instance that may be closed between two handlers. -/
inductive Stimulus (ν : Type) where
  | close
  | progress (event : ν × Progress Completion)

namespace TcpPlatform

variable {σ ω ν : Type} [IoRequest ω] {platform : TcpPlatform σ ω ν}
  {process next : Process σ} {stimulus : Stimulus ν}

/-- The process after a call of `close`. -/
def closed (platform : TcpPlatform σ ω ν) (process : Process σ) : Process σ :=
  { process with state := platform.close process.state, effects := [] }

/-- An instance from its `start` on, with calls of `close`. -/
def closable (platform : TcpPlatform σ ω ν) : Machine (Process σ) (Stimulus ν) where
  init := platform.machine.init
  step process
    | .close => if .fault ∈ process.effects then none else some (platform.closed process)
    | .progress event => platform.machine.step process event

/-- The operations that are started. -/
def issued (platform : TcpPlatform σ ω ν) (before after : σ) : Stimulus ν → List ω
  | .close => (platform.io after).pending.requests.drop (platform.io before).pending.length
  | .progress event => platform.startedBy before after event.2

theorem closable_cases (stepped : platform.closable.step process stimulus = some next) :
    stimulus = .close ∧ next = platform.closed process ∨
      ∃ event, stimulus = .progress event ∧ Transition platform process event next := by
  cases stimulus with
  | progress event => exact .inr ⟨event, rfl, transition stepped⟩
  | close =>
      simp only [closable] at stepped
      split at stepped
      next => cases stepped
      next =>
        cases stepped
        exact .inl ⟨rfl, rfl⟩

/-- What `close` makes of a pending operation. -/
def abandoned (operation : Operation ω Completion) : Operation ω Completion :=
  match operation.status with
  | .running =>
      if IoRequest.object operation.request = .resolver then operation
      else ⟨operation.request, .ready (.failure .operationAborted)⟩
  | .ready _ => operation

theorem requests_close (state : σ) :
    (platform.io (platform.close state)).pending.requests =
      (platform.io state).pending.requests := by
  rw [platform.close_eq, platform.io_setIo, Io.requests_run]
  simp

theorem pending_close (state : σ) :
    (platform.io (platform.close state)).pending =
      (platform.io state).pending.map abandoned := by
  simp only [platform.close_eq, platform.io_setIo, Io.run_cons, Io.run_nil, Io.call,
    Io.closeSocket, Io.cancelTimer, Io.abort, Pending.cancel, List.map_map, List.map_inj_left,
    Function.comp_apply, abandoned]
  intro operation _
  rcases operation with ⟨request, status⟩
  cases status with
  | ready => rfl
  | running =>
      by_cases onSocket : IoRequest.object request = .socket
      · simp [onSocket]
      · by_cases onTimer : IoRequest.object request = .timer
        · simp [onTimer]
        · have onResolver : IoRequest.object request = .resolver := by
            cases object : IoRequest.object request with
            | resolver => rfl
            | socket => exact absurd object onSocket
            | timer => exact absurd object onTimer
          simp [onResolver]

theorem issued_close (process : Process σ) :
    platform.issued process.state (platform.closed process).state .close = [] := by
  simp only [issued, closed, requests_close]
  rw [← Pending.length_requests, List.drop_length]

theorem Orderly.closed (orderly : platform.Orderly process.state) :
    platform.Orderly (platform.closed process).state := by
  simpa only [Orderly, TcpPlatform.closed, requests_close] using orderly

/-- The invariant of runs with calls of `close`. -/
theorem Sequential.settled_of_closable (sequential : platform.Sequential)
    (reachable : platform.closable.Reachable process) : platform.Settled process := by
  have initial : platform.Settled platform.closable.init := sequential.settled_init
  refine reachable.invariant initial ?_
  intro source target stimulus _ settled _ stepped
  rcases closable_cases stepped with ⟨-, rfl⟩ | ⟨event, -, transition⟩
  · exact ⟨settled.orderly.closed, by simpa only [closed, requests_close] using settled.reported⟩
  · exact sequential.settled_step settled transition

end TcpPlatform

end DMProxy.Platforms
