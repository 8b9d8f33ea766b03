import DMProxy.Platforms.Sequence

/-!
# Handlers on several threads

Any number of threads run the `io_service` of the clients, without a strand: a handler is a
sequence of calls and then tells the rest of the program something, and between two of these
steps the handlers of other operations make theirs.  One operation at a time is on the chain
that connects and then reads, whether it is pending or a running handler has yet to start it.
-/

namespace DMProxy.Platforms

open DMProxy.Async
open DMProxy.Network
open DMProxy.Text
open DMProxy.Transition

/-- A handler that runs: the calls it has yet to make, and what it tells in the end. -/
structure RunningHandler (ω : Type) where
  /-- how far the upstream bytes had been read when the operation obtained its result -/
  position : Nat
  calls : List (Call ω)
  verdict : Verdict
  deriving DecidableEq

/-- An instance whose handlers run on several threads. -/
structure Crew (σ ω : Type) where
  state : σ
  /-- how many upstream bytes were read -/
  received : Nat
  /-- `received` when each pending operation obtained its result -/
  arrivals : List Nat
  running : List (RunningHandler ω)
  /-- the positions of the chat messages handed to `publish`, oldest first -/
  published : List Nat
  faulted : Bool

/-- What happens next to such an instance. -/
inductive Turn (ν : Type) where
  /-- The operation at a position obtains its result. -/
  | finish (index : Nat) (completion : Completion)
  /-- A thread enters the handler of the operation at a position. -/
  | enter (choice : ν) (index : Nat)
  /-- A running handler makes its next call, or tells its verdict and returns. -/
  | advance (thread : Nat)

namespace TcpPlatform

variable {σ ω ν : Type} [IoRequest ω] {platform : TcpPlatform σ ω ν}
  {crew next : Crew σ ω} {turn : Turn ν}

/-- The upstream bytes an operation reads. -/
def bytesRead (platform : TcpPlatform σ ω ν) (request : ω) (completion : Completion) : Nat :=
  match platform.action request with
  | .read => completion.data.length
  | .resolve | .connect | .write _ | .wait => 0

/-- An instance from its `start` on. -/
def threaded (platform : TcpPlatform σ ω ν) : Machine (Crew σ ω) (Turn ν) where
  init :=
    { state := platform.started
      received := 0
      arrivals := (platform.io platform.started).pending.map fun _ => 0
      running := []
      published := []
      faulted := false }
  step crew turn :=
    if crew.faulted then none
    else
      match turn with
      | .finish index completion =>
          match (platform.io crew.state).pending[index]?, Pending.finish
              (platform.admits crew.state) completion (platform.io crew.state).pending index with
          | some operation, some pending =>
              let received := crew.received + platform.bytesRead operation.request completion
              some { crew with
                state :=
                  platform.setIo { platform.io crew.state with pending := pending } crew.state
                received := received
                arrivals := crew.arrivals.set index received }
          | _, _ => none
      | .enter choice index =>
          match (platform.io crew.state).pending.take index, crew.arrivals[index]? with
          | some (request, completion, rest), some position =>
              let reaction := platform.react choice crew.state request completion
              some { crew with
                state := platform.setIo { platform.io crew.state with pending := rest }
                  reaction.state
                arrivals := crew.arrivals.eraseIdx index
                running := crew.running ++ [⟨position, reaction.calls, reaction.verdict⟩] }
          | _, _ => none
      | .advance thread =>
          match crew.running[thread]? with
          | none => none
          | some ⟨position, call :: calls, verdict⟩ =>
              some { crew with
                state := platform.setIo ((platform.io crew.state).call call) crew.state
                arrivals := crew.arrivals ++ call.request.toList.map fun _ => crew.received
                running := crew.running.set thread ⟨position, calls, verdict⟩ }
          | some ⟨position, [], verdict⟩ =>
              some { crew with
                running := crew.running.eraseIdx thread
                published := crew.published ++ if verdict.IsChat then [position] else []
                faulted := verdict = .faults }

/-- What a turn can do. -/
inductive TurnTaken (platform : TcpPlatform σ ω ν) (crew : Crew σ ω) :
    Turn ν → Crew σ ω → Prop where
  | finished {index request completion pending}
      (located : (platform.io crew.state).pending[index]? = some ⟨request, .running⟩)
      (result : Pending.finish (platform.admits crew.state) completion
        (platform.io crew.state).pending index = some pending) :
      TurnTaken platform crew (.finish index completion)
        { crew with
          state := platform.setIo { platform.io crew.state with pending := pending } crew.state
          received := crew.received + platform.bytesRead request completion
          arrivals := crew.arrivals.set index
            (crew.received + platform.bytesRead request completion) }
  | entered {choice index request completion rest position}
      (taken : (platform.io crew.state).pending.take index = some (request, completion, rest))
      (arrived : crew.arrivals[index]? = some position) :
      TurnTaken platform crew (.enter choice index)
        { crew with
          state := platform.setIo { platform.io crew.state with pending := rest }
            (platform.react choice crew.state request completion).state
          arrivals := crew.arrivals.eraseIdx index
          running := crew.running ++
            [⟨position, (platform.react choice crew.state request completion).calls,
              (platform.react choice crew.state request completion).verdict⟩] }
  | called {thread position call calls verdict}
      (located : crew.running[thread]? = some ⟨position, call :: calls, verdict⟩) :
      TurnTaken platform crew (.advance thread)
        { crew with
          state := platform.setIo ((platform.io crew.state).call call) crew.state
          arrivals := crew.arrivals ++ call.request.toList.map fun _ => crew.received
          running := crew.running.set thread ⟨position, calls, verdict⟩ }
  | returned {thread position verdict}
      (located : crew.running[thread]? = some ⟨position, [], verdict⟩) :
      TurnTaken platform crew (.advance thread)
        { crew with
          running := crew.running.eraseIdx thread
          published := crew.published ++ if verdict.IsChat then [position] else []
          faulted := verdict = .faults }

theorem turnTaken (stepped : platform.threaded.step crew turn = some next) :
    TurnTaken platform crew turn next := by
  simp only [threaded] at stepped
  split at stepped
  next => cases stepped
  next =>
    cases turn with
    | finish index completion =>
        dsimp only at stepped
        split at stepped
        next operation pending located result =>
          cases stepped
          rcases Pending.getElem?_of_finish result with ⟨request, running, -, -⟩
          cases running.symm.trans located
          exact .finished running result
        next => cases stepped
    | enter choice index =>
        dsimp only at stepped
        split at stepped
        next request completion rest position taken arrived =>
          cases stepped
          exact .entered taken arrived
        next => cases stepped
    | advance thread =>
        dsimp only at stepped
        split at stepped
        next => cases stepped
        next position call calls verdict located =>
          cases stepped
          exact .called located
        next position verdict located =>
          cases stepped
          exact .returned located

/-! ## The chain -/

/-- The operations that connect and then read. -/
def onChain (platform : TcpPlatform σ ω ν) (request : ω) : Bool :=
  platform.setup request || platform.action request == .read

/-- A handler on the chain continues it at most once, and no other handler enters it. -/
structure Chained (platform : TcpPlatform σ ω ν) : Prop where
  started : ∃ request, (platform.io platform.started).pending = [⟨request, .running⟩]
  continues : ∀ choice state request completion, platform.onChain request = true →
    (requestsOf (platform.react choice state request completion).calls).countP
      platform.onChain ≤ 1
  apart : ∀ choice state request completion, platform.onChain request = false →
    (requestsOf (platform.react choice state request completion).calls).countP
      platform.onChain = 0
  chats : ∀ choice state request completion,
    (platform.react choice state request completion).verdict.IsChat →
    platform.action request = .read ∧ completion.ec = none

/-- The operations that are pending, or that a running handler has yet to start. -/
def upcoming (platform : TcpPlatform σ ω ν) (crew : Crew σ ω) : List ω :=
  (platform.io crew.state).pending.requests ++
    crew.running.flatMap fun handler => requestsOf handler.calls

theorem Chained.countP_upcoming_init (chained : platform.Chained) :
    (platform.upcoming platform.threaded.init).countP platform.onChain ≤ 1 := by
  rcases chained.started with ⟨request, started⟩
  simp only [upcoming, threaded, started, List.flatMap_nil, List.append_nil]
  exact List.countP_le_length

/-- One operation at a time is on the chain. -/
theorem Chained.countP_upcoming (chained : platform.Chained)
    (single : (platform.upcoming crew).countP platform.onChain ≤ 1)
    (taken : TurnTaken platform crew turn next) :
    (platform.upcoming next).countP platform.onChain ≤ 1 := by
  simp only [upcoming, List.countP_append] at single ⊢
  cases taken with
  | finished located result =>
      rw [platform.io_setIo, Pending.requests_finish result]
      exact single
  | @entered choice index request completion rest position taken arrived =>
      rcases Pending.take_split taken with ⟨before, after, pending, rfl⟩
      rw [platform.io_setIo]
      simp only [pending, Pending.requests, List.map_append, List.map_cons, List.countP_append,
        List.countP_cons, List.flatMap_append, List.flatMap_cons, List.flatMap_nil,
        List.append_nil] at single ⊢
      cases chain : platform.onChain request with
      | true =>
          have continues := chained.continues choice crew.state request completion chain
          simp only [chain, if_true] at single
          omega
      | false =>
          have apart := chained.apart choice crew.state request completion chain
          omega
  | @called thread position call calls verdict located =>
      rcases split_of_getElem? located with ⟨before, after, running, replaced, -⟩
      rw [platform.io_setIo, Io.requests_call, replaced]
      simp only [running, List.countP_append, List.flatMap_append, List.flatMap_cons,
        requestsOf_cons] at single ⊢
      omega
  | @returned thread position verdict located =>
      rcases split_of_getElem? located with ⟨before, after, running, -, erased⟩
      rw [erased]
      simp only [running, List.countP_append, List.flatMap_append, List.flatMap_cons] at single ⊢
      omega

end TcpPlatform

end DMProxy.Platforms
