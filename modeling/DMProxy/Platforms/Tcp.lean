import DMProxy.Network.Script
import DMProxy.Platforms.Chat
import DMProxy.Transition.Machine

/-!
# The TCP platforms

Douyu and bilibili own a resolver, a socket and a timer, and react to the completions of
the operations they start on them.  A `TcpPlatform` is the code of such a platform with a
summary of it: `react` says, for a completed operation, which script its handler runs on
the I/O objects and what it tells the rest of the program, and the laws say that this is
what the code does.
-/

namespace DMProxy.Platforms

open DMProxy.Async
open DMProxy.Network
open DMProxy.Text
open DMProxy.Transition

/-- What an asynchronous operation does. -/
inductive Action where
  | resolve
  | connect
  | read
  | write (packet : Bytes)
  | wait
  deriving DecidableEq, Repr

/-- What a handler tells the rest of the program. -/
inductive Verdict where
  | quiet
  | chats (uid nickname text : Bytes)
  | reports (error : ErrorCode)
  | faults
  deriving DecidableEq, Repr

namespace Verdict

def effects : Verdict → List Effect
  | .quiet => []
  | .chats uid nickname text => [.publish (publishJson uid nickname text)]
  | .reports error => clientReportWhenError (some error)
  | .faults => [.fault]

def IsChat : Verdict → Prop
  | .chats _ _ _ => True
  | _ => False

instance (verdict : Verdict) : Decidable verdict.IsChat :=
  match verdict with
  | .chats _ _ _ => isTrue trivial
  | .quiet | .reports _ | .faults => isFalse id

def IsReport : Verdict → Prop
  | .reports _ => True
  | _ => False

theorem IsReport.not_isChat {verdict : Verdict} (reports : verdict.IsReport) :
    ¬verdict.IsChat := by
  cases verdict with
  | reports => exact id
  | quiet | chats | faults => cases reports

end Verdict

@[simp] theorem Verdict.publishesChat_effects (verdict : Verdict) :
    PublishesChat verdict.effects ↔ verdict.IsChat := by
  cases verdict with
  | quiet => simp [PublishesChat, effects, IsChat]
  | chats uid nickname text =>
      exact iff_of_true ⟨uid, nickname, text, List.mem_singleton_self _⟩ trivial
  | reports error => exact iff_of_false (not_publishesChat_report (some error)) id
  | faults => simp [PublishesChat, effects, IsChat]

/-- What the handler of a completed operation does.  The new state is meant up to the I/O
objects, which the script changes. -/
structure Reaction (σ ω : Type) where
  calls : List (Call ω)
  verdict : Verdict
  state : σ

/-- A platform with states `σ` and operations `ω`; a handler draws a choice `ν` from the
environment when it runs. -/
structure TcpPlatform (σ ω ν : Type) [IoRequest ω] where
  /-- A new instance on which `start` was called. -/
  started : σ
  close : σ → σ
  step : ν → σ → Progress Completion → Option (σ × List Effect)
  io : σ → Io ω
  action : ω → Action
  /-- The operations of the connection sequence. -/
  setup : ω → Bool
  setIo : Io ω → σ → σ
  admits : σ → ω → Completion → Bool
  react : ν → σ → ω → Completion → Reaction σ ω
  io_setIo : ∀ objects state, io (setIo objects state) = objects
  close_eq : ∀ state, close state = setIo ((io state).run [.closeSocket, .cancelTimer]) state
  step_finish : ∀ choice state index completion,
    step choice state (.finish index completion) =
      (Pending.finish (admits state) completion (io state).pending index).map fun pending =>
        (setIo { io state with pending := pending } state, [])
  step_run : ∀ choice state index,
    step choice state (.run index) =
      ((io state).pending.take index).map fun taken =>
        let reaction := react choice state taken.1 taken.2.1
        (setIo (Io.run { io state with pending := taken.2.2 } reaction.calls) reaction.state,
          reaction.verdict.effects)

namespace TcpPlatform

variable {σ ω ν : Type} [IoRequest ω]

/-- A started instance, what the last handler told the rest of the program, and how often
closure was reported. -/
structure Process (σ : Type) where
  state : σ
  effects : List Effect
  reports : Nat

/-- An instance from its `start` on; nothing happens after a fault. -/
def machine (platform : TcpPlatform σ ω ν) : Machine (Process σ) (ν × Progress Completion) where
  init := ⟨platform.started, [], 0⟩
  step process event :=
    if .fault ∈ process.effects then none
    else (platform.step event.1 process.state event.2).map fun result =>
      ⟨result.1, result.2, process.reports + result.2.count .closeCallback⟩

/-- The operations a step has started: those after the ones that were pending before, of
which the handled one is gone. -/
def startedBy (platform : TcpPlatform σ ω ν) (before after : σ) : Progress Completion → List ω
  | .finish _ _ => []
  | .run _ => (platform.io after).pending.requests.drop ((platform.io before).pending.length - 1)

/-- What a step can do. -/
inductive Transition (platform : TcpPlatform σ ω ν) (process : Process σ) :
    ν × Progress Completion → Process σ → Prop where
  | finished {choice index completion pending}
      (result : Pending.finish (platform.admits process.state) completion
        (platform.io process.state).pending index = some pending) :
      Transition platform process (choice, .finish index completion)
        ⟨platform.setIo { platform.io process.state with pending := pending } process.state, [],
          process.reports⟩
  | handled {choice index request completion rest}
      (taken : (platform.io process.state).pending.take index = some (request, completion, rest)) :
      Transition platform process (choice, .run index)
        ⟨platform.setIo (Io.run { platform.io process.state with pending := rest }
            (platform.react choice process.state request completion).calls)
            (platform.react choice process.state request completion).state,
          (platform.react choice process.state request completion).verdict.effects,
          process.reports +
            (platform.react choice process.state request completion).verdict.effects.count
              .closeCallback⟩

variable {platform : TcpPlatform σ ω ν} {process next : Process σ}
  {event : ν × Progress Completion}

theorem transition (stepped : platform.machine.step process event = some next) :
    Transition platform process event next := by
  simp only [machine] at stepped
  split at stepped
  next => cases stepped
  next =>
    rcases event with ⟨choice, progress⟩
    rw [Option.map_eq_some_iff] at stepped
    rcases stepped with ⟨result, stepped, rfl⟩
    cases progress with
    | finish index completion =>
        rw [step_finish, Option.map_eq_some_iff] at stepped
        rcases stepped with ⟨pending, finished, rfl⟩
        exact .finished finished
    | run index =>
        rw [step_run, Option.map_eq_some_iff] at stepped
        rcases stepped with ⟨⟨request, completion, rest⟩, taken, rfl⟩
        exact .handled taken

/-- The operations a handler starts are those of its script. -/
theorem startedBy_of_handled {before : σ} {state : σ} {index : Nat} {request : ω}
    {completion : Completion} {rest : Pending ω Completion} {calls : List (Call ω)}
    (taken : (platform.io before).pending.take index = some (request, completion, rest)) :
    platform.startedBy before
        (platform.setIo (Io.run { platform.io before with pending := rest } calls) state)
        (.run index) = requestsOf calls := by
  rcases Pending.requests_take taken with ⟨located, erased⟩
  have inside : index < (platform.io before).pending.length := by
    have bound := (List.getElem?_eq_some_iff.mp located).1
    simpa using bound
  simp only [startedBy, io_setIo, Io.requests_run, erased]
  apply List.drop_left'
  rw [List.length_eraseIdx_of_lt (by simpa using inside), Pending.length_requests]

end TcpPlatform

end DMProxy.Platforms
