import DMProxy.Platforms.Sequence

/-!
# Reports of closure

A handler that finds an error reports closure.  It leaves the other pending operations of
its instance behind, and `handle_data` has started a new read by then; their handlers run
later, and report once more.
-/

namespace DMProxy.Platforms

open DMProxy.Async
open DMProxy.Network
open DMProxy.Text
open DMProxy.Transition

namespace TcpPlatform

variable {σ ω ν : Type} [IoRequest ω] {platform : TcpPlatform σ ω ν} {choice : ν}
  {process next : Process σ} {event : ν × Progress Completion} {request : ω}

/-- Closure is reported at most once, and an instance that has reported it publishes no
chat message and starts no read, write or wait. -/
structure ClosedOnce (platform : TcpPlatform σ ω ν) (before : Process σ)
    (event : ν × Progress Completion) (after : Process σ) : Prop where
  once : after.reports ≤ 1
  silent : 0 < before.reports → ¬PublishesChat after.effects
  still : 0 < before.reports →
    ∀ request ∈ platform.startedBy before.state after.state event.2,
      ¬(platform.action request).IsTraffic

/-- Once closure was reported, the only handlers that run are those of writes that have
succeeded. -/
def OnlyWritten (platform : TcpPlatform σ ω ν) (before : Process σ)
    (event : ν × Progress Completion) : Prop :=
  0 < before.reports → ∀ index request completion rest, event.2 = .run index →
    (platform.io before.state).pending.take index = some (request, completion, rest) →
    (∃ packet, platform.action request = .write packet) ∧ completion.ec = none

/-- From a state in which closure was reported at most once, a step keeps to the rule
exactly when it handles nothing but a successful write after a report. -/
theorem Sequential.closedOnce_iff (sequential : platform.Sequential)
    (settled : platform.Settled process) (once : process.reports ≤ 1)
    (transition : Transition platform process event next) :
    platform.ClosedOnce process event next ↔ platform.OnlyWritten process event := by
  classical
  cases transition with
  | finished result =>
      apply iff_of_true
      · refine ⟨once, fun _ chats => ?_, fun _ request started => ?_⟩
        · rcases chats with ⟨_, _, _, member⟩
          cases member
        · cases started
      · intro _ _ _ _ _ run
        cases run
  | @handled choice index request completion rest taken =>
      constructor
      · intro closed reported index' request' completion' rest' run taken'
        cases run
        cases taken.symm.trans taken'
        rcases Pending.requests_take taken with ⟨located, -⟩
        have traffic := settled.reported reported request (List.mem_of_getElem? located)
        by_contra other
        rw [not_and] at other
        rcases sequential.restless choice process.state request completion traffic
          (fun packet writes => other ⟨packet, writes⟩) with reporting | ⟨later, started, busy⟩
        · have twice := closed.once
          simp only [Verdict.count_effects, reporting, if_true] at twice
          omega
        · have still := closed.still reported
          rw [startedBy_of_handled taken] at still
          exact still later started busy
      · intro written
        by_cases reported : 0 < process.reports
        · rcases written reported index request completion rest rfl taken with
            ⟨⟨packet, writes⟩, success⟩
          rcases Pending.requests_take taken with ⟨located, -⟩
          have traffic := settled.reported reported request (List.mem_of_getElem? located)
          rcases sequential.written choice process.state request packet completion traffic writes
            success with ⟨nothing, quiet⟩
          refine ⟨?_, fun _ => ?_, fun _ => ?_⟩
          · simpa [quiet, Verdict.effects] using once
          · simp [quiet, Verdict.IsChat]
          · rw [startedBy_of_handled taken, nothing]
            simp
        · refine ⟨?_, fun reports => absurd reports reported,
            fun reports => absurd reports reported⟩
          simp only [Verdict.count_effects]
          split <;> omega

/-- Closure is reported once and is terminal exactly along the runs in which, after the
first report, only handlers of successful writes run. -/
theorem Sequential.along_closedOnce_iff (sequential : platform.Sequential)
    (events : List (ν × Progress Completion)) :
    platform.machine.Along platform.ClosedOnce platform.machine.init events ↔
      platform.machine.Along (fun before event _ => platform.OnlyWritten before event)
        platform.machine.init events := by
  apply Machine.along_iff_of_good platform.Settled fun process => process.reports ≤ 1
  · exact fun settled stepped => sequential.settled_step settled (transition stepped)
  · exact fun settled once stepped =>
      sequential.closedOnce_iff settled once (transition stepped)
  · exact fun closed => closed.once
  · exact sequential.settled_init
  · exact Nat.zero_le 1

end TcpPlatform

/-- Douyu and bilibili report closure once and for all exactly along the runs in which, after
the first report, only handlers of successful writes run. -/
theorem closedOnce_along_iff (libraries : Libraries) (roomid : Bytes) :
    (∀ events : List (Unit × Progress Completion),
      (Douyu.tcp roomid).machine.Along (Douyu.tcp roomid).ClosedOnce
          (Douyu.tcp roomid).machine.init events ↔
        (Douyu.tcp roomid).machine.Along
          (fun before event _ => (Douyu.tcp roomid).OnlyWritten before event)
          (Douyu.tcp roomid).machine.init events) ∧
    ∀ events : List (Nat × Progress Completion),
      (Bilibili.tcp libraries roomid).machine.Along (Bilibili.tcp libraries roomid).ClosedOnce
          (Bilibili.tcp libraries roomid).machine.init events ↔
        (Bilibili.tcp libraries roomid).machine.Along
          (fun before event _ => (Bilibili.tcp libraries roomid).OnlyWritten before event)
          (Bilibili.tcp libraries roomid).machine.init events :=
  ⟨(Douyu.sequential roomid).along_closedOnce_iff,
    (Bilibili.sequential libraries roomid).along_closedOnce_iff⟩

/-- A douyu instance has connected, and the server closes the connection while the login
packet is being written. -/
def connectionLost : List (Unit × Progress Completion) :=
  [((), .finish 0 (.success [])), ((), .run 0), ((), .finish 0 (.success [])), ((), .run 0),
    ((), .finish 1 (.failure .eof)), ((), .run 1), ((), .run 0)]

/-- The failed read aborts the write, and the handler of the write reports as well. -/
theorem not_closedOnce_along :
    ¬ ∀ (roomid : Bytes) (events : List (Unit × Progress Completion)),
      (Douyu.tcp roomid).machine.Along (Douyu.tcp roomid).ClosedOnce
        (Douyu.tcp roomid).machine.init events := by
  intro along
  have query : ((Douyu.tcp (ascii "1")).machine.exec (Douyu.tcp (ascii "1")).machine.init
      connectionLost).any (fun final => final.reports == 2) = true := by
    decide
  rcases (Option.any_eq_true _ _).mp query with ⟨final, executed, twice⟩
  have single : (Douyu.tcp (ascii "1")).machine.Along (fun _ _ next => next.reports ≤ 1)
      (Douyu.tcp (ascii "1")).machine.init connectionLost :=
    (along (ascii "1") connectionLost).imp fun closed => closed.once
  have once : final.reports ≤ 1 := single.final (Nat.zero_le 1) executed
  rw [eq_of_beq twice] at once
  exact absurd once (by decide)

end DMProxy.Platforms
