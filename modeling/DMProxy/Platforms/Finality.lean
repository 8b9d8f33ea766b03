import DMProxy.Platforms.Closable

/-!
# What happens after close

`close` aborts what is running on the socket and the timer.  A resolver query goes on, and
an operation that has already succeeded keeps its result, so its handler runs as if nothing
had been closed.
-/

namespace DMProxy.Platforms

open DMProxy.Async
open DMProxy.Network
open DMProxy.Text
open DMProxy.Transition

/-- Connecting, which opens the socket, a write, or a timer wait. -/
def Action.IsAct : Action → Prop
  | .connect | .write _ | .wait => True
  | .resolve | .read => False

namespace TcpPlatform

variable {σ ω ν : Type} [IoRequest ω] {platform : TcpPlatform σ ω ν}
  {awake : σ → Operation ω Completion → Prop}
  {process next : Process σ} {event : ν × Progress Completion}

/-- The step opens or connects the socket, starts to write a packet, arms the timer or
publishes a chat message. -/
def Acts (platform : TcpPlatform σ ω ν) (before : Process σ) (stimulus : Stimulus ν)
    (after : Process σ) : Prop :=
  (∃ request ∈ platform.issued before.state after.state stimulus,
    (platform.action request).IsAct) ∨ PublishesChat after.effects

/-- Nothing an instance does from now on is an act. -/
def IsFinal (platform : TcpPlatform σ ω ν) (process : Process σ) : Prop :=
  ∀ stimuli, platform.closable.Along
    (fun before stimulus after => ¬platform.Acts before stimulus after) process stimuli

/-- A call that cannot wake an instance whose socket is closed: it starts nothing, or a
read that fails or has a result that wakes nobody. -/
def Sleepy (platform : TcpPlatform σ ω ν) (awake : σ → Operation ω Completion → Prop) :
    Call ω → Prop
  | .startOnSocket request => platform.action request = .read
  | .startReady request completion =>
      platform.action request = .read ∧ ∀ state, ¬awake state ⟨request, .ready completion⟩
  | .closeSocket | .cancelTimer => True
  | .start _ | .connect _ | .rearmTimer _ => False

/-- `awake` tells the pending operations whose handlers act. -/
structure Awakening (platform : TcpPlatform σ ω ν)
    (awake : σ → Operation ω Completion → Prop) : Prop where
  setIo : ∀ objects state operation,
    awake (platform.setIo objects state) operation ↔ awake state operation
  traffic : ∀ state state' operation, platform.setup operation.request = false →
    awake state operation → awake state' operation
  running : ∀ state request, awake state ⟨request, .running⟩ ↔
    IoRequest.object request = .resolver
  resolved : ∀ choice state request, IoRequest.object request = .resolver →
    platform.admits state request (.success []) = true ∧
      ∃ later ∈ requestsOf (platform.react choice state request (.success [])).calls,
        (platform.action later).IsAct
  aborted : ∀ state request, ¬awake state ⟨request, .ready (.failure .operationAborted)⟩
  refused : ∀ state request, ¬awake state ⟨request, .ready (.failure .badDescriptor)⟩
  acts : ∀ choice state request completion, awake state ⟨request, .ready completion⟩ →
    ((∃ later ∈ requestsOf (platform.react choice state request completion).calls,
      (platform.action later).IsAct) ∨
      (platform.react choice state request completion).verdict.IsChat) ∨
    ∃ first later, IoRequest.object later = .resolver ∧
      (platform.react choice state request completion).calls = first ++ [.start later] ∧
      (platform.react choice state request completion).verdict = .quiet
  sleeps : ∀ choice state request completion, ¬awake state ⟨request, .ready completion⟩ →
    (∀ call ∈ (platform.react choice state request completion).calls,
      platform.Sleepy awake call) ∧
    ¬(platform.react choice state request completion).verdict.IsChat

/-! ## An awake operation acts -/

theorem step_of_unfaulted (platform : TcpPlatform σ ω ν) (unfaulted : process.effects = [])
    (choice : ν) (progress : Progress Completion) :
    platform.machine.step process (choice, progress) =
      (platform.step choice process.state progress).map fun result =>
        ⟨result.1, result.2, process.reports + result.2.count .closeCallback⟩ := by
  simp [machine, unfaulted]

/-- The next handler acts. -/
theorem acts_of_run (unfaulted : process.effects = []) {before after : Pending ω Completion}
    {request : ω} {completion : Completion}
    (pending : (platform.io process.state).pending =
      before ++ ⟨request, .ready completion⟩ :: after) {choice : ν}
    (acts : (∃ later ∈ requestsOf (platform.react choice process.state request completion).calls,
      (platform.action later).IsAct) ∨
      (platform.react choice process.state request completion).verdict.IsChat) :
    ¬platform.IsFinal process := by
  intro final
  have taken : (platform.io process.state).pending.take before.length =
      some (request, completion, before ++ after) := by
    rw [pending]
    exact Pending.take_append before after request completion
  have result := platform.step_run choice process.state before.length
  rw [taken, Option.map_some] at result
  have stepped := platform.step_of_unfaulted unfaulted choice (.run before.length)
  rw [result, Option.map_some] at stepped
  apply (final [.progress (choice, .run before.length)] _ stepped).1
  rw [Acts, issued, startedBy_of_handled taken, Verdict.publishesChat_effects]
  exact acts

/-- What is final stays final. -/
theorem IsFinal.step (final : platform.IsFinal process) (stimulus : Stimulus ν)
    (stepped : platform.closable.step process stimulus = some next) : platform.IsFinal next :=
  fun stimuli => (final (stimulus :: stimuli) next stepped).2

/-- The resolver answers, and the handler of the answer acts. -/
theorem Awakening.acts_of_running (awakening : platform.Awakening awake)
    (unfaulted : process.effects = []) {before after : Pending ω Completion} {request : ω}
    (pending : (platform.io process.state).pending = before ++ ⟨request, .running⟩ :: after)
    (resolver : IoRequest.object request = .resolver) (choice : ν) :
    ¬platform.IsFinal process := by
  intro final
  have admitted := (awakening.resolved choice process.state request resolver).1
  have result := platform.step_finish choice process.state before.length (.success [])
  rw [pending, Pending.finish_append _ _ admitted, Option.map_some] at result
  have stepped := platform.step_of_unfaulted unfaulted choice
    (.finish before.length (.success []))
  rw [result, Option.map_some] at stepped
  have answered := congrArg Io.pending (platform.io_setIo
    { platform.io process.state with
      pending := before ++ ⟨request, .ready (.success [])⟩ :: after } process.state)
  exact acts_of_run rfl answered (.inl (awakening.resolved choice _ request resolver).2)
    (final.step (.progress _) stepped)

/-- The next handler asks the resolver, and the handler of the answer acts. -/
theorem Awakening.acts_of_asking (awakening : platform.Awakening awake)
    (unfaulted : process.effects = []) {before after : Pending ω Completion} {request later : ω}
    {completion : Completion}
    (pending : (platform.io process.state).pending =
      before ++ ⟨request, .ready completion⟩ :: after) {choice : ν} {first : List (Call ω)}
    (resolver : IoRequest.object later = .resolver)
    (calls : (platform.react choice process.state request completion).calls =
      first ++ [.start later])
    (quiet : (platform.react choice process.state request completion).verdict = .quiet) :
    ¬platform.IsFinal process := by
  intro final
  have taken : (platform.io process.state).pending.take before.length =
      some (request, completion, before ++ after) := by
    rw [pending]
    exact Pending.take_append before after request completion
  have result := platform.step_run choice process.state before.length
  rw [taken, Option.map_some] at result
  dsimp only at result
  rw [calls, quiet, Io.run_append] at result
  have stepped := platform.step_of_unfaulted unfaulted choice (.run before.length)
  rw [result, Option.map_some] at stepped
  have asked := congrArg Io.pending (platform.io_setIo
    ((Io.run { platform.io process.state with pending := before ++ after } first).run
      [.start later]) (platform.react choice process.state request completion).state)
  exact awakening.acts_of_running rfl asked resolver choice
    (final.step (.progress _) stepped)

theorem Awakening.acts_of_awake (awakening : platform.Awakening awake) (choice : ν)
    {operation : Operation ω Completion}
    (member : operation ∈ (platform.io process.state).pending)
    (wakes : awake process.state operation) :
    ¬platform.IsFinal (platform.closed process) := by
  rcases List.append_of_mem member with ⟨before, after, pending⟩
  have pendingClosed : (platform.io (platform.closed process).state).pending =
      before.map abandoned ++ abandoned operation :: after.map abandoned := by
    simp [closed, pending_close, pending]
  have wakesClosed : awake (platform.closed process).state operation := by
    simp only [closed, platform.close_eq]
    exact (awakening.setIo _ _ _).mpr wakes
  rcases operation with ⟨request, status⟩
  cases status with
  | running =>
      have resolver := (awakening.running _ request).mp wakes
      simp only [abandoned, resolver, if_true] at pendingClosed
      exact awakening.acts_of_running rfl pendingClosed resolver choice
  | ready completion =>
      rcases awakening.acts choice _ request completion wakesClosed with
        acts | ⟨first, later, resolver, calls, quiet⟩
      · exact acts_of_run rfl pendingClosed acts
      · exact awakening.acts_of_asking rfl pendingClosed resolver calls quiet

/-! ## Asleep for good -/

/-- The socket is closed, and every pending operation has a result that wakes nobody. -/
structure Asleep (platform : TcpPlatform σ ω ν) (awake : σ → Operation ω Completion → Prop)
    (state : σ) : Prop where
  shut : (platform.io state).socketOpen = false
  orderly : platform.Orderly state
  ready : ∀ operation ∈ (platform.io state).pending,
    operation.IsReady ∧ ¬awake state operation

/-- What a sleepy script does while nothing is running. -/
theorem Awakening.run_sleepy (awakening : platform.Awakening awake) {calls : List (Call ω)}
    (sleepy : ∀ call ∈ calls, platform.Sleepy awake call) (io : Io ω)
    (shut : io.socketOpen = false) (ready : ∀ operation ∈ io.pending, operation.IsReady) :
    (io.run calls).socketOpen = false ∧ ∀ operation ∈ (io.run calls).pending,
      operation ∈ io.pending ∨ operation.IsReady ∧ ∀ state, ¬awake state operation := by
  induction calls generalizing io with
  | nil => exact ⟨shut, fun operation member => .inl member⟩
  | cons head calls ih =>
      have tail : ∀ call ∈ calls, platform.Sleepy awake call :=
        fun call member => sleepy call (List.mem_cons_of_mem _ member)
      have here := sleepy head List.mem_cons_self
      -- The head appends at most one operation, and that one is asleep.
      have appends : (io.call head).socketOpen = false ∧
          ∀ operation ∈ (io.call head).pending,
            operation ∈ io.pending ∨ operation.IsReady ∧ ∀ state, ¬awake state operation := by
        cases head with
        | start | connect | rearmTimer => cases here
        | closeSocket =>
            refine ⟨rfl, fun operation member => .inl ?_⟩
            rwa [Io.call, Io.closeSocket, Io.abort, Pending.cancel_of_ready ready] at member
        | cancelTimer =>
            refine ⟨shut, fun operation member => .inl ?_⟩
            rwa [Io.call, Io.cancelTimer, Io.abort, Pending.cancel_of_ready ready] at member
        | startOnSocket request =>
            refine ⟨shut, fun operation member => ?_⟩
            simp only [Io.call, Io.startOnSocket, shut, Bool.false_eq_true, if_false,
              Pending.start, List.mem_append, List.mem_singleton] at member
            rcases member with older | rfl
            · exact .inl older
            · exact .inr ⟨⟨_, rfl⟩, fun state => awakening.refused state request⟩
        | startReady request completion =>
            refine ⟨shut, fun operation member => ?_⟩
            simp only [Io.call, Io.startReady, Pending.start, List.mem_append,
              List.mem_singleton] at member
            rcases member with older | rfl
            · exact .inl older
            · exact .inr ⟨⟨_, rfl⟩, here.2⟩
      have allReady : ∀ operation ∈ (io.call head).pending, operation.IsReady := by
        intro operation member
        rcases appends.2 operation member with older | fresh
        · exact ready operation older
        · exact fresh.1
      rcases ih tail _ appends.1 allReady with ⟨stays, others⟩
      refine ⟨stays, fun operation member => ?_⟩
      rcases others operation member with older | fresh
      · exact appends.2 operation older
      · exact .inr fresh

/-- A sleepy script starts nothing but reads. -/
theorem action_of_sleepy {calls : List (Call ω)}
    (sleepy : ∀ call ∈ calls, platform.Sleepy awake call) :
    ∀ request ∈ requestsOf calls, platform.action request = .read := by
  intro request member
  rcases List.mem_filterMap.mp member with ⟨call, listed, started⟩
  have here := sleepy call listed
  cases call with
  | start | connect | rearmTimer => cases here
  | closeSocket | cancelTimer => cases started
  | startOnSocket other =>
      cases started
      exact here
  | startReady other completion =>
      cases started
      exact here.1

theorem Awakening.asleep_step (awakening : platform.Awakening awake)
    (sequential : platform.Sequential) (asleep : platform.Asleep awake process.state)
    (transition : Transition platform process event next) :
    platform.Asleep awake next.state ∧ ¬platform.Acts process (.progress event) next := by
  cases transition with
  | finished result =>
      rcases Pending.finish_split result with ⟨before, request, after, pending, -⟩
      have running := (asleep.ready ⟨request, .running⟩ (by simp [pending])).1
      rcases running with ⟨completion, fixed⟩
      cases fixed
  | @handled choice index request completion rest taken =>
      have here := asleep.ready _ (Pending.mem_of_take taken)
      have kept : ∀ operation ∈ rest, operation ∈ (platform.io process.state).pending :=
        fun operation member => Pending.subset_of_take taken member
      rcases awakening.sleeps choice process.state request completion here.2 with
        ⟨sleepy, silent⟩
      have ready : ∀ operation ∈ rest, operation.IsReady :=
        fun operation member => (asleep.ready operation (kept operation member)).1
      rcases awakening.run_sleepy sleepy { platform.io process.state with pending := rest }
        asleep.shut ready with ⟨shut, others⟩
      constructor
      · refine ⟨by rwa [platform.io_setIo], ?_, ?_⟩
        · exact sequential.orderly_handled asleep.orderly taken
        · intro operation member
          rw [platform.io_setIo] at member
          rcases others operation member with older | ⟨finished, sleeping⟩
          · refine ⟨ready operation older, fun wakes => ?_⟩
            have traffic := asleep.orderly.rest taken operation.request
              (List.mem_map_of_mem older)
            exact (asleep.ready operation (kept operation older)).2
              (awakening.traffic _ _ operation traffic wakes)
          · exact ⟨finished, sleeping _⟩
      · intro acts
        simp only [Acts, issued] at acts
        rw [startedBy_of_handled taken, Verdict.publishesChat_effects] at acts
        rcases acts with ⟨later, started, act⟩ | chats
        · rw [action_of_sleepy sleepy later started] at act
          exact act
        · exact silent chats

/-- Closing puts everything to sleep but the awake operations. -/
theorem Awakening.asleep_closed (awakening : platform.Awakening awake)
    (orderly : platform.Orderly process.state)
    (sleeping : ∀ operation ∈ (platform.io process.state).pending,
      ¬awake process.state operation) :
    platform.Asleep awake (platform.closed process).state := by
  constructor
  · simp [closed, platform.close_eq, platform.io_setIo, Io.call, Io.closeSocket, Io.cancelTimer]
  · exact orderly.closed
  · intro operation member
    simp only [closed, pending_close, List.mem_map] at member
    rcases member with ⟨⟨request, status⟩, listed, rfl⟩
    have sleeps := sleeping _ listed
    cases status with
    | ready completion =>
        refine ⟨⟨completion, rfl⟩, ?_⟩
        simp only [closed, platform.close_eq]
        exact (awakening.setIo _ _ _).not.mpr sleeps
    | running =>
        rw [awakening.running] at sleeps
        simp only [abandoned, sleeps, if_false]
        exact ⟨⟨_, rfl⟩, awakening.aborted _ request⟩

theorem not_acts_closed (process : Process σ) :
    ¬platform.Acts process .close (platform.closed process) := by
  intro acts
  rw [Acts, issued_close] at acts
  rcases acts with ⟨request, started, -⟩ | ⟨_, _, _, chats⟩
  · cases started
  · cases chats

theorem Awakening.isFinal_of_asleep (awakening : platform.Awakening awake)
    (sequential : platform.Sequential) (asleep : platform.Asleep awake process.state) :
    platform.IsFinal process := by
  intro stimuli
  refine Machine.Along.of_invariant (fun source => platform.Asleep awake source.state) ?_ asleep
    Machine.along_true
  intro source target stimulus holds stepped _
  rcases closable_cases stepped with ⟨rfl, rfl⟩ | ⟨event, rfl, transition⟩
  · exact ⟨awakening.asleep_closed holds.orderly fun operation member =>
      (holds.ready operation member).2, not_acts_closed source⟩
  · exact awakening.asleep_step sequential holds transition

/-- A call of `close` is final exactly when no pending operation is awake. -/
theorem Awakening.isFinal_iff [Inhabited ν] (awakening : platform.Awakening awake)
    (sequential : platform.Sequential) (reachable : platform.closable.Reachable process)
    (stepped : platform.closable.step process .close = some next) :
    platform.IsFinal next ↔
      ∀ operation ∈ (platform.io process.state).pending, ¬awake process.state operation := by
  rcases closable_cases stepped with ⟨-, rfl⟩ | ⟨_, impossible, -⟩
  · constructor
    · exact fun final operation member wakes =>
        awakening.acts_of_awake default member wakes final
    · exact fun sleeping => awakening.isFinal_of_asleep sequential
        (awakening.asleep_closed (sequential.settled_of_closable reachable).orderly sleeping)
  · cases impossible

end TcpPlatform

/-! ## The awake operations of douyu -/

namespace Douyu

/-- The resolver works or has answered, the connection is made or the timer has expired and
the handler is due, or a login response or a chat message has been read. -/
def Awake (operation : Operation Request Completion) : Prop :=
  match operation.request, operation.status with
  | .resolve, .running => True
  | .resolve, .ready completion | .connect, .ready completion
  | .heartbeatWait, .ready completion => completion.ec = none
  | .readData _, .ready completion =>
      completion.ec = none ∧ (isMessage (ascii "loginres") completion.data = true ∨
        isMessage (ascii "chatmsg") completion.data = true)
  | _, _ => False

theorem isChat_payloadVerdict (payload : Bytes) :
    (payloadVerdict payload).IsChat ↔ isMessage (ascii "chatmsg") payload = true := by
  cases ends : payload.getLast? with
  | none => simp [payloadVerdict, isMessage, ends, Verdict.IsChat]
  | some last =>
      by_cases terminated : last = 0
      · simp only [payloadVerdict, ends, terminated, ne_eq, not_true_eq_false, if_false]
        split
        next chat => exact iff_of_true trivial chat
        next other => exact iff_of_false id other
      · simp [payloadVerdict, isMessage, ends, terminated, Verdict.IsChat]

theorem not_awake_of_failure (request : Request) (error : ErrorCode) :
    ¬Awake ⟨request, .ready (.failure error)⟩ := by
  cases request <;> simp [Awake, Completion.failure]

theorem awakening (roomid : Bytes) : (tcp roomid).Awakening fun _ => Awake where
  setIo _ _ _ := Iff.rfl
  traffic _ _ _ _ wakes := wakes
  running _ request := by
    cases request <;> simp [Awake, IoRequest.object]
  resolved _ _ request resolver := by
    cases request with
    | resolve => exact ⟨rfl, .connect, by simp [tcp, react, Completion.success, onSuccess], trivial⟩
    | connect | write | readHeader | readData | heartbeatWait => cases resolver
  aborted _ request := not_awake_of_failure request _
  refused _ request := not_awake_of_failure request _
  acts _ _ request completion wakes := by
    rcases completion with ⟨ec, data⟩
    cases request with
    | write | readHeader => cases wakes
    | resolve =>
        cases (show ec = none from wakes)
        exact .inl (.inl ⟨.connect, by simp [tcp, react, onSuccess], trivial⟩)
    | connect =>
        cases (show ec = none from wakes)
        exact .inl (.inl ⟨.write (newLoginPacket roomid), by simp [tcp, react, onSuccess], trivial⟩)
    | heartbeatWait =>
        cases (show ec = none from wakes)
        exact .inl (.inl ⟨.write newHeartbeatPacket, by simp [tcp, react, onSuccess], trivial⟩)
    | readData =>
        rcases wakes with ⟨success, login | chat⟩
        · cases (show ec = none from success)
          have login : isMessage (ascii "loginres") data = true := login
          exact .inl (.inl ⟨.heartbeatWait, by simp [tcp, react, login], trivial⟩)
        · cases (show ec = none from success)
          exact .inl (.inr ((isChat_payloadVerdict data).mpr chat))
  sleeps _ _ request completion sleeps := by
    rcases completion with ⟨ec, data⟩
    cases ec with
    | some error =>
        refine ⟨?_, id⟩
        cases request <;> simp [tcp, react, onError, TcpPlatform.Sleepy, action]
    | none =>
        cases request with
        | resolve | connect | heartbeatWait => exact absurd rfl sleeps
        | write => simp [tcp, react, onSuccess, Verdict.IsChat]
        | readHeader =>
            refine ⟨fun call member => ?_, id⟩
            simp only [tcp, react, onSuccess, List.mem_singleton] at member
            by_cases empty : payloadSize data = 0
            · rw [if_pos empty] at member
              subst member
              refine ⟨rfl, fun _ wakes => ?_⟩
              simp [Awake, Completion.success, isMessage] at wakes
            · rw [if_neg empty] at member
              subst member
              rfl
        | readData =>
            simp only [Awake, true_and, not_or, Bool.not_eq_true] at sleeps
            constructor
            · simp [tcp, react, onSuccess, sleeps.1, TcpPlatform.Sleepy, action]
            · intro chat
              exact Bool.false_ne_true (sleeps.2.symm.trans ((isChat_payloadVerdict data).mp chat))

end Douyu

/-! ## The awake operations of bilibili -/

namespace Bilibili

/-- One of the resolver queries works or has answered, one of the connections is made or the
timer has expired and the handler is due, the HTTP response has ended and names the chat
server, or a chat message has been read. -/
def Awake (libraries : Libraries) (state : State) (operation : Operation Request Completion) :
    Prop :=
  match operation.request, operation.status with
  | .httpResolve, .running | .tcpResolve, .running => True
  | .httpResolve, .ready completion | .httpConnect, .ready completion
  | .tcpResolve, .ready completion | .tcpConnect, .ready completion
  | .heartbeatWait, .ready completion => completion.ec = none
  | .httpReadContent, .ready completion =>
      completion.ec = some .eof ∧ namesChatServer libraries state.liveMsg = true
  | .readData _, .ready completion =>
      completion.ec = none ∧ (payloadVerdict libraries completion.data).IsChat
  | _, _ => False

theorem not_awake_of_failure (libraries : Libraries) (state : State) (request : Request)
    {error : ErrorCode} (other : error ≠ .eof) :
    ¬Awake libraries state ⟨request, .ready (.failure error)⟩ := by
  cases request <;> simp [Awake, Completion.failure, other]

theorem sleepy_untilCall (libraries : Libraries) (roomid : Bytes) {request : Request}
    (reads : action request = .read)
    (asleep : ∀ state, ¬Awake libraries state ⟨request, .ready (.success [])⟩)
    (delimiter response : Bytes) :
    (tcp libraries roomid).Sleepy (Awake libraries) (untilCall request delimiter response) := by
  simp only [untilCall]
  split
  · exact ⟨reads, asleep⟩
  · exact reads

theorem sleepy_onStatusLine (libraries : Libraries) (roomid : Bytes) (state : State) :
    (∀ call ∈ (onStatusLine state).calls,
      (tcp libraries roomid).Sleepy (Awake libraries) call) ∧
    ¬(onStatusLine state).verdict.IsChat := by
  simp only [onStatusLine]
  split
  · simp [Verdict.IsChat]
  · split
    · simp [Verdict.IsChat]
    · refine ⟨fun call member => ?_, id⟩
      rw [List.mem_singleton.mp member]
      exact sleepy_untilCall libraries roomid rfl (fun _ => id) _ _

theorem awakening (libraries : Libraries) (roomid : Bytes) :
    (tcp libraries roomid).Awakening (Awake libraries) where
  setIo _ _ _ := Iff.rfl
  traffic state state' operation traffic wakes := by
    rcases operation with ⟨request, status⟩
    cases request with
    | httpReadContent => cases traffic
    | _ => cases status <;> exact wakes
  running _ request := by
    cases request <;> simp [Awake, IoRequest.object]
  resolved _ _ request resolver := by
    cases request with
    | httpResolve =>
        exact ⟨rfl, .httpConnect,
          by simp [tcp, react, reactFrom, Completion.success, onSuccess], trivial⟩
    | tcpResolve =>
        exact ⟨rfl, .tcpConnect,
          by simp [tcp, react, reactFrom, Completion.success, onSuccess], trivial⟩
    | _ => cases resolver
  aborted state request := not_awake_of_failure libraries state request (by simp)
  refused state request := not_awake_of_failure libraries state request (by simp)
  acts uid state request completion wakes := by
    rcases completion with ⟨ec, data⟩
    cases request with
    | httpWrite | httpReadStatusLine | httpReadHeader | write | readHeader | skip => cases wakes
    | httpReadContent =>
        right
        rcases wakes with ⟨ended, named⟩
        cases (show ec = some .eof from ended)
        refine ⟨[.closeSocket, .closeSocket], .tcpResolve, rfl, ?_, ?_⟩ <;>
          simp [tcp, react, reactFrom, onEof, receive, named]
    | readData =>
        rcases wakes with ⟨success, chat⟩
        cases (show ec = none from success)
        exact .inl (.inr chat)
    | httpConnect =>
        cases (show ec = none from wakes)
        exact .inl (.inl ⟨.httpWrite state.request,
          by simp [tcp, react, reactFrom, onSuccess, receive], trivial⟩)
    | httpResolve =>
        cases (show ec = none from wakes)
        exact .inl (.inl ⟨.httpConnect, by simp [tcp, react, reactFrom, onSuccess], trivial⟩)
    | tcpResolve =>
        cases (show ec = none from wakes)
        exact .inl (.inl ⟨.tcpConnect, by simp [tcp, react, reactFrom, onSuccess], trivial⟩)
    | tcpConnect | heartbeatWait =>
        cases (show ec = none from wakes)
        exact .inl (.inl ⟨.heartbeatWait, by simp [tcp, react, reactFrom, onSuccess], trivial⟩)
  sleeps uid state request completion sleeps := by
    rcases completion with ⟨ec, data⟩
    cases ec with
    | some error =>
        rcases react_error libraries roomid uid state request error data with
          ⟨calls, reporting⟩ | ⟨rfl, rfl, ended⟩
        · constructor
          · simp only [tcp, calls]
            cases request <;> simp [onError, TcpPlatform.Sleepy, action]
          · exact reporting.not_isChat
        · have unnamed : namesChatServer libraries state.liveMsg = false := by
            simpa [Awake] using sleeps
          simp [tcp, ended, onEof, receive, unnamed, TcpPlatform.Sleepy, Verdict.IsChat]
    | none =>
        cases request with
        | httpResolve | httpConnect | tcpResolve | tcpConnect | heartbeatWait =>
            exact absurd rfl sleeps
        | write => simp [tcp, react, reactFrom, onSuccess, Verdict.IsChat]
        | httpReadHeader | httpReadContent | skip =>
            simp [tcp, react, reactFrom, onSuccess, TcpPlatform.Sleepy, action, Verdict.IsChat]
        | httpWrite =>
            refine ⟨fun call member => ?_, id⟩
            rw [List.mem_singleton.mp member]
            exact sleepy_untilCall libraries roomid rfl (fun _ => id) _ _
        | httpReadStatusLine => exact sleepy_onStatusLine libraries roomid _
        | readHeader =>
            refine ⟨fun call member => ?_, id⟩
            rw [List.mem_singleton.mp member]
            simp only [TcpPlatform.Sleepy, tcp]
            split
            · rfl
            · split <;> rfl
        | readData =>
            refine ⟨fun call member => ?_, fun chat => sleeps ⟨rfl, chat⟩⟩
            rcases List.mem_cons.mp member with rfl | closing
            · rfl
            · split at closing
              · simp only [List.mem_cons, List.not_mem_nil, or_false] at closing
                rcases closing with rfl | rfl <;> trivial
              · cases closing

end Bilibili

/-- A call of `close` is final for douyu and for bilibili exactly when no pending operation is
awake. -/
theorem isFinal_close_iff (libraries : Libraries) (roomid : Bytes) :
    (∀ process next : TcpPlatform.Process Douyu.State,
      (Douyu.tcp roomid).closable.Reachable process →
      (Douyu.tcp roomid).closable.step process .close = some next →
      ((Douyu.tcp roomid).IsFinal next ↔
        ∀ operation ∈ process.state.pending, ¬Douyu.Awake operation)) ∧
    ∀ process next : TcpPlatform.Process Bilibili.State,
      (Bilibili.tcp libraries roomid).closable.Reachable process →
      (Bilibili.tcp libraries roomid).closable.step process .close = some next →
      ((Bilibili.tcp libraries roomid).IsFinal next ↔
        ∀ operation ∈ process.state.io.pending,
          ¬Bilibili.Awake libraries process.state operation) :=
  ⟨fun _ _ => (Douyu.awakening roomid).isFinal_iff (Douyu.sequential roomid),
    fun _ _ =>
      (Bilibili.awakening libraries roomid).isFinal_iff (Bilibili.sequential libraries roomid)⟩

/-- The first query of an instance is answered, and the handler of the answer connects. -/
def answered (ν : Type) [Inhabited ν] : List (Stimulus ν) :=
  [.progress (default, .finish 0 (.success [])), .progress (default, .run 0)]

/-- An instance that is closed while its first query runs is not closed for good, and one that is
closed while it connects is. -/
theorem isFinal_close_iff_started :
    (¬(Douyu.tcp (ascii "1")).IsFinal
        ((Douyu.tcp (ascii "1")).closed (Douyu.tcp (ascii "1")).machine.init) ∧
      ¬(Bilibili.tcp default (ascii "1")).IsFinal
        ((Bilibili.tcp default (ascii "1")).closed
          (Bilibili.tcp default (ascii "1")).machine.init)) ∧
    (∃ process next, (Douyu.tcp (ascii "1")).closable.exec
        (Douyu.tcp (ascii "1")).closable.init (answered Unit) = some process ∧
      (Douyu.tcp (ascii "1")).closable.step process .close = some next ∧
      process.state.pending = [⟨.connect, .running⟩] ∧ (Douyu.tcp (ascii "1")).IsFinal next) ∧
    ∃ process next, (Bilibili.tcp default (ascii "1")).closable.exec
        (Bilibili.tcp default (ascii "1")).closable.init (answered Nat) = some process ∧
      (Bilibili.tcp default (ascii "1")).closable.step process .close = some next ∧
      process.state.io.pending = [⟨.httpConnect, .running⟩] ∧
      (Bilibili.tcp default (ascii "1")).IsFinal next := by
  have early := isFinal_close_iff default (ascii "1")
  have douyu : ((Douyu.tcp (ascii "1")).closable.exec (Douyu.tcp (ascii "1")).closable.init
      (answered Unit)).any (fun process => process.state.pending == [⟨.connect, .running⟩] &&
        ((Douyu.tcp (ascii "1")).closable.step process .close).isSome) = true := by
    decide
  have bilibili : ((Bilibili.tcp default (ascii "1")).closable.exec
      (Bilibili.tcp default (ascii "1")).closable.init (answered Nat)).any (fun process =>
        process.state.io.pending == [⟨.httpConnect, .running⟩] &&
          ((Bilibili.tcp default (ascii "1")).closable.step process .close).isSome) = true := by
    decide
  refine ⟨⟨fun final => (early.1 _ _ .init rfl).mp final ⟨.resolve, .running⟩
      List.mem_cons_self trivial, fun final => (early.2 _ _ .init rfl).mp final
      ⟨.httpResolve, .running⟩ List.mem_cons_self trivial⟩, ?_, ?_⟩
  · rcases (Option.any_eq_true _ _).mp douyu with ⟨process, executed, facts⟩
    simp only [Bool.and_eq_true, beq_iff_eq, Option.isSome_iff_exists] at facts
    rcases facts with ⟨connecting, next, stepped⟩
    refine ⟨process, next, executed, stepped, connecting,
      (early.1 process next (Machine.Reachable.exec .init executed) stepped).mpr ?_⟩
    simp [connecting, Douyu.Awake]
  · rcases (Option.any_eq_true _ _).mp bilibili with ⟨process, executed, facts⟩
    simp only [Bool.and_eq_true, beq_iff_eq, Option.isSome_iff_exists] at facts
    rcases facts with ⟨connecting, next, stepped⟩
    refine ⟨process, next, executed, stepped, connecting,
      (early.2 process next (Machine.Reachable.exec .init executed) stepped).mpr ?_⟩
    simp [connecting, Bilibili.Awake]

/-- `close` leaves the resolver alone: the answer opens a socket and connects it. -/
theorem not_isFinal_close :
    ¬ ∀ (roomid : Bytes) (process next : TcpPlatform.Process Douyu.State),
      (Douyu.tcp roomid).closable.Reachable process →
      (Douyu.tcp roomid).closable.step process .close = some next →
      (Douyu.tcp roomid).IsFinal next := by
  intro final
  have along := final (ascii "1") _ _ .init rfl
    [.progress ((), .finish 0 (.success [])), .progress ((), .run 0)]
  rcases along _ rfl with ⟨-, handled⟩
  exact (handled _ rfl).1 (.inl ⟨.connect, by decide, trivial⟩)

end DMProxy.Platforms
