import DMProxy.Platforms.DouyuReader

/-!
# Douyu among well-formed messages

A login response and a heartbeat both re-arm the one timer, which cancels a wait that is pending;
the handler of the cancelled wait takes the error for a broken connection.
-/

namespace DMProxy.Platforms.Douyu

open DMProxy.Async
open DMProxy.Network
open DMProxy.Text
open DMProxy.Transition

/-! ## The packets differ -/

/-- A text without a NUL is copied before what follows it. -/
theorem cString_append_of_noNul {first : Bytes} (noNul : 0 ∉ first) (second : Bytes) :
    cString (first ++ second) = first ++ cString second := by
  have same := cString_of_noNul noNul
  rw [cString] at same
  rw [cString, List.takeWhile_append, same, if_pos rfl]
  rfl

/-- The text of one pair. -/
def pairText (entry : Bytes × Bytes) : Bytes :=
  entry.1 ++ ascii "@=" ++ entry.2 ++ ascii "/"

/-- A packet has the text of its first pair behind its header. -/
theorem pairText_before {entry : Bytes × Bytes} (noNul : 0 ∉ pairText entry)
    (pairs : List (Bytes × Bytes)) : pairText entry <+: (makeStt (entry :: pairs)).drop 12 := by
  have text : sttText (entry :: pairs) = pairText entry ++ sttText pairs := rfl
  simp only [makeStt]
  rw [List.append_assoc, List.drop_append_of_le_length (by simp),
    List.drop_of_length_le (by simp), List.nil_append, text, cString_append_of_noNul noNul,
    List.append_assoc]
  exact List.prefix_append _ _

/-- Packets differ if neither of their first pairs begins the other. -/
theorem makeStt_ne {first second : Bytes × Bytes} (noNul : 0 ∉ pairText first)
    (noNul' : 0 ∉ pairText second) (differ : ¬pairText first <+: pairText second)
    (differ' : ¬pairText second <+: pairText first) (pairs pairs' : List (Bytes × Bytes)) :
    makeStt (first :: pairs) ≠ makeStt (second :: pairs') := by
  intro same
  have one := pairText_before noNul pairs
  rw [same] at one
  exact (List.prefix_or_prefix_of_prefix one (pairText_before noNul' pairs')).elim differ differ'

theorem newLoginPacket_ne (roomid : Bytes) : newLoginPacket roomid ≠ newJoingroupPacket roomid :=
  makeStt_ne (by decide) (by decide) (by decide) (by decide) _ _

theorem newHeartbeatPacket_ne (roomid : Bytes) : newHeartbeatPacket ≠ newJoingroupPacket roomid :=
  makeStt_ne (by decide) (by decide) (by decide) (by decide) _ _

/-! ## Sessions -/

/-- The operation succeeds, and what was read belongs to a well-formed message: the header
announces a payload, and the payload ends in NUL. -/
def wellFormed (request : Request) (completion : Completion) : Bool :=
  completion.ec == none &&
    match request with
    | .readHeader => decide (9 ≤ littleEndian32 completion.data)
    | .readData _ => completion.data.getLast? == some 0
    | .resolve | .connect | .write _ | .heartbeatWait => true

/-- Results come from a network that does not fail and a server that sends messages. -/
def Allowed (state : State) : Progress Completion → Prop
  | .finish index completion =>
      ∀ request ∈ state.pending.requests[index]?, wellFormed request completion = true
  | .run _ => True

instance (state : State) (progress : Progress Completion) : Decidable (Allowed state progress) :=
  match progress with
  | .finish _ _ => inferInstanceAs (Decidable (∀ _ ∈ _, _))
  | .run _ => isTrue trivial

/-- The handled operation has read a login response. -/
def handlesLogin (request : Request) (completion : Completion) : Bool :=
  match request, completion.ec with
  | .readData _, none => isMessage (ascii "loginres") completion.data
  | _, _ => false

/-- A login response is handled next. -/
def logsIn (state : State) : Progress Completion → Bool
  | .finish _ _ => false
  | .run index =>
      match state.pending.take index with
      | some (request, completion, _) => handlesLogin request completion
      | none => false

/-- An instance, how many joingroup packets it has sent, and whether it has handled a login
response. -/
structure Session where
  process : Process
  joins : Nat
  answered : Bool

/-- An instance among well-formed messages, on which `close` is not called. -/
def session (roomid : Bytes) : Machine Session (Unit × Progress Completion) where
  init := ⟨(tcp roomid).machine.init, 0, false⟩
  step current event :=
    if Allowed current.process.state event.2 then
      ((tcp roomid).machine.step current.process event).map fun next =>
        ⟨next,
          current.joins + ((tcp roomid).startedBy current.process.state next.state event.2).count
            (.write (newJoingroupPacket roomid)),
          current.answered || logsIn current.process.state event.2⟩
    else none

/-- The instance neither reports its end nor closes its socket, has joined at most once, and
from the first login response on waits for one heartbeat. -/
structure Survives (before : Session) (_ : Unit × Progress Completion) (next : Session) :
    Prop where
  quiet : .closeCallback ∉ next.process.effects
  stays : before.process.state.socketOpen = true → next.process.state.socketOpen = true
  joins : next.joins ≤ 1
  beats : next.answered = true → next.process.state.pending.requests.count .heartbeatWait = 1

/-- No login response is handled after another one. -/
def FirstLogin (before : Session) (event : Unit × Progress Completion) : Prop :=
  before.answered = true → logsIn before.process.state event.2 = false

variable {roomid : Bytes} {before next : Session} {event : Unit × Progress Completion}

/-! ## What a handler does on success -/

/-- The pending operation has not failed, and read nothing ill-formed. -/
def Sound : Operation Request Completion → Prop
  | ⟨_, .running⟩ => True
  | ⟨request, .ready completion⟩ => wellFormed request completion = true

theorem ec_of_wellFormed {request : Request} {completion : Completion}
    (good : wellFormed request completion = true) : completion.ec = none := by
  simp only [wellFormed, Bool.and_eq_true, beq_iff_eq] at good
  exact good.1

/-- Without a wait, cancelling the timer does nothing. -/
theorem abort_timer_of_noWait {io : State} (noWait : .heartbeatWait ∉ io.pending.requests) :
    io.abort .timer = io.pending := by
  simp only [Io.abort, Pending.cancel]
  apply (List.map_congr_left ?_).trans (List.map_id io.pending)
  intro operation member
  rcases operation with ⟨request, status⟩
  cases status with
  | ready => rfl
  | running =>
      cases request with
      | heartbeatWait => exact absurd (List.mem_map_of_mem member) noWait
      | resolve | connect | write | readHeader | readData => rfl

/-- The operations a script starts, all of them running. -/
def running (requests : List Request) : Pending Request Completion :=
  requests.map fun request => ⟨request, .running⟩

/-- On an open socket an operation runs. -/
theorem startOnSocket_open (pending : Pending Request Completion) (request : Request) :
    Io.startOnSocket ⟨true, pending⟩ request = ⟨true, pending ++ running [request]⟩ := rfl

/-- Without a wait, re-arming the timer starts one. -/
theorem rearmTimer_of_noWait {pending : Pending Request Completion}
    (noWait : .heartbeatWait ∉ pending.requests) :
    Io.rearmTimer ⟨true, pending⟩ .heartbeatWait =
      ⟨true, pending ++ running [.heartbeatWait]⟩ := by
  have same : Io.abort .timer ⟨true, pending⟩ = pending := abort_timer_of_noWait noWait
  simp only [Io.rearmTimer, Io.start, Io.cancelTimer, same]
  rfl

@[simp] theorem requests_running (requests : List Request) :
    (running requests).requests = requests := by
  simp [running, Pending.requests, Function.comp_def]

theorem requests_append (first second : Pending Request Completion) :
    Pending.requests (first ++ second) = first.requests ++ second.requests := by
  simp [Pending.requests]

/-- A handler of a good result only starts operations, if no other wait is pending when it
re-arms the timer. -/
theorem run_react (roomid : Bytes) {request : Request} {completion : Completion} (io : State)
    (good : wellFormed request completion = true)
    (isOpen : request ≠ .resolve → io.socketOpen = true)
    (noWait : request = .heartbeatWait ∨ handlesLogin request completion = true →
      .heartbeatWait ∉ io.pending.requests) :
    io.run (react roomid request completion).1 =
      ⟨true, io.pending ++ running (requestsOf (react roomid request completion).1)⟩ := by
  have success := ec_of_wellFormed good
  rcases completion with ⟨ec, data⟩
  subst success
  rcases io with ⟨socketOpen, pending⟩
  cases request with
  | resolve => rfl
  | connect =>
      cases isOpen (by simp)
      simp [react, onSuccess, Io.call, startOnSocket_open, running]
  | write packet =>
      cases isOpen (by simp)
      simp [react, onSuccess, running]
  | readHeader =>
      cases isOpen (by simp)
      have long : 9 ≤ littleEndian32 data := by
        simpa [wellFormed] using good
      have positive : payloadSize data ≠ 0 := by
        rw [payloadSize_of_long (by omega)]
        omega
      simp only [react, onSuccess, if_neg positive, Io.run_cons, Io.run_nil, Io.call,
        startOnSocket_open, requestsOf_cons, requestsOf_nil, Call.request, Option.toList_some,
        List.append_nil]
  | readData size =>
      cases isOpen (by simp)
      simp only [react, requestsOf_onSuccess_readData]
      cases login : isMessage (ascii "loginres") data with
      | false => simp [onSuccess, login, Io.call, startOnSocket_open, running]
      | true =>
          have free : .heartbeatWait ∉ (pending ++ running [.readHeader]).requests := by
            rw [requests_append, requests_running, List.mem_append, not_or]
            exact ⟨noWait (.inr login), by simp⟩
          simp only [onSuccess, login, if_true, Io.run_cons, Io.run_nil, Io.call,
            startOnSocket_open, rearmTimer_of_noWait free]
          simp [running]
  | heartbeatWait =>
      cases isOpen (by simp)
      have free : .heartbeatWait ∉ (pending ++ running [.write newHeartbeatPacket]).requests := by
        rw [requests_append, requests_running, List.mem_append, not_or]
        exact ⟨noWait (.inl rfl), by simp⟩
      simp only [react, onSuccess, Io.run_cons, Io.run_nil, Io.call, startOnSocket_open,
        rearmTimer_of_noWait free]
      simp [running]

theorem count_joins (request : Request) (completion : Completion) :
    (requestsOf (react roomid request completion).1).count (.write (newJoingroupPacket roomid)) =
      if handlesLogin request completion then 1 else 0 := by
  rcases completion with ⟨ec, data⟩
  cases ec with
  | some error => cases request <;> simp [react, onError, handlesLogin]
  | none =>
      cases request with
      | readData size =>
          simp only [react, requestsOf_onSuccess_readData, handlesLogin]
          split
          next login => simp [login]
          next other => simp [other]
      | connect =>
          have differ := newLoginPacket_ne roomid
          simp [react, onSuccess, handlesLogin, differ]
      | heartbeatWait =>
          have differ := newHeartbeatPacket_ne roomid
          simp [react, onSuccess, handlesLogin, differ]
      | readHeader => simp [react, handlesLogin]
      | resolve | write => simp [react, onSuccess, handlesLogin]

theorem count_beats {request : Request} {completion : Completion}
    (good : wellFormed request completion = true) :
    (requestsOf (react roomid request completion).1).count .heartbeatWait =
      if request = .heartbeatWait ∨ handlesLogin request completion then 1 else 0 := by
  have success := ec_of_wellFormed good
  rcases completion with ⟨ec, data⟩
  subst success
  cases request with
  | readData size =>
      simp only [react, requestsOf_onSuccess_readData, handlesLogin]
      split <;> simp_all
  | readHeader => simp [react, handlesLogin]
  | resolve | write | connect | heartbeatWait => simp [react, onSuccess, handlesLogin]

theorem quiet_react {request : Request} {completion : Completion}
    (good : wellFormed request completion = true) :
    .closeCallback ∉ (react roomid request completion).2.effects := by
  have success := ec_of_wellFormed good
  rcases completion with ⟨ec, data⟩
  subst success
  cases request with
  | readData size =>
      have ends : data.getLast? = some 0 := by
        simpa [wellFormed] using good
      simp only [react, onSuccess, payloadVerdict, ends]
      split
      next other => exact absurd rfl other
      next => split <;> simp [Verdict.effects]
  | resolve | write | connect | readHeader | heartbeatWait =>
      simp [react, onSuccess, Verdict.effects]

/-! ## Runs -/

/-- What a step of a session does. -/
structure Stepped (roomid : Bytes) (before : Session) (event : Unit × Progress Completion)
    (next : Session) : Prop where
  allowed : Allowed before.process.state event.2
  taken : (tcp roomid).machine.step before.process event = some next.process
  joins : next.joins = before.joins +
    ((tcp roomid).startedBy before.process.state next.process.state event.2).count
      (.write (newJoingroupPacket roomid))
  answered : next.answered = (before.answered || logsIn before.process.state event.2)

theorem stepped_of_step (step : (session roomid).step before event = some next) :
    Stepped roomid before event next := by
  simp only [session] at step
  split at step
  next allowed =>
    rw [Option.map_eq_some_iff] at step
    rcases step with ⟨process, taken, rfl⟩
    exact ⟨allowed, taken, rfl, rfl⟩
  next => cases step

theorem logsIn_of_take {state : State} {index : Nat} {request : Request}
    {completion : Completion} {rest : Pending Request Completion}
    (taken : state.pending.take index = some (request, completion, rest)) :
    logsIn state (.run index) = handlesLogin request completion := by
  simp only [logsIn, taken]

theorem count_of_take {pending rest : Pending Request Completion} {index : Nat}
    {request : Request} {completion : Completion} (target : Request)
    (taken : pending.take index = some (request, completion, rest)) :
    pending.requests.count target =
      rest.requests.count target + if request = target then 1 else 0 := by
  rcases Pending.take_split taken with ⟨first, second, rfl, rfl⟩
  simp only [Pending.requests, List.map_append, List.map_cons, List.count_append, List.count_cons,
    beq_iff_eq]
  omega

/-- A login response joins the room. -/
theorem joins_of_login (stepped : Stepped roomid before event next) :
    next.joins = before.joins + (logsIn before.process.state event.2).toNat := by
  rw [stepped.joins, Nat.add_left_cancel_iff]
  have transition := TcpPlatform.transition stepped.taken
  generalize next.process = process at transition
  cases transition with
  | finished => rfl
  | handled taken =>
      have login : logsIn before.process.state (.run _) = _ := logsIn_of_take taken
      rw [TcpPlatform.startedBy_of_handled taken, login]
      exact (count_joins _ _).trans (by cases handlesLogin _ _ <;> rfl)

/-- Between handlers nothing has failed, and since the first login response one packet has
joined the room and one heartbeat is waited for. -/
structure Steady (current : Session) : Prop where
  sound : ∀ operation ∈ current.process.state.pending, Sound operation
  isOpen : ∀ request ∈ current.process.state.pending.requests, request ≠ .resolve →
    current.process.state.socketOpen = true
  joins : current.joins = current.answered.toNat
  beats : current.process.state.pending.requests.count .heartbeatWait = current.answered.toNat

theorem steady_started : Steady (session roomid).init where
  sound operation member := by
    cases List.mem_singleton.mp member
    trivial
  isOpen request member other := absurd (List.mem_singleton.mp member) other
  joins := rfl
  beats := rfl

theorem sound_finish {state : State} {pending : Pending Request Completion} {index : Nat}
    {completion : Completion} (allowed : Allowed state (.finish index completion))
    (finished : Pending.finish admits completion state.pending index = some pending)
    (sound : ∀ operation ∈ state.pending, Sound operation) :
    ∀ operation ∈ pending, Sound operation := by
  rcases Pending.getElem?_of_finish finished with ⟨request, located, rfl, -⟩
  intro operation member
  rcases List.mem_or_eq_of_mem_set member with older | rfl
  · exact sound operation older
  · apply allowed
    simp [Pending.requests, located]

/-- No wait is left when a handler re-arms the timer. -/
theorem noWait_of_take (steady : Steady before) {index : Nat} {request : Request}
    {completion : Completion} {rest : Pending Request Completion}
    (taken : before.process.state.pending.take index = some (request, completion, rest))
    (first : handlesLogin request completion = true → before.answered = false)
    (rearms : request = .heartbeatWait ∨ handlesLogin request completion = true) :
    .heartbeatWait ∉ rest.requests := by
  have counted := count_of_take .heartbeatWait taken
  have bound := Bool.toNat_le before.answered
  rw [steady.beats] at counted
  rw [← List.count_eq_zero]
  rcases rearms with rfl | login
  · rw [if_pos rfl] at counted
    omega
  · rw [first login, Bool.toNat_false] at counted
    omega

/-- What a run of a handler leaves of the pending operations. -/
theorem steady_handled (steady : Steady before) {index : Nat} {request : Request}
    {completion : Completion} {rest : Pending Request Completion} {after : State}
    (taken : before.process.state.pending.take index = some (request, completion, rest))
    (first : handlesLogin request completion = true → before.answered = false)
    (ran : after = Io.run { before.process.state with pending := rest }
      (react roomid request completion).1) :
    after.socketOpen = true ∧ (∀ operation ∈ after.pending, Sound operation) ∧
      after.pending.requests.count .heartbeatWait =
        (before.answered || handlesLogin request completion).toNat := by
  have good : wellFormed request completion = true :=
    steady.sound _ (Pending.mem_of_take taken)
  have counted := count_of_take .heartbeatWait taken
  have listed := List.mem_of_getElem? (Pending.requests_take taken).1
  have started := run_react roomid ⟨before.process.state.socketOpen, rest⟩ good
    (steady.isOpen request listed) (noWait_of_take steady taken first)
  cases ran.trans started
  refine ⟨rfl, ?_, ?_⟩
  · intro operation member
    rcases List.mem_append.mp member with older | started
    · exact steady.sound operation (Pending.subset_of_take taken older)
    · rcases List.mem_map.mp started with ⟨other, -, rfl⟩
      trivial
  · rw [requests_append, requests_running, List.count_append, count_beats good]
    rw [steady.beats] at counted
    cases login : handlesLogin request completion with
    | true =>
        rw [first login] at counted ⊢
        simp only [Bool.toNat_false] at counted
        simp only [or_true, if_true, Bool.or_true, Bool.toNat_true]
        omega
    | false =>
        simp only [Bool.false_eq_true, or_false, Bool.or_false]
        exact counted.symm

theorem survives_of_steady (steady : Steady next) (quiet : .closeCallback ∉ next.process.effects)
    (stays : before.process.state.socketOpen = true → next.process.state.socketOpen = true) :
    Survives before event next where
  quiet := quiet
  stays := stays
  joins := by
    rw [steady.joins]
    exact Bool.toNat_le _
  beats answered := by
    rw [steady.beats, answered]
    rfl

theorem steady_step (steady : Steady before) (step : (session roomid).step before event = some next)
    (first : FirstLogin before event) : Steady next ∧ Survives before event next := by
  have stepped := stepped_of_step step
  have joins := joins_of_login stepped
  have answered := stepped.answered
  have counts : next.joins = next.answered.toNat := by
    rw [joins, answered, steady.joins]
    cases logged : before.answered with
    | false => simp
    | true =>
        rw [first logged]
        rfl
  have transition := TcpPlatform.transition stepped.taken
  rcases next with ⟨process, sent, logged⟩
  dsimp only at joins answered transition counts
  cases transition with
  | @finished _ index completion pending finished =>
      have same : pending.requests = before.process.state.pending.requests :=
        Pending.requests_finish finished
      have steady' : Steady ⟨⟨{ before.process.state with pending := pending }, [],
          before.process.reports⟩, sent, logged⟩ := {
        sound := sound_finish stepped.allowed finished steady.sound
        isOpen := by
          dsimp only
          rw [same]
          exact steady.isOpen
        joins := counts
        beats := by
          dsimp only
          rw [same, steady.beats, answered]
          simp [logsIn] }
      exact ⟨steady', survives_of_steady steady' List.not_mem_nil id⟩
  | @handled _ index request completion rest taken =>
      have found : before.process.state.pending.take index = some (request, completion, rest) :=
        taken
      have login := logsIn_of_take found
      have unanswered : handlesLogin request completion = true → before.answered = false := by
        intro handles
        cases held : before.answered with
        | false => rfl
        | true => exact absurd ((first held).symm.trans (login.trans handles)) Bool.false_ne_true
      have kept := steady_handled steady found unanswered
        (Eq.refl (Io.run ⟨before.process.state.socketOpen, rest⟩
          (react roomid request completion).1))
      rcases kept with ⟨isOpen, sound, beats⟩
      rw [← login, ← answered] at beats
      have steady' : Steady ⟨⟨_, (react roomid request completion).2.effects, before.process.reports
          + (react roomid request completion).2.effects.count .closeCallback⟩, sent, logged⟩ := {
        sound := sound
        isOpen := fun _ _ _ => isOpen
        joins := counts
        beats := beats }
      have good := steady.sound _ (Pending.mem_of_take found)
      exact ⟨steady', survives_of_steady steady' (quiet_react good) fun _ => isOpen⟩

/-- After a second login response, a second packet has joined the room. -/
theorem firstLogin_of_survives (joined : before.answered = true → 1 ≤ before.joins)
    (step : (session roomid).step before event = some next)
    (survives : Survives before event next) :
    (next.answered = true → 1 ≤ next.joins) ∧ FirstLogin before event := by
  have stepped := stepped_of_step step
  have joins := joins_of_login stepped
  have bound := survives.joins
  have first : FirstLogin before event := by
    intro answered
    have earlier := joined answered
    cases login : logsIn before.process.state event.2 with
    | false => rfl
    | true =>
        rw [login, Bool.toNat_true] at joins
        omega
  refine ⟨?_, first⟩
  rw [stepped.answered, Bool.or_eq_true]
  intro again
  rcases again with answered | login
  · have earlier := joined answered
    omega
  · rw [login, Bool.toNat_true] at joins
    omega

/-- An instance survives exactly the runs in which no login response follows another one. -/
theorem survives_along_iff (roomid : Bytes) (events : List (Unit × Progress Completion)) :
    (session roomid).Along Survives (session roomid).init events ↔
      (session roomid).Along (fun before event _ => FirstLogin before event)
        (session roomid).init events :=
  ⟨fun survives => survives.of_invariant
      (fun current => current.answered = true → 1 ≤ current.joins)
      firstLogin_of_survives (fun answered => by cases answered),
    fun first => first.of_invariant Steady steady_step steady_started⟩

/-- The text of a login response. -/
def loginres : Bytes :=
  ascii "type@=loginres/" ++ [0]

/-- The header of the login response. -/
def loginresHeader : Bytes :=
  toLittleEndian32 24 ++ toLittleEndian32 24 ++ [178, 2, 0, 0]

/-- An instance connects, logs in, and is answered twice. -/
def answeredTwice : List (Unit × Progress Completion) :=
  [((), .finish 0 (.success [])), ((), .run 0), ((), .finish 0 (.success [])), ((), .run 0),
    ((), .finish 1 (.success loginresHeader)), ((), .run 1),
    ((), .finish 1 (.success loginres)), ((), .run 1),
    ((), .finish 1 (.success loginresHeader)), ((), .run 1),
    ((), .finish 3 (.success loginres)), ((), .run 3)]

theorem not_survives_along :
    ¬ ∀ (roomid : Bytes) (events : List (Unit × Progress Completion)),
      (session roomid).Along Survives (session roomid).init events := by
  intro along
  have single : (session (ascii "1")).Along (fun _ _ next => next.joins ≤ 1)
      (session (ascii "1")).init answeredTwice :=
    (along (ascii "1") answeredTwice).imp fun survives => survives.joins
  have twice : ¬(session (ascii "1")).Along (fun _ _ next => next.joins ≤ 1)
      (session (ascii "1")).init answeredTwice := by
    decide
  exact twice single

end DMProxy.Platforms.Douyu
