import DMProxy.Platforms.Reactions
import DMProxy.Platforms.Threads

/-!
# The order of chat messages

`handle_data` starts the next read first and publishes last.  A thread that is slow between
the two is overtaken by the handlers of the frames that follow.
-/

namespace DMProxy.Platforms

open DMProxy.Async
open DMProxy.Network
open DMProxy.Text
open DMProxy.Transition

namespace TcpPlatform

variable {σ ω ν : Type} [IoRequest ω] {platform : TcpPlatform σ ω ν}
  {crew next : Crew σ ω} {turn : Turn ν}

/-- Chat messages were published in the order of their frames. -/
def Ordered (crew : Crew σ ω) : Prop :=
  crew.published.Pairwise (· ≤ ·)

/-- A handler that hands over a chat message is not ahead of another one that will. -/
def InTurn (crew : Crew σ ω) : Turn ν → Prop
  | .advance thread =>
      ∀ handler ∈ crew.running[thread]?, handler.calls = [] → handler.verdict.IsChat →
        ∀ other ∈ crew.running, other.verdict.IsChat → handler.position ≤ other.position
  | .finish _ _ | .enter _ _ => True

instance (crew : Crew σ ω) : Decidable (Ordered crew) :=
  inferInstanceAs (Decidable (crew.published.Pairwise (· ≤ ·)))

instance (crew : Crew σ ω) : (turn : Turn ν) → Decidable (InTurn crew turn)
  | .advance thread => inferInstanceAs (Decidable (∀ handler ∈ crew.running[thread]?, _))
  | .finish _ _ | .enter _ _ => isTrue trivial

/-! ## Positions -/

/-- The invariant of every run. -/
structure Paced (platform : TcpPlatform σ ω ν) (crew : Crew σ ω) : Prop where
  single : (platform.upcoming crew).countP platform.onChain ≤ 1
  aligned : crew.arrivals.length = (platform.io crew.state).pending.length
  arrived : ∀ (index : Nat) (request : ω) (completion : Completion),
    (platform.io crew.state).pending[index]? = some ⟨request, .ready completion⟩ →
    platform.action request = .read → completion.ec = none →
    crew.arrivals[index]? = some crew.received
  behind : ∀ handler ∈ crew.running, handler.verdict.IsChat →
    handler.position ≤ crew.received

theorem onChain_of_read {request : ω} (reads : platform.action request = .read) :
    platform.onChain request = true := by
  simp [onChain, reads]

theorem bytesRead_of_not_read {request : ω} {completion : Completion}
    (other : platform.action request ≠ .read) : platform.bytesRead request completion = 0 := by
  simp only [bytesRead]
  split
  next reads => exact absurd reads other
  next => rfl
  next => rfl
  next => rfl
  next => rfl

theorem Chained.paced_init (chained : platform.Chained) :
    platform.Paced platform.threaded.init := by
  refine ⟨chained.countP_upcoming_init, by simp [threaded], ?_, ?_⟩
  · intro index request completion found
    rcases chained.started with ⟨only, started⟩
    have member := List.mem_of_getElem? found
    simp [threaded, started] at member
  · intro handler member
    cases member

/-- The payload of a chat message has just been read. -/
theorem Paced.arrived_of_chat (paced : platform.Paced crew) (chained : platform.Chained)
    {choice : ν} {index : Nat} {request : ω} {completion : Completion}
    {rest : Pending ω Completion}
    (taken : (platform.io crew.state).pending.take index = some (request, completion, rest))
    (chats : (platform.react choice crew.state request completion).verdict.IsChat) :
    crew.arrivals[index]? = some crew.received := by
  rcases chained.chats choice crew.state request completion chats with ⟨reads, success⟩
  rcases Pending.getElem?_of_take taken with ⟨located, -⟩
  exact paced.arrived index request completion located reads success

theorem Chained.paced (chained : platform.Chained) (paced : platform.Paced crew)
    (taken : TurnTaken platform crew turn next) : platform.Paced next := by
  refine ⟨chained.countP_upcoming paced.single taken, ?_, ?_, ?_⟩
  · cases taken with
    | finished located result =>
        rcases Pending.getElem?_of_finish result with ⟨request, -, rfl, -⟩
        simpa [platform.io_setIo] using paced.aligned
    | @entered choice index request completion rest position taken arrived =>
        rcases Pending.getElem?_of_take taken with ⟨located, rfl⟩
        have inside : index < (platform.io crew.state).pending.length :=
          (List.getElem?_eq_some_iff.mp located).1
        rw [platform.io_setIo, List.length_eraseIdx_of_lt (paced.aligned ▸ inside),
          List.length_eraseIdx_of_lt inside, paced.aligned]
    | called located =>
        rw [platform.io_setIo, ← Pending.length_requests, Io.requests_call]
        simp [paced.aligned]
    | returned located => exact paced.aligned
  · intro other held received found reads success
    cases taken with
    | @finished index request completion pending located result =>
        rcases Pending.getElem?_of_finish result with ⟨request', located', rfl, -⟩
        cases located.symm.trans located'
        rw [platform.io_setIo] at found
        simp only [List.getElem?_set] at found ⊢
        split at found
        next here =>
          subst here
          have inside : index < crew.arrivals.length := by
            rw [paced.aligned]
            exact (List.getElem?_eq_some_iff.mp located).1
          simp [inside]
        next different =>
          rw [if_neg different, paced.arrived other held received found reads success]
          -- Were it a read, two operations of the chain would be pending.
          have silent : platform.bytesRead request completion = 0 := by
            apply bytesRead_of_not_read
            intro reads'
            have single := paced.single
            rw [upcoming, List.countP_append] at single
            apply different
            apply index_unique_of_countP (Nat.le_of_add_right_le single) _ _
              (onChain_of_read reads') (onChain_of_read reads)
            · simp [Pending.requests, located]
            · simp [Pending.requests, found]
          rw [silent, Nat.add_zero]
    | @entered choice index request completion rest position taken arrived =>
        rcases Pending.getElem?_of_take taken with ⟨located, rfl⟩
        rw [platform.io_setIo] at found
        simp only [List.getElem?_eraseIdx] at found ⊢
        split at found
        next before =>
          rw [if_pos before]
          exact paced.arrived other held received found reads success
        next after =>
          rw [if_neg after]
          exact paced.arrived (other + 1) held received found reads success
    | called located =>
        rw [platform.io_setIo] at found
        rcases Io.getElem?_of_call found success with older | ⟨last, rfl⟩
        · have before := paced.arrived other held received older reads success
          rw [List.getElem?_append_left (List.getElem?_eq_some_iff.mp before).1, before]
        · rw [last, ← paced.aligned, List.getElem?_append_right (Nat.le_refl _), Nat.sub_self]
          rfl
    | returned located => exact paced.arrived other held received found reads success
  · intro handler member chats
    cases taken with
    | finished located result =>
        exact (paced.behind handler member chats).trans (Nat.le_add_right _ _)
    | @entered choice index request completion rest position taken arrived =>
        rcases List.mem_append.mp member with older | entered
        · exact paced.behind handler older chats
        · rw [List.mem_singleton.mp entered] at chats ⊢
          have here := paced.arrived_of_chat chained taken chats
          exact (Option.some.inj (arrived.symm.trans here)).le
    | @called thread position call calls verdict located =>
        rcases List.mem_or_eq_of_mem_set member with older | rfl
        · exact paced.behind handler older chats
        · exact paced.behind ⟨position, call :: calls, verdict⟩ (List.mem_of_getElem? located) chats
    | returned located => exact paced.behind handler (List.mem_of_mem_eraseIdx member) chats

/-! ## Publishing in turn -/

/-- The invariant of runs in which chat messages are handed over in turn. -/
structure InOrder (crew : Crew σ ω) : Prop where
  sorted : Ordered crew
  received : ∀ position ∈ crew.published, position ≤ crew.received
  ahead : ∀ position ∈ crew.published, ∀ handler ∈ crew.running, handler.verdict.IsChat →
    position ≤ handler.position

theorem inOrder_init : InOrder platform.threaded.init := by
  constructor <;> simp [threaded, Ordered]

theorem Paced.inOrder (paced : platform.Paced crew) (chained : platform.Chained)
    (inOrder : InOrder crew) (inTurn : InTurn crew turn)
    (taken : TurnTaken platform crew turn next) : InOrder next := by
  cases taken with
  | finished located result =>
      refine ⟨inOrder.sorted, fun position member => ?_, inOrder.ahead⟩
      exact (inOrder.received position member).trans (Nat.le_add_right _ _)
  | @entered choice index request completion rest position taken arrived =>
      refine ⟨inOrder.sorted, inOrder.received, fun earlier published handler member chats => ?_⟩
      rcases List.mem_append.mp member with older | entered
      · exact inOrder.ahead earlier published handler older chats
      · rw [List.mem_singleton.mp entered] at chats ⊢
        have here := paced.arrived_of_chat chained taken chats
        rw [Option.some.inj (arrived.symm.trans here)]
        exact inOrder.received earlier published
  | @called thread position call calls verdict located =>
      refine ⟨inOrder.sorted, inOrder.received, fun earlier published handler member chats => ?_⟩
      rcases List.mem_or_eq_of_mem_set member with older | rfl
      · exact inOrder.ahead earlier published handler older chats
      · exact inOrder.ahead earlier published ⟨position, call :: calls, verdict⟩
          (List.mem_of_getElem? located) chats
  | @returned thread position verdict located =>
      have member := List.mem_of_getElem? located
      by_cases chats : verdict.IsChat
      · simp only [chats, if_true]
        constructor
        · apply List.pairwise_append.mpr
          refine ⟨inOrder.sorted, List.pairwise_singleton _ _,
            fun earlier published last here => ?_⟩
          rw [List.mem_singleton.mp here]
          exact inOrder.ahead earlier published _ member chats
        · intro earlier published
          rcases List.mem_append.mp published with older | here
          · exact inOrder.received earlier older
          · rw [List.mem_singleton.mp here]
            exact paced.behind _ member chats
        · intro earlier published handler listed later
          have remained := List.mem_of_mem_eraseIdx listed
          rcases List.mem_append.mp published with older | here
          · exact inOrder.ahead earlier older handler remained later
          · rw [List.mem_singleton.mp here]
            exact inTurn ⟨position, [], verdict⟩ located rfl chats handler remained later
      · simp only [chats, if_false, List.append_nil]
        exact ⟨inOrder.sorted, inOrder.received, fun earlier published handler member =>
          inOrder.ahead earlier published handler (List.mem_of_mem_eraseIdx member)⟩

/-- Chat messages that are handed over in turn are in order. -/
theorem Chained.ordered_along (chained : platform.Chained)
    {turns : List (Turn ν)}
    (met : platform.threaded.Along (fun crew turn _ => InTurn crew turn) platform.threaded.init
      turns) :
    platform.threaded.Along (fun _ _ next => Ordered next) platform.threaded.init turns := by
  apply met.of_invariant (fun crew => platform.Paced crew ∧ InOrder crew) _
    ⟨chained.paced_init, inOrder_init⟩
  intro crew next turn holds stepped inTurn
  have taken := turnTaken stepped
  have inOrder := holds.1.inOrder chained holds.2 inTurn taken
  exact ⟨⟨chained.paced holds.1 taken, inOrder⟩, inOrder.sorted⟩

/-! ## Publishing out of turn -/

theorem step_called {thread position : Nat} {call : Call ω} {calls : List (Call ω)}
    {verdict : Verdict} (intact : crew.faulted = false)
    (located : crew.running[thread]? = some ⟨position, call :: calls, verdict⟩) :
    platform.threaded.step crew (.advance thread) = some
      { crew with
        state := platform.setIo ((platform.io crew.state).call call) crew.state
        arrivals := crew.arrivals ++ call.request.toList.map fun _ => crew.received
        running := crew.running.set thread ⟨position, calls, verdict⟩ } := by
  simp [threaded, intact, located]

theorem step_returned {thread position : Nat} {verdict : Verdict}
    (intact : crew.faulted = false)
    (located : crew.running[thread]? = some ⟨position, [], verdict⟩) :
    platform.threaded.step crew (.advance thread) = some
      { crew with
        running := crew.running.eraseIdx thread
        published := crew.published ++ if verdict.IsChat then [position] else []
        faulted := verdict = .faults } := by
  simp [threaded, intact, located]

/-- A running handler can make all of its calls and publish. -/
theorem exec_advance {thread position : Nat} {calls : List (Call ω)} {verdict : Verdict}
    (intact : crew.faulted = false)
    (located : crew.running[thread]? = some ⟨position, calls, verdict⟩)
    (chats : verdict.IsChat) :
    ∃ final, platform.threaded.exec crew
        (List.replicate (calls.length + 1) (.advance thread)) = some final ∧
      final.published = crew.published ++ [position] := by
  induction calls generalizing crew with
  | nil =>
      have stepped : platform.threaded.step crew (.advance thread) = some _ :=
        step_returned intact located
      rw [if_pos chats] at stepped
      exact ⟨_, platform.threaded.exec_cons [] stepped, rfl⟩
  | cons call calls ih =>
      have stepped : platform.threaded.step crew (.advance thread) = some _ :=
        step_called intact located
      have inside := (List.getElem?_eq_some_iff.mp located).1
      rw [List.length_cons, List.replicate_succ]
      simp only [platform.threaded.exec_cons _ stepped]
      exact ih intact (by simp [inside])

/-- A chat message that is handed over out of turn may be followed by an earlier one. -/
theorem not_ordered_of_not_inTurn (stepped : platform.threaded.step crew turn = some next)
    (overtakes : ¬InTurn crew turn) :
    ∃ turns final, platform.threaded.exec next turns = some final ∧ ¬Ordered final := by
  cases turn with
  | finish index completion => exact absurd trivial overtakes
  | enter choice index => exact absurd trivial overtakes
  | advance thread =>
      simp only [InTurn, Option.mem_def, not_forall] at overtakes
      rcases overtakes with ⟨⟨position, calls, verdict⟩, located, last, chats, other, member, later,
        overtaken⟩
      dsimp only at last chats overtaken
      subst last
      have returned : next.running = crew.running.eraseIdx thread ∧
          next.published = crew.published ++ [position] ∧ next.faulted = false := by
        cases turnTaken stepped with
        | called located' => cases located.symm.trans located'
        | returned located' =>
            cases located.symm.trans located'
            refine ⟨rfl, by rw [if_pos chats], ?_⟩
            cases verdict with
            | chats => rfl
            | quiet | reports | faults => cases chats
      rcases List.mem_iff_getElem?.mp member with ⟨place, found⟩
      have different : place ≠ thread := by
        intro same
        subst same
        cases located.symm.trans found
        exact overtaken (Nat.le_refl _)
      have remains : other ∈ next.running := by
        rw [returned.1]
        exact List.mem_eraseIdx_iff_getElem?.mpr ⟨place, different, found⟩
      rcases List.mem_iff_getElem?.mp remains with ⟨place', found'⟩
      rcases exec_advance returned.2.2 found' later with ⟨final, executed, published⟩
      refine ⟨_, final, executed, fun ordered => ?_⟩
      rw [Ordered, published, returned.2.1, List.pairwise_append] at ordered
      exact overtaken (ordered.2.2 position (by simp) other.position (by simp))

end TcpPlatform

/-! ## Both platforms are chained -/

namespace Douyu

theorem chained (roomid : Bytes) : (tcp roomid).Chained where
  started := ⟨.resolve, rfl⟩
  continues _ _ request completion chain := by
    rcases completion with ⟨ec, data⟩
    cases ec with
    | some error =>
        cases request <;> simp [tcp, react, onError, TcpPlatform.onChain, setup, action]
    | none =>
        cases request with
        | readHeader => simp [tcp, react, TcpPlatform.onChain, setup, action]
        | readData =>
            simp only [tcp, react, requestsOf_onSuccess_readData]
            split <;> simp [TcpPlatform.onChain, setup, action]
        | _ => simp [tcp, react, onSuccess, TcpPlatform.onChain, setup, action]
  apart _ _ request completion off := by
    rcases completion with ⟨ec, data⟩
    cases request with
    | write | heartbeatWait =>
        cases ec <;> simp [tcp, react, onError, onSuccess, TcpPlatform.onChain, setup, action]
    | _ => cases off
  chats _ _ request completion chats := by
    rcases completion with ⟨ec, data⟩
    cases ec with
    | some error => cases chats
    | none =>
        cases request with
        | readData => exact ⟨rfl, rfl⟩
        | _ => cases chats

end Douyu

namespace Bilibili

theorem countP_onError (libraries : Libraries) (roomid : Bytes) (request : Request) :
    (requestsOf (onError request)).countP (tcp libraries roomid).onChain ≤
      if (tcp libraries roomid).onChain request then 1 else 0 := by
  cases request <;> simp [onError, tcp, TcpPlatform.onChain, setup, action]

theorem chained (libraries : Libraries) (roomid : Bytes) :
    (tcp libraries roomid).Chained where
  started := ⟨.httpResolve, rfl⟩
  continues uid state request completion chain := by
    rcases completion with ⟨ec, data⟩
    cases ec with
    | some error =>
        rcases react_error libraries roomid uid state request error data with
          ⟨calls, -⟩ | ⟨-, -, ended⟩
        · have bound := countP_onError libraries roomid request
          rw [if_pos chain] at bound
          simpa only [tcp, calls] using bound
        · simp only [tcp, ended]
          rcases onEof_cases libraries (receive .httpReadContent data state) with
            ⟨nothing, -⟩ | ⟨resolves, -⟩
          · simp [nothing]
          · rw [resolves]
            exact List.countP_le_length
    | none =>
        cases request with
        | httpWrite =>
            simp only [tcp, react, reactFrom, onSuccess, requestsOf_untilCall]
            exact List.countP_le_length
        | httpReadStatusLine =>
            simp only [tcp, react, reactFrom, onSuccess]
            rcases onStatusLine_cases (receive .httpReadStatusLine data state) with
              ⟨nothing, -⟩ | ⟨reads, -⟩
            · simp [nothing]
            · rw [reads]
              exact List.countP_le_length
        | readHeader => exact List.countP_le_length
        | readData =>
            simp only [tcp, react, reactFrom, onSuccess]
            split <;> simp [TcpPlatform.onChain, setup, action]
        | tcpConnect => simp [tcp, react, reactFrom, onSuccess, TcpPlatform.onChain, setup, action]
        | write | heartbeatWait => cases chain
        | httpResolve | httpConnect | httpReadHeader | httpReadContent | tcpResolve | skip =>
            exact List.countP_le_length
  apart uid state request completion off := by
    rcases completion with ⟨ec, data⟩
    cases request with
    | write | heartbeatWait =>
        cases ec <;>
          simp [tcp, react, reactFrom, onError, onSuccess, TcpPlatform.onChain, setup, action]
    | _ => cases off
  chats uid state request completion chats := by
    rcases completion with ⟨ec, data⟩
    cases ec with
    | some error =>
        rcases react_error libraries roomid uid state request error data with
          ⟨-, reporting⟩ | ⟨-, -, ended⟩
        · exact absurd chats reporting.not_isChat
        · simp only [tcp, ended] at chats
          rcases onEof_cases libraries (receive .httpReadContent data state) with
            ⟨-, reporting⟩ | ⟨-, quiet⟩
          · exact absurd chats reporting.not_isChat
          · rw [quiet] at chats
            cases chats
    | none =>
        cases request with
        | readData => exact ⟨rfl, rfl⟩
        | httpReadStatusLine =>
            rcases onStatusLine_cases (receive .httpReadStatusLine data state) with
              ⟨-, reporting⟩ | ⟨-, quiet⟩
            · exact absurd chats reporting.not_isChat
            · simp [tcp, react, reactFrom, onSuccess, quiet, Verdict.IsChat] at chats
        | _ => cases chats

end Bilibili

/-- Douyu and bilibili publish chat messages in the order of their frames when each is handed
over in turn, and one that is not may be followed by an earlier one. -/
theorem ordered_of_inTurn (libraries : Libraries) (roomid : Bytes) :
    ((∀ turns : List (Turn Unit),
        (Douyu.tcp roomid).threaded.Along (fun crew turn _ => TcpPlatform.InTurn crew turn)
          (Douyu.tcp roomid).threaded.init turns →
        (Douyu.tcp roomid).threaded.Along (fun _ _ next => TcpPlatform.Ordered next)
          (Douyu.tcp roomid).threaded.init turns) ∧
      ∀ (crew next : Crew Douyu.State Douyu.Request) (turn : Turn Unit),
        (Douyu.tcp roomid).threaded.step crew turn = some next →
        ¬TcpPlatform.InTurn crew turn →
        ∃ turns final, (Douyu.tcp roomid).threaded.exec next turns = some final ∧
          ¬TcpPlatform.Ordered final) ∧
    (∀ turns : List (Turn Nat),
      (Bilibili.tcp libraries roomid).threaded.Along
          (fun crew turn _ => TcpPlatform.InTurn crew turn)
        (Bilibili.tcp libraries roomid).threaded.init turns →
      (Bilibili.tcp libraries roomid).threaded.Along
          (fun _ _ next => TcpPlatform.Ordered next)
        (Bilibili.tcp libraries roomid).threaded.init turns) ∧
    ∀ (crew next : Crew Bilibili.State Bilibili.Request) (turn : Turn Nat),
      (Bilibili.tcp libraries roomid).threaded.step crew turn = some next →
      ¬TcpPlatform.InTurn crew turn →
      ∃ turns final, (Bilibili.tcp libraries roomid).threaded.exec next turns = some final ∧
        ¬TcpPlatform.Ordered final :=
  ⟨⟨fun _ => (Douyu.chained roomid).ordered_along,
      fun _ _ _ => TcpPlatform.not_ordered_of_not_inTurn⟩,
    fun _ => (Bilibili.chained libraries roomid).ordered_along,
    fun _ _ _ => TcpPlatform.not_ordered_of_not_inTurn⟩

/-- A chat message of douyu. -/
def chatPacket : Bytes :=
  makeStt [(ascii "type", ascii "chatmsg"), (ascii "uid", ascii "1")]

/-- A douyu instance has connected, and a thread reads a chat message and starts to read the
next frame. -/
def firstChat : List (Turn Unit) :=
  [.finish 0 (.success []), .enter () 0, .advance 0, .advance 0,
    .finish 0 (.success []), .enter () 0, .advance 0, .advance 0, .advance 0,
    .finish 1 (.success (chatPacket.take 12)), .enter () 1, .advance 0, .advance 0,
    .finish 1 (.success (chatPacket.drop 12)), .enter () 1, .advance 0]

/-- The handlers of a second chat message take their steps; they are the running ones at the
position `thread`. -/
def secondChat (thread : Nat) : List (Turn Unit) :=
  [.finish 1 (.success (chatPacket.take 12)), .enter () 1, .advance thread, .advance thread,
    .finish 1 (.success (chatPacket.drop 12)), .enter () 1, .advance thread, .advance thread]

/-- The room is live, and the chat server sends one text again and again. -/
def liveChat : Libraries :=
  { Bilibili.live with parseJson := danmuLibraries.parseJson }

/-- A thread runs a whole handler, which makes some calls. -/
def handledWith (index calls : Nat) : List (Turn Nat) :=
  .enter 5 index :: List.replicate (calls + 1) (.advance 0)

/-- A bilibili instance asks for its chat server, connects to it and writes its login packet. -/
def chatServer : List (Turn Nat) :=
  .finish 0 (.success []) :: handledWith 0 1 ++ .finish 0 (.success []) :: handledWith 0 1 ++
    .finish 0 (.success []) :: handledWith 0 1 ++
    .finish 0 (.success (ascii "HTTP/1.0 200 OK\r\nA: b\r\n\r\n")) :: handledWith 0 1 ++
    handledWith 0 1 ++ .finish 0 (.success Bilibili.liveBody) :: handledWith 0 1 ++
    .finish 0 (.failure .eof) :: handledWith 0 3 ++
    .finish 0 (.success []) :: handledWith 0 1 ++ .finish 0 (.success []) :: handledWith 0 3 ++
    .finish 0 (.success []) :: handledWith 0 0

/-- The header of a frame with the chat message. -/
def danmuHeader : Bytes :=
  toBigEndian32 (16 + danmuText.length) ++ [0, 16, 0, 0] ++ toBigEndian32 5 ++ [0, 0, 0, 0]

/-- A bilibili instance reads a frame and publishes its chat message. -/
def danmuFrame (index : Nat) : List (Turn Nat) :=
  .finish index (.success danmuHeader) :: handledWith index 1 ++
    .finish 1 (.success danmuText) :: handledWith 1 1

/-- Each platform publishes two chat messages, the first one before it reads the second. -/
theorem ordered_of_inTurn_chats :
    ((Douyu.tcp (ascii "1")).threaded.Along (fun _ _ next => TcpPlatform.Ordered next)
        (Douyu.tcp (ascii "1")).threaded.init (firstChat ++ .advance 0 :: secondChat 0) ∧
      ((Douyu.tcp (ascii "1")).threaded.exec (Douyu.tcp (ascii "1")).threaded.init
        (firstChat ++ .advance 0 :: secondChat 0)).map (fun crew => crew.published.length) =
          some 2) ∧
    (Bilibili.tcp liveChat (ascii "1")).threaded.Along
        (fun _ _ next => TcpPlatform.Ordered next)
        (Bilibili.tcp liveChat (ascii "1")).threaded.init
        (chatServer ++ danmuFrame 0 ++ danmuFrame 1) ∧
      ((Bilibili.tcp liveChat (ascii "1")).threaded.exec
        (Bilibili.tcp liveChat (ascii "1")).threaded.init
        (chatServer ++ danmuFrame 0 ++ danmuFrame 1)).map (fun crew => crew.published.length) =
          some 2 :=
  ⟨⟨(ordered_of_inTurn default (ascii "1")).1.1 _ (by decide), by decide⟩,
    (ordered_of_inTurn liveChat (ascii "1")).2.1 _ (by decide +kernel), by decide⟩

/-- The second chat message is published before the first one. -/
theorem not_ordered_along :
    ¬ ∀ (roomid : Bytes) (turns : List (Turn Unit)),
      (Douyu.tcp roomid).threaded.Along (fun _ _ next => TcpPlatform.Ordered next)
        (Douyu.tcp roomid).threaded.init turns := by
  intro along
  have disordered : ¬(Douyu.tcp (ascii "1")).threaded.Along
      (fun _ _ next => TcpPlatform.Ordered next) (Douyu.tcp (ascii "1")).threaded.init
      (firstChat ++ secondChat 1 ++ [.advance 0]) := by
    decide
  exact disordered (along _ _)

end DMProxy.Platforms
