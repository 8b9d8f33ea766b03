import DMProxy.Platforms.Outgoing

/-!
# The packets of douyu and bilibili

The handlers that start writes are those of a connection that was made, of the heartbeat
timer and, on douyu, of a login response.  A connection is made before anything else is
pending, so only the others can find an earlier write unfinished.
-/

namespace DMProxy.Platforms

open DMProxy.Async
open DMProxy.Network
open DMProxy.Text
open DMProxy.Transition

namespace Douyu

/-- The timer has expired, or a login response was read. -/
def Prompts (request : Request) (completion : Completion) : Prop :=
  completion.ec = none ∧
    (request = .heartbeatWait ∨
      ∃ dataSize, request = .readData dataSize ∧
        isMessage (ascii "loginres") completion.data = true)

theorem proper_react (roomid : Bytes) (request : Request) (completion : Completion) :
    (tcp roomid).Proper (react roomid request completion).1 := by
  rcases completion with ⟨ec, data⟩
  cases ec with
  | some error =>
      constructor <;> cases request <;> simp [tcp, react, onError, action, Action.packet]
  | none =>
      cases request with
      | readHeader =>
          simp only [react, onSuccess]
          constructor <;> split <;> simp [tcp, action, Action.packet]
      | readData =>
          simp only [react, onSuccess]
          constructor <;> split <;> simp [tcp, action, Action.packet]
      | _ => constructor <;> simp [tcp, react, onSuccess, setup, action, Action.packet]

/-- The packets a handler starts to write. -/
def packets (roomid : Bytes) (request : Request) (completion : Completion) : List Bytes :=
  match completion.ec, request with
  | none, .connect => [newLoginPacket roomid]
  | none, .heartbeatWait => [newHeartbeatPacket]
  | none, .readData _ =>
      if isMessage (ascii "loginres") completion.data then [newJoingroupPacket roomid] else []
  | _, _ => []

theorem packetsOf_react (roomid : Bytes) (choice : Unit) (state : State) (request : Request)
    (completion : Completion) :
    (tcp roomid).packetsOf
        (requestsOf ((tcp roomid).react choice state request completion).calls) =
      packets roomid request completion := by
  rcases completion with ⟨ec, data⟩
  cases ec with
  | some error =>
      cases request <;>
        simp [tcp, react, onError, TcpPlatform.packetsOf, action, Action.packet, packets]
  | none =>
      cases request with
      | readHeader => simp [tcp, react, TcpPlatform.packetsOf, action, Action.packet, packets]
      | readData =>
          simp only [tcp, react, requestsOf_onSuccess_readData, packets]
          split <;> simp [TcpPlatform.packetsOf, action, Action.packet]
      | _ => simp [tcp, react, onSuccess, TcpPlatform.packetsOf, action, Action.packet, packets]

theorem sender (roomid : Bytes) : (tcp roomid).Sender Prompts where
  started := rfl
  onSocket request packet writes := by
    cases request with
    | write => rfl
    | _ => cases writes
  proper _ _ request completion := proper_react roomid request completion
  prompted _ _ request completion prompting := by
    rw [packetsOf_react]
    rcases completion with ⟨ec, data⟩
    rcases prompting with ⟨success, rfl | ⟨dataSize, rfl, login⟩⟩
    · cases (show ec = none from success)
      exact ⟨rfl, List.cons_ne_nil _ _⟩
    · cases (show ec = none from success)
      have login : isMessage (ascii "loginres") data = true := login
      exact ⟨rfl, by simp [packets, login]⟩
  unprompted _ _ request completion traffic unprompting := by
    rw [packetsOf_react]
    rcases completion with ⟨ec, data⟩
    cases ec with
    | some error => rfl
    | none =>
        cases request with
        | connect => cases traffic
        | heartbeatWait => exact absurd ⟨rfl, .inl rfl⟩ unprompting
        | readData dataSize =>
            apply if_neg
            exact fun login => unprompting ⟨rfl, .inr ⟨dataSize, rfl, login⟩⟩
        | resolve | write | readHeader => rfl
  atMostOne _ _ request completion := by
    rw [packetsOf_react]
    simp only [packets]
    split
    · simp
    · simp
    · split <;> simp
    · simp
  failed _ _ request packet completion writes failure := by
    rcases completion with ⟨ec, data⟩
    cases request with
    | write =>
        cases ec with
        | none => exact absurd rfl failure
        | some error => exact ⟨[.cancelTimer], rfl, rfl⟩
    | _ => cases writes

end Douyu

namespace Bilibili

/-- The timer has expired. -/
def Prompts (request : Request) (completion : Completion) : Prop :=
  completion.ec = none ∧ request = .heartbeatWait

/-- The packets a handler starts to write; the HTTP request is one of them. -/
def packets (roomid : Bytes) (uid : Nat) (state : State) (request : Request)
    (completion : Completion) : List Bytes :=
  match completion.ec, request with
  | none, .httpConnect => [state.request]
  | none, .tcpConnect => [newRequestPacket roomid uid]
  | none, .heartbeatWait => [newHeartbeatPacket]
  | _, _ => []

theorem proper_untilCall (libraries : Libraries) (roomid : Bytes) {request : Request}
    (reads : action request = .read) (delimiter response : Bytes) :
    (tcp libraries roomid).Proper [untilCall request delimiter response] := by
  simp only [untilCall]
  constructor <;> split <;> simp [tcp, reads, Action.packet]

theorem proper_onError (libraries : Libraries) (roomid : Bytes) (request : Request) :
    (tcp libraries roomid).Proper (onError request) := by
  constructor <;> cases request <;> simp [tcp, onError, action, Action.packet]

theorem proper_onEof (libraries : Libraries) (roomid : Bytes) (state : State) :
    (tcp libraries roomid).Proper (onEof libraries state).calls := by
  simp only [onEof]
  constructor <;> split <;> simp [tcp, action, Action.packet]

theorem proper_onStatusLine (libraries : Libraries) (roomid : Bytes) (state : State) :
    (tcp libraries roomid).Proper (onStatusLine state).calls := by
  simp only [onStatusLine]
  split
  · exact ⟨by simp, by simp⟩
  · split
    · exact ⟨by simp, by simp⟩
    · exact proper_untilCall libraries roomid rfl _ _

theorem proper_react (libraries : Libraries) (roomid : Bytes) (uid : Nat) (state : State)
    (request : Request) (completion : Completion) :
    (tcp libraries roomid).Proper (react libraries roomid uid state request completion).calls := by
  rcases completion with ⟨ec, data⟩
  cases ec with
  | some error =>
      rcases react_error libraries roomid uid state request error data with
        ⟨calls, -⟩ | ⟨-, -, ended⟩
      · rw [calls]
        exact proper_onError libraries roomid request
      · rw [ended]
        exact proper_onEof libraries roomid _
  | none =>
      cases request with
      | httpWrite => exact proper_untilCall libraries roomid rfl _ _
      | httpReadStatusLine => exact proper_onStatusLine libraries roomid _
      | readHeader => exact TcpPlatform.proper_startOnSocket _
      | readData =>
          simp only [react, reactFrom, onSuccess]
          constructor <;> split <;> simp [tcp, action, Action.packet]
      | _ =>
          constructor <;>
            simp [tcp, react, reactFrom, onSuccess, setup, action, Action.packet]

theorem packetsOf_react (libraries : Libraries) (roomid : Bytes) (uid : Nat) (state : State)
    (request : Request) (completion : Completion) :
    (tcp libraries roomid).packetsOf
        (requestsOf ((tcp libraries roomid).react uid state request completion).calls) =
      packets roomid uid state request completion := by
  rcases completion with ⟨ec, data⟩
  cases ec with
  | some error =>
      rcases react_error libraries roomid uid state request error data with
        ⟨calls, -⟩ | ⟨-, -, ended⟩
      · simp only [tcp, calls, packets]
        cases request <;> simp [onError, TcpPlatform.packetsOf, action, Action.packet]
      · simp only [tcp, ended, packets]
        rcases onEof_cases libraries (receive .httpReadContent data state) with
          ⟨nothing, -⟩ | ⟨resolves, -⟩
        · rw [nothing]
          rfl
        · rw [resolves]
          rfl
  | none =>
      cases request with
      | httpWrite =>
          simp only [tcp, react, reactFrom, onSuccess, requestsOf_untilCall]
          rfl
      | httpReadStatusLine =>
          simp only [tcp, react, reactFrom, onSuccess]
          rcases onStatusLine_cases (receive .httpReadStatusLine data state) with
            ⟨nothing, -⟩ | ⟨reads, -⟩
          · rw [nothing]
            rfl
          · rw [reads]
            rfl
      | readHeader =>
          simp only [tcp, react, reactFrom, onSuccess, packets]
          split
          · rfl
          · split <;> rfl
      | readData =>
          simp only [tcp, react, reactFrom, onSuccess, packets]
          split <;> rfl
      | _ => rfl

theorem sender (libraries : Libraries) (roomid : Bytes) :
    (tcp libraries roomid).Sender Prompts where
  started := rfl
  onSocket request packet writes := by
    cases request with
    | write | httpWrite => rfl
    | _ => cases writes
  proper uid state request completion := proper_react libraries roomid uid state request completion
  prompted _ _ request completion prompting := by
    rw [packetsOf_react]
    rcases completion with ⟨ec, data⟩
    rcases prompting with ⟨success, rfl⟩
    cases (show ec = none from success)
    exact ⟨rfl, List.cons_ne_nil _ _⟩
  unprompted _ _ request completion traffic unprompting := by
    rw [packetsOf_react]
    rcases completion with ⟨ec, data⟩
    cases ec with
    | some error => rfl
    | none =>
        cases request with
        | heartbeatWait => exact absurd ⟨rfl, rfl⟩ unprompting
        | httpConnect | tcpConnect => cases traffic
        | _ => rfl
  atMostOne _ _ request completion := by
    rw [packetsOf_react]
    simp only [packets]
    split <;> simp
  failed uid state request packet completion writes failure := by
    rcases completion with ⟨ec, data⟩
    cases ec with
    | none => exact absurd rfl failure
    | some error =>
        cases request with
        | write => exact ⟨[.cancelTimer], rfl, rfl⟩
        | httpWrite => exact ⟨[], rfl, rfl⟩
        | _ => cases writes

end Bilibili

/-- Douyu and bilibili send whole packets one after the other exactly along the runs in which
no login response and no expired heartbeat timer is handled while a write is unfinished. -/
theorem undivided_along_iff (libraries : Libraries) (roomid : Bytes) :
    (∀ events : List (WireEvent Unit),
      (Douyu.tcp roomid).outgoing.Along (fun _ _ next => (Douyu.tcp roomid).Undivided next)
          (Douyu.tcp roomid).outgoing.init events ↔
        (Douyu.tcp roomid).outgoing.Along
          (fun before event _ => (Douyu.tcp roomid).Unhurried Douyu.Prompts before event)
          (Douyu.tcp roomid).outgoing.init events) ∧
    ∀ events : List (WireEvent Nat),
      (Bilibili.tcp libraries roomid).outgoing.Along
          (fun _ _ next => (Bilibili.tcp libraries roomid).Undivided next)
          (Bilibili.tcp libraries roomid).outgoing.init events ↔
        (Bilibili.tcp libraries roomid).outgoing.Along
          (fun before event _ =>
            (Bilibili.tcp libraries roomid).Unhurried Bilibili.Prompts before event)
          (Bilibili.tcp libraries roomid).outgoing.init events :=
  ⟨(Douyu.sender roomid).undivided_iff (Douyu.sequential roomid),
    (Bilibili.sender libraries roomid).undivided_iff (Bilibili.sequential libraries roomid)⟩

/-- The server answers the login before the socket has taken the second byte of it. -/
def hastyLogin : List (WireEvent Unit) :=
  let answer := makeStt [(ascii "type", ascii "loginres")]
  [.stimulus (.progress ((), .finish 0 (.success []))), .stimulus (.progress ((), .run 0)),
    .stimulus (.progress ((), .finish 0 (.success []))), .stimulus (.progress ((), .run 0)),
    .transfer 0 1,
    .stimulus (.progress ((), .finish 1 (.success (answer.take 12)))),
    .stimulus (.progress ((), .run 1)),
    .stimulus (.progress ((), .finish 1 (.success (answer.drop 12)))),
    .stimulus (.progress ((), .run 1)),
    .transfer 3 1]

/-- The first byte of the login packet is followed by the first byte of another packet. -/
theorem not_undivided_along :
    ¬ ∀ (roomid : Bytes) (events : List (WireEvent Unit)),
      (Douyu.tcp roomid).outgoing.Along (fun _ _ next => (Douyu.tcp roomid).Undivided next)
        (Douyu.tcp roomid).outgoing.init events := by
  intro along
  have query : ((Douyu.tcp (ascii "1")).outgoing.exec (Douyu.tcp (ascii "1")).outgoing.init
      hastyLogin).any (fun final => !final.sent.isPrefixOf final.packets.flatten) = true := by
    decide
  rcases (Option.any_eq_true _ _).mp query with ⟨final, executed, divided⟩
  have start := ((Douyu.sender (ascii "1")).tidy_init (Douyu.sequential (ascii "1"))).undivided
  have undivided : (Douyu.tcp (ascii "1")).Undivided final :=
    (along (ascii "1") hastyLogin).final start executed
  rw [List.isPrefixOf_iff_prefix.mpr undivided.prefix_packets] at divided
  cases divided

end DMProxy.Platforms
