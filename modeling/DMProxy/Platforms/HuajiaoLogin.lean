import DMProxy.Platforms.HuajiaoAccess
import DMProxy.Transition.Machine

/-!
# The login sequence of huajiao

After every binary message the next packet is chosen from the flags `handshake`, `bLogin` and
`bJoin`.  The first two are set by the answers of the server, and only the last one is set with
the packet that it stands for.
-/

namespace DMProxy.Platforms.Huajiao

open DMProxy.Network
open DMProxy.Text
open DMProxy.Transition

/-- A started instance, and whether it has faulted. -/
structure Process where
  platform : State
  faulted : Bool
  deriving DecidableEq, Repr

/-- An event of the connection, with the answer of `connection::send`. -/
abbrev Happening := Option ErrorCode × ClientEvent

/-- The instance from its `start` on; nothing is known after a fault. -/
def machine (libraries : Libraries) (roomid : Bytes) (ec : Option ErrorCode) :
    Machine Process Happening where
  init := ⟨(start ec .fresh).1, false⟩
  step process happening :=
    if process.faulted then none
    else (step libraries roomid happening.1 process.platform happening.2).map fun result =>
      ⟨result.1, decide (.fault ∈ result.2)⟩

/-- The message is an `InitLoginResp` under the default key. -/
def Greets (libraries : Libraries) (payload : Bytes) : Prop :=
  ∃ encrypted ∈ rest 6 payload,
    (libraries.parseMessage (libraries.rc4 defaultKey encrypted)).msgid = initLoginResp

/-- The message is a `LoginResp` under the password. -/
def Admits (libraries : Libraries) (payload : Bytes) : Prop :=
  ∃ encrypted ∈ rest 4 payload,
    (libraries.parseMessage (libraries.rc4 password encrypted)).msgid = loginResp

/-- What a binary message can do to the flags. -/
inductive Handling (libraries : Libraries) (payload : Bytes) (state : State) : State → Prop where
  | greeted {serverRam clientRam : Bytes} (before : state.handshake = false)
      (greets : Greets libraries payload) :
      Handling libraries payload state
        { state with serverRam := serverRam, clientRam := clientRam, handshake := true }
  | admitted {session : Bytes} (before : state.handshake = true)
      (admits : Admits libraries payload) :
      Handling libraries payload state { state with session := session, bLogin := true }
  | ignored (refused : state.handshake = true → state.bLogin = false →
        ¬Admits libraries payload) : Handling libraries payload state state

/-- A flag of the server's answers is set only by an accepted answer. -/
structure Answered (libraries : Libraries) (before : State) (happening : Happening)
    (next : State) : Prop where
  handshake : next.handshake = true → before.handshake = true ∨
    ∃ payload, happening.2 = .message .binary payload ∧ Greets libraries payload
  bLogin : next.bLogin = true → before.bLogin = true ∨
    ∃ payload, happening.2 = .message .binary payload ∧ Admits libraries payload

/-- The packets sent so far are the first ones of handshake, login request and join request;
the login request comes after an accepted `InitLoginResp`, the join request after an accepted
`LoginResp`, and each flag implies the one before it. -/
structure InSequence (libraries : Libraries) (roomid : Bytes) (before : State)
    (happening : Happening) (next : State) : Prop where
  packets : ∃ serverRam, next.sent <+: [.handshake, .login serverRam, .joinChatroom roomid]
  login : ∀ serverRam, .login serverRam ∈ next.sent → next.handshake = true
  join : .joinChatroom roomid ∈ next.sent → next.bLogin = true
  bJoin : next.bJoin = true → next.bLogin = true
  bLogin : next.bLogin = true → next.handshake = true
  answered : Answered libraries before happening next

/-- Between the answers to the handshake and to the login request, no other binary message that
is long enough to be decoded arrives and has a packet sent for it. -/
def Patient (libraries : Libraries) (before : State) (happening : Happening) : Prop :=
  ∀ payload, happening = (none, .message .binary payload) →
    before.connection = .open → before.handshake = true → before.bLogin = false →
    payload.length < 4 ∨ Admits libraries payload

/-- The packets that belong to the flags. -/
def packets (roomid : Bytes) (state : State) : List Packet :=
  .handshake :: (if state.handshake then [.login state.serverRam] else []) ++
    if state.bLogin then [.joinChatroom roomid] else []

/-- The invariant of an instance: as long as the connection is open, the packets that belong
to the flags were sent. -/
structure InStep (roomid : Bytes) (state : State) : Prop where
  bJoin : state.bJoin = true → state.bLogin = true
  bLogin : state.bLogin = true → state.handshake = true
  sent : state.sent <+: packets roomid state
  current : state.connection = .open →
    state.sent = packets roomid state ∧ (state.bLogin = true → state.bJoin = true)
  early : state.connection = .connecting → state.sent = [] ∧ state.handshake = false

variable {libraries : Libraries} {roomid : Bytes} {ec : Option ErrorCode} {state : State}
  {before next : Process} {happening : Happening} {payload : Bytes}

/-! ## What a message does -/

theorem handling_parseLoginResponsePacket (before : state.handshake = true) :
    Handling libraries payload state (parseLoginResponsePacket libraries payload state).1 := by
  simp only [parseLoginResponsePacket]
  cases read : rest 4 payload with
  | none =>
      refine .ignored fun _ _ admits => ?_
      rcases admits with ⟨encrypted, found, -⟩
      cases found.symm.trans read
  | some encrypted =>
      dsimp only
      split
      next accepted => exact .admitted before ⟨encrypted, read, accepted⟩
      next other =>
        refine .ignored fun _ _ admits => ?_
        rcases admits with ⟨same, found, accepted⟩
        cases found.symm.trans read
        exact other accepted

theorem handling_handleBinaryMessage (libraries : Libraries) (payload : Bytes) (state : State) :
    Handling libraries payload state (handleBinaryMessage libraries payload state).1 := by
  simp only [handleBinaryMessage]
  split
  next handshake =>
    split
    next bLogin =>
      have busy : Handling libraries payload state state :=
        .ignored fun _ idle => by rw [bLogin] at idle; cases idle
      simp only [parseMessagePacket]
      split
      next => exact busy
      next =>
        split
        next => exact busy
        next =>
          split
          next => exact handling_parseLoginResponsePacket handshake
          next => split <;> exact busy
    next => exact handling_parseLoginResponsePacket handshake
  next handshake =>
    rw [Bool.not_eq_true] at handshake
    have fresh : Handling libraries payload state state :=
      .ignored fun set => by rw [handshake] at set; cases set
    simp only [parseHandshakePacket]
    cases read : rest 6 payload with
    | none => exact fresh
    | some encrypted =>
        dsimp only
        split
        next accepted => exact .greeted handshake ⟨encrypted, read, accepted⟩
        next => exact fresh

theorem sendPacket_accepted (packet : Packet) (isOpen : state.connection = .open) :
    sendPacket none packet state = ({ state with sent := state.sent ++ [packet] }, []) := by
  simp [sendPacket, ClientConnection.send, isOpen]

theorem sendPacket_refused (packet : Packet) (error : ErrorCode)
    (isOpen : state.connection = .open) :
    (sendPacket (some error) packet state).1 = { state with connection := .closing } := by
  simp [sendPacket, ClientConnection.send, closeAndReport, ClientConnection.close, isOpen]

/-- A packet that was sent or refused belongs to the flags. -/
theorem inStep_sendPacket {packet : Packet} (outcome : Option ErrorCode)
    (isOpen : state.connection = .open) (bLogin : state.bLogin = true → state.handshake = true)
    (bJoin : state.bJoin = state.bLogin)
    (due : state.sent ++ [packet] = packets roomid state) :
    InStep roomid (sendPacket outcome packet state).1 := by
  cases outcome with
  | none =>
      rw [sendPacket_accepted packet isOpen]
      have sent : state.sent ++ [packet] =
          packets roomid { state with sent := state.sent ++ [packet] } := due
      refine ⟨fun set => bJoin ▸ set, bLogin, ⟨[], (List.append_nil _).trans sent⟩,
        fun _ => ⟨sent, fun set => bJoin.symm ▸ set⟩, fun connecting => ?_⟩
      cases isOpen.symm.trans connecting
  | some error =>
      rw [sendPacket_refused packet error isOpen]
      refine ⟨fun set => bJoin ▸ set, bLogin, ?_, fun isOpen => ?_, fun connecting => ?_⟩
      · have sent : packets roomid { state with connection := .closing } =
            state.sent ++ [packet] := due.symm
        rw [sent]
        exact List.prefix_append _ _
      · cases isOpen
      · cases connecting

/-- A state in which no packet is due keeps the invariant. -/
theorem inStep_of_settled (isOpen : state.connection = .open)
    (bLogin : state.bLogin = true → state.handshake = true)
    (bJoin : state.bJoin = state.bLogin) (done : state.sent = packets roomid state) :
    InStep roomid state where
  bJoin set := bJoin ▸ set
  bLogin := bLogin
  sent := ⟨[], (List.append_nil _).trans done⟩
  current _ := ⟨done, fun set => bJoin.symm ▸ set⟩
  early connecting := by cases isOpen.symm.trans connecting

/-- What an instance that handles a message without a fault does next. -/
theorem onClientMessage_eq (outcome : Option ErrorCode)
    (long : headerSize state ≤ payload.length) :
    (onClientMessage libraries roomid .binary payload outcome state).1 =
      (sendNextPacket roomid outcome (handleBinaryMessage libraries payload state).1).1 := by
  have noFault : .fault ∉ (handleBinaryMessage libraries payload state).2 := by
    rw [fault_handleBinaryMessage]
    omega
  simp only [onClientMessage, noFault, if_false]

/-- A message that is too short leaves the instance as it is. -/
theorem onClientMessage_short (outcome : Option ErrorCode)
    (short : payload.length < headerSize state) :
    (onClientMessage libraries roomid .binary payload outcome state).1 = state := by
  simp only [onClientMessage, fault_handleBinaryMessage.mpr short, if_true]
  have outside : ∀ offset, headerSize state = offset → rest offset payload = none :=
    fun offset same => if_neg (by omega)
  simp only [handleBinaryMessage, headerSize] at short outside ⊢
  split
  next handshake =>
    rw [if_pos handshake] at short outside
    have noBeat : payload ≠ [0, 0, 0, 0] := by
      intro beat
      subst beat
      exact absurd short (by decide)
    split
    next => simp only [parseMessagePacket, noBeat, if_false, outside 4 rfl]
    next => simp only [parseLoginResponsePacket, outside 4 rfl]
  next handshake =>
    rw [if_neg handshake] at outside
    simp only [parseHandshakePacket, outside 6 rfl]

/-- On an open connection the join request was sent once it was due. -/
theorem InStep.bJoin_eq (inStep : InStep roomid state) (isOpen : state.connection = .open) :
    state.bJoin = state.bLogin :=
  Bool.eq_iff_iff.mpr ⟨inStep.bJoin, (inStep.current isOpen).2⟩

/-- The answer to the handshake makes the login request due. -/
theorem inStep_greeted (inStep : InStep roomid state) (isOpen : state.connection = .open)
    (fresh : state.handshake = false) (outcome : Option ErrorCode) (serverRam clientRam : Bytes) :
    InStep roomid (sendNextPacket roomid outcome
      { state with serverRam := serverRam, clientRam := clientRam, handshake := true }).1 := by
  have bLogin : state.bLogin = false := by
    rw [← Bool.not_eq_true]
    intro set
    cases fresh.symm.trans (inStep.bLogin set)
  simp only [sendNextPacket, bLogin, Bool.not_false, Bool.and_self, if_true]
  apply inStep_sendPacket outcome
  · exact isOpen
  · exact fun _ => rfl
  · exact (inStep.bJoin_eq isOpen).trans bLogin
  · simp [(inStep.current isOpen).1, packets, fresh, bLogin]

/-- The answer to the login request makes the join request due. -/
theorem inStep_admitted (inStep : InStep roomid state) (isOpen : state.connection = .open)
    (handshake : state.handshake = true) (outcome : Option ErrorCode) (session : Bytes) :
    InStep roomid
      (sendNextPacket roomid outcome { state with session := session, bLogin := true }).1 := by
  have sent := (inStep.current isOpen).1
  cases bLogin : state.bLogin with
  | true =>
      have bJoin := (inStep.bJoin_eq isOpen).trans bLogin
      simp only [sendNextPacket, handshake, bJoin, Bool.not_true, Bool.and_false,
        Bool.false_eq_true, if_false]
      apply inStep_of_settled
      · exact isOpen
      · exact fun _ => rfl
      · rfl
      · simp [sent, packets, handshake, bLogin]
  | false =>
      have bJoin := (inStep.bJoin_eq isOpen).trans bLogin
      simp only [sendNextPacket, handshake, bJoin, Bool.not_true, Bool.and_false,
        Bool.and_true, Bool.not_false, Bool.false_eq_true, if_true, if_false]
      apply inStep_sendPacket outcome
      · exact isOpen
      · exact fun _ => rfl
      · rfl
      · simp [sent, packets, handshake, bLogin]

/-- Another message has nothing sent, unless the login request is sent again or refused. -/
theorem inStep_ignored (inStep : InStep roomid state) (isOpen : state.connection = .open)
    {outcome : Option ErrorCode}
    (settled : outcome = none → state.handshake = true → ¬state.bLogin = false) :
    InStep roomid (sendNextPacket roomid outcome state).1 := by
  cases handshake : state.handshake with
  | false =>
      simp only [sendNextPacket, handshake, Bool.false_and]
      exact inStep
  | true =>
      cases bLogin : state.bLogin with
      | true =>
          have bJoin := (inStep.bJoin_eq isOpen).trans bLogin
          simp only [sendNextPacket, handshake, bLogin, bJoin, Bool.not_true, Bool.and_false]
          exact inStep
      | false =>
          simp only [sendNextPacket, handshake, bLogin, Bool.not_false, Bool.and_self, if_true]
          cases outcome with
          | none => exact absurd bLogin (settled rfl handshake)
          | some error =>
              rw [sendPacket_refused _ error isOpen]
              refine ⟨inStep.bJoin, inStep.bLogin, inStep.sent, fun isOpen => ?_,
                fun connecting => ?_⟩
              · cases isOpen
              · cases connecting

theorem inStep_onClientMessage (inStep : InStep roomid state) (isOpen : state.connection = .open)
    (outcome : Option ErrorCode)
    (patient : outcome = none → state.handshake = true → state.bLogin = false →
      payload.length < 4 ∨ Admits libraries payload) :
    InStep roomid (onClientMessage libraries roomid .binary payload outcome state).1 := by
  rcases Nat.lt_or_ge payload.length (headerSize state) with short | long
  · rw [onClientMessage_short outcome short]
    exact inStep
  · rw [onClientMessage_eq outcome long]
    have handling := handling_handleBinaryMessage libraries payload state
    generalize (handleBinaryMessage libraries payload state).1 = handled at handling
    cases handling with
    | greeted fresh => exact inStep_greeted inStep isOpen fresh outcome _ _
    | admitted handshake => exact inStep_admitted inStep isOpen handshake outcome _
    | ignored refused =>
        refine inStep_ignored inStep isOpen fun accepted handshake bLogin => ?_
        rcases patient accepted handshake bLogin with short | admits
        · simp only [headerSize, handshake, if_true] at long
          omega
        · exact refused handshake bLogin admits

/-- Sending does not change the flags of the server's answers. -/
theorem flags_sendNextPacket (outcome : Option ErrorCode) (state : State) :
    (sendNextPacket roomid outcome state).1.handshake = state.handshake ∧
      (sendNextPacket roomid outcome state).1.bLogin = state.bLogin := by
  have sent : ∀ (packet : Packet) (sender : State),
      (sendPacket outcome packet sender).1.handshake = sender.handshake ∧
        (sendPacket outcome packet sender).1.bLogin = sender.bLogin := by
    intro packet sender
    simp only [sendPacket]
    split <;> exact ⟨rfl, rfl⟩
  simp only [sendNextPacket]
  split
  next => exact sent _ state
  next =>
    split
    next => exact sent _ { state with bJoin := true }
    next => exact ⟨rfl, rfl⟩

theorem flags_onClientMessage (libraries : Libraries) (roomid payload : Bytes) (state : State)
    (opcode : Opcode) (outcome : Option ErrorCode) :
    ∃ handled, (opcode = .binary → Handling libraries payload state handled) ∧
      (opcode = .text → handled = state) ∧
      (onClientMessage libraries roomid opcode payload outcome state).1.handshake =
        handled.handshake ∧
      (onClientMessage libraries roomid opcode payload outcome state).1.bLogin =
        handled.bLogin := by
  cases opcode with
  | text => exact ⟨state, by simp, fun _ => rfl, rfl, rfl⟩
  | binary =>
      refine ⟨_, fun _ => handling_handleBinaryMessage .., by simp, ?_⟩
      simp only [onClientMessage]
      split
      next => exact ⟨rfl, rfl⟩
      next => exact flags_sendNextPacket outcome _

/-! ## Runs -/

/-- What a step does to the instance: the connection is opened and the handshake sent, a message
is handled, or the connection is past both. -/
inductive Moves (libraries : Libraries) (roomid : Bytes) (state : State) :
    Happening → State → Prop where
  | opened {outcome : Option ErrorCode} (connecting : state.connection = .connecting) :
      Moves libraries roomid state (outcome, .opened)
        (sendPacket outcome .handshake { state with connection := .open }).1
  | message {outcome : Option ErrorCode} {opcode : Opcode} {payload : Bytes}
      (isOpen : state.connection = .open) :
      Moves libraries roomid state (outcome, .message opcode payload)
        (onClientMessage libraries roomid opcode payload outcome state).1
  | leaves {outcome : Option ErrorCode} {event : ClientEvent} {connection : ClientConnection}
      (quiet : ∀ opcode payload, event ≠ .message opcode payload)
      (notOpen : connection ≠ .open) (notConnecting : connection ≠ .connecting) :
      Moves libraries roomid state (outcome, event) { state with connection := connection }

theorem moves (stepped : (machine libraries roomid ec).step before happening = some next) :
    Moves libraries roomid before.platform happening next.platform := by
  simp only [machine] at stepped
  split at stepped
  next => cases stepped
  next =>
    rw [Option.map_eq_some_iff] at stepped
    rcases stepped with ⟨⟨platform, effects⟩, taken, rfl⟩
    rcases happening with ⟨outcome, event⟩
    cases event with
    | opened =>
        simp only [step] at taken
        split at taken
        next connecting =>
          rw [Option.some.injEq, onClientOpen] at taken
          rw [← congrArg Prod.fst taken]
          exact .opened connecting
        next => cases taken
    | message opcode payload =>
        simp only [step] at taken
        split at taken
        next isOpen =>
          rw [Option.some.injEq] at taken
          rw [← congrArg Prod.fst taken]
          exact .message isOpen
        next => cases taken
    | closing | failed | closed | expire =>
        simp only [step] at taken
        split at taken
        next =>
          rw [Option.some.injEq] at taken
          rw [← congrArg Prod.fst taken]
          exact .leaves (by simp) (by simp) (by simp)
        next => cases taken
    | terminated =>
        simp only [step] at taken
        split at taken
        next =>
          rw [Option.some.injEq] at taken
          rw [← congrArg Prod.fst taken]
          exact .leaves (by simp) (by simp) (by simp)
        next =>
          rw [Option.some.injEq] at taken
          rw [← congrArg Prod.fst taken]
          exact .leaves (by simp) (by simp) (by simp)
        next => cases taken

theorem Moves.answered {source target : State}
    (moves : Moves libraries roomid source happening target) :
    Answered libraries source happening target := by
  cases moves with
  | @opened outcome =>
      simp only [sendPacket]
      split <;> exact ⟨.inl, .inl⟩
  | @message outcome opcode payload =>
      rcases flags_onClientMessage libraries roomid payload source opcode outcome with
        ⟨handled, binary, text, handshake, bLogin⟩
      cases opcode with
      | text =>
          cases text rfl
          exact ⟨fun set => .inl (handshake ▸ set), fun set => .inl (bLogin ▸ set)⟩
      | binary =>
          cases binary rfl with
          | greeted fresh greets =>
              exact ⟨fun _ => .inr ⟨payload, rfl, greets⟩, fun set => .inl (bLogin ▸ set)⟩
          | admitted earlier admits =>
              exact ⟨fun _ => .inl earlier, fun _ => .inr ⟨payload, rfl, admits⟩⟩
          | ignored => exact ⟨fun set => .inl (handshake ▸ set), fun set => .inl (bLogin ▸ set)⟩
  | leaves => exact ⟨.inl, .inl⟩

theorem Moves.inStep {source target : State}
    (moves : Moves libraries roomid source happening target) (inStep : InStep roomid source)
    (patient : Patient libraries source happening) : InStep roomid target := by
  cases moves with
  | opened connecting =>
      rcases inStep.early connecting with ⟨nothing, fresh⟩
      have bLogin : source.bLogin = false := by
        rw [← Bool.not_eq_true]
        intro set
        cases fresh.symm.trans (inStep.bLogin set)
      have bJoin : source.bJoin = false := by
        rw [← Bool.not_eq_true]
        intro set
        cases bLogin.symm.trans (inStep.bJoin set)
      apply inStep_sendPacket
      · rfl
      · exact inStep.bLogin
      · exact bJoin.trans bLogin.symm
      · simp [packets, nothing, fresh, bLogin]
  | @message outcome opcode payload isOpen =>
      cases opcode with
      | text => exact inStep
      | binary =>
          refine inStep_onClientMessage inStep isOpen outcome fun answered => ?_
          subst answered
          exact patient payload rfl isOpen
  | leaves quiet notOpen notConnecting =>
      exact ⟨inStep.bJoin, inStep.bLogin, inStep.sent, fun isOpen => absurd isOpen notOpen,
        fun connecting => absurd connecting notConnecting⟩

/-- The packets that belong to the flags are in sequence. -/
theorem InStep.inSequence {source target : State} (inStep : InStep roomid target)
    (answered : Answered libraries source happening target) :
    InSequence libraries roomid source happening target := by
  have inFlags : ∀ packet ∈ target.sent, packet ∈ packets roomid target :=
    fun packet member => inStep.sent.subset member
  refine ⟨⟨target.serverRam, inStep.sent.trans ?_⟩, fun serverRam member => ?_,
    fun member => ?_, inStep.bJoin, inStep.bLogin, answered⟩
  · simp only [packets]
    cases handshake : target.handshake with
    | false =>
        have bLogin : target.bLogin = false := by
          rw [← Bool.not_eq_true]
          intro set
          cases handshake.symm.trans (inStep.bLogin set)
        rw [bLogin]
        exact List.prefix_append _ _
    | true =>
        cases target.bLogin with
        | false => exact List.prefix_append _ _
        | true => exact List.prefix_rfl
  · have due := inFlags _ member
    cases handshake : target.handshake with
    | true => rfl
    | false =>
        simp only [packets, handshake, Bool.false_eq_true, if_false] at due
        split at due <;> simp at due
  · have due := inFlags _ member
    cases bLogin : target.bLogin with
    | true => rfl
    | false =>
        simp only [packets, bLogin, Bool.false_eq_true, if_false] at due
        split at due <;> simp at due

/-- A message that is neither too short nor the answer makes the instance log in again. -/
theorem Moves.patient {source target : State}
    (moves : Moves libraries roomid source happening target) (inStep : InStep roomid source)
    (inSequence : InSequence libraries roomid source happening target) :
    Patient libraries source happening := by
  intro payload answered isOpen handshake bLogin
  subst answered
  by_contra impatient
  rw [not_or, Nat.not_lt] at impatient
  have long : headerSize source ≤ payload.length := by
    rw [headerSize, if_pos handshake]
    exact impatient.1
  have again : target.sent = source.sent ++ [.login source.serverRam] := by
    cases moves with
    | message =>
        have handling := handling_handleBinaryMessage libraries payload source
        rw [onClientMessage_eq none long]
        generalize (handleBinaryMessage libraries payload source).1 = handled at handling
        cases handling with
        | greeted fresh => cases fresh.symm.trans handshake
        | admitted _ admits => exact absurd admits impatient.2
        | ignored =>
            simp only [sendNextPacket, handshake, bLogin, Bool.not_false, Bool.and_self, if_true]
            rw [sendPacket_accepted _ isOpen]
    | leaves quiet => exact absurd rfl (quiet _ _)
  rcases inSequence.packets with ⟨serverRam, ordered⟩
  rw [again, (inStep.current isOpen).1] at ordered
  simp [packets, handshake, bLogin] at ordered

theorem inStep_started (ec : Option ErrorCode) : InStep roomid (start ec .fresh).1 := by
  cases ec with
  | none =>
      refine ⟨?_, ?_, List.nil_prefix, ?_, fun _ => ⟨rfl, rfl⟩⟩
      all_goals
        intro impossible
        cases impossible
  | some error =>
      refine ⟨?_, ?_, List.nil_prefix, ?_, ?_⟩
      all_goals
        intro impossible
        cases impossible

/-- Handshake, login request and join request are sent in sequence exactly along the runs in
which the instance is answered before anything else arrives. -/
theorem inSequence_along_iff (libraries : Libraries) (roomid : Bytes) (ec : Option ErrorCode)
    (happenings : List Happening) :
    (machine libraries roomid ec).Along
        (fun before happening next =>
          InSequence libraries roomid before.platform happening next.platform)
        (machine libraries roomid ec).init happenings ↔
      (machine libraries roomid ec).Along
        (fun before happening _ => Patient libraries before.platform happening)
        (machine libraries roomid ec).init happenings := by
  constructor
  · intro inSequence
    refine inSequence.of_invariant (fun process => InStep roomid process.platform) ?_
      (inStep_started ec)
    intro before next happening inStep stepped inSequence
    have patient := (moves stepped).patient inStep inSequence
    exact ⟨(moves stepped).inStep inStep patient, patient⟩
  · intro patient
    refine patient.of_invariant (fun process => InStep roomid process.platform) ?_
      (inStep_started ec)
    intro before next happening inStep stepped patient
    have kept := (moves stepped).inStep inStep patient
    exact ⟨kept, kept.inSequence (moves stepped).answered⟩

/-- Every message is an `InitLoginResp`. -/
def greeter : Libraries :=
  { (default : Libraries) with
    parseMessage := fun _ => { (default : HuajiaoMessage) with msgid := initLoginResp } }

/-- The answer to the handshake arrives twice. -/
theorem not_inSequence_along :
    ¬ ∀ (libraries : Libraries) (roomid : Bytes) (ec : Option ErrorCode)
        (happenings : List Happening),
      (machine libraries roomid ec).Along
        (fun before happening next =>
          InSequence libraries roomid before.platform happening next.platform)
        (machine libraries roomid ec).init happenings := by
  intro along
  have inSequence := along greeter (ascii "1") none
    [(none, .opened), (none, .message .binary [0, 0, 0, 0, 0, 0]),
      (none, .message .binary [0, 0, 0, 0, 0, 0])]
  rcases ((inSequence _ rfl).2 _ rfl).2 _ rfl with ⟨⟨packets, -, -, -, -, -⟩, -⟩
  rcases packets with ⟨serverRam, ordered⟩
  cases ordered.eq_of_length rfl

end DMProxy.Platforms.Huajiao
