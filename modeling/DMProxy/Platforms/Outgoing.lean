import DMProxy.Platforms.Closable

/-!
# The bytes sent upstream

`async_write` hands its packet to the socket piece by piece.  Packets are written by the
handlers of a connection, of a login response and of the heartbeat timer, and nothing
queues them.
-/

namespace DMProxy.Platforms

open DMProxy.Async
open DMProxy.Network
open DMProxy.Text
open DMProxy.Transition

/-- The packet of a write. -/
def Action.packet : Action → Option Bytes
  | .write packet => some packet
  | .resolve | .connect | .read | .wait => none

/-- What happens to an instance whose writes are carried out in pieces. -/
inductive WireEvent (ν : Type) where
  | stimulus (stimulus : Stimulus ν)
  /-- A running write transfers its next bytes. -/
  | transfer (index count : Nat)

/-- An instance with the bytes that went out. -/
structure Wire (σ : Type) where
  process : TcpPlatform.Process σ
  /-- how much of its packet each pending operation has transferred -/
  transferred : List Nat
  /-- the packets of all writes, in the order in which they were started -/
  packets : List Bytes
  sent : Bytes

namespace TcpPlatform

variable {σ ω ν : Type} [IoRequest ω] {platform : TcpPlatform σ ω ν}
  {prompts : ω → Completion → Prop} {wire next : Wire σ} {event : WireEvent ν}

/-- The packets of the writes among some operations. -/
def packetsOf (platform : TcpPlatform σ ω ν) (requests : List ω) : List Bytes :=
  requests.filterMap fun request => (platform.action request).packet

/-- A write succeeds when its whole packet was transferred. -/
def permits (platform : TcpPlatform σ ω ν) (wire : Wire σ) : Stimulus ν → Bool
  | .progress (_, .finish index completion) =>
      match (platform.io wire.process.state).pending[index]? with
      | none => false
      | some operation =>
          match (platform.action operation.request).packet with
          | none => true
          | some packet =>
              completion.ec.isSome || wire.transferred[index]? == some packet.length
  | .progress (_, .run _) | .close => true

/-- What is left of the counts when a handler takes its operation away. -/
def remaining (transferred : List Nat) : Stimulus ν → List Nat
  | .progress (_, .run index) => transferred.eraseIdx index
  | .progress (_, .finish _ _) | .close => transferred

/-- An instance with its outgoing bytes, from its `start` on. -/
def outgoing (platform : TcpPlatform σ ω ν) : Machine (Wire σ) (WireEvent ν) where
  init :=
    { process := platform.closable.init
      transferred := (platform.io platform.started).pending.map fun _ => 0
      packets := platform.packetsOf (platform.io platform.started).pending.requests
      sent := [] }
  step wire
    | .stimulus stimulus =>
        if platform.permits wire stimulus then
          (platform.closable.step wire.process stimulus).map fun next =>
            let issued := platform.issued wire.process.state next.state stimulus
            { process := next
              transferred := remaining wire.transferred stimulus ++ issued.map fun _ => 0
              packets := wire.packets ++ platform.packetsOf issued
              sent := wire.sent }
        else none
    | .transfer index count =>
        match (platform.io wire.process.state).pending[index]?, wire.transferred[index]? with
        | some ⟨request, .running⟩, some done =>
            match (platform.action request).packet with
            | none => none
            | some packet =>
                if .fault ∉ wire.process.effects ∧ 0 < count ∧ done + count ≤ packet.length then
                  some { wire with
                    transferred := wire.transferred.set index (done + count)
                    sent := wire.sent ++ (packet.drop done).take count }
                else none
        | _, _ => none

/-- At most one write is unfinished, and whole packets were sent with at most one prefix of
a packet after them. -/
structure Undivided (platform : TcpPlatform σ ω ν) (wire : Wire σ) : Prop where
  single : (platform.packetsOf (platform.io wire.process.state).pending.requests).length ≤ 1
  whole : ∃ count part, wire.sent = (wire.packets.take count).flatten ++ part ∧
    part <+: wire.packets.getD count []

/-- A script that connects only in the connection sequence, and writes on the socket. -/
structure Proper (platform : TcpPlatform σ ω ν) (calls : List (Call ω)) : Prop where
  connects : ∀ later, .connect later ∈ calls → platform.setup later = true
  writes : ∀ call ∈ calls, ∀ later, call.request = some later →
    (platform.action later).packet.isSome → call = .startOnSocket later

/-- `prompts` tells the completions, other than those of the connection sequence, whose
handlers start a write. -/
structure Sender (platform : TcpPlatform σ ω ν) (prompts : ω → Completion → Prop) : Prop where
  started : platform.packetsOf (platform.io platform.started).pending.requests = []
  onSocket : ∀ request packet, platform.action request = .write packet →
    IoRequest.object request = .socket
  proper : ∀ choice state request completion,
    platform.Proper (platform.react choice state request completion).calls
  prompted : ∀ choice state request completion, prompts request completion →
    (platform.action request).packet = none ∧
      platform.packetsOf (requestsOf (platform.react choice state request completion).calls) ≠ []
  unprompted : ∀ choice state request completion, platform.setup request = false →
    ¬prompts request completion →
    platform.packetsOf (requestsOf (platform.react choice state request completion).calls) = []
  atMostOne : ∀ choice state request completion,
    (platform.packetsOf
      (requestsOf (platform.react choice state request completion).calls)).length ≤ 1
  failed : ∀ choice state request packet completion, platform.action request = .write packet →
    completion.ec ≠ none → ∃ more,
      (platform.react choice state request completion).calls = .closeSocket :: more ∧
        requestsOf more = []

/-- The step handles no prompting completion while a write is unfinished. -/
def Unhurried (platform : TcpPlatform σ ω ν) (prompts : ω → Completion → Prop)
    (wire : Wire σ) (event : WireEvent ν) : Prop :=
  ∀ choice index request completion rest,
    event = .stimulus (.progress (choice, .run index)) →
    (platform.io wire.process.state).pending.take index = some (request, completion, rest) →
    prompts request completion →
    platform.packetsOf (platform.io wire.process.state).pending.requests = []

/-! ## What is owed to the socket -/

@[simp] theorem packetsOf_append (first second : List ω) :
    platform.packetsOf (first ++ second) =
      platform.packetsOf first ++ platform.packetsOf second := by
  simp [packetsOf]

theorem packetsOf_cons (request : ω) (requests : List ω) :
    platform.packetsOf (request :: requests) =
      (platform.action request).packet.toList ++ platform.packetsOf requests := by
  cases packet : (platform.action request).packet <;> simp [packetsOf, packet]

/-- The bytes of the pending writes that were not transferred yet. -/
def owed (platform : TcpPlatform σ ω ν) : List ω → List Nat → Bytes
  | request :: requests, done :: transferred =>
      ((platform.action request).packet.getD []).drop done ++ platform.owed requests transferred
  | _, _ => []

theorem owed_zeros (requests : List ω) :
    platform.owed requests (requests.map fun _ => 0) =
      (platform.packetsOf requests).flatten := by
  induction requests with
  | nil => rfl
  | cons request requests ih =>
      rw [packetsOf_cons, List.map_cons, owed, ih]
      cases (platform.action request).packet <;> simp

theorem owed_append {requests later : List ω} {transferred zeros : List Nat}
    (aligned : transferred.length = requests.length) :
    platform.owed (requests ++ later) (transferred ++ zeros) =
      platform.owed requests transferred ++ platform.owed later zeros := by
  induction requests generalizing transferred with
  | nil =>
      cases List.eq_nil_of_length_eq_zero aligned
      rfl
  | cons request requests ih =>
      cases transferred with
      | nil => cases aligned
      | cons done transferred =>
          simp only [List.length_cons, Nat.add_right_cancel_iff] at aligned
          simp only [List.cons_append, owed, ih aligned, List.append_assoc]

/-- An operation that owes nothing may be forgotten. -/
theorem owed_eraseIdx {requests : List ω} {transferred : List Nat} {index done : Nat}
    {request : ω} (located : requests[index]? = some request)
    (counted : transferred[index]? = some done)
    (nothing : ((platform.action request).packet.getD []).drop done = []) :
    platform.owed (requests.eraseIdx index) (transferred.eraseIdx index) =
      platform.owed requests transferred := by
  induction requests generalizing transferred index with
  | nil => simp at located
  | cons head requests ih =>
      cases transferred with
      | nil => simp at counted
      | cons first transferred =>
          cases index with
          | zero =>
              cases located
              cases counted
              simp [owed, nothing]
          | succ index =>
              simp only [List.eraseIdx_cons_succ, owed]
              rw [ih located counted]

/-- The bytes the only write transfers are the next ones that are owed. -/
theorem owed_set {requests : List ω} {transferred : List Nat} {index done count : Nat}
    {request : ω} {packet : Bytes} (located : requests[index]? = some request)
    (counted : transferred[index]? = some done)
    (writes : (platform.action request).packet = some packet)
    (single : (platform.packetsOf requests).length ≤ 1) :
    platform.owed requests transferred =
      (packet.drop done).take count ++
        platform.owed requests (transferred.set index (done + count)) := by
  induction requests generalizing transferred index with
  | nil => simp at located
  | cons head requests ih =>
      rw [packetsOf_cons, List.length_append] at single
      cases transferred with
      | nil => simp at counted
      | cons first transferred =>
          cases index with
          | zero =>
              cases located
              cases counted
              simp only [owed, writes, Option.getD_some, List.set_cons_zero]
              rw [← List.append_assoc, ← List.drop_drop, List.take_append_drop]
          | succ index =>
              have tail : platform.packetsOf requests ≠ [] := by
                intro none
                have member : request ∈ requests := List.mem_of_getElem? located
                simp only [packetsOf, List.filterMap_eq_nil_iff] at none
                cases (none request member).symm.trans writes
              have positive := List.length_pos_iff.mpr tail
              have silent : (platform.action head).packet = none := by
                cases packet : (platform.action head).packet with
                | none => rfl
                | some other =>
                    rw [packet, Option.toList_some, List.length_singleton] at single
                    omega
              simp only [owed, silent, Option.getD_none, List.drop_nil, List.nil_append,
                List.set_cons_succ]
              exact ih located counted (by omega)

/-! ## Tidy wires -/

/-- Each pending operation has its count, at most one of them is a write, and a write that has
succeeded has transferred its packet. -/
structure Counted (platform : TcpPlatform σ ω ν) (io : Io ω) (transferred : List Nat) : Prop where
  aligned : transferred.length = io.pending.length
  single : (platform.packetsOf io.pending.requests).length ≤ 1
  complete : ∀ (index : Nat) (request : ω) (packet : Bytes) (completion : Completion),
    io.pending[index]? = some ⟨request, .ready completion⟩ →
    (platform.action request).packet = some packet → completion.ec = none →
    transferred[index]? = some packet.length

/-- The socket is closed for good. -/
structure Dead (platform : TcpPlatform σ ω ν) (io : Io ω) : Prop where
  shut : io.socketOpen = false
  traffic : ∀ request ∈ io.pending.requests, platform.setup request = false
  ready : ∀ operation ∈ io.pending,
    (platform.action operation.request).packet.isSome → operation.IsReady

/-- Of the packets nothing is missing but what is owed. -/
def Owes (platform : TcpPlatform σ ω ν) (io : Io ω) (transferred : List Nat)
    (packets : List Bytes) (sent : Bytes) : Prop :=
  sent ++ platform.owed io.pending.requests transferred = packets.flatten

/-- What was sent is in order, and stays so. -/
def Balanced (platform : TcpPlatform σ ω ν) (io : Io ω) (transferred : List Nat)
    (packets : List Bytes) (sent : Bytes) : Prop :=
  platform.Owes io transferred packets sent ∨ platform.Dead io ∧ sent <+: packets.flatten

variable {io : Io ω} {transferred : List Nat} {packets : List Bytes} {sent : Bytes}

theorem Balanced.prefix_packets (balanced : platform.Balanced io transferred packets sent) :
    sent <+: packets.flatten := by
  rcases balanced with owes | ⟨-, whole⟩
  · exact ⟨_, owes⟩
  · exact whole

section Take

variable {index : Nat} {request : ω} {completion : Completion} {rest : Pending ω Completion}

theorem Counted.take (counted : platform.Counted io transferred)
    (taken : io.pending.take index = some (request, completion, rest)) :
    platform.Counted { io with pending := rest } (transferred.eraseIdx index) := by
  rcases Pending.getElem?_of_take taken with ⟨located, rfl⟩
  have inside : index < io.pending.length := (List.getElem?_eq_some_iff.mp located).1
  constructor
  · rw [List.length_eraseIdx_of_lt (counted.aligned ▸ inside),
      List.length_eraseIdx_of_lt inside, counted.aligned]
  · have fewer : (platform.packetsOf (Pending.requests (io.pending.eraseIdx index))).Sublist
        (platform.packetsOf io.pending.requests) :=
      ((List.eraseIdx_sublist _ _).map _).filterMap _
    exact fewer.length_le.trans counted.single
  · intro other held packet result found writes success
    simp only [List.getElem?_eraseIdx] at found ⊢
    split at found
    next before =>
      rw [if_pos before]
      exact counted.complete other held packet result found writes success
    next after =>
      rw [if_neg after]
      exact counted.complete (other + 1) held packet result found writes success

theorem Dead.take (dead : platform.Dead io)
    (taken : io.pending.take index = some (request, completion, rest)) :
    platform.Dead { io with pending := rest } := by
  have kept := Pending.subset_of_take taken
  refine ⟨dead.shut, fun other member => ?_, fun operation member => dead.ready _ (kept member)⟩
  rcases List.mem_map.mp member with ⟨operation, listed, rfl⟩
  exact dead.traffic _ (List.mem_map_of_mem (kept listed))

/-- Whatever is handled but a write that failed, nothing that is owed is forgotten. -/
theorem Owes.take (owes : platform.Owes io transferred packets sent)
    (counted : platform.Counted io transferred)
    (taken : io.pending.take index = some (request, completion, rest))
    (complete : ∀ packet, platform.action request = .write packet → completion.ec = none) :
    platform.Owes { io with pending := rest } (transferred.eraseIdx index) packets sent := by
  rcases Pending.getElem?_of_take taken with ⟨located, -⟩
  rcases Pending.requests_take taken with ⟨requested, erased⟩
  have inside : index < transferred.length := by
    rw [counted.aligned]
    exact (List.getElem?_eq_some_iff.mp located).1
  have settled : ((platform.action request).packet.getD []).drop transferred[index] = [] := by
    cases action : platform.action request with
    | write packet =>
        have done := counted.complete index request packet completion located (by rw [action]; rfl)
          (complete packet action)
        rw [List.getElem?_eq_getElem inside, Option.some.injEq] at done
        simp [Action.packet, done]
    | resolve | connect | read | wait => simp [Action.packet]
  simp only [Owes]
  rw [erased, owed_eraseIdx requested (List.getElem?_eq_getElem inside) settled]
  exact owes

end Take

section Run

variable {calls : List (Call ω)}

theorem Counted.run (counted : platform.Counted io transferred) (proper : platform.Proper calls)
    (single : (platform.packetsOf (io.pending.requests ++ requestsOf calls)).length ≤ 1) :
    platform.Counted (io.run calls) (transferred ++ (requestsOf calls).map fun _ => 0) := by
  constructor
  · rw [← Pending.length_requests, Io.requests_run]
    simp [counted.aligned]
  · rwa [Io.requests_run]
  · intro index request packet completion found writes success
    have before := Io.getElem?_of_run (fun request => (platform.action request).packet.isSome)
      (fun later result member write => by cases proper.writes _ member later rfl write)
      found (by simp [writes]) success
    have inside : index < transferred.length := by
      rw [counted.aligned]
      exact (List.getElem?_eq_some_iff.mp before).1
    rw [List.getElem?_append_left inside]
    exact counted.complete index request packet completion before writes success

theorem Dead.run (dead : platform.Dead io) (proper : platform.Proper calls)
    (traffic : ∀ later ∈ requestsOf calls, platform.setup later = false) :
    platform.Dead (io.run calls) := by
  have unconnected : ∀ later, .connect later ∉ calls := by
    intro later member
    have started : later ∈ requestsOf calls := List.mem_filterMap.mpr ⟨_, member, rfl⟩
    cases (proper.connects later member).symm.trans (traffic later started)
  rcases Io.isReady_of_run (fun request => (platform.action request).packet.isSome) unconnected
    proper.writes dead.shut dead.ready with ⟨shut, ready⟩
  refine ⟨shut, ?_, ready⟩
  rw [Io.requests_run]
  intro request member
  rcases List.mem_append.mp member with older | started
  · exact dead.traffic request older
  · exact traffic request started

theorem Owes.run (owes : platform.Owes io transferred packets sent)
    (aligned : transferred.length = io.pending.length) :
    platform.Owes (io.run calls) (transferred ++ (requestsOf calls).map fun _ => 0)
      (packets ++ platform.packetsOf (requestsOf calls)) sent := by
  simp only [Owes] at owes ⊢
  rw [Io.requests_run, owed_append (by simpa using aligned), owed_zeros, ← List.append_assoc,
    owes, List.flatten_append]

/-- A script that closes the socket and connects nothing leaves it dead. -/
theorem dead_closeSocket (traffic : ∀ request ∈ io.pending.requests, platform.setup request = false)
    (onSocket : ∀ request packet, platform.action request = .write packet →
      IoRequest.object request = .socket) :
    platform.Dead io.closeSocket := by
  refine ⟨rfl, ?_, ?_⟩
  · simpa [Io.closeSocket, Io.abort] using traffic
  · intro operation member writes
    apply Io.isReady_of_abort member
    cases action : platform.action operation.request with
    | write packet => exact onSocket _ packet action
    | resolve | connect | read | wait =>
        rw [action] at writes
        cases writes

end Run

section Finish

variable {index : Nat} {completion : Completion} {pending : Pending ω Completion}
  {admits : ω → Completion → Bool}

theorem Counted.finish (counted : platform.Counted io transferred)
    (result : Pending.finish admits completion io.pending index = some pending)
    (complete : ∀ request packet, io.pending[index]? = some ⟨request, .running⟩ →
      (platform.action request).packet = some packet → completion.ec = none →
      transferred[index]? = some packet.length) :
    platform.Counted { io with pending := pending } transferred := by
  have same := Pending.requests_finish result
  rcases Pending.getElem?_of_finish result with ⟨request, located, rfl, -⟩
  refine ⟨by simpa using counted.aligned, ?_, ?_⟩
  · rw [same]
    exact counted.single
  · intro other held packet received found writes success
    simp only [List.getElem?_set] at found
    split at found
    next here =>
      subst here
      split at found
      next =>
        cases found
        exact complete request packet located writes success
      next => cases found
    next => exact counted.complete other held packet received found writes success

theorem Balanced.finish (balanced : platform.Balanced io transferred packets sent)
    (result : Pending.finish admits completion io.pending index = some pending) :
    platform.Balanced { io with pending := pending } transferred packets sent := by
  have same := Pending.requests_finish result
  rcases balanced with owes | ⟨dead, whole⟩
  · left
    simp only [Owes]
    rw [same]
    exact owes
  · right
    refine ⟨⟨dead.shut, ?_, ?_⟩, whole⟩
    · dsimp only
      rw [same]
      exact dead.traffic
    · rcases Pending.getElem?_of_finish result with ⟨request, located, rfl, -⟩
      intro operation member writes
      rcases List.mem_or_eq_of_mem_set member with older | rfl
      · exact dead.ready operation older writes
      · exact ⟨completion, rfl⟩

end Finish

section Transfer

variable {index done count : Nat} {request : ω} {packet : Bytes}

theorem Counted.transfer (counted : platform.Counted io transferred)
    (located : io.pending[index]? = some ⟨request, .running⟩) (value : Nat) :
    platform.Counted io (transferred.set index value) := by
  refine ⟨by simpa using counted.aligned, counted.single, ?_⟩
  intro other held packet completion found writes success
  have different : index ≠ other := by
    intro same
    subst same
    cases located.symm.trans found
  rw [List.getElem?_set_ne different]
  exact counted.complete other held packet completion found writes success

theorem Balanced.transfer (balanced : platform.Balanced io transferred packets sent)
    (counted : platform.Counted io transferred)
    (located : io.pending[index]? = some ⟨request, .running⟩)
    (progress : transferred[index]? = some done)
    (writes : (platform.action request).packet = some packet) :
    platform.Balanced io (transferred.set index (done + count)) packets
      (sent ++ (packet.drop done).take count) := by
  rcases balanced with owes | ⟨dead, -⟩
  · left
    have requested : io.pending.requests[index]? = some request := by
      simp [Pending.requests, located]
    rw [Owes, owed_set requested progress writes counted.single, ← List.append_assoc] at owes
    exact owes
  · rcases dead.ready _ (List.mem_of_getElem? located) (by simp [writes]) with ⟨completion, fixed⟩
    cases fixed

end Transfer

/-! ## Runs -/

/-- The invariant of unhurried runs. -/
structure Tidy (platform : TcpPlatform σ ω ν) (wire : Wire σ) : Prop where
  orderly : platform.Orderly wire.process.state
  counted : platform.Counted (platform.io wire.process.state) wire.transferred
  balanced : platform.Balanced (platform.io wire.process.state) wire.transferred wire.packets
    wire.sent

theorem Sender.tidy_init (sender : platform.Sender prompts) (sequential : platform.Sequential) :
    platform.Tidy platform.outgoing.init where
  orderly := .inl sequential.started
  counted := by
    refine ⟨by simp [outgoing, closable, machine], ?_, ?_⟩
    · change (platform.packetsOf (platform.io platform.started).pending.requests).length ≤ 1
      simp [sender.started]
    · intro index request packet completion found writes
      have silent := sender.started
      simp only [packetsOf, List.filterMap_eq_nil_iff] at silent
      have listed : request ∈ (platform.io platform.started).pending.requests :=
        List.mem_map.mpr ⟨_, List.mem_of_getElem? found, rfl⟩
      cases (silent request listed).symm.trans writes
  balanced := by
    left
    have zeros : (platform.io platform.started).pending.map (fun _ => 0) =
        (platform.io platform.started).pending.requests.map fun _ => 0 := by
      rw [Pending.requests, List.map_map]
      rfl
    simp only [Owes, outgoing, closable, machine, zeros, owed_zeros, List.nil_append]

theorem tidy_transfer (tidy : platform.Tidy wire) {index count : Nat}
    (stepped : platform.outgoing.step wire (.transfer index count) = some next) :
    platform.Tidy next := by
  simp only [outgoing] at stepped
  split at stepped
  next request done located progress =>
    split at stepped
    next => cases stepped
    next packet writes =>
      split at stepped
      next =>
        cases stepped
        exact ⟨tidy.orderly, tidy.counted.transfer located _,
          tidy.balanced.transfer tidy.counted located progress writes⟩
      next => cases stepped
  next => cases stepped

/-- After a handler at most one write is unfinished. -/
theorem Sender.single_handled (sender : platform.Sender prompts) (tidy : platform.Tidy wire)
    {choice : ν} {index : Nat} {request : ω} {completion : Completion}
    {rest : Pending ω Completion}
    (taken : (platform.io wire.process.state).pending.take index =
      some (request, completion, rest))
    (unhurried : prompts request completion →
      platform.packetsOf (platform.io wire.process.state).pending.requests = []) :
    (platform.packetsOf (rest.requests ++ requestsOf
      (platform.react choice wire.process.state request completion).calls)).length ≤ 1 := by
  have fewer := (tidy.counted.take taken).single
  have started := sender.atMostOne choice wire.process.state request completion
  rw [packetsOf_append, List.length_append]
  cases setup : platform.setup request with
  | true =>
      rw [tidy.orderly.rest_of_setup taken setup]
      simpa [packetsOf] using started
  | false =>
      by_cases prompting : prompts request completion
      · have none := unhurried prompting
        rcases Pending.getElem?_of_take taken with ⟨-, rfl⟩
        have silent : platform.packetsOf (Pending.requests
            ((platform.io wire.process.state).pending.eraseIdx index)) = [] := by
          rw [← List.sublist_nil, ← none]
          exact ((List.eraseIdx_sublist _ _).map _).filterMap _
        simpa [silent] using started
      · rw [sender.unprompted choice _ request completion setup prompting]
        simpa using fewer

theorem proper_startOnSocket (request : ω) : platform.Proper [.startOnSocket request] := by
  refine ⟨by simp, fun call member later started _ => ?_⟩
  rw [List.mem_singleton.mp member] at started ⊢
  cases started
  rfl

theorem Proper.tail {head : Call ω} {calls : List (Call ω)}
    (proper : platform.Proper (head :: calls)) : platform.Proper calls where
  connects later member := proper.connects later (List.mem_cons_of_mem _ member)
  writes call member := proper.writes call (List.mem_cons_of_mem _ member)

/-- A handler leaves nothing out of what is owed, or leaves the socket dead. -/
theorem Sender.balanced_handled (sender : platform.Sender prompts)
    (sequential : platform.Sequential) (tidy : platform.Tidy wire) {choice : ν} {index : Nat}
    {request : ω} {completion : Completion} {rest : Pending ω Completion}
    (taken : (platform.io wire.process.state).pending.take index =
      some (request, completion, rest)) :
    platform.Balanced
      (Io.run { platform.io wire.process.state with pending := rest }
        (platform.react choice wire.process.state request completion).calls)
      (wire.transferred.eraseIdx index ++ (requestsOf
        (platform.react choice wire.process.state request completion).calls).map fun _ => 0)
      (wire.packets ++ platform.packetsOf (requestsOf
        (platform.react choice wire.process.state request completion).calls)) wire.sent := by
  have proper := sender.proper choice wire.process.state request completion
  by_cases complete : ∀ packet, platform.action request = .write packet → completion.ec = none
  · rcases tidy.balanced with owes | ⟨dead, whole⟩
    · exact .inl ((owes.take tidy.counted taken complete).run (tidy.counted.take taken).aligned)
    · right
      rcases Pending.requests_take taken with ⟨located, -⟩
      have traffic := dead.traffic request (List.mem_of_getElem? located)
      constructor
      · exact (dead.take taken).run proper
          (sequential.traffic_next choice _ request completion traffic)
      · rw [List.flatten_append]
        exact whole.trans (List.prefix_append _ _)
  · push Not at complete
    rcases complete with ⟨packet, writes, failed⟩
    rcases sender.failed choice wire.process.state request packet completion writes failed with
      ⟨more, calls, nothing⟩
    rw [calls] at proper ⊢
    right
    constructor
    · apply Dead.run (dead_closeSocket _ sender.onSocket) proper.tail
      · simp [nothing]
      · exact tidy.orderly.rest taken
    · simpa [nothing, packetsOf] using tidy.balanced.prefix_packets

theorem tidy_stimulus (sequential : platform.Sequential) (sender : platform.Sender prompts)
    (tidy : platform.Tidy wire) {stimulus : Stimulus ν}
    (unhurried : platform.Unhurried prompts wire (.stimulus stimulus))
    (stepped : platform.outgoing.step wire (.stimulus stimulus) = some next) :
    platform.Tidy next := by
  simp only [outgoing] at stepped
  split at stepped
  next permitted =>
    rw [Option.map_eq_some_iff] at stepped
    rcases stepped with ⟨process, closing, rfl⟩
    rcases closable_cases closing with ⟨rfl, rfl⟩ | ⟨event, rfl, transition⟩
    · have closes : platform.io (platform.closed wire.process).state =
          (platform.io wire.process.state).run [.closeSocket, .cancelTimer] := by
        rw [closed, platform.close_eq, platform.io_setIo]
      have proper : platform.Proper [.closeSocket, .cancelTimer] := ⟨by simp, by simp⟩
      rw [issued_close]
      refine ⟨tidy.orderly.closed, ?_, ?_⟩
      · rw [closes]
        exact tidy.counted.run proper (by simpa using tidy.counted.single)
      · rw [closes]
        rcases tidy.balanced with owes | ⟨dead, whole⟩
        · exact .inl (owes.run tidy.counted.aligned)
        · exact .inr ⟨dead.run proper (by simp), by simpa [packetsOf] using whole⟩
    · cases transition with
      | @finished choice index completion pending result =>
          have same := Pending.requests_finish result
          refine ⟨?_, ?_, ?_⟩
          · simpa only [Orderly, platform.io_setIo, same] using tidy.orderly
          · simp only [issued, startedBy, List.map_nil, List.append_nil, platform.io_setIo]
            apply tidy.counted.finish result
            intro request packet located writes success
            simpa [permits, located, writes, success] using permitted
          · simp only [issued, startedBy, List.map_nil, List.append_nil, platform.io_setIo,
              packetsOf, List.filterMap_nil]
            exact tidy.balanced.finish result
      | @handled choice index request completion rest taken =>
          refine ⟨sequential.orderly_handled tidy.orderly taken, ?_, ?_⟩
          · dsimp only [issued]
            rw [platform.io_setIo, startedBy_of_handled taken]
            exact (tidy.counted.take taken).run (sender.proper ..)
              (sender.single_handled tidy taken (unhurried choice index _ _ _ rfl taken))
          · dsimp only [issued]
            rw [platform.io_setIo, startedBy_of_handled taken]
            exact sender.balanced_handled sequential tidy taken
  next => cases stepped

/-! ## Exactly the unhurried runs -/

/-- A prefix of a concatenation of packets is whole packets and a prefix of the next one. -/
theorem whole_of_prefix {packets : List Bytes} {sent : Bytes} (before : sent <+: packets.flatten) :
    ∃ count part, sent = (packets.take count).flatten ++ part ∧
      part <+: packets.getD count [] := by
  induction packets generalizing sent with
  | nil => exact ⟨0, [], by simpa using before, List.nil_prefix⟩
  | cons packet packets ih =>
      rw [List.flatten_cons] at before
      rcases List.prefix_or_prefix_of_prefix before (List.prefix_append packet _) with
        inside | ⟨tail, rfl⟩
      · exact ⟨0, sent, rfl, inside⟩
      · rcases ih ((List.prefix_append_right_inj packet).mp before) with ⟨count, part, rfl, next⟩
        exact ⟨count + 1, part, by simp, by simpa using next⟩

theorem Undivided.prefix_packets (undivided : platform.Undivided wire) :
    wire.sent <+: wire.packets.flatten := by
  rcases undivided.whole with ⟨count, part, sent, inside⟩
  rw [sent]
  conv_rhs => rw [← List.take_append_drop count wire.packets, List.flatten_append]
  apply (List.prefix_append_right_inj _).mpr
  rw [List.getD_eq_getElem?_getD, ← List.head?_drop] at inside
  cases later : wire.packets.drop count with
  | nil => simpa [later] using inside
  | cons packet packets =>
      simp only [later, List.head?_cons, Option.getD_some] at inside
      exact inside.trans (List.prefix_append packet _)

theorem Tidy.undivided (tidy : platform.Tidy wire) : platform.Undivided wire :=
  ⟨tidy.counted.single, whole_of_prefix tidy.balanced.prefix_packets⟩

/-- A handler of a prompting completion leaves two writes unfinished if there was one. -/
theorem Sender.unhurried_of_undivided (sender : platform.Sender prompts)
    (stepped : platform.outgoing.step wire event = some next)
    (undivided : platform.Undivided next) : platform.Unhurried prompts wire event := by
  intro choice index request completion rest run taken prompting
  subst run
  simp only [outgoing, permits, if_true] at stepped
  rw [Option.map_eq_some_iff] at stepped
  rcases stepped with ⟨process, closing, rfl⟩
  rcases closable_cases closing with ⟨impossible, -⟩ | ⟨event, same, transition⟩
  · cases impossible
  cases same
  cases transition with
  | @handled choice index request' completion' rest' taken' =>
      cases taken.symm.trans taken'
      have single := undivided.single
      rcases sender.prompted choice wire.process.state request completion prompting with
        ⟨silent, writes⟩
      rw [requests_handled, packetsOf_append, List.length_append] at single
      have positive := List.length_pos_iff.mpr writes
      have none : platform.packetsOf rest.requests = [] := by
        rw [← List.length_eq_zero_iff]
        omega
      rcases Pending.take_split taken with ⟨before, after, split, rfl⟩
      simp only [Pending.requests, List.map_append, packetsOf_append, List.append_eq_nil_iff]
        at none
      rw [split]
      simp only [Pending.requests, List.map_append, List.map_cons, packetsOf_append,
        packetsOf_cons, silent, none.1, none.2]
      rfl

/-- Packets are sent one after the other exactly along the unhurried runs. -/
theorem Sender.undivided_iff (sender : platform.Sender prompts)
    (sequential : platform.Sequential) (events : List (WireEvent ν)) :
    platform.outgoing.Along (fun _ _ next => platform.Undivided next) platform.outgoing.init
        events ↔
      platform.outgoing.Along (fun before event _ => platform.Unhurried prompts before event)
        platform.outgoing.init events := by
  constructor
  · apply Machine.Along.of_invariant (fun _ => True) _ trivial
    exact fun _ stepped undivided => ⟨trivial, sender.unhurried_of_undivided stepped undivided⟩
  · apply Machine.Along.of_invariant platform.Tidy _ (sender.tidy_init sequential)
    intro before after event tidy stepped unhurried
    have tidy' : platform.Tidy after := by
      cases event with
      | transfer index count => exact tidy_transfer tidy stepped
      | stimulus stimulus => exact tidy_stimulus sequential sender tidy unhurried stepped
    exact ⟨tidy', tidy'.undivided⟩

end TcpPlatform

end DMProxy.Platforms
