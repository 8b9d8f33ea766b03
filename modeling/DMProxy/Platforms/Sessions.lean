import DMProxy.Platforms.Packets

/-!
# The packets of a run

Until the connection is set up one operation at a time is pending, and it tells what was written
before.  From then on the session goes on: a login packet and the packets behind it.
-/

namespace DMProxy.Platforms

open DMProxy.Async
open DMProxy.Network
open DMProxy.Text
open DMProxy.Transition

namespace TcpPlatform

variable {σ ω ν : Type} [IoRequest ω] {platform : TcpPlatform σ ω ν}
  {prompts : ω → Completion → Prop} {before : σ → ω → List Bytes → Prop}
  {session : List Bytes → Prop}

/-- What is written while an operation of the connection sequence is pending, and afterwards. -/
structure Script (platform : TcpPlatform σ ω ν) (before : σ → ω → List Bytes → Prop)
    (session : List Bytes → Prop) : Prop where
  started : ∀ request ∈ (platform.io platform.started).pending.requests,
    before platform.started request []
  setIo : ∀ objects state request packets, before state request packets →
    before (platform.setIo objects state) request packets
  setup_next : ∀ choice state request completion packets, platform.setup request = true →
    before state request packets →
    ∀ later ∈ requestsOf (platform.react choice state request completion).calls,
      (platform.setup later = true → before (platform.react choice state request completion).state
        later (packets ++ platform.packetsOf
          (requestsOf (platform.react choice state request completion).calls))) ∧
      (platform.setup later = false → session (packets ++ platform.packetsOf
        (requestsOf (platform.react choice state request completion).calls)))
  traffic_next : ∀ choice state request completion packets, platform.setup request = false →
    session packets → session (packets ++ platform.packetsOf
      (requestsOf (platform.react choice state request completion).calls))

/-- Where an instance is in its script. -/
inductive Staged (platform : TcpPlatform σ ω ν) (before : σ → ω → List Bytes → Prop)
    (session : List Bytes → Prop) (state : σ) (packets : List Bytes) : Prop where
  | setting {request : ω} (only : (platform.io state).pending.requests = [request])
      (setup : platform.setup request = true) (written : before state request packets)
  | failed (nothing : (platform.io state).pending.requests = [])
      (written : ∃ earlier request, before earlier request packets)
  | running (traffic : ∀ request ∈ (platform.io state).pending.requests,
      platform.setup request = false) (written : session packets)

variable {state : σ} {packets : List Bytes} {wire next : Wire σ} {event : WireEvent ν}

theorem Staged.setIo (script : platform.Script before session)
    (staged : platform.Staged before session state packets) {objects : Io ω}
    (same : objects.pending.requests = (platform.io state).pending.requests) :
    platform.Staged before session (platform.setIo objects state) packets := by
  rw [← platform.io_setIo objects state] at same
  cases staged with
  | setting only setup written =>
      exact .setting (same.trans only) setup (script.setIo _ _ _ _ written)
  | failed nothing written => exact .failed (same.trans nothing) written
  | running traffic written => exact .running (by rwa [same]) written

theorem Staged.handled (script : platform.Script before session)
    (sequential : platform.Sequential) (staged : platform.Staged before session state packets)
    {choice : ν} {index : Nat} {request : ω} {completion : Completion}
    {rest : Pending ω Completion}
    (taken : (platform.io state).pending.take index = some (request, completion, rest)) :
    platform.Staged before session
      (platform.setIo (Io.run { platform.io state with pending := rest }
        (platform.react choice state request completion).calls)
        (platform.react choice state request completion).state)
      (packets ++ platform.packetsOf
        (requestsOf (platform.react choice state request completion).calls)) := by
  have left : (platform.io (platform.setIo (Io.run { platform.io state with pending := rest }
      (platform.react choice state request completion).calls)
      (platform.react choice state request completion).state)).pending.requests =
        rest.requests ++ requestsOf (platform.react choice state request completion).calls :=
    requests_handled ..
  rcases Pending.requests_take taken with ⟨located, -⟩
  cases staged with
  | @setting pending only setup written =>
      have orderly : platform.Orderly state := .inl ⟨pending, only, setup⟩
      have same : request = pending := by
        have listed := List.mem_of_getElem? located
        rw [only] at listed
        exact List.mem_singleton.mp listed
      subst same
      rw [orderly.rest_of_setup taken setup] at left ⊢
      have following := script.setup_next choice state request completion packets setup written
      rcases sequential.setup_next choice state request completion setup with
        ⟨later, single, sets⟩ | traffic
      · refine .setting (left.trans single) sets (script.setIo _ _ _ _ ?_)
        exact (following later (by rw [single]; exact List.mem_singleton_self _)).1 sets
      · cases requested : requestsOf (platform.react choice state request completion).calls with
        | nil =>
            refine .failed (left.trans requested) ⟨state, request, ?_⟩
            simpa [packetsOf] using written
        | cons later others =>
            rw [← requested]
            refine .running (fun other member => traffic other ?_) ?_
            · rwa [left] at member
            · have listed : later ∈ requestsOf
                  (platform.react choice state request completion).calls := by simp [requested]
              exact (following later listed).2 (traffic later listed)
  | failed nothing => simp [nothing] at located
  | running traffic written =>
      have setup := traffic request (List.mem_of_getElem? located)
      refine .running (fun other member => ?_)
        (script.traffic_next choice state request completion packets setup written)
      rw [left] at member
      rcases List.mem_append.mp member with older | started
      · exact Orderly.rest_of_traffic (.inr traffic) taken setup other older
      · exact sequential.traffic_next choice state request completion setup other started

theorem staged_init (script : platform.Script before session) (sequential : platform.Sequential)
    (sender : platform.Sender prompts) :
    platform.Staged before session platform.outgoing.init.process.state
      platform.outgoing.init.packets := by
  rcases sequential.started with ⟨request, only, setup⟩
  have silent : platform.outgoing.init.packets = [] := sender.started
  rw [silent]
  exact .setting only setup (script.started request (by simp [only]))

theorem Staged.step (script : platform.Script before session) (sequential : platform.Sequential)
    (staged : platform.Staged before session wire.process.state wire.packets)
    (stepped : platform.outgoing.step wire event = some next) :
    platform.Staged before session next.process.state next.packets := by
  cases event with
  | transfer index count =>
      simp only [outgoing] at stepped
      split at stepped
      next =>
        split at stepped
        next => cases stepped
        next =>
          split at stepped
          next =>
            cases stepped
            exact staged
          next => cases stepped
      next => cases stepped
  | stimulus stimulus =>
      simp only [outgoing] at stepped
      split at stepped
      next =>
        rw [Option.map_eq_some_iff] at stepped
        rcases stepped with ⟨process, closing, rfl⟩
        rcases closable_cases closing with ⟨rfl, rfl⟩ | ⟨event, rfl, transition⟩
        · have same : (platform.io (platform.close wire.process.state)).pending.requests =
              (platform.io wire.process.state).pending.requests := requests_close ..
          rw [issued_close]
          simp only [closed, platform.close_eq, packetsOf, List.filterMap_nil, List.append_nil]
            at same ⊢
          exact staged.setIo script (by rwa [platform.io_setIo] at same)
        · cases transition with
          | finished result =>
              simp only [issued, startedBy, packetsOf, List.filterMap_nil, List.append_nil]
              exact staged.setIo script (Pending.requests_finish result)
          | handled taken =>
              simp only [issued, startedBy_of_handled taken]
              exact staged.handled script sequential taken
      next => cases stepped

/-- An instance is in its script at every point of every run. -/
theorem staged_of_reachable (script : platform.Script before session)
    (sequential : platform.Sequential) (sender : platform.Sender prompts)
    (reachable : platform.outgoing.Reachable wire) :
    platform.Staged before session wire.process.state wire.packets := by
  induction reachable with
  | init => exact staged_init script sequential sender
  | step _ _ stepped staged => exact staged.step script sequential stepped

end TcpPlatform

namespace Douyu

/-- What an instance sends. -/
inductive Packet where
  | login (roomid : Bytes)
  | joingroup (roomid : Bytes)
  | heartbeat
  deriving DecidableEq, Repr

/-- The pairs that `make_stt` is called with. -/
def Packet.pairs : Packet → List (Bytes × Bytes)
  | .login roomid => [(ascii "type", ascii "loginreq"), (ascii "roomid", roomid)]
  | .joingroup roomid =>
      [(ascii "type", ascii "joingroup"), (ascii "rid", roomid), (ascii "gid", ascii "-9999")]
  | .heartbeat => [(ascii "type", ascii "mrkl")]

/-- A login packet, and then packets that join the room and heartbeats. -/
def IsSession (roomid : Bytes) (requests : List Packet) : Prop :=
  ∃ later, requests = .login roomid :: later ∧
    ∀ packet ∈ later, packet = .joingroup roomid ∨ packet = .heartbeat

/-- The packets of a session. -/
def Written (roomid : Bytes) (packets : List Bytes) : Prop :=
  ∃ requests, packets = requests.map (fun packet => makeStt packet.pairs) ∧
    IsSession roomid requests

theorem script (roomid : Bytes) :
    (tcp roomid).Script (fun _ _ packets => packets = []) (Written roomid) where
  started _ _ := rfl
  setIo _ _ _ _ written := written
  setup_next choice state request completion packets setup written later started := by
    subst written
    rw [packetsOf_react]
    rcases completion with ⟨ec, data⟩
    cases request with
    | resolve =>
        cases ec with
        | some error => simp [tcp, react, onError] at started
        | none =>
            simp only [tcp, react, onSuccess, requestsOf_cons, Call.request, Option.toList_some,
              requestsOf_nil, List.append_nil, List.mem_singleton] at started
            subst started
            exact ⟨fun _ => rfl, fun traffic => by cases traffic⟩
    | connect =>
        cases ec with
        | some error => simp [tcp, react, onError] at started
        | none =>
            refine ⟨fun sets => ?_, fun _ => ⟨[.login roomid], rfl, [], rfl, by simp⟩⟩
            simp only [tcp, react, onSuccess, requestsOf_cons, Call.request, Option.toList_some,
              requestsOf_nil, List.append_nil, List.cons_append, List.nil_append, List.mem_cons,
              List.not_mem_nil, or_false] at started
            rcases started with rfl | rfl <;> cases sets
    | write | readHeader | readData | heartbeatWait => cases setup
  traffic_next choice state request completion packets traffic written := by
    rw [packetsOf_react]
    have more : ∃ more : List Packet,
        Douyu.packets roomid request completion = more.map (fun packet => makeStt packet.pairs) ∧
          ∀ packet ∈ more, packet = .joingroup roomid ∨ packet = .heartbeat := by
      rcases completion with ⟨ec, data⟩
      cases ec with
      | some error => exact ⟨[], rfl, by simp⟩
      | none =>
          cases request with
          | resolve | connect => cases traffic
          | write | readHeader => exact ⟨[], rfl, by simp⟩
          | heartbeatWait => exact ⟨[.heartbeat], rfl, by simp⟩
          | readData =>
              simp only [Douyu.packets]
              split
              next => exact ⟨[.joingroup roomid], rfl, by simp⟩
              next => exact ⟨[], rfl, by simp⟩
    rcases more with ⟨more, written', others⟩
    rcases written with ⟨requests, rfl, later, rfl, behind⟩
    refine ⟨.login roomid :: (later ++ more), by simp [written'], later ++ more, rfl, ?_⟩
    intro packet member
    exact (List.mem_append.mp member).elim (behind packet) (others packet)

end Douyu

namespace Bilibili

/-- What an instance sends to the chat server. -/
inductive Packet where
  | login (roomid : Bytes) (uid : Nat)
  | heartbeat
  deriving DecidableEq, Repr

/-- The bytes of a packet. -/
def Packet.bytes : Packet → Bytes
  | .login roomid uid => newRequestPacket roomid uid
  | .heartbeat => newHeartbeatPacket

/-- A login packet, and then heartbeats. -/
def IsSession (roomid : Bytes) (requests : List Packet) : Prop :=
  ∃ uid count, requests = .login roomid uid :: List.replicate count .heartbeat

/-- The packets of a session behind the HTTP request. -/
def Written (roomid : Bytes) (packets : List Bytes) : Prop :=
  ∃ requests, packets = httpRequest roomid :: requests.map Packet.bytes ∧
    IsSession roomid requests

/-- The HTTP request is written once its host is connected. -/
def Before (roomid : Bytes) (state : State) : Request → List Bytes → Prop
  | .httpResolve, packets | .httpConnect, packets =>
      packets = [] ∧ state.request = httpRequest roomid
  | _, packets => packets = [httpRequest roomid]

theorem script (libraries : Libraries) (roomid : Bytes) :
    (tcp libraries roomid).Script (Before roomid) (Written roomid) where
  started request pending := by
    have only : request = .httpResolve := List.mem_singleton.mp pending
    subst only
    exact ⟨rfl, rfl⟩
  setIo objects state request packets written := by
    cases request <;> exact written
  setup_next uid state request completion packets setup before later started := by
    rw [packetsOf_react]
    rcases completion with ⟨ec, data⟩
    cases ec with
    | some error =>
        rcases react_error libraries roomid uid state request error data with
          ⟨calls, -⟩ | ⟨rfl, -, ended⟩
        · have none : requestsOf ((tcp libraries roomid).react uid state request
              ⟨some error, data⟩).calls = [] := by
            simp only [tcp, calls, requestsOf_onError_of_setup setup]
          simp [none] at started
        · simp only [tcp, ended] at started
          rcases onEof_cases libraries (receive .httpReadContent data state) with
            ⟨nothing, -⟩ | ⟨resolves, -⟩
          · simp [nothing] at started
          · rw [resolves, List.mem_singleton] at started
            subst started
            exact ⟨fun _ => by simpa [Before, Bilibili.packets] using before,
              fun traffic => by cases traffic⟩
    | none =>
        cases request with
        | httpResolve =>
            have only := List.mem_singleton.mp started
            subst only
            rcases before with ⟨rfl, requested⟩
            exact ⟨fun _ => ⟨rfl, requested⟩, fun traffic => by cases traffic⟩
        | httpReadHeader | httpReadContent | tcpResolve =>
            have only := List.mem_singleton.mp started
            subst only
            exact ⟨fun _ => by simpa [Before, Bilibili.packets] using before,
              fun traffic => by cases traffic⟩
        | httpConnect =>
            have only := List.mem_singleton.mp started
            subst only
            rcases before with ⟨rfl, requested⟩
            exact ⟨fun _ => congrArg (fun text => [text]) requested,
              fun traffic => by cases traffic⟩
        | httpWrite =>
            have only := List.mem_singleton.mp ((requestsOf_untilCall _ _ _) ▸ started)
            subst only
            exact ⟨fun _ => by simpa [Before, Bilibili.packets] using before,
              fun traffic => by cases traffic⟩
        | httpReadStatusLine =>
            simp only [tcp, react, reactFrom, onSuccess] at started
            rcases onStatusLine_cases (receive .httpReadStatusLine data state) with
              ⟨nothing, -⟩ | ⟨reads, -⟩
            · simp [nothing] at started
            · rw [reads, List.mem_singleton] at started
              subst started
              exact ⟨fun _ => by simpa [Before, Bilibili.packets] using before,
                fun traffic => by cases traffic⟩
        | tcpConnect =>
            have written : packets = [httpRequest roomid] := before
            subst written
            refine ⟨fun sets => ?_, fun _ => ⟨[.login roomid uid], rfl, uid, 0, rfl⟩⟩
            simp only [tcp, react, reactFrom, onSuccess, requestsOf_cons, Call.request,
              Option.toList_some, requestsOf_nil, List.append_nil, List.cons_append,
              List.nil_append, List.mem_cons, List.not_mem_nil, or_false] at started
            rcases started with rfl | rfl | rfl <;> cases sets
        | write | readHeader | readData | skip | heartbeatWait => cases setup
  traffic_next uid state request completion packets traffic written := by
    rw [packetsOf_react]
    rcases written with ⟨requests, rfl, first, count, rfl⟩
    rcases completion with ⟨ec, data⟩
    have same : Written roomid (httpRequest roomid ::
        (Packet.login roomid first :: List.replicate count .heartbeat).map Packet.bytes ++ []) :=
      ⟨_, List.append_nil _, first, count, rfl⟩
    cases ec with
    | some error => exact same
    | none =>
        cases request with
        | heartbeatWait =>
            refine ⟨.login roomid first :: List.replicate (count + 1) .heartbeat, ?_,
              first, count + 1, rfl⟩
            simp [Bilibili.packets, Packet.bytes, List.replicate_succ']
        | write | readHeader | readData | skip => exact same
        | _ => cases traffic

end Bilibili

end DMProxy.Platforms
