import DMProxy.Registry.SingleFeed
import DMProxy.Transition.Output

/-!
# Where the texts come from that a client receives

A text is addressed to a connection when an instance it listens to publishes it, or when it
answers a message of that connection.  What a connection was sent is a part of what was addressed
to it, in the same order, and it listens only to rooms it asked for.
-/

namespace DMProxy.Registry

open DMProxy.Collections
open DMProxy.Network
open DMProxy.Platforms
open DMProxy.Text
open DMProxy.Transition

/-- The texts that a connection was sent, oldest first. -/
def received (server : Server) (hdl : ConnectionHdl) : List Bytes :=
  match server hdl with
  | none => []
  | some con => con.sent

/-- Every connection was sent a part of what is addressed to it, in the same order. -/
def Delivers (addressed : ConnectionHdl → List Bytes) (before after : Server) : Prop :=
  ∀ hdl, ∃ new, received after hdl = received before hdl ++ new ∧ new.Sublist (addressed hdl)

namespace Delivers

variable {first second third : Server} {addressed others : ConnectionHdl → List Bytes}

theorem of_same (same : ∀ hdl, received second hdl = received first hdl) :
    Delivers addressed first second :=
  fun hdl => ⟨[], by rw [same, List.append_nil], List.nil_sublist _⟩

theorem refl (server : Server) : Delivers addressed server server :=
  of_same fun _ => rfl

theorem trans (one : Delivers addressed first second) (two : Delivers others second third) :
    Delivers (fun hdl => addressed hdl ++ others hdl) first third := by
  intro hdl
  rcases one hdl with ⟨new, grown, part⟩
  rcases two hdl with ⟨more, grown', part'⟩
  exact ⟨new ++ more, by rw [grown', grown, List.append_assoc], part.append part'⟩

/-- More may be addressed than is sent. -/
theorem weaken (delivers : Delivers addressed first second)
    (included : ∀ hdl, (addressed hdl).Sublist (others hdl)) : Delivers others first second := by
  intro hdl
  rcases delivers hdl with ⟨new, grown, part⟩
  exact ⟨new, grown, part.trans (included hdl)⟩

end Delivers

/-! ## Sending and publishing -/

theorem received_put {server : Server} {hdl : ConnectionHdl} {con con' : ServerConnection}
    (found : server hdl = some con) (same : con'.sent = con.sent) (other : ConnectionHdl) :
    received (server.put hdl con') other = received server other := by
  by_cases equal : other = hdl
  · subst equal
    simp [received, found, same]
  · simp [received, equal]

theorem received_close (server : Server) (hdl : ConnectionHdl) (reason : Bytes)
    (ec : Option ErrorCode) (other : ConnectionHdl) :
    received (server.close hdl reason ec).1 other = received server other := by
  simp only [Server.close]
  cases found : server.getConFromHdl hdl with
  | none => rfl
  | some con =>
      dsimp only
      split
      · rfl
      · split
        · rfl
        · exact received_put (Server.eq_some_of_getConFromHdl found) (by rfl) other

theorem received_closeAndReportWhenError (server : Server) (ec : Option ErrorCode)
    (hdl other : ConnectionHdl) :
    received (server.closeAndReportWhenError ec hdl) other = received server other := by
  cases ec with
  | none => rfl
  | some error => exact received_close server hdl error.closedBecause none other

theorem delivers_send (outcome : SendOutcome) (server : Server) (hdl : ConnectionHdl)
    (payload : Bytes) (ec : Option ErrorCode) :
    Delivers (fun other => if other = hdl then [payload] else []) server
      (server.send outcome hdl payload ec).1 := by
  simp only [Server.send]
  cases found : server.getConFromHdl hdl with
  | none => exact .refl server
  | some con =>
      dsimp only
      split
      · exact .refl server
      · split
        · exact .refl server
        · cases outcome hdl payload with
          | some error => exact .refl server
          | none =>
              intro other
              by_cases equal : other = hdl
              · subst equal
                refine ⟨[payload], ?_, by simp⟩
                simp [received, Server.eq_some_of_getConFromHdl found]
              · exact ⟨[], by simp [received, equal], List.nil_sublist _⟩

/-- The loop of `publish` sends the text at most once to each listener. -/
theorem delivers_publishLoop (outcome : SendOutcome) (dmMsg : Bytes)
    {listeners : List ConnectionHdl} (nodup : listeners.Nodup) (server : Server)
    (ec : Option ErrorCode) :
    Delivers (fun hdl => if hdl ∈ listeners then [dmMsg] else []) server
      (publishLoop outcome dmMsg listeners server ec).1 := by
  induction listeners generalizing server ec with
  | nil => exact .refl server
  | cons listener rest ih =>
      rcases List.nodup_cons.mp nodup with ⟨fresh, restNodup⟩
      have sent := delivers_send outcome server listener dmMsg ec
      have reported : Delivers (fun _ => []) (server.send outcome listener dmMsg ec).1 _ :=
        .of_same (received_closeAndReportWhenError _ (server.send outcome listener dmMsg ec).2
          listener)
      have later := ih restNodup
        ((server.send outcome listener dmMsg ec).1.closeAndReportWhenError
          (server.send outcome listener dmMsg ec).2 listener)
        (server.send outcome listener dmMsg ec).2
      refine ((sent.trans reported).trans later).weaken fun hdl => ?_
      by_cases here : hdl = listener
      · subst here
        simp [fresh]
      · simp [here]

theorem delivers_publish (outcome : SendOutcome) (server : Server) (listeners : Listeners)
    (dmMsg : Bytes) :
    Delivers (fun hdl => if hdl ∈ listeners then [dmMsg] else []) server
      (publish outcome server listeners dmMsg).1 :=
  delivers_publishLoop outcome dmMsg listeners.nodup server none

/-- The texts among the effects of a handler. -/
def publishedTexts (effects : List Effect) : List Bytes :=
  effects.filterMap fun effect =>
    match effect with
    | .publish dmMsg => some dmMsg
    | .closeCallback | .fault => none

theorem mem_publishedTexts {effects : List Effect} {dmMsg : Bytes} :
    dmMsg ∈ publishedTexts effects ↔ .publish dmMsg ∈ effects := by
  simp only [publishedTexts, List.mem_filterMap]
  constructor
  · intro found
    rcases found with ⟨effect, member, same⟩
    cases effect <;> simp_all
  · intro member
    exact ⟨_, member, rfl⟩

/-- A report that comes back publishes nothing by itself. -/
theorem publishedTexts_closeCallback {locked : Bool} (unlocked : locked = false)
    (rest : List Effect) :
    publishedTexts (carriedOut locked (.closeCallback :: rest)) =
      publishedTexts (carriedOut locked rest) := by
  subst unlocked
  rfl

namespace State

variable {libraries : Libraries} {state next : State} {event : Event} {i : InstanceId}
  {inst : Instance}

/-- The texts are addressed to the listeners of an instance. -/
def toListeners (inst : Instance) (texts : List Bytes) (hdl : ConnectionHdl) : List Bytes :=
  if hdl ∈ inst.listeners then texts else []

/-- The close callback sends nothing, and changes no listeners. -/
theorem fireCloseCallback_kept (locked : Bool) (found : state.instances i = some inst) :
    (state.fireCloseCallback locked i).server = state.server ∧
      ∃ inst', (state.fireCloseCallback locked i).instances i = some inst' ∧
        inst'.listeners = inst.listeners := by
  simp only [fireCloseCallback, found]
  split
  · cases locked with
    | true =>
        refine ⟨rfl, { inst with reports := inst.reports + 1 }, ?_, rfl⟩
        simp [modify, found]
    | false =>
        refine ⟨rfl, { inst with reports := inst.reports + 1 }, ?_, rfl⟩
        simp [modify, found, onPlatformClose, eraseRoom]
  · exact ⟨rfl, inst, found, rfl⟩

/-- The close callback comes back only with the registry lock. -/
theorem unlocked_of_fired {locked : Bool} (found : state.instances i = some inst)
    (running : ¬(state.fireCloseCallback locked i).halted = true) : locked = false := by
  rw [← Bool.not_eq_true]
  intro lost
  subst lost
  simp only [fireCloseCallback, found] at running
  split at running
  · exact running rfl
  · exact running (by simp [halted])

/-- What a handler of an instance publishes is sent to its listeners only. -/
theorem delivers_runEffects (send : SendOutcome) (locked : Bool) (effects : List Effect)
    (found : state.instances i = some inst) :
    Delivers (toListeners inst (publishedTexts (carriedOut locked effects))) state.server
      (state.runEffects send locked i effects).server := by
  induction effects generalizing state inst with
  | nil => exact .refl _
  | cons effect rest ih =>
      cases effect with
      | publish dmMsg =>
          rw [runEffects, publish_of_found found]
          have sent := delivers_publish send state.server inst.listeners dmMsg
          have later := @ih { state with
              server := (Platforms.publish send state.server inst.listeners dmMsg).1
              instances := Function.update state.instances i (some { inst with
                listeners := (Platforms.publish send state.server inst.listeners dmMsg).2 }) }
            { inst with
              listeners := (Platforms.publish send state.server inst.listeners dmMsg).2 }
            (by simp)
          refine (sent.trans later).weaken fun hdl => ?_
          simp only [toListeners]
          by_cases listens : hdl ∈ inst.listeners
          · rw [if_pos listens, if_pos listens]
            split
            · exact .refl _
            · exact List.Sublist.cons_cons _ (List.nil_sublist _)
          · have left : hdl ∉ (Platforms.publish send state.server inst.listeners dmMsg).2 :=
              fun member => listens (mem_of_mem_publish member)
            rw [if_neg listens, if_neg left, if_neg listens]
            exact .refl _
      | closeCallback =>
          rcases fireCloseCallback_kept locked found with ⟨same, inst', found', listeners⟩
          simp only [runEffects]
          split
          next =>
            rw [same]
            exact .refl _
          next running =>
            have unlocked : locked = false := unlocked_of_fired found running
            have later := ih found'
            rw [same] at later
            rw [publishedTexts_closeCallback unlocked]
            exact later.weaken fun hdl => by rw [toListeners, toListeners, listeners]
      | fault => exact .refl _

/-! ## The operations of the registry -/

theorem delivers_reject (environment : Environment) (hdl : ConnectionHdl) (text : Bytes)
    (state : State) :
    Delivers (fun other => if other = hdl then [text] else []) state.server
      (state.reject environment hdl text).server := by
  have sent := delivers_send environment.send state.server hdl text none
  have reported : Delivers (fun _ => []) (state.server.send environment.send hdl text none).1 _ :=
    .of_same (received_closeAndReportWhenError _
      (state.server.send environment.send hdl text none).2 hdl)
  exact (sent.trans reported).weaken fun other => by rw [List.append_nil]

theorem received_modifyHandlers (hdl : ConnectionHdl) (change : Handlers → Handlers)
    (state : State) (other : ConnectionHdl) :
    received (state.modifyHandlers hdl change).server other = received state.server other := by
  by_cases equal : other = hdl
  · subst equal
    cases found : state.server other <;> simp [received, modifyHandlers, found]
  · simp [received, modifyHandlers, equal]

/-- An error that `start` of a new instance reports is published to the connection it was created
for. -/
theorem delivers_install_allocate (environment : Environment) (hdl : ConnectionHdl)
    (roomstr roomid : Bytes) (upstream : Upstream) (state : State) :
    Delivers
      (fun other => if other = hdl then
        publishedTexts (upstream.start roomid environment.getConnection).2 else [])
      state.server
      ((state.allocate upstream roomid).install environment hdl roomstr
        state.nextInstance).server := by
  -- whatever else was changed, one connection listens and no text was sent yet
  have published {created : State} {inst : Instance}
      (found : created.instances state.nextInstance = some inst)
      (only : ∀ other ∈ inst.listeners, other = hdl)
      (same : ∀ other, received created.server other = received state.server other)
      (effects : List Effect) :
      Delivers (fun other => if other = hdl then publishedTexts effects else []) state.server
        (created.runEffects environment.send true state.nextInstance effects).server := by
    have unsent : Delivers (fun _ => []) state.server created.server := .of_same same
    have sent := delivers_runEffects environment.send true effects found
    refine (unsent.trans sent).weaken fun other => ?_
    rw [List.nil_append, toListeners]
    split
    next member =>
      rw [if_pos (only other member)]
      exact (carriedOut_sublist true effects).filterMap _
    next => exact List.nil_sublist _
  have same := received_modifyHandlers hdl (fun handlers => { handlers with close := some roomstr })
    state
  simp only [install, setCloseHandler, modifyHandlers, allocate, addListener, setCloseCallback,
    modify, Function.update_self, Option.map_some, Function.update_idem, startInstance,
    Instance.make]
  apply published
  · exact Function.update_self ..
  · simp
  · exact same

/-- The texts with which the message handler can answer a request. -/
def answers (environment : Environment) (opcode : Opcode) (payload : Bytes) : List Bytes :=
  if opcode ≠ .text then []
  else
    match parseRoomstr (trim payload) with
    | none => [ascii "format error!"]
    | some (tag, roomid) =>
        match platformGetInstance tag with
        | none => [ascii "platform " ++ tag ++ ascii " is not valid!"]
        | some upstream =>
            if upstream.isRoomValid roomid then
              publishedTexts (upstream.start roomid environment.getConnection).2
            else [ascii "roomid invalid!"]

/-- A connection that is subscribed nowhere gets its answers, and no other connection gets
anything. -/
theorem delivers_enterRoom (environment : Environment) {hdl : ConnectionHdl}
    {payload tag roomid : Bytes} (parsed : parseRoomstr (trim payload) = some (tag, roomid))
    (absent : ¬state.Subscribed (trim payload) hdl) :
    Delivers (fun other => if other = hdl then answers environment .text payload else [])
      state.server (state.enterRoom environment hdl (trim payload) tag roomid).server := by
  have texts : answers environment .text payload =
      match platformGetInstance tag with
      | none => [ascii "platform " ++ tag ++ ascii " is not valid!"]
      | some upstream =>
          if upstream.isRoomValid roomid then
            publishedTexts (upstream.start roomid environment.getConnection).2
          else [ascii "roomid invalid!"] := by
    simp only [answers, parsed, ne_eq, not_true_eq_false, if_false]
  rw [texts]
  simp only [enterRoom]
  cases registered : state.rpMap (trim payload) with
  | some i =>
      have stranger : state.haveListener i hdl = false := by
        rw [← Bool.not_eq_true, haveListener_iff]
        exact fun listening => absent ⟨i, registered, listening⟩
      simp only [stranger, Bool.false_eq_true, if_false]
      exact .refl _
  | none =>
      cases known : platformGetInstance tag with
      | none => exact delivers_reject environment hdl _ state
      | some upstream =>
          dsimp only
          split
          · exact delivers_install_allocate environment hdl (trim payload) roomid upstream state
          · exact delivers_reject environment hdl _ state

/-! ## One step -/

/-- The message handler answers only the connection whose message it handles. -/
theorem delivers_subscribe (wellFormed : state.WellFormed) {hdl : ConnectionHdl}
    {payload tag roomid : Bytes} {con : ServerConnection}
    (connected : state.server hdl = some con) (running : state.halted = false)
    (parsed : parseRoomstr (trim payload) = some (tag, roomid)) (environment : Environment) :
    Delivers (fun other => if other = hdl then answers environment .text payload else [])
      state.server
      (state.subscribe environment con.handlers.message hdl (trim payload) tag roomid).server := by
  simp only [subscribe]
  split
  next => exact .refl _
  next =>
    obtain ⟨left, leaving, moved⟩ := wellFormed.leaveRoom_modifyHandlers running environment
      con.handlers.message hdl fun handlers => { handlers with message := trim payload }
    have silent : Delivers (fun _ => []) state.server
        (left.setMessageHandler hdl (trim payload)).server := by
      apply Delivers.of_same
      intro other
      rw [setMessageHandler, received_modifyHandlers, leaving.server]
    rw [setMessageHandler, moved]
    split
    next => exact silent.weaken fun _ => List.nil_sublist _
    next =>
      have room := messageRoom_of_connected connected
      have entered := @delivers_enterRoom (left.setMessageHandler hdl (trim payload)) environment
        hdl payload tag roomid parsed (wellFormed.unsubscribed room leaving _)
      exact silent.trans entered

theorem delivers_receive (wellFormed : state.WellFormed) {hdl : ConnectionHdl}
    {opcode : Opcode} {payload : Bytes} {environment : Environment}
    (intact : state.crashed = false)
    (stepped : state.receive hdl opcode payload environment = some next) :
    Delivers (fun other => if other = hdl then answers environment opcode payload else [])
      state.server next.server := by
  simp only [receive] at stepped
  cases connected : state.server hdl with
  | none => simp [connected] at stepped
  | some con =>
      simp only [connected] at stepped
      split at stepped
      next => cases stepped
      next =>
        split at stepped
        next => cases stepped
        next free =>
          cases stepped
          simp only [onServerMessage]
          split
          next => exact (Delivers.refl _).weaken fun _ => List.nil_sublist _
          next text =>
            have textual : opcode = .text := not_not.mp text
            subst textual
            cases parsed : parseRoomstr (trim payload) with
            | none =>
                have answer : answers environment .text payload = [ascii "format error!"] := by
                  simp [answers, parsed]
                rw [answer]
                exact delivers_reject environment hdl _ state
            | some parts =>
                have running : state.halted = false := by
                  simpa [needsLock, parsed, halted, intact] using free
                exact delivers_subscribe wellFormed connected running parsed environment

theorem delivers_transport {hdl : ConnectionHdl} {possible : ServerConnection → Bool}
    {change : ServerConnection → ServerConnection} {addressed : ConnectionHdl → List Bytes}
    (stepped : state.transport hdl possible change = some next)
    (same : ∀ con, (change con).sent = con.sent) :
    Delivers addressed state.server next.server := by
  simp only [transport] at stepped
  cases connected : state.server hdl with
  | none => simp [connected] at stepped
  | some con =>
      simp only [connected] at stepped
      split at stepped
      next =>
        cases stepped
        exact .of_same (received_put connected (same con))
      next => cases stepped

theorem delivers_runCloseHandler (wellFormed : state.WellFormed) {hdl : ConnectionHdl}
    {environment : Environment} {addressed : ConnectionHdl → List Bytes}
    (intact : state.crashed = false)
    (stepped : state.runCloseHandler hdl environment = some next) :
    Delivers addressed state.server next.server := by
  apply Delivers.of_same
  intro other
  have transition := @runCloseHandler_transition default _ _ wellFormed _ _ intact stepped
  cases transition with
  | unhandled => exact received_modifyHandlers ..
  | closed _ _ _ _ _ leaving => rw [setCloseRan, received_modifyHandlers, leaving.server]

/-- What an event addresses to a connection. -/
def addressed (libraries : Libraries) (hdl : ConnectionHdl) (state : State) (event : Event) :
    List Bytes :=
  match event with
  | .message sender opcode payload environment =>
      if hdl = sender then answers environment opcode payload else []
  | .upstream i activity _ =>
      match state.instances i with
      | none => []
      | some inst =>
          match inst.upstream.step libraries inst.roomid activity with
          | none => []
          | some (_, effects) =>
              toListeners inst (publishedTexts (carriedOut state.deadlocked effects)) hdl
  | _ => []

/-- A handler of the upstream side publishes to the listeners of its instance. -/
theorem delivers_runUpstream {activity : UpstreamEvent} {send : SendOutcome}
    (stepped : state.runUpstream libraries i activity send = some next) :
    Delivers (fun hdl => state.addressed libraries hdl (.upstream i activity send)) state.server
      next.server := by
  simp only [runUpstream] at stepped
  cases found : state.instances i with
  | none => simp [found] at stepped
  | some inst =>
      simp only [found] at stepped
      split at stepped
      next => cases stepped
      next =>
        cases acted : inst.upstream.step libraries inst.roomid activity with
        | none => simp [acted] at stepped
        | some outcome =>
            simp only [acted, Option.some.injEq] at stepped
            subst stepped
            simp only [addressed, found, acted]
            split
            next =>
              have sent := delivers_runEffects send state.deadlocked outcome.2
                (instances_stall found libraries activity)
              exact sent
            next =>
              have sent := delivers_runEffects send state.deadlocked outcome.2
                (instances_setUpstream found outcome.1)
              exact sent

/-- Every step sends at most what it addresses. -/
theorem delivers_step (wellFormed : state.WellFormed)
    (stepped : state.step libraries event = some next) :
    Delivers (fun hdl => state.addressed libraries hdl event) state.server next.server := by
  simp only [step] at stepped
  split at stepped
  next => cases stepped
  next intact =>
    have intact : state.crashed = false := by simpa using intact
    cases event with
    | accept hdl =>
        simp only [accept] at stepped
        cases absent : state.server hdl with
        | some con => simp [absent] at stepped
        | none =>
            simp only [absent, Option.some.injEq] at stepped
            subst stepped
            apply Delivers.of_same
            intro other
            by_cases equal : other = hdl
            · subst equal
              simp [received, absent, ServerConnection.accepted]
            · simp [received, equal]
    | message hdl opcode payload environment =>
        exact delivers_receive wellFormed intact stepped
    | closing hdl => exact delivers_transport stepped fun _ => rfl
    | terminate hdl => exact delivers_transport stepped fun _ => rfl
    | closeHandler hdl environment => exact delivers_runCloseHandler wellFormed intact stepped
    | expire hdl => exact delivers_transport stepped fun _ => rfl
    | upstream i activity send => exact delivers_runUpstream stepped

/-- What a connection was sent grows by a part of what the step addresses to it. -/
theorem received_grows (hdl : ConnectionHdl) (wellFormed : state.WellFormed)
    (stepped : state.step libraries event = some next) :
    next.WellFormed ∧ ∃ new, received next.server hdl = received state.server hdl ++ new ∧
      new.Sublist (state.addressed libraries hdl event) :=
  ⟨wellFormed.step stepped, delivers_step wellFormed stepped hdl⟩

/-! ## Who listens to what -/

/-- The connection sent a message that asks for the room. -/
def AskedFor (past : List Event) (hdl : ConnectionHdl) (roomstr : Bytes) : Prop :=
  ∃ payload environment, .message hdl .text payload environment ∈ past ∧ trim payload = roomstr

theorem AskedFor.later {past : List Event} {hdl : ConnectionHdl} {roomstr : Bytes}
    (asked : AskedFor past hdl roomstr) (event : Event) :
    AskedFor (past ++ [event]) hdl roomstr := by
  rcases asked with ⟨payload, environment, member, same⟩
  exact ⟨payload, environment, List.mem_append_left _ member, same⟩

/-- Every listener of an instance asked for its room. -/
def Asked (past : List Event) (state : State) : Prop :=
  ∀ i inst hdl, state.instances i = some inst → hdl ∈ inst.listeners →
    AskedFor past hdl inst.roomstr

/-- A listener that is there after a connection entered a room was one before, or is that
connection in the instance of the room. -/
theorem EnterOutcome.roomstr_listener {environment : Environment} {hdl listener : ConnectionHdl}
    {roomstr tag roomid : Bytes} {inst' : Instance} (wellFormed : state.WellFormed)
    (parsed : parseRoomstr roomstr = some (tag, roomid))
    (entering : EnterOutcome environment hdl roomstr tag roomid state next)
    (found' : next.instances i = some inst') (member' : listener ∈ inst'.listeners) :
    (∃ inst, state.instances i = some inst ∧ listener ∈ inst.listeners ∧
      inst'.roomstr = inst.roomstr) ∨ listener = hdl ∧ inst'.roomstr = roomstr := by
  cases entering with
  | joined registered found =>
      rw [addListener, modify_of_found found] at found'
      rcases update_some_eq_some.mp found' with ⟨rfl, rfl⟩ | ⟨-, kept⟩
      · have named := wellFormed.roomstr_eq registered found
        rcases OrderedSet.mem_insert.mp member' with rfl | older
        · exact .inr ⟨rfl, named⟩
        · exact .inl ⟨_, found, older, rfl⟩
      · exact .inl ⟨inst', kept, member', rfl⟩
  | rejected => exact .inl ⟨inst', found', member', rfl⟩
  | created _ known _ _ only =>
      rcases update_some_eq_some.mp found' with ⟨rfl, rfl⟩ | ⟨-, kept⟩
      · refine .inr ⟨only listener member', ?_⟩
        rw [parseRoomstr_eq parsed, ← platformName_of_getInstance known]
        rfl
      · exact .inl ⟨inst', kept, member', rfl⟩

theorem Asked.of_shrinks {past : List Event} (asked : Asked past state)
    (shrinks : state.Shrinks next) (event : Event) : Asked (past ++ [event]) next := by
  intro i inst' hdl found' member'
  rcases shrinks.instances found' with ⟨inst, found, roomstr, -, -, included⟩
  rw [roomstr]
  exact (asked i inst hdl found (included hdl member')).later event

theorem asked_initial (past : List Event) : Asked past State.initial := by
  intro i inst hdl found
  cases found

theorem Asked.step {past : List Event} (wellFormed : state.WellFormed)
    (asked : Asked past state) (stepped : state.step libraries event = some next) :
    Asked (past ++ [event]) next := by
  have kept := asked.of_shrinks (.refl state) event
  cases step_transition wellFormed stepped with
  | accept | closing | terminate | expire | refused | already | unhandled => exact kept
  | stuck _ _ _ _ _ leaving => exact asked.of_shrinks leaving.shrinks _
  | closed _ _ _ _ _ leaving => exact asked.of_shrinks leaving.shrinks _
  | @entered hdl payload environment con tag roomid left _ connected _ _ parsed _ leaving _
      entering =>
      intro i inst' listener found' member'
      have room := messageRoom_of_connected connected
      have leftWellFormed := (wellFormed.shrinks leaving.shrinks).setMessageHandler
        (wellFormed.unsubscribed room leaving) (trim payload)
      rcases entering.roomstr_listener leftWellFormed parsed found' member' with
        ⟨inst, found, member, roomstr⟩ | ⟨rfl, roomstr⟩
      · rw [roomstr]
        exact asked.of_shrinks leaving.shrinks _ i inst listener found member
      · exact ⟨payload, environment, by simp, roomstr.symm⟩
  | upstream found _ _ advances pruned =>
      exact asked.of_shrinks (afterHandler_shrinks found advances pruned) _
  | stalled found _ _ _ advances pruned =>
      exact asked.of_shrinks (afterStall_shrinks found advances pruned) _

end State

open State

/-! ## Runs -/

theorem received_within {libraries : Libraries} {state final : State} {events : List Event}
    (wellFormed : state.WellFormed)
    (executed : (machine libraries).exec state events = some final) (hdl : ConnectionHdl) :
    ∃ new, received final.server hdl = received state.server hdl ++ new ∧
      new.Sublist ((machine libraries).outputs (State.addressed libraries hdl) state events) :=
  Machine.log_of_run .slnil .append WellFormed
    (fun wellFormed stepped _ => received_grows hdl wellFormed stepped) wellFormed
    Machine.along_true executed

/-- A client asks for a room of douyu, and a chat message arrives there. -/
def roomWithChat : List Event :=
  .accept 0 :: .message 0 .text (ascii "douyu_1") .calm ::
    connectAndChat.map fun activity => .upstream 0 activity Environment.calm.send

theorem received_roomWithChat :
    ((machine default).exec State.initial roomWithChat).any (fun final =>
      decide (publishJson [] [] [] ∈ received final.server 0)) = true := by
  decide

theorem asked_of_run {libraries : Libraries} {past : List Event} {state : State}
    (executed : (machine libraries).exec State.initial past = some state) : Asked past state := by
  have history := Machine.history_of_run (fun events before => before.WellFormed ∧
      Asked events before)
    (fun holds stepped => ⟨holds.1.step stepped, holds.2.step holds.1 stepped⟩)
    ⟨wellFormed_initial, asked_initial []⟩ executed
  exact history.2

/-- The text answers a message of the connection. -/
def Answers (events : List Event) (hdl : ConnectionHdl) (text : Bytes) : Prop :=
  ∃ opcode payload environment, .message hdl opcode payload environment ∈ events ∧
    text ∈ answers environment opcode payload

/-- The text was published by an instance that the connection listened to at that time, after the
connection had asked for the room of the instance. -/
def PublishedTo (libraries : Libraries) (events : List Event) (hdl : ConnectionHdl)
    (text : Bytes) : Prop :=
  ∃ past i activity send later state inst upstream effects,
    events = past ++ .upstream i activity send :: later ∧
    (machine libraries).exec State.initial past = some state ∧
    state.instances i = some inst ∧ hdl ∈ inst.listeners ∧
    inst.upstream.step libraries inst.roomid activity = some (upstream, effects) ∧
    .publish text ∈ carriedOut state.deadlocked effects ∧ AskedFor past hdl inst.roomstr

/-- Every text a connection was sent answers one of its own messages, or was published to it. -/
theorem provenance_of_run {libraries : Libraries} {final : State} {events : List Event}
    (executed : (machine libraries).exec State.initial events = some final)
    {hdl : ConnectionHdl} {text : Bytes} (member : text ∈ received final.server hdl) :
    Answers events hdl text ∨ PublishedTo libraries events hdl text := by
  rcases received_within wellFormed_initial executed hdl with ⟨new, grown, part⟩
  have silent : received State.initial.server hdl = [] := rfl
  rw [grown, silent, List.nil_append] at member
  rcases Machine.mem_outputs (part.subset member) with
    ⟨past, event, later, state, split, before, put⟩
  subst split
  cases event with
  | message sender opcode payload environment =>
      simp only [addressed] at put
      split at put
      next own =>
        subst own
        exact .inl ⟨opcode, payload, environment, by simp, put⟩
      next => cases put
  | upstream i activity send =>
      simp only [addressed] at put
      cases found : state.instances i with
      | none => simp [found] at put
      | some inst =>
          cases acted : inst.upstream.step libraries inst.roomid activity with
          | none => simp [found, acted] at put
          | some outcome =>
              simp only [found, acted, toListeners] at put
              split at put
              next listens =>
                have asked := asked_of_run before i inst hdl found listens
                exact .inr ⟨past, i, activity, send, later, state, inst, outcome.1, outcome.2,
                  rfl, before, found, listens, acted, mem_publishedTexts.mp put, asked⟩
              next => cases put
  | accept | closing | terminate | closeHandler | expire => cases put

theorem provenance_of_run_chat :
    Answers roomWithChat 0 (publishJson [] [] []) ∨
      PublishedTo default roomWithChat 0 (publishJson [] [] []) := by
  rcases (Option.any_eq_true _ _).mp received_roomWithChat with ⟨final, executed, member⟩
  exact provenance_of_run executed (of_decide_eq_true member)

end DMProxy.Registry
