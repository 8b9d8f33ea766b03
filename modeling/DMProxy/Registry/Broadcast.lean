import DMProxy.Platforms.Isolation
import DMProxy.Registry.Delivery

/-!
# Nothing is lost while every listener takes the texts

One listener that refuses a text costs the later ones the text and their connection.  As long as
all listeners of the publishing instances accept what they are sent, each of them gets all of it.
-/

namespace DMProxy.Registry

open DMProxy.Collections
open DMProxy.Network
open DMProxy.Platforms
open DMProxy.Text
open DMProxy.Transition

/-- The connections after some of them were sent some texts. -/
def deliver (hdls : Listeners) (texts : List Bytes) (server : Server) : Server := fun hdl =>
  if hdl ∈ hdls then (server hdl).map fun con => { con with sent := con.sent ++ texts }
  else server hdl

theorem deliver_nil (hdls : Listeners) (server : Server) : deliver hdls [] server = server := by
  funext hdl
  simp only [deliver, List.append_nil]
  split
  next => exact Option.map_id'
  next => rfl

theorem deliver_append (hdls : Listeners) (texts more : List Bytes) (server : Server) :
    deliver hdls more (deliver hdls texts server) = deliver hdls (texts ++ more) server := by
  funext hdl
  simp only [deliver]
  split
  next => simp [Function.comp_def]
  next => rfl

/-- A connection that was sent something accepts what it accepted before. -/
theorem accepts_deliver (outcome : SendOutcome) (hdls : Listeners) (texts : List Bytes)
    (server : Server) (dmMsg : Bytes) (hdl : ConnectionHdl) :
    accepts outcome (deliver hdls texts server) dmMsg hdl = accepts outcome server dmMsg hdl := by
  simp only [accepts, Server.getConFromHdl, deliver]
  by_cases member : hdl ∈ hdls
  · cases server hdl with
    | none => simp [member]
    | some con => cases expired : con.expired <;> simp [member, Option.filter, expired]
  · simp [member]

/-- A loop over connections that all accept the text sends it to all of them. -/
theorem publishLoop_of_accepting {outcome : SendOutcome} {dmMsg : Bytes}
    {listeners : List ConnectionHdl} (nodup : listeners.Nodup) (server : Server)
    (accepting : ∀ hdl ∈ listeners, accepts outcome server dmMsg hdl = true) :
    publishLoop outcome dmMsg listeners server none =
      ((fun hdl => if hdl ∈ listeners then
          (server hdl).map fun con => { con with sent := con.sent ++ [dmMsg] }
        else server hdl), []) := by
  induction listeners generalizing server with
  | nil => simp [publishLoop]
  | cons listener rest ih =>
      rcases List.nodup_cons.mp nodup with ⟨fresh, restNodup⟩
      rcases send_of_accepts (accepting listener (by simp)) with ⟨con, found, -, sent⟩
      have later : ∀ hdl ∈ rest, hdl ≠ listener := by
        intro hdl member equal
        exact fresh (equal ▸ member)
      simp only [publishLoop, sent, Server.closeAndReportWhenError, Option.isSome_none,
        Bool.false_eq_true, if_false]
      rw [ih restNodup]
      · refine Prod.ext ?_ rfl
        funext hdl
        by_cases equal : hdl = listener
        · subst equal
          simp [fresh, found]
        · simp [equal]
      · intro hdl member
        have same := server.put_of_ne { con with sent := con.sent ++ [dmMsg] } (later hdl member)
        rw [accepts_congr outcome dmMsg same]
        exact accepting hdl (List.mem_cons_of_mem _ member)

theorem publish_of_accepting {outcome : SendOutcome} {dmMsg : Bytes} {listeners : Listeners}
    {server : Server} (accepting : ∀ hdl ∈ listeners, accepts outcome server dmMsg hdl = true) :
    Platforms.publish outcome server listeners dmMsg =
      (deliver listeners [dmMsg] server, listeners) := by
  simp only [Platforms.publish, publishLoop_of_accepting listeners.nodup server accepting,
    List.foldl_nil]
  rfl

theorem received_deliver {outcome : SendOutcome} {hdls : Listeners} {texts : List Bytes}
    {server : Server} {hdl : ConnectionHdl} (member : hdl ∈ hdls)
    (accepting : ∀ text ∈ texts, accepts outcome server text hdl = true) :
    received (deliver hdls texts server) hdl = received server hdl ++ texts := by
  cases texts with
  | nil => rw [deliver_nil, List.append_nil]
  | cons text texts =>
      rcases send_of_accepts (accepting text List.mem_cons_self) with ⟨con, found, -, -⟩
      simp [received, deliver, member, found]

namespace State

variable {libraries : Libraries} {state next : State} {event : Event} {i : InstanceId}
  {inst : Instance} {send : SendOutcome}

/-- Every listener of the instance accepts all of the texts. -/
def AllAccept (send : SendOutcome) (server : Server) (inst : Instance) (texts : List Bytes) :
    Prop :=
  ∀ text ∈ texts, ∀ hdl ∈ inst.listeners.toList, accepts send server text hdl = true

instance (send : SendOutcome) (server : Server) (inst : Instance) (texts : List Bytes) :
    Decidable (AllAccept send server inst texts) :=
  inferInstanceAs (Decidable (∀ text ∈ texts, ∀ hdl ∈ inst.listeners.toList,
    accepts send server text hdl = true))

/-- What a handler publishes gets to every listener, if all of them accept it. -/
theorem runEffects_of_accepting {effects : List Effect} (found : state.instances i = some inst)
    (callback : inst.closeCallback = true) (intact : state.crashed = false)
    (accepting : AllAccept send state.server inst
      (publishedTexts (carriedOut state.deadlocked effects))) :
    (state.runEffects send state.deadlocked i effects).server =
      deliver inst.listeners (publishedTexts (carriedOut state.deadlocked effects))
        state.server := by
  induction effects generalizing state inst with
  | nil => exact (deliver_nil _ _).symm
  | cons effect rest ih =>
      cases effect with
      | publish dmMsg =>
          have texts : publishedTexts (carriedOut state.deadlocked (.publish dmMsg :: rest)) =
              dmMsg :: publishedTexts (carriedOut state.deadlocked rest) := rfl
          rw [texts] at accepting ⊢
          have sent := publish_of_accepting (accepting dmMsg List.mem_cons_self)
          have later := @ih { state with
              server := deliver inst.listeners [dmMsg] state.server
              instances := Function.update state.instances i (some inst) } inst
            (Function.update_self ..) callback intact (by
              intro text member hdl listens
              rw [accepts_deliver]
              exact accepting text (List.mem_cons_of_mem _ member) hdl listens)
          rw [runEffects, publish_of_found found, sent]
          refine later.trans ?_
          rw [deliver_append, List.singleton_append]
      | closeCallback =>
          cases lost : state.deadlocked with
          | true =>
              simp only [runEffects, fireCloseCallback, found, callback]
              exact (deliver_nil _ _).symm
          | false =>
              have running : state.halted = false := by simp [halted, lost, intact]
              rw [← lost, runEffects_closeCallback send rest found callback running]
              rw [publishedTexts_closeCallback lost] at accepting ⊢
              have later := @ih { state with
                  instances := Function.update state.instances i
                    (some { inst with reports := inst.reports + 1 })
                  rpMap := Function.update state.rpMap inst.roomstr none }
                { inst with reports := inst.reports + 1 } (Function.update_self ..) callback
                intact accepting
              exact later
      | fault => exact (deliver_nil _ _).symm

/-- The connection makes no request, and where it listens every listener takes what is
published. -/
def Serves (libraries : Libraries) (hdl : ConnectionHdl) (state : State) : Event → Prop
  | .message sender _ _ _ => sender ≠ hdl
  | .upstream i activity send =>
      ∀ inst ∈ state.instances i, hdl ∈ inst.listeners →
        ∀ outcome ∈ inst.upstream.step libraries inst.roomid activity,
          AllAccept send state.server inst
            (publishedTexts (carriedOut state.deadlocked outcome.2))
  | .accept _ | .closing _ | .terminate _ | .closeHandler _ _ | .expire _ => True

instance (libraries : Libraries) (hdl : ConnectionHdl) (state : State) (event : Event) :
    Decidable (state.Serves libraries hdl event) :=
  match event with
  | .message sender _ _ _ => inferInstanceAs (Decidable (sender ≠ hdl))
  | .upstream i activity send =>
      inferInstanceAs (Decidable (∀ inst ∈ state.instances i, hdl ∈ inst.listeners →
        ∀ outcome ∈ inst.upstream.step libraries inst.roomid activity,
          AllAccept send state.server inst
            (publishedTexts (carriedOut state.deadlocked outcome.2))))
  | .accept _ | .closing _ | .terminate _ | .closeHandler _ _ | .expire _ => isTrue trivial

theorem received_of_unaddressed {hdl : ConnectionHdl} (wellFormed : state.WellFormed)
    (stepped : state.step libraries event = some next)
    (nothing : state.addressed libraries hdl event = []) :
    received next.server hdl = received state.server hdl := by
  rcases delivers_step wellFormed stepped hdl with ⟨new, grown, part⟩
  simp only [nothing, List.sublist_nil] at part
  rw [grown, part, List.append_nil]

theorem received_of_upstream {hdl : ConnectionHdl} (wellFormed : state.WellFormed)
    {activity : UpstreamEvent} {upstream : Upstream} {effects : List Effect}
    (found : state.instances i = some inst) (listens : hdl ∈ inst.listeners)
    (acted : inst.upstream.step libraries inst.roomid activity = some (upstream, effects))
    (accepting : AllAccept send state.server inst
      (publishedTexts (carriedOut state.deadlocked effects)))
    (intact : state.crashed = false)
    (stepped : state.runUpstream libraries i activity send = some next) :
    received next.server hdl = received state.server hdl ++
      publishedTexts (carriedOut state.deadlocked effects) := by
  have callback := (wellFormed.installed found).1
  have delivered : next.server =
      deliver inst.listeners (publishedTexts (carriedOut state.deadlocked effects))
        state.server := by
    simp only [runUpstream, found, acted] at stepped
    split at stepped
    next => cases stepped
    next =>
      cases stepped
      split
      next =>
        have sent := runEffects_of_accepting (instances_stall found libraries activity) callback
          intact accepting
        exact sent
      next =>
        have sent := runEffects_of_accepting (instances_setUpstream found upstream) callback
          intact accepting
        exact sent
  rw [delivered]
  exact received_deliver listens fun text member => accepting text member hdl listens

/-- A served connection is sent all that is addressed to it. -/
theorem received_step {hdl : ConnectionHdl} (wellFormed : state.WellFormed)
    (stepped : state.step libraries event = some next)
    (serves : state.Serves libraries hdl event) :
    received next.server hdl =
      received state.server hdl ++ state.addressed libraries hdl event := by
  have unaddressed (nothing : state.addressed libraries hdl event = []) :
      received next.server hdl =
        received state.server hdl ++ state.addressed libraries hdl event := by
    rw [received_of_unaddressed wellFormed stepped nothing, nothing, List.append_nil]
  cases event with
  | message sender opcode payload environment =>
      have other : hdl ≠ sender := Ne.symm serves
      exact unaddressed (if_neg other)
  | upstream i activity send =>
      cases found : state.instances i with
      | none => exact unaddressed (by simp [addressed, found])
      | some inst =>
          cases acted : inst.upstream.step libraries inst.roomid activity with
          | none => exact unaddressed (by simp [addressed, found, acted])
          | some outcome =>
              by_cases listens : hdl ∈ inst.listeners
              · have accepting := serves inst found listens outcome acted
                simp only [step] at stepped
                split at stepped
                next => cases stepped
                next intact =>
                  simp only [addressed, found, acted, toListeners, if_pos listens]
                  exact received_of_upstream wellFormed found listens acted accepting
                    (by simpa using intact) stepped
              · exact unaddressed (by simp [addressed, found, acted, toListeners, listens])
  | accept | closing | terminate | closeHandler | expire => exact unaddressed rfl

end State

open State

/-- The handler of one client waits for the lock it holds, and then the query of a room of another
client fails: this client is told. -/
example : ((machine default).exec State.initial
    [.accept 0, .message 0 .text (ascii "huajiao_123456789") .calm,
      .accept 1, .message 1 .text (ascii "douyu_1") .calm, .terminate 0, .closeHandler 0 .calm,
      .douyu 1 (.finish 0 (.failure .eof)), .douyu 1 (.run 0)]).map
      (fun final => (final.deadlocked, received final.server 1)) =
    some (true, [ErrorCode.eof.closedBecause]) := by
  decide

end DMProxy.Registry
