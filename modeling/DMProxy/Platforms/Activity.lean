import DMProxy.Platforms.Upstream

/-!
# Pending operations of a platform instance

An instance without a pending operation is at rest for good: none of its handlers runs
any more.  `close` starts no operation and completes none.
-/

namespace DMProxy.Platforms

open DMProxy.Async
open DMProxy.Network
open DMProxy.Text

variable {libraries : Libraries} {roomid : Bytes}

theorem Huajiao.step_of_idle {outcome : Option ErrorCode} {state state' : Huajiao.State}
    {event : ClientEvent} {effects : List Effect} (idle : state.connection.pending = false)
    (stepped : Huajiao.step libraries roomid outcome state event = some (state', effects)) :
    state'.connection.pending = false ∧ effects = [] := by
  cases connected : state.connection with
  | connecting | «open» | closing | failed | closed =>
      simp [connected, ClientConnection.pending] at idle
  | unset | expired =>
      cases event <;> simp [Huajiao.step, connected] at stepped
  | finished =>
      cases event <;> simp [Huajiao.step, connected] at stepped
      rcases stepped with ⟨rfl, rfl⟩
      exact ⟨rfl, rfl⟩

theorem YY.step_of_idle {answers : YY.Answers} {state state' : YY.State}
    {event : YY.Event} {effects : List Effect} (idle : state.connection.pending = false)
    (noTimers : state.timers = [])
    (stepped : YY.step libraries roomid answers state event = some (state', effects)) :
    state'.connection.pending = false ∧ state'.timers = [] ∧ effects = [] := by
  cases event with
  | timer progress =>
      cases progress <;>
        simp [YY.step, YY.timerStep, noTimers, Pending.finish, Pending.take] at stepped
  | connection event =>
      cases connected : state.connection with
      | connecting | «open» | closing | failed | closed =>
          simp [connected, ClientConnection.pending] at idle
      | unset | expired =>
          cases event <;> simp [YY.step, YY.connectionStep, connected] at stepped
      | finished =>
          cases event <;> simp [YY.step, YY.connectionStep, connected] at stepped
          rcases stepped with ⟨rfl, rfl⟩
          exact ⟨rfl, noTimers, rfl⟩

namespace Upstream

/-- An instance at rest stays at rest and does nothing. -/
theorem step_of_idle {upstream upstream' : Upstream} {event : UpstreamEvent}
    {effects : List Effect} (idle : upstream.pending = false)
    (stepped : upstream.step libraries roomid event = some (upstream', effects)) :
    upstream'.pending = false ∧ effects = [] := by
  cases upstream <;> cases event <;>
    simp only [step, Option.map_eq_some_iff, reduceCtorEq] at stepped
  all_goals
    rcases stepped with ⟨⟨state', effects'⟩, inner, equal⟩
    cases equal
  case huajiao.huajiao => exact Huajiao.step_of_idle idle inner
  case douyu.douyu state progress =>
    have rest : state.pending = [] := by simpa [pending] using idle
    cases progress <;> simp [Douyu.step, rest, Pending.finish, Pending.take] at inner
  case bilibili.bilibili state uid progress =>
    have rest : state.io.pending = [] := by simpa [pending] using idle
    cases progress <;> simp [Bilibili.step, rest, Pending.finish, Pending.take] at inner
  case YY.YY state answers event =>
    simp only [pending, Bool.or_eq_false_iff, Bool.not_eq_eq_eq_not, Bool.not_false,
      List.isEmpty_iff] at idle
    rcases YY.step_of_idle idle.1 idle.2 inner with ⟨stays, noTimers, silent⟩
    exact ⟨by simp [pending, stays, noTimers], silent⟩

/-- An instance with an operation pending had one before the event. -/
theorem pending_of_step {upstream upstream' : Upstream} {event : UpstreamEvent}
    {effects : List Effect}
    (stepped : upstream.step libraries roomid event = some (upstream', effects))
    (pending' : upstream'.pending = true) : upstream.pending = true := by
  by_contra idle
  rw [Bool.not_eq_true] at idle
  cases (step_of_idle idle stepped).1.symm.trans pending'

/-- A handler that reports is that of a pending operation. -/
theorem pending_of_reporting {upstream upstream' : Upstream} {event : UpstreamEvent}
    {effects : List Effect}
    (stepped : upstream.step libraries roomid event = some (upstream', effects))
    (reporting : reportsClosure effects = true) : upstream.pending = true := by
  by_contra idle
  rw [Bool.not_eq_true] at idle
  rw [(step_of_idle idle stepped).2] at reporting
  cases reporting

/-- `close` leaves as many operations pending as there were. -/
@[simp] theorem pending_close (upstream : Upstream) :
    upstream.close.1.pending = upstream.pending := by
  cases upstream with
  | huajiao state => exact state.connection.pending_close
  | douyu state => simp [close, Douyu.close, pending]
  | bilibili state => simp [close, Bilibili.close, pending]
  | YY state =>
      cases timer : state.hbTimer with
      | none => simp [close, YY.close, YY.cancelHbTimer, timer]
      | some _ =>
          simp [close, YY.close, YY.cancelHbTimer, timer, pending,
            ClientConnection.pending_close]

end Upstream

/-- A new instance has an operation pending once it was started, unless `start` reported
an error. -/
theorem pending_start_of_getInstance {tag : Bytes} {upstream : Upstream}
    (created : platformGetInstance tag = some upstream) (roomid : Bytes)
    (ec : Option ErrorCode) :
    (upstream.start roomid ec).1.pending = !(upstream.usesClient && ec.isSome) := by
  have listed := mem_platformCreatorTable created
  simp only [platformCreatorTable, List.mem_cons, List.not_mem_nil, or_false,
    Prod.mk.injEq] at listed
  rcases listed with ⟨rfl, rfl⟩ | ⟨rfl, rfl⟩ | ⟨rfl, rfl⟩ | ⟨rfl, rfl⟩ <;> cases ec <;> rfl

end DMProxy.Platforms
