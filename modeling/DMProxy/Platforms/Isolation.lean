import DMProxy.Platforms.Base

/-!
# Failure isolation of publish

`platform_base::publish` carries one error code through its loop, and
`endpoint::send` returns early when the code is already set.  The listeners are
therefore served correctly up to the first one whose own send fails; every later
one is closed and erased, whatever the state of its connection.
-/

namespace DMProxy.Platforms

open DMProxy.Collections
open DMProxy.Network
open DMProxy.Text

variable {outcome : SendOutcome} {dmMsg : Bytes} {server : Server}

/-- A send to the connection with a clear error code succeeds: the connection is
alive and open, and it accepts the payload. -/
def accepts (outcome : SendOutcome) (server : Server) (dmMsg : Bytes)
    (hdl : ConnectionHdl) : Bool :=
  match server.getConFromHdl hdl with
  | none => false
  | some con => con.state == .open && (outcome hdl dmMsg).isNone

/-- The session state of a connection on which `close` was called. -/
def stateAfterClose (con : ServerConnection) : SessionState :=
  if con.state = .open ∧ con.expired = false then .closing else con.state

/-- What publishing does to one listener, seen from outside: the messages its
connection has accepted, and its session state. -/
def view (con : ServerConnection) : List Bytes × SessionState :=
  (con.sent, con.state)

/-- Every listener is treated according to its own connection only: the accepting
ones get the message once and stay, the failing ones are closed and erased, and
nobody else is touched. -/
structure FailureIsolated (outcome : SendOutcome) (dmMsg : Bytes)
    (server : Server) (listeners : Listeners)
    (server' : Server) (listeners' : Listeners) : Prop where
  accepted : ∀ hdl ∈ listeners, ∀ con, server hdl = some con →
    accepts outcome server dmMsg hdl = true →
    hdl ∈ listeners' ∧ (server' hdl).map view = some (con.sent ++ [dmMsg], .open)
  failed : ∀ hdl ∈ listeners, accepts outcome server dmMsg hdl = false →
    hdl ∉ listeners' ∧
      (server' hdl).map view = (server hdl).map fun con => (con.sent, stateAfterClose con)
  untouched : ∀ hdl, hdl ∉ listeners → hdl ∉ listeners' ∧ server' hdl = server hdl

/-- In iteration order, no listener whose own send fails comes before one whose own
send succeeds. -/
def FailuresLast (outcome : SendOutcome) (dmMsg : Bytes) (server : Server)
    (listeners : Listeners) : Prop :=
  listeners.toList.Pairwise fun earlier later =>
    accepts outcome server dmMsg later = true → accepts outcome server dmMsg earlier = true

/-! ## One iteration of the loop -/

theorem send_of_accepts {hdl : ConnectionHdl}
    (accepting : accepts outcome server dmMsg hdl = true) :
    ∃ con, server hdl = some con ∧ con.state = .open ∧
      server.send outcome hdl dmMsg none =
        (server.put hdl { con with sent := con.sent ++ [dmMsg] }, none) := by
  simp only [accepts] at accepting
  cases found : server.getConFromHdl hdl with
  | none => simp [found] at accepting
  | some con =>
      simp only [found, Bool.and_eq_true, beq_iff_eq, Option.isNone_iff_eq_none] at accepting
      refine ⟨con, Server.eq_some_of_getConFromHdl found, accepting.1, ?_⟩
      simp [Server.send, found, accepting.1, accepting.2]

/-- A send that the listener's own connection refuses sets the error code and
changes nothing. -/
theorem send_of_not_accepts {hdl : ConnectionHdl}
    (refusing : accepts outcome server dmMsg hdl = false) :
    ∃ error, server.send outcome hdl dmMsg none = (server, some error) := by
  simp only [accepts] at refusing
  cases found : server.getConFromHdl hdl with
  | none => exact ⟨.badConnection, by simp [Server.send, found]⟩
  | some con =>
      by_cases isOpen : con.state = .open
      · simp only [found, isOpen, beq_self_eq_true, Bool.true_and,
          Option.isNone_eq_false_iff, Option.isSome_iff_exists] at refusing
        rcases refusing with ⟨error, verdict⟩
        exact ⟨error, by simp [Server.send, found, isOpen, verdict]⟩
      · exact ⟨.invalidState, by simp [Server.send, found, isOpen]⟩

variable (outcome dmMsg) in
/-- With the error code already set, a send changes nothing and the code stays
set. -/
theorem send_of_error (server : Server) (hdl : ConnectionHdl) (error : ErrorCode) :
    ∃ error', server.send outcome hdl dmMsg (some error) = (server, some error') := by
  cases found : server.getConFromHdl hdl with
  | none => exact ⟨.badConnection, by simp [Server.send, found]⟩
  | some con => exact ⟨error, by simp [Server.send, found]⟩

/-- Closing on an error changes the session state of an open connection only. -/
theorem view_closeAndReport (server : Server) (error : ErrorCode) (hdl : ConnectionHdl) :
    ((server.closeAndReportWhenError (some error) hdl) hdl).map view =
      (server hdl).map fun con => (con.sent, stateAfterClose con) := by
  simp only [Server.closeAndReportWhenError, Server.close, Server.getConFromHdl]
  cases found : server hdl with
  | none => simp [found]
  | some con =>
      cases expired : con.expired with
      | true => simp [Option.filter, found, expired, view, stateAfterClose]
      | false =>
          by_cases isOpen : con.state = .open
          · simp [Option.filter, expired, isOpen, view, stateAfterClose]
          · simp [Option.filter, found, expired, isOpen, view, stateAfterClose]

variable (outcome dmMsg) in
theorem accepts_congr {other : Server} {hdl : ConnectionHdl} (same : other hdl = server hdl) :
    accepts outcome other dmMsg hdl = accepts outcome server dmMsg hdl := by
  simp only [accepts, Server.getConFromHdl, same]

/-! ## The whole loop -/

variable (outcome dmMsg) in
/-- Once the error code is set, every remaining listener is closed and erased. -/
theorem publishLoop_of_error {listeners : List ConnectionHdl} (nodup : listeners.Nodup)
    (server : Server) (error : ErrorCode) :
    (publishLoop outcome dmMsg listeners server (some error)).2 = listeners ∧
      ∀ hdl ∈ listeners,
        ((publishLoop outcome dmMsg listeners server (some error)).1 hdl).map view =
          (server hdl).map fun con => (con.sent, stateAfterClose con) := by
  induction listeners generalizing server error with
  | nil => simp [publishLoop]
  | cons listener rest ih =>
      rcases List.nodup_cons.mp nodup with ⟨fresh, restNodup⟩
      rcases send_of_error outcome dmMsg server listener error with ⟨next, sent⟩
      simp only [publishLoop, sent, Option.isSome_some, if_true]
      have later := ih restNodup (server.closeAndReportWhenError (some next) listener) next
      refine ⟨by rw [later.1], ?_⟩
      intro hdl member
      rcases List.mem_cons.mp member with rfl | inRest
      · rw [publishLoop_of_notMem fresh]
        exact view_closeAndReport server next hdl
      · rw [later.2 hdl inRest]
        have differ : hdl ≠ listener := by
          intro equal
          subst equal
          exact fresh inRest
        rw [Server.closeAndReportWhenError_of_ne _ _ differ]

variable (outcome dmMsg) in
/-- With a clear error code, the listeners before the first refusing one are served
and kept, all others are closed and erased.  The loop may already have served other
connections, so the verdicts are those of the server it started from. -/
theorem publishLoop_of_clear {listeners : List ConnectionHdl} (nodup : listeners.Nodup)
    (current : Server) (agree : ∀ hdl ∈ listeners, current hdl = server hdl) :
    (publishLoop outcome dmMsg listeners current none).2 =
        listeners.dropWhile (accepts outcome server dmMsg) ∧
      (∀ hdl ∈ listeners.takeWhile (accepts outcome server dmMsg),
        ((publishLoop outcome dmMsg listeners current none).1 hdl).map view =
          (server hdl).map fun con => (con.sent ++ [dmMsg], .open)) ∧
      ∀ hdl ∈ listeners.dropWhile (accepts outcome server dmMsg),
        ((publishLoop outcome dmMsg listeners current none).1 hdl).map view =
          (server hdl).map fun con => (con.sent, stateAfterClose con) := by
  induction listeners generalizing current with
  | nil => simp [publishLoop]
  | cons listener rest ih =>
      rcases List.nodup_cons.mp nodup with ⟨fresh, restNodup⟩
      have here : current listener = server listener := agree listener (by simp)
      have later : ∀ hdl ∈ rest, hdl ≠ listener ∧ current hdl = server hdl := by
        intro hdl member
        refine ⟨?_, agree hdl (List.mem_cons_of_mem _ member)⟩
        intro equal
        subst equal
        exact fresh member
      have sameVerdict := accepts_congr outcome dmMsg here
      cases own : accepts outcome server dmMsg listener with
      | true =>
          rcases send_of_accepts (sameVerdict.trans own) with ⟨con, found, isOpen, sent⟩
          rw [List.dropWhile_cons_of_pos own, List.takeWhile_cons_of_pos own]
          simp only [publishLoop, sent, Server.closeAndReportWhenError, Option.isSome_none,
            Bool.false_eq_true, if_false]
          obtain ⟨deleted, kept, closed⟩ := ih restNodup
            (current.put listener { con with sent := con.sent ++ [dmMsg] })
            (fun hdl member => by
              rw [current.put_of_ne _ (later hdl member).1, (later hdl member).2])
          refine ⟨deleted, ?_, closed⟩
          intro hdl member
          rcases List.mem_cons.mp member with rfl | inRest
          · rw [publishLoop_of_notMem fresh, Server.put_self, ← here, found]
            simp [view, isOpen]
          · exact kept hdl inRest
      | false =>
          rcases send_of_not_accepts (sameVerdict.trans own) with ⟨error, sent⟩
          have negative : ¬accepts outcome server dmMsg listener = true := by simp [own]
          rw [List.dropWhile_cons_of_neg negative, List.takeWhile_cons_of_neg negative]
          simp only [publishLoop, sent, Option.isSome_some, if_true]
          obtain ⟨deleted, closed⟩ := publishLoop_of_error outcome dmMsg restNodup
            (current.closeAndReportWhenError (some error) listener) error
          refine ⟨by rw [deleted], by simp, ?_⟩
          intro hdl member
          rcases List.mem_cons.mp member with rfl | inRest
          · rw [publishLoop_of_notMem fresh, view_closeAndReport, here]
          · rw [closed hdl inRest,
              Server.closeAndReportWhenError_of_ne _ _ (later hdl inRest).1,
              (later hdl inRest).2]

/-- A listener keeps its place exactly when it comes before the first refusing one. -/
theorem mem_publish {listeners : Listeners} {hdl : ConnectionHdl} :
    hdl ∈ (publish outcome server listeners dmMsg).2 ↔
      hdl ∈ listeners.toList.takeWhile (accepts outcome server dmMsg) := by
  have deleted := (publishLoop_of_clear outcome dmMsg listeners.nodup server fun _ _ => rfl).1
  have split := List.takeWhile_append_dropWhile
    (p := accepts outcome server dmMsg) (l := listeners.toList)
  have nodup := listeners.nodup
  rw [← split] at nodup
  rw [publish, mem_foldl_erase, deleted, OrderedSet.mem_def]
  constructor
  · intro ⟨member, kept⟩
    rw [← split, List.mem_append] at member
    exact member.resolve_right kept
  · intro early
    exact ⟨(List.takeWhile_prefix _).subset early,
      fun late => List.disjoint_of_nodup_append nodup early late⟩

/-- A list has no failure before a success exactly when nothing from the first
failure on succeeds. -/
private theorem pairwise_iff_dropWhile {α : Type} (success : α → Bool) (elements : List α) :
    elements.Pairwise (fun earlier later => success later = true → success earlier = true) ↔
      ∀ element ∈ elements.dropWhile success, success element = false := by
  induction elements with
  | nil => simp
  | cons head tail ih =>
      rw [List.pairwise_cons]
      cases verdict : success head with
      | true => simp [List.dropWhile_cons_of_pos verdict, ih]
      | false =>
          have negative : ¬success head = true := by simp [verdict]
          rw [List.dropWhile_cons_of_neg negative]
          simp only [Bool.false_eq_true, imp_false, Bool.not_eq_true, List.forall_mem_cons,
            verdict, true_and]
          constructor
          · exact And.left
          · intro failing
            refine ⟨failing, List.pairwise_of_forall_mem_list ?_⟩
            intro earlier _ later member accepted
            rw [failing later member] at accepted
            cases accepted

/-- Publishing treats every listener according to its own connection exactly when
the failing listeners come last in the iteration order of the set. -/
theorem publish_isolated_iff (outcome : SendOutcome) (dmMsg : Bytes) (server : Server)
    (listeners : Listeners) :
    FailureIsolated outcome dmMsg server listeners
        (publish outcome server listeners dmMsg).1
        (publish outcome server listeners dmMsg).2 ↔
      FailuresLast outcome dmMsg server listeners := by
  rcases publishLoop_of_clear outcome dmMsg listeners.nodup server fun _ _ => rfl with
    ⟨-, served, closed⟩
  have split := List.takeWhile_append_dropWhile
    (p := accepts outcome server dmMsg) (l := listeners.toList)
  have nodup := listeners.nodup
  rw [← split] at nodup
  rw [FailuresLast, pairwise_iff_dropWhile]
  constructor
  · intro isolated hdl late
    by_contra accepting
    rw [Bool.not_eq_false] at accepting
    have member : hdl ∈ listeners := (List.dropWhile_suffix _).subset late
    rcases send_of_accepts accepting with ⟨con, found, -, -⟩
    have kept := (isolated.accepted hdl member con found accepting).1
    exact List.disjoint_of_nodup_append nodup (mem_publish.mp kept) late
  · intro failing
    refine ⟨?_, ?_, ?_⟩
    · intro hdl member con found accepting
      have early : hdl ∈ listeners.toList.takeWhile (accepts outcome server dmMsg) := by
        rw [OrderedSet.mem_def, ← split, List.mem_append] at member
        apply member.resolve_right
        intro late
        rw [failing hdl late] at accepting
        cases accepting
      refine ⟨mem_publish.mpr early, ?_⟩
      have result := served hdl early
      rw [found] at result
      exact result
    · intro hdl member refusing
      have late : hdl ∈ listeners.toList.dropWhile (accepts outcome server dmMsg) := by
        rw [OrderedSet.mem_def, ← split, List.mem_append] at member
        apply member.resolve_left
        intro early
        have accepting := List.mem_takeWhile_imp early
        rw [refusing] at accepting
        cases accepting
      refine ⟨fun kept => ?_, closed hdl late⟩
      exact List.disjoint_of_nodup_append nodup (mem_publish.mp kept) late
    · intro hdl absent
      exact ⟨fun kept => absent (mem_of_mem_publish kept), publish_of_notMem absent⟩

/-- One expired handle in front of an open, accepting connection: the open
connection is closed and loses its place. -/
theorem publish_not_isolated :
    ¬ ∀ (outcome : SendOutcome) (dmMsg : Bytes) (server : Server) (listeners : Listeners),
      FailureIsolated outcome dmMsg server listeners
        (publish outcome server listeners dmMsg).1
        (publish outcome server listeners dmMsg).2 := by
  intro isolated
  let server : Server := fun hdl =>
    if hdl = 0 then some { ServerConnection.accepted with state := .closed, expired := true }
    else some ServerConnection.accepted
  let listeners : Listeners := (OrderedSet.empty.insert 0).insert 1
  have kept := ((isolated (fun _ _ => none) (ascii "hello") server listeners).accepted 1
    (by decide) ServerConnection.accepted rfl rfl).1
  revert kept
  decide

end DMProxy.Platforms
