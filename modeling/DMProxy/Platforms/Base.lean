import DMProxy.Collections.OrderedSet
import DMProxy.Network.Endpoint

/-!
# The common part of all platforms

`platform_base` keeps the set of listeners of a room and publishes text to them.
The handlers of a concrete platform act on it in two ways only, by publishing and
by firing the close callback; `Effect` lists what a handler does to the rest of
the program, in the order in which it does it.
-/

namespace DMProxy.Platforms

open DMProxy.Collections
open DMProxy.Network
open DMProxy.Text

/-- The listener set of a platform: `std::set<connection_hdl, std::owner_less<>>`. -/
abbrev Listeners := OrderedSet ConnectionHdl

/-- What a handler of a platform does outside the platform's own upstream state. -/
inductive Effect where
  /-- `publish` of a text -/
  | publish (dmMsg : Bytes)
  /-- the call of `m_close_callback` with the room string of the instance -/
  | closeCallback
  /-- undefined behaviour or an exception that leaves the handler: a null pointer
  is dereferenced, or an element access is out of range -/
  | fault
  deriving DecidableEq, Repr

/-- `CLIENT_REPORT_WHEN_ERROR`: on an error, tell the listeners and fire the close
callback. -/
def clientReportWhenError : Option ErrorCode → List Effect
  | none => []
  | some error => [.publish error.closedBecause, .closeCallback]

/-- A handler with these effects gets to the call of the close callback. -/
def reportsClosure (effects : List Effect) : Bool :=
  decide (.closeCallback ∈ effects.takeWhile (· != .fault))

@[simp] theorem reportsClosure_nil : reportsClosure [] = false := rfl

@[simp] theorem reportsClosure_publish (dmMsg : Bytes) (rest : List Effect) :
    reportsClosure (.publish dmMsg :: rest) = reportsClosure rest := by
  simp [reportsClosure]

@[simp] theorem reportsClosure_closeCallback (rest : List Effect) :
    reportsClosure (.closeCallback :: rest) = true := by
  simp [reportsClosure]

@[simp] theorem reportsClosure_fault (rest : List Effect) :
    reportsClosure (.fault :: rest) = false := by
  simp [reportsClosure]

/-- The effects a handler gets to: none after undefined behaviour, and none after the call of the
close callback where the registry lock is lost. -/
def carriedOut (locked : Bool) : List Effect → List Effect
  | [] => []
  | .publish dmMsg :: rest => .publish dmMsg :: carriedOut locked rest
  | .closeCallback :: rest => .closeCallback :: if locked then [] else carriedOut locked rest
  | .fault :: _ => [.fault]

theorem carriedOut_sublist (locked : Bool) (effects : List Effect) :
    (carriedOut locked effects).Sublist effects := by
  induction effects with
  | nil => exact .slnil
  | cons effect rest ih =>
      cases effect with
      | publish dmMsg => exact ih.cons_cons _
      | closeCallback =>
          cases locked with
          | true => exact (List.nil_sublist rest).cons_cons _
          | false => exact ih.cons_cons _
      | fault => exact (List.nil_sublist rest).cons_cons _

/-- The loop of `platform_base::publish` over the listeners.  The error code is
declared outside the loop, so it is an argument of each iteration; the result
collects `to_be_deleted`. -/
def publishLoop (outcome : SendOutcome) (dmMsg : Bytes) :
    List ConnectionHdl → Server → Option ErrorCode → Server × List ConnectionHdl
  | [], server, _ => (server, [])
  | listener :: rest, server, ec =>
      let sent := server.send outcome listener dmMsg ec
      let reported := sent.1.closeAndReportWhenError sent.2 listener
      let others := publishLoop outcome dmMsg rest reported sent.2
      (others.1, if sent.2.isSome then listener :: others.2 else others.2)

/-- `platform_base::publish`. -/
def publish (outcome : SendOutcome) (server : Server) (listeners : Listeners)
    (dmMsg : Bytes) : Server × Listeners :=
  let result := publishLoop outcome dmMsg listeners.toList server none
  (result.1, result.2.foldl (fun kept listener => kept.erase listener) listeners)

theorem mem_foldl_erase {deleted : List ConnectionHdl} {listeners : Listeners}
    {hdl : ConnectionHdl} :
    hdl ∈ deleted.foldl (fun kept listener => kept.erase listener) listeners ↔
      hdl ∈ listeners ∧ hdl ∉ deleted := by
  induction deleted generalizing listeners with
  | nil => simp
  | cons head deleted ih =>
      rw [List.foldl_cons, ih, OrderedSet.mem_erase, List.mem_cons, not_or, and_assoc]

theorem advances_publishLoop (outcome : SendOutcome) (dmMsg : Bytes)
    (listeners : List ConnectionHdl) (server : Server) (ec : Option ErrorCode) :
    server.Advances (publishLoop outcome dmMsg listeners server ec).1 := by
  induction listeners generalizing server ec with
  | nil => exact .refl server
  | cons listener rest ih =>
      have sent := server.advances_send outcome listener dmMsg ec
      have reported := Server.advances_closeAndReportWhenError
        (server.send outcome listener dmMsg ec).1 (server.send outcome listener dmMsg ec).2
        listener
      exact (sent.trans reported).trans (ih _ _)

/-- Publishing installs no handlers and reopens no connection. -/
theorem advances_publish (outcome : SendOutcome) (server : Server) (listeners : Listeners)
    (dmMsg : Bytes) : server.Advances (publish outcome server listeners dmMsg).1 :=
  advances_publishLoop outcome dmMsg listeners.toList server none

/-- Publishing only removes listeners. -/
theorem mem_of_mem_publish {outcome : SendOutcome} {server : Server} {listeners : Listeners}
    {dmMsg : Bytes} {hdl : ConnectionHdl}
    (member : hdl ∈ (publish outcome server listeners dmMsg).2) : hdl ∈ listeners :=
  (mem_foldl_erase.mp member).1

theorem publishLoop_of_notMem {outcome : SendOutcome} {dmMsg : Bytes}
    {listeners : List ConnectionHdl} {server : Server} {ec : Option ErrorCode}
    {hdl : ConnectionHdl} (absent : hdl ∉ listeners) :
    (publishLoop outcome dmMsg listeners server ec).1 hdl = server hdl := by
  induction listeners generalizing server ec with
  | nil => rfl
  | cons listener rest ih =>
      simp only [List.mem_cons, not_or] at absent
      simp only [publishLoop]
      rw [ih absent.2, Server.closeAndReportWhenError_of_ne _ _ absent.1,
        Server.send_of_ne outcome server dmMsg ec absent.1]

/-- Publishing touches no connection outside the listener set. -/
theorem publish_of_notMem {outcome : SendOutcome} {server : Server} {listeners : Listeners}
    {dmMsg : Bytes} {hdl : ConnectionHdl} (absent : hdl ∉ listeners) :
    (publish outcome server listeners dmMsg).1 hdl = server hdl :=
  publishLoop_of_notMem absent

end DMProxy.Platforms
