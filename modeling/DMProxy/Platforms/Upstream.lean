import DMProxy.Platforms.Bilibili
import DMProxy.Platforms.Douyu
import DMProxy.Platforms.Huajiao
import DMProxy.Platforms.YY

/-!
# The platforms behind their common interface

`platform_base` declares `start`, `close` and `is_room_valid` virtual.  `Upstream` is
the state of an instance of any of the four platforms, and the creator table maps the
tag of a request to a fresh one.
-/

namespace DMProxy.Platforms

open DMProxy.Async
open DMProxy.Network
open DMProxy.Text

/-- The upstream state of an instance. -/
inductive Upstream where
  | huajiao (state : Huajiao.State)
  | douyu (state : Douyu.State)
  | bilibili (state : Bilibili.State)
  | YY (state : YY.State)
  deriving DecidableEq, Repr

/-- What the environment does to an instance, with what it decides meanwhile. -/
inductive UpstreamEvent where
  | huajiao (outcome : Option ErrorCode) (event : ClientEvent)
  | douyu (progress : Progress Completion)
  | bilibili (uid : Nat) (progress : Progress Completion)
  | YY (answers : YY.Answers) (event : YY.Event)
  deriving DecidableEq, Repr

/-- The event is one of a websocket connection, whose handlers run one after the other on its
strand. -/
def UpstreamEvent.onStrand : UpstreamEvent → Bool
  | .huajiao _ _ | .YY _ (.connection _) => true
  | .douyu _ | .bilibili _ _ | .YY _ (.timer _) => false

namespace Upstream

/-- `m_platform_name`, as the constructors of the platforms pass it on. -/
def platformName : Upstream → Bytes
  | .huajiao _ => ascii "huajiao"
  | .douyu _ => ascii "douyu"
  | .bilibili _ => ascii "bilibili"
  | .YY _ => ascii "YY"

/-- `is_room_valid`. -/
def isRoomValid (roomid : Bytes) : Upstream → Bool
  | .huajiao _ => Huajiao.isRoomValid roomid
  | .douyu _ => Douyu.isRoomValid roomid
  | .bilibili _ => Bilibili.isRoomValid roomid
  | .YY _ => YY.isRoomValid roomid

/-- `start`; `ec` is the error code `client.get_connection` gives, where it is
called. -/
def start (roomid : Bytes) (ec : Option ErrorCode) : Upstream → Upstream × List Effect
  | .huajiao state =>
      let started := Huajiao.start ec state
      (.huajiao started.1, started.2)
  | .douyu state => (.douyu (Douyu.start state), [])
  | .bilibili state => (.bilibili (Bilibili.start roomid state), [])
  | .YY state =>
      let started := YY.start ec state
      (.YY started.1, started.2)

/-- `close`. -/
def close : Upstream → Upstream × List Effect
  | .huajiao state =>
      let closed := Huajiao.close state
      (.huajiao closed.1, closed.2)
  | .douyu state => (.douyu (Douyu.close state), [])
  | .bilibili state => (.bilibili (Bilibili.close state), [])
  | .YY state =>
      let closed := YY.close state
      (.YY closed.1, closed.2)

/-- An event of the upstream side, with the handler that runs. -/
def step (libraries : Libraries) (roomid : Bytes) :
    Upstream → UpstreamEvent → Option (Upstream × List Effect)
  | .huajiao state, .huajiao outcome event =>
      (Huajiao.step libraries roomid outcome state event).map fun result =>
        (.huajiao result.1, result.2)
  | .douyu state, .douyu progress =>
      (Douyu.step roomid state progress).map fun result => (.douyu result.1, result.2)
  | .bilibili state, .bilibili uid progress =>
      (Bilibili.step libraries roomid uid state progress).map fun result =>
        (.bilibili result.1, result.2)
  | .YY state, .YY answers event =>
      (YY.step libraries roomid answers state event).map fun result =>
        (.YY result.1, result.2)
  | _, _ => none

/-- The state in which an event leaves the instance if its handler calls the close callback and
does not come back from it. -/
def stalled (libraries : Libraries) : Upstream → UpstreamEvent → Upstream
  | .huajiao state, .huajiao _ event => .huajiao (Huajiao.stalled libraries state event)
  | .douyu state, .douyu progress => .douyu (Douyu.stalled state progress)
  | .bilibili state, .bilibili _ progress => .bilibili (Bilibili.stalled state progress)
  | .YY state, .YY _ event => .YY (YY.stalled state event)
  | upstream, _ => upstream

/-- Whether an asynchronous operation of the instance is pending. -/
def pending : Upstream → Bool
  | .huajiao state => state.connection.pending
  | .douyu state => !state.pending.isEmpty
  | .bilibili state => !state.io.pending.isEmpty
  | .YY state => state.connection.pending || !state.timers.isEmpty

/-- Whether the platform reaches its server through `client`, whose calls can report
an error at once. -/
def usesClient : Upstream → Bool
  | .huajiao _ | .YY _ => true
  | .douyu _ | .bilibili _ => false

/-- `close` finds the connection in a state in which `client.close` fails. -/
def closeFails : Upstream → Bool
  | .huajiao state => state.connection != .open
  | .YY state => state.hbTimer.isSome && state.connection != .open
  | .douyu _ | .bilibili _ => false

/-- `close` dereferences a timer that was never set. -/
def closeFaults : Upstream → Bool
  | .YY state => state.hbTimer.isNone
  | .huajiao _ | .douyu _ | .bilibili _ => false

theorem start_effects (roomid : Bytes) (ec : Option ErrorCode) (upstream : Upstream) :
    (upstream.start roomid ec).2 =
      if upstream.usesClient then clientReportWhenError ec else [] := by
  cases upstream <;> cases ec <;> rfl

/-- The three things `close` can do to the rest of the program. -/
theorem close_effects (upstream : Upstream) :
    ∃ error, upstream.close.2 =
      if upstream.closeFaults then [.fault]
      else if upstream.closeFails then clientReportWhenError (some error)
      else [] := by
  cases upstream with
  | huajiao state =>
      rcases state.connection.close_verdict with ⟨error, verdict⟩
      refine ⟨error, ?_⟩
      simp only [close, Huajiao.close, closeFaults, closeFails, verdict]
      by_cases isOpen : state.connection = .open <;>
        simp [isOpen, clientReportWhenError]
  | douyu state => exact ⟨.eof, rfl⟩
  | bilibili state => exact ⟨.eof, rfl⟩
  | YY state =>
      rcases state.connection.close_verdict with ⟨error, verdict⟩
      refine ⟨error, ?_⟩
      cases timer : state.hbTimer with
      | none => simp [close, YY.close, YY.cancelHbTimer, closeFaults, timer]
      | some _ =>
          simp only [close, YY.close, YY.cancelHbTimer, closeFaults, closeFails, timer,
            Option.map_some, verdict]
          by_cases isOpen : state.connection = .open <;>
            simp [isOpen, clientReportWhenError]

/-! ## The platform of an instance is fixed -/

/-- Two states of instances of one platform. -/
inductive SamePlatform : Upstream → Upstream → Prop where
  | huajiao (before after : Huajiao.State) : SamePlatform (.huajiao before) (.huajiao after)
  | douyu (before after : Douyu.State) : SamePlatform (.douyu before) (.douyu after)
  | bilibili (before after : Bilibili.State) : SamePlatform (.bilibili before) (.bilibili after)
  | YY (before after : YY.State) : SamePlatform (.YY before) (.YY after)

theorem samePlatform_start (roomid : Bytes) (ec : Option ErrorCode) (upstream : Upstream) :
    SamePlatform upstream (upstream.start roomid ec).1 := by
  cases upstream <;> constructor

theorem samePlatform_close (upstream : Upstream) : SamePlatform upstream upstream.close.1 := by
  cases upstream <;> constructor

theorem samePlatform_step {libraries : Libraries} {roomid : Bytes} {event : UpstreamEvent}
    {upstream upstream' : Upstream} {effects : List Effect}
    (stepped : upstream.step libraries roomid event = some (upstream', effects)) :
    SamePlatform upstream upstream' := by
  cases upstream <;> cases event <;>
    simp only [step, Option.map_eq_some_iff, reduceCtorEq] at stepped
  all_goals
    rcases stepped with ⟨result, -, equal⟩
    cases equal
    constructor

theorem samePlatform_stalled (libraries : Libraries) (upstream : Upstream)
    (event : UpstreamEvent) : SamePlatform upstream (upstream.stalled libraries event) := by
  cases upstream <;> cases event <;> constructor

end Upstream

/-- `platform_creator_table`: the tags, and what their creators make. -/
def platformCreatorTable : List (Bytes × Upstream) :=
  [(ascii "huajiao", .huajiao .fresh), (ascii "douyu", .douyu .fresh),
    (ascii "bilibili", .bilibili .fresh), (ascii "YY", .YY .fresh)]

/-- `platform_get_instance`; `none` is the null pointer. -/
def platformGetInstance (tag : Bytes) : Option Upstream :=
  (platformCreatorTable.find? fun entry => entry.1 == tag).map Prod.snd

theorem mem_platformCreatorTable {tag : Bytes} {upstream : Upstream}
    (created : platformGetInstance tag = some upstream) :
    (tag, upstream) ∈ platformCreatorTable := by
  simp only [platformGetInstance, Option.map_eq_some_iff] at created
  rcases created with ⟨⟨name, made⟩, found, rfl⟩
  have matched := List.find?_some found
  simp only [beq_iff_eq] at matched
  subst matched
  exact List.mem_of_find?_eq_some found

/-- The creator of a tag makes an instance of the platform of that name. -/
theorem platformName_of_getInstance {tag : Bytes} {upstream : Upstream}
    (created : platformGetInstance tag = some upstream) : upstream.platformName = tag := by
  have listed := mem_platformCreatorTable created
  simp only [platformCreatorTable, List.mem_cons, List.not_mem_nil, or_false,
    Prod.mk.injEq] at listed
  rcases listed with ⟨rfl, rfl⟩ | ⟨rfl, rfl⟩ | ⟨rfl, rfl⟩ | ⟨rfl, rfl⟩ <;> rfl

/-- The tags of the creator table have no underscore, and at least two characters. -/
theorem separator_notMem_of_getInstance {tag : Bytes} {upstream : Upstream}
    (created : platformGetInstance tag = some upstream) : 95 ∉ tag ∧ 2 ≤ tag.length := by
  rw [← platformName_of_getInstance created]
  cases upstream <;> simp only [Upstream.platformName] <;> decide

end DMProxy.Platforms
