import DMProxy.Platforms.YY
import DMProxy.Transition.Machine

/-!
# The heartbeat timer of YY

`m_hb_timer` is null until the first `login` response.  It is cancelled by `close`, by
the close handler, and after an `init` packet could not be sent, and none of the three
looks at the pointer first.
-/

namespace DMProxy.Platforms.YY

open DMProxy.Async
open DMProxy.Network
open DMProxy.Text
open DMProxy.Transition

/-- A call into an instance: `close`, or a handler of its connection or of a timer. -/
inductive Call where
  | close
  | handle (answers : Answers) (event : Event)
  deriving DecidableEq, Repr

/-- What a call does to an instance. -/
def invoke (libraries : Libraries) (roomid : Bytes) (state : State) :
    Call → Option (State × List Effect)
  | .close => some (close state)
  | .handle answers event => step libraries roomid answers state event

/-- A started instance, and whether a null pointer has been dereferenced. -/
structure Process where
  platform : State
  faulted : Bool
  deriving DecidableEq, Repr

/-- The instance from its `start` on; nothing is known after a fault. -/
def machine (libraries : Libraries) (roomid : Bytes) (ec : Option ErrorCode) :
    Machine Process Call where
  init := ⟨(start ec .fresh).1, false⟩
  step process call :=
    if process.faulted then none
    else (invoke libraries roomid process.platform call).map fun result =>
      ⟨result.1, decide (.fault ∈ result.2)⟩

/-- The `response` member by which a message is dispatched; text that does not parse is
the null value. -/
def response (libraries : Libraries) (payload : Bytes) : Bytes :=
  (((libraries.parseJson payload).getD .null).member (ascii "response")).stringValue

/-- The call handles a `login` response. -/
def LogsIn (libraries : Libraries) : Call → Prop
  | .handle _ (.connection (.message _ payload)) => response libraries payload = ascii "login"
  | _ => False

/-- The call cancels the timer: it is `close`, the close handler, or it handles an `init`
response that comes in a binary frame or whose answer cannot be sent. -/
def Cancels (libraries : Libraries) (state : State) : Call → Prop
  | .close => True
  | .handle _ (.connection .terminated) => state.connection = .closed
  | .handle answers (.connection (.message opcode payload)) =>
      response libraries payload = ascii "init" ∧ (opcode = .binary ∨ answers.send.isSome = true)
  | _ => False

variable {libraries : Libraries} {roomid : Bytes} {answers : Answers} {state : State}
  {first second result : State × List Effect} {sets cancels : Prop}

/-- What a part of a handler does with the timer: it may set it, and it dereferences the
pointer exactly to cancel. -/
structure TimerUse (state : State) (result : State × List Effect) (sets cancels : Prop) :
    Prop where
  timer : result.1.hbTimer.isSome = true ↔ state.hbTimer.isSome = true ∨ sets
  timers : result.1.timers ≠ [] → state.timers ≠ [] ∨ sets
  fault : .fault ∈ result.2 ↔ cancels ∧ state.hbTimer = none

namespace TimerUse

theorem unused {effects : List Effect} (harmless : .fault ∉ effects) :
    TimerUse state (state, effects) False False where
  timer := by simp
  timers := by simp
  fault := by simpa using harmless

/-- The connection of an instance does not matter for its timer. -/
theorem of_connection {connection : ClientConnection}
    (use : TimerUse { state with connection := connection } result sets cancels) :
    TimerUse state result sets cancels :=
  ⟨use.timer, use.timers, use.fault⟩

/-- A part that does not touch the timer, followed by another one. -/
theorem after (before : TimerUse state first False False)
    (use : TimerUse first.1 second sets cancels) :
    TimerUse state (second.1, first.2 ++ second.2) sets cancels := by
  have same : first.1.hbTimer.isSome = true ↔ state.hbTimer.isSome = true := by
    simpa using before.timer
  constructor
  · rw [use.timer, same]
  · intro running
    rcases use.timers running with earlier | sets
    · exact .inl (by simpa using before.timers earlier)
    · exact .inr sets
  · have null : first.1.hbTimer = none ↔ state.hbTimer = none := by
      rw [← Option.not_isSome_iff_eq_none, ← Option.not_isSome_iff_eq_none, same]
    rw [List.mem_append, use.fault, before.fault, null]
    simp

theorem congr {sets' cancels' : Prop} (use : TimerUse state result sets cancels)
    (sets_iff : sets ↔ sets') (cancels_iff : cancels ↔ cancels') :
    TimerUse state result sets' cancels' := by
  rwa [← propext sets_iff, ← propext cancels_iff]

end TimerUse

theorem fault_notMem_clientReportWhenError (ec : Option ErrorCode) :
    .fault ∉ clientReportWhenError ec := by
  cases ec <;> simp [clientReportWhenError]

/-! ## The parts of the handlers -/

theorem timerUse_closeAndReport (ec : Option ErrorCode) (state : State) :
    TimerUse state (closeAndReport ec state) False False := by
  cases ec with
  | none => exact .unused List.not_mem_nil
  | some error =>
      have reports := fault_notMem_clientReportWhenError (some error)
      exact TimerUse.of_connection (.unused reports)

/-- A packet is sent, and a failure is reported. -/
theorem timerUse_send (answers : Answers) (ec : Option ErrorCode) (packet : Bytes)
    (state : State) :
    TimerUse state (closeAndReport (sendPacket answers ec packet state).2
      (sendPacket answers ec packet state).1) False False := by
  simp only [sendPacket]
  split
  next error _ => exact timerUse_closeAndReport (some error) state
  next => exact ⟨by simp [closeAndReport], by simp [closeAndReport], by simp [closeAndReport]⟩

theorem sendPacket_error (answers : Answers) (ec : Option ErrorCode) (packet : Bytes)
    (state : State) :
    (sendPacket answers ec packet state).2 = state.connection.send answers.send ec := by
  simp only [sendPacket]
  split
  next failed => exact failed.symm
  next accepted => exact accepted.symm

theorem timerUse_setHbTimer (state : State) :
    TimerUse state (setHbTimer state, []) True False where
  timer := by simp [setHbTimer]
  timers := by simp
  fault := by simp

theorem TimerUse.null {effects : List Effect} (null : cancelHbTimer state = none)
    (faults : .fault ∈ effects) : TimerUse state (state, effects) False True where
  timer := by simp
  timers := by simp
  fault := by
    simp only [cancelHbTimer, Option.map_eq_none_iff] at null
    simp [faults, null]

theorem TimerUse.cancelled {cancelled : State} {effects : List Effect}
    (held : cancelHbTimer state = some cancelled) (harmless : .fault ∉ effects) :
    TimerUse state (cancelled, effects) False True := by
  simp only [cancelHbTimer, Option.map_eq_some_iff] at held
  rcases held with ⟨timer, isSet, rfl⟩
  exact ⟨by simp, by simp, by simp [harmless, isSet]⟩

theorem timerUse_close (state : State) : TimerUse state (close state) False True := by
  simp only [close]
  split
  next null => exact .null null List.mem_cons_self
  next cancelled held =>
    have use := TimerUse.cancelled held
      (fault_notMem_clientReportWhenError cancelled.connection.close.2)
    exact ⟨use.timer, use.timers, use.fault⟩

theorem timerUse_onClientClose (state : State) :
    TimerUse state (onClientClose state) False True := by
  simp only [onClientClose]
  split
  next null => exact .null null (by simp)
  next cancelled held => exact .cancelled held (by simp)

theorem timerUse_onLogin (answers : Answers) (ec : Option ErrorCode) (state : State) :
    TimerUse state (onLogin answers ec state) True False := by
  have used := (timerUse_send answers ec newLoginPacket state).after (timerUse_setHbTimer _)
  rwa [List.append_nil] at used

theorem timerUse_onInit (roomid : Bytes) (answers : Answers) (ec : Option ErrorCode)
    (state : State) :
    TimerUse state (onInit roomid answers ec state) False
      ((state.connection.send answers.send ec).isSome = true) := by
  have reported := timerUse_send answers ec (newInitPacket roomid) state
  rw [← sendPacket_error answers ec (newInitPacket roomid)]
  simp only [onInit]
  split
  next failed =>
    simp only [failed]
    split
    next null => exact reported.after (.null null List.mem_cons_self)
    next cancelled held =>
      have used := reported.after (.cancelled held List.not_mem_nil)
      rwa [List.append_nil] at used
  next accepted => exact reported.congr Iff.rfl (by simp [accepted])

theorem fault_notMem_onChat (libraries : Libraries) (message : Json) :
    .fault ∉ onChat libraries message := by
  simp only [onChat]
  split
  next => exact List.not_mem_nil
  next =>
    split
    next => exact List.not_mem_nil
    next => simp

theorem timerUse_dispatch (roomid : Bytes) (answers : Answers) (ec : Option ErrorCode)
    (message : Json) (state : State) :
    TimerUse state (dispatch libraries roomid answers ec message state)
      ((message.member (ascii "response")).stringValue = ascii "login")
      ((message.member (ascii "response")).stringValue = ascii "init" ∧
        (state.connection.send answers.send ec).isSome = true) := by
  simp only [dispatch]
  split
  next login =>
    rw [login]
    exact (timerUse_onLogin answers ec state).congr (by simp)
      (by simp [show ascii "login" ≠ ascii "init" by decide])
  next other =>
    split
    next init =>
      exact (timerUse_onInit roomid answers ec state).congr (by simp [other]) (by simp [init])
    next different =>
      have idle : ∀ effects : List Effect, .fault ∉ effects →
          TimerUse state (state, effects)
            ((message.member (ascii "response")).stringValue = ascii "login")
            ((message.member (ascii "response")).stringValue = ascii "init" ∧
              (state.connection.send answers.send ec).isSome = true) := fun _ harmless =>
        (TimerUse.unused harmless).congr (by simp [other]) (by simp [different])
      split
      next => exact idle _ List.not_mem_nil
      next =>
        split
        next => exact idle _ (fault_notMem_onChat libraries message)
        next => exact idle _ List.not_mem_nil

theorem timerUse_onClientMessage (roomid : Bytes) (opcode : Opcode) (payload : Bytes)
    (answers : Answers) (isOpen : state.connection = .open) :
    TimerUse state (onClientMessage libraries roomid opcode payload answers state)
      (response libraries payload = ascii "login")
      (response libraries payload = ascii "init" ∧
        (opcode = .binary ∨ answers.send.isSome = true)) := by
  simp only [onClientMessage, response]
  have checked := timerUse_closeAndReport
    (if opcode ≠ .text then some .badMessage else none) state
  split
  next message parsed =>
    refine checked.after ((timerUse_dispatch ..).congr ?_ ?_)
    · rw [parsed, Option.getD_some]
    · rw [parsed, Option.getD_some]
      cases opcode <;> simp [closeAndReport, isOpen, ClientConnection.send, ClientConnection.close]
  next unparsed =>
    have reported := checked.after (timerUse_closeAndReport (some .badMessage) _)
    refine reported.after ((timerUse_dispatch ..).congr ?_ ?_)
    · rw [unparsed, Option.getD_none]
    · rw [unparsed, Option.getD_none]
      simp [Json.member, Json.stringValue, show [] ≠ ascii "init" by decide]

/-- A heartbeat may set the timer again, and never cancels it. -/
theorem timerUse_handleHeartbeat (answers : Answers) (ec : Option ErrorCode) (state : State) :
    ∃ sets, TimerUse state (handleHeartbeat answers ec state) sets False := by
  simp only [handleHeartbeat]
  split
  next error => exact ⟨False, timerUse_closeAndReport (some error) state⟩
  next =>
    have sent := timerUse_send answers none (heartbeat answers.time) state
    split
    next error failed =>
      rw [failed] at sent
      exact ⟨False, sent⟩
    next accepted =>
      rw [accepted] at sent
      exact ⟨True, sent.after (timerUse_setHbTimer _)⟩

/-! ## Calls and runs -/

/-- Every timer that has not fired was once stored in `m_hb_timer`. -/
def TimersStored (state : State) : Prop :=
  state.timers ≠ [] → state.hbTimer.isSome = true

theorem TimerUse.stored (use : TimerUse state result sets cancels)
    (stored : TimersStored state) : TimersStored result.1 := by
  intro running
  rw [use.timer]
  exact (use.timers running).imp_left stored

/-- An instance with a pending timer may set its timer again. -/
theorem TimerUse.again {timers : Pending TimerId Completion}
    (use : TimerUse { state with timers := timers } result sets cancels)
    (stored : TimersStored state) (running : state.timers ≠ []) :
    TimerUse state result False cancels where
  timer := by simp [use.timer, stored running]
  timers := fun _ => .inl running
  fault := use.fault

theorem timerUse_connectionStep {event : ClientEvent}
    (stepped : connectionStep libraries roomid answers state event = some result) :
    TimerUse state result (LogsIn libraries (.handle answers (.connection event)))
      (Cancels libraries state (.handle answers (.connection event))) := by
  have silent (connection : ClientConnection) : TimerUse state
      ({ state with connection := connection }, []) False False :=
    (TimerUse.unused List.not_mem_nil).of_connection
  cases event with
  | message opcode payload =>
      simp only [connectionStep] at stepped
      split at stepped
      next isOpen =>
        cases stepped
        exact timerUse_onClientMessage roomid opcode payload answers isOpen
      next => cases stepped
  | terminated =>
      simp only [connectionStep] at stepped
      split at stepped
      next ec failed =>
        cases stepped
        have reports := fault_notMem_clientReportWhenError ec
        exact (TimerUse.of_connection (.unused reports)).congr Iff.rfl (by simp [Cancels, failed])
      next closed =>
        cases stepped
        exact (timerUse_onClientClose _).of_connection.congr Iff.rfl (by simp [Cancels, closed])
      next => cases stepped
  | opened | closing | failed | closed | expire =>
      simp only [connectionStep] at stepped
      split at stepped
      next =>
        cases stepped
        exact silent _
      next => cases stepped

theorem timerUse_timerStep {progress : Progress Completion} (stored : TimersStored state)
    (stepped : timerStep answers state progress = some result) :
    TimerUse state result False False := by
  cases progress with
  | finish index completion =>
      simp only [timerStep, Option.map_eq_some_iff] at stepped
      rcases stepped with ⟨timers, finished, rfl⟩
      exact TimerUse.again (.unused List.not_mem_nil) stored (Pending.ne_nil_of_finish finished)
  | run index =>
      simp only [timerStep, Option.map_eq_some_iff] at stepped
      rcases stepped with ⟨⟨timer, completion, rest⟩, taken, rfl⟩
      rcases timerUse_handleHeartbeat answers completion.ec { state with timers := rest } with
        ⟨sets, use⟩
      exact use.again stored (List.ne_nil_of_mem (Pending.mem_of_take taken))

/-- What a call does with the timer. -/
theorem timerUse_invoke {call : Call} (stored : TimersStored state)
    (invoked : invoke libraries roomid state call = some result) :
    TimerUse state result (LogsIn libraries call) (Cancels libraries state call) := by
  cases call with
  | close =>
      cases invoked
      exact timerUse_close state
  | handle answers event =>
      cases event with
      | connection event => exact timerUse_connectionStep invoked
      | timer progress => exact timerUse_timerStep stored invoked

/-- The timer is set exactly if a `login` response has been handled. -/
def TimerTracked (libraries : Libraries) (source : List Call × Process) : Prop :=
  TimersStored source.2.platform ∧
    (source.2.platform.hbTimer.isSome = true ↔ ∃ login ∈ source.1, LogsIn libraries login)

theorem timerTracked_init (ec : Option ErrorCode) :
    TimerTracked libraries (machine libraries roomid ec).recording.init := by
  cases ec <;> simp [TimerTracked, TimersStored, machine, Machine.recording, start, State.fresh]

theorem invoke_of_step {ec : Option ErrorCode} {process next : Process} {call : Call}
    (stepped : (machine libraries roomid ec).step process call = some next) :
    ∃ effects, invoke libraries roomid process.platform call = some (next.platform, effects) ∧
      next.faulted = decide (.fault ∈ effects) := by
  simp only [machine] at stepped
  split at stepped
  next => cases stepped
  next =>
    simp only [Option.map_eq_some_iff] at stepped
    rcases stepped with ⟨⟨platform, effects⟩, invoked, rfl⟩
    exact ⟨effects, invoked, rfl⟩

theorem TimerTracked.step {ec : Option ErrorCode} {source next : List Call × Process}
    {call : Call} (tracked : TimerTracked libraries source)
    (stepped : (machine libraries roomid ec).recording.step source call = some next) :
    TimerTracked libraries next := by
  rcases Machine.step_recording.mp stepped with ⟨taken, history⟩
  rcases invoke_of_step taken with ⟨effects, invoked, -⟩
  have use := timerUse_invoke tracked.1 invoked
  refine ⟨use.stored tracked.1, ?_⟩
  rw [use.timer, tracked.2, history]
  simp [or_and_right, exists_or]

/-- A call faults exactly if it cancels the timer before any `login` response. -/
theorem TimerTracked.faulted {ec : Option ErrorCode} {source next : List Call × Process}
    {call : Call} (tracked : TimerTracked libraries source)
    (stepped : (machine libraries roomid ec).recording.step source call = some next) :
    next.2.faulted = false ↔ (Cancels libraries source.2.platform call →
      ∃ login ∈ source.1, LogsIn libraries login) := by
  rcases Machine.step_recording.mp stepped with ⟨taken, -⟩
  rcases invoke_of_step taken with ⟨effects, invoked, faults⟩
  have use := timerUse_invoke tracked.1 invoked
  rw [faults, decide_eq_false_iff_not, use.fault, ← tracked.2, not_and,
    ← Option.not_isSome_iff_eq_none, not_not]

/-- No call dereferences the null pointer exactly along the runs in which every call that
cancels the timer comes after a `login` response. -/
theorem timerSet_along_iff (libraries : Libraries) (roomid : Bytes) (ec : Option ErrorCode)
    (calls : List Call) :
    (machine libraries roomid ec).Along (fun _ _ next => next.faulted = false)
        (machine libraries roomid ec).init calls ↔
      (machine libraries roomid ec).recording.Along
        (fun source call _ => Cancels libraries source.2.platform call →
          ∃ login ∈ source.1, LogsIn libraries login)
        (machine libraries roomid ec).recording.init calls := by
  rw [← Machine.along_recording]
  exact Machine.along_iff_of_invariant (TimerTracked libraries)
    (fun tracked stepped => tracked.step stepped)
    (fun tracked stepped => tracked.faulted stepped) (timerTracked_init ec)

/-- An instance is closed before its connection is established. -/
theorem not_timerSet_along :
    ¬ ∀ (libraries : Libraries) (roomid : Bytes) (ec : Option ErrorCode) (calls : List Call),
      (machine libraries roomid ec).Along (fun _ _ next => next.faulted = false)
        (machine libraries roomid ec).init calls := by
  intro along
  have closed := (along default (ascii "1") none [.close] _ rfl).1
  cases closed

end DMProxy.Platforms.YY
