import DMProxy.Async.RwLock
import DMProxy.Platforms.Base
import DMProxy.Transition.Machine

/-!
# The lock of the listeners

The operations on the listeners of a platform are called by any number of threads.  Each of
them takes `m_lmtx` first and gives it back when it returns; `publish`, which erases the
listeners it could not send to, takes it in shared mode.
-/

namespace DMProxy.Platforms

open DMProxy.Async
open DMProxy.Network
open DMProxy.Text
open DMProxy.Transition

/-! ## The operations in steps -/

/-- A call of an operation on the listeners. -/
inductive ListenerCall where
  | addListener (connHdl : ConnectionHdl)
  | eraseListener (connHdl : ConnectionHdl)
  | haveListener (connHdl : ConnectionHdl)
  | listenersCount
  | publish (dmMsg : Bytes)
  deriving DecidableEq, Repr

/-- `wlock_t` or `rlock_t`, as the operation declares. -/
def ListenerCall.mode : ListenerCall → Mode
  | .addListener _ | .eraseListener _ => .exclusive
  | .haveListener _ | .listenersCount | .publish _ => .shared

/-- What an operation returns. -/
inductive Returned where
  | nothing
  | found (present : Bool)
  | size (count : Nat)
  deriving DecidableEq, Repr

/-- How far a call has come that holds the lock. -/
inductive Stage where
  | entered
  /-- the first loop of `publish`: the listeners it has not visited, and its variables -/
  | sending (rest : List ConnectionHdl) (ec : Option ErrorCode)
      (toBeDeleted : List ConnectionHdl)
  /-- the second loop of `publish` -/
  | erasing (toBeDeleted : List ConnectionHdl)
  | done (returned : Returned)
  deriving DecidableEq, Repr

/-- The listeners to which a message could not be sent. -/
def Stage.unsent : Stage → List ConnectionHdl
  | .sending _ _ toBeDeleted | .erasing toBeDeleted => toBeDeleted
  | .entered | .done _ => []

/-- A call that holds the lock. -/
structure RunningCall where
  call : ListenerCall
  stage : Stage
  deriving DecidableEq, Repr

/-- The next step of the call inserts into the listeners or erases from them. -/
def RunningCall.changes : RunningCall → Bool
  | ⟨.addListener _, .entered⟩ | ⟨.eraseListener _, .entered⟩
  | ⟨.publish _, .erasing (_ :: _)⟩ => true
  | _ => false

/-- The next step of the call erases a listener to which a message could not be sent. -/
def RunningCall.erasesUnsent : RunningCall → Bool
  | ⟨.publish _, .erasing (_ :: _)⟩ => true
  | _ => false

/-- What the threads share, and the call each of them has the lock for. -/
structure LockedListeners where
  listeners : Listeners
  server : Server
  threads : List (Option RunningCall)

/-- What happens next. -/
inductive ListenerEvent where
  /-- A thread obtains the lock for a call. -/
  | acquire (thread : Nat) (call : ListenerCall)
  /-- A thread makes the next step of its call. -/
  | advance (thread : Nat) (outcome : SendOutcome)
  /-- A thread gives the lock back and returns from its call. -/
  | release (thread : Nat)
  /-- The rest of the program changes the connections. -/
  | elsewhere (server : Server)

namespace LockedListeners

/-- How each thread holds `m_lmtx`. -/
def holders (state : LockedListeners) : Holders :=
  state.threads.map fun running => running.map fun running => running.call.mode

/-- The next step of a call. -/
def advance (state : LockedListeners) (thread : Nat) (outcome : SendOutcome) :
    RunningCall → Option LockedListeners
  | ⟨.addListener connHdl, .entered⟩ =>
      some { state with
        listeners := state.listeners.insert connHdl
        threads := state.threads.set thread (some ⟨.addListener connHdl, .done .nothing⟩) }
  | ⟨.eraseListener connHdl, .entered⟩ =>
      some { state with
        listeners := state.listeners.erase connHdl
        threads := state.threads.set thread (some ⟨.eraseListener connHdl, .done .nothing⟩) }
  | ⟨.haveListener connHdl, .entered⟩ =>
      some { state with
        threads := state.threads.set thread
          (some ⟨.haveListener connHdl, .done (.found (connHdl ∈ state.listeners))⟩) }
  | ⟨.listenersCount, .entered⟩ =>
      some { state with
        threads := state.threads.set thread
          (some ⟨.listenersCount, .done (.size state.listeners.size)⟩) }
  | ⟨.publish dmMsg, .entered⟩ =>
      some { state with
        threads := state.threads.set thread
          (some ⟨.publish dmMsg, .sending state.listeners.toList none []⟩) }
  | ⟨.publish dmMsg, .sending (listener :: rest) ec toBeDeleted⟩ =>
      -- one error code serves all listeners
      let sent := state.server.send outcome listener dmMsg ec
      let deleted := if sent.2.isSome then toBeDeleted ++ [listener] else toBeDeleted
      some { state with
        server := sent.1.closeAndReportWhenError sent.2 listener
        threads := state.threads.set thread
          (some ⟨.publish dmMsg, .sending rest sent.2 deleted⟩) }
  | ⟨.publish dmMsg, .sending [] _ toBeDeleted⟩ =>
      some { state with
        threads := state.threads.set thread (some ⟨.publish dmMsg, .erasing toBeDeleted⟩) }
  | ⟨.publish dmMsg, .erasing (listener :: rest)⟩ =>
      -- `m_lmtx` is still held by an `rlock_t`
      some { state with
        listeners := state.listeners.erase listener
        threads := state.threads.set thread (some ⟨.publish dmMsg, .erasing rest⟩) }
  | ⟨.publish dmMsg, .erasing []⟩ =>
      some { state with
        threads := state.threads.set thread (some ⟨.publish dmMsg, .done .nothing⟩) }
  | _ => none

/-- The call for which a thread holds the lock. -/
def running (state : LockedListeners) (thread : Nat) : Option RunningCall :=
  state.threads[thread]?.join

/-- Any number of threads that hold no lock yet.  A `shared_mutex` may also keep readers
waiting while a writer waits, so that some of these runs do not happen. -/
def machine (listeners : Listeners) (server : Server) (threads : Nat) :
    Machine LockedListeners ListenerEvent where
  init := ⟨listeners, server, List.replicate threads none⟩
  step state
    | .acquire thread call =>
        if state.threads[thread]? = some none ∧ state.holders.Grants call.mode then
          some { state with threads := state.threads.set thread (some ⟨call, .entered⟩) }
        else none
    | .advance thread outcome => (state.running thread).bind (state.advance thread outcome)
    | .release thread =>
        match state.running thread with
        | some ⟨_, .done _⟩ => some { state with threads := state.threads.set thread none }
        | _ => none
    | .elsewhere server => some { state with server := server }

variable {state next : LockedListeners} {thread : Nat} {outcome : SendOutcome}
  {running : RunningCall} {event : ListenerEvent} {listeners : Listeners} {server : Server}
  {threads : Nat}

/-- A step of a call keeps the call and leaves the other threads alone. -/
theorem threads_of_advance (stepped : state.advance thread outcome running = some next) :
    ∃ stage, next.threads = state.threads.set thread (some ⟨running.call, stage⟩) := by
  simp only [advance] at stepped
  split at stepped
  all_goals cases stepped
  all_goals exact ⟨_, rfl⟩

theorem running_eq_some : state.running thread = some running ↔
    state.threads[thread]? = some (some running) := by
  simp [LockedListeners.running, Option.join_eq_some_iff]

theorem holders_of_running (found : state.running thread = some running) :
    state.holders[thread]? = some (some running.call.mode) := by
  rw [running_eq_some] at found
  simp [holders, found]

/-- No step of a call takes the lock or gives it back. -/
theorem holders_of_advance (found : state.running thread = some running)
    (advanced : state.advance thread outcome running = some next) :
    next.holders = state.holders := by
  rcases threads_of_advance advanced with ⟨stage, changed⟩
  rcases List.getElem?_eq_some_iff.mp (holders_of_running found) with ⟨inside, held⟩
  simp only [holders, changed, List.map_set, Option.map_some]
  rw [← held]
  exact List.set_getElem_self inside

/-- What a step can do. -/
inductive Taken (state : LockedListeners) : ListenerEvent → LockedListeners → Prop where
  | acquired {thread : Nat} {call : ListenerCall} (idle : state.threads[thread]? = some none)
      (grants : state.holders.Grants call.mode) :
      Taken state (.acquire thread call)
        { state with threads := state.threads.set thread (some ⟨call, .entered⟩) }
  | advanced {thread : Nat} {outcome : SendOutcome} {running : RunningCall}
      {next : LockedListeners} (found : state.running thread = some running)
      (advanced : state.advance thread outcome running = some next) :
      Taken state (.advance thread outcome) next
  | released {thread : Nat} {call : ListenerCall} {returned : Returned}
      (found : state.running thread = some ⟨call, .done returned⟩) :
      Taken state (.release thread) { state with threads := state.threads.set thread none }
  | elsewhere {server : Server} : Taken state (.elsewhere server) { state with server := server }

theorem taken (stepped : (machine listeners server threads).step state event = some next) :
    Taken state event next := by
  cases event with
  | acquire thread call =>
      simp only [machine] at stepped
      split at stepped
      next granted =>
        cases stepped
        exact .acquired granted.1 granted.2
      next => cases stepped
  | advance thread outcome =>
      rcases Option.bind_eq_some_iff.mp stepped with ⟨running, found, advanced⟩
      exact .advanced found advanced
  | release thread =>
      simp only [machine] at stepped
      split at stepped
      next call returned found =>
        cases stepped
        exact .released found
      next => cases stepped
  | elsewhere server =>
      cases stepped
      exact .elsewhere

theorem notMem_init : some running ∉ (machine listeners server threads).init.threads := by
  simp [machine]

/-! ## The lock is kept -/

theorem compatible_init : (machine listeners server threads).init.holders.Compatible := by
  refine Holders.compatible_of_free ?_
  simp [machine, holders]

/-- Whatever is interleaved, the lock is held by one writer or by readers. -/
theorem compatible_step (compatible : state.holders.Compatible)
    (stepped : (machine listeners server threads).step state event = some next) :
    next.holders.Compatible := by
  cases taken stepped with
  | acquired idle grants =>
      simp only [holders, List.map_set, Option.map_some]
      exact Holders.Compatible.acquire grants _
  | advanced found advanced =>
      rw [holders_of_advance found advanced]
      exact compatible
  | released found =>
      simp only [holders, List.map_set, Option.map_none]
      exact compatible.release _
  | elsewhere => exact compatible

/-! ## Who changes the listeners -/

/-- The listeners are changed only while no other thread is between acquire and release. -/
def ChangesAlone (state : LockedListeners) : ListenerEvent → LockedListeners → Prop
  | .advance thread _, _ =>
      (state.running thread).any RunningCall.changes → state.holders.Alone thread
  | .acquire _ _, _ | .release _, _ | .elsewhere _, _ => True

/-- No thread reads the listeners when `publish` erases one. -/
def ErasesUnread (state : LockedListeners) : ListenerEvent → LockedListeners → Prop
  | .advance thread _, _ =>
      (state.running thread).any RunningCall.erasesUnsent →
        some .shared ∉ state.holders.eraseIdx thread
  | .acquire _ _, _ | .release _, _ | .elsewhere _, _ => True

instance (state : LockedListeners) (event : ListenerEvent) (next : LockedListeners) :
    Decidable (state.ChangesAlone event next) :=
  match event with
  | .advance thread _ =>
      inferInstanceAs (Decidable
        ((state.running thread).any RunningCall.changes → state.holders.Alone thread))
  | .acquire _ _ | .release _ | .elsewhere _ => isTrue trivial

theorem listeners_of_advance (advanced : state.advance thread outcome running = some next)
    (quiet : running.changes = false) : next.listeners = state.listeners := by
  simp only [advance] at advanced
  split at advanced
  all_goals cases advanced
  all_goals
    first
    | rfl
    | cases quiet

/-- Only `publish` changes the listeners without being a writer. -/
theorem changes_cases (changes : running.changes = true) :
    running.call.mode = .exclusive ∧ running.erasesUnsent = false ∨
      running.call.mode = .shared ∧ running.erasesUnsent = true := by
  rcases running with ⟨call, stage⟩
  simp only [RunningCall.changes] at changes
  split at changes
  next entered =>
    cases entered
    exact .inl ⟨rfl, rfl⟩
  next entered =>
    cases entered
    exact .inl ⟨rfl, rfl⟩
  next erasing =>
    cases erasing
    exact .inr ⟨rfl, rfl⟩
  next => cases changes

theorem changes_of_erasesUnsent (erases : running.erasesUnsent = true) :
    running.changes = true := by
  simp only [RunningCall.erasesUnsent] at erases
  split at erases
  next => rfl
  next => cases erases

theorem changesAlone_iff (compatible : state.holders.Compatible) :
    state.ChangesAlone event next ↔ state.ErasesUnread event next := by
  cases event with
  | acquire | release | elsewhere => exact Iff.rfl
  | advance thread outcome =>
      simp only [ChangesAlone, ErasesUnread]
      cases found : state.running thread with
      | none => simp
      | some running =>
          have held := holders_of_running found
          simp only [Option.any_some]
          constructor
          · intro alone erases
            have changes := changes_of_erasesUnsent erases
            rcases changes_cases changes with ⟨_, quiet⟩ | ⟨shared, _⟩
            · cases quiet.symm.trans erases
            · rw [shared] at held
              exact (compatible.alone_iff_of_shared held).mp (alone changes)
          · intro unread changes
            rcases changes_cases changes with ⟨exclusive, _⟩ | ⟨shared, erases⟩
            · rw [exclusive] at held
              exact compatible thread held
            · rw [shared] at held
              exact (compatible.alone_iff_of_shared held).mpr (unread erases)

/-- Listeners are changed under exclusive access exactly if `publish` never erases one while
another thread reads them. -/
theorem along_changesAlone_iff (listeners : Listeners) (server : Server) (threads : Nat)
    (events : List ListenerEvent) :
    (machine listeners server threads).Along ChangesAlone
        (machine listeners server threads).init events ↔
      (machine listeners server threads).Along ErasesUnread
        (machine listeners server threads).init events :=
  Machine.along_iff_of_invariant (fun state => state.holders.Compatible) compatible_step
    (fun compatible _ => changesAlone_iff compatible) compatible_init

/-- A listener whose connection is gone. -/
def expiredServer : Server :=
  Server.put (fun _ => none) 7 { ServerConnection.accepted with state := .closed, expired := true }

/-- A message to that listener, while another thread counts the listeners. -/
def countedWhilePublishing : List ListenerEvent :=
  let publishes := .advance 0 fun _ _ => none
  [.acquire 0 (.publish [0x68, 0x69]), publishes, publishes, publishes,
    .acquire 1 .listenersCount, publishes]

/-- `publish` erases the listener under the eyes of a reader. -/
theorem not_along_changesAlone :
    ¬(machine (.insert 7 .empty) expiredServer 2).Along ChangesAlone
        (machine (.insert 7 .empty) expiredServer 2).init countedWhilePublishing := by
  decide

/-! ## What follows for `publish` -/

/-- What the first loop of `publish` has yet to visit is the rest of the listeners. -/
def IteratorsValid (state : LockedListeners) : Prop :=
  ∀ call rest ec toBeDeleted, some ⟨call, .sending rest ec toBeDeleted⟩ ∈ state.threads →
    rest <:+ state.listeners.toList

theorem sending_of_advance (advanced : state.advance thread outcome running = some next)
    (valid : ∀ rest ec toBeDeleted, running.stage = .sending rest ec toBeDeleted →
      rest <:+ state.listeners.toList) :
    ∃ stage, next.threads = state.threads.set thread (some ⟨running.call, stage⟩) ∧
      ∀ rest ec toBeDeleted, stage = .sending rest ec toBeDeleted →
        rest <:+ state.listeners.toList ∧ running.changes = false := by
  simp only [advance] at advanced
  split at advanced
  all_goals cases advanced
  all_goals
    refine ⟨_, rfl, ?_⟩
    intro rest ec toBeDeleted sending
    cases sending
  · exact ⟨List.suffix_rfl, rfl⟩
  · exact ⟨(List.suffix_cons _ _).trans (valid _ _ _ rfl), rfl⟩

/-- Under exclusive access, no loop of `publish` is at a listener that has been erased. -/
theorem iteratorsValid_step (valid : state.IteratorsValid)
    (stepped : (machine listeners server threads).step state event = some next)
    (alone : state.ChangesAlone event next) : next.IteratorsValid := by
  intro call rest ec toBeDeleted member
  cases taken stepped with
  | acquired idle grants =>
      rcases List.mem_or_eq_of_mem_set member with before | new
      · exact valid call rest ec toBeDeleted before
      · cases new
  | released found =>
      rcases List.mem_or_eq_of_mem_set member with before | new
      · exact valid call rest ec toBeDeleted before
      · cases new
  | elsewhere => exact valid call rest ec toBeDeleted member
  | @advanced thread outcome running next found advanced =>
      have located := running_eq_some.mp found
      have here : ∀ rest ec toBeDeleted, running.stage = .sending rest ec toBeDeleted →
          rest <:+ state.listeners.toList := by
        intro rest ec toBeDeleted sending
        refine valid running.call rest ec toBeDeleted ?_
        rw [← sending]
        exact List.mem_of_getElem? located
      rcases sending_of_advance advanced here with ⟨stage, changed, own⟩
      rw [changed] at member
      rcases List.mem_iff_getElem?.mp member with ⟨other, there⟩
      rcases getElem?_set_cases there with ⟨_, new⟩ | ⟨differs, before⟩
      · cases new
        rw [listeners_of_advance advanced (own _ _ _ rfl).2]
        exact (own _ _ _ rfl).1
      · cases changes : running.changes with
        | true =>
            have only : state.holders.Alone thread := by
              refine alone ?_
              rw [found]
              exact changes
            have held := holders_of_running (running_eq_some.mpr before)
            cases only _ (List.mem_eraseIdx_iff_getElem?.mpr ⟨other, Ne.symm differs, held⟩)
        | false =>
            rw [listeners_of_advance advanced changes]
            exact valid call rest ec toBeDeleted (List.mem_of_getElem? before)

theorem along_iteratorsValid {events : List ListenerEvent}
    (alone : (machine listeners server threads).Along ChangesAlone
      (machine listeners server threads).init events) :
    (machine listeners server threads).Along (fun _ _ next => next.IteratorsValid)
      (machine listeners server threads).init events := by
  refine Machine.Along.of_invariant IteratorsValid ?_ ?_ alone
  · intro state next event valid stepped alone
    have still := iteratorsValid_step valid stepped alone
    exact ⟨still, still⟩
  · intro call rest ec toBeDeleted member
    exact absurd member notMem_init

/-- If the step visits a listener, then the message is sent to it. -/
def Sends (state : LockedListeners) : ListenerEvent → LockedListeners → Prop
  | .advance thread outcome, _ =>
      ∀ dmMsg listener rest ec toBeDeleted,
        state.running thread = some ⟨.publish dmMsg, .sending (listener :: rest) ec toBeDeleted⟩ →
        (state.server.send outcome listener dmMsg ec).2 = none
  | .acquire _ _, _ | .release _, _ | .elsewhere _, _ => True

/-- No call has a listener to erase. -/
def AllSent (state : LockedListeners) : Prop :=
  ∀ running, some running ∈ state.threads → running.stage.unsent = []

theorem unsent_of_advance (found : state.running thread = some running)
    (advanced : state.advance thread outcome running = some next)
    (sends : state.Sends (.advance thread outcome) next) (sent : running.stage.unsent = []) :
    ∃ stage, next.threads = state.threads.set thread (some ⟨running.call, stage⟩) ∧
      stage.unsent = [] := by
  simp only [advance] at advanced
  split at advanced
  all_goals cases advanced
  all_goals
    refine ⟨_, rfl, ?_⟩
    first
    | rfl
    | exact sent
    | rw [sends _ _ _ _ _ found]
      exact sent
    | cases sent

theorem allSent_step (allSent : state.AllSent)
    (stepped : (machine listeners server threads).step state event = some next)
    (sends : state.Sends event next) : next.AllSent := by
  intro other member
  cases taken stepped with
  | acquired idle grants =>
      rcases List.mem_or_eq_of_mem_set member with before | new
      · exact allSent other before
      · cases new
        rfl
  | released found =>
      rcases List.mem_or_eq_of_mem_set member with before | new
      · exact allSent other before
      · cases new
  | elsewhere => exact allSent other member
  | advanced found advanced =>
      have sent := allSent _ (List.mem_of_getElem? (running_eq_some.mp found))
      rcases unsent_of_advance found advanced sends sent with ⟨stage, changed, quiet⟩
      rw [changed] at member
      rcases List.mem_or_eq_of_mem_set member with before | new
      · exact allSent other before
      · cases new
        exact quiet

theorem erasesUnread_of_allSent (allSent : state.AllSent) : state.ErasesUnread event next := by
  cases event with
  | acquire | release | elsewhere => trivial
  | advance thread outcome =>
      intro erases
      rcases (Option.any_eq_true _ _).mp erases with ⟨running, found, erases⟩
      have sent := allSent running (List.mem_of_getElem? (running_eq_some.mp found))
      simp only [RunningCall.erasesUnsent] at erases
      split at erases
      next => cases sent
      next => cases erases

/-- As long as every message is sent, the listeners are changed under exclusive access. -/
theorem along_changesAlone_of_sends {events : List ListenerEvent}
    (sends : (machine listeners server threads).Along Sends
      (machine listeners server threads).init events) :
    (machine listeners server threads).Along ChangesAlone
      (machine listeners server threads).init events := by
  refine Machine.Along.of_invariant (fun state => state.holders.Compatible ∧ state.AllSent) ?_
    ⟨compatible_init, ?_⟩ sends
  · intro state next event holds stepped sent
    exact ⟨⟨compatible_step holds.1 stepped, allSent_step holds.2 stepped sent⟩,
      (changesAlone_iff holds.1).mpr (erasesUnread_of_allSent holds.2)⟩
  · intro running member
    exact absurd member notMem_init

/-! ## `publish` without interruption -/

variable {calls : List (Option RunningCall)} {dmMsg : Bytes} {first : Listeners}
  {before : Server}

theorem exec_advance {events : List ListenerEvent} (inside : thread < calls.length)
    (advanced : advance ⟨listeners, server, calls.set thread (some running)⟩ thread outcome running
      = some next) :
    (machine first before threads).exec
        ⟨listeners, server, calls.set thread (some running)⟩ (.advance thread outcome :: events) =
      (machine first before threads).exec next events := by
  refine Machine.exec_cons _ events ?_
  simp only [machine, LockedListeners.running, List.getElem?_set_self inside, Option.join_some,
    Option.bind_some]
  exact advanced

theorem exec_erasing (inside : thread < calls.length) (listeners : Listeners)
    (toBeDeleted : List ConnectionHdl) :
    ∃ steps, (machine first before threads).exec
        ⟨listeners, server, calls.set thread (some ⟨.publish dmMsg, .erasing toBeDeleted⟩)⟩
        (List.replicate steps (.advance thread outcome)) =
      some ⟨toBeDeleted.foldl (fun kept listener => kept.erase listener) listeners, server,
        calls.set thread (some ⟨.publish dmMsg, .done .nothing⟩)⟩ := by
  induction toBeDeleted generalizing listeners with
  | nil =>
      refine ⟨1, ?_⟩
      rw [List.replicate_succ, exec_advance inside rfl]
      simp only [List.set_set, List.replicate_zero, Machine.exec_nil, List.foldl_nil]
  | cons listener rest ih =>
      rcases ih (listeners.erase listener) with ⟨steps, executed⟩
      refine ⟨steps + 1, ?_⟩
      rw [List.replicate_succ, exec_advance inside rfl]
      simp only [List.set_set]
      exact executed

theorem exec_sending (inside : thread < calls.length) (listeners : Listeners) (server : Server)
    (rest : List ConnectionHdl) (ec : Option ErrorCode) (toBeDeleted : List ConnectionHdl) :
    ∃ steps, (machine first before threads).exec
        ⟨listeners, server, calls.set thread (some ⟨.publish dmMsg, .sending rest ec toBeDeleted⟩)⟩
        (List.replicate steps (.advance thread outcome)) =
      some ⟨(toBeDeleted ++ (publishLoop outcome dmMsg rest server ec).2).foldl
          (fun kept listener => kept.erase listener) listeners,
        (publishLoop outcome dmMsg rest server ec).1,
        calls.set thread (some ⟨.publish dmMsg, .done .nothing⟩)⟩ := by
  induction rest generalizing server ec toBeDeleted with
  | nil =>
      rcases exec_erasing inside listeners toBeDeleted with ⟨steps, executed⟩
      refine ⟨steps + 1, ?_⟩
      rw [List.replicate_succ, exec_advance inside rfl]
      simp only [List.set_set, publishLoop, List.append_nil]
      exact executed
  | cons listener rest ih =>
      rcases ih ((server.send outcome listener dmMsg ec).1.closeAndReportWhenError
          (server.send outcome listener dmMsg ec).2 listener)
        (server.send outcome listener dmMsg ec).2
        (if (server.send outcome listener dmMsg ec).2.isSome then toBeDeleted ++ [listener]
          else toBeDeleted) with ⟨steps, executed⟩
      refine ⟨steps + 1, ?_⟩
      rw [List.replicate_succ, exec_advance inside rfl]
      simp only [List.set_set, publishLoop]
      rw [executed]
      split
      · simp only [List.append_assoc, List.singleton_append]
      · rfl

/-- The steps of a call that no other thread interrupts are those of `publish`. -/
theorem exec_publish (inside : thread < calls.length) :
    ∃ steps, (machine first before threads).exec
        ⟨listeners, server, calls.set thread (some ⟨.publish dmMsg, .entered⟩)⟩
        (List.replicate steps (.advance thread outcome)) =
      some ⟨(publish outcome server listeners dmMsg).2, (publish outcome server listeners dmMsg).1,
        calls.set thread (some ⟨.publish dmMsg, .done .nothing⟩)⟩ := by
  rcases exec_sending inside listeners server listeners.toList none [] with
    ⟨steps, executed⟩
  refine ⟨steps + 1, ?_⟩
  rw [List.replicate_succ, exec_advance inside rfl]
  simp only [List.set_set]
  exact executed

end LockedListeners

end DMProxy.Platforms
