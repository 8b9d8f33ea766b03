import DMProxy.Async.RwLock
import DMProxy.Transition.Machine
import Mathlib.Logic.Function.Basic

/-!
# Locks that are taken in order

Threads take locks and give them back as their scripts say.  If every lock a script takes ranks
above all that the thread holds then, then some thread can always go on, also where a reader has
to wait for a writer that waits, and all scripts can be completed.  A script that asks for a lock
it holds in exclusive mode never ends.
-/

namespace DMProxy.Async

open DMProxy.Transition

universe u

/-- What a thread does to a lock. -/
inductive LockStep (Lock : Type u) where
  | acquire (lock : Lock) (mode : Mode)
  | release (lock : Lock)
  deriving DecidableEq, Repr

/-- How a thread holds each lock. -/
abbrev Held (Lock : Type u) := Lock → Option Mode

/-- A thread that holds nothing. -/
def Held.nothing {Lock : Type u} : Held Lock := fun _ => none

/-- The locks a thread holds, and the steps that it has yet to take. -/
structure Thread (Lock : Type u) where
  held : Held Lock
  script : List (LockStep Lock)

abbrev Threads (Lock : Type u) := List (Thread Lock)

namespace Threads

variable {Lock : Type u}

/-- How each thread holds a lock. -/
def holders (threads : Threads Lock) (lock : Lock) : Holders :=
  threads.map fun thread => thread.held lock

/-- Every thread has come to the end of its script, and holds nothing. -/
def Finished (threads : Threads Lock) : Prop :=
  ∀ thread ∈ threads, thread.script = [] ∧ thread.held = .nothing

/-- The number of steps that the threads have yet to take. -/
def remaining : Threads Lock → Nat
  | [] => 0
  | thread :: threads => thread.script.length + remaining threads

theorem remaining_set {threads : Threads Lock} {index : Nat} {thread thread' : Thread Lock}
    (located : threads[index]? = some thread)
    (shorter : thread'.script.length + 1 = thread.script.length) :
    remaining (threads.set index thread') + 1 = remaining threads := by
  induction threads generalizing index with
  | nil => simp at located
  | cons head threads ih =>
      cases index with
      | zero =>
          cases located
          simp only [List.set_cons_zero, remaining]
          omega
      | succ index =>
          have later := ih located
          simp only [List.set_cons_succ, remaining]
          omega

/-- The rank of the lock that a thread asks for next. -/
def level (rank : Lock → Nat) (thread : Thread Lock) : Nat :=
  match thread.script with
  | .acquire lock _ :: _ => rank lock
  | _ => 0

/-- The levels have a bound. -/
theorem exists_bound (rank : Lock → Nat) (threads : Threads Lock) :
    ∃ bound, ∀ thread ∈ threads, level rank thread ≤ bound := by
  induction threads with
  | nil => exact ⟨0, by simp⟩
  | cons head threads ih =>
      rcases ih with ⟨bound, within⟩
      refine ⟨max (level rank head) bound, ?_⟩
      intro thread member
      rcases List.mem_cons.mp member with here | there
      · exact here ▸ Nat.le_max_left _ _
      · exact Nat.le_trans (within thread there) (Nat.le_max_right _ _)

variable [DecidableEq Lock]

/-- A thread takes its next step, if the lock it asks for is granted. -/
def step (threads : Threads Lock) (index : Nat) : Option (Threads Lock) :=
  match threads[index]? with
  | none | some ⟨_, []⟩ => none
  | some ⟨held, .acquire lock mode :: rest⟩ =>
      if (threads.holders lock).Grants mode then
        some (threads.set index ⟨Function.update held lock (some mode), rest⟩)
      else none
  | some ⟨held, .release lock :: rest⟩ =>
      some (threads.set index ⟨Function.update held lock none, rest⟩)

/-- The threads, of which one takes a step at a time. -/
def machine (threads : Threads Lock) : Machine (Threads Lock) Nat where
  init := threads
  step := step

/-- The thread can take its next step, also if a reader has to wait while a writer waits. -/
def Ready (threads : Threads Lock) (index : Nat) : Prop :=
  (threads.step index).isSome = true ∧
    ∀ held lock rest, threads[index]? = some ⟨held, .acquire lock .shared :: rest⟩ →
      ∀ other ∈ threads, other.script.head? ≠ some (.acquire lock .exclusive)

end Threads

section

variable {Lock : Type u} [DecidableEq Lock]

/-- Only locks above all that are held are taken, only what is held is given back, and nothing
is held in the end. -/
def Ordered (rank : Lock → Nat) (held : Held Lock) : List (LockStep Lock) → Prop
  | [] => held = .nothing
  | .acquire lock mode :: rest =>
      (∀ other, held other ≠ none → rank other < rank lock) ∧
        Ordered rank (Function.update held lock (some mode)) rest
  | .release lock :: rest =>
      held lock ≠ none ∧ Ordered rank (Function.update held lock none) rest

/-- The script asks for the lock where the thread holds it in exclusive mode. -/
def Reenters (lock : Lock) (held : Held Lock) : List (LockStep Lock) → Prop
  | [] => False
  | .acquire other mode :: rest =>
      other = lock ∧ held lock = some .exclusive ∨
        Reenters lock (Function.update held other (some mode)) rest
  | .release other :: rest => Reenters lock (Function.update held other none) rest

variable {rank : Lock → Nat} {held : Held Lock} {first second : List (LockStep Lock)} {lock : Lock}

/-- One script may follow the other. -/
theorem Ordered.append (ordered : Ordered rank held first)
    (ordered' : Ordered rank .nothing second) : Ordered rank held (first ++ second) := by
  induction first generalizing held with
  | nil => exact ordered ▸ ordered'
  | cons head rest ih =>
      cases head with
      | acquire lock mode => exact ⟨ordered.1, ih ordered.2⟩
      | release lock => exact ⟨ordered.1, ih ordered.2⟩

theorem Reenters.append_right (reenters : Reenters lock held first)
    (second : List (LockStep Lock)) : Reenters lock held (first ++ second) := by
  induction first generalizing held with
  | nil => exact reenters.elim
  | cons head rest ih =>
      cases head with
      | acquire other mode =>
          rcases reenters with here | later
          · exact .inl here
          · exact .inr (ih later)
      | release other => exact ih reenters

theorem Ordered.append_reenters (ordered : Ordered rank held first)
    (reenters : Reenters lock .nothing second) : Reenters lock held (first ++ second) := by
  induction first generalizing held with
  | nil => exact ordered ▸ reenters
  | cons head rest ih =>
      cases head with
      | acquire other mode => exact .inr (ih ordered.2)
      | release other => exact ih ordered.2

end

namespace Threads

variable {Lock : Type u} [DecidableEq Lock] {threads next : Threads Lock} {index : Nat}
  {rank : Lock → Nat}

/-- What a step does. -/
inductive Taken (threads : Threads Lock) (index : Nat) : Threads Lock → Prop where
  | acquired {held : Held Lock} {lock : Lock} {mode : Mode} {rest : List (LockStep Lock)}
      (located : threads[index]? = some ⟨held, .acquire lock mode :: rest⟩)
      (grants : (threads.holders lock).Grants mode) :
      Taken threads index (threads.set index ⟨Function.update held lock (some mode), rest⟩)
  | released {held : Held Lock} {lock : Lock} {rest : List (LockStep Lock)}
      (located : threads[index]? = some ⟨held, .release lock :: rest⟩) :
      Taken threads index (threads.set index ⟨Function.update held lock none, rest⟩)

theorem taken (stepped : threads.step index = some next) : Taken threads index next := by
  simp only [step] at stepped
  split at stepped
  next => cases stepped
  next => cases stepped
  next held lock mode rest located =>
    split at stepped
    next grants =>
      cases stepped
      exact .acquired located grants
    next => cases stepped
  next held lock rest located =>
    cases stepped
    exact .released located

/-! ## Some thread can go on -/

/-- All scripts take their locks in order. -/
def AllOrdered (rank : Lock → Nat) (threads : Threads Lock) : Prop :=
  ∀ thread ∈ threads, Ordered rank thread.held thread.script

theorem AllOrdered.step (ordered : AllOrdered rank threads)
    (stepped : threads.step index = some next) : AllOrdered rank next := by
  intro thread member
  cases taken stepped with
  | acquired located =>
      rcases List.mem_or_eq_of_mem_set member with before | new
      · exact ordered thread before
      · subst new
        have here := ordered _ (List.mem_of_getElem? located)
        exact here.2
  | released located =>
      rcases List.mem_or_eq_of_mem_set member with before | new
      · exact ordered thread before
      · subst new
        have here := ordered _ (List.mem_of_getElem? located)
        exact here.2

/-- A thread that cannot go on asks for a lock that some thread holds, or that a writer waits
for. -/
theorem blocked {thread : Thread Lock} (located : threads[index]? = some thread)
    (unfinished : thread.script ≠ []) (stuck : ¬threads.Ready index) :
    ∃ lock mode rest, thread.script = .acquire lock mode :: rest ∧
      ((∃ other ∈ threads, other.held lock ≠ none) ∨
        mode = .shared ∧
          ∃ other ∈ threads, other.script.head? = some (.acquire lock .exclusive)) := by
  rcases thread with ⟨held, script⟩
  cases script with
  | nil => exact absurd rfl unfinished
  | cons head rest =>
      cases head with
      | release lock =>
          refine absurd ⟨by simp [step, located], ?_⟩ stuck
          intro held' lock' rest' located'
          cases located.symm.trans located'
      | acquire lock mode =>
          refine ⟨lock, mode, rest, rfl, ?_⟩
          by_contra free
          simp only [not_or, not_and, not_exists, not_not] at free
          have grants : (threads.holders lock).Grants mode := by
            have unheld : ∀ held ∈ threads.holders lock, held = none := by
              intro held member
              rcases List.mem_map.mp member with ⟨other, listed, rfl⟩
              exact free.1 other listed
            cases mode with
            | shared =>
                intro held member
                rw [unheld held member]
                simp
            | exclusive => exact unheld
          refine stuck ⟨by simp [step, located, grants], ?_⟩
          intro held' lock' rest' located' other member
          cases located.symm.trans located'
          exact free.2 rfl other member

/-- What a thread waits for is held, possibly because a writer waits for it as well. -/
theorem held_of_blocked (stuck : ∀ index, ¬threads.Ready index) {thread : Thread Lock}
    (member : thread ∈ threads) (unfinished : thread.script ≠ []) :
    ∃ lock mode rest, thread.script = .acquire lock mode :: rest ∧
      ∃ other ∈ threads, other.held lock ≠ none := by
  rcases List.mem_iff_getElem?.mp member with ⟨index, located⟩
  rcases blocked located unfinished (stuck index) with
    ⟨lock, mode, rest, asks, holder | ⟨-, writer, listed, waits⟩⟩
  · exact ⟨lock, mode, rest, asks, holder⟩
  · rcases List.mem_iff_getElem?.mp listed with ⟨place, found⟩
    have waiting : writer.script ≠ [] := by
      intro empty
      simp [empty] at waits
    rcases blocked found waiting (stuck place) with
      ⟨lock', mode', rest', asks', holder | ⟨shared, -⟩⟩
    · rw [asks'] at waits
      cases waits
      exact ⟨lock, mode, rest, asks, holder⟩
    · rw [asks', shared] at waits
      cases waits

/-- If no thread can go on, every thread that waits has one in its way that waits for a higher
lock. -/
theorem waits_above (ordered : AllOrdered rank threads) (stuck : ∀ index, ¬threads.Ready index)
    {thread : Thread Lock} (member : thread ∈ threads) (unfinished : thread.script ≠ []) :
    ∃ other ∈ threads, other.script ≠ [] ∧ level rank thread < level rank other := by
  rcases held_of_blocked stuck member unfinished with ⟨lock, mode, rest, asks, other, listed, holds⟩
  have disciplined := ordered other listed
  have unfinished' : other.script ≠ [] := by
    intro empty
    rw [empty] at disciplined
    exact holds (congrFun disciplined lock)
  rcases held_of_blocked stuck listed unfinished' with ⟨lock', mode', rest', asks', -⟩
  rw [asks'] at disciplined
  have above := disciplined.1 lock holds
  exact ⟨other, listed, unfinished', by simpa [level, asks, asks'] using above⟩

/-- While a script is not at its end, some thread can go on. -/
theorem exists_ready (ordered : AllOrdered rank threads) {thread : Thread Lock}
    (member : thread ∈ threads) (unfinished : thread.script ≠ []) :
    ∃ index, threads.Ready index := by
  by_contra stuck
  rw [not_exists] at stuck
  -- there would be waiting threads of every level
  have climbs (bound : Nat) :
      ∃ other ∈ threads, other.script ≠ [] ∧ bound ≤ level rank other := by
    induction bound with
    | zero => exact ⟨thread, member, unfinished, Nat.zero_le _⟩
    | succ bound ih =>
        rcases ih with ⟨other, listed, waiting, high⟩
        rcases waits_above ordered stuck listed waiting with ⟨next, listed', waiting', higher⟩
        exact ⟨next, listed', waiting', Nat.succ_le_of_lt (Nat.lt_of_le_of_lt high higher)⟩
  rcases exists_bound rank threads with ⟨bound, within⟩
  rcases climbs (bound + 1) with ⟨other, listed, -, high⟩
  exact absurd (within other listed) (Nat.not_le_of_lt high)

/-! ## All scripts can be completed -/

theorem remaining_step (stepped : threads.step index = some next) :
    remaining next + 1 = remaining threads := by
  cases taken stepped with
  | acquired located => exact remaining_set located (by simp)
  | released located => exact remaining_set located (by simp)

theorem finished_of_ordered (ordered : AllOrdered rank threads)
    (ended : ∀ thread ∈ threads, thread.script = []) : threads.Finished := by
  intro thread member
  have nothing := ordered thread member
  rw [ended thread member] at nothing
  exact ⟨ended thread member, nothing⟩

variable {start : Threads Lock}

/-- From threads that take their locks in order, some run finishes all of them. -/
theorem finishes (ordered : AllOrdered rank threads) :
    ∃ events final, (machine start).exec threads events = some final ∧ final.Finished := by
  induction steps : threads.remaining generalizing threads with
  | zero =>
      refine ⟨[], threads, rfl, finished_of_ordered ordered fun thread member => ?_⟩
      by_contra unfinished
      rcases exists_ready ordered member unfinished with ⟨index, ready⟩
      rcases Option.isSome_iff_exists.mp ready.1 with ⟨next, stepped⟩
      have fewer := remaining_step stepped
      omega
  | succ steps ih =>
      by_cases ended : ∀ thread ∈ threads, thread.script = []
      · exact ⟨[], threads, rfl, finished_of_ordered ordered ended⟩
      · simp only [not_forall, exists_prop] at ended
        rcases ended with ⟨thread, member, unfinished⟩
        rcases exists_ready ordered member unfinished with ⟨index, ready⟩
        rcases Option.isSome_iff_exists.mp ready.1 with ⟨next, stepped⟩
        have fewer := remaining_step stepped
        rcases ih (ordered.step stepped) (by omega) with ⟨events, final, executed, finished⟩
        exact ⟨index :: events, final,
          ((machine start).exec_cons events stepped).trans executed, finished⟩

/-- Whatever has been interleaved, threads that take their locks in order can be finished. -/
theorem AllOrdered.reachable (ordered : AllOrdered rank start)
    (reachable : (machine start).Reachable threads) : AllOrdered rank threads :=
  reachable.invariant ordered fun _ ordered _ stepped => ordered.step stepped

/-! ## A thread that waits for itself -/

/-- The thread at an index asks for a lock where it holds it in exclusive mode. -/
def WaitsForItself (lock : Lock) (index : Nat) (threads : Threads Lock) : Prop :=
  ∃ thread, threads[index]? = some thread ∧ Reenters lock thread.held thread.script

theorem WaitsForItself.step {lock : Lock} {place : Nat}
    (waits : WaitsForItself lock index threads) (stepped : threads.step place = some next) :
    WaitsForItself lock index next := by
  rcases waits with ⟨thread, located, reenters⟩
  have inside := (List.getElem?_eq_some_iff.mp located).1
  by_cases here : place = index
  · subst here
    cases taken stepped with
    | acquired found grants =>
        cases located.symm.trans found
        rcases reenters with ⟨rfl, held⟩ | later
        · have own := grants.ne_exclusive
            (List.mem_map.mpr ⟨_, List.mem_of_getElem? found, rfl⟩)
          exact absurd held own
        · exact ⟨_, List.getElem?_set_self inside, later⟩
    | released found =>
        cases located.symm.trans found
        exact ⟨_, List.getElem?_set_self inside, reenters⟩
  · refine ⟨thread, ?_, reenters⟩
    cases taken stepped with
    | acquired => rw [List.getElem?_set_ne here, located]
    | released => rw [List.getElem?_set_ne here, located]

/-- Such a thread never comes to the end of its script. -/
theorem WaitsForItself.not_finished {lock : Lock} (waits : WaitsForItself lock index start)
    (reachable : (machine start).Reachable threads) : ¬threads.Finished := by
  have still := reachable.invariant waits fun _ waits _ stepped => waits.step stepped
  rcases still with ⟨thread, located, reenters⟩
  intro finished
  rw [(finished thread (List.mem_of_getElem? located)).1] at reenters
  exact reenters

end Threads

end DMProxy.Async
