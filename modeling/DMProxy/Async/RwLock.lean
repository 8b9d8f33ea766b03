import Mathlib.Data.List.Basic

/-!
# Readers–writer locks

A lock is held by any number of threads in shared mode, or by one thread in exclusive mode.
The threads are the positions of a list, which says for each of them how it holds the lock.
-/

namespace DMProxy.Async

universe u

/-- An element of a list of which one position was overwritten. -/
theorem getElem?_set_cases {α : Type u} {items : List α} {index other : Nat} {given found : α}
    (located : (items.set index given)[other]? = some found) :
    index = other ∧ found = given ∨ index ≠ other ∧ items[other]? = some found := by
  rw [List.getElem?_set] at located
  split at located
  next same =>
    split at located
    · exact .inl ⟨same, (Option.some.inj located).symm⟩
    · cases located
  next differs => exact .inr ⟨differs, located⟩

/-- How a lock is held. -/
inductive Mode where
  | shared
  | exclusive
  deriving DecidableEq, Repr

/-- How each thread holds a lock, if it does. -/
abbrev Holders := List (Option Mode)

namespace Holders

/-- The lock can be given to a thread in a mode. -/
def Grants (holders : Holders) : Mode → Prop
  | .shared => ∀ held ∈ holders, held ≠ some .exclusive
  | .exclusive => ∀ held ∈ holders, held = none

instance (holders : Holders) (mode : Mode) : Decidable (holders.Grants mode) :=
  match mode with
  | .shared => inferInstanceAs (Decidable (∀ held ∈ holders, held ≠ some .exclusive))
  | .exclusive => inferInstanceAs (Decidable (∀ held ∈ holders, held = none))

/-- No other thread holds the lock. -/
def Alone (holders : Holders) (thread : Nat) : Prop :=
  ∀ held ∈ holders.eraseIdx thread, held = none

instance (holders : Holders) (thread : Nat) : Decidable (holders.Alone thread) :=
  inferInstanceAs (Decidable (∀ held ∈ holders.eraseIdx thread, held = none))

/-- Whoever holds the lock in exclusive mode holds it alone. -/
def Compatible (holders : Holders) : Prop :=
  ∀ thread, holders[thread]? = some (some .exclusive) → holders.Alone thread

variable {holders : Holders} {thread : Nat} {mode : Mode}

theorem compatible_of_free (free : ∀ held ∈ holders, held = none) : holders.Compatible := by
  intro thread located
  cases free _ (List.mem_of_getElem? located)

theorem Grants.ne_exclusive (grants : holders.Grants mode) {held : Option Mode}
    (member : held ∈ holders) : held ≠ some .exclusive := by
  cases mode with
  | shared => exact grants held member
  | exclusive =>
      rw [grants held member]
      simp

/-- A lock that is granted is held compatibly. -/
theorem Compatible.acquire (grants : holders.Grants mode) (thread : Nat) :
    Compatible (holders.set thread (some mode)) := by
  intro other located held member
  rcases getElem?_set_cases located with ⟨rfl, given⟩ | ⟨_, before⟩
  · cases given
    rw [List.eraseIdx_set_eq] at member
    exact grants held (List.mem_of_mem_eraseIdx member)
  · exact absurd rfl (grants.ne_exclusive (List.mem_of_getElem? before))

theorem Compatible.release (compatible : holders.Compatible) (thread : Nat) :
    Compatible (holders.set thread none) := by
  intro other located held member
  rcases getElem?_set_cases located with ⟨_, given⟩ | ⟨_, before⟩
  · cases given
  · rcases List.mem_eraseIdx_iff_getElem?.mp member with ⟨index, differs, there⟩
    rcases getElem?_set_cases there with ⟨_, given⟩ | ⟨_, already⟩
    · exact given
    · exact compatible other before held
        (List.mem_eraseIdx_iff_getElem?.mpr ⟨index, differs, already⟩)

/-- A thread that reads is alone exactly if no other thread reads. -/
theorem Compatible.alone_iff_of_shared (compatible : holders.Compatible)
    (located : holders[thread]? = some (some .shared)) :
    holders.Alone thread ↔ some .shared ∉ holders.eraseIdx thread := by
  constructor
  · intro alone member
    cases alone _ member
  · intro absent held member
    cases held with
    | none => rfl
    | some mode =>
        cases mode with
        | shared => exact absurd member absent
        | exclusive =>
            rcases List.mem_eraseIdx_iff_getElem?.mp member with ⟨other, differs, at_other⟩
            cases compatible other at_other _
              (List.mem_eraseIdx_iff_getElem?.mpr ⟨thread, Ne.symm differs, located⟩)

end Holders

end DMProxy.Async
