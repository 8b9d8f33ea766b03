import Mathlib.Data.List.Sort

/-!
# Ordered finite sets

An ordered set is the strictly ascending list of its elements.  The list is also
the order in which an iteration visits them, so an algorithm that loops over the
set can be stated on `toList` while membership stays order free.
-/

namespace DMProxy.Collections

universe u

/-- A finite set kept as the strictly ascending list of its elements. -/
structure OrderedSet (α : Type u) [LinearOrder α] where
  toList : List α
  ascending : toList.Pairwise (· < ·)

namespace OrderedSet

variable {α : Type u} [LinearOrder α]

instance : Membership α (OrderedSet α) where
  mem set element := element ∈ set.toList

theorem mem_def {element : α} {set : OrderedSet α} :
    element ∈ set ↔ element ∈ set.toList := Iff.rfl

instance (element : α) (set : OrderedSet α) : Decidable (element ∈ set) :=
  inferInstanceAs (Decidable (element ∈ set.toList))

theorem nodup (set : OrderedSet α) : set.toList.Nodup :=
  set.ascending.imp fun less => ne_of_lt less

/-- The empty set. -/
def empty : OrderedSet α where
  toList := []
  ascending := .nil

theorem ascending_orderedInsert {element : α} {elements : List α}
    (ascending : elements.Pairwise (· < ·)) (absent : element ∉ elements) :
    (elements.orderedInsert (· < ·) element).Pairwise (· < ·) := by
  induction elements with
  | nil => simp
  | cons head tail ih =>
      rw [List.pairwise_cons] at ascending
      simp only [List.mem_cons, not_or] at absent
      rw [List.orderedInsert_cons]
      split
      next less =>
        refine .cons ?_ (.cons ascending.1 ascending.2)
        intro other member
        rcases List.mem_cons.mp member with rfl | later
        · exact less
        · exact less.trans (ascending.1 other later)
      next notLess =>
        refine .cons ?_ (ih ascending.2 absent.2)
        intro other member
        rcases (List.mem_orderedInsert _).mp member with rfl | later
        · exact lt_of_le_of_ne (not_lt.mp notLess) (Ne.symm absent.1)
        · exact ascending.1 other later

/-- Insert an element, without effect when it is present. -/
def insert (element : α) (set : OrderedSet α) : OrderedSet α :=
  if present : element ∈ set.toList then set
  else
    { toList := set.toList.orderedInsert (· < ·) element
      ascending := ascending_orderedInsert set.ascending present }

/-- The elements that satisfy a predicate. -/
def filter (keep : α → Bool) (set : OrderedSet α) : OrderedSet α where
  toList := set.toList.filter keep
  ascending := set.ascending.filter keep

/-- Remove an element, without effect when it is absent. -/
def erase (element : α) (set : OrderedSet α) : OrderedSet α :=
  set.filter fun other => other != element

/-- The number of elements. -/
def size (set : OrderedSet α) : Nat :=
  set.toList.length

@[simp] theorem toList_empty : (empty : OrderedSet α).toList = [] := rfl

@[simp] theorem toList_filter (keep : α → Bool) (set : OrderedSet α) :
    (set.filter keep).toList = set.toList.filter keep := rfl

@[simp] theorem notMem_empty (element : α) : element ∉ (empty : OrderedSet α) := by
  simp [mem_def]

@[simp] theorem mem_insert {element other : α} {set : OrderedSet α} :
    other ∈ set.insert element ↔ other = element ∨ other ∈ set := by
  simp only [insert]
  split
  next present =>
    constructor
    · exact .inr
    · intro chosen
      rcases chosen with rfl | member
      · exact present
      · exact member
  next => simp [mem_def, List.mem_orderedInsert]

@[simp] theorem mem_filter {element : α} {keep : α → Bool} {set : OrderedSet α} :
    element ∈ set.filter keep ↔ element ∈ set ∧ keep element = true := by
  simp [mem_def]

@[simp] theorem mem_erase {element other : α} {set : OrderedSet α} :
    other ∈ set.erase element ↔ other ∈ set ∧ other ≠ element := by
  simp [erase]

theorem size_eq_zero {set : OrderedSet α} :
    set.size = 0 ↔ ∀ element, element ∉ set := by
  simp only [size, List.length_eq_zero_iff, List.eq_nil_iff_forall_not_mem, mem_def]

/-- Removing an element leaves nothing exactly when it was the only one. -/
theorem size_erase_eq_zero {element : α} {set : OrderedSet α} :
    (set.erase element).size = 0 ↔ ∀ other ∈ set, other = element := by
  simp only [size_eq_zero, mem_erase, not_and, not_not]

end OrderedSet

end DMProxy.Collections
