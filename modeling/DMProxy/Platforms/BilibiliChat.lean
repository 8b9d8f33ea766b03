import DMProxy.Platforms.Bilibili

/-!
# The element accesses of bilibili

`handle_data` indexes the arrays of a `DANMU_MSG` without looking at their lengths.
-/

namespace DMProxy.Platforms.Bilibili

open DMProxy.Network
open DMProxy.Text

/-- An element access on a vector. -/
structure ElementAccess where
  items : List Json
  index : Nat

def ElementAccess.InRange (access : ElementAccess) : Prop :=
  access.index < access.items.length

instance (access : ElementAccess) : Decidable access.InRange :=
  inferInstanceAs (Decidable (_ < _))

/-- The accesses of `handle_data` on a `DANMU_MSG`, in order.  The nested array is known once
the access to it is in range. -/
def danmuAccesses (message : Json) : List ElementAccess :=
  let infoArray := (message.member (ascii "info")).arrayItems
  let user := (infoArray.getD 2 .null).arrayItems
  [⟨infoArray, 1⟩, ⟨infoArray, 2⟩, ⟨user, 0⟩, ⟨user, 1⟩]

/-- The accesses of `handle_data`; a message of another command is dropped, and one that does
not parse is reported. -/
def accesses (libraries : Libraries) (payload : Bytes) : List ElementAccess :=
  match libraries.parseJson (cString payload) with
  | none => []
  | some message =>
      if (message.member (ascii "cmd")).stringValue ≠ ascii "DANMU_MSG" then []
      else danmuAccesses message

/-- `info` is an array of at least three elements, and the third one is an array of at least
two. -/
structure Shaped (message : Json) : Prop where
  info : 3 ≤ (message.member (ascii "info")).arrayItems.length
  user : 2 ≤ (((message.member (ascii "info")).arrayItems.getD 2 .null).arrayItems).length

theorem inRange_danmuAccesses_iff (message : Json) :
    (∀ access ∈ danmuAccesses message, access.InRange) ↔ Shaped message := by
  simp only [danmuAccesses, List.forall_mem_cons, ElementAccess.InRange, List.not_mem_nil,
    false_imp_iff, implies_true, and_true]
  constructor
  · intro inRange
    rcases inRange with ⟨-, info, -, user⟩
    exact ⟨info, user⟩
  · intro shaped
    rcases shaped with ⟨info, user⟩
    exact ⟨by omega, info, by omega, user⟩

/-- The first access that is out of range faults, and nothing else does. -/
theorem fault_notMem_danmuMsg_iff (message : Json) :
    .fault ∉ danmuMsg message ↔ Shaped message := by
  simp only [danmuMsg]
  generalize arrayed : (message.member (ascii "info")).arrayItems = infoArray
  split
  next text user first second =>
    have info : 3 ≤ infoArray.length := (List.getElem?_eq_some_iff.mp second).1
    have third : infoArray.getD 2 .null = user := by
      rw [List.getD_eq_getElem?_getD, second, Option.getD_some]
    split
    next uid nickname _ last =>
      have long : 2 ≤ user.arrayItems.length := (List.getElem?_eq_some_iff.mp last).1
      refine iff_of_true (by simp) ⟨?_, ?_⟩
      · rw [arrayed]
        exact info
      · rw [arrayed, third]
        exact long
    next missing =>
      refine iff_of_false (by simp) fun shaped => ?_
      have long := shaped.user
      rw [arrayed, third] at long
      exact missing _ _ (List.getElem?_eq_getElem (by omega)) (List.getElem?_eq_getElem (by omega))
  next missing =>
    refine iff_of_false (by simp) fun shaped => ?_
    have long := shaped.info
    rw [arrayed] at long
    exact missing _ _ (List.getElem?_eq_getElem (by omega)) (List.getElem?_eq_getElem (by omega))

/-- What a payload must be like for its accesses to be in range: unless it is dropped, its
arrays are long enough. -/
def Wellformed (libraries : Libraries) (payload : Bytes) : Prop :=
  ∀ message ∈ libraries.parseJson (cString payload),
    (message.member (ascii "cmd")).stringValue = ascii "DANMU_MSG" → Shaped message

/-- Every element access of `handle_data` is in range exactly if the arrays of a `DANMU_MSG`
are long enough, and exactly then nothing faults. -/
theorem inRange_accesses_iff (libraries : Libraries) (payload : Bytes) (state : State) :
    ((∀ access ∈ accesses libraries payload, access.InRange) ↔ Wellformed libraries payload) ∧
      (.fault ∉ (handleData libraries (.success payload) state).2 ↔
        Wellformed libraries payload) := by
  simp only [accesses, handleData, Completion.success, Wellformed]
  cases parsed : libraries.parseJson (cString payload) with
  | none => simp [abandon, clientReportWhenError]
  | some message =>
      simp only [Option.mem_def, Option.some.injEq, forall_eq']
      by_cases danmu : (message.member (ascii "cmd")).stringValue = ascii "DANMU_MSG"
      · simp only [danmu, ne_eq, not_true_eq_false, if_false, true_imp_iff]
        exact ⟨inRange_danmuAccesses_iff message, fault_notMem_danmuMsg_iff message⟩
      · simp [danmu]

/-- A `DANMU_MSG` without `info`. -/
theorem not_inRange_accesses :
    ¬ ∀ (libraries : Libraries) (payload : Bytes),
      ∀ access ∈ accesses libraries payload, access.InRange := by
  intro inRange
  have first := inRange
    { (default : Libraries) with
      parseJson := fun _ => some (.object [(ascii "cmd", .string (ascii "DANMU_MSG"))]) }
    [] ⟨[], 1⟩ List.mem_cons_self
  revert first
  decide

end DMProxy.Platforms.Bilibili
