import DMProxy.Registry.Runs

/-!
# What the keys of the registry say

A key is computed three times: by the client, whose text is split into a tag and a room
id; by the constructor, which keeps the room id and the name of its platform; and by the
error macros, which glue the two together again.
-/

namespace DMProxy.Registry

open DMProxy.Collections
open DMProxy.Network
open DMProxy.Platforms
open DMProxy.Text
open DMProxy.Transition

/-- The room id of an accepted request is not empty. -/
theorem roomid_ne_nil_of_parseRoomstr {roomstr tag roomid : Bytes}
    (parsed : parseRoomstr roomstr = some (tag, roomid)) : roomid ≠ [] := by
  simp only [parseRoomstr] at parsed
  cases found : findFirstOf 95 roomstr with
  | none => simp [found] at parsed
  | some pos =>
      simp only [found] at parsed
      split at parsed
      next inside =>
        simp only [Option.some.injEq, Prod.mk.injEq] at parsed
        rcases parsed with ⟨-, rfl⟩
        have short : pos + 1 < roomstr.length := by omega
        simpa using short
      next => cases parsed

/-- The instance has the name of its platform, and a room id that the platform accepts. -/
structure Instance.Identified (inst : Instance) : Prop where
  named : inst.platformName = inst.upstream.platformName
  nonempty : inst.roomid ≠ []
  valid : inst.upstream.isRoomValid inst.roomid = true

theorem Instance.Identified.samePlatform {inst inst' : Instance} (identified : inst.Identified)
    (name : inst'.platformName = inst.platformName) (roomid : inst'.roomid = inst.roomid)
    (same : inst.upstream.SamePlatform inst'.upstream) : inst'.Identified := by
  rcases identified with ⟨named, nonempty, valid⟩
  rcases inst with ⟨_, _, _, _, upstream, _, _, _, _⟩
  rcases inst' with ⟨_, _, _, _, upstream', _, _, _, _⟩
  dsimp only at name roomid same
  subst name roomid
  cases same <;> exact ⟨named, nonempty, valid⟩

namespace State

variable {libraries : Libraries} {state next : State} {event : Event}

def AllIdentified (state : State) : Prop :=
  ∀ i inst, state.instances i = some inst → inst.Identified

theorem AllIdentified.leave {roomstr : Bytes} {hdl : ConnectionHdl}
    (identified : state.AllIdentified) (leaving : LeaveOutcome roomstr hdl state next) :
    next.AllIdentified := by
  intro i inst' found'
  cases leaving with
  | unregistered => exact identified _ _ found'
  | others registered found =>
      rw [eraseListener, modify_of_found found] at found'
      rcases update_some_eq_some.mp found' with ⟨rfl, rfl⟩ | ⟨-, kept⟩
      · have before := identified _ _ found
        exact ⟨before.named, before.nonempty, before.valid⟩
      · exact identified _ _ kept
  | @last _ inst registered found =>
      rcases update_some_eq_some.mp found' with ⟨rfl, rfl⟩ | ⟨-, kept⟩
      · exact (identified _ _ found).samePlatform rfl rfl inst.upstream.samePlatform_close
      · exact identified _ _ kept

theorem AllIdentified.enter {environment : Environment} {hdl : ConnectionHdl}
    {roomstr tag roomid : Bytes} (identified : state.AllIdentified)
    (parsed : parseRoomstr roomstr = some (tag, roomid))
    (entering : EnterOutcome environment hdl roomstr tag roomid state next) :
    next.AllIdentified := by
  intro i inst' found'
  cases entering with
  | joined registered found =>
      rw [addListener, modify_of_found found] at found'
      rcases update_some_eq_some.mp found' with ⟨rfl, rfl⟩ | ⟨-, kept⟩
      · have before := identified _ _ found
        exact ⟨before.named, before.nonempty, before.valid⟩
      · exact identified _ _ kept
  | rejected => exact identified _ _ found'
  | @created upstream _ _ absent known valid =>
      rcases update_some_eq_some.mp found' with ⟨rfl, rfl⟩ | ⟨-, kept⟩
      · have made : (Instance.make upstream roomid).Identified :=
          ⟨rfl, roomid_ne_nil_of_parseRoomstr parsed, valid⟩
        exact made.samePlatform rfl rfl
          (upstream.samePlatform_start roomid environment.getConnection)
      · exact identified _ _ kept

theorem AllIdentified.transition (identified : state.AllIdentified)
    (transition : Transition libraries state event next) : next.AllIdentified := by
  cases transition with
  | accept | closing | terminate | expire | refused | already | unhandled => exact identified
  | stuck _ _ _ _ _ leaving =>
      have left := identified.leave leaving
      exact left
  | @entered hdl payload _ _ _ _ left _ _ _ _ parsed _ leaving _ entering =>
      have identifiedLeft := identified.leave leaving
      have moved : (left.setMessageHandler hdl (trim payload)).AllIdentified := identifiedLeft
      exact moved.enter parsed entering
  | closed _ _ _ _ _ leaving =>
      have left := identified.leave leaving
      exact left
  | upstream found stepped =>
      intro j inst' found'
      rcases update_some_eq_some.mp found' with ⟨rfl, rfl⟩ | ⟨-, kept⟩
      · exact (identified _ _ found).samePlatform rfl rfl (Upstream.samePlatform_step stepped)
      · exact identified _ _ kept
  | @stalled i activity _ inst _ _ _ _ found =>
      intro j inst' found'
      rcases update_some_eq_some.mp found' with ⟨rfl, rfl⟩ | ⟨-, kept⟩
      · have same := inst.upstream.samePlatform_stalled libraries activity
        exact (identified _ _ found).samePlatform rfl rfl same
      · exact identified _ _ kept

theorem allIdentified_of_reachable (reachable : (machine libraries).Reachable state) :
    state.AllIdentified := by
  have both : state.WellFormed ∧ state.AllIdentified := by
    apply reachable.invariant
    · exact ⟨wellFormed_initial, fun _ _ found => by cases found⟩
    intro state next event _ holds _ stepped
    have transition := step_transition holds.1 stepped
    exact ⟨holds.1.transition transition, holds.2.transition transition⟩
  exact both.2

end State

/-- Every byte is a decimal digit. -/
def IsNumeral (text : Bytes) : Prop :=
  ∀ byte ∈ text, 48 ≤ byte ∧ byte ≤ 57

theorem strIsNum_iff {text : Bytes} : strIsNum text = true ↔ IsNumeral text := by
  simp [strIsNum, IsNumeral]

open State

/-- The key of a registered instance is the string the instance passes to its close
callback, made of the name of its platform and of a room id of the shape the platform
asks for. -/
theorem key_identifies {libraries : Libraries} {state : State} {roomstr : Bytes}
    {i : InstanceId} (reachable : (machine libraries).Reachable state)
    (registered : state.rpMap roomstr = some i) :
    ∃ inst, state.instances i = some inst ∧ roomstr = inst.roomstr ∧
      inst.roomstr = inst.platformName ++ ascii "_" ++ inst.roomid ∧
      inst.platformName = inst.upstream.platformName ∧ inst.roomid ≠ [] ∧
      match inst.upstream with
      | .douyu _ | .YY _ => IsNumeral inst.roomid
      | .huajiao _ => IsNumeral inst.roomid ∧ inst.roomid.length = 9
      | .bilibili _ => True := by
  rcases (wellFormed_of_reachable reachable).registered registered with ⟨inst, found, named⟩
  rcases allIdentified_of_reachable reachable _ _ found with ⟨name, nonempty, valid⟩
  refine ⟨inst, found, named.symm, rfl, name, nonempty, ?_⟩
  cases upstream : inst.upstream with
  | huajiao state =>
      simp only [upstream, Upstream.isRoomValid, Huajiao.isRoomValid] at valid
      split at valid
      next => cases valid
      next accepted =>
        simp only [Bool.or_eq_true, Bool.not_eq_true', decide_eq_true_eq, not_or,
          Bool.not_eq_false, not_not] at accepted
        exact ⟨strIsNum_iff.mp accepted.1, accepted.2⟩
  | douyu state =>
      simp only [upstream, Upstream.isRoomValid, Douyu.isRoomValid] at valid
      exact strIsNum_iff.mp valid
  | bilibili state => trivial
  | YY state =>
      simp only [upstream, Upstream.isRoomValid, YY.isRoomValid] at valid
      exact strIsNum_iff.mp valid

/-- A client asks for a bilibili room whose id has an underscore, with blanks around. -/
def underscoredRoom : List Event :=
  [.accept 0, .message 0 .text (ascii " bilibili_1_2\n") .calm]

theorem key_identifies_underscoredRoom :
    ∃ state, (machine default).exec State.initial underscoredRoom = some state ∧
      state.rpMap (ascii "bilibili_1_2") = some 0 ∧
      ∃ inst, state.instances 0 = some inst ∧ ascii "bilibili_1_2" = inst.roomstr ∧
        inst.roomid ≠ [] := by
  have query : ((machine default).exec State.initial underscoredRoom).any
      (fun final => final.rpMap (ascii "bilibili_1_2") == some 0) = true := by
    decide
  rcases (Option.any_eq_true _ _).mp query with ⟨final, executed, entry⟩
  have registered : final.rpMap (ascii "bilibili_1_2") = some 0 := eq_of_beq entry
  rcases key_identifies (Machine.Reachable.exec .init executed) registered with
    ⟨inst, found, key, -, -, nonempty, -⟩
  exact ⟨final, executed, registered, inst, found, key, nonempty⟩

end DMProxy.Registry
