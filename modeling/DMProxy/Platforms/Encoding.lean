import DMProxy.Platforms.PublishedText
import DMProxy.Text.JsonDump
import DMProxy.Text.JsonUtf8

/-!
# The encoding of what is received

The user id of a chat message is cut out of a text that was received.  If these texts are valid
UTF-8, and no surrogate that is escaped in a JSON document lacks its other half, then the chat
messages that are published are valid UTF-8.
-/

namespace DMProxy.Text.JsonText

/-! ## JSON values -/

variable {convert : Bytes → JsonNumber}

mutual

/-- The value that is read of a document; `convert` is what becomes of a number.  The last member
with a key is the one that is found. -/
def toJson (convert : Bytes → JsonNumber) : JsonText → Json
  | .null => .null
  | .bool value => .bool value
  | .number literal => .number (convert literal)
  | .string value => .string value
  | .array items => .array (toJsonItems convert items)
  | .object members => .object (toJsonMembers convert members).reverse

def toJsonItems (convert : Bytes → JsonNumber) : List JsonText → List Json
  | [] => []
  | item :: items => toJson convert item :: toJsonItems convert items

def toJsonMembers (convert : Bytes → JsonNumber) :
    List (Bytes × JsonText) → List (Bytes × Json)
  | [] => []
  | (key, value) :: members => (key, toJson convert value) :: toJsonMembers convert members

end

/-- `Json::array_items`. -/
def arrayItems : JsonText → List JsonText
  | .array items => items
  | _ => []

theorem toJsonItems_eq (items : List JsonText) :
    toJsonItems convert items = items.map (toJson convert) := by
  induction items with
  | nil => rfl
  | cons item items ih => rw [toJsonItems, ih, List.map_cons]

theorem toJsonMembers_eq (members : List (Bytes × JsonText)) :
    toJsonMembers convert members =
      members.map fun entry => (entry.1, toJson convert entry.2) := by
  induction members with
  | nil => rfl
  | cons entry members ih =>
      rcases entry with ⟨key, value⟩
      rw [toJsonMembers, ih, List.map_cons]

@[simp] theorem member_toJson (key : Bytes) (value : JsonText) :
    (value.toJson convert).member key = (value.member key).toJson convert := by
  cases value with
  | object members =>
      rw [toJson, toJsonMembers_eq, ← List.map_reverse, Json.member, member, List.find?_map]
      simp only [Function.comp_def]
      cases members.reverse.find? fun entry => entry.1 == key with
      | none => simp [toJson]
      | some entry => rfl
  | null | bool | number | string | array => simp [toJson, Json.member, member]

@[simp] theorem stringValue_toJson (value : JsonText) :
    (value.toJson convert).stringValue = value.stringValue := by
  cases value <;> simp [toJson, Json.stringValue, stringValue]

@[simp] theorem arrayItems_toJson (value : JsonText) :
    (value.toJson convert).arrayItems = value.arrayItems.map (toJson convert) := by
  cases value <;> simp [toJson, Json.arrayItems, arrayItems, toJsonItems_eq]

/-! ## The strings that are read -/

theorem mem_readStringsItems {items : List JsonText} {item : JsonText} (listed : item ∈ items)
    {text : Bytes} (member : text ∈ item.readStrings) : text ∈ readStringsItems items := by
  induction items with
  | nil => cases listed
  | cons head items ih =>
      rw [readStringsItems, List.mem_append]
      rcases List.mem_cons.mp listed with here | later
      · subst here
        exact .inl member
      · exact .inr (ih later)

theorem mem_readStringsMembers {members : List (Bytes × JsonText)} {entry : Bytes × JsonText}
    (listed : entry ∈ members) {text : Bytes} (member : text ∈ entry.2.readStrings) :
    text ∈ readStringsMembers members := by
  induction members with
  | nil => cases listed
  | cons head members ih =>
      rw [readStringsMembers, List.mem_cons, List.mem_append]
      rcases List.mem_cons.mp listed with here | later
      · subst here
        exact .inr (.inl member)
      · exact .inr (.inr (ih later))

theorem readStrings_member {key text : Bytes} {value : JsonText}
    (inside : text ∈ (value.member key).readStrings) : text ∈ value.readStrings := by
  cases value with
  | object members =>
      rw [member] at inside
      cases found : members.reverse.find? fun entry => entry.1 == key with
      | none =>
          rw [found] at inside
          cases inside
      | some entry =>
          rw [found] at inside
          rw [readStrings]
          have listed := List.mem_reverse.mp (List.mem_of_find?_eq_some found)
          exact mem_readStringsMembers listed inside
  | null | bool | number | string | array => cases inside

theorem readStrings_arrayItems {value item : JsonText} (listed : item ∈ value.arrayItems)
    {text : Bytes} (inside : text ∈ item.readStrings) : text ∈ value.readStrings := by
  cases value with
  | array items =>
      rw [readStrings]
      exact mem_readStringsItems listed inside
  | null | bool | number | string | object => cases listed

theorem mem_readStrings_of_toJson {value : JsonText} {text : Bytes}
    (same : value.toJson convert = .string text) : text ∈ value.readStrings := by
  cases value with
  | string value =>
      rw [toJson, Json.string.injEq] at same
      exact same ▸ List.mem_singleton_self value
  | null | bool | number | array | object => simp [toJson] at same

/-- The string of a value is one of those that are read in it, or the empty default. -/
theorem utf8_stringValue {value : JsonText} (valid : ∀ text ∈ value.readStrings, Utf8 text) :
    Utf8 value.stringValue := by
  cases value with
  | string text => exact valid text (List.mem_singleton_self text)
  | null | bool | number | array | object => exact .nil

end DMProxy.Text.JsonText

namespace DMProxy.Platforms

open DMProxy.Async
open DMProxy.Network
open DMProxy.Text
open DMProxy.Transition

/-! ## STT texts -/

namespace Stt

theorem utf8_of_mem_splitOn {text : Bytes} (valid : Utf8 text) :
    ∀ token ∈ text.splitOn 47, Utf8 token := by
  induction length : text.length using Nat.strongRecOn generalizing text with
  | ind length ih =>
      intro token member
      by_cases separated : 47 ∈ text
      · rcases List.append_of_mem separated with ⟨first, second, split⟩
        subst split
        have parts := (utf8_split (by decide) first second).mp valid
        simp only [List.length_append, List.length_cons] at length
        rw [List.splitOn_append_cons_self, List.mem_append] at member
        rcases member with one | two
        · exact ih first.length (by omega) parts.1 rfl token one
        · exact ih second.length (by omega) parts.2 rfl token two
      · rw [List.splitOn_eq_singleton separated, List.mem_singleton] at member
        exact member ▸ valid

theorem eq_of_cut {token key value : Bytes} (cuts : cut token = some (key, value)) :
    token = key ++ 64 :: 61 :: value := by
  induction token using cut.induct generalizing key with
  | case1 rest =>
      rw [cut] at cuts
      cases cuts
      rfl
  | case2 byte rest other ih =>
      rw [cut, Option.map_eq_some_iff] at cuts
      · rcases cuts with ⟨⟨key, value⟩, cuts, same⟩
        cases same
        rw [ih cuts, List.cons_append]
      · exact other
  | case3 => cases cuts

theorem mem_foldl_insert {entries : List (Bytes × Bytes)} {stt : Stt} {entry : Bytes × Bytes}
    (member : entry ∈ entries.foldl insert stt) : entry ∈ stt ∨ entry ∈ entries := by
  induction entries generalizing stt with
  | nil => exact .inl member
  | cons head entries ih =>
      rcases ih member with before | later
      · simp only [insert] at before
        split at before
        next => exact .inl before
        next =>
          rcases List.mem_append.mp before with old | new
          · exact .inl old
          · exact .inr (List.mem_cons.mpr (.inl (List.mem_singleton.mp new)))
      · exact .inr (List.mem_cons_of_mem head later)

end Stt

/-- Values cut out of a valid text are valid. -/
theorem utf8_get_parseStt {msg : Bytes} (valid : Utf8 (cString msg)) (key : Bytes) :
    Utf8 ((parseStt msg).get key) := by
  rw [Stt.get]
  cases found : (parseStt msg).find? fun entry => entry.1 == key with
  | none => exact .nil
  | some entry =>
      rcases Stt.mem_foldl_insert (List.mem_of_find?_eq_some found) with start | listed
      · cases start
      · rcases List.mem_filterMap.mp listed with ⟨token, isToken, cuts⟩
        have piece := Stt.utf8_of_mem_splitOn valid token (List.mem_filter.mp isToken).1
        rw [Stt.eq_of_cut cuts, utf8_split (by decide)] at piece
        exact ((utf8_split (by decide) [] entry.2).mp piece.2).2

/-! ## What is received -/

/-- The texts out of which an upstream may cut a user id while it handles an event. -/
inductive Receives (libraries : Libraries) : Upstream → UpstreamEvent → Bytes → Prop where
  | douyu {state : Douyu.State} {index size : Nat} {payload : Bytes}
      (located : state.pending[index]? = some ⟨.readData size, .ready (.success payload)⟩) :
      Receives libraries (.douyu state) (.douyu (.run index)) (cString payload)
  | bilibili {state : Bilibili.State} {choice index size : Nat} {payload : Bytes}
      (located : state.io.pending[index]? = some ⟨.readData size, .ready (.success payload)⟩) :
      Receives libraries (.bilibili state) (.bilibili choice (.run index)) (cString payload)
  | huajiao {state : Huajiao.State} {outcome : Option ErrorCode} {payload document : Bytes}
      {message : HuajiaoMessage}
      (notified : Huajiao.notification libraries payload state = some message)
      (listed : document ∈ Huajiao.chatDocuments libraries message) :
      Receives libraries (.huajiao state) (.huajiao outcome (.message .binary payload)) document

/-- The text is valid UTF-8, and so is what is escaped in it if it is a JSON document. -/
def WellEncoded : Upstream → Bytes → Prop
  | .douyu _, text => Utf8 text
  | _, text => Utf8 text ∧ JsonText.paired (JsonText.unescaped text) = true

/-- The parser is the one of `json11`. -/
def ParsesJson (convert : Bytes → JsonNumber) (libraries : Libraries) : Prop :=
  ∀ document,
    libraries.parseJson document = (JsonText.parse document).map (JsonText.toJson convert)

variable {convert : Bytes → JsonNumber} {libraries : Libraries} {roomid : Bytes}

theorem utf8_readStrings_of_wellEncoded {document : Bytes} {value : JsonText}
    (encoded : Utf8 document ∧ JsonText.paired (JsonText.unescaped document) = true)
    (parsed : JsonText.parse document = some value) : ∀ text ∈ value.readStrings, Utf8 text :=
  (JsonText.utf8_readStrings encoded.1 parsed).mpr encoded.2

theorem Douyu.utf8_rawUid {payload uid : Bytes} (valid : Utf8 (cString payload))
    (received : rawUid payload = some uid) : Utf8 uid := by
  simp only [rawUid] at received
  split at received
  next =>
    cases received
    exact utf8_get_parseStt valid _
  next => cases received

theorem Bilibili.utf8_rawUid (parses : ParsesJson convert libraries) {payload uid : Bytes}
    (encoded : Utf8 (cString payload) ∧
      JsonText.paired (JsonText.unescaped (cString payload)) = true)
    (received : rawUid libraries payload = some uid) : Utf8 uid := by
  rw [rawUid, parses] at received
  cases parsed : JsonText.parse (cString payload) with
  | none => simp [parsed] at received
  | some value =>
      have valid := utf8_readStrings_of_wellEncoded encoded parsed
      simp only [parsed, Option.map_some, JsonText.member_toJson, JsonText.arrayItems_toJson,
        List.getElem?_map] at received
      split at received
      next => cases received
      next =>
        split at received
        next user _ found =>
          split at received
          next named _ =>
            cases received
            rw [Option.map_eq_some_iff] at found
            rcases found with ⟨user, third, rfl⟩
            rw [JsonText.arrayItems_toJson, List.getElem?_map, Option.map_eq_some_iff] at named
            rcases named with ⟨item, first, same⟩
            refine valid uid (JsonText.readStrings_member (JsonText.readStrings_arrayItems
              (List.mem_of_getElem? third) (JsonText.readStrings_arrayItems
                (List.mem_of_getElem? first) (JsonText.mem_readStrings_of_toJson same))))
          next => cases received
        next => cases received

theorem Huajiao.utf8_rawUid (parses : ParsesJson convert libraries) {document uid : Bytes}
    (encoded : Utf8 document ∧ JsonText.paired (JsonText.unescaped document) = true)
    (received : rawUid libraries document = some uid) : Utf8 uid := by
  rw [rawUid, parses, Option.bind_map] at received
  rcases Option.bind_eq_some_iff.mp received with ⟨value, parsed, received⟩
  have valid := utf8_readStrings_of_wellEncoded encoded parsed
  simp only [Function.comp_def] at received
  split at received
  next => cases received
  next =>
    cases received
    rw [JsonText.member_toJson, JsonText.member_toJson, JsonText.stringValue_toJson]
    exact JsonText.utf8_stringValue fun text inside =>
      valid text (JsonText.readStrings_member (JsonText.readStrings_member inside))

/-- A user id that is passed on is valid if what was received is well encoded. -/
theorem utf8_of_passesOn (parses : ParsesJson convert libraries) {upstream : Upstream}
    {event : UpstreamEvent} (encoded : ∀ text, Receives libraries upstream event text →
      WellEncoded upstream text) {uid : Bytes} (passed : PassesOn libraries upstream event uid) :
    Utf8 uid := by
  cases passed with
  | douyu located received => exact Douyu.utf8_rawUid (encoded _ (.douyu located)) received
  | bilibili located received =>
      exact Bilibili.utf8_rawUid parses (encoded _ (.bilibili located)) received
  | huajiao notified listed received =>
      exact Huajiao.utf8_rawUid parses (encoded _ (.huajiao notified listed)) received

theorem printsAscii_of_parses (parses : ParsesJson convert libraries)
    (prints : ∀ literal, ∀ byte ∈ (convert literal).fixedText, byte < 0x80) :
    PrintsAscii libraries := by
  intro document json parsed
  rw [parses, Option.map_eq_some_iff] at parsed
  rcases parsed with ⟨value, -, rfl⟩
  rw [JsonText.member_toJson, JsonText.member_toJson]
  have zero : ∀ byte ∈ JsonNumber.zero.fixedText, byte < 0x80 := by decide
  cases (value.member (ascii "extends")).member (ascii "userid") with
  | number literal => exact prints literal
  | null | bool | string | array | object => simpa [JsonText.toJson, Json.numberValue] using zero

/-- As long as what an upstream receives is well encoded, its chat messages are valid UTF-8. -/
theorem publishesUtf8_of_wellEncoded (parses : ParsesJson convert libraries)
    (prints : ∀ literal, ∀ byte ∈ (convert literal).fixedText, byte < 0x80) {upstream : Upstream}
    {current : Upstream × List Effect}
    (reached : (feed libraries roomid upstream).ReachableVia
      (fun before event => ∀ text, Receives libraries before.1 event text →
        WellEncoded before.1 text) current) :
    PublishesUtf8 current.2 := by
  cases reached with
  | init => exact publishesUtf8_of_noChat (by simp [feed, PublishesChat])
  | step source encoded stepped =>
      simp only [feed] at stepped
      split at stepped
      next => cases stepped
      next =>
        rw [publishesUtf8_step_iff (printsAscii_of_parses parses prints) stepped]
        exact fun uid passed => utf8_of_passesOn parses encoded passed

/-- An instance of douyu that has read a chat message. -/
def greeted : Upstream :=
  .douyu { Douyu.State.fresh with
    pending := [⟨.readData 36, .ready (.success
      (ascii "type@=chatmsg/uid@=7/nn@=a/txt@=b/" ++ [0]))⟩] }

/-- The program with the parser of `json11`; no number is converted. -/
def jsonLibraries : Libraries :=
  { (default : Libraries) with
    parseJson := fun document =>
      (JsonText.parse document).map (JsonText.toJson fun _ => .zero) }

/-- The instance has published the message. -/
def greetedNext : Upstream × List Effect :=
  ((greeted.step jsonLibraries (ascii "1") (.douyu (.run 0))).getD (greeted, []))

theorem publishesUtf8_greeted :
    .publish (publishJson (ascii "7") (ascii "a") (ascii "b")) ∈ greetedNext.2 ∧
      PublishesUtf8 greetedNext.2 := by
  have stepped : (feed jsonLibraries (ascii "1") greeted).step (greeted, [])
      (.douyu (.run 0)) = some greetedNext := by decide
  have valid : Utf8 (cString (ascii "type@=chatmsg/uid@=7/nn@=a/txt@=b/" ++ [0])) := by decide
  refine ⟨by decide, publishesUtf8_of_wellEncoded (fun _ => rfl) (fun _ => by decide)
    (.step .init ?_ stepped)⟩
  intro text received
  cases received with
  | douyu located =>
      cases located
      exact valid

end DMProxy.Platforms
