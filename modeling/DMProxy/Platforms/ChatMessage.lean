import DMProxy.Platforms.Libraries
import DMProxy.Text.JsonDump

/-!
# What a client makes of a chat message

`publish_json` hides the nickname and the text of a chat message in base64.  A client that
parses the published text and decodes these two members has the message again.
-/

namespace DMProxy.Platforms

open DMProxy.Text

/-- The arguments of `publish_json`. -/
structure ChatMessage where
  uid : Bytes
  nickname : Bytes
  text : Bytes
  deriving DecidableEq, Repr

namespace ChatMessage

/-- The text that `publish_json` publishes. -/
def published (message : ChatMessage) : Bytes :=
  publishJson message.uid message.nickname message.text

/-- How a client reads a text, with the parser and the decoder that belong to this program. -/
def read (received : Bytes) : Option ChatMessage := do
  let document ← JsonText.parse received
  let nickname ← base64Decode (document.member (ascii "nickname")).stringValue
  let text ← base64Decode (document.member (ascii "text")).stringValue
  return { uid := (document.member (ascii "uid")).stringValue, nickname, text }

/-- Neither of the encoded members is too long for the decoder. -/
def Decodable (message : ChatMessage) : Prop :=
  message.nickname.length ≤ base64Capacity ∧ message.text.length ≤ base64Capacity

/-- The document that is published. -/
def document (message : ChatMessage) : JsonText :=
  .object [(ascii "nickname", .string (base64Encode message.nickname)),
    (ascii "text", .string (base64Encode message.text)), (ascii "uid", .string message.uid)]

theorem parse_published (message : ChatMessage) :
    JsonText.parse message.published = some message.document :=
  JsonValue.parse_dumpStrings _

/-- The client finds the members, whatever they are. -/
theorem members_document (message : ChatMessage) :
    (message.document.member (ascii "nickname")).stringValue = base64Encode message.nickname ∧
      (message.document.member (ascii "text")).stringValue = base64Encode message.text ∧
      (message.document.member (ascii "uid")).stringValue = message.uid :=
  ⟨rfl, rfl, rfl⟩

theorem read_published (message : ChatMessage) :
    read message.published = do
      let nickname ← base64Decode (base64Encode message.nickname)
      let text ← base64Decode (base64Encode message.text)
      return { uid := message.uid, nickname, text } := by
  rcases message.members_document with ⟨named, spoken, identified⟩
  rw [read, parse_published, Option.bind_eq_bind, Option.bind_some, named, spoken, identified]

theorem read_of_decodable {message : ChatMessage} (decodable : message.Decodable) :
    read message.published = some message := by
  rw [read_published, base64Decode_encode decodable.1, base64Decode_encode decodable.2]
  rfl

/-- Reading gives back the message that was published exactly if its parts are not too long. -/
theorem read_published_iff (message : ChatMessage) :
    read message.published = some message ↔ message.Decodable := by
  constructor
  · intro found
    rw [read_published] at found
    rcases Option.bind_eq_some_iff.mp found with ⟨nickname, decoded, found⟩
    rcases Option.bind_eq_some_iff.mp found with ⟨text, decoded', same⟩
    have parts := congrArg (fun message => (message.nickname, message.text)) (Option.some.inj same)
    simp only [Prod.mk.injEq] at parts
    rw [parts.1] at decoded
    rw [parts.2] at decoded'
    exact ⟨fits_of_base64Decode decoded, fits_of_base64Decode decoded'⟩
  · exact read_of_decodable

end ChatMessage

end DMProxy.Platforms
