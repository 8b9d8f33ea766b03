import DMProxy.Text.Json

/-!
# Third-party decoders

The parsers the platforms call are functions of the text or bytes they are given.
A protobuf message is represented by the fields the program reads from it.
-/

namespace DMProxy.Platforms

open DMProxy.Text

/-- The fields read from `qihoo::protocol::messages::Message`. -/
structure HuajiaoMessage where
  msgid : Nat
  /-- `resp().init_login_resp()` -/
  serverRam : Bytes
  clientRam : Bytes
  /-- `resp().login().session_key()` -/
  sessionKey : Bytes
  /-- `notify().newinfo_ntf().info_content()` -/
  infoContent : Bytes
  deriving DecidableEq, Repr, Inhabited

/-- The fields read from `ChatRoomPacket::to_user_data()`. -/
structure ChatRoomDownToUser where
  result : Nat
  payloadtype : Nat
  /-- `newmsgnotify()` -/
  msgtype : Int
  memcount : Nat
  msgcontent : Bytes
  /-- `data()` of every element of `multinotify()` -/
  multinotify : List Bytes
  deriving DecidableEq, Repr, Inhabited

/-- The decoders of the libraries the program links. -/
structure Libraries where
  /-- `json11::Json::parse`; `none` when it reports an error -/
  parseJson : Bytes → Option Json
  /-- `boost::property_tree::read_xml`; `none` when it throws, and otherwise the lookup
  of a path in the tree -/
  readXml : Bytes → Option (List Bytes → Option Bytes)
  /-- RC4 under a key -/
  rc4 : Bytes → Bytes → Bytes
  /-- `Message::ParseFromArray` -/
  parseMessage : Bytes → HuajiaoMessage
  /-- `ChatRoomPacket::ParseFromString` followed by `to_user_data()` -/
  parseChatRoomPacket : Bytes → ChatRoomDownToUser
  /-- `ChatRoomNewMsg::ParseFromArray` followed by `msgcontent()` -/
  parseNewMsgContent : Bytes → Bytes
  /-- `ungzip(in, out)`; `none` when it returns false -/
  ungzip : Bytes → Option Bytes
  deriving Inhabited

/-- `platform_base::publish_json`: the text it publishes.  `json11` keeps the members
of an object sorted by key. -/
def publishJson (uid nickname text : Bytes) : Bytes :=
  Json.dumpStrings
    [(ascii "nickname", base64Encode nickname), (ascii "text", base64Encode text),
      (ascii "uid", uid)]

/-- The published text, member by member. -/
theorem publishJson_eq (uid nickname text : Bytes) :
    publishJson uid nickname text =
      ascii "\x7b\"nickname\": " ++ (Json.dumpString (base64Encode nickname) ++
        (ascii ", \"text\": " ++ (Json.dumpString (base64Encode text) ++
          (ascii ", \"uid\": " ++ (Json.dumpString uid ++ ascii "\x7d"))))) := by
  have joined (first second third : Bytes) : (ascii ", ").intercalate [first, second, third] =
      first ++ (ascii ", " ++ (second ++ (ascii ", " ++ third))) := by
    simp [List.intercalate]
  have opening : ascii "\x7b\"nickname\": " =
      ascii "\x7b" ++ (Json.dumpString (ascii "nickname") ++ ascii ": ") := by decide
  have middle : ascii ", \"text\": " =
      ascii ", " ++ (Json.dumpString (ascii "text") ++ ascii ": ") := by decide
  have last : ascii ", \"uid\": " =
      ascii ", " ++ (Json.dumpString (ascii "uid") ++ ascii ": ") := by decide
  simp only [publishJson, Json.dumpStrings, List.map_cons, List.map_nil, joined, opening, middle,
    last, List.append_assoc]

end DMProxy.Platforms
