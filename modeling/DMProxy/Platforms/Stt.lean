import DMProxy.Text.Bytes

/-!
# STT, the serialization of douyu

A list of pairs is the concatenation of `key@=value/`.  A packet puts the length of
what follows the first word in front, twice, then a message type, and ends the text
with a NUL.
-/

namespace DMProxy.Platforms

open DMProxy.Text

/-- `STT_t`: the pairs inserted, at most one for each key. -/
abbrev Stt := List (Bytes × Bytes)

namespace Stt

/-- `std::map::insert` keeps the pair already stored under a key. -/
def insert (stt : Stt) (entry : Bytes × Bytes) : Stt :=
  if stt.any fun other => other.1 == entry.1 then stt else stt ++ [entry]

/-- `std::map::operator[]`: the default of a missing key is the empty string. -/
def get (stt : Stt) (key : Bytes) : Bytes :=
  ((stt.find? fun entry => entry.1 == key).map Prod.snd).getD []

/-- Cut a token at its first `@=`; `none` when there is none. -/
def cut : Bytes → Option (Bytes × Bytes)
  | 64 :: 61 :: rest => some ([], rest)
  | byte :: rest => (cut rest).map fun entry => (byte :: entry.1, entry.2)
  | [] => none

/-- `boost::tokenizer` with the dropped separator `/`: the non-empty pieces. -/
def tokens (text : Bytes) : List Bytes :=
  (text.splitOn 47).filter fun token => !token.isEmpty

end Stt

/-- `parse_stt`. -/
def parseStt (msg : Bytes) : Stt :=
  ((Stt.tokens (cString msg)).filterMap Stt.cut).foldl Stt.insert []

/-- The text `make_stt` builds from its pairs. -/
def sttText (pairs : List (Bytes × Bytes)) : Bytes :=
  pairs.flatMap fun entry => entry.1 ++ ascii "@=" ++ entry.2 ++ ascii "/"

/-- `make_stt`.  `std::strcpy` copies up to the first NUL into a zeroed buffer that is
one longer than the text. -/
def makeStt (pairs : List (Bytes × Bytes)) : Bytes :=
  let result := sttText pairs
  let packetSize := 4 + 4 + 4 + result.length + 1
  let body := cString result
  toLittleEndian32 (packetSize - 4) ++ toLittleEndian32 (packetSize - 4) ++ [177, 2, 0, 0] ++
    body ++ List.replicate (result.length + 1 - body.length) 0

end DMProxy.Platforms
