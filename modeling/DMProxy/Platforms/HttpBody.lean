import DMProxy.Platforms.Inbound
import DMProxy.Platforms.Reactions
import DMProxy.Text.Http

/-!
# The body of the room response

The response to the HTTP request is read up to its status line, up to its blank line and then to
its end, and each of these reads may take more than it waits for.  What has come along with the
header block is dropped, and each later read appends everything since the header block once more.
-/

namespace DMProxy.Platforms.Bilibili

open DMProxy.Async
open DMProxy.Network
open DMProxy.Text
open DMProxy.Transition

/-! ## Responses -/

/-- A response with status 200. -/
structure OkResponse where
  /-- the version after `HTTP/` -/
  version : Bytes
  reason : Bytes
  /-- the header lines -/
  lines : List Bytes
  body : Bytes
  visible : ∀ byte ∈ version, IsVisible byte
  field : ∀ byte ∈ reason, IsField byte
  listed : ∀ line ∈ lines, line ≠ [] ∧ ∀ byte ∈ line, IsField byte

namespace OkResponse

variable {response : OkResponse}

/-- The status line without its end. -/
def statusText (response : OkResponse) : Bytes :=
  (ascii "HTTP/" ++ response.version) ++ (ascii " 200" ++ 32 :: response.reason)

/-- The header lines and the blank line. -/
def headerBlock (response : OkResponse) : Bytes :=
  response.lines.flatMap (· ++ crlf) ++ crlf

/-- All that comes before the body. -/
def head (response : OkResponse) : Bytes :=
  response.statusText ++ crlf ++ response.headerBlock

def bytes (response : OkResponse) : Bytes :=
  response.head ++ response.body

end OkResponse

/-! ## Delimiters -/

variable {first : UInt8} {pattern line tail data more : Bytes}

theorem contains_append_of_notMem (absent : first ∉ line) (rest : Bytes) :
    contains (first :: pattern) (line ++ rest) = contains (first :: pattern) rest := by
  induction line with
  | nil => rfl
  | cons byte line ih =>
      rw [List.mem_cons, not_or] at absent
      have differ : (first == byte) = false := beq_eq_false_iff_ne.mpr absent.1
      simp only [List.cons_append, contains, List.isPrefixOf, differ, Bool.false_and,
        Bool.false_or]
      exact ih absent.2

theorem length_le_of_contains {text : Bytes} (found : contains pattern text = true) :
    pattern.length ≤ text.length := by
  induction text with
  | nil =>
      simp only [contains, List.isEmpty_iff] at found
      rw [found]
  | cons byte text ih =>
      simp only [contains, Bool.or_eq_true, List.isPrefixOf_iff_prefix] at found
      rcases found with begins | later
      · exact begins.length_le
      · exact Nat.le_succ_of_le (ih later)

/-- A read until a delimiter has taken what comes before it. -/
theorem split_of_contains (absent : first ∉ line) (split : data ++ more = line ++ tail)
    (found : contains (first :: pattern) data = true) :
    ∃ rest, data = line ++ rest ∧ rest ++ more = tail ∧
      contains (first :: pattern) rest = true := by
  rcases List.append_eq_append_iff.mp split with ⟨missing, rfl, _⟩ | ⟨rest, rfl, rfl⟩
  · have nothing : first ∉ data := fun member => absent (List.mem_append_left _ member)
    have nowhere := @contains_append_of_notMem _ pattern _ nothing []
    rw [List.append_nil, found] at nowhere
    cases nowhere
  · rw [contains_append_of_notMem absent] at found
    exact ⟨rest, rfl, rfl, found⟩

theorem notMem_of_isVisible {text : Bytes} (visible : ∀ byte ∈ text, IsVisible byte) :
    (13 : UInt8) ∉ text := by
  intro member
  exact absurd (visible 13 member) (by decide)

theorem notMem_of_isField {text : Bytes} (field : ∀ byte ∈ text, IsField byte) :
    (13 : UInt8) ∉ text := by
  intro member
  exact absurd (field 13 member) (by decide)

/-- Two bytes at least of which the first two are a line end. -/
theorem crlf_append_of_split {rest : Bytes} (split : rest ++ more = crlf ++ tail)
    (long : 2 ≤ rest.length) : ∃ others, rest = crlf ++ others ∧ others ++ more = tail := by
  match rest with
  | [] | [_] => simp at long
  | carriage :: feed :: others =>
      simp only [crlf, List.cons_append, List.nil_append, List.cons.injEq] at split
      rcases split with ⟨rfl, rfl, split⟩
      exact ⟨others, rfl, split⟩

theorem OkResponse.notMem_statusText (response : OkResponse) :
    (13 : UInt8) ∉ response.statusText := by
  have version := notMem_of_isVisible response.visible
  have reason := notMem_of_isField response.field
  have before : (13 : UInt8) ∉ ascii "HTTP/" := by decide
  have code : (13 : UInt8) ∉ ascii " 200" := by decide
  simp only [statusText, List.mem_append, List.mem_cons, not_or]
  exact ⟨⟨before, version⟩, code, by decide, reason⟩

/-- The first read has taken the status line. -/
theorem OkResponse.statusLine_of_contains {response : OkResponse}
    (split : data ++ more = response.bytes) (found : contains crlf data = true) :
    ∃ remaining, data = response.statusText ++ crlf ++ remaining ∧
      remaining ++ more = response.headerBlock ++ response.body := by
  rw [bytes, head, List.append_assoc, List.append_assoc] at split
  rcases split_of_contains response.notMem_statusText split found with
    ⟨rest, rfl, split, found⟩
  rcases crlf_append_of_split split (length_le_of_contains found) with
    ⟨remaining, rfl, left⟩
  exact ⟨remaining, by rw [List.append_assoc], left⟩

/-- No header line begins with a line end. -/
theorem ne_crlf_append {line : Bytes} (nonempty : line ≠ []) (absent : (13 : UInt8) ∉ line)
    (rest others : Bytes) : line ++ rest ≠ crlf ++ others := by
  intro same
  cases line with
  | nil => exact nonempty rfl
  | cons byte line =>
      simp only [crlf, List.cons_append, List.cons.injEq] at same
      rw [same.1] at absent
      exact absent List.mem_cons_self

/-- A blank line that begins within a line end is that line end and another one. -/
theorem contains_blankLine_crlf {rest : Bytes} (found : contains blankLine (crlf ++ rest) = true) :
    contains blankLine rest = true ∨ ∃ others, rest = crlf ++ others := by
  simp only [crlf, List.cons_append, List.nil_append, contains, Bool.or_eq_true,
    List.isPrefixOf_iff_prefix] at found
  rcases found with begins | inside | later
  · rcases begins with ⟨others, same⟩
    simp only [blankLine, List.cons_append, List.nil_append, List.cons.injEq, true_and] at same
    exact Or.inr ⟨others, same.symm⟩
  · rcases inside with ⟨others, same⟩
    simp [blankLine] at same
  · exact Or.inl later

/-- The read until the blank line has taken the header lines. -/
theorem length_le_of_contains_blankLine {lines : List Bytes} {data more body : Bytes}
    (listed : ∀ line ∈ lines, line ≠ [] ∧ ∀ byte ∈ line, IsField byte)
    (split : data ++ more = lines.flatMap (· ++ crlf) ++ (crlf ++ body))
    (found : contains blankLine data = true) :
    (lines.flatMap (· ++ crlf) ++ crlf).length ≤ data.length := by
  induction lines generalizing data with
  | nil => exact Nat.le_trans (by decide) (length_le_of_contains found)
  | cons line lines ih =>
      rw [List.forall_mem_cons] at listed
      rcases listed with ⟨⟨_, field⟩, listed⟩
      simp only [List.flatMap_cons, List.append_assoc] at split ⊢
      rcases split_of_contains (notMem_of_isField field) split found with
        ⟨rest, rfl, left, inside⟩
      have long := length_le_of_contains inside
      rcases crlf_append_of_split left (Nat.le_trans (by decide) long) with ⟨others, rfl, after⟩
      simp only [List.length_append, Nat.add_le_add_iff_left]
      rw [← List.length_append]
      rcases contains_blankLine_crlf inside with later | ⟨body', rfl⟩
      · exact ih listed after later
      · cases lines with
        | nil => simp
        | cons second lines =>
            rcases listed second List.mem_cons_self with ⟨nonempty, field'⟩
            simp only [List.flatMap_cons, List.append_assoc] at after
            exact absurd after.symm (ne_crlf_append nonempty (notMem_of_isField field') _ _)

/-! ## The status line -/

theorem isSpace_of_isVisible {byte : UInt8} (visible : IsVisible byte) :
    isSpace byte = false := by
  rcases visible with ⟨low, _⟩
  have high : ¬byte ≤ 13 := UInt8.not_le.mpr (UInt8.lt_of_lt_of_le (by decide) low)
  have differ : byte ≠ 32 := by
    intro same
    subst same
    exact absurd low (by decide)
  simp [isSpace, high, differ]

/-- A word that is followed by a blank. -/
theorem readWord_append {word : Bytes} (visible : ∀ byte ∈ word, isSpace byte = false)
    (nonempty : word ≠ []) (rest : Bytes) :
    readWord (word ++ 32 :: rest) = some (word, 32 :: rest) := by
  have blank : isSpace 32 = true := by decide
  have inside : ∀ byte ∈ word, (!isSpace byte) = true := by
    intro byte member
    rw [visible byte member]
    rfl
  have skipped : (word ++ 32 :: rest).dropWhile isSpace = word ++ 32 :: rest := by
    cases word with
    | nil => exact absurd rfl nonempty
    | cons byte word =>
        rw [List.cons_append, List.dropWhile_cons_of_neg]
        rw [visible byte List.mem_cons_self]
        exact Bool.false_ne_true
  simp only [readWord, skipped, List.takeWhile_append_of_pos inside,
    List.dropWhile_append_of_pos inside]
  simp [blank, nonempty]

/-- The status code 200 that is followed by a blank. -/
theorem readUnsigned_ok (rest : Bytes) :
    readUnsigned (ascii " 200" ++ 32 :: rest) = some (200, 32 :: rest) := by
  simp [readUnsigned, ascii, isSpace, digitsValue, unsignedRange]

theorem getLine_append {line : Bytes} (absent : (10 : UInt8) ∉ line) (rest : Bytes) :
    getLine (line ++ 10 :: rest) = some (line, rest) := by
  have inside : ∀ byte ∈ line, (byte != 10) = true := by
    intro byte member
    exact bne_iff_ne.mpr (ne_of_mem_of_not_mem member absent)
  simp only [getLine, List.takeWhile_append_of_pos inside, List.dropWhile_append_of_pos inside]
  simp

theorem OkResponse.parseStatusLine_eq (response : OkResponse) (remaining : Bytes) :
    parseStatusLine (response.statusText ++ crlf ++ remaining) =
      some (ascii "HTTP/" ++ response.version, 200, remaining) := by
  have named : ∀ byte ∈ ascii "HTTP/", isSpace byte = false := by decide
  have word : ∀ byte ∈ ascii "HTTP/" ++ response.version, isSpace byte = false := by
    intro byte member
    rcases List.mem_append.mp member with fixed | version
    · exact named byte fixed
    · exact isSpace_of_isVisible (response.visible byte version)
  have absent : (10 : UInt8) ∉ 32 :: response.reason ++ [13] := by
    intro member
    simp only [List.mem_append, List.mem_cons, List.not_mem_nil, or_false] at member
    rcases member with (blank | inside) | carriage
    · cases blank
    · exact (response.field 10 inside).2 rfl
    · cases carriage
  have shape : response.statusText ++ crlf ++ remaining =
      (ascii "HTTP/" ++ response.version) ++
        (ascii " 200" ++ 32 :: (response.reason ++ crlf ++ remaining)) := by
    simp only [statusText, List.append_assoc, List.cons_append]
  have line : 32 :: (response.reason ++ crlf ++ remaining) =
      32 :: response.reason ++ [13] ++ 10 :: remaining := by
    simp [crlf]
  have code : ascii " 200" = 32 :: [50, 48, 48] := by decide
  have begun : ascii "HTTP/" ++ response.version ≠ [] := by simp [ascii]
  have versionRead : readWord (response.statusText ++ crlf ++ remaining) =
      some (ascii "HTTP/" ++ response.version,
        ascii " 200" ++ 32 :: (response.reason ++ crlf ++ remaining)) := by
    rw [shape, code]
    exact readWord_append word begun _
  simp only [parseStatusLine, versionRead, Option.bind_eq_bind, Option.bind_some,
    readUnsigned_ok]
  rw [line, getLine_append absent]
  rfl

/-! ## What is appended -/

/-- The bytes appended to `m_live_msg` when the pieces are read one after the other: the buffer is
never emptied. -/
def appended (buffer : Bytes) : List Bytes → Bytes
  | [] => []
  | piece :: pieces => buffer ++ piece ++ appended (buffer ++ piece) pieces

/-- The bytes that are appended again later. -/
def repeated (buffer : Bytes) : List Bytes → Bytes
  | [] | [_] => []
  | piece :: pieces => buffer ++ piece ++ repeated (buffer ++ piece) pieces

theorem appended_concat (buffer : Bytes) (pieces : List Bytes) (piece : Bytes) :
    appended buffer (pieces ++ [piece]) =
      appended buffer pieces ++ (buffer ++ pieces.flatten ++ piece) := by
  induction pieces generalizing buffer with
  | nil => simp [appended]
  | cons first pieces ih => simp [appended, ih]

/-- The last read appends all pieces at once. -/
theorem appended_eq (buffer : Bytes) {pieces : List Bytes} (nonempty : pieces ≠ []) :
    appended buffer pieces = repeated buffer pieces ++ (buffer ++ pieces.flatten) := by
  induction pieces generalizing buffer with
  | nil => exact absurd rfl nonempty
  | cons piece pieces ih =>
      cases pieces with
      | nil => simp [appended, repeated]
      | cons second pieces =>
          have later := ih (buffer ++ piece) (List.cons_ne_nil second pieces)
          rw [appended, later]
          simp [repeated]

theorem appended_nil (pieces : List Bytes) :
    appended [] pieces = repeated [] pieces ++ pieces.flatten := by
  cases pieces with
  | nil => rfl
  | cons piece pieces => exact appended_eq [] (List.cons_ne_nil _ _)

/-! ## Runs -/

/-- The request was sent, and its response is awaited. -/
def requested : State :=
  { State.fresh with io := ⟨true, [⟨.httpReadStatusLine, .running⟩]⟩ }

/-- The instance that reads a response. -/
def fetching (libraries : Libraries) (roomid : Bytes) (response : OkResponse) :
    Machine (Inbound State Request) (Arrival Nat) :=
  (tcp libraries roomid).receiving (fun _ => none) requested response.bytes

/-- Nothing but the end of the stream is to come. -/
structure AtEnd (inbound : Inbound State Request) : Prop where
  unread : inbound.unread = []
  waits : inbound.state.io.pending = [⟨.httpReadContent, .running⟩]

/-- The instance is started, resolves and connects to its server, and writes the request. -/
def asks (libraries : Libraries) (roomid : Bytes) (uid : Nat) : Option (State × List Effect) :=
  [Progress.finish 0 (.success []), .run 0, .finish 0 (.success []), .run 0,
    .finish 0 (.success []), .run 0].foldlM
    (fun before progress => step libraries roomid uid before.1 progress) (start roomid .fresh, [])

/-- The stream ends, and the handler of the pending read runs. -/
def ends (libraries : Libraries) (roomid : Bytes) (uid : Nat) (state : State) :
    Option (State × List Effect) :=
  (step libraries roomid uid state (.finish 0 (.failure .eof))).bind fun ready =>
    step libraries roomid uid ready.1 (.run 0)

/-- The state in which that handler calls `parse_live_msg`. -/
def parsing (state : State) : State :=
  closeSocket { state with io := { state.io with pending := [] } }

/-- The request is on its way before the response is read. -/
theorem asks_eq (libraries : Libraries) (roomid : Bytes) (uid : Nat) :
    asks libraries roomid uid = some (requested, []) := by
  rfl

variable {libraries : Libraries} {roomid : Bytes} {response : OkResponse}
  {inbound next : Inbound State Request} {request : Request} {rest : Bytes}

/-- At the end of the stream `parse_live_msg` is called. -/
theorem AtEnd.ends_eq (ended : AtEnd inbound) (uid : Nat) :
    ends libraries roomid uid inbound.state =
      some (parseLiveMsg libraries (parsing inbound.state)) := by
  simp [ends, step, ended.waits, Pending.finish, admits, Completion.failure, Pending.take, handle,
    handleHttpReadContent, receive, parsing]

/-- The read of a request is pending, and gets or has got the next bytes of the stream. -/
inductive Awaits (inbound : Inbound State Request) (request : Request) : Bytes → Prop where
  | running (waits : inbound.state.io.pending = [⟨request, .running⟩])
      (lacking : admits inbound.state.response request (.success inbound.filled) = false) :
      Awaits inbound request (inbound.filled ++ inbound.unread)
  | ready {data : Bytes} (waits : inbound.state.io.pending = [⟨request, .ready (.success data)⟩])
      (complete : admits inbound.state.response request (.success data) = true)
      (nothing : inbound.filled = []) :
      Awaits inbound request (data ++ inbound.unread)

/-- The reads that were handled have taken the stream up to the rest, and left this in the
buffer and in `m_live_msg`. -/
inductive Phase (response : OkResponse) (buffer liveMsg : Bytes) :
    List (Request × Bytes) → Request → Bytes → Prop where
  | statusLine (nothing : buffer = []) (unset : liveMsg = []) :
      Phase response buffer liveMsg [] .httpReadStatusLine response.bytes
  | header {data rest : Bytes} (split : data ++ rest = response.bytes)
      (taken : data = response.statusText ++ crlf ++ buffer) (unset : liveMsg = []) :
      Phase response buffer liveMsg [(.httpReadStatusLine, data)] .httpReadHeader rest
  | content {first second rest : Bytes} {pieces : List Bytes}
      (split : first ++ second ++ pieces.flatten ++ rest = response.bytes)
      (past : response.head.length ≤ (first ++ second).length) (held : buffer = pieces.flatten)
      (all : liveMsg = appended [] pieces) :
      Phase response buffer liveMsg
        ((.httpReadStatusLine, first) :: (.httpReadHeader, second) ::
          pieces.map fun piece => (.httpReadContent, piece))
        .httpReadContent rest

/-- The invariant of the instance. -/
structure Fetches (response : OkResponse) (inbound : Inbound State Request) (request : Request)
    (rest : Bytes) : Prop where
  isOpen : inbound.state.io.socketOpen = true
  awaits : Awaits inbound request rest
  phase : Phase response inbound.state.response inbound.state.liveMsg inbound.handled request rest

theorem fetches_init :
    Fetches response (fetching libraries roomid response).init .httpReadStatusLine
      response.bytes where
  isOpen := rfl
  awaits := .running rfl rfl
  phase := .statusLine rfl rfl

theorem Fetches.segment (fetches : Fetches response inbound request rest) {index count : Nat}
    (stepped : (fetching libraries roomid response).step inbound (.segment index count) =
      some next) : Fetches response next request rest := by
  rcases fetches with ⟨isOpen, awaits, phase⟩
  simp only [fetching, TcpPlatform.receiving, tcp] at stepped
  cases awaits with
  | ready waits =>
      rw [waits] at stepped
      cases index with
      | zero => cases stepped
      | succ index => cases stepped
  | running waits lacking =>
      rw [waits] at stepped
      cases index with
      | succ index => cases stepped
      | zero =>
          simp only [List.getElem?_cons_zero] at stepped
          rcases Option.ite_none_right_eq_some.mp stepped with ⟨_, arrived⟩
          have whole : inbound.filled ++ inbound.unread =
              (inbound.filled ++ inbound.unread.take count) ++ inbound.unread.drop count := by
            rw [List.append_assoc, List.take_append_drop]
          rw [whole] at phase ⊢
          simp only [Pending.finish] at arrived
          by_cases complete : admits inbound.state.response request
              (.success (inbound.filled ++ inbound.unread.take count)) = true
          · rw [if_pos complete] at arrived
            cases arrived
            exact ⟨isOpen, .ready rfl complete rfl, phase⟩
          · rw [if_neg complete] at arrived
            cases arrived
            exact ⟨isOpen, .running waits (Bool.eq_false_iff.mpr complete), phase⟩

theorem Awaits.of_filled (nothing : inbound.filled = [])
    (waits : inbound.state.io.pending = [⟨request, .running⟩])
    (lacking : admits inbound.state.response request (.success []) = false) :
    Awaits inbound request inbound.unread := by
  have awaits := Awaits.running waits (nothing.symm ▸ lacking)
  rw [nothing] at awaits
  exact awaits

theorem Awaits.of_contained (nothing : inbound.filled = [])
    (waits : inbound.state.io.pending = [⟨request, .ready (.success [])⟩])
    (complete : admits inbound.state.response request (.success []) = true) :
    Awaits inbound request inbound.unread :=
  .ready waits complete nothing

/-- The status line of a response is accepted. -/
theorem handleHttpReadStatusLine_of_statusText {state : State} {remaining : Bytes}
    (held : state.response = response.statusText ++ crlf ++ remaining) :
    handleHttpReadStatusLine none state =
      (readUntil .httpReadHeader blankLine { state with response := remaining }, []) := by
  have http : (ascii "HTTP/" ++ response.version).take 5 = ascii "HTTP/" := rfl
  simp only [handleHttpReadStatusLine, held, response.parseStatusLine_eq, http, ne_eq,
    not_true_eq_false, if_false]

/-- The second read has taken the header block. -/
theorem head_length_le {first second buffer unread : Bytes}
    (split : first ++ rest = response.bytes)
    (taken : first = response.statusText ++ crlf ++ buffer) (whole : second ++ unread = rest)
    (found : contains blankLine (buffer ++ second) = true) :
    response.head.length ≤ (first ++ second).length := by
  subst whole
  subst taken
  simp only [OkResponse.bytes, OkResponse.head, List.append_assoc, List.append_cancel_left_eq]
    at split
  have left : buffer ++ second ++ unread =
      response.lines.flatMap (· ++ crlf) ++ (crlf ++ response.body) := by
    rw [List.append_assoc, split, OkResponse.headerBlock, List.append_assoc]
  have long := length_le_of_contains_blankLine response.listed left found
  simp only [OkResponse.head, OkResponse.headerBlock, List.length_append] at long ⊢
  omega

/-- The header block was taken, and all that was read is dropped. -/
theorem Phase.dropped {first second buffer liveMsg unread : Bytes} (unset : liveMsg = [])
    (split : first ++ rest = response.bytes)
    (taken : first = response.statusText ++ crlf ++ buffer) (whole : second ++ unread = rest)
    (found : contains blankLine (buffer ++ second) = true) :
    Phase response [] liveMsg [(.httpReadStatusLine, first), (.httpReadHeader, second)]
      .httpReadContent unread := by
  have past := head_length_le split taken whole found
  have together : first ++ second ++ unread = response.bytes := by
    rw [List.append_assoc, whole, split]
  exact @Phase.content _ _ _ first second _ [] (by simpa using together) past rfl unset

/-- A part of the body was read, and appended with all that is in the buffer. -/
theorem Phase.appended {buffer liveMsg data unread : Bytes} {log : List (Request × Bytes)}
    (phase : Phase response buffer liveMsg log .httpReadContent (data ++ unread)) :
    Phase response (buffer ++ data) (liveMsg ++ (buffer ++ data))
      (log ++ [(.httpReadContent, data)]) .httpReadContent unread := by
  generalize whole : data ++ unread = rest at phase
  cases phase with
  | @content first second _ pieces split past held all =>
      subst whole
      have together : first ++ second ++ (pieces ++ [data]).flatten ++ unread =
          response.bytes := by
        simp only [List.flatten_append, List.flatten_singleton, List.append_assoc] at split ⊢
        exact split
      have phase := @Phase.content response (buffer ++ data) (liveMsg ++ (buffer ++ data)) first
        second _ _ together past (by simp [held]) (by rw [appended_concat, all, held]; simp)
      rw [List.map_append] at phase
      exact phase

/-- The handler of a completed read starts the next one. -/
theorem Fetches.handle (fetches : Fetches response inbound request rest) {uid index : Nat}
    (stepped : (fetching libraries roomid response).step inbound (.handle uid index) =
      some next) : ∃ request rest, Fetches response next request rest := by
  rcases fetches with ⟨isOpen, awaits, phase⟩
  simp only [fetching, TcpPlatform.receiving, tcp] at stepped
  cases awaits with
  | running waits =>
      rw [waits] at stepped
      cases index with
      | zero => cases stepped
      | succ index => cases stepped
  | @ready data waits complete nothing =>
      rw [waits] at stepped
      cases index with
      | succ index => cases stepped
      | zero =>
          simp only [Pending.take] at stepped
          rcases Option.ite_none_right_eq_some.mp stepped with ⟨_, handled⟩
          simp only [step, waits, Pending.take, Option.map_some, Option.some.injEq] at handled
          subst handled
          generalize whole : data ++ inbound.unread = rest at phase
          generalize inbound.handled = log at phase
          cases phase with
          | statusLine empty unset =>
              simp only [admits, Completion.success, empty, List.nil_append] at complete
              rcases OkResponse.statusLine_of_contains whole complete with ⟨remaining, taken, _⟩
              simp only [handle, receive, Completion.success, empty, List.nil_append]
              rw [handleHttpReadStatusLine_of_statusText taken]
              refine ⟨.httpReadHeader, inbound.unread, ?_⟩
              simp only [readUntil]
              by_cases contained : contains blankLine remaining = true
              · rw [if_pos contained]
                refine ⟨isOpen, .of_contained nothing rfl ?_, .header whole taken unset⟩
                simpa [admits, Completion.success] using contained
              · rw [if_neg contained]
                refine ⟨isOpen, .of_filled nothing ?_ ?_, .header whole taken unset⟩
                · simp [Io.startOnSocket, Pending.start, isOpen]
                · simpa [admits, Completion.success] using contained
          | header split taken unset =>
              refine ⟨.httpReadContent, inbound.unread, isOpen, .of_filled nothing ?_ rfl,
                Phase.dropped unset split taken whole complete⟩
              simp [handle, handleHttpReadHeader, receive, Completion.success, Io.startOnSocket,
                Pending.start, isOpen]
          | content split past held all =>
              have phase := Phase.content split past held all
              rw [← whole] at phase
              refine ⟨.httpReadContent, inbound.unread, isOpen, .of_filled nothing ?_ rfl,
                phase.appended⟩
              simp [handle, handleHttpReadContent, receive, Completion.success, Io.startOnSocket,
                Pending.start, isOpen]

theorem fetches_exec {arrivals : List (Arrival Nat)}
    (executed : (fetching libraries roomid response).exec
      (fetching libraries roomid response).init arrivals = some inbound) :
    ∃ request rest, Fetches response inbound request rest := by
  have reachable : (fetching libraries roomid response).Reachable inbound :=
    Machine.Reachable.exec .init executed
  clear executed
  induction reachable with
  | init => exact ⟨_, _, fetches_init⟩
  | @step source target arrival _ _ stepped ih =>
      rcases ih with ⟨request, rest, fetches⟩
      cases arrival with
      | segment index count => exact ⟨_, _, fetches.segment stepped⟩
      | handle uid index => exact fetches.handle stepped

/-! ## The body -/

/-- The bytes of the reads up to the blank line. -/
def headReads (handled : List (Request × Bytes)) : Bytes :=
  handled.flatMap fun read => if read.1 = .httpReadContent then [] else read.2

/-- The later reads. -/
def bodyReads (handled : List (Request × Bytes)) : List Bytes :=
  handled.filterMap fun read => if read.1 = .httpReadContent then some read.2 else none

/-- The part of the body that came along with the header block, which is dropped, is what the
later reads append more than once.  So it is where the header block comes alone and the body
in at most one read. -/
def MakesUp (response : OkResponse) (handled : List (Request × Bytes)) : Prop :=
  (headReads handled).drop response.head.length = repeated [] (bodyReads handled)

instance (response : OkResponse) (handled : List (Request × Bytes)) :
    Decidable (MakesUp response handled) :=
  inferInstanceAs (Decidable (_ = _))

theorem headReads_eq (first second : Bytes) (pieces : List Bytes) :
    headReads ((.httpReadStatusLine, first) :: (.httpReadHeader, second) ::
      pieces.map fun piece => (.httpReadContent, piece)) = first ++ second := by
  simp [headReads, List.flatMap_map]

theorem bodyReads_eq (first second : Bytes) (pieces : List Bytes) :
    bodyReads ((.httpReadStatusLine, first) :: (.httpReadHeader, second) ::
      pieces.map fun piece => (.httpReadContent, piece)) = pieces := by
  simp [bodyReads, List.filterMap_map]

/-- What was appended is the body exactly if what is lost is made up for by what is repeated. -/
theorem body_appended_iff (fetches : Fetches response inbound request rest)
    (ended : AtEnd inbound) :
    inbound.state.liveMsg = response.body ↔ MakesUp response inbound.handled := by
  rcases fetches with ⟨isOpen, awaits, phase⟩
  cases awaits with
  | ready waits =>
      rw [ended.waits] at waits
      cases waits
  | running waits lacking =>
      rw [ended.waits] at waits
      cases waits
      have nothing : inbound.filled = [] := by
        simpa [admits, Completion.success] using lacking
      rw [nothing, ended.unread] at phase
      generalize inbound.handled = handled at phase ⊢
      generalize left : ([] ++ [] : Bytes) = rest at phase
      cases phase with
      | @content first second _ pieces split past held all =>
          subst left
          have body : response.body =
              (first ++ second).drop response.head.length ++ pieces.flatten := by
            have dropped := congrArg (List.drop response.head.length) split
            rw [OkResponse.bytes, List.drop_left, List.append_nil, List.append_nil,
              List.drop_append_of_le_length past] at dropped
            exact dropped.symm
          rw [MakesUp, headReads_eq, bodyReads_eq, all, body, appended_nil,
            List.append_cancel_right_eq]
          exact eq_comm

/-- An instance that has asked for its room reads the response to its end, and then calls
`parse_live_msg`.  What is parsed is the body exactly if what is lost is made up for by what is
repeated. -/
theorem liveMsg_eq_body_iff {arrivals : List (Arrival Nat)}
    (executed : (fetching libraries roomid response).exec
      (fetching libraries roomid response).init arrivals = some inbound)
    (ended : AtEnd inbound) (uid : Nat) :
    asks libraries roomid uid = some ((fetching libraries roomid response).init.state, []) ∧
      ends libraries roomid uid inbound.state =
        some (parseLiveMsg libraries (parsing inbound.state)) ∧
      ((parsing inbound.state).liveMsg = response.body ↔
        MakesUp response inbound.handled) := by
  rcases fetches_exec executed with ⟨request, rest, fetches⟩
  exact ⟨asks_eq libraries roomid uid, ended.ends_eq uid, body_appended_iff fetches ended⟩

/-- A response with the body "hi". -/
def hiResponse : OkResponse where
  version := ascii "1.0"
  reason := ascii "OK"
  lines := [ascii "Server: live"]
  body := ascii "hi"
  visible := by decide
  field := by decide
  listed := by decide

/-- The header block comes alone, and the body in one read. -/
theorem liveMsg_eq_body_hi : ∃ inbound,
    (fetching default [] hiResponse).exec (fetching default [] hiResponse).init
        [.segment 0 33, .handle 0 0, .handle 0 0, .segment 0 2, .handle 0 0] = some inbound ∧
      AtEnd inbound ∧
      ends default [] 0 inbound.state = some (parseLiveMsg default (parsing inbound.state)) ∧
      (parsing inbound.state).liveMsg = hiResponse.body := by
  refine ⟨_, rfl, ⟨rfl, rfl⟩, ?_⟩
  have iff := @liveMsg_eq_body_iff default [] hiResponse _
    [.segment 0 33, .handle 0 0, .handle 0 0, .segment 0 2, .handle 0 0] rfl ⟨rfl, rfl⟩ 0
  exact ⟨iff.2.1, iff.2.2.mpr (by decide)⟩

/-- The body is lost where it comes along with the header block. -/
theorem not_liveMsg_eq_body : ¬ ∀ (libraries : Libraries) (roomid : Bytes) (response : OkResponse)
    (arrivals : List (Arrival Nat)) (inbound : Inbound State Request),
    (fetching libraries roomid response).exec (fetching libraries roomid response).init arrivals =
      some inbound → AtEnd inbound →
    (parsing inbound.state).liveMsg = response.body := by
  intro equal
  have lost := equal default [] hiResponse [.segment 0 35, .handle 0 0, .handle 0 0] _ rfl
    ⟨rfl, rfl⟩
  revert lost
  decide

end DMProxy.Platforms.Bilibili
