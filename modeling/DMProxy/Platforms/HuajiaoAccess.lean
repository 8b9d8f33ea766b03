import DMProxy.Platforms.Huajiao

/-!
# The bytes huajiao reads of a message

Each parser passes the rest of the message behind a header to RC4 or to protobuf, and computes
its length by an unsigned subtraction that nothing guards.
-/

namespace DMProxy.Platforms.Huajiao

open DMProxy.Text

/-- A pointer into a message and a length, as they are passed on. -/
structure Access where
  offset : Nat
  length : Nat
  deriving DecidableEq, Repr

/-- `data + offset` and the `uint32_t` that `size - offset` becomes.  The subtraction of two
`size_t` wraps around below zero, and what is left of it in 32 bits is the same either way. -/
def access (offset : Nat) (data : Bytes) : Access where
  offset := offset
  length := (data.length + unsignedRange - offset) % unsignedRange

/-- The bytes of the access are bytes of the message. -/
def Access.Inside (access : Access) (data : Bytes) : Prop :=
  access.offset + access.length ≤ data.length

instance (access : Access) (data : Bytes) : Decidable (access.Inside data) :=
  inferInstanceAs (Decidable (_ ≤ _))

/-- The accesses of `parse_message_packet`.  The second parser starts over with the whole
message.  What follows an access outside of the message is unknown. -/
def messageAccesses (libraries : Libraries) (data : Bytes) : List Access :=
  if data = [0, 0, 0, 0] then []
  else
    match rest 4 data with
    | none => [access 4 data]
    | some body =>
        if (libraries.parseMessage body).msgid = loginResp then [access 4 data, access 4 data]
        else [access 4 data]

/-- The accesses of `handle_binary_message`. -/
def accesses (libraries : Libraries) (data : Bytes) (state : State) : List Access :=
  if state.handshake then
    if state.bLogin then messageAccesses libraries data else [access 4 data]
  else [access 6 data]

/-- The size of the header the first parser skips. -/
def headerSize (state : State) : Nat :=
  if state.handshake then 4 else 6

/-- The subtraction does not wrap around, the access is inside the message, and it takes
the bytes that the parser is modelled with. -/
structure Access.Sound (access : Access) (data : Bytes) : Prop where
  exact : access.offset ≤ data.length
  inside : access.Inside data
  bytes : rest access.offset data = some ((data.drop access.offset).take access.length)

theorem sound_access_iff {offset : Nat} {data : Bytes} :
    (access offset data).Sound data ↔ offset ≤ data.length := by
  refine ⟨fun sound => sound.exact, fun long => ?_⟩
  have length : (access offset data).length = (data.length - offset) % unsignedRange := by
    have shifted : data.length + unsignedRange - offset =
        data.length - offset + unsignedRange := by omega
    rw [access, shifted, Nat.add_mod_right]
  refine ⟨long, ?_, ?_⟩
  · have most := Nat.mod_le (data.length - offset) unsignedRange
    rw [Access.Inside, length]
    simp only [access]
    omega
  · rw [length]
    exact if_pos long

/-- Whatever is passed on begins behind the header of the phase. -/
theorem eq_access_of_mem {libraries : Libraries} {data : Bytes} {state : State} {read : Access}
    (member : read ∈ accesses libraries data state) : read = access (headerSize state) data := by
  simp only [accesses, messageAccesses] at member
  simp only [headerSize]
  split at member
  next handshake =>
    rw [if_pos handshake]
    split at member
    next =>
      split at member
      next => cases member
      next =>
        split at member
        next => exact List.mem_singleton.mp member
        next =>
          split at member
          next => simpa using member
          next => exact List.mem_singleton.mp member
    next => exact List.mem_singleton.mp member
  next handshake =>
    rw [if_neg handshake]
    exact List.mem_singleton.mp member

theorem fault_parseLoginResponsePacket {libraries : Libraries} {data : Bytes} {state : State} :
    .fault ∈ (parseLoginResponsePacket libraries data state).2 ↔ data.length < 4 := by
  simp only [parseLoginResponsePacket, rest]
  by_cases long : 4 ≤ data.length
  · rw [if_pos long]
    dsimp only
    split <;> simp [long]
  · rw [if_neg long]
    simpa using long

theorem fault_parseHandshakePacket {libraries : Libraries} {data : Bytes} {state : State} :
    .fault ∈ (parseHandshakePacket libraries data state).2 ↔ data.length < 6 := by
  simp only [parseHandshakePacket, rest]
  by_cases long : 6 ≤ data.length
  · rw [if_pos long]
    dsimp only
    split <;> simp [long]
  · rw [if_neg long]
    simpa using long

theorem fault_notMem_parseJsonMessage (libraries : Libraries) (message : Bytes) :
    .fault ∉ parseJsonMessage libraries message := by
  simp only [parseJsonMessage]
  split
  next => exact List.not_mem_nil
  next => simp

theorem fault_notMem_parseNewMessageNotify (libraries : Libraries) (message : HuajiaoMessage) :
    .fault ∉ parseNewMessageNotify libraries message := by
  simp only [parseNewMessageNotify]
  split
  next =>
    split
    next =>
      split
      next => exact fault_notMem_parseJsonMessage libraries _
      next => exact List.not_mem_nil
    next =>
      split
      next =>
        simp only [List.mem_flatMap, not_exists, not_and]
        intro data _
        split
        next => exact List.not_mem_nil
        next => exact fault_notMem_parseJsonMessage libraries _
      next => exact List.not_mem_nil
  next => exact List.not_mem_nil

theorem fault_parseMessagePacket {libraries : Libraries} {data : Bytes} {state : State} :
    .fault ∈ (parseMessagePacket libraries data state).2 ↔ data.length < 4 := by
  simp only [parseMessagePacket]
  split
  next beat => simp [beat]
  next =>
    simp only [rest]
    by_cases long : 4 ≤ data.length
    · rw [if_pos long]
      dsimp only
      split
      next => exact fault_parseLoginResponsePacket
      next =>
        split
        next =>
          exact iff_of_false (fault_notMem_parseNewMessageNotify libraries _) (by omega)
        next => simp [long]
    · rw [if_neg long]
      simpa using long

/-- A message is handled without a fault exactly if the header of the phase fits into it. -/
theorem fault_handleBinaryMessage {libraries : Libraries} {data : Bytes} {state : State} :
    .fault ∈ (handleBinaryMessage libraries data state).2 ↔ data.length < headerSize state := by
  simp only [handleBinaryMessage, headerSize]
  split
  next =>
    split
    next => exact fault_parseMessagePacket
    next => exact fault_parseLoginResponsePacket
  next => exact fault_parseHandshakePacket

/-- A message that is shorter than the header is read all the same. -/
theorem access_mem_of_short {libraries : Libraries} {data : Bytes} {state : State}
    (short : data.length < headerSize state) :
    access (headerSize state) data ∈ accesses libraries data state := by
  simp only [headerSize] at short ⊢
  simp only [accesses, messageAccesses]
  split
  next handshake =>
    rw [if_pos handshake] at short
    have noBeat : data ≠ [0, 0, 0, 0] := by
      intro beat
      subst beat
      exact absurd short (by decide)
    have outside : rest 4 data = none := if_neg (Nat.not_le.mpr short)
    rw [if_neg noBeat, outside]
    simp
  next => simp

/-- All accesses stay inside the message, without a subtraction that wraps around, exactly if
the message is at least as long as the header of the phase, and exactly then nothing faults. -/
theorem sound_accesses_iff (libraries : Libraries) (data : Bytes) (state : State) :
    ((∀ read ∈ accesses libraries data state, read.Sound data) ↔
        headerSize state ≤ data.length) ∧
      (.fault ∉ (handleBinaryMessage libraries data state).2 ↔
        headerSize state ≤ data.length) := by
  rw [fault_handleBinaryMessage, Nat.not_lt]
  refine ⟨⟨fun sound => ?_, fun long read member => ?_⟩, Iff.rfl⟩
  · by_contra short
    have member := sound _ (access_mem_of_short (Nat.not_le.mp short))
    exact short (sound_access_iff.mp member)
  · rw [eq_access_of_mem member]
    exact sound_access_iff.mpr long

/-- An empty message before the handshake: the length wraps around. -/
theorem not_sound_accesses :
    ¬ ∀ (libraries : Libraries) (data : Bytes) (state : State),
      ∀ read ∈ accesses libraries data state, read.Sound data := by
  intro sound
  have inside := (sound default [] .fresh _ List.mem_cons_self).inside
  revert inside
  decide

end DMProxy.Platforms.Huajiao
