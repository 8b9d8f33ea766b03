import DMProxy.Network.Framing
import DMProxy.Platforms.Tcp

/-!
# The bytes received from upstream

The server's bytes arrive in segments of any size.  A running read takes what arrives until
its result is complete, and its handler starts the next read.  The machine has the reads of an
instance alone; its writes and timer waits stay as they are.
-/

namespace DMProxy.Platforms

open DMProxy.Async
open DMProxy.Network
open DMProxy.Text
open DMProxy.Transition

/-- An instance that reads a stream. -/
structure Inbound (σ ω : Type) where
  state : σ
  /-- what the running read has got so far -/
  filled : Bytes
  /-- what has not arrived yet -/
  unread : Bytes
  /-- the reads that were handled, with their bytes -/
  handled : List (ω × Bytes)

/-- What happens next to such an instance. -/
inductive Arrival (ν : Type) where
  /-- The running read at a position gets the next bytes. -/
  | segment (index count : Nat)
  /-- The handler of the read at a position runs. -/
  | handle (choice : ν) (index : Nat)

namespace TcpPlatform

variable {σ ω ν : Type} [IoRequest ω] {platform : TcpPlatform σ ω ν} {limit : ω → Option Nat}
  {inbound next : Inbound σ ω} {arrival : Arrival ν}

/-- An instance in a given state, and the bytes it is sent from then on.  `limit` tells the size
of the buffer a read fills; without one the read takes any number of bytes. -/
def receiving (platform : TcpPlatform σ ω ν) (limit : ω → Option Nat) (state : σ)
    (stream : Bytes) : Machine (Inbound σ ω) (Arrival ν) where
  init := { state := state, filled := [], unread := stream, handled := [] }
  step inbound
    | .segment index count =>
        match (platform.io inbound.state).pending[index]? with
        | some ⟨request, .running⟩ =>
            if platform.action request = .read ∧ 0 < count ∧ count ≤ inbound.unread.length ∧
                ∀ most ∈ limit request, inbound.filled.length + count ≤ most then
              let filled := inbound.filled ++ inbound.unread.take count
              let unread := inbound.unread.drop count
              match Pending.finish (platform.admits inbound.state) (.success filled)
                  (platform.io inbound.state).pending index with
              | some pending =>
                  some { inbound with
                    state := platform.setIo { platform.io inbound.state with pending := pending }
                      inbound.state
                    filled := []
                    unread := unread }
              | none => some { inbound with filled := filled, unread := unread }
            else none
        | _ => none
    | .handle choice index =>
        match (platform.io inbound.state).pending.take index with
        | none => none
        | some (request, completion, _) =>
            if platform.action request = .read then
              (platform.step choice inbound.state (.run index)).map fun result =>
                { inbound with
                  state := result.1
                  handled := inbound.handled ++ [(request, completion.data)] }
            else none

/-- The pending reads. -/
def reads (platform : TcpPlatform σ ω ν) (pending : Pending ω Completion) :
    Pending ω Completion :=
  pending.filter fun operation => platform.action operation.request == .read

/-! ## Readers of frames -/

/-- A read of nothing has its result at once. -/
def awaited (size : Nat) : Status Completion :=
  if size = 0 then .ready (.success []) else .running

/-- The reads of a platform follow a framing: `request` is the read for each purpose, and
the handler of a read that has succeeded starts the one for the next purpose, as long as the
payloads are accepted. -/
structure Reader (platform : TcpPlatform σ ω ν) (limit : ω → Option Nat) (framing : Framing)
    (request : Purpose → ω) (accepts : Bytes → Prop) : Prop where
  isRead : ∀ purpose, platform.action (request purpose) = .read
  limit_eq : ∀ purpose, limit (request purpose) = some (framing.size purpose)
  admits_eq : ∀ state purpose data, platform.admits state (request purpose) (.success data) =
    (data.length == framing.size purpose)
  follows : ∀ choice state purpose data (io : Io ω), framing.Occurs purpose →
    data.length = framing.size purpose → (∀ size, purpose = .deliver size → accepts data) →
    io.socketOpen = true → platform.reads io.pending = [] →
    (io.run (platform.react choice state (request purpose) (.success data)).calls).socketOpen =
        true ∧
      platform.reads
          (io.run (platform.react choice state (request purpose) (.success data)).calls).pending =
        [⟨request (framing.follow purpose data),
          awaited (framing.size (framing.follow purpose data))⟩]

/-- The read for one purpose is pending, and gets or has got the next bytes of the stream. -/
inductive Reading (platform : TcpPlatform σ ω ν) (framing : Framing) (request : Purpose → ω)
    (inbound : Inbound σ ω) (purpose : Purpose) : Bytes → Prop where
  | waits (single : platform.reads (platform.io inbound.state).pending =
        [⟨request purpose, .running⟩])
      (lacking : inbound.filled.length < framing.size purpose) :
      Reading platform framing request inbound purpose (inbound.filled ++ inbound.unread)
  | ready {data : Bytes} (single : platform.reads (platform.io inbound.state).pending =
        [⟨request purpose, .ready (.success data)⟩])
      (whole : data.length = framing.size purpose) (nothing : inbound.filled = []) :
      Reading platform framing request inbound purpose (data ++ inbound.unread)

/-- The invariant of a reader. -/
structure Follows (platform : TcpPlatform σ ω ν) (framing : Framing) (request : Purpose → ω)
    (stream : Bytes) (inbound : Inbound σ ω) (log : List (Purpose × Bytes)) (purpose : Purpose)
    (rest : Bytes) : Prop where
  isOpen : (platform.io inbound.state).socketOpen = true
  occurs : framing.Occurs purpose
  reading : Reading platform framing request inbound purpose rest
  taken : framing.Reads stream log purpose rest
  handled : inbound.handled = log.map fun piece => (request piece.1, piece.2)

variable {framing : Framing} {request : Purpose → ω} {accepts : Bytes → Prop} {stream : Bytes}
  {log : List (Purpose × Bytes)} {purpose : Purpose} {rest : Bytes}

/-- Where the only read is at a position, it may be replaced or taken away. -/
theorem reads_at {pending : Pending ω Completion} {index : Nat}
    {operation only : Operation ω Completion} (located : pending[index]? = some operation)
    (isRead : platform.action operation.request = .read)
    (single : platform.reads pending = [only]) :
    operation = only ∧ platform.reads (pending.eraseIdx index) = [] ∧
      ∀ other, platform.action other.request = .read →
        platform.reads (pending.set index other) = [other] := by
  rcases split_of_getElem? located with ⟨before, after, rfl, replaced, erased⟩
  simp only [reads, List.filter_append, List.filter_cons, isRead, beq_self_eq_true, if_true]
    at single
  rcases List.append_eq_singleton_iff.mp single with ⟨nothing, rest⟩ | ⟨_, rest⟩
  · rw [List.cons.injEq] at rest
    refine ⟨rest.1, ?_, fun other isRead => ?_⟩
    · simp only [reads, erased, List.filter_append, nothing, rest.2, List.append_nil]
    · simp [reads, replaced, nothing, rest.2, isRead]
  · cases rest

theorem reads_startOnSocket {io : Io ω} {later : ω} (isOpen : io.socketOpen = true)
    (none : platform.reads io.pending = []) (isRead : platform.action later = .read) :
    platform.reads (io.startOnSocket later).pending = [⟨later, .running⟩] := by
  simp only [reads] at none
  simp [reads, Io.startOnSocket, Pending.start, List.filter_append, none, isOpen, isRead]

/-- Aborting what runs on an object without reads leaves the reads alone. -/
theorem reads_abort {object : IoObject} (io : Io ω)
    (apart : ∀ request, platform.action request = .read → IoRequest.object request ≠ object) :
    platform.reads (io.abort object) = platform.reads io.pending := by
  simp only [reads, Io.abort, Pending.cancel, beq_iff_eq]
  induction io.pending with
  | nil => rfl
  | cons operation pending ih =>
      rcases operation with ⟨request, status⟩
      cases status with
      | ready completion => simp only [List.map_cons, List.filter_cons, ih]
      | running =>
          by_cases isRead : platform.action request = .read
          · simp [ih, isRead, apart request isRead]
          · by_cases stopped : IoRequest.object request = object
            · simp [ih, isRead, stopped]
            · simp [ih, isRead, stopped]

/-- Starting something else leaves the reads alone. -/
theorem reads_start {later : ω} (other : platform.action later ≠ .read)
    (pending : Pending ω Completion) (status : Status Completion) :
    platform.reads (pending.start later status) = platform.reads pending := by
  simp [reads, Pending.start, List.filter_append, other]

/-- The read for the next purpose has got nothing yet. -/
theorem reading_awaited (single : platform.reads (platform.io inbound.state).pending =
      [⟨request purpose, awaited (framing.size purpose)⟩]) (nothing : inbound.filled = []) :
    Reading platform framing request inbound purpose inbound.unread := by
  by_cases empty : framing.size purpose = 0
  · rw [awaited, if_pos empty] at single
    exact .ready single (by simp [empty]) nothing
  · rw [awaited, if_neg empty] at single
    have lacking : inbound.filled.length < framing.size purpose := by
      rw [nothing]
      exact Nat.pos_of_ne_zero empty
    have waits := Reading.waits single lacking
    rwa [nothing, List.nil_append] at waits

theorem Reader.follows_segment (reader : platform.Reader limit framing request accepts)
    (follows : platform.Follows framing request stream inbound log purpose rest)
    {index count : Nat} {start : σ}
    (stepped : (platform.receiving limit start stream).step inbound (.segment index count) =
      some next) :
    platform.Follows framing request stream next log purpose rest := by
  simp only [receiving] at stepped
  split at stepped
  next held located =>
    split at stepped
    next arrives =>
      rcases arrives with ⟨isRead, positive, available, fits⟩
      rcases follows with ⟨isOpen, occurs, reading, taken, handled⟩
      cases reading with
      | ready single =>
          cases (reads_at located isRead single).1
      | waits single lacking =>
          rcases reads_at located isRead single with ⟨same, -, replaced⟩
          cases same
          have room := fits _ (reader.limit_eq purpose)
          have amount : (inbound.filled ++ inbound.unread.take count).length =
              inbound.filled.length + count := by
            simp [Nat.min_eq_left available]
          have whole : inbound.filled ++ inbound.unread = (inbound.filled ++
              inbound.unread.take count) ++ inbound.unread.drop count := by
            rw [List.append_assoc, List.take_append_drop]
          rw [whole] at taken ⊢
          split at stepped
          next pending finished =>
            cases stepped
            rcases Pending.getElem?_of_finish finished with ⟨held, located', rfl, admitted⟩
            cases located.symm.trans located'
            rw [reader.admits_eq, beq_iff_eq] at admitted
            refine ⟨?_, occurs, .ready ?_ admitted rfl, taken, handled⟩
            · rw [platform.io_setIo]
              exact isOpen
            · rw [platform.io_setIo]
              exact replaced _ isRead
          next unfinished =>
            cases stepped
            refine ⟨isOpen, occurs, .waits single ?_, taken, handled⟩
            by_contra complete
            have admitted : platform.admits inbound.state (request purpose)
                (.success (inbound.filled ++ inbound.unread.take count)) = true := by
              rw [reader.admits_eq, beq_iff_eq]
              dsimp only at complete
              omega
            cases (Pending.finish_of_getElem? located admitted).symm.trans unfinished
    next => cases stepped
  next => cases stepped

theorem Reader.follows_handle (reader : platform.Reader limit framing request accepts)
    (follows : platform.Follows framing request stream inbound log purpose rest)
    (accepted : ∀ log size data rest, framing.Reads stream log (.deliver size) (data ++ rest) →
      data.length = size → accepts data)
    {choice : ν} {index : Nat} {start : σ}
    (stepped : (platform.receiving limit start stream).step inbound (.handle choice index) =
      some next) :
    ∃ data rest, platform.Follows framing request stream next (log ++ [(purpose, data)])
      (framing.follow purpose data) rest := by
  simp only [receiving] at stepped
  split at stepped
  next => cases stepped
  next held completion others taken =>
    split at stepped
    next isRead =>
      rw [platform.step_run, taken, Option.map_some, Option.map_some] at stepped
      cases stepped
      rcases Pending.getElem?_of_take taken with ⟨located, rfl⟩
      rcases follows with ⟨isOpen, occurs, reading, earlier, handled⟩
      cases reading with
      | waits single => cases (reads_at located isRead single).1
      | @ready data single whole nothing =>
          rcases reads_at located isRead single with ⟨same, none, -⟩
          cases same
          have accepts : ∀ size, purpose = .deliver size → accepts data := by
            intro size delivers
            subst delivers
            exact accepted log size data inbound.unread earlier whole
          rcases reader.follows choice inbound.state purpose data
            { platform.io inbound.state with
              pending := (platform.io inbound.state).pending.eraseIdx index }
            occurs whole accepts isOpen none with ⟨stays, single'⟩
          refine ⟨data, inbound.unread, ?_, Framing.occurs_follow purpose data, ?_,
            .read earlier whole, ?_⟩
          · rw [platform.io_setIo]
            exact stays
          · exact reading_awaited (by rw [platform.io_setIo]; exact single') nothing
          · simp [handled, Completion.success]
    next => cases stepped

/-! ## Runs -/

/-- The instance has read all of the last frame, and waits for the next header. -/
structure AtBoundary (platform : TcpPlatform σ ω ν) (request : Purpose → ω) (state : σ) :
    Prop where
  isOpen : (platform.io state).socketOpen = true
  waits : platform.reads (platform.io state).pending = [⟨request .header, .running⟩]

theorem AtBoundary.follows {state : σ} (boundary : platform.AtBoundary request state) :
    platform.Follows framing request stream (platform.receiving limit state stream).init [] .header
      stream where
  isOpen := boundary.isOpen
  occurs := .inl rfl
  reading := .waits boundary.waits framing.positive
  taken := .start
  handled := rfl

/-- The invariant holds of every run from a boundary. -/
theorem Reader.follows_exec (reader : platform.Reader limit framing request accepts)
    (accepted : ∀ log size data rest, framing.Reads stream log (.deliver size) (data ++ rest) →
      data.length = size → accepts data)
    {state : σ} (boundary : platform.AtBoundary request state) {arrivals : List (Arrival ν)}
    (executed : (platform.receiving limit state stream).exec
      (platform.receiving limit state stream).init arrivals = some inbound) :
    ∃ log purpose rest, platform.Follows framing request stream inbound log purpose rest := by
  have reachable : (platform.receiving limit state stream).Reachable inbound :=
    Machine.Reachable.exec .init executed
  clear executed
  induction reachable with
  | init => exact ⟨_, _, _, boundary.follows⟩
  | @step source target arrival _ _ stepped ih =>
      rcases ih with ⟨log, purpose, rest, follows⟩
      cases arrival with
      | segment index count => exact ⟨_, _, _, reader.follows_segment follows stepped⟩
      | handle choice index =>
          rcases reader.follows_handle follows accepted stepped with ⟨data, rest, follows⟩
          exact ⟨_, _, _, follows⟩

/-- An event takes a byte from the stream or handles a read. -/
theorem length_step {start : σ}
    (stepped : (platform.receiving limit start stream).step inbound arrival = some next) :
    next.unread.length + inbound.handled.length + 1 ≤
      next.handled.length + inbound.unread.length := by
  cases arrival with
  | segment index count =>
      simp only [receiving] at stepped
      split at stepped
      next =>
        split at stepped
        next arrives =>
          rcases arrives with ⟨-, positive, available, -⟩
          have fewer : (inbound.unread.drop count).length + 1 ≤ inbound.unread.length := by
            rw [List.length_drop]
            omega
          split at stepped
          · cases stepped
            dsimp only
            omega
          · cases stepped
            dsimp only
            omega
        next => cases stepped
      next => cases stepped
  | handle choice index =>
      simp only [receiving] at stepped
      split at stepped
      next => cases stepped
      next =>
        split at stepped
        next =>
          rw [Option.map_eq_some_iff] at stepped
          rcases stepped with ⟨result, -, rfl⟩
          simp only [List.length_append, List.length_singleton]
          omega
        next => cases stepped

theorem length_add_le {start : σ} {arrivals : List (Arrival ν)} {final : Inbound σ ω}
    (executed : (platform.receiving limit start stream).exec inbound arrivals = some final) :
    arrivals.length + final.unread.length + inbound.handled.length ≤
      final.handled.length + inbound.unread.length := by
  induction arrivals generalizing inbound with
  | nil =>
      cases executed
      simp [Nat.add_comm]
  | cons arrival arrivals ih =>
      cases stepped : (platform.receiving limit start stream).step inbound arrival with
      | none => simp [Machine.exec, stepped] at executed
      | some next =>
          rw [Machine.exec_cons _ arrivals stepped] at executed
          have later := ih executed
          have here : next.unread.length + inbound.handled.length + 1 ≤
              next.handled.length + inbound.unread.length := length_step stepped
          rw [List.length_cons]
          omega

/-- Where nothing more can happen, the stream is at its end and a piece is incomplete. -/
theorem Reader.lacking_of_quiet [Inhabited ν]
    (reader : platform.Reader limit framing request accepts)
    (follows : platform.Follows framing request stream inbound log purpose rest) {start : σ}
    (quiet : ∀ arrival, (platform.receiving limit start stream).step inbound arrival = none) :
    platform.reads (platform.io inbound.state).pending = [⟨request purpose, .running⟩] ∧
      inbound.unread = [] ∧ rest = inbound.filled ∧ rest.length < framing.size purpose := by
  rcases follows with ⟨-, -, reading, -, -⟩
  cases reading with
  | waits single lacking =>
      have nothing : inbound.unread = [] := by
        by_contra more
        have member : ⟨request purpose, .running⟩ ∈ (platform.io inbound.state).pending :=
          List.mem_of_mem_filter (single ▸ List.mem_singleton_self _)
        rcases List.mem_iff_getElem?.mp member with ⟨index, located⟩
        have possible := quiet (.segment index 1)
        have positive : 1 ≤ inbound.unread.length := List.length_pos_iff.mpr more
        simp only [receiving, located, reader.isRead, reader.limit_eq, Option.mem_some_iff,
          forall_eq', true_and, zero_lt_one, positive] at possible
        rw [if_pos (by omega)] at possible
        split at possible <;> cases possible
      refine ⟨single, nothing, by rw [nothing, List.append_nil], ?_⟩
      rw [nothing, List.append_nil]
      exact lacking
  | @ready data single whole nothing =>
      have member : ⟨request purpose, .ready (.success data)⟩ ∈
          (platform.io inbound.state).pending :=
        List.mem_of_mem_filter (single ▸ List.mem_singleton_self _)
      rcases List.mem_iff_getElem?.mp member with ⟨index, located⟩
      have possible := quiet (.handle default index)
      simp only [receiving, Pending.take_of_getElem? located, reader.isRead, if_true,
        platform.step_run, Option.map_some] at possible
      cases possible

/-! ## What a reader of frames delivers -/

/-- What the run of a reader has delivered: the payloads expected of the frames, in order, and
all of them where nothing more can happen.  The run is not longer than the stream allows, and
where a header is waited for, the bytes to come are whole frames. -/
structure Delivers (platform : TcpPlatform σ ω ν) (limit : ω → Option Nat)
    (request : Purpose → ω) (payloadsOf : List (ω × Bytes) → List Bytes) (state : σ)
    (frames : List Frame) (expected : Frame → Option Bytes) (arrivals : List (Arrival ν))
    (final : Inbound σ ω) : Prop where
  bounded : arrivals.length ≤ 3 * (Frame.stream frames).length
  inOrder : payloadsOf final.handled <+: frames.filterMap expected
  between : platform.reads (platform.io final.state).pending = [⟨request .header, .running⟩] →
    ∃ done todo, frames = done ++ todo ∧
      payloadsOf final.handled = done.filterMap expected ∧
      final.filled ++ final.unread = Frame.stream todo
  complete : (∀ arrival, (platform.receiving limit state (Frame.stream frames)).step final
      arrival = none) →
    payloadsOf final.handled = frames.filterMap expected ∧
      platform.AtBoundary request final.state ∧ final.filled = [] ∧ final.unread = []

theorem Reader.delivers [Inhabited ν] (reader : platform.Reader limit framing request accepts)
    {payloadsOf : List (ω × Bytes) → List Bytes}
    (payloads_eq : ∀ log : List (Purpose × Bytes),
      (∀ piece ∈ log, framing.Occurs piece.1) →
      payloadsOf (log.map fun piece => (request piece.1, piece.2)) = Framing.payloads log)
    (distinct : ∀ purpose, request purpose = request .header → purpose = .header)
    {frames : List Frame} (announces : ∀ frame ∈ frames, framing.Announces frame)
    (accepted : ∀ frame ∈ frames, ∀ payload ∈ framing.delivered frame, accepts payload)
    {state : σ} (boundary : platform.AtBoundary request state) {arrivals : List (Arrival ν)}
    {final : Inbound σ ω}
    (executed : (platform.receiving limit state (Frame.stream frames)).exec
      (platform.receiving limit state (Frame.stream frames)).init arrivals = some final) :
    platform.Delivers limit request payloadsOf state frames framing.delivered arrivals final := by
  have accepts' : ∀ log size data rest,
      framing.Reads (Frame.stream frames) log (.deliver size) (data ++ rest) →
      data.length = size → accepts data := by
    intro log size data rest reads whole
    rcases (reads.inStep announces).delivers announces whole with ⟨frame, member, delivered⟩
    exact accepted frame member data delivered
  rcases reader.follows_exec accepts' boundary executed with ⟨log, purpose, rest, follows⟩
  have inStep := follows.taken.inStep announces
  have handled : payloadsOf final.handled = Framing.payloads log := by
    rw [follows.handled]
    exact payloads_eq log follows.taken.occurs
  constructor
  · have events := length_add_le executed
    have pieces := follows.taken.length_le
    rw [follows.handled, List.length_map] at events
    simp only [receiving, List.length_nil] at events
    omega
  · rw [handled]
    exact inStep.prefix_delivered
  · intro waits
    rcases follows with ⟨-, -, reading, -, -⟩
    cases reading with
    | waits single =>
        have same := waits.symm.trans single
        simp only [List.cons.injEq, Operation.mk.injEq, and_true] at same
        cases distinct purpose same.symm
        rcases inStep.at_header with ⟨done, todo, split, past, remaining⟩
        exact ⟨done, todo, split, handled.trans past, remaining⟩
    | ready single => simp [single] at waits
  · intro quiet
    rcases reader.lacking_of_quiet follows quiet with ⟨waits, unread, same, lacking⟩
    rcases inStep.exhausted announces lacking with ⟨rfl, nothing, all⟩
    exact ⟨handled.trans all, ⟨follows.isOpen, waits⟩, same.symm.trans nothing, unread⟩

theorem Delivers.congr {payloadsOf : List (ω × Bytes) → List Bytes} {state : σ}
    {frames : List Frame} {expected other : Frame → Option Bytes} {arrivals : List (Arrival ν)}
    {final : Inbound σ ω}
    (delivers : platform.Delivers limit request payloadsOf state frames expected arrivals final)
    (same : ∀ frame ∈ frames, expected frame = other frame) :
    platform.Delivers limit request payloadsOf state frames other arrivals final := by
  have all : frames.filterMap expected = frames.filterMap other := List.filterMap_congr same
  refine ⟨delivers.bounded, all ▸ delivers.inOrder, fun waits => ?_, fun quiet => ?_⟩
  · rcases delivers.between waits with ⟨done, todo, split, past, remaining⟩
    refine ⟨done, todo, split, past.trans (List.filterMap_congr fun frame member => ?_), remaining⟩
    exact same frame (by simp [split, member])
  · rcases delivers.complete quiet with ⟨past, boundary⟩
    exact ⟨past.trans all, boundary⟩

end TcpPlatform

end DMProxy.Platforms
