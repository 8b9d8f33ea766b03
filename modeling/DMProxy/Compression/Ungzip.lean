import DMProxy.Compression.Inflate
import DMProxy.Text.Bytes

/-!
# Decompression of notifications

`ungzip` calls `inflate` until the temporary buffer is not filled.  Its answer is right exactly
if the bytes that it hands over do not run out in the middle of a stream.
-/

namespace DMProxy.Compression

open DMProxy.Text

universe u

variable {σ : Type u}

/-- The size of `v_temp`. -/
def tempSize : Nat := 4 * 1024

/-- The loop of `ungzip`: its answer and `out`. -/
def ungzipLoop (inflate : σ → Bytes → Nat → Inflated σ) :
    Nat → σ → Bytes → Bytes → Option (Bool × Bytes)
  | 0, _, _, _ => none
  | fuel + 1, state, input, out =>
      let result := inflate state input tempSize
      match result.status with
      | .needDict | .dataError | .memError => some (false, out)
      | .ok | .streamEnd | .bufError =>
          if result.output.length = tempSize then
            ungzipLoop inflate fuel result.state result.rest (out ++ result.output)
          else some (true, out ++ result.output)

/-- `ungzip`, where `started` is what `inflateInit2` leaves if it succeeds.  The empty vector
has no element whose address could be taken. -/
def ungzip (started : Option σ) (inflate : σ → Bytes → Nat → Inflated σ) (fuel : Nat)
    (input : Bytes) : Option (Bool × Bytes) :=
  match started, input with
  | none, _ => some (false, [])
  | some _, [] => none
  | some start, input =>
      -- `avail_in` is an unsigned int
      ungzipLoop inflate fuel start (input.take (input.length % unsignedRange)) []

/-! ## Termination and the answer -/

variable {format : Format σ} {inflate : σ → Bytes → Nat → Inflated σ}

theorem ungzipLoop_add {fuel : Nat} {state : σ} {input out : Bytes} {answer : Bool × Bytes}
    (answered : ungzipLoop inflate fuel state input out = some answer) (more : Nat) :
    ungzipLoop inflate (fuel + more) state input out = some answer := by
  induction fuel generalizing state input out with
  | zero => cases answered
  | succ fuel ih =>
      rw [Nat.succ_add]
      simp only [ungzipLoop] at answered ⊢
      split at answered
      all_goals
        first
        | exact answered
        | split at answered
          next filled =>
            rw [if_pos filled]
            exact ih answered
          next filled =>
            rw [if_neg filled]
            exact answered

/-- Fuel does not change the answer. -/
theorem ungzipLoop_unique {fuel fuel' : Nat} {state : σ} {input out : Bytes}
    {answer answer' : Bool × Bytes}
    (one : ungzipLoop inflate fuel state input out = some answer)
    (two : ungzipLoop inflate fuel' state input out = some answer') : answer' = answer := by
  have first := ungzipLoop_add one fuel'
  have second := ungzipLoop_add two fuel
  rw [Nat.add_comm, first] at second
  exact (Option.some.inj second).symm

/-- The answer of the function where the decoder has halted. -/
def accepted : Move σ → Bool
  | .read _ | .ended => true
  | .emit _ _ | .corrupt | .wantsDictionary => false

/-- The return codes after which the loop looks at the room that is left. -/
def goesOn : Status → Bool
  | .ok | .streamEnd | .bufError => true
  | .needDict | .dataError | .memError => false

theorem goesOn_stopStatus (input : Bytes) (result : Inflated σ) :
    goesOn (stopStatus input result) = true := by
  simp only [stopStatus]
  split
  · rfl
  · rfl

theorem ungzipLoop_fails {fuel : Nat} {state : σ} {input : Bytes}
    (fails : goesOn (inflate state input tempSize).status = false) (out : Bytes) :
    ungzipLoop inflate (fuel + 1) state input out = some (false, out) := by
  cases status : (inflate state input tempSize).status with
  | needDict | dataError | memError => simp only [ungzipLoop, status]
  | ok | streamEnd | bufError =>
      rw [status] at fails
      cases fails

theorem ungzipLoop_goesOn {fuel : Nat} {state : σ} {input : Bytes}
    (goes : goesOn (inflate state input tempSize).status = true) (out : Bytes) :
    ungzipLoop inflate (fuel + 1) state input out =
      if (inflate state input tempSize).output.length = tempSize then
        ungzipLoop inflate fuel (inflate state input tempSize).state
          (inflate state input tempSize).rest (out ++ (inflate state input tempSize).output)
      else some (true, out ++ (inflate state input tempSize).output) := by
  cases status : (inflate state input tempSize).status with
  | ok | streamEnd | bufError => simp only [ungzipLoop, status]
  | needDict | dataError | memError =>
      rw [status] at goes
      cases goes

/-- A call that has halted the decoder is told from its return code. -/
theorem goesOn_of_halted {input : Bytes} {room : Nat} {result : Inflated σ}
    (stops : Stops format input room result)
    (halted : format.Halted result.state result.rest) :
    goesOn result.status = accepted (format.move result.state) := by
  simp only [Stops] at stops
  cases moved : format.move result.state with
  | emit => simp only [Format.Halted, moved] at halted
  | read next =>
      simp only [moved] at stops
      rw [stops.2]
      exact goesOn_stopStatus input result
  | ended | corrupt | wantsDictionary =>
      simp only [moved] at stops
      rw [stops]
      rfl

/-- A call that does not fill the room has halted the decoder. -/
theorem stops_cases {input : Bytes} {room : Nat} {result : Inflated σ}
    (stops : Stops format input room result) :
    result.output.length = room ∧ goesOn result.status = true ∨
      format.Halted result.state result.rest ∧
        goesOn result.status = accepted (format.move result.state) := by
  have answered := goesOn_of_halted stops
  simp only [Stops] at stops
  cases moved : format.move result.state with
  | emit byte next =>
      simp only [moved] at stops
      rw [stops.2]
      exact .inl ⟨stops.1, goesOn_stopStatus input result⟩
  | read next =>
      simp only [moved] at stops
      rcases stops with ⟨used | filled, status⟩
      · have still : format.Halted result.state result.rest := by
          simpa only [Format.Halted, moved] using used
        exact .inr ⟨still, moved ▸ answered still⟩
      · rw [status]
        exact .inl ⟨filled, goesOn_stopStatus input result⟩
  | ended | corrupt | wantsDictionary =>
      have still : format.Halted result.state result.rest := by
        simp only [Format.Halted, moved]
      exact .inr ⟨still, moved ▸ answered still⟩

/-- The loop comes to the halt of the decoder. -/
theorem exists_ungzipLoop (documented : Documented format inflate) {state final : σ}
    {taken left emitted : Bytes} (run : Runs format state taken emitted final)
    (halted : format.Halted final left) (out : Bytes) :
    ∃ fuel kept, ungzipLoop inflate fuel state (taken ++ left) out =
        some (accepted (format.move final), kept) ∧
      (accepted (format.move final) = true → kept = out ++ emitted) := by
  induction size : emitted.length using Nat.strongRecOn generalizing state taken emitted out with
  | ind size ih =>
      subst size
      have stops := stops_cases (documented.stops state (taken ++ left) tempSize)
      rcases documented.part run halted tempSize with ⟨more, given, later, rfl, rest, all⟩
      by_cases goes : goesOn (inflate state (taken ++ left) tempSize).status = true
      · by_cases filled : (inflate state (taken ++ left) tempSize).output.length = tempSize
        · have shorter : given.length <
              ((inflate state (taken ++ left) tempSize).output ++ given).length := by
            rw [List.length_append, filled, tempSize]
            omega
          rcases ih _ shorter later (out ++ (inflate state (taken ++ left) tempSize).output) rfl
            with ⟨fuel, kept, answered, whole⟩
          refine ⟨fuel + 1, kept, ?_, ?_⟩
          · rw [ungzipLoop_goesOn goes, if_pos filled, rest]
            exact answered
          · intro good
            rw [whole good, List.append_assoc]
        · rcases stops with ⟨full, _⟩ | ⟨still, status⟩
          · exact absurd full filled
          · rcases all still with ⟨rfl, rfl⟩
            refine ⟨1, out ++ (inflate state (taken ++ left) tempSize).output, ?_, ?_⟩
            · rw [ungzipLoop_goesOn goes, if_neg filled, ← status, goes]
            · intro _
              rw [List.append_nil]
      · rcases stops with ⟨_, status⟩ | ⟨still, status⟩
        · exact absurd status goes
        · rcases all still with ⟨rfl, rfl⟩
          have fails := Bool.eq_false_iff.mpr goes
          rw [fails] at status
          refine ⟨1, out, ?_, ?_⟩
          · rw [ungzipLoop_fails fails, ← status]
          · intro good
            rw [← status] at good
            cases good

/-! ## What a right answer is -/

/-- The input begins with a complete stream of the data. -/
def Begins (format : Format σ) (start : σ) (input data : Bytes) : Prop :=
  ∃ taken left final, input = taken ++ left ∧ Runs format start taken data final ∧
    format.move final = .ended

/-- `ungzip` answers true exactly if the input begins with a complete stream, and then with its
data. -/
def Correct (format : Format σ) (start : σ) (inflate : σ → Bytes → Nat → Inflated σ)
    (input : Bytes) : Prop :=
  ∃ returned out, (∃ fuel, ungzip (some start) inflate fuel input = some (returned, out)) ∧
    (returned = true ↔ ∃ data, Begins format start input data) ∧
    (returned = true → Begins format start input out)

/-- The bytes that are handed to `inflate` do not run out before the stream ends or fails, unless
the input begins with a stream of the data that they give. -/
def Whole (format : Format σ) (start : σ) (input : Bytes) : Prop :=
  ∀ emitted final next,
    Runs format start (input.take (input.length % unsignedRange)) emitted final →
    format.move final = .read next → Begins format start input emitted

/-- A halted decoder settles which stream the input begins with. -/
theorem Begins.of_halted {start final : σ} {input taken left emitted data : Bytes}
    (begun : Begins format start input data) (run : Runs format start taken emitted final)
    (halted : format.Halted final left) (split : input = taken ++ left) :
    format.move final = .ended ∧ data = emitted := by
  rcases begun with ⟨taken', left', final', split', run', ended⟩
  have still : format.Halted final' left' := by simp only [Format.Halted, ended]
  rcases run.unique halted run' still (split.symm.trans split') with ⟨rfl, rfl⟩
  exact ⟨ended, rfl⟩

theorem ungzip_unique {started : Option σ} {fuel fuel' : Nat} {input : Bytes}
    {answer answer' : Bool × Bytes} (one : ungzip started inflate fuel input = some answer)
    (two : ungzip started inflate fuel' input = some answer') : answer' = answer := by
  cases started with
  | none => exact Option.some.inj (two.symm.trans one)
  | some start =>
      cases input with
      | nil => cases one
      | cons byte input => exact ungzipLoop_unique one two

theorem exists_ungzip (documented : Documented format inflate) {start final : σ}
    {input taken left emitted : Bytes} (nonempty : input ≠ [])
    (split : input.take (input.length % unsignedRange) = taken ++ left)
    (run : Runs format start taken emitted final) (halted : format.Halted final left) :
    ∃ fuel kept, ungzip (some start) inflate fuel input =
        some (accepted (format.move final), kept) ∧
      (accepted (format.move final) = true → kept = emitted) := by
  rcases exists_ungzipLoop documented run halted [] with ⟨fuel, kept, answered, whole⟩
  cases input with
  | nil => exact absurd rfl nonempty
  | cons byte input =>
      refine ⟨fuel, kept, ?_, whole⟩
      simp only [ungzip, split]
      exact answered

/-- The answer is right where the decoder comes to the end of a stream or finds that there is
none. -/
theorem correct_of_settled (documented : Documented format inflate) {start final : σ}
    {input taken left emitted : Bytes} (nonempty : input ≠ [])
    (split : input.take (input.length % unsignedRange) = taken ++ left)
    (run : Runs format start taken emitted final)
    (settled : ∀ rest, format.Halted final rest)
    (good : accepted (format.move final) = true ↔ format.move final = .ended) :
    Correct format start inflate input := by
  rcases exists_ungzip documented nonempty split run (settled left) with
    ⟨fuel, kept, answered, whole⟩
  have resplit : input = taken ++ (left ++ input.drop (input.length % unsignedRange)) := by
    rw [← List.append_assoc, ← split, List.take_append_drop]
  refine ⟨_, kept, ⟨fuel, answered⟩, ⟨?_, ?_⟩, ?_⟩
  · intro returned
    exact ⟨emitted, taken, _, final, resplit, run, good.mp returned⟩
  · intro begun
    rcases begun with ⟨data, begun⟩
    exact good.mpr (begun.of_halted run (settled _) resplit).1
  · intro returned
    rw [whole returned]
    exact ⟨taken, _, final, resplit, run, good.mp returned⟩

/-- Short input is handed over whole, so that only a stream that breaks off is answered wrong. -/
theorem whole_iff_of_lt {start : σ} {input : Bytes} (short : input.length < unsignedRange) :
    Whole format start input ↔ ∀ emitted final next,
      Runs format start input emitted final → format.move final ≠ .read next := by
  simp only [Whole, Nat.mod_eq_of_lt short, List.take_length]
  constructor
  · intro whole emitted final next run reads
    have still : format.Halted final [] := by simp only [Format.Halted, reads]
    have ended := (whole _ _ _ run reads).of_halted run still (List.append_nil input).symm
    cases reads.symm.trans ended.1
  · intro runs emitted final next run reads
    exact absurd reads (runs _ _ _ run)

/-! ## Streams with one text -/

/-- A step of a stream with one text. -/
inductive Token where
  | take (byte : UInt8)
  | give (byte : UInt8)
  deriving DecidableEq, Repr

/-- The decoder of a stream with one text; any other byte makes the stream corrupt. -/
def single : Format (Option (List Token)) where
  move
    | none => .corrupt
    | some [] => .ended
    | some (.take byte :: tokens) => .read fun taken => if taken = byte then some tokens else none
    | some (.give byte :: tokens) => .emit byte (some tokens)
  owed state := (state.getD []).length
  decreases := by
    intro state next byte moved
    split at moved
    next => cases moved
    next => cases moved
    next => cases moved
    next =>
      cases moved
      exact Nat.lt_add_one _

/-- The zlib stream of the text "hi" in one stored block. -/
def storedHi : List Token :=
  [.take 0x78, .take 0x01, .take 0x01, .take 0x02, .take 0x00, .take 0xfd, .take 0xff,
    .take 0x68, .give 0x68, .take 0x69, .give 0x69,
    .take 0x01, .take 0x3b, .take 0x00, .take 0xd2]

def storedHiBytes : Bytes :=
  [0x78, 0x01, 0x01, 0x02, 0x00, 0xfd, 0xff, 0x68, 0x69, 0x01, 0x3b, 0x00, 0xd2]

/-- With room for one byte, a call stops inside the block. -/
example : Stops single storedHiBytes 1
    ⟨.ok, some (storedHi.drop 9), storedHiBytes.drop 8, [0x68]⟩ :=
  ⟨.inr rfl, rfl⟩

end DMProxy.Compression
