import DMProxy.Compression.Rooms
import DMProxy.Compression.Ungzip

/-!
# Decompression into a buffer of one size

The other overload of `ungzip` gives `inflate` a buffer of 16 times the size of the input, and
counts the output.  It counts right, and stays inside the buffer, if the first call leaves some
of it.
-/

namespace DMProxy.Compression

open DMProxy.Text

universe u

variable {σ : Type u}

/-- How the function ends. -/
inductive Counted where
  | returned (answer : Bool) (out : Bytes) (countOut : Nat)
  /-- by an assertion or an exception -/
  | crashed
  /-- with a range that does not lie in its vector -/
  | outside
  deriving DecidableEq, Repr

/-- Write bytes into a buffer. -/
def overwrite (buffer : Bytes) (offset : Nat) (bytes : Bytes) : Bytes :=
  buffer.take offset ++ bytes ++ buffer.drop (offset + bytes.length)

/-- The loop of `ungzip`, and what is done with `out` after it. -/
def ungzipCountedLoop (inflate : σ → Bytes → Nat → Inflated σ) :
    Nat → σ → Bytes → Bytes → Nat → Option Counted
  | 0, _, _, _, _ => none
  | fuel + 1, state, input, out, countOut =>
      let room := availOut out.length countOut
      if out.length < countOut + room then some .outside
      else
        let result := inflate state input room
        let written := overwrite out countOut result.output
        match result.status with
        | .needDict | .dataError | .memError => some (.returned false written countOut)
        | .ok | .streamEnd | .bufError =>
            let left := room - result.output.length
            -- `have` is an int, and counts from the beginning of the buffer
            let next := (countOut + throughInt (out.length - left)) % sizeRange
            if left = 0 then
              ungzipCountedLoop inflate fuel result.state result.rest written next
            else if written.length < next then some .crashed
            else some (.returned true (written.take next) next)

/-- The size to which `out` is resized. -/
def bufferSize (countIn : Nat) : Nat := countIn * 16 % sizeRange

/-- `ungzip`, where `started` is what `inflateInit2` leaves if it succeeds.  The first elements
of both vectors have their addresses taken. -/
def ungzipCounted (started : Option σ) (inflate : σ → Bytes → Nat → Inflated σ) (fuel : Nat)
    (input : Bytes) (countIn countOut : Nat) : Option Counted :=
  let size := bufferSize countIn
  let availIn := countIn % unsignedRange
  if input = [] then some .outside
  else if maxSize < size then some .crashed
  else if size = 0 then some .outside
  else
    match started with
    | none => some (.returned false (List.replicate size 0) countOut)
    | some start =>
        if input.length < availIn then some .outside
        else
          ungzipCountedLoop inflate fuel start (input.take availIn) (List.replicate size 0) 0

/-! ## One call -/

variable {format : Format σ} {inflate : σ → Bytes → Nat → Inflated σ}

theorem length_overwrite {buffer bytes : Bytes} {offset : Nat}
    (inside : offset + bytes.length ≤ buffer.length) :
    (overwrite buffer offset bytes).length = buffer.length := by
  simp only [overwrite, List.length_append, List.length_take, List.length_drop]
  omega

theorem take_overwrite_zero (buffer bytes : Bytes) :
    (overwrite buffer 0 bytes).take bytes.length = bytes := by
  simp [overwrite]

theorem countedLoop_add {fuel : Nat} {state : σ} {input out : Bytes} {countOut : Nat}
    {outcome : Counted}
    (ended : ungzipCountedLoop inflate fuel state input out countOut = some outcome)
    (more : Nat) :
    ungzipCountedLoop inflate (fuel + more) state input out countOut = some outcome := by
  induction fuel generalizing state input out countOut with
  | zero => cases ended
  | succ fuel ih =>
      rw [Nat.succ_add]
      simp only [ungzipCountedLoop] at ended ⊢
      split at ended
      next beyond =>
        rw [if_pos beyond]
        exact ended
      next within =>
        rw [if_neg within]
        split at ended
        all_goals
          first
          | exact ended
          | split at ended
            next filled =>
              rw [if_pos filled]
              exact ih ended
            next left =>
              rw [if_neg left]
              exact ended

/-- Fuel does not change how the function ends. -/
theorem ungzipCounted_add {started : Option σ} {fuel : Nat} {input : Bytes}
    {countIn countOut : Nat} {outcome : Counted}
    (ended : ungzipCounted started inflate fuel input countIn countOut = some outcome)
    (more : Nat) :
    ungzipCounted started inflate (fuel + more) input countIn countOut = some outcome := by
  simp only [ungzipCounted] at ended ⊢
  split at ended
  next empty =>
    rw [if_pos empty]
    exact ended
  next nonempty =>
    rw [if_neg nonempty]
    split at ended
    next large =>
      rw [if_pos large]
      exact ended
    next bounded =>
      rw [if_neg bounded]
      split at ended
      next none =>
        rw [if_pos none]
        exact ended
      next some =>
        rw [if_neg some]
        cases started with
        | none => exact ended
        | some start =>
            simp only at ended ⊢
            split at ended
            next beyond =>
              rw [if_pos beyond]
              exact ended
            next inside =>
              rw [if_neg inside]
              exact countedLoop_add ended more

theorem ungzipCounted_unique {started : Option σ} {fuel fuel' : Nat} {input : Bytes}
    {countIn countOut : Nat} {outcome outcome' : Counted}
    (one : ungzipCounted started inflate fuel input countIn countOut = some outcome)
    (two : ungzipCounted started inflate fuel' input countIn countOut = some outcome') :
    outcome' = outcome := by
  have first := ungzipCounted_add one fuel'
  have second := ungzipCounted_add two fuel
  rw [Nat.add_comm, first] at second
  exact (Option.some.inj second).symm

theorem countedLoop_outside {state : σ} {input out : Bytes} {countOut : Nat}
    (beyond : out.length < countOut) (fuel : Nat) :
    ungzipCountedLoop inflate (fuel + 1) state input out countOut = some .outside := by
  simp only [ungzipCountedLoop]
  rw [if_pos (Nat.lt_add_right _ beyond)]

theorem countedLoop_fails {state : σ} {input out : Bytes} {call : Nat}
    (inside : call * stride out.length ≤ out.length)
    (fails : goesOn (inflate state input (room out.length call)).status = false) (fuel : Nat) :
    ∃ written, ungzipCountedLoop inflate (fuel + 1) state input out
        (call * stride out.length) =
      some (.returned false written (call * stride out.length)) := by
  have within := add_room_le inside
  simp only [room] at fails within
  simp only [ungzipCountedLoop]
  rw [if_neg (Nat.not_lt.mpr within)]
  cases status : (inflate state input
      (availOut out.length (call * stride out.length))).status with
  | needDict | dataError | memError => exact ⟨_, rfl⟩
  | ok | streamEnd | bufError =>
      rw [status] at fails
      cases fails

theorem countedLoop_goesOn {state : σ} {input out : Bytes} {call : Nat}
    (inside : call * stride out.length ≤ out.length)
    (goes : goesOn (inflate state input (room out.length call)).status = true) (fuel : Nat) :
    ungzipCountedLoop inflate (fuel + 1) state input out (call * stride out.length) =
      let result := inflate state input (room out.length call)
      let written := overwrite out (call * stride out.length) result.output
      let left := room out.length call - result.output.length
      let next := finalCount out.length call left
      if left = 0 then ungzipCountedLoop inflate fuel result.state result.rest written next
      else if written.length < next then some .crashed
      else some (.returned true (written.take next) next) := by
  have within := add_room_le inside
  simp only [room] at goes within
  simp only [ungzipCountedLoop]
  rw [if_neg (Nat.not_lt.mpr within)]
  cases status : (inflate state input
      (availOut out.length (call * stride out.length))).status with
  | ok | streamEnd | bufError => rfl
  | needDict | dataError | memError =>
      rw [status] at goes
      cases goes

/-- A call that fills its room is followed by another one. -/
theorem countedLoop_filled {state : σ} {input out : Bytes} {call : Nat}
    (inside : call * stride out.length ≤ out.length)
    (goes : goesOn (inflate state input (room out.length call)).status = true)
    (filled :
      (inflate state input (room out.length call)).output.length = room out.length call) :
    ∃ written, written.length = out.length ∧ ∀ fuel,
      ungzipCountedLoop inflate (fuel + 1) state input out (call * stride out.length) =
        ungzipCountedLoop inflate fuel (inflate state input (room out.length call)).state
          (inflate state input (room out.length call)).rest written
          ((call * stride out.length + throughInt out.length) % sizeRange) := by
  have within := add_room_le inside
  refine ⟨overwrite out (call * stride out.length)
    (inflate state input (room out.length call)).output, ?_, ?_⟩
  · rw [length_overwrite]
    rw [filled]
    exact within
  · intro fuel
    rw [countedLoop_goesOn inside goes]
    simp only [filled, Nat.sub_self, if_true, finalCount, Nat.sub_zero]

/-- A call that leaves some of its room is the last one. -/
theorem countedLoop_leaves {state : σ} {input out : Bytes} {call : Nat}
    (inside : call * stride out.length ≤ out.length)
    (goes : goesOn (inflate state input (room out.length call)).status = true)
    (leaves : (inflate state input (room out.length call)).output.length < room out.length call)
    (fuel : Nat) :
    ungzipCountedLoop inflate (fuel + 1) state input out (call * stride out.length) =
      let output := (inflate state input (room out.length call)).output
      let count := finalCount out.length call (room out.length call - output.length)
      if out.length < count then some .crashed
      else some (.returned true ((overwrite out (call * stride out.length) output).take count)
        count) := by
  have within := add_room_le inside
  rw [countedLoop_goesOn inside goes]
  simp only
  rw [if_neg (by omega), length_overwrite]
  omega

/-! ## The last call -/

/-- A call that ends the loop without leaving the buffer, how much it gave, and the answer. -/
structure LastCall (size call given : Nat) (answer : Bool) (count : Nat) : Prop where
  inside : call * stride size ≤ size
  steady : call = 0 ∨ stride size < intRange
  fits : given ≤ room size call
  counted : answer = true → given < room size call ∧
    count = finalCount size call (room size call - given) ∧ count ≤ size

/-- A loop that goes on after a call that filled its room stays inside the buffer. -/
theorem next_of_returned {fuel : Nat} {state : σ} {input written kept : Bytes}
    {size call count : Nat} {answer : Bool} (bounded : size ≤ maxSize)
    (same : written.length = size) (steady : call = 0 ∨ stride size < intRange)
    (inside : call * stride size ≤ size)
    (returned : ungzipCountedLoop inflate fuel state input written
      ((call * stride size + throughInt size) % sizeRange) = some (.returned answer kept count)) :
    stride size < intRange ∧ (call + 1) * stride size ≤ size ∧
      ungzipCountedLoop inflate fuel state input written ((call + 1) * stride size) =
        some (.returned answer kept count) := by
  cases fuel with
  | zero => cases returned
  | succ fuel =>
      rcases lt_or_ge (stride size) intRange with short | long
      · rw [next_stride bounded short inside] at returned
        rcases le_or_gt ((call + 1) * stride size) size with within | beyond
        · exact ⟨short, within, returned⟩
        · rw [countedLoop_outside (same.symm ▸ beyond)] at returned
          cases returned
      · have first : call = 0 := by omega
        subst first
        rw [Nat.zero_mul, Nat.zero_add,
          countedLoop_outside (same.symm ▸ lt_throughInt bounded long)] at returned
        cases returned

/-- A call of a loop that returns is its last one and halts the decoder, or fills its room. -/
theorem returned_cases (documented : Documented format inflate) {fuel : Nat} {state : σ}
    {input out kept : Bytes} {call count : Nat} {answer : Bool} (bounded : out.length ≤ maxSize)
    (steady : call = 0 ∨ stride out.length < intRange)
    (inside : call * stride out.length ≤ out.length)
    (returned : ungzipCountedLoop inflate (fuel + 1) state input out (call * stride out.length) =
      some (.returned answer kept count)) :
    let result := inflate state input (room out.length call)
    format.Halted result.state result.rest ∧ answer = accepted (format.move result.state) ∧
        LastCall out.length call result.output.length answer count ∨
      result.output.length = room out.length call ∧ stride out.length < intRange ∧
        (call + 1) * stride out.length ≤ out.length ∧
        ∃ written, written.length = out.length ∧
          ungzipCountedLoop inflate fuel result.state result.rest written
            ((call + 1) * stride out.length) = some (.returned answer kept count) := by
  have fits := documented.fits state input (room out.length call)
  have stops := stops_cases (documented.stops state input (room out.length call))
  by_cases goes : goesOn (inflate state input (room out.length call)).status = true
  · rcases fits.lt_or_eq with leaves | filled
    · rw [countedLoop_leaves inside goes leaves] at returned
      rcases stops with ⟨full, _⟩ | ⟨still, status⟩
      · exact absurd full leaves.ne
      · simp only at returned
        split at returned
        next => cases returned
        next within =>
          cases returned
          refine .inl ⟨still, goes.symm.trans status, inside, steady, fits, fun _ => ?_⟩
          exact ⟨leaves, rfl, Nat.not_lt.mp within⟩
    · rcases countedLoop_filled inside goes filled with ⟨written, same, next⟩
      rw [next fuel] at returned
      rcases next_of_returned bounded same steady inside returned with
        ⟨short, within, returned⟩
      exact .inr ⟨filled, short, within, written, same, returned⟩
  · have fails := Bool.eq_false_iff.mpr goes
    rcases countedLoop_fails inside fails fuel with ⟨written, answered⟩
    rw [answered] at returned
    cases returned
    rcases stops with ⟨_, status⟩ | ⟨still, status⟩
    · exact absurd status goes
    · refine .inl ⟨still, fails.symm.trans status, inside, steady, fits, fun never => ?_⟩
      cases never

/-- A loop that returns has a last call, before which all rooms were filled. -/
theorem exists_lastCall (documented : Documented format inflate) {fuel size : Nat}
    {state final : σ} {taken left emitted out kept : Bytes} {call count : Nat} {answer : Bool}
    (run : Runs format state taken emitted final) (halted : format.Halted final left)
    (sized : out.length = size) (bounded : size ≤ maxSize)
    (steady : call = 0 ∨ stride size < intRange) (inside : call * stride size ≤ size)
    (returned : ungzipCountedLoop inflate fuel state (taken ++ left) out (call * stride size) =
      some (.returned answer kept count)) :
    ∃ last given, LastCall size last given answer count ∧
      rooms size call + emitted.length = rooms size last + given ∧
      answer = accepted (format.move final) := by
  induction fuel generalizing state taken emitted out call with
  | zero => cases returned
  | succ fuel ih =>
      subst sized
      rcases documented.part run halted (room out.length call) with
        ⟨more, others, later, rfl, rest, all⟩
      rcases returned_cases documented bounded steady inside returned with
        ⟨still, answered, ends⟩ | ⟨filled, short, within, written, same, returned⟩
      · rcases all still with ⟨rfl, rfl⟩
        exact ⟨call, _, ends, by rw [List.append_nil], answered⟩
      · rw [rest] at returned
        rcases ih later same (.inr short) within returned with
          ⟨last, given, ends, total, answered⟩
        refine ⟨last, given, ends, ?_, answered⟩
        rw [rooms_succ] at total
        rw [List.length_append, filled]
        omega

/-! ## Output that fits -/

/-- Output that leaves some of the buffer is counted right. -/
theorem counted_of_fits (documented : Documented format inflate) {state final : σ}
    {taken left emitted out : Bytes} (run : Runs format state taken emitted final)
    (halted : format.Halted final left) (good : accepted (format.move final) = true)
    (fits : emitted.length < stride out.length) (short : emitted.length < intRange) :
    ungzipCountedLoop inflate 1 state (taken ++ left) out 0 =
      some (.returned true emitted emitted.length) := by
  have start : 0 * stride out.length ≤ out.length := by omega
  have stops := documented.stops state (taken ++ left) (room out.length 0)
  rcases documented.part run halted (room out.length 0) with ⟨more, given, _, rfl, _, all⟩
  have first := room_zero out.length
  have leaves : (inflate state (taken ++ left) (room out.length 0)).output.length <
      room out.length 0 := by
    rw [List.length_append] at fits
    omega
  rcases stops_cases stops with ⟨full, _⟩ | ⟨still, status⟩
  · exact absurd full leaves.ne
  · rcases all still with ⟨rfl, rfl⟩
    rw [List.append_nil] at fits short ⊢
    have goes := status.trans good
    have answered := countedLoop_leaves start goes leaves 0
    have counted := finalCount_first fits short
    rw [← first] at counted
    have within : stride out.length ≤ out.length := Nat.mod_le _ _
    simp only [Nat.zero_mul, Nat.zero_add, counted, take_overwrite_zero] at answered
    rw [answered, if_neg (by omega)]

/-- Output before an error is refused as long as the rooms hold it. -/
theorem refused_of_fits (prompt : Prompt format inflate) {state final : σ}
    {taken left emitted out : Bytes} {size call : Nat} (run : Runs format state taken emitted final)
    (halted : format.Halted final left) (bad : accepted (format.move final) = false)
    (sized : out.length = size) (bounded : size ≤ maxSize) (early : call ≤ laps size)
    (fits : rooms size call + emitted.length ≤ capacity size) :
    ∃ fuel kept count, ungzipCountedLoop inflate fuel state (taken ++ left) out
      (call * stride size) = some (.returned false kept count) := by
  induction remaining : laps size - call using Nat.strongRecOn
    generalizing state taken emitted out call with
  | ind amount ih =>
      subst remaining sized
      have inside := inside_of_le_laps early
      have stops := prompt.stops state (taken ++ left) (room out.length call)
      rcases prompt.part run halted (room out.length call) with
        ⟨more, others, later, rfl, rest, all⟩
      by_cases goes : goesOn (inflate state (taken ++ left) (room out.length call)).status = true
      · rcases prompt.due state (taken ++ left) (room out.length call) with still | due
        · rcases all still with ⟨_, rfl⟩
          cases ((goesOn_of_halted stops still).symm.trans goes).symm.trans bad
        · rw [rest] at due
          have some := List.length_pos_iff.mpr (later.ne_nil_of_due halted due)
          have filled : (inflate state (taken ++ left) (room out.length call)).output.length =
              room out.length call := by
            rcases stops_cases stops with ⟨filled, _⟩ | ⟨still, _⟩
            · exact filled
            · exact absurd (all still).1 (List.length_pos_iff.mp some)
          rw [List.length_append, filled, ← Nat.add_assoc, ← rooms_succ] at fits
          have further : call < laps out.length := by
            refine lt_of_le_of_ne early fun last => ?_
            rw [capacity, last] at fits
            omega
          have short : stride out.length < intRange := by
            by_contra long
            rw [laps, if_neg long] at further
            exact Nat.not_lt_zero call further
          rcases countedLoop_filled inside goes filled with ⟨written, same, stepped⟩
          rcases ih _ (by omega) later same further fits rfl with
            ⟨fuel, kept, count, answered⟩
          refine ⟨fuel + 1, kept, count, ?_⟩
          rw [stepped fuel, next_stride bounded short inside, rest]
          exact answered
      · have fails := Bool.eq_false_iff.mpr goes
        rcases countedLoop_fails inside fails 0 with ⟨written, answered⟩
        exact ⟨1, written, _, answered⟩

/-! ## The two overloads -/

/-- The decoder halts on the bytes that are handed over: whether it has found no error, and
what it has produced. -/
def HaltsWith (format : Format σ) (start : σ) (input : Bytes) (good : Bool) (produced : Bytes) :
    Prop :=
  ∃ taken left final, input.take (input.length % unsignedRange) = taken ++ left ∧
    Runs format start taken produced final ∧ format.Halted final left ∧
    accepted (format.move final) = good

/-- The function returns, and if its answer is true, then it has counted the bytes that were
produced and the other overload answers true with the same ones. -/
def Agrees (format : Format σ) (started : Option σ) (inflate : σ → Bytes → Nat → Inflated σ)
    (input : Bytes) (countOut : Nat) : Prop :=
  ∃ answer out count,
    (∃ fuel, ungzipCounted started inflate fuel input input.length countOut =
      some (.returned answer out count)) ∧
    (answer = true →
      (∃ start produced, started = some start ∧ HaltsWith format start input true produced ∧
        count = produced.length) ∧
      ∃ fuel, ungzip started inflate fuel input = some (true, out))

/-- The buffer can be had.  What is produced without an error leaves some of it after one call,
and is counted by an `int`; what is produced before an error fits into the rooms. -/
structure FitsBuffer (format : Format σ) (started : Option σ) (input : Bytes) : Prop where
  positive : 0 < bufferSize input.length
  bounded : bufferSize input.length ≤ maxSize
  accepts : ∀ start produced, started = some start → HaltsWith format start input true produced →
    produced.length < stride (bufferSize input.length) ∧ produced.length < intRange
  refuses : ∀ start produced, started = some start → HaltsWith format start input false produced →
    produced.length ≤ capacity (bufferSize input.length)

theorem HaltsWith.unique {start : σ} {input produced produced' : Bytes} {good good' : Bool}
    (one : HaltsWith format start input good produced)
    (two : HaltsWith format start input good' produced') :
    produced' = produced ∧ good' = good := by
  rcases one with ⟨taken, left, final, split, run, halted, rfl⟩
  rcases two with ⟨taken', left', final', split', run', halted', rfl⟩
  rcases run.unique halted run' halted' (split.symm.trans split') with ⟨rfl, rfl⟩
  exact ⟨rfl, rfl⟩

theorem size_of_returned {started : Option σ} {fuel : Nat} {input out : Bytes}
    {countIn countOut count : Nat} {answer : Bool}
    (returned : ungzipCounted started inflate fuel input countIn countOut =
      some (.returned answer out count)) :
    0 < bufferSize countIn ∧ bufferSize countIn ≤ maxSize := by
  simp only [ungzipCounted] at returned
  split at returned
  next => cases returned
  next =>
    split at returned
    next => cases returned
    next bounded =>
      split at returned
      next => cases returned
      next some => exact ⟨Nat.pos_of_ne_zero some, Nat.not_lt.mp bounded⟩

theorem ungzipCounted_some {start : σ} {fuel : Nat} {input : Bytes} {countOut : Nat}
    (nonempty : input ≠ []) (positive : 0 < bufferSize input.length)
    (bounded : bufferSize input.length ≤ maxSize) :
    ungzipCounted (some start) inflate fuel input input.length countOut =
      ungzipCountedLoop inflate fuel start (input.take (input.length % unsignedRange))
        (List.replicate (bufferSize input.length) 0) 0 := by
  simp only [ungzipCounted]
  rw [if_neg nonempty, if_neg (Nat.not_lt.mpr bounded), if_neg positive.ne',
    if_neg (Nat.not_lt.mpr (Nat.mod_le _ _))]

/-- The last call of a function that returns. -/
theorem HaltsWith.lastCall (documented : Documented format inflate) {start : σ} {fuel : Nat}
    {input produced out : Bytes} {countOut count : Nat} {answer good : Bool}
    (halts : HaltsWith format start input good produced) (nonempty : input ≠ [])
    (returned : ungzipCounted (some start) inflate fuel input input.length countOut =
      some (.returned answer out count)) :
    answer = good ∧ ∃ last given,
      LastCall (bufferSize input.length) last given answer count ∧
      produced.length = rooms (bufferSize input.length) last + given := by
  rcases size_of_returned returned with ⟨positive, bounded⟩
  rcases halts with ⟨taken, left, final, split, run, halted, rfl⟩
  rw [ungzipCounted_some nonempty positive bounded, split,
    ← Nat.zero_mul (stride (bufferSize input.length))] at returned
  rcases exists_lastCall documented run halted List.length_replicate bounded (.inl rfl)
    (by omega) returned with ⟨last, given, ends, total, answered⟩
  refine ⟨answered, last, given, ends, ?_⟩
  rw [← total]
  simp [rooms]

/-- Only a first call that leaves some of its room counts right. -/
theorem LastCall.counted_once {size last given count : Nat}
    (ends : LastCall size last given true count) (bounded : size ≤ maxSize)
    (right : count = rooms size last + given) :
    rooms size last + given < stride size ∧ rooms size last + given < intRange := by
  rcases ends.counted rfl with ⟨leaves, counted, within⟩
  rcases Nat.eq_zero_or_pos last with rfl | later
  · rw [room_zero] at leaves counted
    have none : rooms size 0 = 0 := rfl
    rw [none, Nat.zero_add]
    refine ⟨leaves, ?_⟩
    by_contra long
    have beyond := lt_finalCount_first bounded leaves (Nat.not_lt.mp long)
    omega
  · have short : stride size < intRange := ends.steady.resolve_left later.ne'
    subst counted
    exact absurd right (finalCount_ne bounded short later ends.inside leaves within)

theorem agrees_of_not_started {input : Bytes} (nonempty : input ≠ [])
    (positive : 0 < bufferSize input.length) (bounded : bufferSize input.length ≤ maxSize)
    (countOut : Nat) : Agrees format none inflate input countOut := by
  refine ⟨false, List.replicate (bufferSize input.length) 0, countOut, ⟨0, ?_⟩, ?_⟩
  · simp only [ungzipCounted]
    rw [if_neg nonempty, if_neg (Nat.not_lt.mpr bounded), if_neg positive.ne']
  · intro never
    cases never

theorem HaltsWith.agrees_of_fits (documented : Documented format inflate) {start : σ}
    {input produced : Bytes} (halts : HaltsWith format start input true produced)
    (nonempty : input ≠ []) (positive : 0 < bufferSize input.length)
    (bounded : bufferSize input.length ≤ maxSize)
    (leaves : produced.length < stride (bufferSize input.length))
    (short : produced.length < intRange) (countOut : Nat) :
    Agrees format (some start) inflate input countOut := by
  have here := halts
  rcases here with ⟨taken, left, final, split, run, halted, good⟩
  refine ⟨true, produced, produced.length, ⟨1, ?_⟩, fun _ => ⟨?_, ?_⟩⟩
  · rw [ungzipCounted_some nonempty positive bounded, split]
    refine counted_of_fits documented run halted good ?_ short
    rw [List.length_replicate]
    exact leaves
  · exact ⟨start, produced, rfl, halts, rfl⟩
  · rcases exists_ungzip documented nonempty split run halted with
      ⟨fuel, kept, answered, whole⟩
    rw [good, whole good] at answered
    exact ⟨fuel, answered⟩

theorem HaltsWith.agrees_of_refused (prompt : Prompt format inflate) {start : σ}
    {input produced : Bytes} (halts : HaltsWith format start input false produced)
    (nonempty : input ≠ []) (positive : 0 < bufferSize input.length)
    (bounded : bufferSize input.length ≤ maxSize)
    (small : produced.length ≤ capacity (bufferSize input.length)) (countOut : Nat) :
    Agrees format (some start) inflate input countOut := by
  rcases halts with ⟨taken, left, final, split, run, halted, bad⟩
  have fits : rooms (bufferSize input.length) 0 + produced.length ≤
      capacity (bufferSize input.length) := by
    rw [show rooms (bufferSize input.length) 0 = 0 from rfl, Nat.zero_add]
    exact small
  rcases refused_of_fits prompt run halted bad List.length_replicate bounded
    (Nat.zero_le _) fits with ⟨fuel, kept, count, answered⟩
  refine ⟨false, kept, count, ⟨fuel, ?_⟩, ?_⟩
  · rw [ungzipCounted_some nonempty positive bounded, split,
      ← Nat.zero_mul (stride (bufferSize input.length))]
    exact answered
  · intro never
    cases never

/-- For input of less than 128 MiB, the output may be as long as the buffer only before an
error. -/
theorem fitsBuffer_iff_of_lt {started : Option σ} {input : Bytes} (nonempty : input ≠ [])
    (short : input.length < 0x8000000) :
    FitsBuffer format started input ↔
      (∀ start produced, started = some start → HaltsWith format start input true produced →
        produced.length < input.length * 16) ∧
      ∀ start produced, started = some start → HaltsWith format start input false produced →
        produced.length ≤ input.length * 16 := by
  have some := List.length_pos_iff.mpr nonempty
  have size : bufferSize input.length = input.length * 16 := by
    simp only [bufferSize, sizeRange]
    omega
  have small : input.length * 16 < intRange := by
    simp only [intRange]
    omega
  have whole := stride_of_lt small
  have holds := capacity_of_lt (by omega) small
  constructor
  · intro fits
    have accepts := fits.accepts
    have refuses := fits.refuses
    rw [size, whole] at accepts
    rw [size, holds] at refuses
    exact ⟨fun start produced begun halts => (accepts start produced begun halts).1, refuses⟩
  · intro fits
    constructor
    · omega
    · rw [size, maxSize]
      simp only [intRange] at small
      omega
    · intro start produced begun halts
      rw [size, whole]
      have leaves := fits.1 start produced begun halts
      exact ⟨leaves, leaves.trans small⟩
    · rw [size, holds]
      exact fits.2

theorem haltsWith_storedHi : HaltsWith single (some storedHi) storedHiBytes true [0x68, 0x69] := by
  have reached : single.advance 16 (some storedHi) storedHiBytes 2 =
      (some [], [], [0x68, 0x69]) := by decide
  rcases single.runs_advance 16 (some storedHi) storedHiBytes 2 with ⟨taken, split, whole, _⟩
  rw [reached] at split whole
  exact ⟨taken, [], some [], by rw [← split]; rfl, whole, trivial, rfl⟩

/-- The zlib stream of 256 times the letter a in one compressed block. -/
def manyAs : List Token :=
  ([0x78, 0xda, 0x4b, 0x4c, 0x1c, 0xd9, 0x00, 0x00].map Token.take) ++
    List.replicate 256 (Token.give 0x61) ++ [0xb4, 0x50, 0x61, 0x01].map Token.take

def manyAsBytes : Bytes :=
  [0x78, 0xda, 0x4b, 0x4c, 0x1c, 0xd9, 0x00, 0x00, 0xb4, 0x50, 0x61, 0x01]

end DMProxy.Compression
