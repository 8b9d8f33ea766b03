import DMProxy.Arithmetic.Cycle
import DMProxy.Text.Bytes

/-!
# The arithmetic of `count_out`

`ungzip` gives `inflate` the room behind `count_out`, and after each call it adds to `count_out`
what it takes for the length of the output.  The room of a call is cut off at the range of an
unsigned integer, and the length goes through a signed one.
-/

namespace DMProxy.Compression

open DMProxy.Arithmetic
open DMProxy.Text (unsignedRange)

/-- The number of values of `size_t` and of `uLong`. -/
def sizeRange : Nat := 0x10000000000000000

/-- The number of values of an `int` that are not negative. -/
def intRange : Nat := 0x80000000

/-- The greatest size of a vector of bytes. -/
def maxSize : Nat := 0x7fffffffffffffff

/-- A `size_t` that was assigned to an `int`, when it is added to a `size_t`. -/
def throughInt (value : Nat) : Nat :=
  if value % unsignedRange < intRange then value % unsignedRange
  else value % unsignedRange + (sizeRange - unsignedRange)

/-- `avail_out`, from a difference of `uLong` and `size_t`. -/
def availOut (uncomprLen countOut : Nat) : Nat :=
  (uncomprLen + sizeRange - countOut) % sizeRange % unsignedRange

/-- What a call that fills its room seems to have given. -/
def stride (uncomprLen : Nat) : Nat := uncomprLen % unsignedRange

/-- The room of a call, when all the calls before it have filled theirs. -/
def room (uncomprLen call : Nat) : Nat := availOut uncomprLen (call * stride uncomprLen)

/-- The room of so many calls. -/
def rooms (uncomprLen calls : Nat) : Nat :=
  ∑ call ∈ Finset.range calls, room uncomprLen call

/-- How often `count_out` can grow and stay inside the buffer. -/
def laps (uncomprLen : Nat) : Nat :=
  if stride uncomprLen < intRange then uncomprLen / stride uncomprLen else 0

/-- How much can be given before a call has no room inside the buffer. -/
def capacity (uncomprLen : Nat) : Nat := rooms uncomprLen (laps uncomprLen + 1)

variable {uncomprLen call : Nat}

theorem rooms_succ (uncomprLen calls : Nat) :
    rooms uncomprLen (calls + 1) = rooms uncomprLen calls + room uncomprLen calls :=
  Finset.sum_range_succ _ _

theorem rooms_one (uncomprLen : Nat) : rooms uncomprLen 1 = room uncomprLen 0 := by
  simp [rooms]

theorem rooms_mono (uncomprLen : Nat) : Monotone (rooms uncomprLen) :=
  monotone_nat_of_le_succ fun calls => by
    rw [rooms_succ]
    exact Nat.le_add_right _ _

theorem throughInt_of_lt {value : Nat} (small : value % unsignedRange < intRange) :
    throughInt value = value % unsignedRange := if_pos small

theorem throughInt_of_le {value : Nat} (large : intRange ≤ value % unsignedRange) :
    throughInt value = value % unsignedRange + (sizeRange - unsignedRange) :=
  if_neg (not_lt.mpr large)

theorem room_of_inside (inside : call * stride uncomprLen ≤ uncomprLen) :
    room uncomprLen call = (uncomprLen - call * stride uncomprLen) % unsignedRange := by
  simp only [room, availOut, sizeRange, unsignedRange]
  omega

theorem room_zero (uncomprLen : Nat) : room uncomprLen 0 = stride uncomprLen := by
  rw [room_of_inside (by omega), Nat.zero_mul, Nat.sub_zero, stride]

/-- The room of a call lies inside the buffer, if the call starts there. -/
theorem add_room_le (inside : call * stride uncomprLen ≤ uncomprLen) :
    call * stride uncomprLen + room uncomprLen call ≤ uncomprLen := by
  rw [room_of_inside inside]
  have cut := Nat.mod_le (uncomprLen - call * stride uncomprLen) unsignedRange
  omega

/-- A call that fills its room is followed by the next one, -/
theorem next_stride (bounded : uncomprLen ≤ maxSize) (short : stride uncomprLen < intRange)
    (inside : call * stride uncomprLen ≤ uncomprLen) :
    (call * stride uncomprLen + throughInt uncomprLen) % sizeRange =
      (call + 1) * stride uncomprLen := by
  rw [Nat.add_mul, Nat.one_mul, throughInt_of_lt short]
  simp only [stride, maxSize, intRange, sizeRange, unsignedRange] at *
  omega

/-- or leads out of the buffer. -/
theorem lt_throughInt (bounded : uncomprLen ≤ maxSize) (long : intRange ≤ stride uncomprLen) :
    uncomprLen < throughInt uncomprLen % sizeRange := by
  rw [throughInt_of_le long]
  simp only [stride, maxSize, intRange, sizeRange, unsignedRange] at *
  omega

/-- A lap starts inside the buffer. -/
theorem inside_of_le_laps (early : call ≤ laps uncomprLen) :
    call * stride uncomprLen ≤ uncomprLen := by
  simp only [laps] at early
  split at early
  next => exact (Nat.mul_le_mul_right _ early).trans (Nat.div_mul_le_self _ _)
  next =>
    rw [Nat.le_zero.mp early, Nat.zero_mul]
    exact Nat.zero_le _

/-- There is no room where `count_out` does not grow. -/
theorem rooms_of_still (still : stride uncomprLen = 0) (calls : Nat) :
    rooms uncomprLen calls = 0 := by
  refine Finset.sum_eq_zero fun call _ => ?_
  have inside : call * stride uncomprLen ≤ uncomprLen := by
    rw [still, Nat.mul_zero]
    exact Nat.zero_le _
  rw [room_of_inside inside, still, Nat.mul_zero, Nat.sub_zero]
  exact still

theorem stride_of_lt (short : uncomprLen < intRange) : stride uncomprLen = uncomprLen := by
  simp only [stride, intRange, unsignedRange] at *
  omega

/-- A buffer whose size is an `int` has room for what fits into it. -/
theorem capacity_of_lt (positive : 0 < uncomprLen) (short : uncomprLen < intRange) :
    capacity uncomprLen = uncomprLen := by
  have whole := stride_of_lt short
  have last : room uncomprLen 1 = 0 := by
    rw [room_of_inside (by rw [whole, Nat.one_mul]), whole, Nat.one_mul, Nat.sub_self,
      Nat.zero_mod]
  rw [capacity, laps, whole, if_pos short, Nat.div_self positive, rooms_succ, rooms_one, last,
    room_zero, whole, Nat.add_zero]

theorem rooms_le_capacity (steady : call = 0 ∨ stride uncomprLen < intRange)
    (inside : call * stride uncomprLen ≤ uncomprLen) :
    rooms uncomprLen (call + 1) ≤ capacity uncomprLen := by
  rcases Nat.eq_zero_or_pos (stride uncomprLen) with still | positive
  · rw [rooms_of_still still]
    exact Nat.zero_le _
  · refine rooms_mono uncomprLen (Nat.succ_le_succ ?_)
    rcases steady with rfl | short
    · exact Nat.zero_le _
    · rw [laps, if_pos short]
      exact (Nat.le_div_iff_mul_le positive).mpr inside

/-! ## The room on a cycle -/

/-- The room of a call differs from that of the first one by a gap. -/
theorem room_eq_gap (inside : call * stride uncomprLen ≤ uncomprLen) :
    (room uncomprLen call : ℤ) =
      stride uncomprLen + gap (2 * intRange) (stride uncomprLen) call := by
  rw [room_of_inside inside]
  rcases le_or_gt (place (2 * intRange) (stride uncomprLen) call) (stride uncomprLen) with
    ahead | passed
  · rw [gap_of_le ahead]
    simp only [place, stride, intRange, unsignedRange] at *
    omega
  · rw [gap_of_lt passed]
    simp only [place, stride, intRange, unsignedRange] at *
    omega

theorem rooms_eq_gaps {calls : Nat} (inside : calls * stride uncomprLen ≤ uncomprLen) :
    (rooms uncomprLen calls : ℤ) = calls * stride uncomprLen +
      ∑ call ∈ Finset.range calls, gap (2 * intRange) (stride uncomprLen) call := by
  induction calls with
  | zero => simp [rooms]
  | succ calls ih =>
      have before : calls * stride uncomprLen ≤ uncomprLen :=
        (Nat.mul_le_mul_right _ (Nat.le_succ calls)).trans inside
      rw [rooms_succ, Finset.sum_range_succ, Nat.cast_add, ih before,
        room_eq_gap before]
      push_cast
      ring

/-- `count_out` after a call that leaves some of its room. -/
def finalCount (uncomprLen call unused : Nat) : Nat :=
  (call * stride uncomprLen + throughInt (uncomprLen - unused)) % sizeRange

theorem unused_first {given : Nat} (fits : given < stride uncomprLen) :
    (uncomprLen - (stride uncomprLen - given)) % unsignedRange = given := by
  simp only [stride, unsignedRange] at *
  omega

/-- A first call that leaves some of its room is counted right, -/
theorem finalCount_first {given : Nat} (fits : given < stride uncomprLen)
    (short : given < intRange) :
    finalCount uncomprLen 0 (stride uncomprLen - given) = given := by
  have low := unused_first fits
  rw [finalCount, throughInt_of_lt (by rw [low]; exact short), low]
  simp only [intRange, sizeRange] at *
  omega

/-- unless its output is too long for a signed integer. -/
theorem lt_finalCount_first (bounded : uncomprLen ≤ maxSize) {given : Nat}
    (fits : given < stride uncomprLen) (long : intRange ≤ given) :
    uncomprLen < finalCount uncomprLen 0 (stride uncomprLen - given) := by
  have low := unused_first fits
  rw [finalCount, throughInt_of_le (by rw [low]; exact long), low]
  simp only [stride, maxSize, intRange, sizeRange, unsignedRange] at *
  omega

theorem unused_later (inside : call * stride uncomprLen ≤ uncomprLen) {given : Nat}
    (fits : given < room uncomprLen call) :
    (uncomprLen - (room uncomprLen call - given)) % unsignedRange =
      (call * stride uncomprLen + given) % unsignedRange := by
  have cut := room_of_inside inside
  simp only [unsignedRange] at *
  omega

/-- A later call that leaves some of its room gets a count that the walk contradicts. -/
theorem gaps_of_finalCount (bounded : uncomprLen ≤ maxSize)
    (short : stride uncomprLen < intRange) (inside : call * stride uncomprLen ≤ uncomprLen)
    {given : Nat} (fits : given < room uncomprLen call)
    (counted : finalCount uncomprLen call (room uncomprLen call - given) ≤ uncomprLen)
    (equal : finalCount uncomprLen call (room uncomprLen call - given) =
      rooms uncomprLen call + given) :
    ∃ turns, (turns = 0 ∧ place (2 * intRange) (stride uncomprLen) call < intRange ∨ turns = 1) ∧
      ∑ index ∈ Finset.range call, gap (2 * intRange) (stride uncomprLen) index =
        place (2 * intRange) (stride uncomprLen) call - 2 * intRange * turns := by
  have sums := rooms_eq_gaps inside
  have here := room_eq_gap inside
  have low := unused_later inside fits
  have reach : place (2 * intRange) (stride uncomprLen) call + given <
      2 * intRange + stride uncomprLen := by
    rcases le_or_gt (place (2 * intRange) (stride uncomprLen) call) (stride uncomprLen) with
      ahead | passed
    · rw [gap_of_le ahead] at here
      omega
    · rw [gap_of_lt passed] at here
      omega
  simp only [finalCount] at counted equal
  rcases lt_or_ge ((call * stride uncomprLen + given) % unsignedRange) intRange with small | large
  · rw [throughInt_of_lt (by rw [low]; exact small), low] at counted equal
    rcases lt_or_ge (place (2 * intRange) (stride uncomprLen) call + given) (2 * intRange) with
      onward | around
    · refine ⟨0, .inl ⟨rfl, ?_⟩, ?_⟩
      all_goals
        simp only [place, maxSize, intRange, sizeRange, unsignedRange] at *
        omega
    · refine ⟨1, .inr rfl, ?_⟩
      simp only [place, maxSize, intRange, sizeRange, unsignedRange] at *
      omega
  · rw [throughInt_of_le (by rw [low]; exact large), low] at counted equal
    refine ⟨1, .inr rfl, ?_⟩
    simp only [place, maxSize, intRange, sizeRange, unsignedRange] at *
    omega

/-- Any later call is counted wrong. -/
theorem finalCount_ne (bounded : uncomprLen ≤ maxSize) (short : stride uncomprLen < intRange)
    (later : 0 < call) (inside : call * stride uncomprLen ≤ uncomprLen) {given : Nat}
    (fits : given < room uncomprLen call)
    (counted : finalCount uncomprLen call (room uncomprLen call - given) ≤ uncomprLen) :
    finalCount uncomprLen call (room uncomprLen call - given) ≠
      rooms uncomprLen call + given := by
  intro equal
  have positive : 0 < stride uncomprLen := by
    refine Nat.pos_of_ne_zero fun still => ?_
    rw [room_of_inside inside, still, Nat.mul_zero, Nat.sub_zero, ← stride, still] at fits
    exact Nat.not_lt_zero given fits
  rcases gaps_of_finalCount bounded short inside fits counted equal with ⟨turns, turned, gaps⟩
  exact @sum_gap_ne _ _ intRange 31 (by simp [intRange]) positive short later turns turned gaps

end DMProxy.Compression
