import Mathlib.Algebra.BigOperators.Intervals
import Mathlib.Algebra.Order.BigOperators.Group.Finset
import Mathlib.Data.Nat.Factorization.Basic
import Mathlib.Tactic.Linarith
import Mathlib.Tactic.LinearCombination
import Mathlib.Tactic.Ring

/-!
# Walks around a cycle

A walk goes around a cycle in equal steps.  The gap of a place is the way from it to the start:
backwards as long as the first step has not been passed, and onwards afterwards.  Until a walk
comes back to the start, the gaps that lead onwards outweigh the others.
-/

namespace DMProxy.Arithmetic

/-- Where the walk is after so many steps. -/
def place (size step index : ℕ) : ℕ := index * step % size

/-- The signed way to the start. -/
def gap (size step index : ℕ) : ℤ :=
  if place size step index ≤ step then -(place size step index : ℤ)
  else (size : ℤ) - place size step index

variable {size step index count half : ℕ}

theorem gap_of_le (passed : place size step index ≤ step) :
    gap size step index = -(place size step index : ℤ) := if_pos passed

theorem gap_of_lt (passed : step < place size step index) :
    gap size step index = (size : ℤ) - place size step index := if_neg (not_le.mpr passed)

theorem dvd_place_sub (size step index : ℕ) :
    (size : ℤ) ∣ place size step index - (index : ℤ) * step := by
  rw [place]
  push_cast
  exact Int.dvd_emod_sub_self

/-- Every gap leads to the start. -/
theorem dvd_gap_add (size step index : ℕ) :
    (size : ℤ) ∣ gap size step index + (index : ℤ) * step := by
  rcases dvd_place_sub size step index with ⟨turns, turned⟩
  rcases le_or_gt (place size step index) step with ahead | passed
  · rw [gap_of_le ahead]
    exact ⟨-turns, by linear_combination -turned⟩
  · rw [gap_of_lt passed]
    exact ⟨1 - turns, by linear_combination -turned⟩

/-- The sum of the first gaps, doubled in order not to halve a product. -/
theorem dvd_two_mul_sum_gap (size step count : ℕ) :
    (2 * size : ℤ) ∣
      2 * ∑ index ∈ Finset.range count, gap size step index + step * count * (count - 1) := by
  induction count with
  | zero => simp
  | succ count ih =>
      rcases ih with ⟨before, summed⟩
      rcases dvd_gap_add size step count with ⟨turns, turned⟩
      rw [Finset.sum_range_succ]
      push_cast
      exact ⟨before + turns, by linear_combination summed + 2 * turned⟩

/-! ## A walk that closes -/

/-- The last places of a walk that comes back to the start mirror the first ones. -/
theorem dvd_place_add_mirror (closes : size ∣ count * step) (inside : index ≤ count) :
    size ∣ place size step index + place size step (count - index) := by
  have split : index * step + (count - index) * step = count * step := by
    rw [← Nat.add_mul, Nat.add_sub_cancel' inside]
  rw [← split] at closes
  refine Nat.dvd_of_mod_eq_zero ?_
  rw [place, place, ← Nat.add_mod]
  exact Nat.mod_eq_zero_of_dvd closes

theorem place_mirror_start (closes : size ∣ count * step) (inside : index ≤ count)
    (start : place size step index = 0) : place size step (count - index) = 0 := by
  have whole := dvd_place_add_mirror closes inside
  rw [start, Nat.zero_add] at whole
  have still := Nat.mod_eq_zero_of_dvd whole
  rw [place, Nat.mod_mod] at still
  exact still

theorem place_mirror (some : 0 < size) (closes : size ∣ count * step) (inside : index ≤ count)
    (away : 0 < place size step index) :
    place size step index + place size step (count - index) = size := by
  have one : place size step index < size := Nat.mod_lt _ some
  have other : place size step (count - index) < size := Nat.mod_lt _ some
  exact Nat.eq_of_dvd_of_lt_two_mul (by omega) (dvd_place_add_mirror closes inside) (by omega)

/-- Two gaps that mirror each other do not lead backwards, -/
theorem gap_mirror_nonneg (short : 2 * step < size) (closes : size ∣ count * step)
    (inside : index ≤ count) : 0 ≤ gap size step index + gap size step (count - index) := by
  rcases Nat.eq_zero_or_pos (place size step index) with start | away
  · rw [gap, gap, start, place_mirror_start closes inside start]
    simp
  · have mirror := place_mirror (by omega) closes inside away
    simp only [gap]
    split
    · split
      · omega
      · omega
    · split
      · omega
      · omega

/-- and those half way around the cycle lead onwards. -/
theorem gap_mirror_half (short : step < half) (closes : 2 * half ∣ count * step)
    (inside : index ≤ count) (middle : place (2 * half) step index = half) :
    gap (2 * half) step index + gap (2 * half) step (count - index) = 2 * half := by
  have mirror := place_mirror (by omega) closes inside (by omega)
  rw [middle] at mirror
  have other : place (2 * half) step (count - index) = half := by omega
  rw [gap_of_lt (by omega), gap_of_lt (by omega), middle, other]
  push_cast
  ring

/-- A closed walk around a cycle of a power of two comes by the place half way around it. -/
theorem exists_place_half {exponent : ℕ} (power : half = 2 ^ exponent) (positive : 0 < step)
    (short : step < half) (again : 0 < count) (closes : 2 * half ∣ count * step) :
    ∃ index < count, place (2 * half) step index = half := by
  -- an odd number of halves is one half and some turns
  rcases Nat.exists_eq_two_pow_mul_odd positive.ne' with ⟨twos, odd, ⟨rest, rfl⟩, rfl⟩
  have fewer : twos < exponent := by
    refine (Nat.pow_lt_pow_iff_right Nat.one_lt_two).mp ?_
    rw [← power]
    exact lt_of_le_of_lt (Nat.le_mul_of_pos_right _ (Nat.succ_pos _)) short
  rcases Nat.exists_eq_add_of_lt fewer with ⟨more, rfl⟩
  refine ⟨2 ^ (more + 1), ?_, ?_⟩
  · have whole : 2 ^ (more + 2) ∣ count := by
      have coprime : Nat.Coprime (2 ^ (more + 2)) (2 * rest + 1) :=
        Nat.Coprime.pow_left _ (by simp)
      refine coprime.dvd_of_dvd_mul_right ?_
      refine Nat.dvd_of_mul_dvd_mul_left (Nat.two_pow_pos twos) ?_
      rw [power] at closes
      have same : 2 * 2 ^ (twos + more + 1) = 2 ^ twos * 2 ^ (more + 2) := by ring
      have regroup : count * (2 ^ twos * (2 * rest + 1)) =
          2 ^ twos * (count * (2 * rest + 1)) := by ring
      rw [same, regroup] at closes
      exact closes
    exact lt_of_lt_of_le (Nat.pow_lt_pow_right Nat.one_lt_two (Nat.lt_succ_self _))
      (Nat.le_of_dvd again whole)
  · have there : 2 ^ (more + 1) * (2 ^ twos * (2 * rest + 1)) = half + 2 * half * rest := by
      rw [power]
      ring
    rw [place, there, Nat.add_mul_mod_self_left]
    exact Nat.mod_eq_of_lt (by omega)

/-- The sum of the gaps pairs each place with its mirror. -/
theorem two_mul_sum_gap (size step count : ℕ) :
    2 * ∑ index ∈ Finset.range count, gap size step (index + 1) =
      ∑ index ∈ Finset.range count,
        (gap size step (index + 1) + gap size step (count + 1 - (index + 1))) := by
  have mirrored := Finset.sum_range_reflect (fun index => gap size step (index + 1)) count
  rw [Finset.sum_add_distrib, two_mul, add_right_inj, ← mirrored]
  refine Finset.sum_congr rfl fun index member => ?_
  rw [Finset.mem_range] at member
  rw [show count - 1 - index + 1 = count + 1 - (index + 1) by omega]

/-- The gaps of a closed walk lead onwards. -/
theorem sum_gap_pos {exponent : ℕ} (power : half = 2 ^ exponent) (positive : 0 < step)
    (short : step < half) (again : 0 < count) (closes : 2 * half ∣ count * step) :
    0 < ∑ index ∈ Finset.range count, gap (2 * half) step index := by
  rcases exists_place_half power positive short again closes with ⟨middle, inside, reached⟩
  have away : middle ≠ 0 := by
    intro none
    rw [none, place, Nat.zero_mul, Nat.zero_mod] at reached
    omega
  cases count with
  | zero => exact absurd again (Nat.lt_irrefl 0)
  | succ count =>
      have start : gap (2 * half) step 0 = 0 := by simp [gap, place]
      have doubled := two_mul_sum_gap (2 * half) step count
      have onwards : 0 < ∑ index ∈ Finset.range count, (gap (2 * half) step (index + 1) +
          gap (2 * half) step (count + 1 - (index + 1))) := by
        refine Finset.sum_pos' (fun index member => ?_) ⟨middle - 1, ?_, ?_⟩
        · rw [Finset.mem_range] at member
          exact gap_mirror_nonneg (by omega) closes (by omega)
        · rw [Finset.mem_range]
          omega
        · rw [Nat.sub_add_cancel (Nat.pos_of_ne_zero away),
            gap_mirror_half short closes inside.le reached]
          omega
      rw [Finset.sum_range_succ', start, add_zero]
      omega

/-- If the sum of the gaps is where the walk is, up to some turns, then the walk closes now or
with its next step. -/
theorem closes_of_sum_gap_eq {exponent : ℕ} (power : half = 2 ^ exponent) {turns : ℤ}
    (equal : ∑ index ∈ Finset.range count, gap (2 * half) step index =
      place (2 * half) step count - 2 * half * turns) :
    2 * half ∣ count * step ∨ 2 * half ∣ (count + 1) * step := by
  have twice : 2 ^ (exponent + 2) ∣ step * count * (count + 1) := by
    rcases dvd_two_mul_sum_gap (2 * half) step count with ⟨gaps, summed⟩
    rcases dvd_place_sub (2 * half) step count with ⟨rounds, placed⟩
    have size : ((2 ^ (exponent + 2) : ℕ) : ℤ) = 2 * (2 * half) := by
      rw [power]
      push_cast
      ring
    refine Int.natCast_dvd_natCast.mp ⟨gaps - rounds + turns, ?_⟩
    rw [size]
    rw [equal] at summed
    push_cast at summed placed ⊢
    linear_combination summed - 2 * placed
  have shorter : 2 * half ∣ 2 ^ (exponent + 2) := ⟨2, by rw [power]; ring⟩
  -- the odd one of `count` and its successor does not help to divide
  rcases Nat.even_or_odd count with even | odd
  · have coprime : Nat.Coprime (2 ^ (exponent + 2)) (count + 1) :=
      Nat.Coprime.pow_left _ (Nat.coprime_two_left.mpr even.add_one)
    have whole := coprime.dvd_of_dvd_mul_right twice
    rw [Nat.mul_comm] at whole
    exact .inl (shorter.trans whole)
  · have coprime : Nat.Coprime (2 ^ (exponent + 2)) count :=
      Nat.Coprime.pow_left _ (Nat.coprime_two_left.mpr odd)
    rw [Nat.mul_right_comm] at twice
    have whole := coprime.dvd_of_dvd_mul_right twice
    rw [Nat.mul_comm] at whole
    exact .inr (shorter.trans whole)

/-- The sum of the gaps is neither where the walk is, in the first half of the cycle, nor one
turn before it. -/
theorem sum_gap_ne {exponent : ℕ} (power : half = 2 ^ exponent) (positive : 0 < step)
    (short : step < half) (again : 0 < count) {turns : ℤ}
    (turned : turns = 0 ∧ place (2 * half) step count < half ∨ turns = 1) :
    ∑ index ∈ Finset.range count, gap (2 * half) step index ≠
      place (2 * half) step count - 2 * half * turns := by
  intro equal
  rcases closes_of_sum_gap_eq power equal with now | next
  · have onwards := sum_gap_pos power positive short again now
    have start : place (2 * half) step count = 0 := Nat.mod_eq_zero_of_dvd now
    rw [equal, start] at onwards
    rcases turned with ⟨rfl, _⟩ | rfl
    · simp at onwards
    · push_cast at onwards
      omega
  · have onwards := sum_gap_pos power positive short (Nat.succ_pos count) next
    have first : place (2 * half) step 1 = step := by
      rw [place, Nat.one_mul]
      exact Nat.mod_eq_of_lt (by omega)
    have last := place_mirror (by omega) next (Nat.succ_le_succ (Nat.zero_le count))
      (by rw [first]; exact positive)
    rw [first, Nat.add_sub_cancel] at last
    have passed : step < place (2 * half) step count := by omega
    rw [Finset.sum_range_succ, equal, gap_of_lt passed] at onwards
    rcases turned with ⟨_, early⟩ | rfl
    · omega
    · push_cast at onwards
      omega

end DMProxy.Arithmetic
