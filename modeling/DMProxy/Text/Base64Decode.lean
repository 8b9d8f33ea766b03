import DMProxy.Text.Base64
import Mathlib.Algebra.Order.Group.Nat

/-!
# Reading base64

`base64_decode` of `utils/base64.cpp`: the characters in front of the first one that is none of
the alphabet are read in groups of four, and a shorter last group gives fewer bytes.  The number
of characters is kept in an `int`.
-/

namespace DMProxy.Text

/-- The number of values of an `int` that are not negative. -/
def intRange : Nat := 0x80000000

/-- `is_base64`, in the "C" locale. -/
def isBase64 (char : UInt8) : Bool :=
  (48 ≤ char && char ≤ 57) || (65 ≤ char && char ≤ 90) || (97 ≤ char && char ≤ 122) ||
    char == 43 || char == 47

/-- `base64_chars.find`, stored in an `unsigned char`. -/
def base64Find (char : UInt8) : UInt8 :=
  ((findFirstOf char base64Chars).getD 255).toUInt8

/-- The bytes of some characters, which are given by their positions in the alphabet. -/
def base64DecodeGroups : Bytes → Bytes
  | a :: b :: c :: d :: rest =>
      ((a <<< 2) + ((b &&& 0x30) >>> 4)) ::
      (((b &&& 0xf) <<< 4) + ((c &&& 0x3c) >>> 2)) ::
      (((c &&& 0x3) <<< 6) + d) :: base64DecodeGroups rest
  | [a, b, c] =>
      [(a <<< 2) + ((b &&& 0x30) >>> 4), ((b &&& 0xf) <<< 4) + ((c &&& 0x3c) >>> 2)]
  | [a, b] => [(a <<< 2) + ((b &&& 0x30) >>> 4)]
  | [_] => []
  | [] => []

/-- The loop of `base64_decode`, as far as it looks. -/
def base64DecodeChars (text : Bytes) : Bytes :=
  base64DecodeGroups ((text.takeWhile isBase64).map base64Find)

/-- `base64_decode`; `none` when `in_len` overflows.  A size of `intRange` or more makes `in_len`
negative, and then the loop ends at a character that is none of the alphabet. -/
def base64Decode (text : Bytes) : Option Bytes :=
  let size := text.length % unsignedRange
  if size < intRange then some (base64DecodeChars (text.take size))
  else if (text.takeWhile isBase64).length < size - intRange then some (base64DecodeChars text)
  else none

/-! ## The bits of a byte -/

theorem toNat_add_of_fits {high low : UInt8} (fits : high.toNat + low.toNat < 256) :
    (high + low).toNat = high.toNat + low.toNat := by
  rw [UInt8.toNat_add]
  exact Nat.mod_eq_of_lt fits

/-- The lowest bits of a number. -/
theorem and_low (value width : Nat) {mask : Nat} (low : mask + 1 = 2 ^ width) :
    value &&& mask = value % 2 ^ width := by
  rw [← Nat.and_two_pow_sub_one_eq_mod, ← low, Nat.add_sub_cancel]

/-- Bits that are cut out of a byte and moved to the right end. -/
theorem toNat_cutRight (byte mask shift : UInt8) (width : Nat)
    (cut : mask.toNat >>> (shift.toNat % 8) + 1 = 2 ^ width) :
    ((byte &&& mask) >>> shift).toNat = byte.toNat >>> (shift.toNat % 8) % 2 ^ width := by
  rw [UInt8.toNat_shiftRight, UInt8.toNat_and, Nat.shiftRight_and_distrib, and_low _ width cut]

/-- The lowest bits of a byte, moved to the left. -/
theorem toNat_cutLeft (byte mask shift : UInt8) (width : Nat) (cut : mask.toNat + 1 = 2 ^ width) :
    ((byte &&& mask) <<< shift).toNat =
      (byte.toNat % 2 ^ width) <<< (shift.toNat % 8) % 256 := by
  rw [UInt8.toNat_shiftLeft, UInt8.toNat_and, and_low _ width cut]

theorem toNat_upperSix (a : UInt8) : ((a &&& 0xfc) >>> 2).toNat = a.toNat / 4 := by
  have small := a.toNat_lt
  have cut := toNat_cutRight a 0xfc 2 6 (by decide)
  simp only [UInt8.reduceToNat, Nat.reduceMod, Nat.shiftRight_eq_div_pow] at cut
  omega

theorem toNat_lowerTwo (a : UInt8) : ((a &&& 0x03) <<< 4).toNat = a.toNat % 4 * 16 := by
  have cut := toNat_cutLeft a 0x03 4 2 (by decide)
  simp only [UInt8.reduceToNat, Nat.reduceMod, Nat.shiftLeft_eq] at cut
  omega

theorem toNat_upperFour (b : UInt8) : ((b &&& 0xf0) >>> 4).toNat = b.toNat / 16 := by
  have small := b.toNat_lt
  have cut := toNat_cutRight b 0xf0 4 4 (by decide)
  simp only [UInt8.reduceToNat, Nat.reduceMod, Nat.shiftRight_eq_div_pow] at cut
  omega

theorem toNat_lowerFour (b : UInt8) : ((b &&& 0x0f) <<< 2).toNat = b.toNat % 16 * 4 := by
  have cut := toNat_cutLeft b 0x0f 2 4 (by decide)
  simp only [UInt8.reduceToNat, Nat.reduceMod, Nat.shiftLeft_eq] at cut
  omega

theorem toNat_upperTwo (c : UInt8) : ((c &&& 0xc0) >>> 6).toNat = c.toNat / 64 := by
  have small := c.toNat_lt
  have cut := toNat_cutRight c 0xc0 6 2 (by decide)
  simp only [UInt8.reduceToNat, Nat.reduceMod, Nat.shiftRight_eq_div_pow] at cut
  omega

theorem toNat_lowerSix (c : UInt8) : (c &&& 0x3f).toNat = c.toNat % 64 := by
  rw [UInt8.toNat_and]
  exact and_low c.toNat 6 (by decide)

/-! ## The positions in the alphabet -/

/-- A character of the alphabet is one, and is found where it stands. -/
theorem isBase64_base64Char {index : UInt8} (small : index.toNat < 64) :
    isBase64 (base64Char index) = true ∧ base64Find (base64Char index) = index := by
  have all : ∀ value : Fin 64, isBase64 (base64Char (UInt8.ofNat value)) = true ∧
      base64Find (base64Char (UInt8.ofNat value)) = UInt8.ofNat value := by
    decide +kernel
  have here := all ⟨index.toNat, small⟩
  rw [UInt8.ofNat_toNat] at here
  exact here

/-- The positions in the alphabet of the characters that encode some bytes. -/
def base64Sextets : Bytes → Bytes
  | a :: b :: c :: rest =>
      ((a &&& 0xfc) >>> 2) :: (((a &&& 0x03) <<< 4) + ((b &&& 0xf0) >>> 4)) ::
      (((b &&& 0x0f) <<< 2) + ((c &&& 0xc0) >>> 6)) :: (c &&& 0x3f) :: base64Sextets rest
  | [a, b] =>
      [(a &&& 0xfc) >>> 2, ((a &&& 0x03) <<< 4) + ((b &&& 0xf0) >>> 4), (b &&& 0x0f) <<< 2]
  | [a] => [(a &&& 0xfc) >>> 2, (a &&& 0x03) <<< 4]
  | [] => []

theorem toNat_first (a b : UInt8) :
    (((a &&& 0x03) <<< 4) + ((b &&& 0xf0) >>> 4)).toNat = a.toNat % 4 * 16 + b.toNat / 16 := by
  have small := b.toNat_lt
  rw [toNat_add_of_fits] <;> rw [toNat_lowerTwo, toNat_upperFour]
  omega

theorem toNat_second (b c : UInt8) :
    (((b &&& 0x0f) <<< 2) + ((c &&& 0xc0) >>> 6)).toNat = b.toNat % 16 * 4 + c.toNat / 64 := by
  have small := c.toNat_lt
  rw [toNat_add_of_fits] <;> rw [toNat_lowerFour, toNat_upperTwo]
  omega

theorem sextet_lt (bytes : Bytes) : ∀ sextet ∈ base64Sextets bytes, sextet.toNat < 64 := by
  have upper (a : UInt8) : ((a &&& 0xfc) >>> 2).toNat < 64 := toNat_upper_lt a
  have first (a b : UInt8) : (((a &&& 0x03) <<< 4) + ((b &&& 0xf0) >>> 4)).toNat < 64 := by
    have small := b.toNat_lt
    rw [toNat_first]
    omega
  have second (b c : UInt8) : (((b &&& 0x0f) <<< 2) + ((c &&& 0xc0) >>> 6)).toNat < 64 := by
    have small := c.toNat_lt
    rw [toNat_second]
    omega
  have last (c : UInt8) : (c &&& 0x3f).toNat < 64 := by
    rw [toNat_lowerSix]
    omega
  have short (a : UInt8) : ((a &&& 0x03) <<< 4).toNat < 64 := by
    rw [toNat_lowerTwo]
    omega
  have middle (b : UInt8) : ((b &&& 0x0f) <<< 2).toNat < 64 := by
    rw [toNat_lowerFour]
    omega
  induction bytes using base64Sextets.induct with
  | case1 a b c rest ih =>
      simp only [base64Sextets, List.forall_mem_cons]
      exact ⟨upper a, first a b, second b c, last c, ih⟩
  | case2 a b =>
      simp only [base64Sextets, List.forall_mem_cons]
      exact ⟨upper a, first a b, middle b, by simp⟩
  | case3 a =>
      simp only [base64Sextets, List.forall_mem_cons]
      exact ⟨upper a, short a, by simp⟩
  | case4 => simp [base64Sextets]

/-- The encoding is made of the characters at these positions, and of padding. -/
theorem base64EncodeBytes_eq (bytes : Bytes) : ∃ padding : Bytes,
    base64EncodeBytes bytes = (base64Sextets bytes).map base64Char ++ padding ∧
      padding.takeWhile isBase64 = [] := by
  induction bytes using base64Sextets.induct with
  | case1 a b c rest ih =>
      rcases ih with ⟨padding, same, none⟩
      exact ⟨padding, by simp only [base64EncodeBytes, base64Sextets, List.map_cons,
        List.cons_append, same], none⟩
  | case2 a b => exact ⟨[61], rfl, rfl⟩
  | case3 a => exact ⟨[61, 61], rfl, rfl⟩
  | case4 => exact ⟨[], rfl, rfl⟩

theorem length_base64Sextets (bytes : Bytes) :
    (base64Sextets bytes).length = (4 * bytes.length + 2) / 3 := by
  induction bytes using base64Sextets.induct with
  | case1 a b c rest ih =>
      simp only [base64Sextets, List.length_cons, ih]
      omega
  | case2 | case3 | case4 => simp [base64Sextets]

theorem length_base64EncodeBytes (bytes : Bytes) :
    (base64EncodeBytes bytes).length = (bytes.length + 2) / 3 * 4 := by
  induction bytes using base64EncodeBytes.induct with
  | case1 a b c rest ih =>
      simp only [base64EncodeBytes, List.length_cons, ih]
      omega
  | case2 | case3 | case4 => simp [base64EncodeBytes]

/-! ## Decoding what was encoded -/

theorem toNat_shiftLeft_two (a : UInt8) : (a <<< 2).toNat = a.toNat * 4 % 256 := by
  rw [UInt8.toNat_shiftLeft, Nat.shiftLeft_eq]
  rfl

theorem toNat_middleTwo (b : UInt8) : ((b &&& 0x30) >>> 4).toNat = b.toNat / 16 % 4 := by
  have cut := toNat_cutRight b 0x30 4 2 (by decide)
  simpa only [UInt8.reduceToNat, Nat.reduceMod, Nat.shiftRight_eq_div_pow, Nat.reducePow] using cut

theorem toNat_lowerNibble (b : UInt8) : ((b &&& 0xf) <<< 4).toNat = b.toNat % 16 * 16 := by
  have cut := toNat_cutLeft b 0xf 4 4 (by decide)
  simp only [UInt8.reduceToNat, Nat.reduceMod, Nat.shiftLeft_eq] at cut
  omega

theorem toNat_middleFour (c : UInt8) : ((c &&& 0x3c) >>> 2).toNat = c.toNat / 4 % 16 := by
  have cut := toNat_cutRight c 0x3c 2 4 (by decide)
  simpa only [UInt8.reduceToNat, Nat.reduceMod, Nat.shiftRight_eq_div_pow, Nat.reducePow] using cut

theorem toNat_lastTwo (c : UInt8) : ((c &&& 0x3) <<< 6).toNat = c.toNat % 4 * 64 := by
  have cut := toNat_cutLeft c 0x3 6 2 (by decide)
  simp only [UInt8.reduceToNat, Nat.reduceMod, Nat.shiftLeft_eq] at cut
  omega

/-- The bytes that four sextets give. -/
theorem decoded_first {high low a : UInt8} (upper : high.toNat = a.toNat / 4)
    (lower : low.toNat / 16 % 4 = a.toNat % 4) : (high <<< 2) + ((low &&& 0x30) >>> 4) = a := by
  have small := a.toNat_lt
  apply UInt8.toNat_inj.mp
  rw [toNat_add_of_fits] <;> rw [toNat_shiftLeft_two, toNat_middleTwo] <;> omega

theorem decoded_second {high low b : UInt8} (upper : high.toNat % 16 = b.toNat / 16)
    (lower : low.toNat / 4 % 16 = b.toNat % 16) :
    ((high &&& 0xf) <<< 4) + ((low &&& 0x3c) >>> 2) = b := by
  have small := b.toNat_lt
  apply UInt8.toNat_inj.mp
  rw [toNat_add_of_fits] <;> rw [toNat_lowerNibble, toNat_middleFour] <;> omega

theorem decoded_third {high low c : UInt8} (upper : high.toNat % 4 = c.toNat / 64)
    (lower : low.toNat = c.toNat % 64) : ((high &&& 0x3) <<< 6) + low = c := by
  have small := c.toNat_lt
  apply UInt8.toNat_inj.mp
  rw [toNat_add_of_fits] <;> rw [toNat_lastTwo] <;> omega

theorem base64DecodeGroups_sextets (bytes : Bytes) :
    base64DecodeGroups (base64Sextets bytes) = bytes := by
  have small (byte : UInt8) := byte.toNat_lt
  have one (a b : UInt8) := decoded_first (toNat_upperSix a)
    (show (((a &&& 0x03) <<< 4) + ((b &&& 0xf0) >>> 4)).toNat / 16 % 4 = a.toNat % 4 by
      have := small b
      rw [toNat_first]
      omega)
  have two (a b c : UInt8) := decoded_second
    (show (((a &&& 0x03) <<< 4) + ((b &&& 0xf0) >>> 4)).toNat % 16 = b.toNat / 16 by
      have := small b
      rw [toNat_first]
      omega)
    (show (((b &&& 0x0f) <<< 2) + ((c &&& 0xc0) >>> 6)).toNat / 4 % 16 = b.toNat % 16 by
      have := small c
      rw [toNat_second]
      omega)
  induction bytes using base64Sextets.induct with
  | case1 a b c rest ih =>
      have third := decoded_third
        (show (((b &&& 0x0f) <<< 2) + ((c &&& 0xc0) >>> 6)).toNat % 4 = c.toNat / 64 by
          have := small c
          rw [toNat_second]
          omega)
        (toNat_lowerSix c)
      rw [base64Sextets, base64DecodeGroups, one, two, third, ih]
  | case2 a b =>
      -- the third byte of the group is zero
      have second := two a b 0
      simp only [UInt8.zero_and, UInt8.zero_shiftRight, UInt8.add_zero] at second
      rw [base64Sextets, base64DecodeGroups, one, second]
  | case3 a =>
      have first := one a 0
      simp only [UInt8.zero_and, UInt8.zero_shiftRight, UInt8.add_zero] at first
      rw [base64Sextets, base64DecodeGroups, first]
  | case4 => rfl

theorem isBase64_sextets (bytes : Bytes) :
    ∀ char ∈ (base64Sextets bytes).map base64Char, isBase64 char = true := by
  intro char member
  rcases List.mem_map.mp member with ⟨sextet, listed, rfl⟩
  exact (isBase64_base64Char (sextet_lt bytes sextet listed)).1

/-- The characters of an encoding in front of its padding. -/
theorem takeWhile_base64EncodeBytes (bytes : Bytes) :
    (base64EncodeBytes bytes).takeWhile isBase64 = (base64Sextets bytes).map base64Char := by
  rcases base64EncodeBytes_eq bytes with ⟨padding, same, ended⟩
  rw [same, List.takeWhile_append_of_pos (isBase64_sextets bytes), ended, List.append_nil]

theorem base64DecodeChars_encode (bytes : Bytes) :
    base64DecodeChars (base64EncodeBytes bytes) = bytes := by
  have found : (base64Sextets bytes).map (base64Find ∘ base64Char) = base64Sextets bytes := by
    rw [List.map_congr_left (g := id), List.map_id]
    intro sextet listed
    exact (isBase64_base64Char (sextet_lt bytes sextet listed)).2
  rw [base64DecodeChars, takeWhile_base64EncodeBytes, List.map_map, found,
    base64DecodeGroups_sextets]

theorem length_base64DecodeGroups (sextets : Bytes) :
    (base64DecodeGroups sextets).length = sextets.length * 3 / 4 := by
  induction sextets using base64DecodeGroups.induct with
  | case1 a b c d rest ih =>
      simp only [base64DecodeGroups, List.length_cons, ih]
      omega
  | case2 | case3 | case4 | case5 => simp [base64DecodeGroups]

theorem length_base64DecodeChars_le (text : Bytes) :
    (base64DecodeChars text).length ≤ text.length * 3 / 4 := by
  have shorter := (text.takeWhile_prefix isBase64).length_le
  rw [base64DecodeChars, length_base64DecodeGroups, List.length_map]
  omega

/-- The largest number of bytes of which the encoding has fewer characters than `intRange`. -/
def base64Capacity : Nat := 0x5ffffffd

theorem length_base64Encode (bytes : Bytes) :
    (base64Encode bytes).length = (bytes.length % unsignedRange + 2) / 3 * 4 := by
  rw [base64Encode, length_base64EncodeBytes, List.length_take, Nat.min_eq_left (Nat.mod_le _ _)]

/-- What is encoded in fewer than `intRange` characters is decoded to itself. -/
theorem base64Decode_encode {bytes : Bytes} (fits : bytes.length ≤ base64Capacity) :
    base64Decode (base64Encode bytes) = some bytes := by
  rw [base64Capacity] at fits
  have whole : bytes.length % unsignedRange = bytes.length :=
    Nat.mod_eq_of_lt (by rw [unsignedRange]; omega)
  have small : (base64Encode bytes).length < intRange := by
    rw [length_base64Encode, whole, intRange]
    omega
  have size : (base64Encode bytes).length % unsignedRange = (base64Encode bytes).length :=
    Nat.mod_eq_of_lt (small.trans (by decide))
  simp only [base64Decode]
  rw [size, if_pos small, List.take_length, base64Encode, whole, List.take_length,
    base64DecodeChars_encode]

/-- Otherwise the length is negative as an `int`, and at most padding is left unread. -/
theorem fits_of_base64Decode {bytes : Bytes}
    (decoded : base64Decode (base64Encode bytes) = some bytes) :
    bytes.length ≤ base64Capacity := by
  have encoded := length_base64Encode bytes
  have read : ((base64Encode bytes).takeWhile isBase64).length =
      (4 * (bytes.length % unsignedRange) + 2) / 3 := by
    rw [base64Encode, takeWhile_base64EncodeBytes, List.length_map, length_base64Sextets,
      List.length_take, Nat.min_eq_left (Nat.mod_le _ _)]
  rw [base64Capacity]
  simp only [base64Decode] at decoded
  split at decoded
  next small =>
    have bound := length_base64DecodeChars_le
      ((base64Encode bytes).take ((base64Encode bytes).length % unsignedRange))
    rw [Option.some.inj decoded, List.length_take] at bound
    simp only [unsignedRange, intRange] at *
    omega
  next large =>
    split at decoded
    next looks =>
      -- the loop looks at all characters but the padding
      have bound := Nat.mod_le (base64Encode bytes).length unsignedRange
      rw [read] at looks
      rw [encoded] at bound looks
      have range : 2 ≤ intRange := by decide
      omega
    next => cases decoded

/-- Decoding gives back the bytes that were encoded exactly if there are not too many. -/
theorem base64Decode_base64Encode_iff (bytes : Bytes) :
    base64Decode (base64Encode bytes) = some bytes ↔ bytes.length ≤ base64Capacity :=
  ⟨fits_of_base64Decode, base64Decode_encode⟩

end DMProxy.Text
