import DMProxy.Text.Bytes

/-!
# Base64

`base64_encode` of `utils/base64.cpp`: groups of three bytes become four
characters, a shorter last group is padded with `=`.
-/

namespace DMProxy.Text

/-- `base64_chars`. -/
def base64Chars : Bytes :=
  ascii "ABCDEFGHIJKLMNOPQRSTUVWXYZabcdefghijklmnopqrstuvwxyz0123456789+/"

def base64Char (index : UInt8) : UInt8 :=
  base64Chars.getD index.toNat 0

/-- The loop of `base64_encode` over the bytes it was given. -/
def base64EncodeBytes : Bytes → Bytes
  | a :: b :: c :: rest =>
      base64Char ((a &&& 0xfc) >>> 2) ::
      base64Char (((a &&& 0x03) <<< 4) + ((b &&& 0xf0) >>> 4)) ::
      base64Char (((b &&& 0x0f) <<< 2) + ((c &&& 0xc0) >>> 6)) ::
      base64Char (c &&& 0x3f) :: base64EncodeBytes rest
  | [a, b] =>
      [base64Char ((a &&& 0xfc) >>> 2),
        base64Char (((a &&& 0x03) <<< 4) + ((b &&& 0xf0) >>> 4)),
        base64Char ((b &&& 0x0f) <<< 2), 61]
  | [a] =>
      [base64Char ((a &&& 0xfc) >>> 2), base64Char ((a &&& 0x03) <<< 4), 61, 61]
  | [] => []

/-- `base64_encode`; its length argument is an `unsigned int`. -/
def base64Encode (bytes : Bytes) : Bytes :=
  base64EncodeBytes (bytes.take (bytes.length % unsignedRange))

/-! ## The characters of the encoding -/

/-- The alphabet and the padding. -/
def base64Alphabet : Bytes := base64Chars ++ [61]

theorem base64Char_mem {index : UInt8} (small : index.toNat < 64) :
    base64Char index ∈ base64Alphabet := by
  have inside : index.toNat < base64Chars.length := small
  rw [base64Char, List.getD_eq_getElem?_getD, List.getElem?_eq_getElem inside, Option.getD_some]
  exact List.mem_append_left _ (List.getElem_mem inside)

theorem toNat_mask_le (byte mask : UInt8) : (byte &&& mask).toNat ≤ mask.toNat := by
  rw [UInt8.toNat_and]
  exact Nat.and_le_right

/-- The upper six bits of a byte. -/
theorem toNat_upper_lt (a : UInt8) : ((a &&& 0xfc) >>> 2).toNat < 64 := by
  have masked : (a &&& 0xfc).toNat ≤ 252 := toNat_mask_le a 0xfc
  have shift : (2 : UInt8).toNat % 8 = 2 := rfl
  rw [UInt8.toNat_shiftRight, shift, Nat.shiftRight_eq_div_pow]
  omega

/-- Six bits of two bytes. -/
theorem toNat_joined_lt {high low : UInt8} (fits : high.toNat + low.toNat < 64) :
    (high + low).toNat < 64 := by
  rw [UInt8.toNat_add]
  omega

theorem toNat_shiftLeft_le {byte mask shift : UInt8} {count : Nat}
    (counted : shift.toNat % 8 = count) :
    ((byte &&& mask) <<< shift).toNat ≤ mask.toNat <<< count := by
  have masked := toNat_mask_le byte mask
  rw [UInt8.toNat_shiftLeft, counted, Nat.shiftLeft_eq, Nat.shiftLeft_eq]
  exact (Nat.mod_le _ _).trans (Nat.mul_le_mul_right _ masked)

theorem toNat_shiftRight_le {byte mask shift : UInt8} {count : Nat}
    (counted : shift.toNat % 8 = count) :
    ((byte &&& mask) >>> shift).toNat ≤ mask.toNat >>> count := by
  have masked := toNat_mask_le byte mask
  rw [UInt8.toNat_shiftRight, counted, Nat.shiftRight_eq_div_pow, Nat.shiftRight_eq_div_pow]
  exact Nat.div_le_div_right masked

theorem mem_base64EncodeBytes (bytes : Bytes) :
    ∀ char ∈ base64EncodeBytes bytes, char ∈ base64Alphabet := by
  have padding : (61 : UInt8) ∈ base64Alphabet :=
    List.mem_append_right _ (List.mem_singleton_self _)
  have upper (a : UInt8) := base64Char_mem (toNat_upper_lt a)
  have first (a b : UInt8) : base64Char (((a &&& 0x03) <<< 4) + ((b &&& 0xf0) >>> 4)) ∈
      base64Alphabet := by
    have high : ((a &&& 0x03) <<< 4).toNat ≤ 48 := toNat_shiftLeft_le rfl
    have low : ((b &&& 0xf0) >>> 4).toNat ≤ 15 := toNat_shiftRight_le rfl
    exact base64Char_mem (toNat_joined_lt (by omega))
  have second (b c : UInt8) : base64Char (((b &&& 0x0f) <<< 2) + ((c &&& 0xc0) >>> 6)) ∈
      base64Alphabet := by
    have high : ((b &&& 0x0f) <<< 2).toNat ≤ 60 := toNat_shiftLeft_le rfl
    have low : ((c &&& 0xc0) >>> 6).toNat ≤ 3 := toNat_shiftRight_le rfl
    exact base64Char_mem (toNat_joined_lt (by omega))
  have last (c : UInt8) : base64Char (c &&& 0x3f) ∈ base64Alphabet :=
    base64Char_mem (Nat.lt_succ_of_le (toNat_mask_le c 0x3f))
  have short (a : UInt8) : base64Char ((a &&& 0x03) <<< 4) ∈ base64Alphabet := by
    have high : ((a &&& 0x03) <<< 4).toNat ≤ 48 := toNat_shiftLeft_le rfl
    exact base64Char_mem (by omega)
  have middle (b : UInt8) : base64Char ((b &&& 0x0f) <<< 2) ∈ base64Alphabet := by
    have high : ((b &&& 0x0f) <<< 2).toNat ≤ 60 := toNat_shiftLeft_le rfl
    exact base64Char_mem (by omega)
  induction bytes using base64EncodeBytes.induct with
  | case1 a b c rest ih =>
      simp only [base64EncodeBytes, List.forall_mem_cons]
      exact ⟨upper a, first a b, second b c, last c, ih⟩
  | case2 a b =>
      simp only [base64EncodeBytes, List.forall_mem_cons]
      exact ⟨upper a, first a b, middle b, padding, by simp⟩
  | case3 a =>
      simp only [base64EncodeBytes, List.forall_mem_cons]
      exact ⟨upper a, short a, padding, padding, by simp⟩
  | case4 => simp [base64EncodeBytes]

/-- The encoding is made of printable ASCII characters without a quote or a backslash. -/
theorem mem_base64Encode (bytes : Bytes) : ∀ char ∈ base64Encode bytes, char ∈ base64Alphabet :=
  mem_base64EncodeBytes _

end DMProxy.Text
