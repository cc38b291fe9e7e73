/-
Base32 as in RFC 4648, lowercase and without padding characters.

The bytes are one number, the last byte the lowest; zero bits make its length a multiple of
five; its digits to the base 32, the highest first, are the text. How many digits there are
depends on the number of bytes only.

`Codec` is what others may rely on without knowing the two functions; `lowercase` is one.
-/
import Mathlib.Data.Nat.Digits.Lemmas

set_option autoImplicit false

namespace Base32

/-- The alphabet of RFC 4648 in lower case. -/
def alphabet : List Char := "abcdefghijklmnopqrstuvwxyz234567".toList

theorem alphabet_eq : alphabet =
    ['a', 'b', 'c', 'd', 'e', 'f', 'g', 'h', 'i', 'j', 'k', 'l', 'm', 'n', 'o', 'p', 'q', 'r', 's', 't',
     'u', 'v', 'w', 'x', 'y', 'z', '2', '3', '4', '5', '6', '7'] := by
  rfl

/-- The number of digits for so many bytes. -/
def width (bytes : ℕ) : ℕ := (8 * bytes + 4) / 5

/-- The bytes as one number, the first byte the highest. -/
def to_number (bytes : List UInt8) : ℕ := Nat.ofDigits 256 (bytes.map UInt8.toNat).reverse

/-- The digits of the number, the lowest first, behind the zero bits that fill the last one. -/
def to_digits (bytes : List UInt8) : List ℕ :=
  Nat.digitsAppend 32 (width bytes.length)
    (to_number bytes * 2 ^ (5 * width bytes.length - 8 * bytes.length))

/-- The text without padding, the highest digit first. -/
def encode (bytes : List UInt8) : String :=
  String.ofList ((to_digits bytes).reverse.map fun digit => alphabet.getD digit 'a')

/-- The value of a character of the alphabet. A capital letter has none. -/
def digit (c : Char) : Option ℕ := alphabet.idxOf? c

/-- The bytes that the digits fill, the first digit the highest; what they do not fill is cut off. -/
def to_bytes (digits : List ℕ) : List UInt8 :=
  let count := 5 * digits.length / 8
  let cut := 5 * digits.length - 8 * count
  (Nat.digitsAppend 256 count (Nat.ofDigits 32 digits.reverse / 2 ^ cut)).reverse.map UInt8.ofNat

/-- The bytes of a text whose characters are all of the alphabet. -/
def decode (text : String) : Option (List UInt8) := (text.toList.mapM digit).map to_bytes

/-- So many bytes have so many bits. -/
theorem to_number_lt (bytes : List UInt8) : to_number bytes < 2 ^ (8 * bytes.length) := by
  have hlt : to_number bytes < 256 ^ (bytes.map UInt8.toNat).reverse.length := by
    apply Nat.ofDigits_lt_base_pow_length (by omega)
    intro n hn
    obtain ⟨b, -, rfl⟩ := List.mem_map.mp (List.mem_reverse.mp hn)
    exact b.toNat_lt
  rw [List.length_reverse, List.length_map] at hlt
  rw [pow_mul]
  exact hlt

/-- The bits of the digits are those of the bytes and some that fill the last digit. -/
theorem bits_width (bytes : ℕ) : 5 * width bytes = 8 * bytes + (5 * width bytes - 8 * bytes) := by
  rw [width]
  omega

/-- The number fits the digits, with the zero bits behind it. -/
theorem to_number_mul_lt (bytes : List UInt8) :
    to_number bytes * 2 ^ (5 * width bytes.length - 8 * bytes.length) < 32 ^ width bytes.length := by
  have hpow : 32 ^ width bytes.length
      = 2 ^ (8 * bytes.length) * 2 ^ (5 * width bytes.length - 8 * bytes.length) := by
    calc 32 ^ width bytes.length = (2 ^ 5) ^ width bytes.length := by norm_num
      _ = 2 ^ (5 * width bytes.length) := (pow_mul 2 5 _).symm
      _ = _ := by rw [← pow_add, ← bits_width]
  rw [hpow]
  exact Nat.mul_lt_mul_of_pos_right (to_number_lt bytes) (by positivity)

/-- One digit for every five bits begun. -/
theorem length_to_digits (bytes : List UInt8) : (to_digits bytes).length = width bytes.length := by
  exact Nat.length_digitsAppend (by omega) _ (to_number_mul_lt bytes)

theorem length_encode (bytes : List UInt8) : (encode bytes).length = width bytes.length := by
  rw [encode, String.length_ofList, List.length_map, List.length_reverse, length_to_digits]

/-! ## Decoding -/

/-- A character of the alphabet is read as its place. -/
theorem digit_alphabet {d : ℕ} (h : d < 32) : digit (alphabet.getD d 'a') = some d := by
  rw [digit, alphabet_eq]
  revert d
  decide

theorem to_digits_lt (bytes : List UInt8) : ∀ d ∈ to_digits bytes, d < 32 :=
  fun d hd => Nat.lt_of_mem_digitsAppend (by omega) _ d hd

/-- The digits can be read back from their characters. -/
theorem mapM_digit (digits : List ℕ) (h : ∀ d ∈ digits, d < 32) :
    (digits.map fun digit => alphabet.getD digit 'a').mapM digit = some digits := by
  induction digits with
  | nil => rfl
  | cons d digits ih =>
      have hd := digit_alphabet (h d List.mem_cons_self)
      have hrest := ih fun e he => h e (List.mem_cons_of_mem d he)
      rw [List.map_cons, List.mapM_cons, hd, hrest]
      rfl

/-- The digits fill the bytes that they were made of. -/
theorem to_bytes_to_digits (bytes : List UInt8) : to_bytes (to_digits bytes).reverse = bytes := by
  have hcount : 5 * width bytes.length / 8 = bytes.length := by
    rw [width]
    omega
  have hbytes : ∀ n ∈ (bytes.map UInt8.toNat).reverse, n < 256 := by
    intro n hn
    obtain ⟨b, -, rfl⟩ := List.mem_map.mp (List.mem_reverse.mp hn)
    exact b.toNat_lt
  have hnumber : Nat.ofDigits 32 (to_digits bytes)
      = to_number bytes * 2 ^ (5 * width bytes.length - 8 * bytes.length) :=
    (Nat.setInvOn_digitsAppend_ofDigits (by omega) _).2 (to_number_mul_lt bytes)
  have hdigits : Nat.digitsAppend 256 bytes.length (to_number bytes) = (bytes.map UInt8.toNat).reverse := by
    apply (Nat.setInvOn_digitsAppend_ofDigits (by omega) _).1
    refine ⟨?_, hbytes⟩
    rw [List.length_reverse, List.length_map]
  have hself : (UInt8.ofNat ∘ UInt8.toNat) = id := by
    funext b
    exact UInt8.ofNat_toNat
  simp only [to_bytes, List.reverse_reverse, List.length_reverse, length_to_digits, hcount, hnumber]
  rw [Nat.mul_div_cancel _ (by positivity), hdigits, List.reverse_reverse, List.map_map, hself,
    List.map_id]

/-- **What is encoded decodes to itself.** -/
theorem decode_encode (bytes : List UInt8) : decode (encode bytes) = some bytes := by
  have hdigits := mapM_digit (to_digits bytes).reverse
    fun d hd => to_digits_lt bytes d (List.mem_reverse.mp hd)
  rw [decode, encode, String.toList_ofList, hdigits, Option.map_some, to_bytes_to_digits]

example : decode "mfra" = some [97, 98] ∧ decode "MFRA" = none := by decide

/-- The characters of a text are those of the alphabet. -/
theorem mem_alphabet_of_mem_encode {bytes : List UInt8} {c : Char} (h : c ∈ (encode bytes).toList) :
    c ∈ alphabet := by
  rw [encode, String.toList_ofList] at h
  obtain ⟨d, hd, rfl⟩ := List.mem_map.mp h
  have hlt : d < alphabet.length := to_digits_lt bytes d (List.mem_reverse.mp hd)
  rw [List.getD_eq_getElem?_getD, List.getElem?_eq_getElem hlt]
  exact List.getElem_mem hlt

/-- The digit of a character is its place in the alphabet. -/
theorem digit_eq_some {c : Char} {d : ℕ} (h : digit c = some d) :
    d < 32 ∧ alphabet.getD d 'a' = c ∧ c ∈ alphabet := by
  obtain ⟨hd, hletter, -⟩ := List.findIdx?_eq_some_iff_getElem.mp h
  have heq : alphabet[d] = c := eq_of_beq hletter
  refine ⟨hd, ?_, ?_⟩
  · rw [List.getD_eq_getElem?_getD, List.getElem?_eq_getElem hd, Option.getD_some, heq]
  · rw [← heq]
    exact List.getElem_mem hd

/-! ## Codecs -/

/-- An encoder and a decoder for the texts of this alphabet, as far as they are promised to fit
each other. What the decoder makes of any other text is its own affair. -/
structure Codec where
  encode : List UInt8 → String
  decode : String → Option (List UInt8)
  decode_encode : ∀ bytes, decode (encode bytes) = some bytes
  mem_alphabet : ∀ bytes, ∀ c ∈ (encode bytes).toList, c ∈ alphabet
  length_encode : ∀ bytes, (encode bytes).length = width bytes.length

/-- A text is as long as its bytes make it, so it is not empty. -/
theorem Codec.encode_ne_empty (codec : Codec) {bytes : List UInt8} (h : bytes ≠ []) :
    codec.encode bytes ≠ "" := by
  intro hempty
  have hlength := codec.length_encode bytes
  have hpos := List.length_pos_iff.mpr h
  rw [hempty, String.length_empty, width] at hlength
  omega

/-- The codec whose decoder takes nothing but the lowercase alphabet. -/
def lowercase : Codec where
  encode := encode
  decode := decode
  decode_encode := decode_encode
  mem_alphabet _ _ h := mem_alphabet_of_mem_encode h
  length_encode := length_encode

end Base32
