/-
A bit buffer in a machine word: groups of bits are put in at the low end, and groups of another
size taken out at the high end.

What has been taken is never cleared from the word, and what has been shifted out of it is lost.
Neither shows: the bits of the next group are always within the word.
-/
import Mathlib.Data.Nat.Digits.Lemmas

set_option autoImplicit false

/-- A word, of which the low `bits` have not been taken yet. -/
structure BitBuffer (w : ℕ) where
  buf : BitVec w
  bits : ℕ
  deriving DecidableEq, Repr

namespace BitBuffer

variable {w : ℕ}

/-- Nothing in the buffer. -/
def empty : BitBuffer w := ⟨0, 0⟩

/-- `buf = (buf << k) | v; bits += k` -/
def put (k v : ℕ) (s : BitBuffer w) : BitBuffer w :=
  ⟨s.buf <<< k ||| BitVec.ofNat w v, s.bits + k⟩

/-- `bits -= m` -/
def drop (m : ℕ) (s : BitBuffer w) : BitBuffer w := ⟨s.buf, s.bits - m⟩

/-- `(buf >> bits) & mask`, with a mask of `m` bits. The shift is the one of signed words. -/
def top (m : ℕ) (s : BitBuffer w) : ℕ :=
  (s.buf.sshiftRight s.bits &&& BitVec.ofNat w (2 ^ m - 1)).toNat

/-- `(buf << k) & mask`, with a mask of `m` bits. -/
def last (m k : ℕ) (s : BitBuffer w) : ℕ :=
  (s.buf <<< k &&& BitVec.ofNat w (2 ^ m - 1)).toNat

/-! ## The operations as arithmetic -/

/-- Putting bits in shifts the number that the buffer holds. -/
theorem toNat_put {k v : ℕ} (h : v < 2 ^ k) (s : BitBuffer w) :
    (s.put k v).buf.toNat = (s.buf.toNat * 2 ^ k + v) % 2 ^ w := by
  have hmul : s.buf.toNat * 2 ^ k + v = s.buf.toNat <<< k ||| v := by
    rw [← Nat.shiftLeft_add_eq_or_of_lt h, Nat.shiftLeft_eq]
  rw [put, BitVec.toNat_or, BitVec.toNat_shiftLeft, BitVec.toNat_ofNat, hmul, Nat.or_mod_two_pow]

theorem mod_mod_two_pow (n : ℕ) {m : ℕ} (h : m ≤ w) : n % 2 ^ w % 2 ^ m = n % 2 ^ m :=
  Nat.mod_mod_of_dvd n (Nat.pow_dvd_pow 2 h)

theorem toNat_mask {m : ℕ} (h : m ≤ w) : (BitVec.ofNat w (2 ^ m - 1)).toNat = 2 ^ m - 1 := by
  have hle : 2 ^ m ≤ 2 ^ w := Nat.pow_le_pow_right (by omega) h
  have hpos : 0 < 2 ^ m := by positivity
  rw [BitVec.toNat_ofNat]
  exact Nat.mod_eq_of_lt (by omega)

/-- The sign does not reach the bits that are read. -/
theorem top_eq {m : ℕ} {s : BitBuffer w} (h : s.bits + m ≤ w) :
    s.top m = s.buf.toNat / 2 ^ s.bits % 2 ^ m := by
  rw [top, BitVec.toNat_and, toNat_mask (by omega), Nat.and_two_pow_sub_one_eq_mod]
  apply Nat.eq_of_testBit_eq
  intro i
  rw [Nat.testBit_mod_two_pow, Nat.testBit_mod_two_pow, BitVec.testBit_toNat, Nat.testBit_div_two_pow]
  by_cases hi : i < m
  · have hw : ¬ w ≤ i := by omega
    have hread : s.bits + i < w := by omega
    rw [BitVec.getLsbD_sshiftRight]
    simp only [hw, hread, decide_false, Bool.not_false, Bool.true_and, if_true, Nat.add_comm i]
    rfl
  · simp [hi]

/-- The last digit of a buffer, shifted up, is a remainder. -/
theorem last_eq {m k : ℕ} {s : BitBuffer w} (h : m ≤ w) :
    s.last m k = s.buf.toNat * 2 ^ k % 2 ^ m := by
  rw [last, BitVec.toNat_and, toNat_mask h, Nat.and_two_pow_sub_one_eq_mod, BitVec.toNat_shiftLeft,
    Nat.shiftLeft_eq, mod_mod_two_pow _ h]

theorem last_lt {m : ℕ} (k : ℕ) {s : BitBuffer w} (h : m ≤ w) : s.last m k < 2 ^ m := by
  rw [last_eq h]
  exact Nat.mod_lt _ (by positivity)

/-! ## What a buffer holds -/

/-- The number that digits of `m` bits write, the first digit the highest. -/
def number (m : ℕ) (digits : List ℕ) : ℕ := Nat.ofDigits (2 ^ m) digits.reverse

/-- A digit behind the others counts once. -/
theorem number_append (m : ℕ) (digits : List ℕ) (d : ℕ) :
    number m (digits ++ [d]) = number m digits * 2 ^ m + d := by
  rw [number, number, List.reverse_append, List.reverse_singleton, List.singleton_append,
    Nat.ofDigits_cons]
  ring

/-- Digits are told by their number and how many they are. -/
theorem eq_digits_number {m : ℕ} {digits : List ℕ} (hm : 0 < m) (h : ∀ d ∈ digits, d < 2 ^ m) :
    digits = (Nat.digitsAppend (2 ^ m) digits.length (number m digits)).reverse := by
  have hself : Nat.digitsAppend (2 ^ m) digits.length (number m digits) = digits.reverse := by
    apply (Nat.setInvOn_digitsAppend_ofDigits (Nat.one_lt_two_pow (by omega)) digits.length).1
    exact ⟨List.length_reverse, fun d hd => h d (List.mem_reverse.mp hd)⟩
  rw [hself, List.reverse_reverse]

/-- The number `n` of `total` bits has been put in, and its high bits are taken as digits. -/
structure Holds (m : ℕ) (digits : List ℕ) (n total : ℕ) (s : BitBuffer w) : Prop where
  buf : s.buf.toNat = n % 2 ^ w
  taken : number m digits = n / 2 ^ s.bits
  small : ∀ d ∈ digits, d < 2 ^ m
  total : m * digits.length + s.bits = total

/-- An empty buffer holds no digits. -/
theorem holds_empty (m : ℕ) : Holds m [] 0 0 (empty : BitBuffer w) where
  buf := by
    rw [Nat.zero_mod]
    exact BitVec.toNat_zero
  taken := by rw [number, Nat.zero_div, List.reverse_nil, Nat.ofDigits_nil]
  small _ h := absurd h List.not_mem_nil
  total := rfl

variable {m n total : ℕ} {digits : List ℕ} {s : BitBuffer w}

/-- **Bits that go in** are the low ones of the number that the buffer holds. -/
theorem Holds.put {k v : ℕ} (h : s.Holds m digits n total) (hv : v < 2 ^ k) :
    (s.put k v).Holds m digits (n * 2 ^ k + v) (total + k) where
  buf := by
    rw [toNat_put hv, h.buf, Nat.add_mod, Nat.mul_mod, Nat.mod_mod, ← Nat.mul_mod, ← Nat.add_mod]
  taken := by
    have hbits : (s.put k v).bits = k + s.bits := Nat.add_comm _ _
    have hpos : 0 < 2 ^ k := by positivity
    rw [h.taken, hbits, pow_add, ← Nat.div_div_eq_div_mul, Nat.add_comm, Nat.add_mul_div_right _ _ hpos,
      Nat.div_eq_of_lt hv, Nat.zero_add]
  small := h.small
  total := by
    rw [← h.total]
    exact (Nat.add_assoc _ _ _).symm

/-- The group that is read is the next digit of the number. -/
theorem Holds.take (h : s.Holds m digits n total) (hm : m ≤ s.bits) (hw : s.bits ≤ w) :
    (s.drop m).Holds m (digits ++ [(s.drop m).top m]) n total := by
  have hbits : (s.drop m).bits = s.bits - m := rfl
  have hbuf : (s.drop m).buf = s.buf := rfl
  have hpow : 2 ^ s.bits = 2 ^ (s.bits - m) * 2 ^ m := by rw [← pow_add, Nat.sub_add_cancel hm]
  have htop : (s.drop m).top m = n / 2 ^ (s.bits - m) % 2 ^ m := by
    -- the bits of the number above the word do not come into the group
    rw [top_eq (by omega), hbits, hbuf, h.buf]
    apply Nat.eq_of_testBit_eq
    intro i
    rw [Nat.testBit_mod_two_pow, Nat.testBit_mod_two_pow, Nat.testBit_div_two_pow,
      Nat.testBit_div_two_pow, Nat.testBit_mod_two_pow]
    by_cases hi : i < m
    · have hread : i + (s.bits - m) < w := by omega
      simp only [hi, hread, decide_true, Bool.true_and]
    · simp only [hi, decide_false, Bool.false_and]
  refine ⟨h.buf, ?_, ?_, ?_⟩
  · calc number m (digits ++ [(s.drop m).top m])
        = n / 2 ^ s.bits * 2 ^ m + n / 2 ^ (s.bits - m) % 2 ^ m := by rw [number_append, h.taken, htop]
      _ = n / 2 ^ (s.bits - m) / 2 ^ m * 2 ^ m + n / 2 ^ (s.bits - m) % 2 ^ m := by
          rw [hpow, Nat.div_div_eq_div_mul]
      _ = n / 2 ^ (s.bits - m) := Nat.div_add_mod' _ _
  · intro d hd
    rcases List.mem_append.mp hd with hd | hd
    · exact h.small d hd
    · rw [List.mem_singleton.mp hd, htop]
      exact Nat.mod_lt _ (by positivity)
  · rw [List.length_append, List.length_singleton, hbits, ← h.total, Nat.mul_add]
    omega

/-- The digits are those of the number, where no more can be taken. -/
theorem Holds.digits_eq (h : s.Holds m digits n total) (hbits : s.bits < m) :
    digits = (Nat.digitsAppend (2 ^ m) (total / m) (n / 2 ^ (total % m))).reverse := by
  have hlength : total / m = digits.length ∧ total % m = s.bits := by
    rw [← h.total, Nat.mul_add_div (by omega), Nat.mul_add_mod, Nat.div_eq_of_lt hbits,
      Nat.mod_eq_of_lt hbits]
    exact ⟨rfl, rfl⟩
  rw [hlength.1, hlength.2, ← h.taken]
  exact eq_digits_number (by omega) h.small

/-- The bits that are left, filled up with zero bits to the last digit. -/
theorem Holds.fill (h : s.Holds m digits n total) (hm : s.bits ≤ m) (hw : m ≤ w) :
    number m (digits ++ [s.last m (m - s.bits)]) = n * 2 ^ (m - s.bits) := by
  have hpow : 2 ^ m = 2 ^ s.bits * 2 ^ (m - s.bits) := by rw [← pow_add, Nat.add_sub_cancel' hm]
  have hlast : s.last m (m - s.bits) = n % 2 ^ s.bits * 2 ^ (m - s.bits) := by
    rw [last_eq hw, h.buf, Nat.mul_mod, mod_mod_two_pow n hw, ← Nat.mul_mod, hpow, Nat.mul_mod_mul_right]
  calc number m (digits ++ [s.last m (m - s.bits)])
      = n / 2 ^ s.bits * 2 ^ m + n % 2 ^ s.bits * 2 ^ (m - s.bits) := by
        rw [number_append, h.taken, hlast]
    _ = (n / 2 ^ s.bits * 2 ^ s.bits + n % 2 ^ s.bits) * 2 ^ (m - s.bits) := by
        rw [hpow]
        ring
    _ = n * 2 ^ (m - s.bits) := by rw [Nat.div_add_mod']

end BitBuffer
