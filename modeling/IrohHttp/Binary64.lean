/-
Rounding a natural number to a binary floating-point format: to `p` significant
digits, to the nearest such number, and to the one with an even significand where
two are equally near. `p = 53` is binary64. There is no largest exponent here, so
the result is that of the format for every number the format does not overflow on.
-/
import Mathlib.Algebra.Group.Nat.Defs

set_option autoImplicit false

namespace Binary64

/-- The significant digits of binary64. -/
def PRECISION : ℕ := 53

/-- The digits of `n` beyond the first `p`. -/
def excess (p n : ℕ) : ℕ := n.log2 + 1 - p

/-- `n / 2 ^ e`, to the nearest integer, and to the even one of two. -/
def round_shift (n e : ℕ) : ℕ :=
  let q := n / 2 ^ e
  let r := n % 2 ^ e
  if 2 * r < 2 ^ e ∨ (2 * r = 2 ^ e ∧ q % 2 = 0) then q else q + 1

/-- The number of the format with `p` digits that is nearest to `n`. -/
def round (p n : ℕ) : ℕ := round_shift n (excess p n) * 2 ^ excess p n

section Rounding

variable {p n : ℕ}

theorem excess_of_lt (hp : 0 < p) (h : n < 2 ^ p) : excess p n = 0 := by
  unfold excess
  by_cases hn : n = 0
  · rw [hn, Nat.log2_zero]
    omega
  · have hlog := (Nat.log2_lt hn).mpr h
    omega

/-- A number of at most `p` digits is its own rounding. -/
theorem round_of_lt (hp : 0 < p) (h : n < 2 ^ p) : round p n = n := by
  have hexact : round_shift n 0 = n := by
    unfold round_shift
    rw [Nat.pow_zero, Nat.mod_one, Nat.div_one]
    exact if_pos (.inl Nat.zero_lt_one)
  rw [round, excess_of_lt hp h, hexact, Nat.pow_zero, Nat.mul_one]

/-- Rounding does not go below the first number that has more digits. -/
theorem le_round (hp : 0 < p) (h : 2 ^ p ≤ n) : 2 ^ p ≤ round p n := by
  have hn : n ≠ 0 := by
    rintro rfl
    exact absurd h (Nat.not_le.mpr (Nat.two_pow_pos p))
  have hlog : p ≤ n.log2 := (Nat.le_log2 hn).mpr h
  have hexcess : excess p n = n.log2 + 1 - p := rfl
  have hquot : n / 2 ^ excess p n ≤ round_shift n (excess p n) := by
    unfold round_shift
    dsimp only
    split
    · exact Nat.le_refl _
    · exact Nat.le_succ _
  -- what is left of `n` after the shift still has its leading digit
  have hlead : 2 ^ (p - 1) ≤ n / 2 ^ excess p n := by
    rw [Nat.le_div_iff_mul_le (Nat.two_pow_pos _), ← Nat.pow_add]
    have hsum : p - 1 + excess p n = n.log2 := by omega
    rw [hsum]
    exact Nat.log2_self_le hn
  calc 2 ^ p ≤ 2 ^ (p - 1) * 2 ^ excess p n := by
        rw [← Nat.pow_add]
        exact Nat.pow_le_pow_right (by decide) (by omega)
    _ ≤ round p n := Nat.mul_le_mul_right _ (Nat.le_trans hlead hquot)

end Rounding

end Binary64
