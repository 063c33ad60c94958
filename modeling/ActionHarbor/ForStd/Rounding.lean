import Mathlib.Algebra.Ring.Nat

/-!
# Rounding to a number of significant bits

A natural number rounded to the nearest one with at most `p` significant bits, ties to
even, as the sum of two integers is in a binary floating-point format with enough range.

## Key results

- `Nat.roundBits_of_lt`: a number of `p` bits stays as it is
- `Nat.le_roundBits`: a longer one stays longer
-/

namespace Nat

/-- `n / d`, rounded to the nearest number, ties to even. -/
def divHalfEven (n d : ℕ) : ℕ :=
  if 2 * (n % d) < d ∨ 2 * (n % d) = d ∧ n / d % 2 = 0 then n / d else n / d + 1

/-- The nearest number with at most `p` significant bits. -/
def roundBits (p n : ℕ) : ℕ :=
  let ulp := 2 ^ (n.log2 + 1 - p)
  divHalfEven n ulp * ulp

/-- The quotient is not rounded below itself. -/
theorem div_le_divHalfEven (n d : ℕ) : n / d ≤ divHalfEven n d := by
  unfold divHalfEven
  split <;> omega

/-- A number of `p` bits stays as it is. -/
theorem roundBits_of_lt {p n : ℕ} (hp : 0 < p) (h : n < 2 ^ p) : roundBits p n = n := by
  have hlog : n.log2 + 1 - p = 0 := by
    by_cases hn : n = 0
    · subst hn
      simp only [Nat.log2_zero]
      omega
    · have := (Nat.log2_lt hn).mpr h
      omega
  simp [roundBits, hlog, divHalfEven, Nat.mod_one]

/-- A longer one stays longer. -/
theorem le_roundBits {p n : ℕ} (hp : 0 < p) (h : 2 ^ p ≤ n) : 2 ^ p ≤ roundBits p n := by
  have hn : n ≠ 0 := Nat.ne_of_gt (Nat.lt_of_lt_of_le (Nat.two_pow_pos p) h)
  have hlog : p ≤ n.log2 := (Nat.le_log2 hn).mpr h
  -- the leading power of two is a multiple of the last place
  have hsplit : 2 ^ n.log2 = 2 ^ (p - 1) * 2 ^ (n.log2 + 1 - p) := by
    rw [← Nat.pow_add]
    congr 1
    omega
  have hquotient : 2 ^ (p - 1) ≤ n / 2 ^ (n.log2 + 1 - p) := by
    rw [Nat.le_div_iff_mul_le (Nat.two_pow_pos _), ← hsplit]
    exact Nat.log2_self_le hn
  calc 2 ^ p ≤ 2 ^ n.log2 := Nat.pow_le_pow_right Nat.two_pos hlog
    _ = 2 ^ (p - 1) * 2 ^ (n.log2 + 1 - p) := hsplit
    _ ≤ roundBits p n := Nat.mul_le_mul_right _ (Nat.le_trans hquotient (div_le_divHalfEven _ _))

end Nat
