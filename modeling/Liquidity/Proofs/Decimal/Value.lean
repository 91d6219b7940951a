import Mathlib.Data.Int.Log
import Mathlib.Data.Rat.Floor
import Liquidity.Decimal.Order
import Liquidity.Proofs.Numeric.Quotient

/-! Decimals as rational numbers. Comparing them compares these, although it looks at the
leading digits first and brings coefficients to one exponent only where those agree. -/

namespace Liquidity.Decimal
set_option autoImplicit false

/-- The absolute value. -/
def size (d : Decimal) : ℚ := d.coefficient * 10 ^ d.exponent

/-- The number that a decimal stands for. -/
def toRat (d : Decimal) : ℚ := if d.negative then -d.size else d.size

variable {a b d : Decimal} {e k : Int} {m n : Nat}

section Size

theorem ten_pow_pos (k : Int) : (0 : ℚ) < 10 ^ k := zpow_pos (by norm_num) k

theorem ten_pow_lt (h : e < k) : (10 : ℚ) ^ e < 10 ^ k := zpow_lt_zpow_right₀ (by norm_num) h

theorem ten_pow_le (h : e ≤ k) : (10 : ℚ) ^ e ≤ 10 ^ k := zpow_le_zpow_right₀ (by norm_num) h

theorem ten_pow_add (e k : Int) : (10 : ℚ) ^ (e + k) = 10 ^ e * 10 ^ k :=
  zpow_add₀ (by norm_num) e k

theorem ten_pow_toNat (h : 0 ≤ k) : ((10 ^ k.toNat : Nat) : ℚ) = 10 ^ k := by
  obtain ⟨n, rfl⟩ := Int.eq_ofNat_of_zero_le h
  simp

theorem size_nonneg (d : Decimal) : 0 ≤ d.size :=
  mul_nonneg (Nat.cast_nonneg _) (ten_pow_pos _).le

theorem size_eq_zero : d.size = 0 ↔ d.coefficient = 0 := by
  unfold size
  simp [(ten_pow_pos d.exponent).ne']

theorem size_pos : 0 < d.size ↔ d.coefficient ≠ 0 := by
  rw [lt_iff_le_and_ne, and_iff_right d.size_nonneg, ne_comm, ne_eq, size_eq_zero]

@[simp] theorem size_ofInt (n : Int) : (ofInt n).size = n.natAbs := by simp [size, ofInt]

@[simp] theorem toRat_zero : zero.toRat = 0 := by simp [toRat, size, zero, ofInt]

@[simp] theorem toRat_one : one.toRat = 1 := by simp [toRat, size, one, ofInt]

/-- The same number with a coefficient for a smaller exponent. -/
theorem size_eq_coefficientAt (h : e ≤ d.exponent) : d.size = d.coefficientAt e * 10 ^ e := by
  unfold coefficientAt
  split
  · rename_i hzero
    simp [size, hzero]
  · have hexponent : d.exponent = (d.exponent - e) + e := by omega
    rw [size, hexponent, ten_pow_add, ← ten_pow_toNat (by omega), ← mul_assoc, ← Nat.cast_mul,
      Int.sub_add_cancel]
    rfl

/-- The place of a leading digit is known from the powers of ten around the number. -/
theorem log_eq {q : ℚ} (hlow : 10 ^ k ≤ q) (hup : q < 10 ^ (k + 1)) : Int.log 10 q = k := by
  have hpos : 0 < q := (ten_pow_pos k).trans_le hlow
  have hle := (Int.zpow_le_iff_le_log (b := 10) (by decide) hpos).mp (by exact_mod_cast hlow)
  have hlt := (Int.lt_zpow_iff_log_lt (b := 10) (by decide) hpos).mp (by exact_mod_cast hup)
  omega

theorem adjusted_add_one (d : Decimal) :
    d.adjusted + 1 = (numDigits d.coefficient : Int) + d.exponent := by
  unfold adjusted
  omega

theorem size_lt (d : Decimal) : d.size < 10 ^ (d.adjusted + 1) := by
  rw [adjusted_add_one, ten_pow_add, zpow_natCast]
  refine mul_lt_mul_of_pos_right ?_ (ten_pow_pos _)
  exact_mod_cast lt_pow_numDigits d.coefficient

theorem log_size (h : d.coefficient ≠ 0) : Int.log 10 d.size = d.adjusted := by
  have hlow : (10 : ℚ) ^ (numDigits d.coefficient : Int) ≤ d.coefficient * 10 := by
    rw [zpow_natCast, mul_comm]
    exact_mod_cast pow_numDigits_le h
  refine log_eq (le_of_mul_le_mul_right ?_ (show (0 : ℚ) < 10 by norm_num)) d.size_lt
  calc (10 : ℚ) ^ d.adjusted * 10 = 10 ^ (numDigits d.coefficient : Int) * 10 ^ d.exponent := by
        rw [← zpow_add_one₀ (by norm_num), adjusted_add_one, ten_pow_add]
    _ ≤ d.coefficient * 10 * 10 ^ d.exponent := mul_le_mul_of_nonneg_right hlow (ten_pow_pos _).le
    _ = d.size * 10 := by rw [size, mul_right_comm]

theorem size_lt_of_adjusted_lt (ha : a.coefficient ≠ 0) (hb : b.coefficient ≠ 0)
    (h : a.adjusted < b.adjusted) : a.size < b.size := by
  by_contra hle
  have hlog := Int.log_mono_right (b := 10) (size_pos.mpr hb) (not_lt.mp hle)
  rw [log_size ha, log_size hb] at hlog
  omega

end Size

section Order

/-- Two pairs of numbers in the same order. -/
theorem compare_congr {α β : Type} [LinearOrder α] [LinearOrder β] {x y : α} {u v : β}
    (hlt : x < y ↔ u < v) (hgt : y < x ↔ v < u) : compare x y = compare u v := by
  rcases lt_trichotomy x y with h | h | h
  · rw [compare_lt_iff_lt.mpr h, compare_lt_iff_lt.mpr (hlt.mp h)]
  · have heq : u = v :=
      le_antisymm (not_lt.mp (hgt.not.mp h.not_gt)) (not_lt.mp (hlt.not.mp h.not_lt))
    rw [compare_eq_iff_eq.mpr h, compare_eq_iff_eq.mpr heq]
  · rw [compare_gt_iff_gt.mpr h, compare_gt_iff_gt.mpr (hgt.mp h)]

theorem compare_size_of_adjusted (ha : a.coefficient ≠ 0) (hb : b.coefficient ≠ 0) :
    (match compare a.adjusted b.adjusted with
      | .eq => compare (a.coefficientAt (min a.exponent b.exponent))
          (b.coefficientAt (min a.exponent b.exponent))
      | o => o) = compare a.size b.size := by
  rcases lt_trichotomy a.adjusted b.adjusted with h | h | h
  · rw [compare_lt_iff_lt.mpr h, compare_lt_iff_lt.mpr (size_lt_of_adjusted_lt ha hb h)]
  · rw [compare_eq_iff_eq.mpr h, size_eq_coefficientAt (min_le_left a.exponent b.exponent),
      size_eq_coefficientAt (min_le_right a.exponent b.exponent)]
    have hpos := ten_pow_pos (min a.exponent b.exponent)
    apply compare_congr <;> rw [mul_lt_mul_iff_left₀ hpos, Nat.cast_lt]
  · rw [compare_gt_iff_gt.mpr h, compare_gt_iff_gt.mpr (size_lt_of_adjusted_lt hb ha h)]

theorem compareMagnitude_eq (a b : Decimal) : compareMagnitude a b = compare a.size b.size := by
  unfold compareMagnitude
  split
  · rename_i hzero
    apply compare_congr <;> rcases hzero with h | h <;> rw [h, size_eq_zero.mpr h] <;>
      simp [size_pos, Nat.pos_iff_ne_zero, a.size_nonneg, b.size_nonneg]
  · rename_i hsome
    rw [not_or] at hsome
    exact compare_size_of_adjusted hsome.1 hsome.2

theorem signum_cases (d : Decimal) : (d.signum = 0 ∧ d.size = 0 ∧ d.toRat = 0) ∨
    (d.signum = 1 ∧ 0 < d.size ∧ d.toRat = d.size) ∨
    (d.signum = -1 ∧ 0 < d.size ∧ d.toRat = -d.size) := by
  unfold signum toRat
  by_cases hc : d.coefficient = 0
  · simp [hc, size_eq_zero.mpr hc]
  · have hpos := size_pos.mpr hc
    cases d.negative <;> simp [hc, hpos]

theorem toRat_pos_iff : 0 < d.toRat ↔ d.negative = false ∧ 0 < d.size := by
  have hsize := d.size_nonneg
  unfold toRat
  cases d.negative <;> simp [hsize]

theorem toRat_lt_of_signum_lt (h : a.signum < b.signum) : a.toRat < b.toRat := by
  have ha := a.signum_cases
  have hb := b.signum_cases
  grind

theorem cmp_eq (a b : Decimal) : a.cmp b = compare a.toRat b.toRat := by
  unfold cmp
  rcases lt_trichotomy a.signum b.signum with h | h | h
  · rw [compare_lt_iff_lt.mpr h, compare_lt_iff_lt.mpr (toRat_lt_of_signum_lt h)]
  · have ha := a.signum_cases
    have hb := b.signum_cases
    rw [compare_eq_iff_eq.mpr h, compareMagnitude_eq, compareMagnitude_eq]
    dsimp only
    split <;> apply compare_congr <;> grind
  · rw [compare_gt_iff_gt.mpr h, compare_gt_iff_gt.mpr (toRat_lt_of_signum_lt h)]

theorem lt_iff : a < b ↔ a.toRat < b.toRat := by
  change a.cmp b = .lt ↔ _
  rw [cmp_eq, compare_lt_iff_lt]

theorem le_iff : a ≤ b ↔ a.toRat ≤ b.toRat := by
  change a.cmp b ≠ .gt ↔ _
  rw [cmp_eq, compare_le_iff_le]

end Order

end Liquidity.Decimal
