import Liquidity.Numeric.Fraction
import Liquidity.Proofs.Decimal.Fitted

/-! Quotients of whole numbers. They are found unless they are too large, and what is found of
them is the exact quotient, rounded. -/

namespace Liquidity.Decimal
set_option autoImplicit false

variable {r : Decimal} {x y : Int} {q : ℚ} {negative : Bool} {n : Nat}

theorem Fitted.found_ok {o : Option Decimal} (h : Fitted negative q o) (hq : q < tooLarge) :
    ∃ r, found o = .ok r ∧ r.negative = negative ∧ Rounds q r.size := by
  cases o with
  | none => exact absurd hq (not_lt.mpr h)
  | some r => exact ⟨r, rfl, h.2⟩

theorem Fitted.found_error {o : Option Decimal} (h : Fitted negative q o) (hq : tooLarge ≤ q) :
    found o = .error .decimalTooLarge := by
  cases o with
  | none => rfl
  | some r => exact absurd hq (not_le.mpr h.1)

/-- A quotient by nothing fails in a way of its own. -/
theorem dividedBy_zero (r : Decimal) :
    ∃ e, r.dividedBy (ofInt 0) = .error e ∧ e.kind ≠ .divideByZero := by
  by_cases hr : r.coefficient = 0
  · exact ⟨.undefinedQuotient, by simp [dividedBy, ofInt, hr], by decide⟩
  · exact ⟨.unboundedQuotient, by simp [dividedBy, ofInt, hr], by decide⟩

theorem dividedBy_ofInt (hy : y ≠ 0) :
    (ofInt x).dividedBy (ofInt y) = found ((ofInt x).div (ofInt y)) := by
  have hne : (ofInt y).coefficient ≠ 0 := Int.natAbs_ne_zero.mpr hy
  rw [dividedBy, if_pos hne]

theorem div_ofInt_fitted (x : Int) (hy : y ≠ 0) :
    Fitted (decide (x < 0) != decide (y < 0)) |(x : ℚ) / y| ((ofInt x).div (ofInt y)) := by
  have hfit := div_fitted (a := ofInt x) (b := ofInt y) (Int.natAbs_ne_zero.mpr hy)
  rwa [size_ofInt, size_ofInt, Nat.cast_natAbs, Nat.cast_natAbs, Int.cast_abs, Int.cast_abs,
    ← abs_div] at hfit

theorem toRat_eq_size (h : r.negative = false) : r.toRat = r.size := by
  rw [toRat, h]
  rfl

/-- The quotient of whole numbers that are not negative. -/
theorem ratio_found (hx : 0 ≤ x) (hy : 0 < y) (hq : (x : ℚ) / y < tooLarge) :
    ∃ r, (ofInt x).dividedBy (ofInt y) = .ok r ∧ Rounds ((x : ℚ) / y) r.toRat := by
  have hpos : (0 : ℚ) ≤ x / y := div_nonneg (by exact_mod_cast hx) (by exact_mod_cast hy.le)
  have hfit := div_ofInt_fitted x hy.ne'
  rw [abs_of_nonneg hpos, decide_eq_false (not_lt.mpr hx),
    decide_eq_false (not_lt.mpr hy.le)] at hfit
  obtain ⟨r, hr, hsign, hround⟩ := hfit.found_ok hq
  rw [← toRat_eq_size hsign] at hround
  exact ⟨r, (dividedBy_ofInt hy.ne').trans hr, hround⟩

theorem ratio_tooLarge (hy : 0 < y) (hq : tooLarge ≤ (x : ℚ) / y) :
    (ofInt x).dividedBy (ofInt y) = .error .decimalTooLarge := by
  rw [dividedBy_ofInt hy.ne']
  exact (div_ofInt_fitted x hy.ne').found_error (hq.trans (le_abs_self _))

theorem pow_le_ratio {gap : Nat} (hx : x ≠ 0) (hy : y ≠ 0)
    (h : numDigits y.natAbs ≤ numDigits x.natAbs + gap) :
    10 ^ (-(gap + 1 : Nat) : Int) ≤ |(x : ℚ) / y| := by
  have hle : y.natAbs ≤ 10 ^ (gap + 1) * x.natAbs := by
    calc y.natAbs ≤ 10 ^ numDigits y.natAbs := (lt_pow_numDigits _).le
      _ ≤ 10 ^ (numDigits x.natAbs + gap) := Nat.pow_le_pow_right (by decide) h
      _ = 10 ^ numDigits x.natAbs * 10 ^ gap := pow_add _ _ _
      _ ≤ 10 * x.natAbs * 10 ^ gap :=
        Nat.mul_le_mul_right _ (pow_numDigits_le (Int.natAbs_ne_zero.mpr hx))
      _ = 10 ^ (gap + 1) * x.natAbs := by ring
  have hcast : |(y : ℚ)| ≤ 10 ^ (gap + 1) * |(x : ℚ)| := by
    rw [← Int.cast_abs, ← Int.cast_abs, ← Nat.cast_natAbs, ← Nat.cast_natAbs]
    exact_mod_cast hle
  have hpos : 0 < |(y : ℚ)| := abs_pos.mpr (by exact_mod_cast hy)
  rw [abs_div, le_div_iff₀ hpos, zpow_neg, zpow_natCast, inv_mul_le_iff₀ (by positivity)]
  exact hcast

/-- Whole numbers of about equal length have a quotient that is not lost, and its sign tells
whether theirs agree. -/
theorem div_ofInt_clear {gap room : Nat} (hy : y ≠ 0)
    (h : numDigits x.natAbs ≤ numDigits y.natAbs + gap)
    (h' : numDigits y.natAbs ≤ numDigits x.natAbs + gap) (hroom : gap + room ≤ 999900) :
    ∃ r, (ofInt x).dividedBy (ofInt y) = .ok r ∧ r.Clear room ∧ (0 < r.toRat ↔ 0 < x * y) := by
  have hne : (ofInt y).coefficient ≠ 0 := Int.natAbs_ne_zero.mpr hy
  obtain ⟨r, hr, hclear⟩ := div_clear (a := ofInt x) hne rfl h h' hroom
  have hfit := div_ofInt_fitted x hy
  rw [hr] at hfit
  obtain ⟨-, hsign, hround⟩ := hfit
  refine ⟨r, by rw [dividedBy_ofInt hy, hr]; rfl, hclear, ?_⟩
  rw [toRat_pos_iff, hsign]
  by_cases hx : x = 0
  · subst hx
    rw [Int.cast_zero, zero_div, abs_zero] at hround
    simp [hround.eq_zero]
  · have hlow := pow_le_ratio hx hy h'
    have hleast : (10 : ℚ) ^ leastPlace < 10 ^ (-(gap + 1 : Nat) : Int) := by
      apply ten_pow_lt
      have : leastPlace = -1000026 := rfl
      omega
    have hpos := ten_pow_pos leastPlace
    have hsize : 0 < r.size := (hround.pos_iff (by linarith)).mpr (by linarith)
    rw [and_iff_left hsize, mul_pos_iff]
    rcases lt_or_gt_of_ne hx with hx | hx <;> rcases lt_or_gt_of_ne hy with hy | hy <;>
      simp [hx, hy, hx.not_gt, hy.not_gt]

theorem quotientShift_self (hn : 0 < n) : quotientShift n n = 27 := by
  have hsum : (precision : Int) + numDigits n - numDigits n = 28 := Int.add_sub_cancel _ _
  have hquotient : (shifted n n 28).1 / (shifted n n 28).2 = Text.tenTo precision := by
    change n * Text.tenTo 28 / (n * 1) = _
    rw [Nat.mul_one, Nat.mul_div_cancel_left _ hn]
    rfl
  unfold quotientShift
  dsimp only
  rw [hsum, hquotient, if_neg (Nat.lt_irrefl _)]
  rfl

/-- A whole number by itself, with all 28 digits dropped again. -/
theorem dividedBy_self (hx : x ≠ 0) : (ofInt x).dividedBy (ofInt x) = .ok one := by
  have hn : 0 < x.natAbs := Int.natAbs_pos.mpr hx
  rw [dividedBy_ofInt hx]
  unfold div ofInt
  dsimp only
  generalize x.natAbs = n at hn ⊢
  rw [if_neg hn.ne', quotientShift_self hn]
  have hquotient : (shifted n n 27).1 / (shifted n n 27).2 = Text.tenTo 27 := by
    change n * Text.tenTo 27 / (n * 1) = _
    rw [Nat.mul_one, Nat.mul_div_cancel_left _ hn]
  have hexact : (shifted n n 27).1 % (shifted n n 27).2 = 0 := by
    change n * Text.tenTo 27 % (n * 1) = 0
    rw [Nat.mul_one, Nat.mul_mod_right]
  have hzeros : dropZeros (27 : Int).toNat (Text.tenTo 27) (0 - 0 - 27) = (1, 0) := by decide
  have hone : Clear 0 one := ⟨by decide, by decide, by decide⟩
  rw [if_pos hexact, hquotient, hzeros, bne_self_eq_false]
  exact congrArg found (fit_clear hone)

end Liquidity.Decimal
