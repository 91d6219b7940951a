import Mathlib.Data.Nat.Cast.Field
import Liquidity.Proofs.Decimal.Rounding

/-! What an operation returns whose exact result has a given sign and size: the size rounded
to its grid, or nothing from the least number on that rounds beyond the greatest decimal.
Quotients are such results, whichever way their digits are found. -/

namespace Liquidity.Decimal
set_option autoImplicit false

variable {a b d : Decimal} {q : ℚ} {k e place : Int} {m n : Nat} {negative : Bool}

section Fit

/-- The least number that rounds to more than the greatest decimal. -/
def tooLarge : ℚ := (10 ^ precision - 1 / 2) * 10 ^ (maxLeading - (precision - 1 : Nat))

/-- What an operation may return whose exact result has the given sign and size. -/
def Fitted (negative : Bool) (q : ℚ) : Option Decimal → Prop
  | none => tooLarge ≤ q
  | some r => q < tooLarge ∧ r.negative = negative ∧ Rounds q r.size

theorem pow_maxLeading_le_tooLarge : 10 ^ maxLeading ≤ tooLarge := by
  have hsum : maxLeading = 27 + (maxLeading - (precision - 1 : Nat)) := by decide
  rw [hsum, ten_pow_add, tooLarge]
  refine mul_le_mul_of_nonneg_right ?_ (ten_pow_pos _).le
  norm_num [precision]

theorem ten_pow_lt_tooLarge (h : e < maxLeading) : 10 ^ e < tooLarge :=
  (ten_pow_lt h).trans_le pow_maxLeading_le_tooLarge

theorem two_lt_tooLarge : 2 < tooLarge := by
  calc (2 : ℚ) < 10 ^ (1 : Int) := by norm_num
    _ ≤ 10 ^ maxLeading := ten_pow_le (by decide)
    _ ≤ tooLarge := pow_maxLeading_le_tooLarge

theorem one_lt_tooLarge : 1 < tooLarge := one_lt_two.trans two_lt_tooLarge

theorem tooLarge_lt : tooLarge < 10 ^ (maxLeading + 1) := by
  have hsum : maxLeading + 1 = 28 + (maxLeading - (precision - 1 : Nat)) := by decide
  rw [hsum, ten_pow_add, tooLarge]
  refine mul_lt_mul_of_pos_right ?_ (ten_pow_pos _)
  norm_num [precision]

theorem lt_tooLarge (h : Int.log 10 q < maxLeading) (h0 : 0 < q) : q < tooLarge :=
  (lt_pow_log h0).trans_le ((ten_pow_le h).trans pow_maxLeading_le_tooLarge)

/-- Rounding adds a digit exactly where the size is that of the number next below it or more,
and this is too much only in front of the greatest place. -/
theorem tooLarge_le_iff (h0 : 0 < q) (hlead : Int.log 10 q ≤ maxLeading)
    (h : IsNearest (q / 10 ^ grain q) k) :
    tooLarge ≤ q ↔ k = 10 ^ precision ∧ maxLeading < grain q + precision := by
  have hmax : maxLeading = 999999 := rfl
  have hleast : leastPlace = -1000026 := rfl
  have hprecision : precision = 28 := rfl
  rcases hlead.eq_or_lt with hlog | hlt
  · have hgrain : grain q = maxLeading - (precision - 1 : Nat) := by
      unfold grain lastPlace
      omega
    have hpos := ten_pow_pos (grain q)
    have hup : q / 10 ^ grain q < 10 ^ precision := by
      have hnext : Int.log 10 q + 1 = (precision : Nat) + grain q := by omega
      rw [div_lt_iff₀ hpos, ← zpow_natCast, ← ten_pow_add, ← hnext]
      exact lt_pow_log h0
    have htop : Even ((10 : Int) ^ precision) := by decide
    have hiff := h.eq_iff_of_even htop (by push_cast; exact hup.le)
    push_cast at hiff
    rw [tooLarge, ← hgrain, ← le_div_iff₀ hpos, and_iff_left (by omega), hiff]
  · -- In front of a lesser place there is room for one digit more.
    have hgrain : grain q + precision ≤ maxLeading := by
      unfold grain lastPlace
      omega
    constructor
    · intro hge
      exact absurd (lt_tooLarge hlt h0) (not_lt.mpr hge)
    · intro hle
      omega

theorem carried_fitted (h0 : 0 < q) (hlead : Int.log 10 q ≤ maxLeading)
    (h : IsNearest (q / 10 ^ grain q) n) : Fitted negative q (carried negative n (grain q)) := by
  have hiff := tooLarge_le_iff h0 hlead h
  have hcarry : ((n : Int) = 10 ^ precision) ↔ n = Text.tenTo precision := by
    rw [← Int.natCast_inj]
    exact Iff.rfl
  rw [hcarry] at hiff
  unfold carried
  split
  · rename_i hn
    split
    · rename_i hmax
      exact hiff.mpr ⟨hn, hmax⟩
    · rename_i hmax
      refine ⟨not_le.mp fun hge => hmax (hiff.mp hge).2, rfl, n, h, ?_⟩
      change ((10 ^ 27 : Nat) : ℚ) * 10 ^ (grain q + 1) = _
      rw [hn, zpow_add_one₀ (by norm_num)]
      change _ = (((10 ^ 28 : Nat) : Int) : ℚ) * 10 ^ grain q
      push_cast
      ring
  · rename_i hn
    exact ⟨not_le.mp fun hge => hn (hiff.mp hge).1, rfl, n, h, by simp [size]⟩

theorem roundedAt_isNearest (h : d.exponent ≤ place) :
    IsNearest (d.size / 10 ^ place) (d.roundedAt place) := by
  have hpos := ten_pow_pos place
  unfold roundedAt
  split
  · rename_i hfar
    have hless : d.size < 10 ^ (place - 1) := d.size_lt.trans_le (ten_pow_le (by omega))
    apply IsNearest.of_lt_half (div_nonneg d.size_nonneg hpos.le)
    rw [zpow_sub_one₀ (by norm_num)] at hless
    rw [div_lt_iff₀ hpos]
    linarith
  · have hval : d.size / 10 ^ place =
        (d.coefficient : ℚ) / (10 ^ (place - d.exponent).toNat : Nat) := by
      rw [size, ten_pow_toNat (by omega), zpow_sub₀ (by norm_num), div_div_eq_mul_div]
    rw [hval]
    exact roundDiv_isNearest _ (Nat.pow_pos (by decide))

theorem fit_fitted (d : Decimal) : Fitted d.negative d.size d.fit := by
  unfold fit
  split
  · rename_i hzero
    have hsize : ∀ e, size { d with exponent := e } = 0 := fun e => size_eq_zero.mpr hzero
    have hpos : 0 < tooLarge := (ten_pow_pos _).trans_le pow_maxLeading_le_tooLarge
    rw [size_eq_zero.mpr hzero]
    refine ⟨hpos, rfl, ?_⟩
    rw [hsize]
    exact Rounds.zero
  · rename_i hc
    have h0 : 0 < d.size := size_pos.mpr hc
    have hlog := log_size hc
    have hgrain : grain d.size = lastPlace d.adjusted := by rw [grain, hlog]
    split
    · rename_i hlead
      refine tooLarge_lt.le.trans ((ten_pow_le ?_).trans (pow_log_le h0))
      omega
    · rename_i hlead
      dsimp only
      rw [← hgrain]
      split
      · rename_i hkept
        have hexact : Rounds d.size d.size := Rounds.exact hkept
        refine ⟨not_le.mp fun hge => ?_, rfl, hexact⟩
        obtain ⟨k, hk, hsize⟩ := hexact
        obtain ⟨rfl, hmax⟩ := (tooLarge_le_iff h0 (by omega) hk).mp hge
        have hplace : d.adjusted + 1 ≤ grain d.size + precision := by omega
        have hup := d.size_lt.trans_le (ten_pow_le hplace)
        rw [add_comm, ten_pow_add, zpow_natCast] at hup
        push_cast at hsize
        exact hup.ne hsize
      · rename_i hplace
        exact carried_fitted h0 (by omega) (roundedAt_isNearest (by omega))

end Fit

section Quotient

variable {s : Int}

theorem shifted_eq (n m : Nat) (s : Int) :
    ((shifted n m s).1 : ℚ) / (shifted n m s).2 = n / m * 10 ^ s := by
  have hsum : s = (s.toNat : Int) - ((-s).toNat : Int) := by omega
  have hpow : (10 : ℚ) ^ s = 10 ^ s.toNat / 10 ^ (-s).toNat := by
    conv_lhs => rw [hsum]
    rw [zpow_sub₀ (by norm_num), zpow_natCast, zpow_natCast]
  change ((n * 10 ^ s.toNat : Nat) : ℚ) / (m * 10 ^ (-s).toNat : Nat) = _
  rw [hpow]
  push_cast
  exact mul_div_mul_comm _ _ _ _

theorem ten_pow_precision : (10 : ℚ) ^ precision = 10 ^ (precision - 1) * 10 := by
  norm_num [precision]

/-- Shifted by the difference of the lengths, the quotient has 28 digits at least. -/
theorem pow_le_quotient (hn : n ≠ 0) (hm : m ≠ 0) :
    10 ^ (precision - 1) ≤
      (n : ℚ) / m * 10 ^ ((precision : Int) + numDigits m - numDigits n) := by
  have hpos : (0 : ℚ) < m := by exact_mod_cast Nat.pos_of_ne_zero hm
  have hlow : (10 : ℚ) ^ numDigits n ≤ 10 * n := by exact_mod_cast pow_numDigits_le hn
  have hup : (m : ℚ) ≤ 10 ^ numDigits m := by exact_mod_cast (lt_pow_numDigits m).le
  have hden := ten_pow_pos (numDigits n)
  rw [zpow_sub₀ (by norm_num), ten_pow_add, zpow_natCast, zpow_natCast, zpow_natCast,
    div_mul_div_comm, le_div_iff₀ (by positivity)]
  calc (10 : ℚ) ^ (precision - 1) * (m * 10 ^ numDigits n)
      ≤ 10 ^ (precision - 1) * (10 ^ numDigits m * (10 * n)) := by gcongr
    _ = n * (10 ^ precision * 10 ^ numDigits m) := by
        rw [ten_pow_precision]
        ring

/-- The shifted quotient has 28 digits before the point. -/
theorem quotientShift_range (hn : n ≠ 0) (hm : m ≠ 0) :
    10 ^ (precision - 1) ≤ (n : ℚ) / m * 10 ^ quotientShift n m ∧
      (n : ℚ) / m * 10 ^ quotientShift n m < 10 ^ precision := by
  have hlt := quotientShift_lt (n := n) hm
  rw [Nat.div_lt_iff_lt_mul (shifted_pos n hm _)] at hlt
  refine ⟨?_, ?_⟩
  · have hstart := pow_le_quotient hn hm
    unfold quotientShift
    dsimp only
    split
    · exact hstart
    · rename_i hge
      have hmore := Nat.mul_le_of_le_div _ _ _ (not_lt.mp hge)
      have hten : (10 : ℚ) ^ precision ≤
          n / m * 10 ^ ((precision : Int) + numDigits m - numDigits n) := by
        rw [← shifted_eq, le_div_iff₀ (by exact_mod_cast shifted_pos n hm _)]
        exact_mod_cast hmore
      rw [zpow_sub_one₀ (by norm_num), ← mul_assoc]
      rw [ten_pow_precision] at hten
      linarith
  · rw [← shifted_eq, div_lt_iff₀ (by exact_mod_cast shifted_pos n hm _)]
    exact_mod_cast hlt

theorem dropZeros_eq (n c : Nat) (e : Int) :
    ((dropZeros n c e).1 : ℚ) * 10 ^ (dropZeros n c e).2 = c * 10 ^ e := by
  fun_induction dropZeros n c e with
  | case1 c e => rfl
  | case2 n c e h ih =>
    have hc : (c : ℚ) = (c / 10 : Nat) * 10 := by exact_mod_cast (by omega : c = c / 10 * 10)
    rw [ih, hc, zpow_add_one₀ (by norm_num), mul_comm ((10 : ℚ) ^ _), mul_assoc]
  | case3 n c e h => rfl

theorem roundedQuotient_isNearest (hm : 0 < m) (hlt : (n : ℚ) / m < 10 ^ precision) (k : Nat) :
    IsNearest ((n : ℚ) / m / 10 ^ k) (roundedQuotient n m k) := by
  have hpos : (0 : ℚ) < 10 ^ k := by positivity
  unfold roundedQuotient
  split
  · rename_i hfar
    have hpow : (10 : ℚ) ^ (precision + 1) ≤ 10 ^ k := pow_le_pow_right₀ (by norm_num) hfar
    apply IsNearest.of_lt_half (by positivity)
    rw [pow_succ] at hpow
    rw [div_lt_iff₀ hpos]
    linarith
  · have hden : (m : ℚ) * 10 ^ k = (m * Text.tenTo k : Nat) := by
      change _ = ((m * 10 ^ k : Nat) : ℚ)
      push_cast
      rfl
    rw [div_div, hden]
    exact roundDiv_isNearest n (Nat.mul_pos hm (Nat.pow_pos (by decide)))

/-- A fraction of 28 digits before the point, moved to its place and rounded there. -/
theorem inexact_fitted (hm : 0 < m) (hlow : 10 ^ (precision - 1) ≤ (n : ℚ) / m)
    (hup : (n : ℚ) / m < 10 ^ precision) :
    Fitted negative ((n : ℚ) / m * 10 ^ e)
      (if maxLeading < e + (precision - 1 : Nat) then none
        else carried negative (roundedQuotient n m (max leastPlace e - e).toNat)
          (max leastPlace e)) := by
  have hpos := ten_pow_pos e
  have hpositive : 0 < (n : ℚ) / m * 10 ^ e :=
    mul_pos ((pow_pos (by norm_num) _).trans_le hlow) hpos
  have hlog : Int.log 10 ((n : ℚ) / m * 10 ^ e) = e + (precision - 1 : Nat) := by
    apply log_eq
    · rw [ten_pow_add, zpow_natCast, mul_comm]
      exact mul_le_mul_of_nonneg_right hlow hpos.le
    · have hnext : e + (precision - 1 : Nat) + 1 = e + (precision : Nat) := by
        rw [add_assoc]
        rfl
      rw [hnext, ten_pow_add, zpow_natCast, mul_comm]
      exact mul_lt_mul_of_pos_left hup hpos
  split
  · exact tooLarge_lt.le.trans ((ten_pow_le (by omega)).trans (pow_log_le hpositive))
  · have hgrain : grain ((n : ℚ) / m * 10 ^ e) = max leastPlace e := by
      rw [grain, hlog, lastPlace, add_sub_cancel_right]
    have hplace : (n : ℚ) / m * 10 ^ e / 10 ^ max leastPlace e =
        n / m / 10 ^ (max leastPlace e - e).toNat := by
      have hsum : max leastPlace e = (max leastPlace e - e) + e := by omega
      conv_lhs => rw [hsum, ten_pow_add, mul_div_mul_right _ _ hpos.ne']
      rw [← ten_pow_toNat (by omega)]
      push_cast
      rfl
    rw [← hgrain] at hplace ⊢
    apply carried_fitted hpositive (by omega)
    rw [hplace]
    exact roundedQuotient_isNearest hm hup _

theorem div_fitted (hb : b.coefficient ≠ 0) :
    Fitted (a.negative != b.negative) (a.size / b.size) (a.div b) := by
  have hquotient : a.size / b.size =
      (a.coefficient : ℚ) / b.coefficient * 10 ^ (a.exponent - b.exponent) := by
    rw [size, size, mul_div_mul_comm, zpow_sub₀ (by norm_num)]
  rw [hquotient]
  unfold div
  dsimp only
  generalize a.exponent - b.exponent = ideal
  split
  · rename_i hzero
    rw [hzero, Nat.cast_zero, zero_div, zero_mul]
    have hfit := fit_fitted ⟨a.negative != b.negative, 0, ideal⟩
    rwa [size_eq_zero.mpr rfl] at hfit
  · rename_i ha
    obtain ⟨hlow, hup⟩ := quotientShift_range ha hb
    have hden := shifted_pos a.coefficient hb (quotientShift a.coefficient b.coefficient)
    have hshifted := shifted_eq a.coefficient b.coefficient
      (quotientShift a.coefficient b.coefficient)
    generalize quotientShift a.coefficient b.coefficient = s at *
    have hsplit : (a.coefficient : ℚ) / b.coefficient * 10 ^ ideal =
        (a.coefficient : ℚ) / b.coefficient * 10 ^ s * 10 ^ (ideal - s) := by
      rw [mul_assoc, ← ten_pow_add, add_sub_cancel]
    rw [← hshifted] at hlow hup hsplit
    rw [hsplit]
    -- A fraction of 28 digits is left, and how it was shifted no longer matters.
    generalize (shifted a.coefficient b.coefficient s).1 = n,
      (shifted a.coefficient b.coefficient s).2 = m at *
    split
    · rename_i hexact
      have hwhole : (n : ℚ) / m = (n / m : Nat) :=
        (Nat.cast_div_charZero (Nat.dvd_of_mod_eq_zero hexact)).symm
      rw [hwhole, ← dropZeros_eq s.toNat]
      exact fit_fitted ⟨a.negative != b.negative, _, _⟩
    · exact inexact_fitted hden hlow hup

end Quotient

end Liquidity.Decimal
