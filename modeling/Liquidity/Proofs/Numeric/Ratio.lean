import Mathlib.Tactic.Linarith
import Liquidity.Numeric.Checked
import Liquidity.Proofs.Outcome

/-! The floored ratio `a * b / c`. It lies below the exact one by less than a whole, and it
fails only by the width of the product or for want of a divisor. -/

namespace Liquidity.Ratio
set_option autoImplicit false

open Outcome

variable {a b c n : Int}

theorem check_ne_divisionByZero (w : Width) (n : Int) (x : Json) :
    w.check n ≠ .error (.divisionByZero x) := by
  unfold Width.check
  split
  · simp
  · split <;> simp

theorem check_of_nonneg {w : Width} (h : 0 ≤ n) :
    w.check n = if n < w.limit then .ok n else .error (.oversizedWord w n) := by
  unfold Width.check
  rw [if_neg (Int.not_lt.mpr h)]
  by_cases hw : n < w.limit
  · rw [if_pos hw, if_neg (Int.not_le.mpr hw)]
  · rw [if_neg hw, if_pos (Int.not_lt.mp hw)]

theorem mulDiv_eq_ok : Checked.mulDiv a b c = .ok n ↔
    0 ≤ a * b ∧ a * b < Width.uint256.limit ∧ c ≠ 0 ∧ n = (a * b).fdiv c := by
  rw [Checked.mulDiv_int, bind_eq_ok]
  simp only [Width.check_eq_ok, Checked.div_eq_ok]
  constructor
  · rintro ⟨m, ⟨h0, hw, rfl⟩, hc, hn⟩
    exact ⟨h0, hw, hc, hn⟩
  · rintro ⟨h0, hw, hc, hn⟩
    exact ⟨a * b, ⟨h0, hw, rfl⟩, hc, hn⟩

theorem mulDiv_pos_eq_ok (hc : 0 < c) : Checked.mulDiv a b c = .ok n ↔
    0 ≤ a * b ∧ a * b < Width.uint256.limit ∧ n = a * b / c := by
  rw [mulDiv_eq_ok, Int.fdiv_eq_ediv_of_nonneg _ (Int.le_of_lt hc)]
  exact ⟨fun ⟨h0, hw, _, hn⟩ => ⟨h0, hw, hn⟩, fun ⟨h0, hw, hn⟩ => ⟨h0, hw, by omega, hn⟩⟩

theorem product_lt (ha : 0 ≤ a) (hb : 0 ≤ b) (ha' : a < Width.uint128.limit)
    (hb' : b < Width.uint128.limit) : a * b < Width.uint256.limit := by
  have hsquare : Width.uint256.limit = Width.uint128.limit * Width.uint128.limit := by decide
  rw [hsquare]
  exact mul_lt_mul'' ha' hb' ha hb

/-- Neither the width of the product nor the divisor is in the way of amounts. -/
theorem mulDiv_words (ha : 0 ≤ a) (hb : 0 ≤ b) (ha' : a < Width.uint128.limit)
    (hb' : b < Width.uint128.limit) (hc : 0 < c) : Checked.mulDiv a b c = .ok (a * b / c) :=
  (mulDiv_pos_eq_ok hc).mpr ⟨Int.mul_nonneg ha hb, product_lt ha hb ha' hb', rfl⟩

theorem divisor_ne_zero (h : Checked.mulDiv a b c = .ok n) : c ≠ 0 := (mulDiv_eq_ok.mp h).2.2.1

theorem divisor_eq_zero {x : Json} (h : Checked.mulDiv a b c = .error (.divisionByZero x)) :
    c = 0 := by
  rw [Checked.mulDiv_int, bind_eq_error] at h
  rcases h with h | ⟨m, _, h⟩
  · exact absurd h (check_ne_divisionByZero _ _ _)
  · rw [Checked.div_int] at h
    by_contra hc
    simp [hc] at h

theorem product_nonneg (h : Checked.mulDiv a b c = .ok n) : 0 ≤ a * b := (mulDiv_eq_ok.mp h).1

theorem quotient_mul_le (hc : 0 < c) (h : Checked.mulDiv a b c = .ok n) : n * c ≤ a * b := by
  obtain ⟨_, _, rfl⟩ := (mulDiv_pos_eq_ok hc).mp h
  exact Int.ediv_mul_le _ (by omega)

theorem lt_quotient_succ_mul (hc : 0 < c) (h : Checked.mulDiv a b c = .ok n) :
    a * b < (n + 1) * c := by
  obtain ⟨_, _, rfl⟩ := (mulDiv_pos_eq_ok hc).mp h
  exact Int.lt_ediv_add_one_mul_self _ hc

/-- The quotient is the greatest number that fits. -/
theorem le_quotient {m : Int} (hc : 0 < c) (h : Checked.mulDiv a b c = .ok n) (hm : m * c ≤ a * b) :
    m ≤ n := by
  obtain ⟨_, _, rfl⟩ := (mulDiv_pos_eq_ok hc).mp h
  exact (Int.le_ediv_iff_mul_le hc).mpr hm

/-- A ratio `w / t` that falls neither in one step nor in the next does not fall over both. -/
theorem cross_le_trans {w t w' t' w'' t'' : Int} (ht : 0 ≤ t) (ht' : 0 < t') (ht'' : 0 ≤ t'')
    (h : w * t' ≤ w' * t) (h' : w' * t'' ≤ w'' * t') : w * t'' ≤ w'' * t := by
  have hl : w * t' * t'' ≤ w' * t * t'' := Int.mul_le_mul_of_nonneg_right h ht''
  have hr : w' * t'' * t ≤ w'' * t' * t := Int.mul_le_mul_of_nonneg_right h' ht
  have hm : w * t'' * t' ≤ w'' * t * t' := by linarith
  exact Int.le_of_mul_le_mul_right hm ht'

end Liquidity.Ratio
