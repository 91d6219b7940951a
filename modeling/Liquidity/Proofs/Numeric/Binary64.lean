import Liquidity.Binary64
import Liquidity.Proofs.Numeric.Quotient

/-! The size of binary floats: a rounded fraction can only be too large in its exponent, and the
shortest decimal of a float has few digits near the point. -/

namespace Liquidity.Binary64
set_option autoImplicit false

open Decimal (roundDiv numDigits roundDiv_le numDigits_pos lt_pow_numDigits numDigits_le
  numDigits_le_add dropZeros dropZeros_bounds)
open Text (tenTo)

section Rounding

variable {num den k n j : Nat} {q q₀ : Int}

/-- Units that are at most `2 ^ j` times smaller. -/
theorem inUnits_lt (hq : q₀ ≤ q + j) (h : (inUnits num den q₀).1 < n * (inUnits num den q₀).2) :
    (inUnits num den q).1 < n * 2 ^ j * (inUnits num den q).2 := by
  change num * 2 ^ (-q₀).toNat < n * (den * 2 ^ q₀.toNat) at h
  change num * 2 ^ (-q).toNat < n * 2 ^ j * (den * 2 ^ q.toNat)
  have hexp : q₀.toNat + (-q).toNat ≤ j + q.toNat + (-q₀).toNat := by omega
  apply Nat.lt_of_mul_lt_mul_right (a := 2 ^ (-q₀).toNat)
  calc num * 2 ^ (-q).toNat * 2 ^ (-q₀).toNat
      = num * 2 ^ (-q₀).toNat * 2 ^ (-q).toNat := by ring
    _ < n * (den * 2 ^ q₀.toNat) * 2 ^ (-q).toNat :=
        Nat.mul_lt_mul_of_pos_right h (Nat.two_pow_pos _)
    _ = n * den * 2 ^ (q₀.toNat + (-q).toNat) := by ring
    _ ≤ n * den * 2 ^ (j + q.toNat + (-q₀).toNat) :=
        Nat.mul_le_mul_left _ (Nat.pow_le_pow_right Nat.two_pos hexp)
    _ = n * 2 ^ j * (den * 2 ^ q.toNat) * 2 ^ (-q₀).toNat := by ring

theorem inUnits_log2_lt (num : Nat) (hden : den ≠ 0)
    (hq : q = (Nat.log2 num : Int) - Nat.log2 den - 52) :
    (inUnits num den q).1 < 2 * hidden * (inUnits num den q).2 := by
  change num * 2 ^ (-q).toNat < 2 ^ 53 * (den * 2 ^ q.toNat)
  have hexp : Nat.log2 num + 1 + (-q).toNat = 53 + Nat.log2 den + q.toNat := by omega
  calc num * 2 ^ (-q).toNat < 2 ^ (Nat.log2 num + 1) * 2 ^ (-q).toNat :=
        Nat.mul_lt_mul_of_pos_right Nat.lt_log2_self (Nat.two_pow_pos _)
    _ = 2 ^ 53 * (2 ^ Nat.log2 den * 2 ^ q.toNat) := by
        rw [← pow_add, hexp, pow_add, pow_add, mul_assoc]
    _ ≤ 2 ^ 53 * (den * 2 ^ q.toNat) :=
        Nat.mul_le_mul_left _ (Nat.mul_le_mul_right _ (Nat.log2_self_le hden))

theorem exponentFor_lt (num : Nat) (hden : den ≠ 0) :
    (inUnits num den (exponentFor num den)).1 <
      2 * hidden * (inUnits num den (exponentFor num den)).2 := by
  unfold exponentFor
  dsimp only
  generalize hq : (Nat.log2 num : Int) - Nat.log2 den - 52 = q
  have hpos : 0 < (inUnits num den q).2 :=
    Nat.mul_pos (Nat.pos_of_ne_zero hden) (Nat.two_pow_pos _)
  -- The logarithms are floored, so that the first exponent may be too large by one.
  split
  · rename_i h
    rw [Nat.div_lt_iff_lt_mul hpos] at h
    rw [Nat.mul_comm 2 hidden]
    exact inUnits_lt (j := 1) (by omega) h
  · exact inUnits_lt (j := 0) (by omega) (inUnits_log2_lt num hden hq.symm)

theorem rounded_fits (num : Nat) (hden : den ≠ 0) (h : (rounded num den).2 ≤ maxExponent) :
    Fits (rounded num den).1 (rounded num den).2 := by
  have hlt := exponentFor_lt num hden
  have hmin : minExponent ≤ exponentFor num den := Int.le_max_left ..
  unfold rounded at h ⊢
  dsimp only at h ⊢
  generalize exponentFor num den = q at hlt hmin h ⊢
  have hm : roundDiv (inUnits num den q).1 (inUnits num den q).2 ≤ 2 * hidden :=
    (roundDiv_le ..).trans (Nat.div_lt_of_lt_mul (Nat.mul_comm _ _ ▸ hlt))
  split at h <;> rename_i htop
  · rw [if_pos htop]
    exact ⟨show hidden < 2 * hidden by decide, by omega, h⟩
  · rw [if_neg htop]
    exact ⟨hm.lt_of_ne htop, hmin, h⟩

/-- A rounded fraction is infinite just where its exponent is too large. -/
theorem roundRatio_eq_infinite (negative : Bool) (num : Nat) (hden : den ≠ 0) :
    roundRatio negative num den = .infinite negative ↔ maxExponent < (rounded num den).2 := by
  have hfits := rounded_fits num hden
  unfold roundRatio
  generalize rounded num den = r at hfits ⊢
  obtain ⟨m, q⟩ := r
  dsimp only at hfits ⊢
  rw [← Int.not_le]
  constructor
  · intro h hle
    rw [dif_pos (hfits hle)] at h
    cases h
  · intro h
    exact dif_neg fun hf : Fits m q => h hf.exponent_le

end Rounding

section Shortest

variable {tie : Tie} {m n c : Nat} {q s : Int}

theorem le_of_mem_candidates (h : c ∈ candidates tie m q s) :
    c ≤ (4 * m + 2) * (2 ^ (q - 2).toNat * 10 ^ (-s).toNat) := by
  have hstep : 0 < tenTo s.toNat * twoTo (2 - q).toNat :=
    Nat.mul_pos (Nat.pow_pos (by decide)) (Nat.two_pow_pos _)
  have hinside := (List.mem_filter.mp h).2
  refine (Nat.le_mul_of_pos_right c hstep).trans ?_
  split at hinside <;> simp only [Bool.and_eq_true, decide_eq_true_eq] at hinside
  · exact hinside.2
  · exact hinside.2.le

theorem search_bounds (tie : Tie) (m : Nat) (q : Int) (n : Nat) (s : Int) :
    (search tie m q n s).1 ≤ (4 * m + 2) * (2 ^ (q - 2).toNat * 10 ^ (n - s).toNat) ∧
      s - n ≤ (search tie m q n s).2 ∧ (search tie m q n s).2 ≤ s + 17 := by
  -- Each step goes to a grid ten times finer until one has a candidate, whose zeros are dropped.
  fun_induction search tie m q n s with
  | case1 s => exact ⟨Nat.zero_le _, by omega, by omega⟩
  | case2 n s c cs h =>
    have hc : c ≤ (4 * m + 2) * (2 ^ (q - 2).toNat * 10 ^ (-s).toNat) :=
      le_of_mem_candidates (h ▸ List.mem_cons_self)
    have hexp : (-s).toNat ≤ ((n + 1 : Nat) - s : Int).toNat := by omega
    have hpow := Nat.pow_le_pow_right (n := 10) (by decide) hexp
    obtain ⟨hdrop, hlow, hhigh⟩ := dropZeros_bounds 17 c s
    refine ⟨?_, by omega, by omega⟩
    exact (hdrop.trans hc).trans (Nat.mul_le_mul_left _ (Nat.mul_le_mul_left _ hpow))
  | case3 n s h ih =>
    have hexp : (n - (s - 1) : Int) = (n + 1 : Nat) - s := by omega
    rw [hexp] at ih
    exact ⟨ih.1, by omega, by omega⟩

theorem leading_bounds (h : Fits m q) : -1074 ≤ leading m q ∧ leading m q ≤ 1090 := by
  have hlow := h.le_exponent
  have hhigh := h.exponent_le
  have hpos := numDigits_pos (m * twoTo q.toNat * Nat.pow 5 (-q).toNat)
  have hm16 : m < 10 ^ 16 := h.significand_lt.trans (by decide)
  have hlt : m * twoTo q.toNat * Nat.pow 5 (-q).toNat < 10 ^ (16 + q.toNat + (-q).toNat) := by
    calc m * 2 ^ q.toNat * 5 ^ (-q).toNat ≤ m * 10 ^ q.toNat * 10 ^ (-q).toNat :=
          Nat.mul_le_mul (Nat.mul_le_mul_left _ (Nat.pow_le_pow_left (by decide) _))
            (Nat.pow_le_pow_left (by decide) _)
      _ = m * 10 ^ (q.toNat + (-q).toNat) := by rw [mul_assoc, ← pow_add]
      _ < 10 ^ 16 * 10 ^ (q.toNat + (-q).toNat) :=
          Nat.mul_lt_mul_of_pos_right hm16 (Nat.pow_pos (by decide))
      _ = 10 ^ (16 + q.toNat + (-q).toNat) := by rw [← pow_add, add_assoc]
  have hle := numDigits_le (by omega) hlt
  unfold leading
  unfold minExponent at hlow
  unfold maxExponent at hhigh
  omega

theorem shortest_bounds (tie : Tie) (h : Fits m q) :
    numDigits (shortest tie m q).1 ≤ 3000 ∧ -3000 ≤ (shortest tie m q).2 ∧
      (shortest tie m q).2 ≤ 3000 := by
  unfold shortest
  split
  · have hzero : numDigits 0 ≤ 1 := numDigits_le Nat.one_pos (by decide)
    exact ⟨hzero.trans (by decide), by decide, by decide⟩
  · obtain ⟨hc, hlow, hhigh⟩ := search_bounds tie m q 17 (leading m q)
    have hl := leading_bounds h
    -- The bounds are generous: decimals reach much farther on either side.
    have hm17 : 4 * m + 2 < 10 ^ 17 := by
      have hm := h.significand_lt
      unfold hidden at hm
      omega
    have hlt : (search tie m q 17 (leading m q)).1 <
        10 ^ (17 + (q - 2).toNat + ((17 : Nat) - leading m q : Int).toNat) := by
      refine hc.trans_lt ?_
      calc (4 * m + 2) * (2 ^ (q - 2).toNat * 10 ^ ((17 : Nat) - leading m q : Int).toNat)
          ≤ (4 * m + 2) * (10 ^ (q - 2).toNat * 10 ^ ((17 : Nat) - leading m q : Int).toNat) :=
            Nat.mul_le_mul_left _ (Nat.mul_le_mul_right _ (Nat.pow_le_pow_left (by decide) _))
        _ < 10 ^ 17 * (10 ^ (q - 2).toNat * 10 ^ ((17 : Nat) - leading m q : Int).toNat) :=
            Nat.mul_lt_mul_of_pos_right hm17
              (Nat.mul_pos (Nat.pow_pos (by decide)) (Nat.pow_pos (by decide)))
        _ = 10 ^ (17 + (q - 2).toNat + ((17 : Nat) - leading m q : Int).toNat) := by
            rw [← pow_add, ← pow_add, add_assoc]
    have hdigits := numDigits_le (by omega) hlt
    have hq := h.exponent_le
    unfold maxExponent at hq
    exact ⟨by omega, by omega, by omega⟩

end Shortest
end Liquidity.Binary64
