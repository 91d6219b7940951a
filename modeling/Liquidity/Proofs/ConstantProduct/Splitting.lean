import Liquidity.Proofs.ConstantProduct.Shares

/-! Operations on a pair that are done in two parts. What is rounded down in the first part stays
with the pool and comes back in the second only as far as the shares there go, so that nobody gets
more out of two parts than out of the whole. -/

namespace Liquidity.ConstantProduct
set_option autoImplicit false

variable {r d e p q supply share part a b : Int}

/-- One side of a deposit in two parts: after the first, a share stands for no less than before. -/
theorem minted_parts_le (hr : 0 < r) (hd : 0 < d) (he : 0 < e) (h : share * r ≤ d * supply)
    (h' : part * (r + d) ≤ e * (supply + share)) : (share + part) * r ≤ (d + e) * supply := by
  have hrate : (supply + share) * r ≤ supply * (r + d) := by linarith
  have hcross : part * (r + d) ≤ (supply + share) * e := by linarith
  have hpart := Ratio.cross_le_trans he.le (show 0 < r + d by omega) hr.le hcross hrate
  linarith

/-- One side of a withdrawal in two parts: of what the first part leaves, the second takes its
share of the rest of the supply. -/
theorem paid_parts_le (hs : 0 < supply) (hp : p < supply) (hq : p + q ≤ supply)
    (h : a * supply ≤ r * p) (h' : b * (supply - p) ≤ (r - a) * q) :
    (a + b) * supply ≤ r * (p + q) := by
  have hrest : 0 < supply - p := by omega
  -- What the first part leaves behind by rounding down is worth at most itself to the second.
  have hfirst := Int.mul_le_mul_of_nonneg_right h (show 0 ≤ supply - p - q by omega)
  have hsecond := Int.mul_le_mul_of_nonneg_right h' hs.le
  refine Int.le_of_mul_le_mul_right ?_ hrest
  calc (a + b) * supply * (supply - p)
      = a * supply * (supply - p) + b * (supply - p) * supply := by ring
    _ ≤ a * supply * (supply - p) + (r - a) * q * supply := by linarith
    _ = a * supply * (supply - p - q) + r * q * supply := by ring
    _ ≤ r * p * (supply - p - q) + r * q * supply := by linarith
    _ = r * (p + q) * (supply - p) := by ring

/-- Two deposits mint no more than both at once, and shares that are burned in two parts, the last
of the supply included, pay no more of either asset than all of them at once. -/
theorem splitting_never_pays (r0 r1 supply : Int) (hr0 : 0 < r0) (hr1 : 0 < r1) (hs : 0 < supply) :
    (∀ d0 d1 e0 e1 floor share part whole : Int,
      mint [d0, d1] [r0, r1] supply floor = .ok share →
      mint [e0, e1] [r0 + d0, r1 + d1] (supply + share) floor = .ok part →
      mint [d0 + e0, d1 + e1] [r0, r1] supply floor = .ok whole →
      share + part ≤ whole) ∧
    ∀ p q a0 a1 b0 b1 c0 c1 : Int, 1 ≤ p → 1 ≤ q → p + q ≤ supply →
      payout [r0, r1] supply p = .ok [a0, a1] →
      payout [r0 - a0, r1 - a1] (supply - p) q = .ok [b0, b1] →
      payout [r0, r1] supply (p + q) = .ok [c0, c1] →
      a0 + b0 ≤ c0 ∧ a1 + b1 ≤ c1 := by
  constructor
  · intro d0 d1 e0 e1 floor share part whole hshare hpart hwhole
    obtain ⟨-, -, hd0, hd1, h0, hb0, hb1⟩ := mint_bounds hs hr0.le hr1.le hshare
    obtain ⟨-, -, he0, he1, -, hc0, hc1⟩ :=
      mint_bounds (show 0 < supply + share by omega) (by omega) (by omega) hpart
    apply le_mint hs hr0 hr1 hwhole
    · exact minted_parts_le hr0 hd0 he0 hb0 hc0
    · exact minted_parts_le hr1 hd1 he1 hb1 hc1
  · intro p q a0 a1 b0 b1 c0 c1 hp hq hle ha hb hc
    have hrest : 0 < supply - p := by omega
    obtain ⟨-, _, _, ⟨⟩, -, -, ha0, ha1⟩ := payout_bounds hs ha
    obtain ⟨-, _, _, ⟨⟩, -, -, hb0, hb1⟩ := payout_bounds hrest hb
    obtain ⟨-, _, _, ⟨⟩, -, -, hc0, hc1⟩ := payout_bounds hs hc
    constructor
    · apply Ratio.le_quotient hs hc0
      exact paid_parts_le hs (by omega) hle (Ratio.quotient_mul_le hs ha0)
        (Ratio.quotient_mul_le hrest hb0)
    · apply Ratio.le_quotient hs hc1
      exact paid_parts_le hs (by omega) hle (Ratio.quotient_mul_le hs ha1)
        (Ratio.quotient_mul_le hrest hb1)

/-- Where nothing divides evenly the parts come to less. -/
theorem splitting_never_pays_uneven :
    (mint [(3 : Int), 10] [7, 20] 10 (0 : Int) = .ok 4 ∧
      mint [(4 : Int), 11] [10, 30] 14 (0 : Int) = .ok 5 ∧
      mint [(7 : Int), 21] [7, 20] 10 (0 : Int) = .ok 10 ∧ (4 + 5 : Int) ≤ 10) ∧
    payout [(10 : Int), 21] 7 2 = .ok [2, 6] ∧ payout [(8 : Int), 15] 5 3 = .ok [4, 9] ∧
      payout [(10 : Int), 21] 7 5 = .ok [7, 15] ∧ (2 + 4 : Int) ≤ 7 ∧ (6 + 9 : Int) ≤ 15 := by
  obtain ⟨hmint, -⟩ := splitting_never_pays 7 20 10 (by decide) (by decide) (by decide)
  obtain ⟨-, hpay⟩ := splitting_never_pays 10 21 7 (by decide) (by decide) (by decide)
  exact ⟨⟨rfl, rfl, rfl, hmint 3 10 4 11 0 4 5 10 rfl rfl rfl⟩, rfl, rfl, rfl,
    hpay 2 3 2 6 4 9 7 15 (by decide) (by decide) (by decide) rfl rfl rfl⟩

end Liquidity.ConstantProduct
