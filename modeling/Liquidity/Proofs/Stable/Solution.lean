import Mathlib.Algebra.BigOperators.Ring.List
import Mathlib.Algebra.Order.BigOperators.GroupWithZero.List
import Mathlib.Data.Int.LeastGreatest
import Liquidity.Stable.Invariant
import Liquidity.Proofs.Numeric.Mean

/-! The equation behind the invariant of a stable pool. Its solution lies between the
geometric mean of the balances, times their number, and their total, and it grows with every
balance. -/

namespace Liquidity.Stable
set_option autoImplicit false

/-- A pool of at least two assets with something of each, and an amplification of two or more
once it is counted per asset. -/
structure Sound (s : Shape) (balances : List Int) : Prop where
  count : 2 ≤ balances.length
  positive : ∀ b ∈ balances, 0 < b
  parts : 0 < s.ampPrecision
  amplified : 2 * s.ampPrecision ≤ s.amp * balances.length

/-- What the power of `D` is divided by: every balance times their number, and one more. -/
def divisor (balances : List Int) : Int :=
  (balances.map fun b => b * (balances.length : Int) + 1).prod

/-- `g` is at most the `D` of `A * total = (A - 1) * D + D ^ (n + 1) / divisor`, where `A` is the
amplification times the number `n` of balances. -/
def Within (s : Shape) (balances : List Int) (g : Int) : Prop :=
  s.ampPrecision * g ^ (balances.length + 1) +
      (s.amp * balances.length - s.ampPrecision) * g * divisor balances ≤
    s.amp * balances.length * total balances * divisor balances

instance (s : Shape) (balances : List Int) (g : Int) : Decidable (Within s balances g) :=
  inferInstanceAs (Decidable (_ ≤ _))

/-- The whole part of the solution. -/
def Solution (s : Shape) (balances : List Int) (e : Int) : Prop :=
  IsGreatest {g | Within s balances g} e

variable {s : Shape} {balances : List Int} {g : Int}

theorem total_eq_sum : (balances : List Int) → total balances = balances.sum
  | [] => rfl
  | b :: bs => congrArg (b + ·) (total_eq_sum bs)

theorem divisor_pos (h : ∀ b ∈ balances, 0 < b) : 0 < divisor balances := by
  apply List.prod_pos
  rw [List.forall_mem_map]
  intro b hb
  have := h b hb
  positivity

theorem pow_mul_prod_le_divisor (h : ∀ b ∈ balances, 0 < b) :
    (balances.length : Int) ^ balances.length * balances.prod ≤ divisor balances := by
  have hscale : (balances.map fun b => b * (balances.length : Int)).prod =
      balances.length ^ balances.length * balances.prod := by
    rw [List.prod_map_mul, List.map_id', List.map_const', List.prod_replicate, mul_comm]
  rw [← hscale]
  apply List.prod_map_le_prod_map₀
  · intro b hb
    exact Int.mul_nonneg (h b hb).le (Int.natCast_nonneg _)
  · intro b _
    exact Int.le_add_one (Int.le_refl _)

theorem divisor_le (h : ∀ b ∈ balances, 0 < b) (hn : 0 < balances.length) :
    divisor balances ≤ (total balances + 1) ^ balances.length := by
  have hmean := Mean.pow_mul_prod_le (balances.map fun b => b * (balances.length : Int) + 1) (by
    rw [List.forall_mem_map]
    intro b hb
    have := h b hb
    positivity)
  have hsum : (balances.map fun b => b * (balances.length : Int) + 1).sum =
      balances.length * (total balances + 1) := by
    rw [List.sum_map_add, List.sum_map_mul_right, List.map_id', List.map_const',
      List.sum_replicate, total_eq_sum, nsmul_eq_mul]
    ring
  rw [hsum, List.length_map, mul_pow] at hmean
  exact Int.le_of_mul_le_mul_left hmean (by positivity)

theorem pow_mul_prod_le_total (h : ∀ b ∈ balances, 0 < b) :
    (balances.length : Int) ^ balances.length * balances.prod ≤
      total balances ^ balances.length := by
  rw [total_eq_sum]
  exact Mean.pow_mul_prod_le balances fun b hb => (h b hb).le

theorem total_nonneg (h : ∀ b ∈ balances, 0 < b) : 0 ≤ total balances := by
  rw [total_eq_sum]
  exact List.sum_nonneg fun b hb => (h b hb).le

namespace Sound

theorem leverage_pos (h : Sound s balances) : 0 < s.amp * balances.length := by
  have := h.parts
  have := h.amplified
  omega

theorem length_ne_zero (h : Sound s balances) : balances.length ≠ 0 := by
  have := h.count
  omega

/-- No part of the total is left to a `g` beyond it, as its power alone is worth more. -/
theorem le_total (h : Sound s balances) (hg : Within s balances g) : g ≤ total balances := by
  by_contra hlt
  have hq := divisor_pos h.positive
  have ht := total_nonneg h.positive
  have hpow : divisor balances ≤ g ^ balances.length :=
    (divisor_le h.positive (Nat.pos_of_ne_zero h.length_ne_zero)).trans
      (pow_le_pow_left₀ (by omega) (by omega) _)
  have hterm : s.ampPrecision * g * divisor balances ≤
      s.ampPrecision * g ^ (balances.length + 1) := by
    rw [pow_succ', ← mul_assoc]
    exact Int.mul_le_mul_of_nonneg_left hpow (Int.mul_nonneg h.parts.le (by omega))
  have hgap : s.amp * balances.length * divisor balances * total balances <
      s.amp * balances.length * divisor balances * g :=
    Int.mul_lt_mul_of_pos_left (by omega) (Int.mul_pos h.leverage_pos hq)
  unfold Within at hg
  linarith

theorem within_of_pow_le (h : Sound s balances) (h0 : 0 ≤ g)
    (hg : g ^ balances.length ≤ (balances.length : Int) ^ balances.length * balances.prod) :
    Within s balances g := by
  have hle : g ≤ total balances :=
    le_of_pow_le_pow_left₀ h.length_ne_zero (total_nonneg h.positive)
      (hg.trans (pow_mul_prod_le_total h.positive))
  have hpow := hg.trans (pow_mul_prod_le_divisor h.positive)
  have hterm : s.ampPrecision * g ^ (balances.length + 1) ≤
      s.ampPrecision * g * divisor balances := by
    rw [pow_succ', ← mul_assoc]
    exact Int.mul_le_mul_of_nonneg_left hpow (Int.mul_nonneg h.parts.le h0)
  have hgap : s.amp * balances.length * divisor balances * g ≤
      s.amp * balances.length * divisor balances * total balances :=
    Int.mul_le_mul_of_nonneg_left hle
      (Int.mul_nonneg h.leverage_pos.le (divisor_pos h.positive).le)
  unfold Within
  linarith

theorem prod_pos (h : Sound s balances) : 0 < balances.prod := List.prod_pos h.positive

theorem within_two (h : Sound s balances) : Within s balances 2 := by
  apply h.within_of_pow_le (by decide)
  have hcount : (2 : Int) ≤ balances.length := by exact_mod_cast h.count
  calc (2 : Int) ^ balances.length ≤ (balances.length : Int) ^ balances.length :=
        pow_le_pow_left₀ (by decide) hcount _
    _ ≤ (balances.length : Int) ^ balances.length * balances.prod :=
        le_mul_of_one_le_right (by positivity) h.prod_pos

theorem exists_solution (h : Sound s balances) : ∃ e, Solution s balances e := by
  obtain ⟨e, he, hmax⟩ := Int.exists_greatest_of_bdd (P := Within s balances)
    ⟨total balances, fun _ => h.le_total⟩ ⟨2, h.within_two⟩
  exact ⟨e, he, fun g hg => hmax g hg⟩

end Sound

section Order
variable {x y : List Int}

theorem total_mono (h : List.Forall₂ (· ≤ ·) x y) : total x ≤ total y := by
  induction h with
  | nil => exact Int.le_refl _
  | cons hxy _ ih => exact Int.add_le_add hxy ih

theorem prod_map_mono {n : Nat} (h : List.Forall₂ (· ≤ ·) x y) (hx : ∀ b ∈ x, 0 < b) :
    (x.map fun b => b * (n : Int) + 1).prod ≤ (y.map fun b => b * (n : Int) + 1).prod := by
  induction h with
  | nil => exact Int.le_refl _
  | @cons a b as bs hab _ ih =>
    obtain ⟨ha, has⟩ := List.forall_mem_cons.mp hx
    have hpos : 0 ≤ (as.map fun b => b * (n : Int) + 1).prod := by
      apply List.prod_nonneg
      rw [List.forall_mem_map]
      intro c hc
      have := has c hc
      positivity
    have hn : a * (n : Int) ≤ b * n := Int.mul_le_mul_of_nonneg_right hab (Int.natCast_nonneg n)
    rw [List.map_cons, List.map_cons, List.prod_cons, List.prod_cons]
    exact mul_le_mul (by omega) (ih has) hpos (by have := ha.trans_le hab; positivity)

theorem divisor_mono (h : List.Forall₂ (· ≤ ·) x y) (hx : ∀ b ∈ x, 0 < b) :
    divisor x ≤ divisor y := by
  unfold divisor
  rw [← h.length_eq]
  exact prod_map_mono h hx

theorem positive_mono (h : List.Forall₂ (· ≤ ·) x y) (hx : ∀ b ∈ x, 0 < b) : ∀ b ∈ y, 0 < b := by
  induction h with
  | nil => exact hx
  | cons hab _ ih =>
    obtain ⟨ha, has⟩ := List.forall_mem_cons.mp hx
    exact List.forall_mem_cons.mpr ⟨ha.trans_le hab, ih has⟩

theorem Sound.mono (h : Sound s x) (hxy : List.Forall₂ (· ≤ ·) x y) : Sound s y where
  count := hxy.length_eq ▸ h.count
  positive := positive_mono hxy h.positive
  parts := h.parts
  amplified := hxy.length_eq ▸ h.amplified

theorem Sound.within_mono (h : Sound s x) (hxy : List.Forall₂ (· ≤ ·) x y) (h0 : 0 ≤ g)
    (hg : Within s x g) : Within s y g := by
  have hq := divisor_pos h.positive
  have hpow : 0 ≤ s.ampPrecision * g ^ (x.length + 1) :=
    Int.mul_nonneg h.parts.le (pow_nonneg h0 _)
  -- What is left of the total for the power cannot be negative, and grows with the balances.
  have hrest : 0 ≤ s.amp * x.length * total x - (s.amp * x.length - s.ampPrecision) * g := by
    by_contra hneg
    have := Int.mul_neg_of_neg_of_pos (Int.not_le.mp hneg) hq
    unfold Within at hg
    linarith
  have htotal := Int.mul_le_mul_of_nonneg_left (total_mono hxy) h.leverage_pos.le
  have hmul := mul_le_mul (sub_le_sub_right htotal ((s.amp * x.length - s.ampPrecision) * g))
    (divisor_mono hxy h.positive) hq.le (by linarith)
  unfold Within at hg ⊢
  rw [← hxy.length_eq]
  linarith

theorem Sound.solution_mono {e e' : Int} (h : Sound s x) (hxy : List.Forall₂ (· ≤ ·) x y)
    (he : Solution s x e) (he' : Solution s y e') : e ≤ e' := by
  have h2 : 2 ≤ e := he.2 h.within_two
  exact he'.2 (h.within_mono hxy (by omega) he.1)

end Order

end Liquidity.Stable
