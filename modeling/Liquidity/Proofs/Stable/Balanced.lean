import Liquidity.Proofs.ConstantProduct.Shares
import Liquidity.Proofs.Stable.Newton
import Liquidity.Proofs.Stable.Shares

/-! A pool whose balances are equal. Every rounding of a Newton step from their total can be
followed there: each division of the product term takes one from it, and the step stays where
it is. So the invariant is the total, the ideal balances are the real ones and cost no fee, and
shares are priced in proportion. -/

namespace Liquidity.Stable
set_option autoImplicit false

open Outcome

variable {s : Shape} {n k : Nat} {x y d p leverage ampPrecision supply fee : Int}

theorem absDiff_self (a : Int) : Checked.absDiff a a = 0 := by simp [Checked.absDiff]

section Invariant

theorem replicate_pos (hx : 0 < x) : ∀ b ∈ List.replicate n x, 0 < b := by
  intro b hb
  rwa [List.eq_of_mem_replicate hb]

theorem total_replicate (n : Nat) (x : Int) : total (List.replicate n x) = n * x := by
  rw [total_eq_sum, List.sum_replicate, nsmul_eq_mul]

theorem mul_div_succ (hp : 1 ≤ p) (hpd : p ≤ d) : p * d / (d + 1) = p - 1 := by
  have hsplit : p * d = d + 1 - p + (p - 1) * (d + 1) := by ring
  rw [hsplit, Int.add_mul_ediv_right _ _ (by omega), Int.ediv_eq_zero_of_lt (by omega) (by omega)]
  omega

theorem foldl_div_replicate (hd : x * n = d) (hp : p ≤ d) (hk : k ≤ p) :
    (List.replicate k x).foldl (fun p b => p * d / (b * (n : Int) + 1)) p = p - k := by
  induction k generalizing p with
  | zero => simp
  | succ k ih =>
    push_cast at hk
    rw [List.replicate_succ, List.foldl_cons, hd, mul_div_succ (by omega) hp,
      ih (by omega) (by omega)]
    push_cast
    omega

theorem term_replicate (hx : 1 ≤ x) : term (List.replicate n x) (n * x) = n * x - n := by
  have hn : (n : Int) ≤ n * x := le_mul_of_one_le_right (Int.natCast_nonneg n) hx
  unfold term
  rw [List.length_replicate]
  exact foldl_div_replicate (Int.mul_comm x n) (Int.le_refl _) hn

/-- The divisor of the step is the factor above it, less what the divisions took. The total is
kept as long as that is less than a whole. -/
theorem newtonStep_replicate (ha : 0 < ampPrecision) (hl : ampPrecision ≤ leverage) (hn : 0 < n)
    (hx : n + 2 ≤ x) :
    newtonStep leverage ampPrecision (List.replicate n x) (n * x) = .ok (n * x) := by
  have hx0 : 0 < x := by omega
  have hfactor : (n : Int) * x ≤ leverage * (n * x) / ampPrecision := by
    rw [Int.le_ediv_iff_mul_le ha, Int.mul_comm]
    exact Int.mul_le_mul_of_nonneg_right hl (by positivity)
  have hslope : (leverage - ampPrecision) * (n * x) / ampPrecision =
      leverage * (n * x) / ampPrecision - n * x := by
    rw [Int.sub_mul, Int.sub_mul_ediv_left _ _ ha.ne']
  have hspare : 0 < (n : Int) * (x - n - 1) := Int.mul_pos (by omega) (by omega)
  rw [newtonStep_eq (replicate_pos hx0) ha hl, total_replicate, term_replicate (by omega),
    List.length_replicate, hslope]
  generalize leverage * (n * x) / ampPrecision = weighted at hfactor ⊢
  have hden : weighted - n * x + (n * x - n) * ((n : Int) + 1) =
      weighted + (n * x - n) * n - n := by ring
  have hroom : (n : Int) * (n * x) < weighted + (n * x - n) * n - n := by
    have : (n : Int) * (x - n - 1) = n * x - (n * n + n) := by ring
    have : ((n : Int) * x - n) * n = n * (n * x) - n * n := by ring
    omega
  have hdpos : 0 < weighted + (n * x - n) * (n : Int) - n :=
    lt_of_le_of_lt (by positivity) hroom
  rw [hden]
  refine Checked.div_eq_ok.mpr ⟨hdpos.ne', ?_⟩
  have hsplit : (weighted + (n * x - n) * n) * (n * x) =
      (n : Int) * (n * x) + n * x * (weighted + (n * x - n) * n - n) := by ring
  rw [Int.fdiv_eq_ediv_of_nonneg _ hdpos.le, hsplit, Int.add_mul_ediv_right _ _ hdpos.ne',
    Int.ediv_eq_zero_of_lt (by positivity) hroom, Int.zero_add]

theorem newton_replicate (ha : 0 < ampPrecision) (hl : ampPrecision ≤ leverage) (hn : 0 < n)
    (hx : n + 2 ≤ x) (steps : Nat) :
    newton leverage ampPrecision (List.replicate n x) steps (n * x) = .ok (n * x) := by
  cases steps with
  | zero => rfl
  | succ steps =>
    have hstill : Checked.absDiff (n * x) (n * x) ≤ 1 := by rw [absDiff_self]; decide
    unfold newton
    rw [newtonStep_replicate ha hl hn hx, ok_bind, if_pos hstill]
    rfl

theorem invariant_replicate (ha : 0 < s.ampPrecision) (hl : s.ampPrecision ≤ s.amp * n)
    (hn : 2 ≤ n) (hx : n + 2 ≤ x) :
    invariant s (List.replicate n x) = Width.uint128.check (n * x) := by
  have hlen := List.length_replicate (n := n) (a := x)
  apply invariant_of_newton (by omega) (replicate_pos (by omega))
  rw [hlen, total_replicate]
  exact newton_replicate ha hl (by omega) hx _

theorem invariant_replicate_of_lt (ha : 0 < s.ampPrecision) (hl : s.ampPrecision ≤ s.amp * n)
    (hn : 2 ≤ n) (hx : n + 2 ≤ x) (hw : n * x < Width.uint128.limit) :
    invariant s (List.replicate n x) = .ok (n * x) := by
  rw [invariant_replicate ha hl hn hx]
  exact Width.check_eq_ok.mpr ⟨Int.mul_nonneg (by omega) (by omega), hw, rfl⟩

end Invariant

section Shares

theorem forall₂_replicate {α β : Type} {R : α → β → Prop} {a : α} {b : β} (h : R a b) :
    (n : Nat) → List.Forall₂ R (List.replicate n a) (List.replicate n b)
  | 0 => .nil
  | n + 1 => .cons h (forall₂_replicate h n)

/-- Balances that stay equal stay ideal. -/
theorem chargeImbalance_replicate (hn : 2 ≤ n) (hx : 0 < x) (hy : 0 ≤ y)
    (hxw : n * x < Width.uint128.limit) (hyw : n * y < Width.uint128.limit) :
    chargeImbalance (n * x) (n * y) (List.replicate n x) (List.replicate n y) fee =
      .ok (List.replicate n y) := by
  have hn0 : (2 : Int) ≤ n := by exact_mod_cast hn
  have hxn : x < Width.uint128.limit :=
    lt_of_le_of_lt (le_mul_of_one_le_left hx.le (by omega)) hxw
  have hideal : Checked.mulDiv x (n * y) (n * x) = .ok y := by
    have hswap : x * (n * y) = n * x * y := by ring
    rw [Ratio.mulDiv_words hx.le (by positivity) hxn hyw (by positivity), hswap,
      Int.mul_ediv_cancel_left _ (by positivity)]
  refine chargeImbalance_eq_ok.mpr ⟨_, imbalanceRate_eq_ok.mpr ⟨?_, rfl⟩, ?_⟩
  · rw [List.length_replicate]
    omega
  · have hfee : ∀ rate, feeOn rate (Checked.absDiff y y) = 0 := by
      intro rate
      rw [absDiff_self, feeOn, Int.zero_mul, Int.zero_fdiv]
    rw [List.zip_replicate']
    apply forall₂_replicate
    refine ⟨y, hideal, ?_, ?_⟩
    · rw [hfee]
      exact hy
    · rw [hfee, Int.sub_zero]

theorem part_of_total (hn : 0 < n) (a x : Int) :
    supply * (n * a) / (n * x) = supply * a / x := by
  have hleft : supply * (n * a) = n * (supply * a) := by ring
  rw [hleft, Int.mul_ediv_mul_of_pos _ _ (by omega)]

theorem mul_lt_limit_of_le {w : Width} {a : Int} (h : n * x < w.limit) (ha : a ≤ x) :
    n * a < w.limit :=
  lt_of_le_of_lt (Int.mul_le_mul_of_nonneg_left ha (Int.natCast_nonneg n)) h

theorem mint_replicate (ha : 0 < s.ampPrecision) (hl : s.ampPrecision ≤ s.amp * n) (hn : 2 ≤ n)
    (hx : n + 2 ≤ x) (hd : 1 ≤ d) (hw : n * (x + d) < Width.uint128.limit) (hs : 0 < supply)
    (hsw : supply < Width.uint128.limit) :
    mint s (List.replicate n x) (List.replicate n d) supply fee =
      if supply * d / x = 0 then .error .mintTooSmall
      else Width.uint128.check (supply * d / x) := by
  have hn0 : (2 : Int) ≤ n := by exact_mod_cast hn
  have hgrown : List.zipWith (· + ·) (List.replicate n x) (List.replicate n d) =
      List.replicate n (x + d) := List.zipWith_replicate' ..
  have hxw := mul_lt_limit_of_le hw (show x ≤ x + d by omega)
  have hgrows : (n : Int) * x < n * (x + d) := Int.mul_lt_mul_of_pos_left (by omega) (by omega)
  have hgrowth : (n : Int) * (x + d) - n * x = n * d := by ring
  have hratio := Ratio.mulDiv_words (b := n * d) (c := n * x) hs.le (by positivity) hsw
    (mul_lt_limit_of_le hw (by omega)) (Int.mul_pos (by omega) (by omega))
  rw [mint_eq ?_ ?_ ?_ ?_ ?_ (invariant_replicate_of_lt ha hl hn hx hxw) ?_]
  · rw [hgrown, invariant_replicate_of_lt ha hl hn (by omega) hw, ok_bind,
      if_neg (Int.not_le.mpr hgrows),
      chargeImbalance_replicate hn (by omega) (by omega) hxw hw, ok_bind,
      invariant_replicate_of_lt ha hl hn (by omega) hw, ok_bind]
    unfold mintOf
    rw [if_neg (Int.not_le.mpr hgrows), Checked.sub_eq_ok.mpr ⟨hgrows.le, rfl⟩, ok_bind, hgrowth,
      hratio, ok_bind, part_of_total (by omega)]
    rfl
  · rw [List.length_replicate]
    exact hn
  · rw [List.length_replicate, List.length_replicate]
  · exact hs.ne'
  · exact ⟨d, List.mem_replicate.mpr ⟨by omega, rfl⟩, by omega⟩
  · intro p hp
    rw [List.zip_replicate', List.mem_replicate] at hp
    rw [hp.2]
    omega
  · intro b hb
    rw [hgrown] at hb
    rw [List.eq_of_mem_replicate hb]
    exact ⟨by omega, lt_of_le_of_lt (le_mul_of_one_le_left (by omega) (by omega)) hw⟩

theorem burn_replicate {w : Int} (fee : Int) (ha : 0 < s.ampPrecision)
    (hl : s.ampPrecision ≤ s.amp * n) (hn : 2 ≤ n) (hw : 1 ≤ w) (hwx : w ≤ x - n - 2)
    (hxw : n * x < Width.uint128.limit) (hs : 0 < supply) (hsw : supply < Width.uint128.limit) :
    burn s (List.replicate n x) (List.replicate n w) supply fee none =
        .ok (supply * w / x + 1) ∧ supply * w / x + 1 ≤ supply := by
  have hn0 : (2 : Int) ≤ n := by exact_mod_cast hn
  have hx0 : 0 < x := by omega
  have hleft : List.zipWith (· - ·) (List.replicate n x) (List.replicate n w) =
      List.replicate n (x - w) := List.zipWith_replicate' ..
  have hrest := mul_lt_limit_of_le hxw (show x - w ≤ x by omega)
  have hshrinks : (n : Int) * (x - w) ≤ n * x := Int.mul_le_mul_of_nonneg_left (by omega) (by omega)
  have hd0 : 0 < (n : Int) * x := Int.mul_pos (by omega) hx0
  have hd2 : 0 < (n : Int) * (x - w) := Int.mul_pos (by omega) (by omega)
  have hshrinkage : supply * ((n : Int) * x - n * (x - w)) / (n * x) = supply * w / x := by
    have hw : (n : Int) * x - n * (x - w) = n * w := by ring
    rw [hw, part_of_total (by omega)]
  obtain ⟨hpart0, -, hless⟩ := part_bounds hd0 hd2.le hshrinks hs
  have hpart := hless hd2.ne'
  rw [hshrinkage] at hpart0 hpart
  refine ⟨?_, hpart⟩
  rw [burn_eq ?_ ?_ ?_ ?_ ?_ (invariant_replicate_of_lt ha hl hn (by omega) hxw)]
  · rw [hleft, invariant_replicate_of_lt ha hl hn (by omega) hrest, ok_bind,
      chargeImbalance_replicate hn hx0 (by omega) hxw hrest, ok_bind,
      invariant_replicate_of_lt ha hl hn (by omega) hrest, ok_bind,
      burnOf_eq hd0 hxw hd2.le hshrinks hs hsw, hshrinkage,
      Width.check_eq_ok.mpr ⟨by omega, by omega, rfl⟩, ok_bind, if_neg (Int.not_lt.mpr hpart)]
    rfl
  · rw [List.length_replicate]
    exact hn
  · rw [List.length_replicate, List.length_replicate]
  · exact ⟨w, List.mem_replicate.mpr ⟨by omega, rfl⟩, by omega⟩
  · exact hs.ne'
  · intro p hp
    rw [List.zip_replicate', List.mem_replicate] at hp
    rw [hp.2]
    omega

theorem payout_replicate {share : Int} (hs : 0 < supply) (hsw : supply < Width.uint128.limit)
    (hx : 0 ≤ x) (hxw : x < Width.uint128.limit) (h0 : 0 ≤ share) (hle : share ≤ supply) :
    ConstantProduct.payout (List.replicate n x) supply share =
      .ok (List.replicate n (x * share / supply)) := by
  have hpart : x * share / supply ≤ x := by
    apply Int.ediv_le_of_le_mul hs
    exact Int.mul_le_mul_of_nonneg_left hle hx
  refine (ConstantProduct.payout_eq_ok hs.ne').mpr ⟨hle, forall₂_replicate ⟨?_, ?_, ?_⟩ n⟩
  · exact Ratio.mulDiv_words hx h0 hxw (by omega) hs
  · exact Int.ediv_nonneg (Int.mul_nonneg hx h0) hs.le
  · omega

/-- The share burned for a withdrawal is worth the withdrawal. -/
theorem le_part_of_burned {w : Int} (hs : 0 < supply) (hx : 0 < x) :
    w ≤ x * (supply * w / x + 1) / supply := by
  rw [Int.le_ediv_iff_mul_le hs]
  have hfloor := Int.lt_ediv_add_one_mul_self (supply * w) hx
  linarith

end Shares

/-- In a pool of equal balances the invariant is the total, a deposit of equal amounts mints
its part of the supply, and a withdrawal of equal amounts burns its part and one more, whatever
the fee. The shares that are burned would have paid for the withdrawal. -/
theorem balanced_exact (s : Shape) (n : Nat) (x fee : Int) (hn : 2 ≤ n) (ha : 1 ≤ s.ampPrecision)
    (hl : s.ampPrecision ≤ s.amp * n) (hx : n + 2 ≤ x) :
    (n * x < Width.uint128.limit → invariant s (List.replicate n x) = .ok (n * x)) ∧
    (∀ d supply, 1 ≤ d → n * (x + d) < Width.uint128.limit → 0 < supply →
      supply < Width.uint128.limit →
      mint s (List.replicate n x) (List.replicate n d) supply fee =
        if supply * d / x = 0 then .error .mintTooSmall
        else if supply * d / x < Width.uint128.limit then .ok (supply * d / x)
        else .error (.oversizedWord .uint128 (supply * d / x))) ∧
    ∀ w supply, 1 ≤ w → w ≤ x - n - 2 → n * x < Width.uint128.limit → 1 ≤ supply →
      supply < Width.uint128.limit →
      burn s (List.replicate n x) (List.replicate n w) supply fee none =
        .ok (supply * w / x + 1) ∧ supply * w / x + 1 ≤ supply ∧
      ∃ paid, ConstantProduct.payout (List.replicate n x) supply (supply * w / x + 1) =
        .ok (List.replicate n paid) ∧ w ≤ paid := by
  refine ⟨invariant_replicate_of_lt ha hl hn hx, ?_, ?_⟩
  · intro d supply hd hw hs hsw
    have h0 : 0 ≤ supply * d / x :=
      Int.ediv_nonneg (Int.mul_nonneg hs.le (by omega)) (by omega)
    rw [mint_replicate ha hl hn hx hd hw hs hsw, Ratio.check_of_nonneg h0]
  · intro w supply hw hwx hxw hs hsw
    obtain ⟨hburn, hle⟩ := burn_replicate fee ha hl hn hw hwx hxw hs hsw
    have hx0 : 0 < x := by omega
    have h0 : 0 ≤ supply * w / x := Int.ediv_nonneg (Int.mul_nonneg (by omega) (by omega)) hx0.le
    have hx1 : x < Width.uint128.limit :=
      lt_of_le_of_lt (le_mul_of_one_le_left hx0.le (by omega)) hxw
    exact ⟨hburn, hle, _, payout_replicate hs hsw hx0.le hx1 (by omega) hle,
      le_part_of_burned hs hx0⟩

/-- Three assets at the least balances for it, and with enough for a withdrawal. -/
theorem balanced_exact_triple :
    invariant (.usual (34 : Int)) [(5 : Int), 5, 5] = .ok 15 ∧
    mint (.usual (34 : Int)) [(5 : Int), 5, 5] [2, 2, 2] 7 (5000000 : Int) = .ok 2 ∧
    mint (.usual (34 : Int)) [(5 : Int), 5, 5] [2, 2, 2] 2 (5000000 : Int) =
      .error .mintTooSmall ∧
    burn (.usual (34 : Int)) [(8 : Int), 8, 8] [3, 3, 3] 7 (5000000 : Int) = .ok 3 ∧
    ∃ paid, ConstantProduct.payout [(8 : Int), 8, 8] 7 3 = .ok [paid, paid, paid] ∧ 3 ≤ paid := by
  obtain ⟨hinv, hmint, -⟩ := balanced_exact (.usual 34) 3 5 5000000 (by decide) (by decide)
    (by decide) (by decide)
  obtain ⟨-, -, hburn⟩ := balanced_exact (.usual 34) 3 8 5000000 (by decide) (by decide)
    (by decide) (by decide)
  obtain ⟨hburned, -, hpaid⟩ :=
    hburn 3 7 (by decide) (by decide) (by decide) (by decide) (by decide)
  exact ⟨hinv (by decide), hmint 2 7 (by decide) (by decide) (by decide) (by decide),
    hmint 2 2 (by decide) (by decide) (by decide) (by decide), hburned, hpaid⟩

end Liquidity.Stable
