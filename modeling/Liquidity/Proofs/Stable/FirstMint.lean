import Mathlib.Algebra.BigOperators.Ring.List
import Mathlib.Algebra.Order.BigOperators.GroupWithZero.List
import Liquidity.Stable.Shares
import Liquidity.Proofs.Numeric.Root
import Liquidity.Proofs.Precision

/-! Shares minted by the first deposit. The root is floored and then brought to the decimals of
the shares, which floors once more; the two floors are one, at the geometric mean itself. -/

namespace Liquidity

namespace Root
set_option autoImplicit false

variable {n v r k s : Nat}

theorem IsFloor.pow_le_iff (h : IsFloor n v r) : k ^ n ≤ v ↔ k ≤ r :=
  ⟨h.le, fun hk => (Nat.pow_le_pow_left hk n).trans h.1⟩

/-- The greatest number of whole units whose power fits is the root in units, floored. -/
theorem IsFloor.units_iff (h : IsFloor n v r) (hk : 0 < k) :
    (s * k) ^ n ≤ v ∧ v < ((s + 1) * k) ^ n ↔ s = r / k := by
  rw [h.pow_le_iff, ← Nat.not_le, h.pow_le_iff, Nat.not_le, ← Nat.le_div_iff_mul_le hk,
    ← Nat.div_lt_iff_lt_mul hk]
  omega

/-- Of two factors or more, the root of what fits a word of 256 bits fits one of 128. -/
theorem IsFloor.lt_word (h : IsFloor n v r) (hn : 2 ≤ n) (hv : v < 2 ^ 256) : r < 2 ^ 128 := by
  by_contra hr
  have hsquare : (2 ^ 128) ^ 2 ≤ r ^ n := by
    calc (2 ^ 128) ^ 2 ≤ r ^ 2 := Nat.pow_le_pow_left (Nat.not_lt.mp hr) 2
      _ ≤ r ^ n := Nat.pow_le_pow_right (by omega) hn
  have := h.1
  omega

end Root

namespace Stable
set_option autoImplicit false

open Outcome Operand

variable {deposits : List Int} {n v p q s : Nat} {floor : Int}

/-- Shares of `q` decimals as the geometric mean of `n` amounts of `p` decimals with the product
`v`. With fewer decimals they are the mean in units of theirs, floored; with more, the floored
mean in units of the amounts. -/
def IsMean (n v p q s : Nat) : Prop :=
  if q ≤ p then (s * 10 ^ (p - q)) ^ n ≤ v ∧ v < ((s + 1) * 10 ^ (p - q)) ^ n
  else ∃ r, r ^ n ≤ v ∧ v < (r + 1) ^ n ∧ s = r * 10 ^ (q - p)

/-- The root, brought to the decimals of the shares. -/
def mean (n v p q : Nat) : Nat :=
  if q ≤ p then Root.floor n v / 10 ^ (p - q) else Root.floor n v * 10 ^ (q - p)

theorem isMean_iff (hn : 0 < n) : IsMean n v p q s ↔ s = mean n v p q := by
  have hroot := Root.floor_isFloor hn v
  unfold IsMean mean
  split
  · exact hroot.units_iff (Nat.pow_pos (by decide))
  · constructor
    · rintro ⟨r, hle, hlt, rfl⟩
      rw [hroot.unique ⟨hle, hlt⟩]
    · rintro rfl
      exact ⟨_, hroot.1, hroot.2, rfl⟩

theorem mean_lt_word (hn : 2 ≤ n) (hv : v < 2 ^ 256) (hq : q ≤ p) : mean n v p q < 2 ^ 128 := by
  rw [mean, if_pos hq]
  exact (Nat.div_le_self _ _).trans_lt ((Root.floor_isFloor (by omega) v).lt_word hn hv)

theorem adjustPrecision_root : adjustPrecision (Root.floor n v : Int) (p : Int) (q : Int) =
    Width.uint128.check (mean n v p q : Int) := by
  unfold mean
  split
  · rw [adjustPrecision_down (by omega) (by omega), unitsPer_natCast, ← Int.natCast_ediv]
  · rw [adjustPrecision_up (by omega) (by omega), unitsPer_natCast, ← Int.natCast_mul]

theorem foldlM_mul (start : Int) (deposits : List Int) :
    deposits.foldlM Checked.mul start = .ok (start * deposits.prod) := by
  induction deposits generalizing start with
  | nil => simp
  | cons d ds ih => rw [List.foldlM_cons, Checked.mul_int, ok_bind, ih, List.prod_cons, mul_assoc]

/-- With something of every asset, the first mint fails by the width of the product, by that of
the shares or by being too small, and in this order. -/
theorem initialMint_eq (hn : 2 ≤ deposits.length) (hd : ∀ d ∈ deposits, 0 < d) :
    initialMint deposits (p : Int) (q : Int) floor =
      Width.uint256.check deposits.prod >>= fun v =>
        Width.uint128.check (mean deposits.length v.toNat p q) >>= fun share =>
          if share ≤ floor then .error (.mintAtFloor share floor) else .ok share := by
  have hfull : deposits.any isZero = false := by
    rw [List.any_eq_false]
    intro d hmem
    simpa using (hd d hmem).ne'
  unfold initialMint
  simp only [Nat.not_lt.mpr hn, hfull, if_false, foldlM_mul, one_mul, ok_bind, Root.root_int,
    if_neg (show ¬ (deposits.length : Int) < 1 by omega), Int.toNat_natCast, Bool.false_eq_true]
  cases Width.uint256.check deposits.prod with
  | error f => rfl
  | ok v =>
    rw [Except.map, ok_bind, ok_bind, adjustPrecision_root]
    refine bind_congr_ok fun share _ => ?_
    simp only [atMost_int, ok_bind, decide_eq_true_eq, toJson_int]
    rfl

theorem told_initialMint_wide (hn : 2 ≤ deposits.length) (hd : ∀ d ∈ deposits, 0 < d)
    (hwide : Width.uint256.limit ≤ deposits.prod) :
    told (initialMint deposits (p : Int) (q : Int) floor) =
      .error (if Text.isOverlong deposits.prod then .figureTooLong
        else .oversizedWord .uint256 deposits.prod) := by
  have hprod : 0 < deposits.prod := List.prod_pos hd
  rw [initialMint_eq hn hd, Ratio.check_of_nonneg hprod.le, if_neg (Int.not_lt.mpr hwide),
    error_bind, told_error, Fault.reported_oversizedWord]

/-- The first mint is the geometric mean of the deposits, exactly floored. It fails where their
product is too large for its word, where so many shares are, and where they are no more than the
pool's floor, and a caller is told which unless a number in that text is too long. -/
theorem first_mint_exact (deposits : List Int) (p q : Nat) (floor : Int)
    (hn : 2 ≤ deposits.length) (hd : ∀ d ∈ deposits, 0 < d) :
    (Width.uint256.limit ≤ deposits.prod → told (initialMint deposits (p : Int) (q : Int) floor) =
      .error (if Text.isOverlong deposits.prod then .figureTooLong
        else .oversizedWord .uint256 deposits.prod)) ∧
    (deposits.prod < Width.uint256.limit → ∃ s : Nat,
      (∀ t, IsMean deposits.length deposits.prod.toNat p q t ↔ t = s) ∧
      (q ≤ p → (s : Int) < Width.uint128.limit) ∧
      told (initialMint deposits (p : Int) (q : Int) floor) =
        if (s : Int) < Width.uint128.limit then
          if (s : Int) ≤ floor then
            .error (if Text.isOverlong floor then .numeralTooLong else .mintAtFloor s floor)
          else .ok (s : Int)
        else .error (if Text.isOverlong s then .figureTooLong else .oversizedWord .uint128 s)) := by
  refine ⟨told_initialMint_wide hn hd, fun hfits => ?_⟩
  have hprod : 0 < deposits.prod := List.prod_pos hd
  refine ⟨mean deposits.length deposits.prod.toNat p q, fun t => isMean_iff (by omega), ?_, ?_⟩
  · intro hq
    have hv : deposits.prod.toNat < 2 ^ 256 := by
      rw [Width.limit_uint256] at hfits
      omega
    have hlt := mean_lt_word hn hv hq
    rw [Width.limit_uint128]
    omega
  · rw [initialMint_eq hn hd, Ratio.check_of_nonneg hprod.le, if_pos hfits, ok_bind,
      Ratio.check_of_nonneg (Int.natCast_nonneg _)]
    generalize mean deposits.length deposits.prod.toNat p q = s
    by_cases hs : (s : Int) < Width.uint128.limit
    · rw [if_pos hs, if_pos hs, ok_bind]
      by_cases hfloor : (s : Int) ≤ floor
      · rw [if_pos hfloor, if_pos hfloor, told_error, Fault.reported_of_pair rfl rfl,
          Text.isOverlong_of_word (Int.natCast_nonneg s) hs, Bool.false_or]
      · rw [if_neg hfloor, if_neg hfloor, told_ok]
    · rw [if_neg hs, if_neg hs, error_bind, told_error, Fault.reported_oversizedWord]

/-- Three deposits whose product is one short of the cube of fifty thousand, for shares of one
decimal less and of one more. -/
theorem first_mint_exact_short :
    told (initialMint [(43111 : Int), 49999, 57991] ((6 : Nat) : Int) ((5 : Nat) : Int)
        (1000 : Int)) = .ok 4999 ∧
      told (initialMint [(43111 : Int), 49999, 57991] ((6 : Nat) : Int) ((7 : Nat) : Int)
        (1000 : Int)) = .ok 499990 := by
  have hmint : ∀ q s : Nat, IsMean 3 124999999999999 6 q s → (s : Int) < Width.uint128.limit →
      ¬ (s : Int) ≤ 1000 →
      told (initialMint [(43111 : Int), 49999, 57991] ((6 : Nat) : Int) (q : Int) (1000 : Int)) =
        .ok (s : Int) := by
    intro q s hs hfits habove
    obtain ⟨-, h⟩ := first_mint_exact [43111, 49999, 57991] 6 q 1000 (by decide) (by decide)
    obtain ⟨t, huniq, -, hmint⟩ := h (by decide)
    obtain rfl := (huniq s).mp hs
    rw [hmint, if_pos hfits, if_neg habove]
  have hdown : IsMean 3 124999999999999 6 5 4999 := by
    rw [IsMean, if_pos (by decide)]
    decide
  have hup : IsMean 3 124999999999999 6 7 499990 := by
    rw [IsMean, if_neg (by decide)]
    exact ⟨49999, by decide, by decide, rfl⟩
  exact ⟨hmint 5 4999 hdown (by decide) (by decide), hmint 7 499990 hup (by decide) (by decide)⟩

/-- The product of so many large deposits cannot be written, and no caller is told that it is too
large. -/
theorem first_mint_misreported :
    (∀ d ∈ List.replicate 120 (Text.tenTo 36 : Int), 0 < d ∧ d < Width.uint128.limit) ∧
      Width.uint256.limit ≤ (List.replicate 120 (Text.tenTo 36 : Int)).prod ∧
      told (initialMint (List.replicate 120 (Text.tenTo 36 : Int)) ((6 : Nat) : Int)
        ((6 : Nat) : Int) (1000 : Int)) = .error .figureTooLong ∧
      Fault.figureTooLong.kind = .badValue := by
  have hwords : ∀ d ∈ List.replicate 120 (Text.tenTo 36 : Int),
      0 < d ∧ d < Width.uint128.limit := by
    intro d hd
    obtain rfl := List.eq_of_mem_replicate hd
    decide +kernel
  have hwide : Width.uint256.limit ≤ (List.replicate 120 (Text.tenTo 36 : Int)).prod := by
    decide +kernel
  refine ⟨hwords, hwide, ?_, rfl⟩
  rw [told_initialMint_wide (by decide) (fun d hd => (hwords d hd).1) hwide, if_pos]
  decide +kernel

end Stable
end Liquidity
