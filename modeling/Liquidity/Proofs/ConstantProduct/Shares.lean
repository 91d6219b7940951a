import Liquidity.ConstantProduct
import Liquidity.Proofs.Numeric.Ratio
import Liquidity.Proofs.Numeric.Root

/-! When a pair mints shares and pays for them, and how many. Callers read these lemmas and
leave the definitions of minting and paying out closed. -/

namespace Liquidity.ConstantProduct
set_option autoImplicit false

open Outcome

variable {d0 d1 r0 r1 supply floor share : Int}

theorem sides_eq (d0 d1 : Int) :
    sides d0 d1 = if d0 = 0 ∨ d1 = 0 then .error .oneSidedPair else .ok (d0, d1) := by
  simp [sides]

theorem mint_first (d0 d1 r0 r1 floor : Int) : mint [d0, d1] [r0, r1] 0 floor =
    if d0 = 0 ∨ d1 = 0 then .error .oneSidedPair
    else Root.sqrt (d0 * d1) >>= fun share =>
      if share < floor then .error (.mintBelowFloor share floor) else Width.uint128.check share := by
  simp only [mint, sides_eq]
  split
  · rfl
  · simp

theorem mint_later (hs : supply ≠ 0) (d0 d1 r0 r1 floor : Int) :
    mint [d0, d1] [r0, r1] supply floor =
    if d0 = 0 ∨ d1 = 0 then .error .oneSidedPair
    else Checked.mulDiv d0 supply r0 >>= fun share0 =>
      Checked.mulDiv d1 supply r1 >>= fun share1 => Width.uint128.check (min share0 share1) := by
  simp only [mint, sides_eq]
  split
  · rfl
  · simp [hs]

theorem mint_first_eq_ok : mint [d0, d1] [r0, r1] 0 floor = .ok share ↔
    d0 ≠ 0 ∧ d1 ≠ 0 ∧ Root.sqrt (d0 * d1) = .ok share ∧ floor ≤ share ∧
      share < Width.uint128.limit := by
  rw [mint_first, refused_eq_ok, bind_eq_ok]
  simp only [refused_eq_ok, Width.check_eq_ok, not_or, not_lt]
  constructor
  · rintro ⟨⟨h0, h1⟩, root, hroot, hfloor, _, hw, rfl⟩
    exact ⟨h0, h1, hroot, hfloor, hw⟩
  · rintro ⟨h0, h1, hroot, hfloor, hw⟩
    exact ⟨⟨h0, h1⟩, share, hroot, hfloor, (Root.sqrt_eq_ok.mp hroot).2.2.1, hw, rfl⟩

theorem mint_later_eq_ok (hs : supply ≠ 0) : mint [d0, d1] [r0, r1] supply floor = .ok share ↔
    d0 ≠ 0 ∧ d1 ≠ 0 ∧ ∃ share0 share1, Checked.mulDiv d0 supply r0 = .ok share0 ∧
      Checked.mulDiv d1 supply r1 = .ok share1 ∧ 0 ≤ share ∧ share < Width.uint128.limit ∧
      share = min share0 share1 := by
  rw [mint_later hs, refused_eq_ok, bind_eq_ok]
  simp only [bind_eq_ok, Width.check_eq_ok, not_or]
  constructor
  · rintro ⟨⟨h0, h1⟩, share0, hs0, share1, hs1, hn, hw, rfl⟩
    exact ⟨h0, h1, share0, share1, hs0, hs1, hn, hw, rfl⟩
  · rintro ⟨h0, h1, share0, share1, hs0, hs1, hn, hw, rfl⟩
    exact ⟨⟨h0, h1⟩, share0, hs0, share1, hs1, hn, hw, rfl⟩

/-- A minted share is backed on both sides, with the odds and ends left to the pool. -/
theorem mint_bounds (hs : 0 < supply) (h0 : 0 ≤ r0) (h1 : 0 ≤ r1)
    (h : mint [d0, d1] [r0, r1] supply floor = .ok share) :
    0 < r0 ∧ 0 < r1 ∧ 0 < d0 ∧ 0 < d1 ∧ 0 ≤ share ∧
      share * r0 ≤ d0 * supply ∧ share * r1 ≤ d1 * supply := by
  obtain ⟨hd0, hd1, share0, share1, hs0, hs1, hn, _, rfl⟩ :=
    (mint_later_eq_ok (Int.ne_of_gt hs)).mp h
  have hr0 : 0 < r0 := by have := Ratio.divisor_ne_zero hs0; omega
  have hr1 : 0 < r1 := by have := Ratio.divisor_ne_zero hs1; omega
  have hp0 := nonneg_of_mul_nonneg_left (Ratio.product_nonneg hs0) hs
  have hp1 := nonneg_of_mul_nonneg_left (Ratio.product_nonneg hs1) hs
  refine ⟨hr0, hr1, by omega, by omega, hn, ?_, ?_⟩
  · exact (Int.mul_le_mul_of_nonneg_right (Int.min_le_left _ _) h0).trans
      (Ratio.quotient_mul_le hr0 hs0)
  · exact (Int.mul_le_mul_of_nonneg_right (Int.min_le_right _ _) h1).trans
      (Ratio.quotient_mul_le hr1 hs1)

/-- A mint is the most that is backed on both sides. -/
theorem le_mint {n : Int} (hs : 0 < supply) (h0 : 0 < r0) (h1 : 0 < r1)
    (h : mint [d0, d1] [r0, r1] supply floor = .ok share)
    (hn0 : n * r0 ≤ d0 * supply) (hn1 : n * r1 ≤ d1 * supply) : n ≤ share := by
  obtain ⟨_, _, share0, share1, hs0, hs1, _, _, rfl⟩ := (mint_later_eq_ok (Int.ne_of_gt hs)).mp h
  exact le_min (Ratio.le_quotient h0 hs0 hn0) (Ratio.le_quotient h1 hs1 hn1)

/-- With shares to be divided by, only an empty reserve makes a mint divide by zero. -/
theorem mint_ne_divisionByZero (h : supply ≠ 0 → r0 ≠ 0 ∧ r1 ≠ 0) (x : Json) :
    mint [d0, d1] [r0, r1] supply floor ≠ .error (.divisionByZero x) := by
  intro hm
  by_cases hs : supply = 0
  · subst hs
    rw [mint_first] at hm
    split at hm
    · simp at hm
    · rcases bind_eq_error.mp hm with hroot | ⟨share, _, hshare⟩
      · exact Root.sqrt_ne_divisionByZero _ _ hroot
      · split at hshare
        · simp at hshare
        · exact Ratio.check_ne_divisionByZero _ _ _ hshare
  · obtain ⟨h0, h1⟩ := h hs
    rw [mint_later hs] at hm
    split at hm
    · simp at hm
    · rcases bind_eq_error.mp hm with hq | ⟨_, _, hm⟩
      · exact h0 (Ratio.divisor_eq_zero hq)
      · rcases bind_eq_error.mp hm with hq | ⟨_, _, hm⟩
        · exact h1 (Ratio.divisor_eq_zero hq)
        · exact Ratio.check_ne_divisionByZero _ _ _ hm

theorem payout_shared (hs : supply ≠ 0) (reserves : List Int) (share : Int) :
    payout reserves supply share =
    if supply < share then .error (.insufficientShares share supply)
    else reserves.mapM fun r =>
      Checked.mulDiv r share supply >>= fun n => Width.uint128.check n := by
  simp [payout, hs]

theorem payout_eq_ok {reserves paid : List Int} (hs : supply ≠ 0) :
    payout reserves supply share = .ok paid ↔ share ≤ supply ∧
      List.Forall₂ (fun r a => Checked.mulDiv r share supply = .ok a ∧
        0 ≤ a ∧ a < Width.uint128.limit) reserves paid := by
  rw [payout_shared hs, refused_eq_ok, mapM_eq_ok, not_lt]
  simp only [bind_eq_ok, Width.check_eq_ok]
  refine and_congr_right fun _ => ?_
  constructor
  · intro hf
    refine hf.imp ?_
    rintro r a ⟨n, hn, h0, hw, rfl⟩
    exact ⟨hn, h0, hw⟩
  · intro hf
    refine hf.imp ?_
    rintro r a ⟨hn, h0, hw⟩
    exact ⟨a, hn, h0, hw, rfl⟩

theorem payout_ne_divisionByZero (reserves : List Int) (x : Json) :
    payout reserves supply share ≠ .error (.divisionByZero x) := by
  intro hp
  by_cases hs : supply = 0
  · simp [payout, hs] at hp
  · rw [payout_shared hs] at hp
    split at hp
    · simp at hp
    · obtain ⟨r, _, hr⟩ := exists_of_mapM_eq_error hp
      rcases bind_eq_error.mp hr with hq | ⟨n, _, hn⟩
      · exact hs (Ratio.divisor_eq_zero hq)
      · exact Ratio.check_ne_divisionByZero _ _ _ hn

/-- What a pair pays for a share is at most its part of each reserve. -/
theorem payout_bounds {paid : List Int} (hs : 0 < supply)
    (h : payout [r0, r1] supply share = .ok paid) :
    share ≤ supply ∧ ∃ a0 a1, paid = [a0, a1] ∧ 0 ≤ a0 ∧ 0 ≤ a1 ∧
      Checked.mulDiv r0 share supply = .ok a0 ∧ Checked.mulDiv r1 share supply = .ok a1 := by
  obtain ⟨hle, hf⟩ := (payout_eq_ok (Int.ne_of_gt hs)).mp h
  rcases hf with _ | ⟨⟨ha0, h0, _⟩, _ | ⟨⟨ha1, h1, _⟩, _ | _⟩⟩
  exact ⟨hle, _, _, rfl, h0, h1, ha0, ha1⟩

end Liquidity.ConstantProduct
