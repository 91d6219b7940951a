import Liquidity.Proofs.ConstantProduct.Shares
import Liquidity.Proofs.Stable.Shares

/-! Products are checked for 256 bits before they are divided or a root of them is taken. Amounts
have 128 bits, and so has every invariant, so that the check lets all products of deposits and
withdrawals pass. -/

namespace Liquidity
set_option autoImplicit false

open Outcome

/-- A product that does not fit 256 bits. Nothing else is checked for that width. -/
def Fault.IsWide : Fault → Prop
  | .negativeWord .uint256 _ | .oversizedWord .uint256 _ => True
  | _ => False

@[simp] theorem Width.holds_iff {w : Width} {n : Int} : w.holds n = true ↔ 0 ≤ n ∧ n < w.limit := by
  simp [Width.holds]

/-- Amounts as deposits, reserves and balances state them: each fits its word. -/
def Words (amounts : List Int) : Prop := ∀ a ∈ amounts, Width.uint128.holds a

instance (amounts : List Int) : Decidable (Words amounts) :=
  inferInstanceAs (Decidable (∀ a ∈ amounts, _))

section Arithmetic

variable {a b : Int}

theorem uint128_narrow (n : Int) : Avoids Fault.IsWide (Width.uint128.check n) := by
  unfold Width.check
  exact .refused id fun _ => .refused id fun _ => avoids_ok n

theorem Checked.div_narrow (a b : Int) : Avoids Fault.IsWide (Checked.div a b) := by
  rw [Checked.div_int]
  exact .refused id fun _ => avoids_ok _

theorem Checked.sub_narrow (a b : Int) : Avoids Fault.IsWide (Checked.sub a b) := by
  rw [Checked.sub_int]
  exact .refused id fun _ => avoids_ok _

theorem Checked.sub_holds {n : Int} (ha : Width.uint128.holds a) (hb : Width.uint128.holds b)
    (h : Checked.sub a b = .ok n) : Width.uint128.holds n := by
  obtain ⟨hle, rfl⟩ := Checked.sub_eq_ok.mp h
  rw [Width.holds_iff] at *
  omega

theorem Width.check_product (ha : Width.uint128.holds a) (hb : Width.uint128.holds b) :
    Width.uint256.check (a * b) = .ok (a * b) := by
  rw [Width.holds_iff] at ha hb
  exact Width.check_eq_ok.mpr
    ⟨Int.mul_nonneg ha.1 hb.1, Ratio.product_lt ha.1 hb.1 ha.2 hb.2, rfl⟩

theorem Checked.mulDiv_narrow (ha : Width.uint128.holds a) (hb : Width.uint128.holds b) (c : Int) :
    Avoids Fault.IsWide (Checked.mulDiv a b c) := by
  rw [Checked.mulDiv_int, Width.check_product ha hb, ok_bind]
  exact Checked.div_narrow _ c

theorem Root.sqrt_narrow (ha : Width.uint128.holds a) (hb : Width.uint128.holds b) :
    Avoids Fault.IsWide (Root.sqrt (a * b)) := by
  unfold Root.sqrt
  rw [Width.check_product ha hb]
  exact avoids_ok _

end Arithmetic

namespace ConstantProduct

variable {d0 d1 r0 r1 supply share : Int} {deposits reserves : List Int}

theorem mint_narrow (hd : Words deposits) (hs : Width.uint128.holds supply) (floor : Int) :
    Avoids Fault.IsWide (mint deposits reserves supply floor) := by
  unfold mint
  split
  · rename_i d0 d1 r0 r1
    simp only [Words, List.forall_mem_cons] at hd
    obtain ⟨h0, h1, -⟩ := hd
    rw [sides_eq]
    refine Avoids.bind (.refused id fun _ => avoids_ok _) fun sides hsides => ?_
    obtain ⟨-, ⟨⟩⟩ := refused_eq_ok.mp hsides
    simp only [Operand.less_int, ok_bind, throw_eq, error_bind]
    split
    · refine (Root.sqrt_narrow h0 h1).bind fun share _ => ?_
      exact .refused id fun _ => uint128_narrow share
    · refine (Checked.mulDiv_narrow h0 hs r0).bind fun share0 _ => ?_
      refine (Checked.mulDiv_narrow h1 hs r1).bind fun share1 _ => ?_
      exact uint128_narrow _
  · exact avoids_error.mpr id

theorem payout_narrow (hr : Words reserves) (hshare : Width.uint128.holds share) (supply : Int) :
    Avoids Fault.IsWide (payout reserves supply share) := by
  by_cases hs : supply = 0
  · rw [hs]
    exact avoids_ok _
  · rw [payout_shared hs]
    refine .refused id fun _ => .mapM fun r hmem => ?_
    exact (Checked.mulDiv_narrow (hr r hmem) hshare supply).bind fun n _ => uint128_narrow n

theorem forall₂_map_self {R : Int → Int → Prop} {f : Int → Int} (h : ∀ r ∈ reserves, R r (f r)) :
    List.Forall₂ R reserves (reserves.map f) :=
  List.forall₂_map_right_iff.mpr (List.forall₂_same.mpr h)

/-- Reserves are paid out in full at most, so that every part of them is an amount again. -/
theorem payout_words (hr : Words reserves) (hs : Width.uint128.holds supply)
    (hshare : Width.uint128.holds share) (hle : share ≤ supply) :
    ∃ paid, payout reserves supply share = .ok paid ∧
      List.Forall₂ (fun r a => a ≤ r ∧ a = if supply = 0 then 0 else r * share / supply)
        reserves paid := by
  by_cases h0 : supply = 0
  · refine ⟨reserves.map fun _ => 0, by rw [h0]; rfl, forall₂_map_self fun r hmem => ?_⟩
    rw [if_pos h0]
    exact ⟨(Width.holds_iff.mp (hr r hmem)).1, rfl⟩
  · simp only [Words, Width.holds_iff] at hr hs hshare
    have hpos : 0 < supply := by omega
    have hpart : ∀ r, 0 ≤ r → r * share / supply ≤ r := by
      intro r h
      apply Int.ediv_le_of_le_mul hpos
      exact Int.mul_le_mul_of_nonneg_left hle h
    refine ⟨reserves.map fun r => r * share / supply, (payout_eq_ok h0).mpr ⟨hle, ?_⟩, ?_⟩
    · apply forall₂_map_self
      intro r hmem
      obtain ⟨h, hw⟩ := hr r hmem
      exact ⟨Ratio.mulDiv_words h hshare.1 hw hshare.2 hpos,
        Int.ediv_nonneg (Int.mul_nonneg h hshare.1) hpos.le, (hpart r h).trans_lt hw⟩
    · apply forall₂_map_self
      intro r hmem
      rw [if_neg h0]
      exact ⟨hpart r (hr r hmem).1, rfl⟩

theorem mint_words (hd0 : Width.uint128.holds d0) (hd1 : Width.uint128.holds d1)
    (hs : Width.uint128.holds supply) (h0 : 0 < d0) (h1 : 0 < d1) (hr0 : 0 < r0) (hr1 : 0 < r1)
    (hpos : 0 < supply) (floor : Int) : mint [d0, d1] [r0, r1] supply floor =
      if min (d0 * supply / r0) (d1 * supply / r1) < Width.uint128.limit then
        .ok (min (d0 * supply / r0) (d1 * supply / r1))
      else .error (.oversizedWord .uint128 (min (d0 * supply / r0) (d1 * supply / r1))) := by
  rw [Width.holds_iff] at hd0 hd1 hs
  have hq0 : 0 ≤ d0 * supply / r0 := Int.ediv_nonneg (Int.mul_nonneg h0.le hpos.le) hr0.le
  have hq1 : 0 ≤ d1 * supply / r1 := Int.ediv_nonneg (Int.mul_nonneg h1.le hpos.le) hr1.le
  rw [mint_later hpos.ne', if_neg (by omega), Ratio.mulDiv_words h0.le hpos.le hd0.2 hs.2 hr0,
    ok_bind, Ratio.mulDiv_words h1.le hpos.le hd1.2 hs.2 hr1, ok_bind,
    Ratio.check_of_nonneg (le_min hq0 hq1)]

end ConstantProduct

namespace Stable

variable {s : Shape} {balances old : List Int} {supply dAfter : Int}

theorem newtonStep_narrow (leverage ampPrecision : Int) (balances : List Int) (d : Int) :
    Avoids Fault.IsWide (newtonStep leverage ampPrecision balances d) := by
  unfold newtonStep
  refine (Avoids.foldlM (fun p b => Checked.div_narrow _ _) _ _).bind fun p _ => ?_
  refine (Checked.div_narrow _ _).bind fun weighted _ => ?_
  refine (Checked.sub_narrow _ _).bind fun slack _ => ?_
  refine (Checked.div_narrow _ _).bind fun slope _ => ?_
  exact Checked.div_narrow _ _

theorem newton_narrow (leverage ampPrecision : Int) (balances : List Int) (steps : Nat) (d : Int) :
    Avoids Fault.IsWide (newton leverage ampPrecision balances steps d) := by
  induction steps generalizing d with
  | zero => exact avoids_ok d
  | succ steps ih =>
    unfold newton
    refine (newtonStep_narrow _ _ _ _).bind fun d' _ => ?_
    split
    · exact avoids_ok d'
    · exact ih d'

theorem invariant_narrow (s : Shape) (balances : List Int) :
    Avoids Fault.IsWide (invariant s balances) := by
  unfold invariant
  simp only [throw_eq, error_bind, pure_eq, Operand.mapM_strict_int, Operand.strict_int,
    Operand.count_int, ok_bind]
  refine .refused id fun _ => ?_
  split
  · exact avoids_ok 0
  · exact (newton_narrow _ _ _ _ _).bind fun d _ => uint128_narrow d

theorem invariant_holds {d : Int} (h : invariant s balances = .ok d) : Width.uint128.holds d :=
  Width.holds_iff.mpr (invariant_bounds h)

theorem imbalanceRate_narrow (fee n : Int) : Avoids Fault.IsWide (imbalanceRate fee n) :=
  Checked.div_narrow _ _

theorem chargedBalance_narrow {o : Int} (ho : Width.uint128.holds o)
    (hd : Width.uint128.holds dAfter) (dBefore rate n : Int) (position : Nat) :
    Avoids Fault.IsWide (chargedBalance dBefore dAfter rate o n position) := by
  unfold chargedBalance
  simp only [throw_eq, error_bind]
  refine (Checked.mulDiv_narrow ho hd dBefore).bind fun ideal _ => ?_
  refine (Checked.div_narrow _ _).bind fun fee _ => ?_
  exact .refused id fun _ => Checked.sub_narrow _ _

theorem chargeImbalance_narrow (ho : Words old) (hd : Width.uint128.holds dAfter) (dBefore : Int)
    (new : List Int) (fee : Int) :
    Avoids Fault.IsWide (chargeImbalance dBefore dAfter old new fee) := by
  unfold chargeImbalance
  refine (imbalanceRate_narrow _ _).bind fun rate _ => .mapM ?_
  rintro ⟨⟨o, n⟩, i⟩ hmem
  have ho' := ho o (List.of_mem_zip (List.fst_mem_of_mem_zipIdx hmem)).1
  exact chargedBalance_narrow ho' hd dBefore rate n i

theorem checkCounts_narrow (balances amounts : List Int) :
    Avoids Fault.IsWide (checkCounts balances amounts) :=
  .refused id fun _ => .refused id fun _ => avoids_ok ()

theorem checkReserves_narrow (balances withdrawals : List Int) :
    Avoids Fault.IsWide (checkReserves balances withdrawals) :=
  .forM fun _ _ => .refused id fun _ => avoids_ok ()

theorem checkProvided_narrow (share : Int) (provided : Option Int) :
    Avoids Fault.IsWide (checkProvided share provided) := by
  cases provided with
  | none => exact avoids_ok ()
  | some m => exact .refused id fun _ => avoids_ok ()

theorem mint_narrow (hb : Words balances) (hs : Width.uint128.holds supply)
    (s : Shape) (deposits : List Int) (fee : Int) :
    Avoids Fault.IsWide (mint s balances deposits supply fee) := by
  unfold mint
  simp only [throw_eq, error_bind, Operand.mapM_strict_int, Operand.strict_int, ok_bind]
  refine (checkCounts_narrow _ _).bind fun _ _ => ?_
  refine .refused id fun _ => .refused id fun _ => .refused id fun _ => ?_
  refine (invariant_narrow _ _).bind fun d0 hd0 => ?_
  refine (Avoids.mapM fun p _ => uint128_narrow (p.1 + p.2)).bind fun grown _ => ?_
  refine (invariant_narrow _ _).bind fun d1 hd1 => .refused id fun _ => ?_
  refine (chargeImbalance_narrow hb (invariant_holds hd1) _ _ _).bind fun charged _ => ?_
  refine (invariant_narrow _ _).bind fun d2 hd2 => .refused id fun _ => ?_
  refine (Checked.sub_narrow _ _).bind fun growth hgrowth => ?_
  have hheld := Checked.sub_holds (invariant_holds hd2) (invariant_holds hd0) hgrowth
  refine (Checked.mulDiv_narrow hs hheld d0).bind fun share _ => ?_
  exact .refused id fun _ => uint128_narrow share

theorem burn_narrow (hb : Words balances) (hs : Width.uint128.holds supply)
    (s : Shape) (withdrawals : List Int) (fee : Int) (provided : Option Int) :
    Avoids Fault.IsWide (burn s balances withdrawals supply fee provided) := by
  unfold burn
  simp only [throw_eq, error_bind, Operand.mapM_strict_int, Operand.strict_int, ok_bind]
  refine (checkCounts_narrow _ _).bind fun _ _ => ?_
  refine .refused id fun _ => .refused id fun _ => ?_
  refine (checkReserves_narrow _ _).bind fun _ _ => ?_
  refine (invariant_narrow _ _).bind fun d0 hd0 => ?_
  refine (Avoids.mapM fun p _ => Checked.sub_narrow p.1 p.2).bind fun left _ => ?_
  refine (invariant_narrow _ _).bind fun d1 hd1 => ?_
  refine (chargeImbalance_narrow hb (invariant_holds hd1) _ _ _).bind fun charged _ => ?_
  refine (invariant_narrow _ _).bind fun d2 hd2 => ?_
  refine (Checked.sub_narrow _ _).bind fun shrinkage hshrinkage => ?_
  have hheld := Checked.sub_holds (invariant_holds hd0) (invariant_holds hd2) hshrinkage
  refine (Checked.mulDiv_narrow hs hheld d0).bind fun part _ => ?_
  refine (uint128_narrow _).bind fun share _ => .refused id fun _ => ?_
  exact (checkProvided_narrow share provided).bind fun _ _ => avoids_ok share

end Stable

/-- Among amounts no product is too wide, whatever the amplification and the fee. So shares of the
supply or less are always paid out, and a deposit on both sides of a pair only fails where it is
worth more shares than a word holds. -/
theorem wide_products_fit :
    (∀ (deposits reserves : List Int) (supply floor : Int), Words deposits →
      Width.uint128.holds supply →
      Avoids Fault.IsWide (ConstantProduct.mint deposits reserves supply floor)) ∧
    (∀ (reserves : List Int) (supply share : Int), Words reserves → Width.uint128.holds share →
      Avoids Fault.IsWide (ConstantProduct.payout reserves supply share)) ∧
    (∀ (s : Stable.Shape) (balances deposits : List Int) (supply fee : Int), Words balances →
      Width.uint128.holds supply →
      Avoids Fault.IsWide (Stable.mint s balances deposits supply fee)) ∧
    (∀ (s : Stable.Shape) (balances withdrawals : List Int) (supply fee : Int)
      (provided : Option Int), Words balances → Width.uint128.holds supply →
      Avoids Fault.IsWide (Stable.burn s balances withdrawals supply fee provided)) ∧
    (∀ (reserves : List Int) (supply share : Int), Words reserves → Width.uint128.holds supply →
      Width.uint128.holds share → share ≤ supply →
      ∃ paid, ConstantProduct.payout reserves supply share = .ok paid ∧
        List.Forall₂ (fun r a => a ≤ r ∧ a = if supply = 0 then 0 else r * share / supply)
          reserves paid) ∧
    ∀ d0 d1 r0 r1 supply floor : Int, Words [d0, d1] → Width.uint128.holds supply →
      0 < d0 → 0 < d1 → 0 < r0 → 0 < r1 → 0 < supply →
      ConstantProduct.mint [d0, d1] [r0, r1] supply floor =
        if min (d0 * supply / r0) (d1 * supply / r1) < Width.uint128.limit then
          .ok (min (d0 * supply / r0) (d1 * supply / r1))
        else .error (.oversizedWord .uint128 (min (d0 * supply / r0) (d1 * supply / r1))) := by
  refine ⟨?_, ?_, ?_, ?_, ?_, ?_⟩
  · intro deposits reserves supply floor hd hs
    exact ConstantProduct.mint_narrow hd hs floor
  · intro reserves supply share hr hshare
    exact ConstantProduct.payout_narrow hr hshare supply
  · intro s balances deposits supply fee hb hs
    exact Stable.mint_narrow hb hs s deposits fee
  · intro s balances withdrawals supply fee provided hb hs
    exact Stable.burn_narrow hb hs s withdrawals fee provided
  · intro reserves supply share hr hs hshare hle
    exact ConstantProduct.payout_words hr hs hshare hle
  · intro d0 d1 r0 r1 supply floor hd hs h0 h1 hr0 hr1 hpos
    simp only [Words, List.forall_mem_cons] at hd
    exact ConstantProduct.mint_words hd.1 hd.2.1 hs h0 h1 hr0 hr1 hpos floor

/-- The largest amounts there are, and stable pools whose invariants fill their words. Two sides of
a deposit are worth more shares than a word holds where the reserves are single units, and as many
as there are where the reserves are as large. -/
theorem wide_products_fit_largest :
    Avoids Fault.IsWide (ConstantProduct.mint [(2 : Int) ^ 128 - 1, 2 ^ 128 - 1] [0, 0] 0
      (1000 : Int)) ∧
    Avoids Fault.IsWide (ConstantProduct.payout [(2 : Int) ^ 128 - 1, 0] 1 (2 ^ 128 - 1)) ∧
    Avoids Fault.IsWide (Stable.mint (.usual (10000 : Int)) [(2 : Int) ^ 126, 2 ^ 126]
      [2 ^ 127 - 1, 0] (2 ^ 128 - 1) (5000000 : Int)) ∧
    Avoids Fault.IsWide (Stable.burn (.usual (10000 : Int)) [(2 : Int) ^ 127, 2 ^ 127 - 1]
      [2 ^ 126, 0] (2 ^ 128 - 1) (5000000 : Int) none) ∧
    (∃ paid, ConstantProduct.payout [(2 : Int) ^ 128 - 1, 3] (2 ^ 128 - 1) (2 ^ 128 - 2) =
      .ok paid ∧ paid = [2 ^ 128 - 2, 2]) ∧
    ConstantProduct.mint [(2 : Int) ^ 128 - 1, 2 ^ 128 - 1] [1, 1] (2 ^ 128 - 1) (0 : Int) =
      .error (.oversizedWord .uint128 ((2 ^ 128 - 1) * (2 ^ 128 - 1))) ∧
    ConstantProduct.mint [(2 : Int) ^ 128 - 1, 2 ^ 128 - 1] [2 ^ 128 - 1, 2 ^ 128 - 1]
      (2 ^ 128 - 1) (0 : Int) = .ok (2 ^ 128 - 1) := by
  obtain ⟨hmint, hpayout, hdeposit, hwithdrawal, hpaid, hminted⟩ := wide_products_fit
  have hfull : Width.uint128.holds (2 ^ 128 - 1) := by decide
  have hone : (0 : Int) < 1 := by decide
  have hpos : (0 : Int) < 2 ^ 128 - 1 := by decide
  refine ⟨?_, ?_, ?_, ?_, ?_, ?_, ?_⟩
  · exact hmint _ _ _ _ (by decide) (by decide)
  · exact hpayout _ _ _ (by decide) hfull
  · exact hdeposit _ _ _ _ _ (by decide) hfull
  · exact hwithdrawal _ _ _ _ _ _ (by decide) hfull
  · obtain ⟨paid, hok, hparts⟩ := hpaid [2 ^ 128 - 1, 3] _ (2 ^ 128 - 2) (by decide) hfull
      (by decide) (by decide)
    refine ⟨paid, hok, ?_⟩
    rcases hparts with _ | ⟨⟨-, rfl⟩, _ | ⟨⟨-, rfl⟩, _ | _⟩⟩
    decide
  · exact hminted _ _ 1 1 _ 0 (by decide) hfull hpos hpos hone hone hpos
  · exact hminted _ _ _ _ _ 0 (by decide) hfull hpos hpos hpos hpos hpos

end Liquidity
