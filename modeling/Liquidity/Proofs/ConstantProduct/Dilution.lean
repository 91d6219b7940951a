import Liquidity.Proofs.ConstantProduct.Shares

/-! What stands behind a share of a pair. Deposits and withdrawals in any order and of any
size leave each share with no less of either reserve, so nobody draws value out of a pool by
going in and out. -/

namespace Liquidity.ConstantProduct
set_option autoImplicit false

open Outcome

/-- What a pair holds, and how many shares stand for it. -/
structure Stock where
  reserve0 : Int
  reserve1 : Int
  supply : Int
deriving DecidableEq, Repr

namespace Stock

def provide (s : Stock) (d0 d1 floor : Int) : Except Fault Stock := do
  let share ← mint [d0, d1] [s.reserve0, s.reserve1] s.supply floor
  return ⟨s.reserve0 + d0, s.reserve1 + d1, s.supply + share⟩

def withdraw (s : Stock) (share : Int) : Except Fault Stock := do
  match ← payout [s.reserve0, s.reserve1] s.supply share with
  | [a0, a1] => return ⟨s.reserve0 - a0, s.reserve1 - a1, s.supply - share⟩
  | _ => throw .assetCount

structure Nonneg (s : Stock) : Prop where
  reserve0 : 0 ≤ s.reserve0
  reserve1 : 0 ≤ s.reserve1
  supply : 0 ≤ s.supply

/-- A share stands for no less of either reserve in `t` than in `s`. -/
def Undiluted (s t : Stock) : Prop :=
  s.reserve0 * t.supply ≤ t.reserve0 * s.supply ∧ s.reserve1 * t.supply ≤ t.reserve1 * s.supply

/-- Successful deposits and withdrawals, each from a pool that has shares. -/
inductive Run : Stock → Stock → Prop where
  | refl (s : Stock) : Run s s
  | provide {s t u : Stock} {d0 d1 floor : Int} : Run s t → 0 < t.supply →
      t.provide d0 d1 floor = .ok u → Run s u
  | withdraw {s t u : Stock} {share : Int} : Run s t → 0 < t.supply →
      1 ≤ share → share ≤ t.supply → t.withdraw share = .ok u → Run s u

variable {s t u : Stock} {d0 d1 floor share : Int}

theorem provide_eq_ok : s.provide d0 d1 floor = .ok t ↔
    ∃ share, mint [d0, d1] [s.reserve0, s.reserve1] s.supply floor = .ok share ∧
      t = ⟨s.reserve0 + d0, s.reserve1 + d1, s.supply + share⟩ :=
  bind_pure_eq_ok

theorem withdraw_eq_ok (hs : 0 < s.supply) : s.withdraw share = .ok t ↔
    ∃ a0 a1, payout [s.reserve0, s.reserve1] s.supply share = .ok [a0, a1] ∧
      t = ⟨s.reserve0 - a0, s.reserve1 - a1, s.supply - share⟩ := by
  unfold withdraw
  rw [bind_eq_ok]
  constructor
  · rintro ⟨paid, hp, ht⟩
    obtain ⟨_, a0, a1, rfl, _⟩ := payout_bounds hs hp
    exact ⟨a0, a1, hp, (Except.ok.inj ht).symm⟩
  · rintro ⟨a0, a1, hp, rfl⟩
    exact ⟨[a0, a1], hp, rfl⟩

theorem Undiluted.refl (s : Stock) : Undiluted s s := ⟨Int.le_refl _, Int.le_refl _⟩

theorem Undiluted.trans (hs : 0 ≤ s.supply) (ht : 0 < t.supply) (hu : 0 ≤ u.supply)
    (hst : Undiluted s t) (htu : Undiluted t u) : Undiluted s u :=
  ⟨Ratio.cross_le_trans hs ht hu hst.1 htu.1, Ratio.cross_le_trans hs ht hu hst.2 htu.2⟩

theorem provide_undiluted (hn : s.Nonneg) (hs : 0 < s.supply)
    (h : s.provide d0 d1 floor = .ok t) : t.Nonneg ∧ Undiluted s t := by
  obtain ⟨share, hm, rfl⟩ := provide_eq_ok.mp h
  obtain ⟨h0, h1, hd0, hd1, hshare, hb0, hb1⟩ := mint_bounds hs hn.reserve0 hn.reserve1 hm
  refine ⟨⟨by dsimp; omega, by dsimp; omega, by dsimp; omega⟩, ?_, ?_⟩ <;> dsimp only <;> linarith

theorem withdraw_undiluted (hn : s.Nonneg) (hs : 0 < s.supply)
    (h : s.withdraw share = .ok t) : t.Nonneg ∧ Undiluted s t := by
  obtain ⟨a0, a1, hp, rfl⟩ := (withdraw_eq_ok hs).mp h
  obtain ⟨hle, _, _, hpaid, _, _, ha0, ha1⟩ := payout_bounds hs hp
  obtain ⟨rfl, rfl⟩ : _ ∧ _ := by simpa using hpaid
  have hb0 := Ratio.quotient_mul_le hs ha0
  have hb1 := Ratio.quotient_mul_le hs ha1
  have hm0 : a0 ≤ s.reserve0 := Int.le_of_mul_le_mul_right
    (hb0.trans (Int.mul_le_mul_of_nonneg_left hle hn.reserve0)) hs
  have hm1 : a1 ≤ s.reserve1 := Int.le_of_mul_le_mul_right
    (hb1.trans (Int.mul_le_mul_of_nonneg_left hle hn.reserve1)) hs
  refine ⟨⟨by dsimp; omega, by dsimp; omega, by dsimp; omega⟩, ?_, ?_⟩ <;> dsimp only <;> linarith

theorem Run.undiluted (h : Run s t) (hn : s.Nonneg) :
    t.Nonneg ∧ Undiluted s t := by
  induction h with
  | refl => exact ⟨hn, .refl _⟩
  | provide _ ht hstep ih =>
    obtain ⟨hnt, hst⟩ := ih
    obtain ⟨hnu, htu⟩ := provide_undiluted hnt ht hstep
    exact ⟨hnu, hst.trans hn.supply ht hnu.supply htu⟩
  | withdraw _ ht _ _ hstep ih =>
    obtain ⟨hnt, hst⟩ := ih
    obtain ⟨hnu, htu⟩ := withdraw_undiluted hnt ht hstep
    exact ⟨hnu, hst.trans hn.supply ht hnu.supply htu⟩

theorem Undiluted.reserves_le (h : Undiluted s t) (hs : 0 < s.supply)
    (he : t.supply = s.supply) : s.reserve0 ≤ t.reserve0 ∧ s.reserve1 ≤ t.reserve1 := by
  obtain ⟨h0, h1⟩ := h
  rw [he] at h0 h1
  exact ⟨Int.le_of_mul_le_mul_right h0 hs, Int.le_of_mul_le_mul_right h1 hs⟩

/-- Burning what a deposit has just minted gives back at most the deposit. -/
theorem refund_le {paid : List Int} (hn : s.Nonneg) (hs : 0 < s.supply)
    (hm : mint [d0, d1] [s.reserve0, s.reserve1] s.supply floor = .ok share)
    (hp : payout [s.reserve0 + d0, s.reserve1 + d1] (s.supply + share) share = .ok paid) :
    ∃ a0 a1, paid = [a0, a1] ∧ a0 ≤ d0 ∧ a1 ≤ d1 := by
  have hprovide := provide_eq_ok.mpr ⟨share, hm, rfl⟩
  obtain ⟨hnt, hst⟩ := provide_undiluted hn hs hprovide
  have hshare := (mint_bounds hs hn.reserve0 hn.reserve1 hm).2.2.2.2.1
  have ht : 0 < s.supply + share := by omega
  obtain ⟨_, a0, a1, rfl, _⟩ := payout_bounds ht hp
  obtain ⟨hnu, htu⟩ := withdraw_undiluted hnt ht ((withdraw_eq_ok ht).mpr ⟨a0, a1, hp, rfl⟩)
  have hr := (hst.trans hn.supply ht hnu.supply htu).reserves_le hs (by dsimp; omega)
  dsimp at hr
  exact ⟨a0, a1, rfl, by omega, by omega⟩

/-- No run of deposits and withdrawals dilutes a share: what it stands for of either reserve
never falls, a run that ends with the old supply has cost the pool nothing, and a deposit
that is burned again at once comes back no larger. -/
theorem shares_undiluted (h0 : 0 ≤ s.reserve0) (h1 : 0 ≤ s.reserve1) (hs : 0 < s.supply) :
    (∀ t, Run s t → s.reserve0 * t.supply ≤ t.reserve0 * s.supply ∧
      s.reserve1 * t.supply ≤ t.reserve1 * s.supply) ∧
    (∀ t, Run s t → t.supply = s.supply →
      s.reserve0 ≤ t.reserve0 ∧ s.reserve1 ≤ t.reserve1) ∧
    ∀ (d0 d1 floor share : Int) (paid : List Int),
      mint [d0, d1] [s.reserve0, s.reserve1] s.supply floor = .ok share →
      payout [s.reserve0 + d0, s.reserve1 + d1] (s.supply + share) share = .ok paid →
      ∃ a0 a1, paid = [a0, a1] ∧ a0 ≤ d0 ∧ a1 ≤ d1 := by
  have hn : s.Nonneg := ⟨h0, h1, Int.le_of_lt hs⟩
  refine ⟨?_, ?_, ?_⟩
  · intro t h
    exact (h.undiluted hn).2
  · intro t h he
    exact (h.undiluted hn).2.reserves_le hs he
  · intro d0 d1 floor share paid hm hp
    exact refund_le hn hs hm hp

/-- A deposit and a withdrawal that divide evenly on neither side, and the deposit burned
again at once. -/
theorem shares_undiluted_uneven :
    Run ⟨1000, 4000, 2000⟩ ⟨1007, 4036, 2013⟩ ∧
      (1000 * 2013 : Int) ≤ 1007 * 2000 ∧ (4000 * 2013 : Int) ≤ 4036 * 2000 ∧
      ∃ a0 a1 : Int, [10, 40] = [a0, a1] ∧ a0 ≤ 10 ∧ a1 ≤ 50 := by
  have hp : provide ⟨1000, 4000, 2000⟩ 10 50 0 = .ok ⟨1010, 4050, 2020⟩ := rfl
  have hw : withdraw ⟨1010, 4050, 2020⟩ 7 = .ok ⟨1007, 4036, 2013⟩ := rfl
  have hrun : Run ⟨1000, 4000, 2000⟩ ⟨1007, 4036, 2013⟩ :=
    .withdraw (.provide (.refl _) (by decide) hp) (by decide) (by decide) (by decide) hw
  have h := shares_undiluted (s := ⟨1000, 4000, 2000⟩) (by decide) (by decide) (by decide)
  obtain ⟨h0, h1⟩ := h.1 _ hrun
  exact ⟨hrun, h0, h1, h.2.2 10 50 0 20 [10, 40] rfl rfl⟩

end Stock
end Liquidity.ConstantProduct
