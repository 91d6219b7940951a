import Liquidity.Proofs.ConstantProduct.Dilution

/-! A pair that starts empty keeps the square of its supply within the product of its
reserves, through every history of deposits and withdrawals, refused ones among them, and
through being drained and seeded again. It runs out of shares and of both assets together,
so no deposit is ever measured against an empty reserve. -/

namespace Liquidity.ConstantProduct.Stock
set_option autoImplicit false

open Outcome

/-- What a step leaves behind: where it is refused, the stock from before. -/
def orElse (s : Stock) : Except Fault Stock → Stock
  | .ok t => t
  | .error _ => s

inductive Reachable : Stock → Prop where
  | empty : Reachable ⟨0, 0, 0⟩
  | provide {s : Stock} (d0 d1 floor : Int) : Reachable s → 0 ≤ d0 → 0 ≤ d1 →
      Reachable (s.orElse (s.provide d0 d1 floor))
  | withdraw {s : Stock} (share : Int) : Reachable s → 1 ≤ share → share ≤ s.supply →
      Reachable (s.orElse (s.withdraw share))

structure Backed (s : Stock) : Prop extends s.Nonneg where
  square_le : s.supply * s.supply ≤ s.reserve0 * s.reserve1
  drained : s.supply = 0 → s.reserve0 = 0 ∧ s.reserve1 = 0

variable {s t : Stock} {d0 d1 floor share : Int}

theorem Reachable.provided (h : Reachable s) (h0 : 0 ≤ d0) (h1 : 0 ≤ d1)
    (hp : s.provide d0 d1 floor = .ok t) : Reachable t := by
  simpa only [hp, orElse] using h.provide d0 d1 floor h0 h1

theorem Reachable.withdrawn (h : Reachable s) (hpos : 1 ≤ share) (hle : share ≤ s.supply)
    (hw : s.withdraw share = .ok t) : Reachable t := by
  simpa only [hw, orElse] using h.withdraw share hpos hle

theorem Backed.reserves_pos (hb : s.Backed) (hs : 0 < s.supply) :
    0 < s.reserve0 ∧ 0 < s.reserve1 := by
  have hp : 0 < s.reserve0 * s.reserve1 := (Int.mul_pos hs hs).trans_le hb.square_le
  exact ⟨pos_of_mul_pos_left hp hb.reserve1, pos_of_mul_pos_right hp hb.reserve0⟩

theorem Backed.supply_pos (hb : s.Backed) (hs : s.supply ≠ 0) : 0 < s.supply := by
  have := hb.supply
  omega

theorem Backed.empty : Backed ⟨0, 0, 0⟩ :=
  ⟨⟨Int.le_refl _, Int.le_refl _, Int.le_refl _⟩, Int.le_refl _, fun _ => ⟨rfl, rfl⟩⟩

/-- Reserves that keep up with the supply one by one keep up with its square together. -/
theorem Undiluted.square_le (h : Undiluted s t) (hb : s.Backed) (hs : 0 < s.supply)
    (hn : t.Nonneg) : t.supply * t.supply ≤ t.reserve0 * t.reserve1 := by
  obtain ⟨h0, h1⟩ := hb.reserves_pos hs
  have hp : 0 < s.reserve0 * s.reserve1 := Int.mul_pos h0 h1
  have ht := Int.mul_nonneg hn.reserve0 hn.reserve1
  apply Int.le_of_mul_le_mul_right (a := s.reserve0 * s.reserve1) ?_ hp
  calc t.supply * t.supply * (s.reserve0 * s.reserve1)
      = s.reserve0 * t.supply * (s.reserve1 * t.supply) := by ring
    _ ≤ t.reserve0 * s.supply * (t.reserve1 * s.supply) :=
      Int.mul_le_mul h.1 h.2 (Int.mul_nonneg h1.le hn.supply) (Int.mul_nonneg hn.reserve0 hs.le)
    _ = t.reserve0 * t.reserve1 * (s.supply * s.supply) := by ring
    _ ≤ t.reserve0 * t.reserve1 * (s.reserve0 * s.reserve1) :=
      Int.mul_le_mul_of_nonneg_left hb.square_le ht

theorem seed_backed (hb : s.Backed) (hs : s.supply = 0) (h0 : 0 ≤ d0) (h1 : 0 ≤ d1)
    (h : s.provide d0 d1 floor = .ok t) : t.Backed := by
  obtain ⟨share, hm, rfl⟩ := provide_eq_ok.mp h
  obtain ⟨hr0, hr1⟩ := hb.drained hs
  rw [hs] at hm
  obtain ⟨hd0, hd1, hroot, _, _⟩ := mint_first_eq_ok.mp hm
  obtain ⟨_, _, hn, hle, hlt⟩ := Root.sqrt_eq_ok.mp hroot
  have hd : 0 < d0 * d1 := Int.mul_pos (by omega) (by omega)
  -- A root of zero has no product but zero under its next square.
  have hpos : share ≠ 0 := by
    rintro rfl
    omega
  simp only [hr0, hr1, hs, Int.zero_add]
  exact ⟨⟨h0, h1, hn⟩, hle, fun h => absurd h hpos⟩

theorem provide_backed (hb : s.Backed) (h0 : 0 ≤ d0) (h1 : 0 ≤ d1)
    (h : s.provide d0 d1 floor = .ok t) : t.Backed := by
  by_cases hs : s.supply = 0
  · exact seed_backed hb hs h0 h1 h
  · have hpos := hb.supply_pos hs
    obtain ⟨hn, hu⟩ := provide_undiluted hb.toNonneg hpos h
    refine ⟨hn, hu.square_le hb hpos hn, fun ht => ?_⟩
    obtain ⟨share, hm, rfl⟩ := provide_eq_ok.mp h
    have hshare := (mint_bounds hpos hb.reserve0 hb.reserve1 hm).2.2.2.2.1
    dsimp at ht
    omega

/-- Whoever burns every share takes out everything. -/
theorem withdraw_backed (hb : s.Backed) (hs : 0 < s.supply)
    (h : s.withdraw share = .ok t) : t.Backed := by
  obtain ⟨hn, hu⟩ := withdraw_undiluted hb.toNonneg hs h
  refine ⟨hn, hu.square_le hb hs hn, fun ht => ?_⟩
  obtain ⟨a0, a1, hp, rfl⟩ := (withdraw_eq_ok hs).mp h
  obtain ⟨_, _, _, hpaid, _, _, ha0, ha1⟩ := payout_bounds hs hp
  obtain ⟨rfl, rfl⟩ : _ ∧ _ := by simpa using hpaid
  -- No share is left, so the whole supply was burned, and its part rounds nothing away.
  obtain rfl : share = s.supply := by dsimp at ht; omega
  obtain ⟨_, _, rfl⟩ := (Ratio.mulDiv_pos_eq_ok hs).mp ha0
  obtain ⟨_, _, rfl⟩ := (Ratio.mulDiv_pos_eq_ok hs).mp ha1
  simp [Int.mul_ediv_cancel _ (Int.ne_of_gt hs)]

theorem Reachable.backed (h : Reachable s) : s.Backed := by
  induction h with
  | empty => exact .empty
  | @provide s d0 d1 floor _ h0 h1 ih =>
    cases hp : s.provide d0 d1 floor with
    | ok t => exact provide_backed ih h0 h1 hp
    | error e => exact ih
  | @withdraw s share _ hpos hle ih =>
    cases hw : s.withdraw share with
    | ok t => exact withdraw_backed ih (by omega) hw
    | error e => exact ih

/-- In every stock that a pair can come to, the square of the supply is at most the product of
the reserves, shares and assets run out together, and no step divides by an empty reserve. -/
theorem reachable_backed (h : Reachable s) :
    s.supply * s.supply ≤ s.reserve0 * s.reserve1 ∧
    (s.supply = 0 ↔ s.reserve0 = 0) ∧ (s.reserve0 = 0 ↔ s.reserve1 = 0) ∧
    (∀ (d0 d1 floor : Int) (x : Json),
      mint [d0, d1] [s.reserve0, s.reserve1] s.supply floor ≠ .error (.divisionByZero x)) ∧
    ∀ (share : Int) (x : Json),
      payout [s.reserve0, s.reserve1] s.supply share ≠ .error (.divisionByZero x) := by
  have hb := h.backed
  have hlive : s.supply ≠ 0 → s.reserve0 ≠ 0 ∧ s.reserve1 ≠ 0 := by
    intro hs
    obtain ⟨h0, h1⟩ := hb.reserves_pos (hb.supply_pos hs)
    exact ⟨Int.ne_of_gt h0, Int.ne_of_gt h1⟩
  refine ⟨hb.square_le, ?_, ?_, ?_, ?_⟩
  · exact ⟨fun hs => (hb.drained hs).1, fun h0 => by_contra fun hs => (hlive hs).1 h0⟩
  · constructor
    · intro h0
      exact (hb.drained (by_contra fun hs => (hlive hs).1 h0)).2
    · intro h1
      exact (hb.drained (by_contra fun hs => (hlive hs).2 h1)).1
  · intro d0 d1 floor x
    exact mint_ne_divisionByZero hlive x
  · intro share x
    exact payout_ne_divisionByZero _ x

/-- A pair that is seeded, joined, refuses a deposit, is drained and then seeded anew. -/
theorem reachable_backed_reseeded :
    Reachable ⟨7, 11, 8⟩ ∧ (8 * 8 : Int) ≤ 7 * 11 ∧ ((8 : Int) = 0 ↔ (7 : Int) = 0) ∧
      ((7 : Int) = 0 ↔ (11 : Int) = 0) ∧
      mint [5, 5] [7, 11] (8 : Int) (0 : Int) ≠ .error (.divisionByZero (.int 7)) := by
  have hseed : provide ⟨0, 0, 0⟩ 2000 3000 1000 = .ok ⟨2000, 3000, 2449⟩ :=
    provide_eq_ok.mpr ⟨2449, mint_first_eq_ok.mpr ⟨by decide, by decide,
      Root.sqrt_eq_ok.mpr (by decide), by decide, by decide⟩, rfl⟩
  have hjoin : provide ⟨2000, 3000, 2449⟩ 100 100 0 = .ok ⟨2100, 3100, 2530⟩ := rfl
  have hrefused : provide ⟨2100, 3100, 2530⟩ 0 5 0 = .error .oneSidedPair := rfl
  have hdrain : withdraw ⟨2100, 3100, 2530⟩ 2530 = .ok ⟨0, 0, 0⟩ := rfl
  have hreseed : provide ⟨0, 0, 0⟩ 7 11 5 = .ok ⟨7, 11, 8⟩ :=
    provide_eq_ok.mpr ⟨8, mint_first_eq_ok.mpr ⟨by decide, by decide,
      Root.sqrt_eq_ok.mpr (by decide), by decide, by decide⟩, rfl⟩
  have hjoined : Reachable ⟨2100, 3100, 2530⟩ :=
    (Reachable.empty.provided (by decide) (by decide) hseed).provided (by decide) (by decide) hjoin
  have hkept : Reachable ⟨2100, 3100, 2530⟩ := by
    simpa only [hrefused, orElse] using hjoined.provide 0 5 0 (by decide) (by decide)
  have h : Reachable ⟨7, 11, 8⟩ :=
    (hkept.withdrawn (by decide) (by decide) hdrain).provided (by decide) (by decide) hreseed
  obtain ⟨hq, h0, h1, hm, _⟩ := reachable_backed h
  exact ⟨h, hq, h0, h1, hm 5 5 0 (.int 7)⟩

end Liquidity.ConstantProduct.Stock
