import Liquidity.Proofs.Stable.Shares

/-! Which way the fee for imbalance works. It only ever takes from the balances, but shares go
by the invariant, and the invariant of less can come out larger by its rounding. The fee works
for the depositor exactly where that happens and the difference is worth a share. -/

namespace Liquidity.Stable
set_option autoImplicit false

open Outcome

variable {s : Shape} {balances amounts : List Int}
variable {supply fee d x y m m0 : Int} {provided : Option Int}

/-- The shares that `x` is worth where `supply` shares are worth `d`. -/
def sharesFor (supply d x : Int) : Int := supply * x / d

theorem sharesFor_mono (hs : 0 ≤ supply) (hd : 0 < d) (h : x ≤ y) :
    sharesFor supply d x ≤ sharesFor supply d y :=
  Int.ediv_le_ediv hd (Int.mul_le_mul_of_nonneg_left h hs)

theorem sharesFor_le_iff (hs : 0 ≤ supply) (hd : 0 < d) :
    sharesFor supply d x ≤ sharesFor supply d y ↔
      x ≤ y ∨ sharesFor supply d x = sharesFor supply d y := by
  constructor
  · intro h
    by_cases hxy : x ≤ y
    · exact .inl hxy
    · exact .inr (Int.le_antisymm h (sharesFor_mono hs hd (by omega)))
  · rintro (h | h)
    · exact sharesFor_mono hs hd h
    · exact Int.le_of_eq h

/-- With a share or more for each unit of the invariant, no unit of it rounds away. -/
theorem sharesFor_strictMono (hd : 0 < d) (hs : d ≤ supply) (h : x < y) :
    sharesFor supply d x < sharesFor supply d y := by
  have hstep : supply * x + d * 1 ≤ supply * y := by nlinarith
  have hdiv := Int.ediv_le_ediv hd hstep
  rw [Int.add_mul_ediv_left _ _ (Int.ne_of_gt hd)] at hdiv
  unfold sharesFor
  omega

theorem sharesFor_le_iff_of_le (hd : 0 < d) (hs : d ≤ supply) :
    sharesFor supply d x ≤ sharesFor supply d y ↔ x ≤ y := by
  constructor
  · intro h
    by_contra hxy
    have := sharesFor_strictMono hd hs (Int.not_le.mp hxy)
    omega
  · exact sharesFor_mono (by omega) hd

/-- The fee against no fee on the same operation: `d0`, `d1` and `d2` are the invariants of
the old balances, of the new ones, and of those after the fee. -/
structure FeeCompared (s : Shape) (old new : List Int) (fee d0 d1 d2 : Int) : Prop where
  before : invariant s old = .ok d0
  after : invariant s new = .ok d1
  net : ∃ charged, chargeImbalance d0 d1 old new fee = .ok charged ∧
    List.Forall₂ (· ≤ ·) charged new ∧ invariant s charged = .ok d2
  before_pos : 0 < d0

theorem mint_compared (hfee : 0 ≤ fee) (hm : mint s balances amounts supply fee = .ok m)
    (hm0 : mint s balances amounts supply 0 = .ok m0) :
    ∃ d0 d1 d2, FeeCompared s balances (List.zipWith (· + ·) balances amounts) fee d0 d1 d2 ∧
      m = sharesFor supply d0 (d2 - d0) ∧ m0 = sharesFor supply d0 (d1 - d0) := by
  obtain ⟨d0, d1, d2, charged, h⟩ := mint_eq_ok.mp hm
  obtain ⟨e0, e1, e2, charged', h'⟩ := mint_eq_ok.mp hm0
  obtain rfl := Except.ok.inj (h.before.symm.trans h'.before)
  have hl := length_zipWith_eq (f := (· + ·)) h.length_eq
  obtain rfl := net_free hl h.after h'.charge h'.net
  have hd := invariant_pos h.before h.ratio
  have hcharged := charged_le hfee h.count hl h.charge
  obtain ⟨_, _, hr⟩ := (Ratio.mulDiv_pos_eq_ok hd).mp h.ratio
  obtain ⟨_, _, hr'⟩ := (Ratio.mulDiv_pos_eq_ok hd).mp h'.ratio
  exact ⟨d0, e2, d2, ⟨h.before, h.after, ⟨charged, h.charge, hcharged, h.net⟩, hd⟩, hr, hr'⟩

theorem burn_compared (hfee : 0 ≤ fee) (hm : burn s balances amounts supply fee provided = .ok m)
    (hm0 : burn s balances amounts supply 0 provided = .ok m0) :
    ∃ d0 d1 d2, FeeCompared s balances (List.zipWith (· - ·) balances amounts) fee d0 d1 d2 ∧
      m = sharesFor supply d0 (d0 - d2) + 1 ∧ m0 = sharesFor supply d0 (d0 - d1) + 1 := by
  obtain ⟨d0, d1, d2, charged, h⟩ := burn_eq_ok.mp hm
  obtain ⟨e0, e1, e2, charged', h'⟩ := burn_eq_ok.mp hm0
  obtain rfl := Except.ok.inj (h.before.symm.trans h'.before)
  have hl := length_zipWith_eq (f := (· - ·)) h.length_eq
  obtain rfl := net_free hl h.after h'.charge h'.net
  have hd := invariant_pos h.before h.ratio
  have hcharged := charged_le hfee h.count hl h.charge
  obtain ⟨_, _, hr⟩ := (Ratio.mulDiv_pos_eq_ok hd).mp h.ratio
  obtain ⟨_, _, hr'⟩ := (Ratio.mulDiv_pos_eq_ok hd).mp h'.ratio
  refine ⟨d0, e2, d2, ⟨h.before, h.after, ⟨charged, h.charge, hcharged, h.net⟩, hd⟩, ?_, ?_⟩
  · unfold sharesFor
    omega
  · unfold sharesFor
    omega

theorem mint_fee_iff (hfee : 0 ≤ fee) (hs : 0 < supply)
    (hm : mint s balances amounts supply fee = .ok m)
    (hm0 : mint s balances amounts supply 0 = .ok m0) :
    ∃ d0 d1 d2, FeeCompared s balances (List.zipWith (· + ·) balances amounts) fee d0 d1 d2 ∧
      (m ≤ m0 ↔ d2 ≤ d1 ∨ sharesFor supply d0 (d2 - d0) = sharesFor supply d0 (d1 - d0)) ∧
      (d0 ≤ supply → (m ≤ m0 ↔ d2 ≤ d1)) := by
  obtain ⟨d0, d1, d2, h, rfl, rfl⟩ := mint_compared hfee hm hm0
  refine ⟨d0, d1, d2, h, ?_, ?_⟩
  · rw [sharesFor_le_iff hs.le h.before_pos, Int.sub_le_sub_right_iff]
  · intro hd
    rw [sharesFor_le_iff_of_le h.before_pos hd, Int.sub_le_sub_right_iff]

theorem burn_fee_iff (hfee : 0 ≤ fee) (hs : 0 < supply)
    (hm : burn s balances amounts supply fee provided = .ok m)
    (hm0 : burn s balances amounts supply 0 provided = .ok m0) :
    ∃ d0 d1 d2, FeeCompared s balances (List.zipWith (· - ·) balances amounts) fee d0 d1 d2 ∧
      (m0 ≤ m ↔ d2 ≤ d1 ∨ sharesFor supply d0 (d0 - d1) = sharesFor supply d0 (d0 - d2)) ∧
      (d0 ≤ supply → (m0 ≤ m ↔ d2 ≤ d1)) := by
  obtain ⟨d0, d1, d2, h, rfl, rfl⟩ := burn_compared hfee hm hm0
  have hle : d0 - d1 ≤ d0 - d2 ↔ d2 ≤ d1 := by omega
  refine ⟨d0, d1, d2, h, ?_, ?_⟩
  · rw [Int.add_le_add_iff_right, sharesFor_le_iff hs.le h.before_pos, hle]
  · intro hd
    rw [Int.add_le_add_iff_right, sharesFor_le_iff_of_le h.before_pos hd, hle]

/-- On a mint as on a burn the fee never works for the depositor exactly where the balances
it leaves have no larger an invariant, or one that is larger by nothing a share shows. With as
many shares as units of the invariant only the first is left. -/
theorem fee_for_pool_iff (s : Shape) (balances amounts : List Int) (supply fee : Int)
    (hfee : 0 ≤ fee) (hs : 0 < supply) :
    (∀ m m0 : Int, mint s balances amounts supply fee = .ok m →
      mint s balances amounts supply 0 = .ok m0 →
      ∃ d0 d1 d2, FeeCompared s balances (List.zipWith (· + ·) balances amounts) fee d0 d1 d2 ∧
        (m ≤ m0 ↔ d2 ≤ d1 ∨
          sharesFor supply d0 (d2 - d0) = sharesFor supply d0 (d1 - d0)) ∧
        (d0 ≤ supply → (m ≤ m0 ↔ d2 ≤ d1))) ∧
    ∀ (provided : Option Int) (k k0 : Int),
      burn s balances amounts supply fee provided = .ok k →
      burn s balances amounts supply 0 provided = .ok k0 →
      ∃ d0 d1 d2, FeeCompared s balances (List.zipWith (· - ·) balances amounts) fee d0 d1 d2 ∧
        (k0 ≤ k ↔ d2 ≤ d1 ∨
          sharesFor supply d0 (d0 - d1) = sharesFor supply d0 (d0 - d2)) ∧
        (d0 ≤ supply → (k0 ≤ k ↔ d2 ≤ d1)) := by
  constructor
  · intro m m0 hm hm0
    exact mint_fee_iff hfee hs hm hm0
  · intro provided k k0 hk hk0
    exact burn_fee_iff hfee hs hk hk0

/-- A lopsided deposit and the same amounts withdrawn, where the fee works for the pool. -/
theorem fee_for_pool_iff_lopsided :
    (∃ d0 d1 d2, FeeCompared (.usual 1000) [1000000, 1500000] [1100000, 1500000] 5000000 d0 d1 d2 ∧
      d2 ≤ d1) ∧
    ∃ d0 d1 d2, FeeCompared (.usual 1000) [1000000, 1500000] [900000, 1500000] 5000000 d0 d1 d2 ∧
      d2 ≤ d1 := by
  have hd0 : invariant (.usual (1000 : Int)) [(1000000 : Int), 1500000] = .ok 2495290 := by
    decide +kernel
  obtain ⟨hmint, hburn⟩ := fee_for_pool_iff (.usual 1000) [1000000, 1500000] [100000, 0] 2500000
    5000000 (by decide) (by decide)
  constructor
  · obtain ⟨d0, d1, d2, hc, -, hiff⟩ :=
      hmint 102017 102046 (by decide +kernel) (by decide +kernel)
    obtain rfl := Except.ok.inj (hd0.symm.trans hc.before)
    exact ⟨_, d1, d2, hc, (hiff (by decide)).mp (by decide)⟩
  · obtain ⟨d0, d1, d2, hc, -, hiff⟩ :=
      hburn none 102724 102695 (by decide +kernel) (by decide +kernel)
    obtain rfl := Except.ok.inj (hd0.symm.trans hc.before)
    exact ⟨_, d1, d2, hc, (hiff (by decide)).mp (by decide)⟩

/-- In a skewed pool the balances after the fee have the larger invariant. The same deposit
brings a share more with the fee than without it, and a withdrawal costs one less. -/
theorem fee_for_depositor :
    (mint (.usual (100 : Int)) [(25009 : Int), 77] [5562, 176] 3 (5000000 : Int) = .ok 2 ∧
      mint (.usual (100 : Int)) [(25009 : Int), 77] [5562, 176] 3 (0 : Int) = .ok 1) ∧
    burn (.usual (100 : Int)) [(28303 : Int), 659] [3989, 648] 4 (5000000 : Int) = .ok 3 ∧
      burn (.usual (100 : Int)) [(28303 : Int), 659] [3989, 648] 4 (0 : Int) = .ok 4 := by
  decide +kernel

end Liquidity.Stable
