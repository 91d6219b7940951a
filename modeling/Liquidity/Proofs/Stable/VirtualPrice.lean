import Liquidity.Proofs.Stable.Shares

/-! What stands behind a share of a stable pool, measured by the invariant. Whatever the
invariant comes to, a mint pays for no more than its growth and a burn takes more than its
shrinkage, so as long as the fee costs something or nothing the worth of a share never
falls. -/

namespace Liquidity.Stable
set_option autoImplicit false

open Outcome

structure Stock where
  balances : List Int
  supply : Int
deriving DecidableEq, Repr

/-- After the fee the invariant is no larger than before it. -/
def FeeCosts (s : Shape) (old new : List Int) (fee : Int) : Prop :=
  ∀ d0 d1 d2 charged, invariant s old = .ok d0 → invariant s new = .ok d1 →
    chargeImbalance d0 d1 old new fee = .ok charged → invariant s charged = .ok d2 → d2 ≤ d1

namespace Stock

def provide (s : Shape) (p : Stock) (deposits : List Int) (fee : Int) : Except Fault Stock := do
  let share ← mint s p.balances deposits p.supply fee
  return ⟨List.zipWith (· + ·) p.balances deposits, p.supply + share⟩

def withdraw (s : Shape) (p : Stock) (withdrawals : List Int) (fee : Int)
    (provided : Option Int) : Except Fault Stock := do
  let share ← burn s p.balances withdrawals p.supply fee provided
  return ⟨List.zipWith (· - ·) p.balances withdrawals, p.supply - share⟩

/-- Successful deposits and withdrawals whose fees cost something or nothing. -/
inductive Run (s : Shape) : Stock → Stock → Prop where
  | refl (p : Stock) : Run s p p
  | provide {p q r : Stock} {deposits : List Int} {fee : Int} : Run s p q →
      q.provide s deposits fee = .ok r → FeeCosts s q.balances r.balances fee → Run s p r
  | withdraw {p q r : Stock} {withdrawals : List Int} {fee : Int} {provided : Option Int} :
      Run s p q → q.withdraw s withdrawals fee provided = .ok r →
      FeeCosts s q.balances r.balances fee → Run s p r

/-- The invariants of both stocks are known, and a share is worth no less in `q` than in `p`. -/
def WorthKept (s : Shape) (p q : Stock) : Prop :=
  ∃ d d', invariant s p.balances = .ok d ∧ invariant s q.balances = .ok d' ∧
    d * q.supply ≤ d' * p.supply

end Stock

variable {s : Shape} {balances deposits withdrawals charged old new : List Int}
variable {supply fee share d0 d1 d2 : Int} {provided : Option Int}

theorem FeeCosts.intro (h0 : invariant s old = .ok d0) (h1 : invariant s new = .ok d1)
    (hc : chargeImbalance d0 d1 old new fee = .ok charged) (h2 : invariant s charged = .ok d2)
    (hle : d2 ≤ d1) : FeeCosts s old new fee := by
  intro e0 e1 e2 charged' h0' h1' hc' h2'
  obtain rfl := Except.ok.inj (h0.symm.trans h0')
  obtain rfl := Except.ok.inj (h1.symm.trans h1')
  obtain rfl := Except.ok.inj (hc.symm.trans hc')
  obtain rfl := Except.ok.inj (h2.symm.trans h2')
  exact hle

theorem FeeCosts.free (hl : old.length = new.length) : FeeCosts s old new 0 := by
  intro d0 d1 d2 charged _ h1 hc h2
  exact Int.le_of_eq (net_free hl h1 hc h2)

theorem Minting.worth_le (h : Minting s balances deposits supply fee share d0 d1 d2 charged)
    (hs : 0 < supply) (hle : d2 ≤ d1) : d0 * (supply + share) ≤ d1 * supply := by
  have hq := Ratio.quotient_mul_le (invariant_pos h.before h.ratio) h.ratio
  have hg : supply * (d2 - d0) ≤ supply * (d1 - d0) :=
    Int.mul_le_mul_of_nonneg_left (by omega) hs.le
  linarith

theorem Burning.worth_lt
    (h : Burning s balances withdrawals supply fee provided share d0 d1 d2 charged)
    (hs : 0 < supply) (hle : d2 ≤ d1) : d0 * (supply - share) < d1 * supply := by
  have hq := Ratio.lt_quotient_succ_mul (invariant_pos h.before h.ratio) h.ratio
  rw [Int.sub_add_cancel] at hq
  have hg : supply * (d0 - d1) ≤ supply * (d0 - d2) :=
    Int.mul_le_mul_of_nonneg_left (by omega) hs.le
  linarith

namespace Stock
variable {p q r : Stock}

theorem provide_eq_ok : p.provide s deposits fee = .ok q ↔
    ∃ share, mint s p.balances deposits p.supply fee = .ok share ∧
      q = ⟨List.zipWith (· + ·) p.balances deposits, p.supply + share⟩ :=
  bind_pure_eq_ok

theorem withdraw_eq_ok : p.withdraw s withdrawals fee provided = .ok q ↔
    ∃ share, burn s p.balances withdrawals p.supply fee provided = .ok share ∧
      q = ⟨List.zipWith (· - ·) p.balances withdrawals, p.supply - share⟩ :=
  bind_pure_eq_ok

theorem provide_worth (hn : 0 ≤ p.supply) (h : p.provide s deposits fee = .ok q)
    (hf : FeeCosts s p.balances q.balances fee) :
    0 < p.supply ∧ 0 ≤ q.supply ∧ WorthKept s p q := by
  obtain ⟨share, hm, rfl⟩ := provide_eq_ok.mp h
  obtain ⟨d0, d1, d2, charged, hc⟩ := mint_eq_ok.mp hm
  have hs : 0 < p.supply := by have := hc.supply_ne; omega
  have hle := hf d0 d1 d2 charged hc.before hc.after hc.charge hc.net
  have hpos := hc.share_pos
  exact ⟨hs, by dsimp; omega, d0, d1, hc.before, hc.after, hc.worth_le hs hle⟩

theorem withdraw_worth (hn : 0 ≤ p.supply) (h : p.withdraw s withdrawals fee provided = .ok q)
    (hf : FeeCosts s p.balances q.balances fee) :
    0 < p.supply ∧ 0 ≤ q.supply ∧ WorthKept s p q := by
  obtain ⟨share, hb, rfl⟩ := withdraw_eq_ok.mp h
  obtain ⟨d0, d1, d2, charged, hc⟩ := burn_eq_ok.mp hb
  have hs : 0 < p.supply := by have := hc.supply_ne; omega
  have hle := hf d0 d1 d2 charged hc.before hc.after hc.charge hc.net
  have hmax := hc.share_le
  exact ⟨hs, by dsimp; omega, d0, d1, hc.before, hc.after, (hc.worth_lt hs hle).le⟩

theorem WorthKept.trans (hp : 0 ≤ p.supply) (hq : 0 < q.supply) (hr : 0 ≤ r.supply)
    (hpq : WorthKept s p q) (hqr : WorthKept s q r) : WorthKept s p r := by
  obtain ⟨d, d', hd, hd', hle⟩ := hpq
  obtain ⟨e, e', he, he', hle'⟩ := hqr
  obtain rfl := Except.ok.inj (hd'.symm.trans he)
  exact ⟨d, e', hd, he', Ratio.cross_le_trans hp hq hr hle hle'⟩

/-- Nothing is known of the invariant before the first step. -/
theorem WorthKept.after (hp : 0 ≤ p.supply) (hpq : p = q ∨ WorthKept s p q)
    (hqr : 0 < q.supply ∧ 0 ≤ r.supply ∧ WorthKept s q r) :
    0 ≤ r.supply ∧ (p = r ∨ WorthKept s p r) := by
  obtain ⟨hq, hr, hkept⟩ := hqr
  refine ⟨hr, .inr ?_⟩
  rcases hpq with rfl | hpq
  · exact hkept
  · exact hpq.trans hp hq hr hkept

theorem Run.worth (h : Run s p q) (hp : 0 ≤ p.supply) :
    0 ≤ q.supply ∧ (p = q ∨ WorthKept s p q) := by
  induction h with
  | refl => exact ⟨hp, .inl rfl⟩
  | provide _ hstep hf ih => exact WorthKept.after hp ih.2 (provide_worth ih.1 hstep hf)
  | withdraw _ hstep hf ih => exact WorthKept.after hp ih.2 (withdraw_worth ih.1 hstep hf)

end Stock

theorem zipWith_sub_zipWith_add : (balances deposits : List Int) →
    balances.length = deposits.length →
      List.zipWith (· - ·) (List.zipWith (· + ·) balances deposits) deposits = balances
  | [], _, _ => rfl
  | b :: bs, d :: ds, h => by
    simp only [List.zipWith_cons_cons, Int.add_sub_cancel,
      zipWith_sub_zipWith_add bs ds (Nat.succ.inj h)]

/-- Taking a deposit out again costs more shares than it brought. -/
theorem mint_lt_burn {fee' m k : Int} (hs : 0 < supply)
    (hm : mint s balances deposits supply fee = .ok m)
    (hf : FeeCosts s balances (List.zipWith (· + ·) balances deposits) fee)
    (hk : burn s (List.zipWith (· + ·) balances deposits) deposits (supply + m) fee' provided =
      .ok k)
    (hf' : FeeCosts s (List.zipWith (· + ·) balances deposits) balances fee') : m < k := by
  obtain ⟨d0, d1, d2, charged, hmint⟩ := mint_eq_ok.mp hm
  obtain ⟨e0, e1, e2, charged', hburn⟩ := burn_eq_ok.mp hk
  have hback := zipWith_sub_zipWith_add balances deposits hmint.length_eq
  have hpos : 0 < supply + m := by have := hmint.share_pos; omega
  have hin := hmint.worth_le hs (hf _ _ _ _ hmint.before hmint.after hmint.charge hmint.net)
  have hafter := hburn.after
  have hcharge := hburn.charge
  rw [hback] at hafter hcharge
  have hout := hburn.worth_lt hpos (hf' _ _ _ _ hburn.before hafter hcharge hburn.net)
  obtain rfl := Except.ok.inj (hmint.after.symm.trans hburn.before)
  obtain rfl := Except.ok.inj (hmint.before.symm.trans hafter)
  have hd : 0 < d1 := invariant_pos hburn.before hburn.ratio
  have hlt : supply + m - k < supply := Int.lt_of_mul_lt_mul_left (hout.trans_le hin) hd.le
  omega

/-- The worth of a share never falls over a run of any length, given that the fees cost
something or nothing. Those at a rate of zero do. And a deposit that is taken out again at
once burns more shares than it minted. -/
theorem worth_never_falls (s : Shape) :
    (∀ p q : Stock, 0 < p.supply → Stock.Run s p q → p = q ∨ Stock.WorthKept s p q) ∧
    (∀ (p q : Stock) (deposits : List Int), p.provide s deposits 0 = .ok q →
      FeeCosts s p.balances q.balances 0) ∧
    (∀ (p q : Stock) (withdrawals : List Int) (provided : Option Int),
      p.withdraw s withdrawals 0 provided = .ok q → FeeCosts s p.balances q.balances 0) ∧
    ∀ (balances amounts : List Int) (supply fee fee' m k : Int) (provided : Option Int),
      0 < supply → mint s balances amounts supply fee = .ok m →
      FeeCosts s balances (List.zipWith (· + ·) balances amounts) fee →
      burn s (List.zipWith (· + ·) balances amounts) amounts (supply + m) fee' provided = .ok k →
      FeeCosts s (List.zipWith (· + ·) balances amounts) balances fee' → m < k := by
  refine ⟨?_, ?_, ?_, ?_⟩
  · intro p q hp h
    exact (h.worth hp.le).2
  · intro p q deposits h
    obtain ⟨share, hm, rfl⟩ := Stock.provide_eq_ok.mp h
    obtain ⟨_, _, _, _, hc⟩ := mint_eq_ok.mp hm
    exact .free (length_zipWith_eq hc.length_eq)
  · intro p q withdrawals provided h
    obtain ⟨share, hb, rfl⟩ := Stock.withdraw_eq_ok.mp h
    obtain ⟨_, _, _, _, hc⟩ := burn_eq_ok.mp hb
    exact .free (length_zipWith_eq hc.length_eq)
  · intro balances amounts supply fee fee' m k provided hs hm hf hk hf'
    exact mint_lt_burn hs hm hf hk hf'

/-- A lopsided deposit that pays a fee and a lopsided withdrawal that pays none, and the
deposit taken out again with a fee on both ways. -/
theorem worth_never_falls_lopsided :
    Stock.Run (.usual 1000) ⟨[1000000, 1500000], 2000000⟩ ⟨[1050000, 1480000], 2025065⟩ ∧
      Stock.WorthKept (.usual 1000) ⟨[1000000, 1500000], 2000000⟩
        ⟨[1050000, 1480000], 2025065⟩ ∧ (81613 : Int) < 81659 := by
  have hprovide : Stock.provide (.usual 1000) ⟨[1000000, 1500000], 2000000⟩ [100000, 0] 5000000 =
      .ok ⟨[1100000, 1500000], 2081613⟩ := by decide +kernel
  have hwithdraw : Stock.withdraw (.usual 1000) ⟨[1100000, 1500000], 2081613⟩ [50000, 20000] 0
      none = .ok ⟨[1050000, 1480000], 2025065⟩ := by decide +kernel
  have hcharge : chargeImbalance 2495290 2597144 [1000000, 1500000] [1100000, 1500000]
      (5000000 : Int) = .ok [1099986, 1499985] := by decide +kernel
  have hback : chargeImbalance 2597144 2495290 [1100000, 1500000] [1000000, 1500000]
      (5000000 : Int) = .ok [999986, 1499986] := by decide +kernel
  have hold : invariant (.usual (1000 : Int)) [(1000000 : Int), 1500000] = .ok 2495290 := by
    decide +kernel
  have hnew : invariant (.usual (1000 : Int)) [(1100000 : Int), 1500000] = .ok 2597144 := by
    decide +kernel
  have hnet : invariant (.usual (1000 : Int)) [(1099986 : Int), 1499985] = .ok 2597115 := by
    decide +kernel
  have hnetBack : invariant (.usual (1000 : Int)) [(999986 : Int), 1499986] = .ok 2495262 := by
    decide +kernel
  have hin : FeeCosts (.usual 1000) [1000000, 1500000] [1100000, 1500000] 5000000 :=
    .intro hold hnew hcharge hnet (by decide)
  have hout : FeeCosts (.usual 1000) [1100000, 1500000] [1000000, 1500000] 5000000 :=
    .intro hnew hold hback hnetBack (by decide)
  obtain ⟨hworth, _, hfree, hmore⟩ := worth_never_falls (.usual 1000)
  have hrun := Stock.Run.withdraw (.provide (.refl _) hprovide hin) hwithdraw
    (hfree _ _ _ _ hwithdraw)
  refine ⟨hrun, (hworth _ _ (by decide) hrun).resolve_left (by decide), ?_⟩
  exact hmore [1000000, 1500000] [100000, 0] 2000000 5000000 5000000 81613 81659 none (by decide)
    (by decide +kernel) hin (by decide +kernel) hout

end Liquidity.Stable
