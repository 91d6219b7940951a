import Liquidity.Proofs.Pool.Transfers

/-! What a pool reads of a list of assets. Of a deposit or a withdrawal it is the total of each
member, and of reserves it is the first entry, which is the same unless an asset that is named
again is there with something. -/

namespace Liquidity
set_option autoImplicit false

open Outcome

namespace Assets

variable {as bs : Assets} {id : AssetId}

theorem total_perm (h : as.Perm bs) : total as id = total bs id := by
  induction h with
  | nil => rfl
  | cons a _ ih => rw [total_cons, total_cons, ih]
  | swap a b as =>
    simp only [total_cons]
    omega
  | trans _ _ h₁ h₂ => exact h₁.trans h₂

theorem amountOf_cons (a : Asset) (as : Assets) (id : AssetId) :
    amountOf (a :: as) id = if a.id = id then a.amount.val else amountOf as id := by
  by_cases h : a.id = id <;> simp [amountOf, find?, h]

theorem amountOf_le_total (as : Assets) (id : AssetId) : amountOf as id ≤ total as id := by
  induction as with
  | nil => exact Nat.le_refl 0
  | cons a as ih =>
    rw [amountOf_cons, total_cons]
    split
    · exact Nat.le_add_right _ _
    · exact Nat.le_add_left_of_le ih

theorem total_eq_zero_iff : total as id = 0 ↔ ∀ a ∈ as, a.id = id → a.amount.val = 0 := by
  induction as with
  | nil => simp
  | cons a as ih =>
    rw [total_cons, Nat.add_eq_zero_iff, ih, List.forall_mem_cons]
    simp

/-- An asset that is named again is there with nothing. -/
def SpentOnce (as : Assets) : Prop := as.Pairwise fun a b => b.id = a.id → b.amount.val = 0

instance (as : Assets) : Decidable (SpentOnce as) := inferInstanceAs (Decidable (List.Pairwise _ as))

theorem spentOnce_of_nodup (h : (as.map (·.id)).Nodup) : SpentOnce as := by
  rw [List.nodup_iff_pairwise_ne, List.pairwise_map] at h
  apply h.imp
  intro a b hne heq
  exact absurd heq.symm hne

theorem amountOf_eq_total_iff : (∀ id, amountOf as id = total as id) ↔ SpentOnce as := by
  induction as with
  | nil => simp [SpentOnce, amountOf, find?]
  | cons a as ih =>
    rw [SpentOnce, List.pairwise_cons, ← total_eq_zero_iff, ← SpentOnce, ← ih]
    constructor
    · intro h
      have hnone : total as a.id = 0 := by
        have ha := h a.id
        rw [amountOf_cons, total_cons, if_pos rfl, if_pos rfl] at ha
        omega
      refine ⟨hnone, fun id => ?_⟩
      by_cases hid : a.id = id
      · subst hid
        have hle := amountOf_le_total as a.id
        omega
      · have hrest := h id
        rwa [amountOf_cons, total_cons, if_neg hid, if_neg hid, Nat.zero_add] at hrest
    · rintro ⟨hnone, hrest⟩ id
      rw [amountOf_cons, total_cons]
      split
      · rename_i hid
        rw [← hid, hnone, Nat.add_zero]
      · rw [hrest, Nat.zero_add]

/-- Where no asset comes twice, its first entry is all there is of it. -/
theorem amountOf_eq_total (h : (as.map (·.id)).Nodup) : amountOf as id = total as id :=
  amountOf_eq_total_iff.mpr (spentOnce_of_nodup h) id

theorem amountOf_perm (h : as.Perm bs) (hd : (as.map (·.id)).Nodup) :
    amountOf as id = amountOf bs id := by
  have hd' : (bs.map (·.id)).Nodup := (h.map _).nodup_iff.mp hd
  rw [amountOf_eq_total hd, amountOf_eq_total hd', total_perm h]

end Assets

/-- Lists of members that come to the same for each of them. -/
structure Identity.SameTotals (p : Identity) (as bs : Assets) : Prop where
  left : ∀ a ∈ as, a.id ∈ p.members
  right : ∀ b ∈ bs, b.id ∈ p.members
  total : ∀ id ∈ p.members, Assets.total as id = Assets.total bs id

/-- Reserves with their entries in another order. -/
structure Reserves.Rearranged (r r' : Reserves) : Prop where
  assets : r.assets.Perm r'.assets
  distinct : (r.assets.map (·.id)).Nodup
  supply : r.supply = r'.supply

/-- Snapshots in which a pool holds the same, in another order. Of what other pools hold
nothing is said. -/
structure Snapshot.Rearranged (s : Snapshot) (p : Identity) (t : Snapshot) : Prop where
  reserves : ∃ r r', s.reservesOf p = .ok r ∧ t.reservesOf p = .ok r' ∧ r.Rearranged r'
  rest : t = { s with reserves := t.reserves }

theorem Reserves.Rearranged.amountsFor {r r' : Reserves} (h : r.Rearranged r')
    (ids : List AssetId) : r.amountsFor ids = r'.amountsFor ids :=
  List.map_congr_left fun _ _ => congrArg Int.ofNat (Assets.amountOf_perm h.assets h.distinct)

namespace Snapshot.Rearranged

variable {p : Identity} {q : StablePool} {s t : Snapshot} {α : Type}

/-- Reserves that are registered anew in another order. -/
theorem setReserves {r r' : Reserves} (hr : s.reservesOf p = .ok r) (h : r.Rearranged r')
    (ht : s.setReserves p r' = .ok t) : s.Rearranged p t := by
  unfold Snapshot.setReserves at ht
  split at ht
  · cases ht
    refine ⟨⟨r, r', hr, ?_, h⟩, rfl⟩
    simp [Snapshot.reservesOf, Snapshot.found]
  · cases ht

theorem reads (h : s.Rearranged p t) {f g : Reserves → Except Fault α}
    (hfg : ∀ r r', r.Rearranged r' → f r' = g r) : t.reservesOf p >>= f = s.reservesOf p >>= g := by
  obtain ⟨r, r', hr, hr', hrr⟩ := h.reserves
  rw [hr, hr', ok_bind, ok_bind, hfg r r' hrr]

theorem scale (h : s.Rearranged p t) : q.scale t = q.scale s := by
  rw [h.rest]
  rfl

theorem currentAmp (h : s.Rearranged p t) : q.currentAmp t = q.currentAmp s := by
  rw [h.rest]
  rfl

end Snapshot.Rearranged

namespace Identity.SameTotals

variable {p : Identity} {as bs : Assets}

theorem ordered (h : p.SameTotals as bs) (foreign : AssetId → Fault) :
    p.ordered foreign as = p.ordered foreign bs := by
  have hl : p.ordered foreign as = .ok (firsts p.members (Assets.total as)) :=
    ordered_eq_ok.mpr ⟨h.left, rfl⟩
  have hr : p.ordered foreign bs = .ok (firsts p.members (Assets.total bs)) :=
    ordered_eq_ok.mpr ⟨h.right, rfl⟩
  rw [hl, hr, firsts_congr h.total]

theorem inPoolOrder (h : p.SameTotals as bs) (foreign : AssetId → Fault) :
    p.inPoolOrder foreign as = p.inPoolOrder foreign bs := by
  unfold Identity.inPoolOrder
  rw [h.ordered]

end Identity.SameTotals

namespace Pool

variable {p : Pool} {s t : Snapshot} {as bs : Assets}

section SameTotals

variable (h : p.identity.SameTotals as bs)
include h

theorem simulateProvide_of_sameTotals : p.simulateProvide s as = p.simulateProvide s bs := by
  have hmint : p.mint s as = p.mint s bs := by
    cases p with
    | constantProduct q =>
      have ho : q.identity.ordered .foreignInput as = q.identity.ordered .foreignInput bs :=
        h.ordered _
      simp only [mint, ConstantProductPool.mint, ho]
    | stable q =>
      have ho : q.identity.ordered .foreignInput as = q.identity.ordered .foreignInput bs :=
        h.ordered _
      simp only [mint, StablePool.mint, ho]
  rw [simulateProvide, hmint]
  rfl

theorem simulateBurn_of_sameTotals (provided : Option Figure) :
    p.simulateBurn s as provided = p.simulateBurn s bs provided := by
  cases p with
  | constantProduct q => rfl
  | stable q =>
    have ho : q.identity.inPoolOrder .foreignOutput as = q.identity.inPoolOrder .foreignOutput bs :=
      h.inPoolOrder _
    simp only [simulateBurn, StablePool.simulateBurn, ho]

theorem provide_of_sameTotals (minShares : Figure) (slippage : Option SlippageControl) :
    p.provide s as minShares slippage = p.provide s bs minShares slippage := by
  unfold provide
  rw [simulateProvide_of_sameTotals h, h.inPoolOrder]

theorem withdrawImbalanced_of_sameTotals (maxBurn : Figure) :
    p.withdrawImbalanced s as maxBurn = p.withdrawImbalanced s bs maxBurn := by
  unfold withdrawImbalanced
  rw [simulateBurn_of_sameTotals h]

end SameTotals

section Rearranged

variable {α : Type} [Operand α]
variable (h : s.Rearranged p.identity t)
include h

theorem simulateProvide_of_rearranged : p.simulateProvide t as = p.simulateProvide s as := by
  have hmint : p.mint t as = p.mint s as := by
    cases p with
    | constantProduct q =>
      refine bind_congr fun deposits => h.reads fun r r' hr => ?_
      rw [hr.amountsFor, hr.supply]
    | stable q =>
      refine bind_congr fun deposits => ?_
      split
      · rfl
      · refine h.reads fun r r' hr => ?_
        rw [hr.amountsFor, hr.supply, h.scale, h.currentAmp]
  rw [simulateProvide, hmint]
  rfl

theorem simulateWithdraw_of_rearranged (lp : Asset) :
    p.simulateWithdraw t lp = p.simulateWithdraw s lp := by
  refine bind_congr fun _ => h.reads fun r r' hr => ?_
  rw [hr.amountsFor, hr.supply]

theorem simulateSwap_of_rearranged (offer : Asset) (ask : AssetId) :
    p.simulateSwap t offer ask = p.simulateSwap s offer ask := by
  rw [h.rest]
  rfl

theorem simulateBurn_of_rearranged (provided : Option Figure) :
    p.simulateBurn t as provided = p.simulateBurn s as provided := by
  cases p with
  | constantProduct q => rfl
  | stable q =>
    refine bind_congr fun requested => h.reads fun r r' hr => ?_
    rw [hr.amountsFor, hr.supply, h.scale, h.currentAmp]

theorem priceAt_of_rearranged (amounts : List α) : p.priceAt t amounts = p.priceAt s amounts := by
  cases p with
  | constantProduct q => rfl
  | stable q => simp only [priceAt, StablePool.priceAt, h.scale (q := q), h.currentAmp (q := q)]

theorem spotPriceAt_of_rearranged (amounts : List α) :
    p.spotPriceAt t amounts = p.spotPriceAt s amounts := by
  unfold spotPriceAt
  rw [priceAt_of_rearranged h]

theorem spotPrice_of_rearranged : p.spotPrice t = p.spotPrice s := by
  refine bind_congr fun pair => h.reads fun r r' hr => ?_
  rw [priceAt_of_rearranged h, hr.amountsFor]

theorem pricesAround_of_rearranged (deposit : Assets) :
    p.pricesAround t deposit = p.pricesAround s deposit := by
  refine h.reads fun r r' hr => ?_
  simp only [hr.amountsFor, spotPriceAt_of_rearranged h]

theorem run_of_rearranged (request : Request) : request.run p t = request.run p s := by
  cases request with
  | provide as minShares slippage =>
    have hslippage : ∀ deposit shares,
        p.checkSlippage t deposit shares slippage = p.checkSlippage s deposit shares slippage := by
      intro deposit shares
      unfold checkSlippage
      rw [pricesAround_of_rearranged h]
    simp only [Request.run, provide, simulateProvide_of_rearranged h, hslippage]
  | withdraw lp minAssets =>
    simp only [Request.run, withdraw, simulateWithdraw_of_rearranged h]
  | swap offer ask minOut =>
    simp only [Request.run, swap, simulateSwap_of_rearranged h]
  | withdrawImbalanced as maxBurn =>
    simp only [Request.run, withdrawImbalanced, simulateBurn_of_rearranged h]

end Rearranged

/-- A pool tells two lists of members apart by their totals only, in what it simulates, in the
calls that it makes out and in how it fails, and it does not tell apart two orders of its
reserves at all. -/
theorem only_totals_matter (p : Pool) (s : Snapshot) :
    (∀ as bs, p.identity.SameTotals as bs →
      p.simulateProvide s as = p.simulateProvide s bs ∧
      (∀ minShares slippage,
        p.provide s as minShares slippage = p.provide s bs minShares slippage) ∧
      (∀ provided, p.simulateBurn s as provided = p.simulateBurn s bs provided) ∧
      ∀ maxBurn, p.withdrawImbalanced s as maxBurn = p.withdrawImbalanced s bs maxBurn) ∧
    ∀ t, s.Rearranged p.identity t →
      (∀ as, p.simulateProvide t as = p.simulateProvide s as) ∧
      (∀ lp, p.simulateWithdraw t lp = p.simulateWithdraw s lp) ∧
      (∀ offer ask, p.simulateSwap t offer ask = p.simulateSwap s offer ask) ∧
      (∀ as provided, p.simulateBurn t as provided = p.simulateBurn s as provided) ∧
      (∀ request : Request, request.run p t = request.run p s) ∧
      p.spotPrice t = p.spotPrice s ∧
      ∀ {α : Type} [Operand α] (amounts : List α),
        p.spotPriceAt t amounts = p.spotPriceAt s amounts := by
  constructor
  · intro as bs h
    exact ⟨simulateProvide_of_sameTotals h, provide_of_sameTotals h, simulateBurn_of_sameTotals h,
      withdrawImbalanced_of_sameTotals h⟩
  · intro t h
    exact ⟨fun as => simulateProvide_of_rearranged h, simulateWithdraw_of_rearranged h,
      simulateSwap_of_rearranged h, fun as => simulateBurn_of_rearranged h, run_of_rearranged h,
      spotPrice_of_rearranged h, spotPriceAt_of_rearranged h⟩

/-- A deposit with one member split in two and one with it merged, into a pool that lists its
reserves against the order of its members, and the same reserves in that order. -/
theorem only_totals_matter_mixed :
    mixed.simulateProvide mixedSnapshot [⟨.cw20 "token", 30, by decide⟩,
        ⟨.native "uusd", 10, by decide⟩, ⟨.cw20 "token", 20, by decide⟩] =
      mixed.simulateProvide mixedSnapshot [⟨.native "uusd", 10, by decide⟩,
        ⟨.native "uusd", 0, by decide⟩, ⟨.cw20 "token", 50, by decide⟩] ∧
    ∃ t, mixedSnapshot.setReserves mixed.identity ⟨mixedReserves.assets.reverse, 2000, by decide⟩ =
        .ok t ∧
      mixed.spotPrice t = mixed.spotPrice mixedSnapshot := by
  have htotals : mixed.identity.SameTotals
      [⟨.cw20 "token", 30, by decide⟩, ⟨.native "uusd", 10, by decide⟩,
        ⟨.cw20 "token", 20, by decide⟩]
      [⟨.native "uusd", 10, by decide⟩, ⟨.native "uusd", 0, by decide⟩,
        ⟨.cw20 "token", 50, by decide⟩] := ⟨by decide, by decide, by decide⟩
  have hreserves : mixedReserves.Rearranged ⟨mixedReserves.assets.reverse, 2000, by decide⟩ :=
    ⟨(List.reverse_perm _).symm, by decide, rfl⟩
  obtain ⟨t, ht⟩ : ∃ t, mixedSnapshot.setReserves mixed.identity
      ⟨mixedReserves.assets.reverse, 2000, by decide⟩ = .ok t := ⟨_, rfl⟩
  have hrearranged : mixedSnapshot.Rearranged mixed.identity t := .setReserves rfl hreserves ht
  obtain ⟨hlists, horders⟩ := only_totals_matter mixed mixedSnapshot
  exact ⟨(hlists _ _ htotals).1, t, ht, (horders t hrearranged).2.2.2.2.2.1⟩

end Pool
end Liquidity
