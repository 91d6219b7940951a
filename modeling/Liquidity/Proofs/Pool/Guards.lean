import Liquidity.Pool.Operate
import Liquidity.Proofs.Pool.Members

/-! When an operation makes out calls. It does so exactly where its simulation succeeds and the
result meets the caller's bounds, and what the simulation fails with the operation fails with. -/

namespace Liquidity
set_option autoImplicit false

open Outcome

/-- An operation that makes out calls exactly where its simulation has a result that is
accepted, and that fails as its simulation does. -/
def GuardedBy {α : Type} (simulation : Except Fault α) (accepts : α → Prop)
    (operation : Except Fault (List Instruction)) : Prop :=
  ((∃ calls, operation = .ok calls) ↔ ∃ out, simulation = .ok out ∧ accepts out) ∧
    ∀ f, simulation = .error f → operation = .error f

theorem GuardedBy.intro {α : Type} {simulation : Except Fault α} {accepts : α → Prop}
    {operation : Except Fault (List Instruction)} {makes : α → List Instruction → Prop}
    (hok : ∀ calls, operation = .ok calls ↔ ∃ out, simulation = .ok out ∧ makes out calls)
    (hmakes : ∀ out, simulation = .ok out → ((∃ calls, makes out calls) ↔ accepts out))
    (herror : ∀ f, simulation = .error f → operation = .error f) :
    GuardedBy simulation accepts operation := by
  refine ⟨?_, herror⟩
  simp only [hok]
  constructor
  · rintro ⟨calls, out, hout, h⟩
    exact ⟨out, hout, (hmakes out hout).mp ⟨calls, h⟩⟩
  · rintro ⟨out, hout, h⟩
    obtain ⟨calls, hcalls⟩ := (hmakes out hout).mpr h
    exact ⟨calls, out, hout, hcalls⟩

section Results

variable {bound : Int}

theorem checkMinOut_eq_ok {got : Int} {id : Option AssetId} :
    checkMinOut got (.int bound : Figure) id = .ok () ↔ bound ≤ got := by
  change checkMinOut got bound id = .ok () ↔ bound ≤ got
  simp [checkMinOut_int]

theorem Mint.check_eq_ok {m : Mint} :
    m.check (.int bound : Figure) = .ok () ↔ bound ≤ m.shares.units := checkMinOut_eq_ok

theorem Mint.meets_int (m : Mint) :
    m.meets (.int bound : Figure) = .ok (decide (bound ≤ m.shares.units)) := rfl

theorem Quote.check_eq_ok {q : Quote} :
    q.check (.int bound : Figure) = .ok () ↔ bound ≤ q.receive.units := checkMinOut_eq_ok

theorem Quote.meets_int (q : Quote) :
    q.meets (.int bound : Figure) = .ok (decide (bound ≤ q.receive.units)) := rfl

theorem Burn.meets_int (b : Burn) :
    b.meets (.int bound : Figure) = .ok (decide (b.burn.units ≤ bound)) := rfl

theorem Burn.check_eq_ok {b : Burn} :
    b.check (.int bound : Figure) = .ok () ↔ b.burn.units ≤ bound := by
  unfold Burn.check
  rw [Burn.meets_int, ok_bind]
  simp

/-- Every entry of the bound counts, also one whose asset comes before or is not paid out. -/
theorem Payout.check_eq_ok {p : Payout} {bound : Option Assets} :
    p.check bound = .ok () ↔
      ∀ b ∈ bound.getD [], b.amount.val ≤ Assets.amountOf p.assets b.id := by
  cases bound with
  | none => simp [Payout.check]
  | some bs =>
    rw [Payout.check, forM_eq_ok]
    simp [checkMinOut_int, Asset.units]

theorem Payout.meets_iff {p : Payout} {bound : Option Assets} :
    p.meets bound = true ↔ p.check bound = .ok () := by
  unfold Payout.meets
  cases p.check bound <;> simp [Except.isOk, Except.toBool]

/-- A figure that bounds a burn is a number, and so an amount only if it is a whole one. -/
theorem Burn.bound_number {b : Burn} {bound : Figure} (h : b.check bound = .ok ()) :
    bound.isNumber := by
  cases bound with
  | bool _ | int _ | float _ => rfl
  | null | str _ | arr _ | obj _ =>
    unfold Burn.check Burn.meets Operand.atMost Operand.order at h
    simp [Json.order?, Json.isNumber, Except.map] at h

end Results

namespace Pool

variable {p : Pool} {s : Snapshot} {as : Assets} {lp offer : Asset} {ask : AssetId}
variable {minShares minOut maxBurn : Figure} {slippage : Option SlippageControl}
variable {minAssets : Option Assets} {calls : List Instruction}

theorem provide_eq_ok : p.provide s as minShares slippage = .ok calls ↔
    ∃ out, p.simulateProvide s as = .ok out ∧ out.check minShares = .ok () ∧
      ∃ deposit, p.identity.inPoolOrder .foreignInput as = .ok deposit ∧
        p.checkSlippage s deposit out.shares.units slippage = .ok () ∧
        calls = Instruction.transferring p.address deposit .provideLiquidity
          [("assets", Assets.toJson deposit), ("min_shares_out", minShares),
            ("slippage", optional SlippageControl.toJson slippage)] := by
  unfold provide
  rw [bind_eq_ok]
  refine exists_congr fun out => and_congr_right fun _ => ?_
  rw [unit_bind_eq_ok, bind_eq_ok]
  refine and_congr_right fun _ => exists_congr fun deposit => and_congr_right fun _ => ?_
  rw [unit_bind_eq_ok, pure_eq, Except.ok.injEq, eq_comm (b := calls)]

theorem withdraw_eq_ok : p.withdraw s lp minAssets = .ok calls ↔
    ∃ out, p.simulateWithdraw s lp = .ok out ∧ out.check minAssets = .ok () ∧
      calls = Instruction.transferring p.address [lp] .withdrawLiquidity
        [("amount", .int lp.amount.val),
          ("min_assets_out", optional Assets.toJson minAssets)] := by
  unfold withdraw
  rw [bind_eq_ok]
  refine exists_congr fun out => and_congr_right fun _ => ?_
  rw [unit_bind_eq_ok, pure_eq, Except.ok.injEq, eq_comm (b := calls)]

theorem swap_eq_ok : p.swap s offer ask minOut = .ok calls ↔
    ∃ out, p.simulateSwap s offer ask = .ok out ∧ out.check minOut = .ok () ∧
      calls = Instruction.transferring p.address [offer] .swap
        [("offer", offer.toJson), ("ask", ask.toJson), ("min_out", minOut)] := by
  unfold swap
  rw [bind_eq_ok]
  refine exists_congr fun out => and_congr_right fun _ => ?_
  rw [unit_bind_eq_ok, pure_eq, Except.ok.injEq, eq_comm (b := calls)]

theorem withdrawImbalanced_eq_ok : p.withdrawImbalanced s as maxBurn = .ok calls ↔
    ∃ out, p.simulateBurn s as = .ok out ∧ out.check maxBurn = .ok () ∧
      ∃ sent, Asset.of p.lpToken maxBurn = .ok sent ∧
        calls = Instruction.transferring p.address [sent] .withdrawLiquidityImbalanced
          [("amount", maxBurn), ("assets", Assets.toJson out.assets),
            ("expected_burn", .int out.burn.amount.val)] := by
  unfold withdrawImbalanced
  rw [bind_eq_ok]
  refine exists_congr fun out => and_congr_right fun _ => ?_
  rw [unit_bind_eq_ok, bind_eq_ok]
  refine and_congr_right fun _ => exists_congr fun sent => and_congr_right fun _ => ?_
  rw [pure_eq, Except.ok.injEq, eq_comm (b := calls)]

/-- The price of what a pool holds. A pool that lacks one of its assets has none. -/
def PriceAt (p : Pool) (s : Snapshot) (held : List Int) : Option Price → Prop
  | some price => (∀ n ∈ held, 0 < n) ∧ p.spotPriceAt s held = .ok price
  | none => ∃ n ∈ held, n ≤ 0

/-- The prices before and after a deposit. -/
def PricedAround (p : Pool) (s : Snapshot) (as : Assets) (old new : Option Price) : Prop :=
  ∃ reserves deposit price, s.reservesOf p.identity = .ok reserves ∧
    p.identity.inPoolOrder .foreignInput as = .ok deposit ∧
    p.PriceAt s (reserves.amountsFor p.members) old ∧
    p.spotPriceAt s (List.zipWith (· + ·) (reserves.amountsFor p.members)
      (deposit.map Asset.units)) = .ok price ∧ new = some price

/-- What a control of slippage has to accept: the prices around the deposit, unless it looks at
shares only. -/
def SlippageAccepted (p : Pool) (s : Snapshot) (as : Assets) (shares : Int)
    (control : SlippageControl) : Prop :=
  ∃ old new, ((∀ g, control ≠ .minOut g) → p.PricedAround s as old new) ∧
    control.check old new (.int shares) = .ok ()

theorem priceAt_eq_ok {held : List Int} {old : Option Price} :
    (if held.all (0 < ·) then (p.spotPriceAt s held).map some else .ok none) = .ok old ↔
      p.PriceAt s held old := by
  by_cases hpos : ∀ n ∈ held, 0 < n
  · have hall : held.all (0 < ·) = true := by simpa using hpos
    rw [if_pos hall, map_eq_ok]
    cases old with
    | none =>
      have hnone : ¬ ∃ n ∈ held, n ≤ 0 := fun ⟨n, hn, hle⟩ => absurd (hpos n hn) (by omega)
      simpa [PriceAt] using hnone
    | some price => simpa [PriceAt] using fun _ => hpos
  · have hall : ¬ held.all (0 < ·) = true := by simpa using hpos
    rw [if_neg hall, Except.ok.injEq]
    cases old with
    | none => simpa [PriceAt] using hpos
    | some price => simpa [PriceAt] using fun h => absurd h hpos

theorem pricesAround_eq_ok {deposit : Assets} {old new : Option Price}
    (hd : p.identity.inPoolOrder .foreignInput as = .ok deposit) :
    p.pricesAround s deposit = .ok (old, new) ↔ p.PricedAround s as old new := by
  have hbinds : p.pricesAround s deposit = s.reservesOf p.identity >>= fun reserves =>
      (if (reserves.amountsFor p.members).all (0 < ·) then
        (p.spotPriceAt s (reserves.amountsFor p.members)).map some else .ok none) >>= fun old =>
      p.spotPriceAt s (List.zipWith (· + ·) (reserves.amountsFor p.members)
        (deposit.map Asset.units)) >>= fun new => pure (old, some new) := by
    unfold pricesAround
    simp only [List.zipWith_map_right]
    refine congrArg _ (funext fun reserves => ?_)
    split <;> rfl
  unfold PricedAround
  simp only [hbinds, bind_eq_ok, priceAt_eq_ok, pure_eq, Except.ok.injEq, Prod.mk.injEq, hd]
  constructor
  · rintro ⟨reserves, hr, _, hold, price, hnew, rfl, rfl⟩
    exact ⟨reserves, deposit, price, hr, rfl, hold, hnew, rfl⟩
  · rintro ⟨reserves, _, price, hr, rfl, hold, hnew, rfl⟩
    exact ⟨reserves, hr, old, hold, price, hnew, rfl, rfl⟩

theorem checkSlippage_eq_ok {deposit : Assets} {shares : Int} {control : SlippageControl}
    (hd : p.identity.inPoolOrder .foreignInput as = .ok deposit) :
    p.checkSlippage s deposit shares (some control) = .ok () ↔
      p.SlippageAccepted s as shares control := by
  have hpriced : (p.pricesAround s deposit >>= fun x => control.check x.1 x.2 (.int shares)) =
      .ok () ↔ ∃ old new, p.PricedAround s as old new ∧
        control.check old new (.int shares) = .ok () := by
    simp only [bind_eq_ok, Prod.exists, pricesAround_eq_ok hd]
  cases control with
  | minOut g =>
    simp [checkSlippage, SlippageAccepted, SlippageControl.check]
  | beliefPrice g =>
    simpa [checkSlippage, SlippageAccepted] using hpriced
  | maxPriceImpact g =>
    simpa [checkSlippage, SlippageAccepted] using hpriced

theorem withdraw_guarded (p : Pool) (s : Snapshot) (lp : Asset) (minAssets : Option Assets) :
    GuardedBy (p.simulateWithdraw s lp)
      (fun out => ∀ b ∈ minAssets.getD [], b.amount.val ≤ Assets.amountOf out.assets b.id)
      (p.withdraw s lp minAssets) := by
  apply GuardedBy.intro fun _ => withdraw_eq_ok
  · intro out _
    simp [Payout.check_eq_ok]
  · intro f h
    simp [withdraw, h]

theorem swap_guarded (p : Pool) (s : Snapshot) (offer : Asset) (ask : AssetId) (minOut : Int) :
    GuardedBy (p.simulateSwap s offer ask) (fun out => minOut ≤ out.receive.units)
      (p.swap s offer ask (.int minOut)) := by
  apply GuardedBy.intro fun _ => swap_eq_ok
  · intro out _
    simp [Quote.check_eq_ok]
  · intro f h
    simp [swap, h]

/-- Whatever bounds a burn from above is no negative number. -/
theorem withdrawImbalanced_guarded (p : Pool) (s : Snapshot) (as : Assets) (maxBurn : Int) :
    GuardedBy (p.simulateBurn s as)
      (fun out => out.burn.units ≤ maxBurn ∧ maxBurn < Uint128.limit)
      (p.withdrawImbalanced s as (.int maxBurn)) := by
  apply GuardedBy.intro fun _ => withdrawImbalanced_eq_ok
  · intro out _
    have hburn : 0 ≤ out.burn.units := Int.natCast_nonneg _
    simp only [exists_and_left, exists_comm (α := List Instruction), exists_eq, and_true,
      Burn.check_eq_ok, Asset.exists_of_int]
    omega
  · intro f h
    simp [withdrawImbalanced, h]

theorem members_of_simulateProvide {out : Mint} (h : p.simulateProvide s as = .ok out) :
    ∀ a ∈ as, a.id ∈ p.members := by
  have hordered : ∃ totals, p.identity.ordered .foreignInput as = .ok totals := by
    obtain ⟨share, hm, -⟩ := bind_eq_ok.mp h
    cases p with
    | constantProduct q =>
      obtain ⟨totals, ht, -⟩ := bind_eq_ok.mp hm
      exact ⟨totals, ht⟩
    | stable q =>
      obtain ⟨totals, ht, -⟩ := bind_eq_ok.mp hm
      exact ⟨totals, ht⟩
  obtain ⟨totals, ht⟩ := hordered
  exact (Identity.ordered_eq_ok.mp ht).1

theorem provide_guarded (p : Pool) (s : Snapshot) (as : Assets) (minShares : Int)
    (slippage : Option SlippageControl) :
    GuardedBy (p.simulateProvide s as)
      (fun out => minShares ≤ out.shares.units ∧ (∀ id, Assets.total as id < Uint128.limit) ∧
        ∀ control ∈ slippage, p.SlippageAccepted s as out.shares.units control)
      (p.provide s as (.int minShares) slippage) := by
  apply GuardedBy.intro fun _ => provide_eq_ok
  · intro out hout
    have hslippage : ∀ deposit, p.identity.inPoolOrder .foreignInput as = .ok deposit →
        (p.checkSlippage s deposit out.shares.units slippage = .ok () ↔
          ∀ control ∈ slippage, p.SlippageAccepted s as out.shares.units control) := by
      intro deposit hd
      cases slippage with
      | none => simp [checkSlippage]
      | some control => simp [checkSlippage_eq_ok hd]
    constructor
    · rintro ⟨calls, hcheck, deposit, hd, hs, -⟩
      exact ⟨Mint.check_eq_ok.mp hcheck, (Identity.exists_inPoolOrder.mp ⟨deposit, hd⟩).2,
        (hslippage deposit hd).mp hs⟩
    · rintro ⟨hcheck, hfits, hs⟩
      obtain ⟨deposit, hd⟩ :=
        Identity.exists_inPoolOrder.mpr ⟨members_of_simulateProvide hout, hfits⟩
      exact ⟨_, Mint.check_eq_ok.mpr hcheck, deposit, hd, (hslippage deposit hd).mpr hs, rfl⟩
  · intro f h
    simp [provide, h]

/-- Calls are made out exactly for results within the caller's bounds, whatever the operation,
the curve and the snapshot. The bounds are inclusive, and asking whether a result meets one is
the same as checking it. -/
theorem guards_exact (p : Pool) (s : Snapshot) :
    (∀ (lp : Asset) (minAssets : Option Assets), GuardedBy (p.simulateWithdraw s lp)
      (fun out => ∀ b ∈ minAssets.getD [], b.amount.val ≤ Assets.amountOf out.assets b.id)
      (p.withdraw s lp minAssets)) ∧
    (∀ (offer : Asset) (ask : AssetId) (minOut : Int), GuardedBy (p.simulateSwap s offer ask)
      (fun out => minOut ≤ out.receive.units) (p.swap s offer ask (.int minOut))) ∧
    (∀ (as : Assets) (maxBurn : Int), GuardedBy (p.simulateBurn s as)
      (fun out => out.burn.units ≤ maxBurn ∧ maxBurn < Uint128.limit)
      (p.withdrawImbalanced s as (.int maxBurn))) ∧
    (∀ (as : Assets) (minShares : Int) (slippage : Option SlippageControl),
      GuardedBy (p.simulateProvide s as)
        (fun out => minShares ≤ out.shares.units ∧ (∀ id, Assets.total as id < Uint128.limit) ∧
          ∀ control ∈ slippage, p.SlippageAccepted s as out.shares.units control)
        (p.provide s as (.int minShares) slippage)) ∧
    (∀ (out : Payout) (minAssets : Option Assets),
      out.meets minAssets = true ↔ out.check minAssets = .ok ()) ∧
    ∀ bound : Int,
      (∀ out : Mint, out.meets (.int bound : Figure) = .ok true ↔
        out.check (.int bound : Figure) = .ok ()) ∧
      (∀ out : Quote, out.meets (.int bound : Figure) = .ok true ↔
        out.check (.int bound : Figure) = .ok ()) ∧
      ∀ out : Burn, out.meets (.int bound : Figure) = .ok true ↔
        out.check (.int bound : Figure) = .ok () := by
  refine ⟨withdraw_guarded p s, swap_guarded p s, withdrawImbalanced_guarded p s,
    provide_guarded p s, fun _ _ => Payout.meets_iff, fun bound => ⟨?_, ?_, ?_⟩⟩
  · intro out
    rw [Mint.check_eq_ok, Mint.meets_int, Except.ok.injEq, decide_eq_true_iff]
  · intro out
    rw [Quote.check_eq_ok, Quote.meets_int, Except.ok.injEq, decide_eq_true_iff]
  · intro out
    rw [Burn.check_eq_ok, Burn.meets_int, Except.ok.injEq, decide_eq_true_iff]

end Pool
end Liquidity
