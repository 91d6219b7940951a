import Liquidity.Proofs.Alike
import Liquidity.Proofs.Pool.Guards
import Liquidity.Proofs.Stable.Shares

/-! A bound on a burn can be given to the simulation, which checks it as the last of its checks,
or to the operation, which simulates without one and checks the result. The two agree. -/

namespace Liquidity
set_option autoImplicit false

open Outcome

namespace Stable

variable {ν α : Type} [Operand ν] [Operand α]
variable {s : Shape ν} {balances withdrawals : List Int} {supply share : Int} {fee : ν}
variable {provided : Option ν}

/-- What is provided is looked at last. -/
theorem burn_some (s : Shape ν) (balances withdrawals : List α) (supply : α) (fee available : ν) :
    burn s balances withdrawals supply fee (some available) =
      burn s balances withdrawals supply fee >>= fun share =>
        checkProvided share (some available) >>= fun _ => pure share := by
  unfold burn
  simp only [throw_eq, error_bind, bind_assoc, refused_bind]
  rfl

/-- A burn is of one share at least and of no more than there are. -/
theorem burn_bounds (h : burn s balances withdrawals supply fee provided = .ok share) :
    1 ≤ share ∧ share ≤ supply ∧ share < Width.uint128.limit := by
  unfold burn at h
  simp only [throw_eq, error_bind, refused_eq_ok, bind_eq_ok, Operand.mapM_strict_int,
    Operand.strict_int, Except.ok.injEq, exists_eq_left', Width.check_eq_ok, not_lt, pure_eq] at h
  obtain ⟨_, -, -, -, _, -, d0, h0, _, -, d1, -, charged, -, d2, -, shrinkage, -, part, hr, _,
    ⟨-, hw, rfl⟩, hle, _, -, rfl⟩ := h
  have hd0 := (invariant_bounds h0).1
  obtain ⟨hpos, -, -, rfl⟩ := Ratio.mulDiv_eq_ok.mp hr
  have hpart := Int.fdiv_nonneg hpos hd0
  exact ⟨by omega, hle, hw⟩

end Stable

theorem Asset.of_word (id : AssetId) {n : Int} (h0 : 0 ≤ n) (hw : n < Uint128.limit) :
    ∃ a : Asset, Asset.of id (.int n) = .ok a ∧ a.id = id ∧ a.units = n := by
  obtain ⟨a, ha⟩ := Asset.exists_of_int.mpr ⟨h0, hw⟩
  exact ⟨a, ha, Asset.of_int_eq_ok.mp ha⟩

/-- The result is checked for the same, and refused in the same words, as what it was found by. -/
theorem Burn.check_int (out : Burn) (m : Int) : out.check (.int m : Figure) =
    Stable.checkProvided out.burn.units (some (.int m : Figure)) := by
  unfold Burn.check Stable.checkProvided
  rw [Burn.meets_int]
  change _ = (Operand.less m out.burn.units >>= _)
  simp

namespace StablePool

variable {q : StablePool} {s : Snapshot} {as : Assets} {provided : Option Figure} {out : Burn}
variable {m : Int}

/-- Shares are burned of the supply that the snapshot tells, and something is burned. -/
theorem simulateBurn_bounds (h : q.simulateBurn s as provided = .ok out) :
    ∃ reserves, s.reservesOf q.identity = .ok reserves ∧ 1 ≤ out.burn.units ∧
      out.burn.units ≤ reserves.supply.val := by
  unfold simulateBurn at h
  simp only [bind_eq_ok, pure_eq, Except.ok.injEq] at h
  obtain ⟨_, -, reserves, hreserves, _, -, _, -, _, -, _, -, share, hshare, lp, hlp, rfl⟩ := h
  obtain ⟨hpos, hle, -⟩ := Stable.burn_bounds hshare
  obtain ⟨-, hn⟩ := Asset.of_int_eq_ok.mp hlp
  rw [← hn] at hpos hle
  exact ⟨reserves, hreserves, hpos, hle⟩

/-- A bound inside the simulation comes to a check of its result, as the result is made of the burn
without anything else that could fail. -/
theorem simulateBurn_some (q : StablePool) (s : Snapshot) (as : Assets) (m : Int) :
    q.simulateBurn s as (some (.int m)) = q.simulateBurn s as >>= fun out =>
      out.check (.int m : Figure) >>= fun _ => pure out := by
  unfold simulateBurn
  simp only [bind_assoc, pure_bind, Stable.burn_some]
  refine bind_congr fun requested => bind_congr fun reserves => bind_congr fun scale =>
    bind_congr fun amp => bind_congr fun balances => bind_congr fun withdrawals =>
    bind_congr_ok fun share hshare => ?_
  obtain ⟨hpos, -, hw⟩ := Stable.burn_bounds hshare
  obtain ⟨lp, hlp, -, hn⟩ := Asset.of_word q.identity.lpToken (by omega) hw
  rw [hlp, ok_bind, ok_bind, Burn.check_int, hn]

/-- The call that asks the pool for the assets of a simulation. The shares are sent along, and
the burn that was simulated is the one expected. -/
structure Asks (q : StablePool) (sent : Asset) (out : Burn) (call : Instruction) : Prop where
  target : call.target = q.identity.address
  action : call.action = .withdrawLiquidityImbalanced
  funds : call.funds = Instruction.attached [sent]
  amount : call.payload.lookup "amount" = some (.int sent.units)
  assets : call.payload.lookup "assets" = some (Assets.toJson out.assets)
  expectedBurn : call.payload.lookup "expected_burn" = some (.int out.burn.units)
  nothingElse : call.payload.map (·.1) = ["amount", "assets", "expected_burn"]

/-- Calls of which the last asks for the assets of a simulation. It sends the bound along as
shares, for which the others make the allowance. -/
def Calls (q : StablePool) (m : Int) (out : Burn) (calls : List Instruction) : Prop :=
  ∃ sent call, sent.id = q.identity.lpToken ∧ sent.units = m ∧ calls.getLast? = some call ∧
    q.Asks sent out call ∧ calls.dropLast = Instruction.allowances q.identity.address [sent]

theorem simulated_alike (q : StablePool) (s : Snapshot) (as : Assets) (h0 : 0 ≤ m)
    (hm : m < Uint128.limit) :
    Alike (q.Calls m) ((Pool.stable q).simulateBurn s as (some (.int m)))
      ((Pool.stable q).withdrawImbalanced s as (.int m)) := by
  obtain ⟨sent, hsent, hid, hn⟩ := Asset.of_word q.identity.lpToken h0 hm
  change Alike _ (q.simulateBurn s as (some (.int m))) _
  rw [simulateBurn_some]
  unfold Pool.withdrawImbalanced
  refine .after fun out _ => .after fun _ _ => ?_
  rw [show Asset.of (Pool.stable q).lpToken (.int m) = .ok sent from hsent, ok_bind]
  refine .ok ⟨sent, _, hid, hn, Instruction.getLast?_transferring .., ?_,
    Instruction.dropLast_transferring ..⟩
  exact ⟨rfl, rfl, rfl, hn ▸ rfl, rfl, rfl, rfl⟩

theorem simulateBurn_some_eq_ok : q.simulateBurn s as (some (.int m)) = .ok out ↔
    q.simulateBurn s as = .ok out ∧ out.burn.units ≤ m := by
  rw [simulateBurn_some, bind_eq_ok]
  simp only [unit_bind_eq_ok, Burn.check_eq_ok, pure_eq, Except.ok.injEq]
  constructor
  · rintro ⟨found, hfound, hle, rfl⟩
    exact ⟨hfound, hle⟩
  · rintro ⟨hout, hle⟩
    exact ⟨out, hout, hle, rfl⟩

/-- A bound on the burn may be left to the simulation or to the operation. Both give the same burn
for the same assets or fail for the same reason. The burn is of one share at least, and of no more
than the bound and the supply; a larger bound does not change it. -/
theorem burn_bounds_agree (q : StablePool) (s : Snapshot) (as : Assets) (m : Int) (h0 : 0 ≤ m)
    (hm : m < Uint128.limit) :
    Alike (q.Calls m) ((Pool.stable q).simulateBurn s as (some (.int m)))
      ((Pool.stable q).withdrawImbalanced s as (.int m)) ∧
    ∀ out, (Pool.stable q).simulateBurn s as (some (.int m)) = .ok out →
      (∃ reserves, s.reservesOf q.identity = .ok reserves ∧ 1 ≤ out.burn.units ∧
        out.burn.units ≤ min m reserves.supply.val) ∧
      ∀ m' : Int, m ≤ m' → m' < Uint128.limit →
        (Pool.stable q).simulateBurn s as (some (.int m')) = .ok out ∧
        ∃ calls, (Pool.stable q).withdrawImbalanced s as (.int m') = .ok calls ∧
          q.Calls m' out calls := by
  refine ⟨simulated_alike q s as h0 hm, ?_⟩
  intro out hout
  obtain ⟨hfree, hmet⟩ := simulateBurn_some_eq_ok.mp hout
  constructor
  · obtain ⟨reserves, hreserves, hpos, hle⟩ := simulateBurn_bounds hfree
    exact ⟨reserves, hreserves, hpos, le_min hmet hle⟩
  · intro m' hle hm'
    have hout' : q.simulateBurn s as (some (.int m')) = .ok out :=
      simulateBurn_some_eq_ok.mpr ⟨hfree, hmet.trans hle⟩
    exact ⟨hout', (simulated_alike q s as (h0.trans hle) hm').ok_left hout'⟩

/-- A pool of two native assets with one unit. -/
def twins : StablePool :=
  ⟨⟨"twins", .cw20 "lp", [.native "left", .native "right"], .stableSwap, none, by decide⟩, {}, rfl⟩

def twinsSnapshot : Snapshot :=
  ((((Snapshot.empty (.int 0) {}).addPool twins.identity
      ⟨[⟨.native "left", 70100, by decide⟩, ⟨.native "right", 50300, by decide⟩], 120400, by decide⟩
      (some (.constant 10000 0))).addPrecision (.native "left") (.int 6)).addPrecision
    (.native "right") (.int 6)).addPrecision (.cw20 "lp") (.int 6)

def twinsRequest : Assets :=
  [⟨.native "right", 1210, by decide⟩, ⟨.native "left", 7020, by decide⟩]

def twinsOut : Burn :=
  ⟨⟨.cw20 "lp", 8224, by decide⟩,
    [⟨.native "left", 7020, by decide⟩, ⟨.native "right", 1210, by decide⟩]⟩

/-- Exactly what is burned is enough, and a share less is refused either way. -/
theorem burn_bounds_agree_twins :
    (Pool.stable twins).simulateBurn twinsSnapshot twinsRequest (some (.int 8224)) =
      .ok twinsOut ∧
    (∃ calls, (Pool.stable twins).withdrawImbalanced twinsSnapshot twinsRequest (.int 9000) =
      .ok calls ∧ twins.Calls 9000 twinsOut calls) ∧
    (Pool.stable twins).simulateBurn twinsSnapshot twinsRequest (some (.int 8223)) =
      .error (.insufficientShares (8224 : Int) (8223 : Int)) ∧
    (Pool.stable twins).withdrawImbalanced twinsSnapshot twinsRequest (.int 8223) =
      .error (.insufficientShares (8224 : Int) (8223 : Int)) := by
  have hout : (Pool.stable twins).simulateBurn twinsSnapshot twinsRequest (some (.int 8224)) =
      .ok twinsOut := rfl
  have hrefused : (Pool.stable twins).simulateBurn twinsSnapshot twinsRequest
      (some (.int 8223)) = .error (.insufficientShares (8224 : Int) (8223 : Int)) := rfl
  obtain ⟨-, hmet⟩ := burn_bounds_agree twins twinsSnapshot twinsRequest 8224 (by decide)
    (by decide)
  obtain ⟨hsame, -⟩ := burn_bounds_agree twins twinsSnapshot twinsRequest 8223 (by decide)
    (by decide)
  refine ⟨hout, ?_, hrefused, hsame.error_left hrefused⟩
  exact ((hmet twinsOut hout).2 9000 (by decide) (by decide)).2

end StablePool
end Liquidity
