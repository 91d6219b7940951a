import Liquidity.Proofs.Pool.Guards

/-! What the calls of an operation hand over. Each asset goes one way, native ones attached to
the call itself and contract-issued ones by an allowance, and what goes comes to exactly what
the caller offered. -/

namespace Liquidity
set_option autoImplicit false

open Outcome

/-- An operation with everything that the caller asks of it. -/
inductive Request where
  | provide (assets : Assets) (minShares : Figure) (slippage : Option SlippageControl)
  | withdraw (lp : Asset) (minAssets : Option Assets)
  | swap (offer : Asset) (ask : AssetId) (minOut : Figure)
  | withdrawImbalanced (assets : Assets) (maxBurn : Figure)

namespace Request

def run (p : Pool) (s : Snapshot) : Request → Except Fault (List Instruction)
  | provide as minShares slippage => p.provide s as minShares slippage
  | withdraw lp minAssets => p.withdraw s lp minAssets
  | swap offer ask minOut => p.swap s offer ask minOut
  | withdrawImbalanced as maxBurn => p.withdrawImbalanced s as maxBurn

/-- How much of an asset the caller hands over. A burn hands over its whole bound. -/
def offered (p : Pool) (id : AssetId) : Request → Int
  | provide as _ _ => Assets.total as id
  | withdraw lp _ => Assets.total [lp] id
  | swap offer _ _ => Assets.total [offer] id
  | withdrawImbalanced _ maxBurn =>
    match maxBurn with
    | .int n => if id = p.lpToken then n else 0
    | _ => 0

end Request

theorem AssetId.contractIssued_iff {id : AssetId} :
    id.isNative = false ↔ id = .cw20 id.identifier := by
  obtain ⟨kind, identifier⟩ := id
  cases kind <;> simp [AssetId.isNative, AssetId.cw20]

theorem Assets.spent_singleton_nodup (a : Asset) : ((spent [a]).map (·.id)).Nodup :=
  (List.nodup_singleton a.id).sublist (List.filter_sublist.map _)

namespace Instruction

variable {address contract denom : String} {as : Assets} {action : Action}
variable {payload : Json.Members}

/-- The amount that an allowance is for. -/
def granted (i : Instruction) : Int :=
  match i.payload.lookup "amount" with
  | some (.int n) => n
  | _ => 0

/-- What allowances let their spender draw from one contract. -/
def drawn (calls : List Instruction) (contract : String) : Int :=
  calls.foldr (fun i n => if i.target = contract then i.granted + n else n) 0

structure IsAllowance (spender : String) (i : Instruction) : Prop where
  action : i.action = .increaseAllowance
  funds : i.funds = []
  spender : i.payload.lookup "spender" = some (.str spender)
  positive : 0 < i.granted

/-- Allowances and a call to the pool, which together hand over what is offered. -/
structure HandsOver (address : String) (offered : AssetId → Int) (allowances : List Instruction)
    (call : Instruction) : Prop where
  allowance : ∀ i ∈ allowances, i.IsAllowance address
  action : call.action ≠ .increaseAllowance
  target : call.target = address
  funds : ∀ a ∈ call.funds, a.id.isNative = true ∧ 0 < a.amount.val
  distinct : (call.funds.map (·.id)).Nodup
  native : ∀ denom, (Assets.total call.funds (.native denom) : Int) = offered (.native denom)
  contract : ∀ contract, drawn allowances contract = offered (.cw20 contract)

theorem drawn_cons (i : Instruction) (calls : List Instruction) (contract : String) :
    drawn (i :: calls) contract =
      (if i.target = contract then i.granted else 0) + drawn calls contract := by
  by_cases h : i.target = contract <;> simp [drawn, h]

@[simp] theorem target_allowance (a : Asset) :
    (allowance address a).target = a.id.identifier := rfl

@[simp] theorem granted_allowance (a : Asset) : (allowance address a).granted = a.amount.val := rfl

theorem allowance_isAllowance {a : Asset} (ha : 0 < a.amount.val) :
    (allowance address a).IsAllowance address :=
  ⟨rfl, rfl, rfl, Int.natCast_pos.mpr ha⟩

theorem total_attached (as : Assets) (denom : String) :
    Assets.total (attached as) (.native denom) = Assets.total as (.native denom) := by
  induction as with
  | nil => rfl
  | cons a as ih =>
    rw [Assets.total_cons, ← ih]
    unfold attached
    rw [List.filter_cons]
    split
    · rw [Assets.total_cons]
    · rename_i hkept
      have hzero : (if a.id = .native denom then a.amount.val else 0) = 0 := by
        rw [ite_eq_right_iff]
        intro hid
        simpa [hid, AssetId.native, AssetId.isNative] using hkept
      rw [hzero, Nat.zero_add]

theorem drawn_allowances (address contract : String) (as : Assets) :
    drawn (allowances address as) contract = Assets.total as (.cw20 contract) := by
  induction as with
  | nil => rfl
  | cons a as ih =>
    rw [Assets.total_cons, Int.natCast_add, ← ih]
    unfold allowances
    rw [List.filter_cons]
    split
    · rename_i hkept
      have hkind : a.id.isNative = false := by
        rw [Bool.and_eq_true] at hkept
        simpa using hkept.1
      have htarget : a.id = .cw20 contract ↔ a.id.identifier = contract := by
        rw [AssetId.contractIssued_iff.mp hkind]
        simp [AssetId.cw20]
      rw [List.map_cons, drawn_cons, granted_allowance, target_allowance]
      simp only [htarget]
      split <;> rfl
    · rename_i hkept
      have hzero : (if a.id = .cw20 contract then a.amount.val else 0) = 0 := by
        rw [ite_eq_right_iff]
        intro hid
        simpa [hid, AssetId.cw20, AssetId.isNative] using hkept
      rw [hzero, Int.natCast_zero, Int.zero_add]

theorem attached_nodup (h : ((Assets.spent as).map (·.id)).Nodup) :
    ((attached as).map (·.id)).Nodup := by
  have hsub : attached as = (Assets.spent as).filter (·.id.isNative) := by
    rw [Assets.spent, List.filter_filter]
    rfl
  rw [hsub]
  exact h.sublist (List.filter_sublist.map _)

theorem transferring_handsOver (address : String) (as : Assets) (payload : Json.Members)
    (h : action ≠ .increaseAllowance) (hd : ((Assets.spent as).map (·.id)).Nodup) :
    ∃ allowances call, transferring address as action payload = allowances ++ [call] ∧
      HandsOver address (fun id => Assets.total as id) allowances call := by
  refine ⟨allowances address as, _, rfl, ?_, h, rfl, ?_, attached_nodup hd, ?_, ?_⟩
  · intro i hi
    obtain ⟨a, ha, rfl⟩ := List.mem_map.mp hi
    have hpos : a.id.isNative = false ∧ 0 < a.amount.val := by
      simpa using (List.mem_filter.mp ha).2
    exact allowance_isAllowance hpos.2
  · intro a ha
    simpa using (List.mem_filter.mp ha).2
  · intro denom
    rw [total_attached]
  · intro contract
    exact drawn_allowances address contract as

end Instruction

namespace Request

open Instruction

variable {p : Pool} {s : Snapshot} {request : Request} {calls : List Instruction}

/-- Every operation ends in the transfer of a list of assets, and in it stands what the caller
offers of each. -/
theorem run_eq_transferring (h : request.run p s = .ok calls) :
    ∃ as action payload, calls = transferring p.address as action payload ∧
      action ≠ .increaseAllowance ∧ ((Assets.spent as).map (·.id)).Nodup ∧
      ∀ id, (Assets.total as id : Int) = request.offered p id := by
  cases request with
  | provide as minShares slippage =>
    obtain ⟨out, -, -, deposit, hd, -, rfl⟩ := Pool.provide_eq_ok.mp h
    refine ⟨deposit, _, _, rfl, by decide, Identity.spent_inPoolOrder_nodup hd, fun id => ?_⟩
    rw [Identity.total_inPoolOrder hd]
    rfl
  | withdraw lp minAssets =>
    obtain ⟨out, -, -, rfl⟩ := Pool.withdraw_eq_ok.mp h
    exact ⟨[lp], _, _, rfl, by decide, Assets.spent_singleton_nodup lp, fun id => rfl⟩
  | swap offer ask minOut =>
    obtain ⟨out, -, -, rfl⟩ := Pool.swap_eq_ok.mp h
    exact ⟨[offer], _, _, rfl, by decide, Assets.spent_singleton_nodup offer, fun id => rfl⟩
  | withdrawImbalanced as maxBurn =>
    obtain ⟨out, -, hcheck, sent, hsent, rfl⟩ := Pool.withdrawImbalanced_eq_ok.mp h
    obtain ⟨n, rfl⟩ := Asset.of_number hsent (Burn.bound_number hcheck)
    obtain ⟨hid, hn⟩ := Asset.of_int_eq_ok.mp hsent
    refine ⟨[sent], _, _, rfl, by decide, Assets.spent_singleton_nodup sent, fun id => ?_⟩
    rw [Assets.total_cons, hid, offered]
    split
    · rename_i he
      simp [he, hn]
    · rename_i he
      simp [Ne.symm he]

/-- The calls of an operation are allowances for the pool and, last, one call to it. What they
attach and allow comes, asset by asset, to what the caller offers, and nothing in them is for
an amount of zero. -/
theorem transfers_conserve (h : request.run p s = .ok calls) :
    ∃ allowances call, calls = allowances ++ [call] ∧
      HandsOver p.address (request.offered p) allowances call := by
  obtain ⟨as, action, payload, rfl, haction, hdistinct, hoffered⟩ := run_eq_transferring h
  simpa only [hoffered] using transferring_handsOver p.address as payload haction hdistinct

end Request

namespace Pool

/-- A pair of a native and a contract-issued asset. -/
def mixed : Pool :=
  .constantProduct ⟨⟨"pair", .cw20 "lp", [.native "uusd", .cw20 "token"], .constantProduct, none,
    by decide⟩, {}, rfl, rfl⟩

def mixedReserves : Reserves :=
  ⟨[⟨.cw20 "token", 4000, by decide⟩, ⟨.native "uusd", 1000, by decide⟩], 2000, by decide⟩

def mixedSnapshot : Snapshot := (Snapshot.empty (.int 0) {}).addPool mixed.identity mixedReserves none

end Pool

namespace Request

open Instruction

/-- A deposit that names the contract-issued asset twice and the members out of order. -/
def mixedDeposit : Request :=
  .provide [⟨.cw20 "token", 30, by decide⟩, ⟨.native "uusd", 10, by decide⟩,
    ⟨.cw20 "token", 20, by decide⟩] (.int 20) none

theorem transfers_conserve_mixed :
    ∃ allowances call, mixedDeposit.run .mixed Pool.mixedSnapshot = .ok (allowances ++ [call]) ∧
      HandsOver "pair" (mixedDeposit.offered .mixed) allowances call ∧
      mixedDeposit.offered .mixed (.native "uusd") = 10 ∧
      mixedDeposit.offered .mixed (.cw20 "token") = 50 := by
  have hrun : mixedDeposit.run .mixed Pool.mixedSnapshot =
      .ok [allowance "pair" ⟨.cw20 "token", 50, by decide⟩,
        ⟨"pair", .provideLiquidity, [⟨.native "uusd", 10, by decide⟩],
          [("assets", Assets.toJson [⟨.native "uusd", 10, by decide⟩,
            ⟨.cw20 "token", 50, by decide⟩]), ("min_shares_out", .int 20),
            ("slippage", .null)]⟩] := rfl
  obtain ⟨allowances, call, hcalls, h⟩ := transfers_conserve hrun
  exact ⟨allowances, call, hcalls ▸ hrun, h, rfl, rfl⟩

end Request
end Liquidity
