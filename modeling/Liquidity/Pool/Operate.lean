import Liquidity.Instruction
import Liquidity.Pool.Price
import Liquidity.Pool.Simulate

/-! The operations on a pool. Each is simulated first, and calls are made out only for a
result that meets the caller's bounds. -/

namespace Liquidity.Pool
set_option autoImplicit false

/-- The prices around a deposit; an empty pool has none before it. -/
def pricesAround (p : Pool) (s : Snapshot) (deposit : Assets) :
    Except Fault (Option Price × Option Price) := do
  let reserves ← s.reservesOf p.identity
  let before := reserves.amountsFor p.members
  let after := List.zipWith (fun r (a : Asset) => r + a.units) before deposit
  let old ← if before.all (0 < ·) then (p.spotPriceAt s before).map some else pure none
  let new ← p.spotPriceAt s after
  return (old, some new)

def checkSlippage (p : Pool) (s : Snapshot) (deposit : Assets) (shares : Int) :
    Option SlippageControl → Except Fault Unit
  | none => .ok ()
  | some (.minOut g) => g.check shares
  | some control => do
    let (old, new) ← p.pricesAround s deposit
    control.check old new shares

def optional {α : Type} (write : α → Json) : Option α → Json
  | some a => write a
  | none => .null

def provide (p : Pool) (s : Snapshot) (as : Assets) (minShares : Figure := .int 0)
    (slippage : Option SlippageControl := none) : Except Fault (List Instruction) := do
  let simulation ← p.simulateProvide s as
  simulation.check minShares
  let deposit ← p.identity.inPoolOrder .foreignInput as
  p.checkSlippage s deposit simulation.shares.units slippage
  return Instruction.transferring p.address deposit .provideLiquidity
    [("assets", Assets.toJson deposit), ("min_shares_out", minShares),
      ("slippage", optional SlippageControl.toJson slippage)]

def withdraw (p : Pool) (s : Snapshot) (lp : Asset) (minAssets : Option Assets := none) :
    Except Fault (List Instruction) := do
  let simulation ← p.simulateWithdraw s lp
  simulation.check minAssets
  return Instruction.transferring p.address [lp] .withdrawLiquidity
    [("amount", .int lp.amount.val), ("min_assets_out", optional Assets.toJson minAssets)]

def swap (p : Pool) (s : Snapshot) (offer : Asset) (ask : AssetId) (minOut : Figure := .int 0) :
    Except Fault (List Instruction) := do
  let simulation ← p.simulateSwap s offer ask
  simulation.check minOut
  return Instruction.transferring p.address [offer] .swap
    [("offer", offer.toJson), ("ask", ask.toJson), ("min_out", minOut)]

/-- All of `maxBurn` is sent along; the pool returns what it does not burn. -/
def withdrawImbalanced (p : Pool) (s : Snapshot) (as : Assets) (maxBurn : Figure) :
    Except Fault (List Instruction) := do
  let simulation ← p.simulateBurn s as
  simulation.check maxBurn
  let lp ← Asset.of p.lpToken maxBurn
  return Instruction.transferring p.address [lp] .withdrawLiquidityImbalanced
    [("amount", maxBurn), ("assets", Assets.toJson simulation.assets),
      ("expected_burn", .int simulation.burn.amount.val)]

end Liquidity.Pool
