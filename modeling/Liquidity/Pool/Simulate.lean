import Liquidity.ConstantProduct
import Liquidity.Pool.Basic
import Liquidity.Simulation
import Liquidity.Stable.Shares

/-! What deposits, withdrawals and swaps on a pool would yield at a snapshot. -/

namespace Liquidity
set_option autoImplicit false

def ConstantProductPool.mint (p : ConstantProductPool) (s : Snapshot) (as : Assets) :
    Except Fault Int := do
  let deposits ← p.identity.ordered .foreignInput as
  let reserves ← s.reservesOf p.identity
  ConstantProduct.mint (deposits.map Int.ofNat) (reserves.amountsFor p.identity.members)
    (reserves.supply.val : Int) p.config.minimumLiquidity

namespace StablePool

def mint (p : StablePool) (s : Snapshot) (as : Assets) : Except Fault Int := do
  let deposits ← p.identity.ordered .foreignInput as
  if deposits.all (· == 0) then throw .zeroAmount
  let reserves ← s.reservesOf p.identity
  let scale ← p.scale s
  let normalized ← scale.up (deposits.map Int.ofNat)
  if reserves.supply.val = 0 then
    let lpPrecision ← scale.table.precisionOf p.identity.lpToken
    Stable.initialMint normalized scale.greatest lpPrecision p.config.minimumLiquidity
  else
    let amp ← p.currentAmp s
    let balances ← scale.up (reserves.amountsFor p.identity.members)
    Stable.mint (p.shape amp) balances normalized (reserves.supply.val : Int) p.config.stableFee

/-- The burn for exactly the given assets. -/
def simulateBurn (p : StablePool) (s : Snapshot) (as : Assets) (provided : Option Figure := none) :
    Except Fault Burn := do
  let requested ← p.identity.inPoolOrder .foreignOutput as
  let reserves ← s.reservesOf p.identity
  let scale ← p.scale s
  let amp ← p.currentAmp s
  let balances ← scale.up (reserves.amountsFor p.identity.members)
  let withdrawals ← scale.up (requested.map Asset.units)
  let share ← Stable.burn (p.shape amp) balances withdrawals (reserves.supply.val : Int)
    p.config.stableFee provided
  return ⟨← Asset.of p.identity.lpToken share, requested⟩

end StablePool

namespace Pool

def mint (p : Pool) (s : Snapshot) (as : Assets) : Except Fault Int :=
  match p with
  | .constantProduct q => q.mint s as
  | .stable q => q.mint s as

def simulateProvide (p : Pool) (s : Snapshot) (as : Assets) : Except Fault Mint := do
  let share ← p.mint s as
  return ⟨← Asset.of p.lpToken share⟩

def checkLpToken (p : Pool) (lp : Asset) : Except Fault Unit :=
  if lp.id ≠ p.lpToken then .error (.foreignLpToken lp.id)
  else if lp.amount.val = 0 then .error .zeroAmount
  else .ok ()

/-- Every reserve in proportion to the shares burned, whatever the curve. -/
def simulateWithdraw (p : Pool) (s : Snapshot) (lp : Asset) : Except Fault Payout := do
  p.checkLpToken lp
  let reserves ← s.reservesOf p.identity
  let amounts ← ConstantProduct.payout (reserves.amountsFor p.members) (reserves.supply.val : Int)
    lp.units
  return ⟨← (p.members.zip amounts).mapM fun (id, n) => Asset.of id n⟩

def checkSwap (p : Pool) (offer : Asset) (ask : AssetId) : Except Fault Unit :=
  if !p.identity.has offer.id then .error (.foreignInput offer.id)
  else if !p.identity.has ask || ask == offer.id then .error (.foreignOutput ask)
  else if offer.amount.val = 0 then .error .zeroAmount
  else .ok ()

/-- Swaps are priced by the quote that the pool itself gives. -/
def simulateSwap (p : Pool) (s : Snapshot) (offer : Asset) (ask : AssetId) :
    Except Fault Quote := do
  p.checkSwap offer ask
  let amount ← s.quoteOf p.identity offer ask
  return ⟨offer, ← Asset.of ask amount⟩

def simulateBurn (p : Pool) (s : Snapshot) (as : Assets) (provided : Option Figure := none) :
    Except Fault Burn :=
  match p with
  | .constantProduct q =>
    .error (.noImbalancedWithdrawal .constantProduct q.identity.address)
  | .stable q => q.simulateBurn s as provided

end Pool
end Liquidity
