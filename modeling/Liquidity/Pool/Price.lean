import Liquidity.ConstantProduct
import Liquidity.Pool.Basic
import Liquidity.Slippage
import Liquidity.Stable.Price

/-! The price that a pool quotes for a very small trade. -/

namespace Liquidity
set_option autoImplicit false

open Operand

variable {α : Type} [Operand α]

/-- One unit of an asset of `base` decimals against one of an asset of `quote` decimals, as a
power of ten. -/
def unitShift : List Figure → Except Fault Int
  | .int base :: .int quote :: _ => .ok (quote - base)
  | _ => .error .notOperand

/-- The price at balances brought to common decimals, restated in the assets' own units. -/
def StablePool.priceAt (p : StablePool) (s : Snapshot) (amounts : List α) :
    Except Fault Decimal.Numeral := do
  let scale ← p.scale s
  let amp ← p.currentAmp s
  let balances ← scale.up amounts
  let price ← Stable.spotPrice (p.shape amp) balances
  price.scaled (← unitShift scale.members)

namespace Pool

/-- Units of the second member per unit of the first at the given reserves. -/
def priceAt (p : Pool) (s : Snapshot) (amounts : List α) : Except Fault Decimal.Numeral :=
  match p with
  | .constantProduct _ => ConstantProduct.spotPrice amounts
  | .stable q => q.priceAt s amounts

/-- The members of a pool of two. -/
def pair (p : Pool) : Except Fault (AssetId × AssetId) :=
  match p.members with
  | [base, quote] => .ok (base, quote)
  | members => .error (.notTwoAssets p.address members.length)

/-- The price at the given reserves. -/
def spotPriceAt (p : Pool) (s : Snapshot) (amounts : List α) : Except Fault Price := do
  let (base, quote) ← p.pair
  Price.of base quote (← p.priceAt s amounts)

/-- The price at the current reserves. -/
def spotPrice (p : Pool) (s : Snapshot) : Except Fault Price := do
  let (base, quote) ← p.pair
  let reserves ← s.reservesOf p.identity
  Price.of base quote (← p.priceAt s (reserves.amountsFor p.members))

end Pool
end Liquidity
