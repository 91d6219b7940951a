import Liquidity.Numeric.Operand

/-! Who a pool is, and what it holds. -/

namespace Liquidity
set_option autoImplicit false

/-- A handle to a pool. The members stand in pool order and are at least two. -/
structure Identity where
  address : String
  lpToken : AssetId
  members : List AssetId
  curve : Curve
  poolId : Option Nat
  two_le : 2 ≤ members.length
deriving DecidableEq, Repr

namespace Identity

/-- The first position of an asset among the members. -/
def indexOf (p : Identity) (id : AssetId) : Option Nat := p.members.findIdx? (· == id)

def has (p : Identity) (id : AssetId) : Bool := (p.indexOf id).isSome

end Identity

structure Reserves where
  assets : Assets
  supply : Uint128
deriving DecidableEq, Repr

/-- The reserves in the order of `ids`, zero for assets without an entry. -/
def Reserves.amountsFor (r : Reserves) (ids : List AssetId) : List Int :=
  ids.map fun id => (Assets.amountOf r.assets id : Int)

/-- What the shares of a pool depend on besides its state, as stated. -/
structure Config where
  minimumLiquidity : Figure := .int 1000
  maxIterations : Figure := .int 32
  ampPrecision : Figure := .int 100
  stableFee : Figure := .int 5000000
  nativePrecision : Figure := .int 6
  lpDenomHead : Json := .str "gamm/pool/"
deriving DecidableEq, Repr

/-- All parameters, in the order of their declaration. -/
def Config.toList (c : Config) : List Json :=
  [c.minimumLiquidity, c.maxIterations, c.ampPrecision, c.stableFee, c.nativePrecision,
    c.lpDenomHead]

end Liquidity
