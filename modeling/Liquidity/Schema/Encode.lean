import Liquidity.Json.Writer
import Liquidity.Pool.Basic
import Liquidity.Slippage

/-! The JSON form of each kind of document. Members come in a fixed order; decimals are
written as text and amounts as numbers. -/

namespace Liquidity
set_option autoImplicit false

open Json (str int arr obj)

def Decimal.toJson (d : Decimal) : Json := str d.text

def AssetId.toJson (id : AssetId) : Json :=
  obj [("kind", str id.kind.label), ("identifier", str id.identifier)]

def Asset.toJson (a : Asset) : Json :=
  obj [("info", a.id.toJson), ("amount", int a.amount.val)]

def Assets.toJson (as : Assets) : Json := arr (as.map Asset.toJson)

def Identity.toJson (p : Identity) : Json :=
  obj [("address", str p.address), ("lp_token", p.lpToken.toJson),
    ("asset_infos", arr (p.members.map AssetId.toJson)), ("curve", str p.curve.label),
    ("pool_id", match p.poolId with
      | some n => int n
      | none => .null)]

def Reserves.toJson (r : Reserves) : Json :=
  obj [("assets", Assets.toJson r.assets), ("total_shares", int r.supply.val)]

def Ramp.toJson (r : Ramp) : Json :=
  obj [("init_amp", int r.initAmp), ("init_amp_time", int r.initTime),
    ("next_amp", int r.nextAmp), ("next_amp_time", int r.nextTime)]

def Price.toJson (p : Price) : Json :=
  obj [("base_asset", p.base.toJson), ("quote_asset", p.quote.toJson), ("price", p.value.toJson)]

def MinOut.toJson (g : MinOut) : Json :=
  obj [("kind", str "min_out"), ("min_out", int g.minOut.val)]

def BeliefPrice.toJson (g : BeliefPrice) : Json :=
  obj [("kind", str "belief_price"), ("belief_price", g.belief.toJson),
    ("slippage_tolerance", g.tolerance.val.toJson)]

def MaxPriceImpact.toJson (g : MaxPriceImpact) : Json :=
  obj [("kind", str "max_price_impact"), ("max_price_impact", g.limit.val.toJson)]

def SlippageControl.toJson : SlippageControl → Json
  | .minOut g => g.toJson
  | .beliefPrice g => g.toJson
  | .maxPriceImpact g => g.toJson

def Mint.toJson (m : Mint) : Json := obj [("shares", m.shares.toJson)]

def Payout.toJson (p : Payout) : Json := obj [("assets", Assets.toJson p.assets)]

def Quote.toJson (q : Quote) : Json :=
  obj [("offer", q.offer.toJson), ("receive", q.receive.toJson)]

def Burn.toJson (b : Burn) : Json :=
  obj [("burn", b.burn.toJson), ("assets", Assets.toJson b.assets)]

/-- Where a number is due, truth values are written as one and zero. -/
def Figure.toJson : Figure → Json
  | .bool b => int (if b then 1 else 0)
  | j => j.finite

def Config.toJson (c : Config) : Json :=
  obj [("minimum_liquidity_amount", Figure.toJson c.minimumLiquidity),
    ("max_iterations", Figure.toJson c.maxIterations),
    ("amp_precision", Figure.toJson c.ampPrecision), ("stable_fee", Figure.toJson c.stableFee),
    ("native_token_precision", Figure.toJson c.nativePrecision),
    ("lp_denom_prefix", c.lpDenomHead.finite)]

def poolJson (p : Identity) (c : Config) (curve : Curve) : Json :=
  obj [("identity", p.toJson), ("config", c.toJson), ("kind", str curve.label)]

def ConstantProductPool.toJson (p : ConstantProductPool) : Json :=
  poolJson p.identity p.config .constantProduct

def StablePool.toJson (p : StablePool) : Json := poolJson p.identity p.config .stableSwap

def Pool.toJson : Pool → Json
  | .constantProduct p => p.toJson
  | .stable p => p.toJson

end Liquidity
