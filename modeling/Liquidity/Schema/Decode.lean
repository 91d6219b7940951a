import Liquidity.Instruction
import Liquidity.Schema.Scalar

/-! Reading each kind of document from its JSON form. Members may come in any order, and
members that a document does not have are passed over. -/

namespace Liquidity
set_option autoImplicit false

open Schema

def AssetId.ofJson (j : Json) : Except Fault AssetId := do
  let ms ← record .notModel j
  let (kind, identifier) ← both
    (required "kind" (choice [.native, .cw20] AssetKind.label .notOption) ms)
    (required "identifier" string ms)
  return ⟨kind, identifier⟩

def Asset.ofJson (j : Json) : Except Fault Asset := do
  let ms ← record .notModel j
  let (id, amount) ← both (required "info" AssetId.ofJson ms) (required "amount" word ms)
  return ⟨id, amount⟩

def Assets.ofJson (j : Json) : Except Fault Assets := list Asset.ofJson j

def poolIdOfJson : Json → Except Fault (Option Nat)
  | .null => .ok none
  | j => (natural j).map fun n => some n.val.toNat

def Curve.ofJson : Json → Except Fault Curve :=
  choice [.constantProduct, .stableSwap, .unsupported] Curve.label .notOption

def Identity.ofJson (j : Json) : Except Fault Identity := do
  let ms ← record .notModel j
  let (address, lpToken, ids, curve, poolId) ←
    both (required "address" string ms)
      (both (required "lp_token" AssetId.ofJson ms)
        (both (required "asset_infos" (listOfTwo AssetId.ofJson) ms)
          (both (required "curve" Curve.ofJson ms) (defaulted "pool_id" none poolIdOfJson ms))))
  return ⟨address, lpToken, ids.val, curve, poolId, ids.property⟩

def Reserves.ofJson (j : Json) : Except Fault Reserves := do
  let ms ← record .notModel j
  let (assets, supply) ← both (required "assets" Assets.ofJson ms)
    (required "total_shares" word ms)
  return ⟨assets, supply⟩

/-- Amounts in pool order as reserves. Each is read before their number is compared with
that of the members. -/
def Reserves.ofAmounts (p : Identity) (amounts : List Json) (supply : Json) :
    Except Fault Reserves := do
  let assets ← (p.members.zip amounts).mapM fun (id, j) =>
    (within (.member "amount") (word j)).map (Asset.mk id)
  if p.members.length ≠ amounts.length then throw .unequalLengths
  let supply ← within (.member "total_shares") (word supply)
  return ⟨assets, supply⟩

/-- A ramp that ends before it starts is a fault of the schedule and not of the document. -/
def Ramp.ofJson (j : Json) : Except Fault Ramp := do
  let ms ← record .notModel j
  let (initAmp, initTime, nextAmp, nextTime) ←
    both (required "init_amp" natural ms)
      (both (required "init_amp_time" natural ms)
        (both (required "next_amp" natural ms) (required "next_amp_time" natural ms)))
  if nextTime.val < initTime.val then throw (.rampReversed nextTime.val initTime.val)
  return ⟨initAmp.val, initTime.val, nextAmp.val, nextTime.val⟩

def Price.ofJson (src : Source) (j : Json) : Except Fault Price := do
  let ms ← record .notModel j
  let (base, quote, value) ← both (required "base_asset" AssetId.ofJson ms)
    (both (required "quote_asset" AssetId.ofJson ms)
      (required "price" (positiveDecimal src) ms))
  return ⟨base, quote, value.val, value.property⟩

def tag (name : String) (ms : Json.Members) : Except Fault Unit :=
  defaulted "kind" () (literal name) ms

def MinOut.ofJson (j : Json) : Except Fault MinOut := do
  let ms ← record .notModel j
  let (_, minOut) ← both (tag "min_out" ms) (required "min_out" word ms)
  return ⟨minOut⟩

def BeliefPrice.ofJson (src : Source) (j : Json) : Except Fault BeliefPrice := do
  let ms ← record .notModel j
  let (_, belief, tolerance) ← both (tag "belief_price" ms)
    (both (required "belief_price" (Price.ofJson src) ms)
      (required "slippage_tolerance" (ratio src) ms))
  return ⟨belief, tolerance⟩

def MaxPriceImpact.ofJson (src : Source) (j : Json) : Except Fault MaxPriceImpact := do
  let ms ← record .notModel j
  let (_, limit) ← both (tag "max_price_impact" ms)
    (defaulted "max_price_impact" MaxPriceImpact.usual (ratio src) ms)
  return ⟨limit⟩

/-- A document of several kinds, told apart by its tag. The tag leads the path of whatever
is wrong with the rest. -/
def tagged {α : Type} (src : Source) (readers : List (String × (Json → Except Fault α)))
    (j : Json) : Except Fault α := do
  let ms ← record (match src with
    | .value => .notTagged
    | .text => .notMap) j
  match ms.lookup "kind" with
  | none => refuse .tagMissing
  | some (.str s) =>
    match readers.lookup s with
    | some read => within (.member s) (read j)
    | none => refuse .tagUnknown
  | some _ => refuse .tagUnknown

def SlippageControl.ofJson (src : Source) : Json → Except Fault SlippageControl :=
  tagged src
    [("min_out", fun j => (MinOut.ofJson j).map .minOut),
      ("belief_price", fun j => (BeliefPrice.ofJson src j).map .beliefPrice),
      ("max_price_impact", fun j => (MaxPriceImpact.ofJson src j).map .maxPriceImpact)]

def Mint.ofJson (j : Json) : Except Fault Mint := do
  let ms ← record .notModel j
  return ⟨← required "shares" Asset.ofJson ms⟩

def Payout.ofJson (j : Json) : Except Fault Payout := do
  let ms ← record .notModel j
  return ⟨← required "assets" Assets.ofJson ms⟩

def Quote.ofJson (j : Json) : Except Fault Quote := do
  let ms ← record .notModel j
  let (offer, receive) ← both (required "offer" Asset.ofJson ms)
    (required "receive" Asset.ofJson ms)
  return ⟨offer, receive⟩

def Burn.ofJson (j : Json) : Except Fault Burn := do
  let ms ← record .notModel j
  let (burn, assets) ← both (required "burn" Asset.ofJson ms) (required "assets" Assets.ofJson ms)
  return ⟨burn, assets⟩

def figure (j : Json) : Except Fault Figure := (integer j).map .int

def denomHead (j : Json) : Except Fault Json := (string j).map .str

def Config.ofJson (j : Json) : Except Fault Config := do
  let ms ← record .notConfig j
  let usual : Config := {}
  let (a, b, c, d, e, f) ←
    both (defaulted "minimum_liquidity_amount" usual.minimumLiquidity figure ms)
      (both (defaulted "max_iterations" usual.maxIterations figure ms)
        (both (defaulted "amp_precision" usual.ampPrecision figure ms)
          (both (defaulted "stable_fee" usual.stableFee figure ms)
            (both (defaulted "native_token_precision" usual.nativePrecision figure ms)
              (defaulted "lp_denom_prefix" usual.lpDenomHead denomHead ms)))))
  return ⟨a, b, c, d, e, f⟩

def Config.names : List String :=
  ["minimum_liquidity_amount", "max_iterations", "amp_precision", "stable_fee",
    "native_token_precision", "lp_denom_prefix"]

/-- Parameters taken as they are stated; only their names are checked. -/
def Config.stated : Json → Except Fault Config
  | .obj ms =>
    if ms.any fun (name, _) => !Config.names.contains name then .error .unknownParameter
    else
      let usual : Config := {}
      let get (name : String) (default : Json) : Json := (ms.lookup name).getD default
      .ok ⟨get "minimum_liquidity_amount" usual.minimumLiquidity,
        get "max_iterations" usual.maxIterations, get "amp_precision" usual.ampPrecision,
        get "stable_fee" usual.stableFee, get "native_token_precision" usual.nativePrecision,
        get "lp_denom_prefix" usual.lpDenomHead⟩
  | _ => .error .unknownParameter

/-- The members of a pool, with an identity that `check` accepts. -/
def poolMembers {α : Type} (check : Identity → Except Complaint α) (curve : Curve) (j : Json) :
    Except Fault (α × Config) := do
  let ms ← record .notModel j
  let (identity, config, _) ←
    both (required "identity" (fun j => do
        let p ← Identity.ofJson j
        (check p).mapError fun c => .invalid [⟨c, []⟩]) ms)
      (both (defaulted "config" {} Config.ofJson ms) (tag curve.label ms))
  return (identity, config)

def ConstantProductPool.ofJson (j : Json) : Except Fault ConstantProductPool :=
  (poolMembers pairIdentity .constantProduct j).map fun (p, config) => .ofPair p config

def StablePool.ofJson (j : Json) : Except Fault StablePool :=
  (poolMembers stableIdentity .stableSwap j).map fun (p, config) => .ofStable p config

def Pool.ofJson (src : Source) : Json → Except Fault Pool :=
  tagged src
    [("constant_product", fun j => (ConstantProductPool.ofJson j).map .constantProduct),
      ("stable_swap", fun j => (StablePool.ofJson j).map .stable)]

def Instruction.ofJson (j : Json) : Except Fault Instruction := do
  let ms ← record .notModel j
  let (target, action, funds, payload) ← both (required "target" string ms)
    (both (required "action" (choice Action.all Action.label .notOption) ms)
      (both (defaulted "funds" [] Assets.ofJson ms)
        (defaulted "payload" [] (record .notMap) ms)))
  return ⟨target, action, funds, payload⟩

end Liquidity
