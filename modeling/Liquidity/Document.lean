import Liquidity.Json.Equality
import Liquidity.Json.Reader
import Liquidity.Schema.Decode

/-! Documents of every form: read from JSON values and from text, written back, compared and
shown. -/

namespace Liquidity
set_option autoImplicit false

inductive Form where
  | assetId | asset | assets | identity | reserves | ramp | price
  | minOut | beliefPrice | maxPriceImpact | slippageControl
  | mint | payout | quote | burn | instruction
  | pool | constantProductPool | stablePool
deriving DecidableEq, Repr

namespace Form

open Schema (Source)

/-- What a document of a form says. -/
abbrev Content : Form → Type
  | .assetId => AssetId
  | .asset => Asset
  | .assets => Assets
  | .identity => Identity
  | .reserves => Reserves
  | .ramp => Ramp
  | .price => Price
  | .minOut => MinOut
  | .beliefPrice => BeliefPrice
  | .maxPriceImpact => MaxPriceImpact
  | .slippageControl => SlippageControl
  | .mint => Mint
  | .payout => Payout
  | .quote => Quote
  | .burn => Burn
  | .instruction => Instruction
  | .pool => Pool
  | .constantProductPool => ConstantProductPool
  | .stablePool => StablePool

def decode (src : Source) : (f : Form) → Json → Except Fault f.Content
  | .assetId => AssetId.ofJson
  | .asset => Asset.ofJson
  | .assets => Assets.ofJson
  | .identity => Identity.ofJson
  | .reserves => Reserves.ofJson
  | .ramp => Ramp.ofJson
  | .price => Price.ofJson src
  | .minOut => MinOut.ofJson
  | .beliefPrice => BeliefPrice.ofJson src
  | .maxPriceImpact => MaxPriceImpact.ofJson src
  | .slippageControl => SlippageControl.ofJson src
  | .mint => Mint.ofJson
  | .payout => Payout.ofJson
  | .quote => Quote.ofJson
  | .burn => Burn.ofJson
  | .instruction => Instruction.ofJson
  | .pool => Pool.ofJson src
  | .constantProductPool => ConstantProductPool.ofJson
  | .stablePool => StablePool.ofJson

def encode : (f : Form) → f.Content → Json
  | .assetId => AssetId.toJson
  | .asset => Asset.toJson
  | .assets => Assets.toJson
  | .identity => Identity.toJson
  | .reserves => Reserves.toJson
  | .ramp => Ramp.toJson
  | .price => Price.toJson
  | .minOut => MinOut.toJson
  | .beliefPrice => BeliefPrice.toJson
  | .maxPriceImpact => MaxPriceImpact.toJson
  | .slippageControl => SlippageControl.toJson
  | .mint => Mint.toJson
  | .payout => Payout.toJson
  | .quote => Quote.toJson
  | .burn => Burn.toJson
  | .instruction => Instruction.toJson
  | .pool => Pool.toJson
  | .constantProductPool => ConstantProductPool.toJson
  | .stablePool => StablePool.toJson

/-- The parts of a document that may hold values of any kind and depth. -/
def looseParts : (f : Form) → f.Content → List Json
  | .instruction, i => (Instruction.payload i).map (·.2)
  | .pool, p => (Pool.config p).toList
  | .constantProductPool, p => (ConstantProductPool.config p).toList
  | .stablePool, p => (StablePool.config p).toList
  | _, _ => []

/-- Loose parts are written out down to this depth. The tag of a pool takes one level. -/
def depthLimit : Form → Nat
  | .pool => 254
  | _ => 255

/-- The JSON form of a document, if it can be written out. -/
def dump (f : Form) (a : f.Content) : Except Fault Json :=
  if (f.looseParts a).any (f.depthLimit < ·.depth) then .error .nestedTooDeep
  else .ok (f.encode a)

def read (f : Form) (text : String) : Except Fault f.Content :=
  match Json.read? Json.documentDepth text with
  | some j => f.decode .text j
  | none => Schema.refuse .notJson

def write (f : Form) (a : f.Content) : String := (f.encode a).compact

/-- Equality of content; decimals are compared by value. -/
def agrees : (f : Form) → f.Content → f.Content → Bool
  | .assetId, a, b => a == b
  | .asset, a, b => a == b
  | .assets, a, b => a == b
  | .identity, a, b => a == b
  | .reserves, a, b => a == b
  | .ramp, a, b => a == b
  | .price, a, b => Price.agrees a b
  | .minOut, a, b => a == b
  | .beliefPrice, a, b => BeliefPrice.agrees a b
  | .maxPriceImpact, a, b => MaxPriceImpact.agrees a b
  | .slippageControl, a, b => SlippageControl.agrees a b
  | .mint, a, b => a == b
  | .payout, a, b => a == b
  | .quote, a, b => a == b
  | .burn, a, b => a == b
  | .instruction, a, b => Instruction.agrees a b
  | .pool, a, b => a == b
  | .constantProductPool, a, b => a == b
  | .stablePool, a, b => a == b

/-- The text of those documents that have one. -/
def text? : (f : Form) → f.Content → Option String
  | .assetId, a => some a.text
  | .asset, a => some a.text
  | .assets, a => some (Assets.text a)
  | .price, a => some a.text
  | _, _ => none

end Form
end Liquidity
