import Liquidity.Precision
import Liquidity.Snapshot
import Liquidity.Stable.Invariant

/-! Pools: two-asset pools of constant product and stable pools of two or more assets. -/

namespace Liquidity
set_option autoImplicit false

structure ConstantProductPool where
  identity : Identity
  config : Config
  curve_eq : identity.curve = .constantProduct
  pair : identity.members.length = 2
deriving DecidableEq, Repr

structure StablePool where
  identity : Identity
  config : Config
  curve_eq : identity.curve = .stableSwap
deriving DecidableEq, Repr

inductive Pool where
  | constantProduct (p : ConstantProductPool)
  | stable (p : StablePool)
deriving DecidableEq, Repr

/-- Identities that a pool of constant product can be built on. -/
abbrev PairIdentity :=
  { p : Identity // p.curve = .constantProduct ∧ p.members.length = 2 }

abbrev StableIdentity := { p : Identity // p.curve = .stableSwap }

def pairIdentity (p : Identity) : Except Complaint PairIdentity :=
  if h : p.curve = .constantProduct then
    if h2 : p.members.length = 2 then .ok ⟨p, h, h2⟩
    else .error (.wrongMemberCount p.members.length)
  else .error (.wrongCurve .constantProduct p.curve)

def stableIdentity (p : Identity) : Except Complaint StableIdentity :=
  if h : p.curve = .stableSwap then .ok ⟨p, h⟩ else .error (.wrongCurve .stableSwap p.curve)

def ConstantProductPool.ofPair (p : PairIdentity) (config : Config) : ConstantProductPool :=
  ⟨p.val, config, p.property.1, p.property.2⟩

def StablePool.ofStable (p : StableIdentity) (config : Config) : StablePool :=
  ⟨p.val, config, p.property⟩

/-- A refusal of the identity that a pool is built on. -/
def identityFault (c : Complaint) : Fault := .invalid [⟨c, [.member "identity"]⟩]

def ConstantProductPool.of (p : Identity) (config : Config) : Except Fault ConstantProductPool :=
  (pairIdentity p).mapError identityFault |>.map fun p => .ofPair p config

def StablePool.of (p : Identity) (config : Config) : Except Fault StablePool :=
  (stableIdentity p).mapError identityFault |>.map fun p => .ofStable p config

namespace Pool

/-- The pool that the curve of an identity asks for. -/
def ofIdentity (p : Identity) (config : Config) : Except Fault Pool :=
  match p.curve with
  | .constantProduct => (ConstantProductPool.of p config).map .constantProduct
  | .stableSwap => (StablePool.of p config).map .stable
  | .unsupported => .error (.unsupportedCurve p.address p.curve)

def identity : Pool → Identity
  | .constantProduct p => p.identity
  | .stable p => p.identity

def config : Pool → Config
  | .constantProduct p => p.config
  | .stable p => p.config

def address (p : Pool) : String := p.identity.address
def lpToken (p : Pool) : AssetId := p.identity.lpToken
def members (p : Pool) : List AssetId := p.identity.members

def liquidity (p : Pool) (s : Snapshot) : Except Fault Assets :=
  (s.reservesOf p.identity).map (·.assets)

end Pool

namespace StablePool

def currentAmp (p : StablePool) (s : Snapshot) : Except Fault Int := do
  let ramp ← s.rampOf p.identity
  ramp.ampAt s.blockTime

/-- The decimals of the members and of the LP token. -/
def precisionTable (p : StablePool) (s : Snapshot) : Except Fault PrecisionTable := do
  let ids := p.identity.members ++ [p.identity.lpToken]
  let entries ← ids.mapM fun id => (s.precisionOf id).map (id, ·)
  PrecisionTable.ofEntries entries

/-- The decimals of each member, and the greatest of them. -/
structure Scale where
  table : PrecisionTable
  members : List Figure
  greatest : Figure

def scale (p : StablePool) (s : Snapshot) : Except Fault Scale := do
  let table ← p.precisionTable s
  let members ← p.identity.members.mapM table.precisionOf
  let greatest ← table.greatest p.identity.members
  return ⟨table, members, greatest⟩

def Scale.up {α : Type} [Operand α] (c : Scale) (amounts : List α) : Except Fault (List Int) :=
  normalize amounts c.members c.greatest

def shape (p : StablePool) (amp : Int) : Stable.Shape Figure :=
  { amp := amp, maxIterations := p.config.maxIterations, ampPrecision := p.config.ampPrecision }

end StablePool

namespace Pool

/-- Amplifications are a matter of stable pools. -/
def currentAmp (p : Pool) (s : Snapshot) : Except Fault Int :=
  match p with
  | .constantProduct _ => .error .notOffered
  | .stable q => q.currentAmp s

/-- Only stable pools keep a table. -/
def precisionTable (p : Pool) (s : Snapshot) : Except Fault PrecisionTable :=
  match p with
  | .constantProduct _ => .error .notOffered
  | .stable q => q.precisionTable s

end Pool

namespace Identity

/-- The total of each member over the entries of a list, in pool order. Where an asset is a
member twice, the first place takes it all. -/
def ordered (p : Identity) (foreign : AssetId → Fault) (as : Assets) : Except Fault (List Nat) :=
  match List.find? (fun a => !p.has a.id) as with
  | some a => .error (foreign a.id)
  | none => .ok (p.members.zipIdx.map fun (id, i) =>
      if p.indexOf id = some i then Assets.total as id else 0)

/-- One entry per member. -/
def inPoolOrder (p : Identity) (foreign : AssetId → Fault) (as : Assets) : Except Fault Assets := do
  let totals ← p.ordered foreign as
  (p.members.zip totals).mapM fun (id, n) => Asset.of id (n : Int)

end Identity
end Liquidity
