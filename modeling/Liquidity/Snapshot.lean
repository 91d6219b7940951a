import Liquidity.Amount
import Liquidity.Identity
import Liquidity.Ramp

/-! What is known of the ledger at one moment. Later registrations stand before earlier
ones and hide them. Times, decimals, quotes and creators are kept as stated. -/

namespace Liquidity
set_option autoImplicit false

structure Snapshot where
  blockTime : Figure := .int 0
  nativePrecision : Figure := .int 6
  pairs : List (String × Identity) := []
  nativePools : List (Int × Identity) := []
  reserves : List (String × Reserves) := []
  ramps : List (String × Ramp) := []
  precisions : List (AssetId × Figure) := []
  creators : List (Json × Json) := []
  quotes : List ((String × Asset × AssetId) × Figure) := []

namespace Snapshot

def empty (blockTime : Figure) (config : Config) : Snapshot :=
  { blockTime := blockTime, nativePrecision := config.nativePrecision }

def found {α : Type} (what : Unread) : Option α → Except Fault α
  | some a => .ok a
  | none => .error (.unread what)

/-- Registers a pool. The creator of a contract-issued LP token is the pool, and a pool with
an id is a native pool as well. A ramp that is not given leaves an older one standing. -/
def addPool (s : Snapshot) (p : Identity) (r : Reserves) (ramp : Option Ramp) : Snapshot :=
  { s with
    pairs := (p.address, p) :: s.pairs
    reserves := (p.address, r) :: s.reserves
    ramps := match ramp with
      | some ramp => (p.address, ramp) :: s.ramps
      | none => s.ramps
    creators :=
      if p.lpToken.isNative then s.creators else (.str p.lpToken.identifier, .str p.address) :: s.creators
    nativePools := match p.poolId with
      | some n => ((n : Int), p) :: s.nativePools
      | none => s.nativePools }

def setReserves (s : Snapshot) (p : Identity) (r : Reserves) : Except Fault Snapshot :=
  match s.pairs.lookup p.address with
  | some _ => .ok { s with reserves := (p.address, r) :: s.reserves }
  | none => .error (.unread (.pool p.address))

def addPrecision (s : Snapshot) (id : AssetId) (precision : Figure) : Snapshot :=
  { s with precisions := (id, precision) :: s.precisions }

/-- Lists and objects are no keys. -/
def key : Json → Except Fault Json
  | .arr _ | .obj _ => .error .notOperand
  | j => .ok j

def addCreator (s : Snapshot) (address creator : Json) : Except Fault Snapshot := do
  return { s with creators := (← key address, creator) :: s.creators }

def addQuote (s : Snapshot) (p : Identity) (offer : Asset) (ask : AssetId) (amount : Figure) :
    Snapshot :=
  { s with quotes := ((p.address, offer, ask), amount) :: s.quotes }

def reservesOf (s : Snapshot) (p : Identity) : Except Fault Reserves :=
  found (.reserves p.address) (s.reserves.lookup p.address)

/-- Native denoms without a precision of their own have the common one. -/
def usualPrecision (s : Snapshot) (id : AssetId) : Except Fault Figure :=
  if id.isNative then .ok s.nativePrecision else .error (.unread (.tokenInfo id))

def precisionOf (s : Snapshot) (id : AssetId) : Except Fault Figure :=
  match s.precisions.lookup id with
  | some .null | none => s.usualPrecision id
  | some p => .ok p

def rampOf (s : Snapshot) (p : Identity) : Except Fault Ramp :=
  found (.ramp p.address) (s.ramps.lookup p.address)

def quoteOf (s : Snapshot) (p : Identity) (offer : Asset) (ask : AssetId) : Except Fault Figure :=
  found (.quote offer ask p.address) (s.quotes.lookup (p.address, offer, ask))

/-- The latest value under a key. Keys that are equal by meaning are one. -/
def latest {α : Type} (k : Json) (entries : List (Json × α)) : Option α :=
  (entries.find? fun (l, _) => Json.coincide l k).map (·.2)

def creatorOf (s : Snapshot) (address : Json) : Except Fault Json := do
  found (.creator address) (latest (← key address) s.creators)

def pairAt (s : Snapshot) (address : Json) : Except Fault Identity := do
  match ← key address with
  | .str a => found (.pair address) (s.pairs.lookup a)
  | _ => throw (.unread (.pair address))

/-- Pools go by their id, also where it is stated as a float or a truth value. -/
def nativePool (s : Snapshot) (poolId : Figure) : Except Fault Identity := do
  let id ← key poolId
  found (.nativePool poolId) ((s.nativePools.find? fun (n, _) => Operand.equal id n).map (·.2))

end Snapshot

end Liquidity
