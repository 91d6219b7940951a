import Liquidity.Numeric.Checked

/-! Amounts at a number of decimals, and the table of decimals per asset. Scaling up is
exact and scaling down is floored. -/

namespace Liquidity
set_option autoImplicit false

open Operand

variable {α β : Type} [Operand α] [Operand β]

/-- An amount at `current` decimals expressed at `new` decimals. -/
def rescale (value current new : Int) : Except Fault Int :=
  if current ≤ new then Width.uint128.check (value * Text.tenTo (new - current).toNat)
  else do
    let n ← Checked.div value (Text.tenTo (current - new).toNat : Int)
    Width.uint128.check n

/-- Whether one of two figures is below zero. The second is looked at if the first is not. -/
def eitherNegative (a b : β) : Except Fault Bool := do
  if ← less a (0 : Int) then return true else less b (0 : Int)

/-- What rescaling `value` comes to where one of the two numbers of decimals is a float: the
factor would be a float as well. -/
def floatRescale (value : Int) (current new : Json) : Except Fault Int := do
  let distance := (← Checked.floatOf current).sub (← Checked.floatOf new)
  if Checked.floatPower 10 distance.abs = .beyondFloat then throw .beyondFloat
  throw (Checked.lossy value)

/-- Numbers of decimals that are not whole will do where they are equal. -/
def adjustPrecision (value : α) (current new : β) : Except Fault Int := do
  if ← eitherNegative current new then
    throw (.negativePrecision (toJson current) (toJson new))
  let n ← strict value
  match whole? current, whole? new with
  | some c, some m => rescale n c m
  | _, _ =>
    if equal current new then Width.uint128.check n
    else floatRescale n (toJson current) (toJson new)

theorem adjustPrecision_int (value current new : Int) : adjustPrecision value current new =
    if current < 0 ∨ new < 0 then .error (.negativePrecision current new)
    else rescale value current new := by
  unfold adjustPrecision eitherNegative
  by_cases hc : current < 0
  · simp [hc, bind, Except.bind, pure, Except.pure, throw, throwThe, MonadExceptOf.throw]
  · by_cases hn : new < 0 <;>
      simp [hc, hn, bind, Except.bind, throw, throwThe, MonadExceptOf.throw]

/-- The greatest of `p` and `ps`, the first of equal ones. -/
def greatestFrom (p : β) (ps : List β) : Except Fault β :=
  ps.foldlM (fun m x => do if ← less m x then return x else return m) p

def greatestPrecision : List β → Except Fault β
  | [] => .error .noPrecisions
  | p :: ps => greatestFrom p ps

/-- Brings each amount from its own precision to `target`. -/
def normalize (amounts : List α) (precisions : List β) (target : β) : Except Fault (List Int) :=
  if amounts.length ≠ precisions.length then
    .error (.precisionCount amounts.length precisions.length)
  else (amounts.zip precisions).mapM fun (a, p) => adjustPrecision a p target

/-- Brings each amount from `source` to its own precision. -/
def denormalize (amounts : List α) (precisions : List β) (source : β) : Except Fault (List Int) :=
  if amounts.length ≠ precisions.length then
    .error (.precisionCount amounts.length precisions.length)
  else (amounts.zip precisions).mapM fun (a, p) => adjustPrecision a source p

/-- Decimals per asset, in order of first appearance. -/
abbrev PrecisionTable := List (AssetId × Figure)

namespace PrecisionTable

def maxPrecision : Int := 38

/-- Enters the decimals of an asset: an old entry keeps its place, a new one comes last. -/
def put (t : List (AssetId × α)) (id : AssetId) (p : α) : List (AssetId × α) :=
  match t with
  | [] => [(id, p)]
  | (k, q) :: rest => if k = id then (k, p) :: rest else (k, q) :: put rest id p

/-- Truth values are no decimals. -/
def isInRange : Figure → Except Fault Bool
  | .bool _ => .ok false
  | p => do
    if ← atMost (0 : Int) p then atMost p maxPrecision else return false

def inRange (id : AssetId) (p : Figure) : Except Fault Figure := do
  if ← isInRange p then return p else throw (.precisionRange id p)

/-- The table of the entries, if all decimals are in range. -/
def ofEntries (entries : List (AssetId × Figure)) : Except Fault PrecisionTable :=
  (entries.foldl (fun t (id, p) => put t id p) []).mapM fun (id, p) => (inRange id p).map (id, ·)

def precisionOf (t : PrecisionTable) (id : AssetId) : Except Fault Figure :=
  match t.lookup id with
  | some p => .ok p
  | none => .error (.foreignInput id)

def greatest (t : PrecisionTable) (ids : List AssetId) : Except Fault Figure := do
  match ← ids.mapM t.precisionOf with
  | [] => .error .nothingToCompare
  | p :: ps => greatestFrom p ps

end PrecisionTable
end Liquidity
