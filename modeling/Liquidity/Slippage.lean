import Liquidity.Numeric.Fraction
import Liquidity.Simulation

/-! Guards on deposits that look at prices: how far the pool price may end from a believed
price or from where it was. -/

namespace Liquidity
set_option autoImplicit false

/-- A fraction from zero to one. -/
abbrev Ratio := { d : Decimal // Decimal.zero ≤ d ∧ d ≤ Decimal.one }

def Price.of (base quote : AssetId) : Decimal.Numeral → Except Fault Price
  | .finite value =>
    if h : Decimal.zero < value then .ok ⟨base, quote, value, h⟩
    else .error (.invalid [⟨.notAbove, [.member "price"]⟩])
  | _ => .error (.invalid [⟨.notFinite, [.member "price"]⟩])

/-- The price in the direction asked for; the other direction is one over it. -/
def Price.quoted (p : Price) (base quote : AssetId) : Except Fault Decimal :=
  if base = p.base ∧ quote = p.quote then .ok p.value
  else if base = p.quote ∧ quote = p.base then Decimal.one.dividedBy p.value
  else .error (.priceMismatch base quote)

/-- Whether a price is farther from the reference than the tolerance allows. The lower bound
is found only for prices within the upper one. -/
def outside (price reference tolerance : Decimal) : Except Fault Bool := do
  let upper ← reference.times (← Decimal.one.plus tolerance)
  if upper < price then return true
  let lower ← reference.times (← Decimal.one.minus tolerance)
  return decide (price < lower)

structure MinOut where
  minOut : Uint128
deriving DecidableEq, Repr

structure BeliefPrice where
  belief : Price
  tolerance : Ratio
deriving DecidableEq, Repr

structure MaxPriceImpact where
  limit : Ratio
deriving DecidableEq, Repr

/-- Three percent. -/
def MaxPriceImpact.usual : Ratio := ⟨⟨false, 3, -2⟩, by decide +kernel⟩

inductive SlippageControl where
  | minOut (g : MinOut)
  | beliefPrice (g : BeliefPrice)
  | maxPriceImpact (g : MaxPriceImpact)
deriving DecidableEq, Repr

namespace MinOut

def check (g : MinOut) (shares : Figure) : Except Fault Unit :=
  checkMinOut shares (g.minOut.val : Int) none

end MinOut

namespace BeliefPrice

def check (g : BeliefPrice) (old new : Option Price) : Except Fault Unit :=
  match new with
  | none => .error .beliefWithoutPrice
  | some price => do
    let observed ← price.quoted g.belief.base g.belief.quote
    if ← outside observed g.belief.value g.tolerance.val then throw (.priceOutOfRange old new)

def agrees (g h : BeliefPrice) : Bool :=
  g.belief.agrees h.belief && g.tolerance.val.sameValue h.tolerance.val

end BeliefPrice

namespace MaxPriceImpact

/-- A pool that had no price has none to move. -/
def check (g : MaxPriceImpact) (old new : Option Price) : Except Fault Unit :=
  match old, new with
  | some p, some q => do
    if ← outside q.value p.value g.limit.val then throw (.priceOutOfRange old new)
  | _, _ => .ok ()

def agrees (g h : MaxPriceImpact) : Bool := g.limit.val.sameValue h.limit.val

end MaxPriceImpact

namespace SlippageControl

def check (c : SlippageControl) (old new : Option Price) (shares : Figure) : Except Fault Unit :=
  match c with
  | .minOut g => g.check shares
  | .beliefPrice g => g.check old new
  | .maxPriceImpact g => g.check old new

def agrees : SlippageControl → SlippageControl → Bool
  | .minOut g, .minOut h => g == h
  | .beliefPrice g, .beliefPrice h => g.agrees h
  | .maxPriceImpact g, .maxPriceImpact h => g.agrees h
  | _, _ => false

end SlippageControl
end Liquidity
