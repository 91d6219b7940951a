import Liquidity.Numeric.Checked

/-! The invariant of a stable pool: the size `D` that the balances would have in total if
they were equal and worth as much. It is found by Newton steps, of which only so many are
taken; what the last one gives stands. -/

namespace Liquidity.Stable
set_option autoImplicit false

open Operand

variable {ν α : Type} [Operand ν] [Operand α]

/-- What the search for the invariant depends on besides the balances. -/
structure Shape (ν : Type := Int) where
  amp : ν
  maxIterations : ν
  ampPrecision : ν
deriving DecidableEq, Repr

/-- At most 32 steps, and amplifications in hundredths. -/
def Shape.usual (amp : ν) : Shape ν := ⟨amp, ofInt 32, ofInt 100⟩

def total (balances : List Int) : Int := balances.foldr (· + ·) 0

/-- The power `n + 1` of `d` over the product of the balances times `n`, one balance at a
time and each divisor one larger. -/
def productTerm (balances : List Int) (d : Int) : Except Fault Int :=
  balances.foldlM (fun p b => Checked.div (p * d) (b * balances.length + 1 : Int)) d

/-- One step from `d`, where `leverage` is the amplification times the number of balances. -/
def newtonStep (leverage : Int) (ampPrecision : ν) (balances : List Int) (d : Int) :
    Except Fault Int := do
  let n := balances.length
  let p ← productTerm balances d
  let weighted ← Checked.div (leverage * total balances) ampPrecision
  let slack ← Checked.sub leverage ampPrecision
  let slope ← Checked.div (slack * d) ampPrecision
  Checked.div ((weighted + p * n) * d) (slope + p * (n + 1))

/-- At most `steps` Newton steps from `d`, fewer once one moves by at most one. -/
def newton (leverage : Int) (ampPrecision : ν) (balances : List Int) : Nat → Int → Except Fault Int
  | 0, d => .ok d
  | steps + 1, d => do
    let d' ← newtonStep leverage ampPrecision balances d
    if Checked.absDiff d' d ≤ 1 then return d' else newton leverage ampPrecision balances steps d'

/-- The invariant; zero if any balance is. -/
def invariant (s : Shape ν) (balances : List α) : Except Fault Int := do
  if balances.length < 2 then throw (.tooFewAssets balances.length)
  if balances.any isZero then return 0
  let bs ← balances.mapM strict
  let leverage := (← strict s.amp) * bs.length
  let steps ← count s.maxIterations
  let d ← newton leverage s.ampPrecision bs steps.toNat (total bs)
  Width.uint128.check d

end Liquidity.Stable
