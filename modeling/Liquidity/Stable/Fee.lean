import Liquidity.Numeric.Checked

/-! The fee on operations that move a stable pool out of balance. -/

namespace Liquidity.Stable
set_option autoImplicit false

/-- Fee rates count in units of this fraction. -/
def feeDenominator : Int := 10000000000

open Operand

variable {ν β : Type} [Operand ν] [Operand β]

/-- The rate charged per asset of a pool of `n`. -/
def imbalanceRate (fee : ν) (n : β) : Except Fault Int := do
  let total ← Checked.mul (← strict fee) n
  Checked.div total (4 * ((← count n) - 1))

/-- A balance less the fee on its distance from the ideal, its old value scaled by the
growth of the invariant. -/
def chargedBalance (dBefore dAfter rate : Int) (old new : Int) (position : Nat) :
    Except Fault Int := do
  let ideal ← Checked.mulDiv old dAfter dBefore
  let fee ← Checked.div (Checked.absDiff ideal new * rate) feeDenominator
  if new < fee then throw (.feeAboveBalance fee new position)
  Checked.sub new fee

def chargeImbalance (dBefore dAfter : Int) (old new : List Int) (fee : ν) :
    Except Fault (List Int) := do
  let rate ← imbalanceRate fee (old.length : Int)
  ((old.zip new).zipIdx).mapM fun ((o, n), i) => chargedBalance dBefore dAfter rate o n i

end Liquidity.Stable
