import Liquidity.Numeric.Fraction
import Liquidity.Stable.Invariant

/-! The price at which a stable pool of two assets would trade a very small amount. -/

namespace Liquidity.Stable
set_option autoImplicit false

open Decimal (Numeral)
open Checked (inFloat copies)
open Operand

variable {ν α : Type} [Operand ν] [Operand α]

/-- The slope of the invariant's curve at balances `x` and `y` as a fraction: the same large
term above and below, plus the cube of `d` times one balance each. -/
def slope (amp ampPrecision d x y : Int) : Int × Int :=
  let shared := 4 * amp * 2 * x * x * y * y
  let term := ampPrecision * (d * d * d)
  (shared + term * y, shared + term * x)

/-- The slope where amplifications count in parts that a float states. -/
def floatSlope (amp : Int) (part : Binary64) (d x y : Int) :
    Except Fault (Binary64 × Binary64) := do
  let shared ← inFloat (4 * amp * 2 * x * x * y * y)
  let term := part.mul (← inFloat (d * d * d))
  return (shared.add (term.mul (← inFloat y)), shared.add (term.mul (← inFloat x)))

/-- What the slope comes to where amplifications count in parts that a text or a list states:
`d ^ 3` copies of it, and `y` copies of those, are no number. -/
def repeatedPart (size : Nat) (kind : Json.Kind) (d y : Int) : Except Fault α := do
  let size ← copies (d * d * d) size kind
  let _ ← copies y size kind
  throw .notOperand

/-- The price of the first asset in units of the second. -/
def spotPrice (s : Shape ν) : List α → Except Fault Numeral
  | [x, y] => do
    if isZero x || isZero y then throw .emptyReservePrice
    let d ← invariant s [x, y]
    let amp ← strict s.amp
    let x ← strict x
    let y ← strict y
    match toJson s.ampPrecision with
    | .float part =>
      let (num, den) ← floatSlope amp part d x y
      (Numeral.ofFloat num).dividedBy (.ofFloat den)
    | .str s => repeatedPart s.length .str d y
    | .arr items => repeatedPart items.length .arr d y
    | _ =>
      let (num, den) := slope amp (← count s.ampPrecision) d x y
      (Numeral.finite (.ofInt num)).dividedBy (.finite (.ofInt den))
  | balances => .error (.spotBalanceCount balances.length)

end Liquidity.Stable
