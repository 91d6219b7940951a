import Liquidity.Text.Digit

/-! Decimal numbers: a sign, a coefficient and a power of ten. Numbers that are equal in
value may differ in exponent, and their text shows it. -/

namespace Liquidity
set_option autoImplicit false

structure Decimal where
  negative : Bool
  coefficient : Nat
  exponent : Int
deriving DecidableEq, Repr

namespace Decimal

def ofInt (n : Int) : Decimal := ⟨decide (n < 0), n.natAbs, 0⟩

def numDigits (n : Nat) : Nat := (Text.digits n).length

/-- The exponent of the leading digit. -/
def adjusted (d : Decimal) : Int := d.exponent + numDigits d.coefficient - 1

/-- The sign as a factor; zero has none. -/
def signum (d : Decimal) : Int :=
  if d.coefficient = 0 then 0 else if d.negative then -1 else 1

/-- The coefficient of `d` at exponent `e`, for `e` no larger than its own. -/
def coefficientAt (d : Decimal) (e : Int) : Nat :=
  if d.coefficient = 0 then 0 else d.coefficient * Text.tenTo (d.exponent - e).toNat

def zeros (n : Nat) : List Char := List.replicate n '0'

def placed (cs : List Char) (point : Int) : List Char :=
  if point ≤ 0 then '0' :: '.' :: zeros (-point).toNat ++ cs
  else cs.take point.toNat ++ '.' :: cs.drop point.toNat

def scientific (cs : List Char) (adjusted : Int) : List Char :=
  let mantissa := match cs with
    | c :: rest@(_ :: _) => c :: '.' :: rest
    | _ => cs
  mantissa ++ 'E' :: (if adjusted < 0 then '-' else '+') :: Text.numeral adjusted.natAbs

def magnitude (d : Decimal) : List Char :=
  let cs := Text.numeral d.coefficient
  if d.exponent ≤ 0 ∧ -6 ≤ d.adjusted then
    if d.exponent = 0 then cs else placed cs (d.exponent + cs.length)
  else scientific cs d.adjusted

/-- Plain notation down to a leading digit six places after the point, and scientific
notation below that and for positive exponents. -/
def text (d : Decimal) : String :=
  String.ofList (if d.negative then '-' :: d.magnitude else d.magnitude)

end Decimal
end Liquidity
