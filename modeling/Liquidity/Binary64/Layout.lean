import Liquidity.Binary64

/-! The text of floats: the shortest digits, of equally near ones the even, in full while the
value is of a moderate size, and with an exponent otherwise. -/

namespace Liquidity.Binary64
set_option autoImplicit false

/-- Where the notation in full begins, as the exponent of the leading digit, and how many
digits an exponent has at least. -/
structure Layout where
  fullFrom : Int
  exponentDigits : Nat
deriving DecidableEq, Repr

namespace Layout

def exponentText (l : Layout) (e : Int) : List Char :=
  let ds := Text.numeral e.natAbs
  (if e < 0 then '-' else '+') :: Decimal.zeros (l.exponentDigits - ds.length) ++ ds

/-- The text of the digits times a power of ten. From `10 ^ 16` on it has an exponent. -/
def render (l : Layout) (digits : List Char) (exponent : Int) : List Char :=
  let leading : Int := digits.length + exponent - 1
  if leading < l.fullFrom ∨ 16 ≤ leading then
    let mantissa := match digits with
      | c :: rest@(_ :: _) => c :: '.' :: rest
      | _ => digits
    mantissa ++ 'e' :: l.exponentText leading
  else if 0 ≤ exponent then digits ++ Decimal.zeros exponent.toNat ++ ['.', '0']
  else Decimal.placed digits (leading + 1)

def finite (l : Layout) (negative : Bool) (m : Nat) (q : Int) : List Char :=
  let (c, e) := shortest .even m q
  (if negative then ['-'] else []) ++ l.render (Text.numeral c) e

end Layout
end Liquidity.Binary64
