import Liquidity.Decimal.Basic

/-! The order of decimals by value. Comparison is exact: leading digits first, so that
only coefficients of comparable length are ever brought to one exponent. -/

namespace Liquidity.Decimal
set_option autoImplicit false

def compareMagnitude (a b : Decimal) : Ordering :=
  if a.coefficient = 0 ∨ b.coefficient = 0 then compare a.coefficient b.coefficient
  else match compare a.adjusted b.adjusted with
    | .eq =>
      let e := min a.exponent b.exponent
      compare (a.coefficientAt e) (b.coefficientAt e)
    | o => o

def cmp (a b : Decimal) : Ordering :=
  match compare a.signum b.signum with
  | .eq => if a.signum < 0 then compareMagnitude b a else compareMagnitude a b
  | o => o

instance : LT Decimal := ⟨fun a b => a.cmp b = .lt⟩
instance : LE Decimal := ⟨fun a b => a.cmp b ≠ .gt⟩

instance (a b : Decimal) : Decidable (a < b) := inferInstanceAs (Decidable (a.cmp b = .lt))
instance (a b : Decimal) : Decidable (a ≤ b) := inferInstanceAs (Decidable (a.cmp b ≠ .gt))

/-- Equality of value. -/
def sameValue (a b : Decimal) : Bool := a.cmp b == .eq

def zero : Decimal := ofInt 0
def one : Decimal := ofInt 1

end Liquidity.Decimal
