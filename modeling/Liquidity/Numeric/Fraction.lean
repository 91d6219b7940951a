import Liquidity.Decimal.Arithmetic
import Liquidity.Numeric.Parts

/-! Decimal arithmetic as steps of a computation that ends where a result is too large or
has no value. -/

namespace Liquidity
set_option autoImplicit false

namespace Decimal

/-- A result, or the fault of having none because it is too large. -/
def found : Option Decimal → Except Fault Decimal
  | some d => .ok d
  | none => .error .decimalTooLarge

/-- The sum. -/
def plus (a b : Decimal) : Except Fault Decimal := found (a.add b)

/-- The difference. -/
def minus (a b : Decimal) : Except Fault Decimal := found (a.sub b)

/-- The product. -/
def times (a b : Decimal) : Except Fault Decimal := found (a.mul b)

/-- The quotient; nothing by nothing is told apart from something by nothing. -/
def dividedBy (a b : Decimal) : Except Fault Decimal :=
  if b.coefficient ≠ 0 then found (a.div b)
  else if a.coefficient = 0 then .error .undefinedQuotient
  else .error .unboundedQuotient

/-- The decimal with its point moved by `k` places. -/
def scaled (d : Decimal) (k : Int) : Except Fault Decimal := found (d.scale k)

/-- The value of a float in full. -/
def ofFloat (negative : Bool) (m : Nat) (q : Int) : Decimal :=
  let (m, q) := Binary64.reduced m q
  ⟨negative, m * Binary64.twoTo q.toNat * Nat.pow 5 (-q).toNat, min q 0⟩

namespace Numeral

def ofFloat : Binary64 → Numeral
  | .finite negative m q => .finite (Decimal.ofFloat negative m q)
  | .infinite negative => .infinite negative
  | .undefined => .undefined false false 0

/-- The quotient. One that is undefined keeps the last digits of what made it so, and
anything finite is nothing beside an infinite divisor. -/
def dividedBy : Numeral → Numeral → Except Fault Numeral
  | .undefined _ true _, _ | _, .undefined _ true _ => .error .notDecimal
  | .undefined negative _ tag, _ | _, .undefined negative _ tag =>
    .ok (.undefined negative false (tag % Text.tenTo precision))
  | .infinite _, .infinite _ => .error .undefinedQuotient
  | .infinite m, .finite d => .ok (.infinite (m != d.negative))
  | .finite d, .infinite n => .ok (.finite ⟨d.negative != n, 0, leastPlace⟩)
  | .finite a, .finite b => (a.dividedBy b).map .finite

@[simp] theorem dividedBy_finite (a b : Decimal) :
    dividedBy (.finite a) (.finite b) = (a.dividedBy b).map .finite := rfl

def scaled (k : Int) : Numeral → Except Fault Numeral
  | .finite d => (d.scaled k).map .finite
  | value => .ok value

end Numeral
end Decimal

/-- A figure as a numeral, with all of its digits. -/
def Operand.numeral {α : Type} [Operand α] (a : α) : Except Fault Decimal.Numeral :=
  match toJson a with
  | .int n => .ok (.finite (Decimal.ofInt n))
  | .bool b => .ok (.finite (Decimal.ofInt (if b then 1 else 0)))
  | .float x => .ok (.ofFloat x)
  | .str s =>
    match Decimal.read? s with
    | some value => .ok value
    | none => .error .notDecimal
  | .arr parts => Decimal.Numeral.ofParts parts
  | _ => .error .notOperand

@[simp] theorem Operand.numeral_int (n : Int) :
    Operand.numeral n = .ok (.finite (Decimal.ofInt n)) := rfl

end Liquidity
