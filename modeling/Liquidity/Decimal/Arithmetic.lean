import Liquidity.Decimal.Basic

/-! Decimal arithmetic with results of at most 28 digits and of bounded exponents. A result
that needs more digits, or digits at smaller places, is rounded to the nearest number there
is, a half to the even one. A result that is too large is none. -/

namespace Liquidity.Decimal
set_option autoImplicit false

open Text (tenTo)

def precision : Nat := 28

/-- The greatest exponent of a leading digit. -/
def maxLeading : Int := 999999

/-- The smallest place that a digit can have. -/
def leastPlace : Int := -1000026

/-- The quotient to the nearest whole number, a half to the even one. -/
def roundDiv (num den : Nat) : Nat :=
  let q := num / den
  let r := num % den
  if 2 * r < den ∨ (2 * r = den ∧ q % 2 = 0) then q else q + 1

/-- A coefficient of at most `10 ^ 28` at a place. Rounding up may just reach that bound, and
the leading digit moves on then. -/
def carried (negative : Bool) (coefficient : Nat) (place : Int) : Option Decimal :=
  if coefficient = tenTo precision then
    if maxLeading < place + precision then none
    else some ⟨negative, tenTo (precision - 1), place + 1⟩
  else some ⟨negative, coefficient, place⟩

/-- The last place of 28 digits of which the first stands at `leading`. -/
def lastPlace (leading : Int) : Int := max leastPlace (leading - (precision - 1 : Nat))

/-- The coefficient at a place above the last digit. Far above it nothing is left. -/
def roundedAt (d : Decimal) (place : Int) : Nat :=
  if d.adjusted + 1 < place then 0
  else roundDiv d.coefficient (tenTo (place - d.exponent).toNat)

/-- An exact result as a number of the bounded kind. -/
def fit (d : Decimal) : Option Decimal :=
  if d.coefficient = 0 then
    some { d with exponent := max leastPlace (min d.exponent maxLeading) }
  else if maxLeading < d.adjusted then none
  else
    let place := lastPlace d.adjusted
    if place ≤ d.exponent then some d else carried d.negative (d.roundedAt place) place

def neg (d : Decimal) : Decimal := { d with negative := !d.negative }

/-- The signed coefficient of `d` at exponent `e`. -/
def signedAt (d : Decimal) (e : Int) : Int :=
  if d.negative then -(d.coefficientAt e : Int) else d.coefficientAt e

/-- A summand that cannot reach the digits kept of `large` may as well be one unit at a
place below them. -/
def settle (large small : Decimal) : Decimal :=
  let place := large.exponent + min (-1) ((numDigits large.coefficient : Int) - precision - 2)
  if large.coefficient = 0 then small
  else if small.coefficient = 0 then { small with exponent := max small.exponent place }
  else if small.adjusted < place then { small with coefficient := 1, exponent := place }
  else small

/-- The sum of summands, the second of which has the smaller exponent. -/
def addOrdered (large small : Decimal) : Option Decimal :=
  let e := small.exponent
  let n := large.signedAt e + small.signedAt e
  fit ⟨if n = 0 then large.negative && small.negative else decide (n < 0), n.natAbs, e⟩

def add (a b : Decimal) : Option Decimal :=
  if a.exponent < b.exponent then addOrdered b (settle b a) else addOrdered a (settle a b)

def sub (a b : Decimal) : Option Decimal := a.add b.neg

def mul (a b : Decimal) : Option Decimal :=
  fit ⟨a.negative != b.negative, a.coefficient * b.coefficient, a.exponent + b.exponent⟩

/-- Drops at most `n` trailing zeros. -/
def dropZeros : Nat → Nat → Int → Nat × Int
  | 0, c, e => (c, e)
  | n + 1, c, e => if c % 10 = 0 then dropZeros n (c / 10) (e + 1) else (c, e)

/-- The fraction `num * 10 ^ shift / den` as numerator and denominator. -/
def shifted (num den : Nat) (shift : Int) : Nat × Nat :=
  (num * tenTo shift.toNat, den * tenTo (-shift).toNat)

/-- The power of ten that brings `num / den` to 28 digits before the point. -/
def quotientShift (num den : Nat) : Int :=
  let s : Int := precision + numDigits den - numDigits num
  let (n, d) := shifted num den s
  if n / d < tenTo precision then s else s - 1

/-- The fraction `num / den` of 28 digits before the point, rounded `k` places above it. -/
def roundedQuotient (num den k : Nat) : Nat :=
  if precision < k then 0 else roundDiv num (den * tenTo k)

/-- The quotient by a divisor other than zero. Exact quotients keep the difference of the
exponents where their digits allow. -/
def div (a b : Decimal) : Option Decimal :=
  let negative := a.negative != b.negative
  let ideal := a.exponent - b.exponent
  if a.coefficient = 0 then fit ⟨negative, 0, ideal⟩
  else
    let s := quotientShift a.coefficient b.coefficient
    let (n, d) := shifted a.coefficient b.coefficient s
    if n % d = 0 then
      let (c, e) := dropZeros s.toNat (n / d) (ideal - s)
      fit ⟨negative, c, e⟩
    else
      let place := max leastPlace (ideal - s)
      if maxLeading < ideal - s + (precision - 1 : Nat) then none
      else carried negative (roundedQuotient n d (place - (ideal - s)).toNat) place

/-- Multiplies by a power of ten. -/
def scale (d : Decimal) (k : Int) : Option Decimal := fit { d with exponent := d.exponent + k }

end Liquidity.Decimal
