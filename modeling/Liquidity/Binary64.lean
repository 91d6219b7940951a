import Liquidity.Decimal.Arithmetic

/-! Binary floating point numbers of 64 bits, kept as exact dyadic fractions. A decimal
rounds to the nearest of them, a half to the even significand, and each of them has a
shortest decimal that rounds back to it. -/

namespace Liquidity
set_option autoImplicit false

/-- Which of two numbers that are equally near is taken: the even one or the greater one. -/
inductive Tie where
  | even
  | up
deriving DecidableEq, Repr

namespace Binary64

def minExponent : Int := -1074
def maxExponent : Int := 971
def hidden : Nat := 4503599627370496

/-- 53 bits hold the significand, and 11 bits the exponent. -/
structure Fits (significand : Nat) (exponent : Int) : Prop where
  significand_lt : significand < 2 * hidden
  le_exponent : minExponent ≤ exponent
  exponent_le : exponent ≤ maxExponent

instance (m : Nat) (q : Int) : Decidable (Fits m q) :=
  decidable_of_iff (m < 2 * hidden ∧ minExponent ≤ q ∧ q ≤ maxExponent)
    ⟨fun ⟨hm, hlow, hhigh⟩ => ⟨hm, hlow, hhigh⟩, fun ⟨hm, hlow, hhigh⟩ => ⟨hm, hlow, hhigh⟩⟩

end Binary64

/-- A finite value is `significand * 2 ^ exponent`. -/
inductive Binary64 where
  | finite (negative : Bool) (significand : Nat) (exponent : Int)
      {h : Binary64.Fits significand exponent}
  | infinite (negative : Bool)
  | undefined
deriving DecidableEq, Repr

namespace Binary64

open Text (tenTo)

def twoTo (n : Nat) : Nat := Nat.pow 2 n

/-- `num / den` in units of `2 ^ q`, as numerator and denominator. -/
def inUnits (num den : Nat) (q : Int) : Nat × Nat :=
  (num * twoTo (-q).toNat, den * twoTo q.toNat)

/-- The exponent at which `num / den` has 53 bits before the point, or the least exponent. -/
def exponentFor (num den : Nat) : Int :=
  let q : Int := (Nat.log2 num : Int) - Nat.log2 den - 52
  let (n, d) := inUnits num den q
  max minExponent (if n / d < hidden then q - 1 else q)

/-- The significand and the exponent that `num / den` rounds to. -/
def rounded (num den : Nat) : Nat × Int :=
  let q := exponentFor num den
  let (n, d) := inUnits num den q
  let m := Decimal.roundDiv n d
  if m = 2 * hidden then (hidden, q + 1) else (m, q)

/-- The nearest value to `num / den`; only its exponent can be too large. -/
def roundRatio (negative : Bool) (num den : Nat) : Binary64 :=
  let (m, q) := rounded num den
  if h : Fits m q then .finite negative m q (h := h) else .infinite negative

/-- Zero has a sign. -/
def zero (negative : Bool) : Binary64 := .finite negative 0 minExponent (h := by decide)

/-- The nearest value to a decimal. Beyond 400 places either way the answer is known
without forming the power of ten. -/
def ofDecimal (d : Decimal) : Binary64 :=
  if d.coefficient = 0 ∨ d.adjusted < -400 then .zero d.negative
  else if 400 < d.adjusted then .infinite d.negative
  else roundRatio d.negative (d.coefficient * tenTo d.exponent.toNat) (tenTo (-d.exponent).toNat)

def ofInt (n : Int) : Binary64 := ofDecimal (Decimal.ofInt n)

/-- The significand without factors of two that the exponent has room for. -/
def reduced (m : Nat) (q : Int) : Nat × Int :=
  if h : q < 0 ∧ m % 2 = 0 ∧ m ≠ 0 then reduced (m / 2) (q + 1)
  else if m = 0 then (0, 0) else (m, q)
termination_by m
decreasing_by omega

def isNegative : Binary64 → Bool
  | .finite negative m _ => negative && m != 0
  | .infinite negative => negative
  | .undefined => false

/-- The signed significand at exponent `e`, for `e` no larger than `q`. -/
def signedAt (negative : Bool) (m : Nat) (q e : Int) : Int :=
  let n : Int := (m * twoTo (q - e).toNat : Nat)
  if negative then -n else n

def sub : Binary64 → Binary64 → Binary64
  | .undefined, _ | _, .undefined => .undefined
  | .infinite a, .infinite b => if a = b then .undefined else .infinite a
  | .infinite a, _ => .infinite a
  | _, .infinite b => .infinite !b
  | .finite a m p, .finite b n q =>
    let e := min p q
    let d := signedAt a m p e - signedAt b n q e
    roundRatio (d < 0) (d.natAbs * twoTo e.toNat) (twoTo (-e).toNat)

def neg : Binary64 → Binary64
  | @finite negative m q h => .finite (!negative) m q (h := h)
  | .infinite negative => .infinite !negative
  | .undefined => .undefined

def abs : Binary64 → Binary64
  | @finite _ m q h => .finite false m q (h := h)
  | .infinite _ => .infinite false
  | .undefined => .undefined

def add (x y : Binary64) : Binary64 := x.sub y.neg

def mul : Binary64 → Binary64 → Binary64
  | .undefined, _ | _, .undefined => .undefined
  | .infinite a, .infinite b => .infinite (a != b)
  | .infinite a, .finite b n _ => if n = 0 then .undefined else .infinite (a != b)
  | .finite a m _, .infinite b => if m = 0 then .undefined else .infinite (a != b)
  | .finite a m p, .finite b n q =>
    roundRatio (a != b) (m * n * twoTo (p + q).toNat) (twoTo (-(p + q)).toNat)

/-- The exponent of the leading decimal digit of `significand * 2 ^ exponent`. -/
def leading (m : Nat) (q : Int) : Int :=
  (Decimal.numDigits (m * twoTo q.toNat * Nat.pow 5 (-q).toNat) : Int) - 1 - (-q).toNat

/-- The multiples of `10 ^ s` around `m * 2 ^ q` that round to it, the nearer first. -/
def candidates (tie : Tie) (m : Nat) (q s : Int) : List Nat :=
  let unit := twoTo (q - 2).toNat * tenTo (-s).toNat
  let step := tenTo s.toNat * twoTo (2 - q).toNat
  let value := 4 * m * unit
  let low := (if m = hidden ∧ minExponent < q then 4 * m - 1 else 4 * m - 2) * unit
  let high := (4 * m + 2) * unit
  let inside (c : Nat) : Bool :=
    if m % 2 = 0 then low ≤ c * step && c * step ≤ high else low < c * step && c * step < high
  let below := value / step
  let above := below + 1
  let belowFirst : Bool :=
    let down := value - below * step
    let up := above * step - value
    down < up || (down == up && tie == .even && below % 2 == 0)
  (if belowFirst then [below, above] else [above, below]).filter inside

/-- Tries ever finer decimal grids, `n` more of them. -/
def search (tie : Tie) (m : Nat) (q : Int) : Nat → Int → Nat × Int
  | 0, s => (0, s)
  | n + 1, s =>
    match candidates tie m q s with
    | c :: _ => Decimal.dropZeros 17 c s
    | [] => search tie m q n (s - 1)

/-- The fewest digits that read back, nearest to the value among those. -/
def shortest (tie : Tie) (m : Nat) (q : Int) : Nat × Int :=
  if m = 0 then (0, 0) else search tie m q 17 (leading m q)

def isWhole : Binary64 → Bool
  | .finite _ m q => m % twoTo (-q).toNat == 0
  | _ => false

def truncate : Binary64 → Int
  | .finite negative m q =>
    let n := m * twoTo q.toNat / twoTo (-q).toNat
    if negative then -(n : Int) else n
  | _ => 0

end Binary64
end Liquidity
