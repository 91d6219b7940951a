import Liquidity.Binary64

/-! Powers that are too large for a float. Binary logarithms of 112 places tell them from the
others, for the powers of floats with float exponents come no nearer to the bound than that. -/

namespace Liquidity.Binary64
set_option autoImplicit false

/-- The binary places of a logarithm. -/
def logPlaces : Nat := 112

/-- The binary places of the squares that a logarithm is read off. -/
def squarePlaces : Nat := 256

/-- Appends `n` binary digits to `log`, those of the logarithm of `m / 2 ^ 256`, which is between
one and two. The square has twice the logarithm, so that it passes two just if the next digit
is one. -/
def logDigits : Nat → Nat → Nat → Nat
  | 0, _, log => log
  | n + 1, m, log =>
    let square := m * m / twoTo squarePlaces
    if twoTo (squarePlaces + 1) ≤ square then logDigits n (square / 2) (2 * log + 1)
    else logDigits n square (2 * log)

/-- The binary logarithm of a number other than zero in parts of `2 ^ 112`, rounded down. -/
def logarithm (n : Nat) : Nat :=
  let whole := Nat.log2 n
  logDigits logPlaces (n * twoTo squarePlaces / twoTo whole) whole

/-- The least number that rounds to none of the finite floats. -/
def leastInfinite : Nat := (4 * hidden - 1) * twoTo 970

/-- Whether `base` to the power `m * 2 ^ q` is too large for a float, for a base other than
zero. -/
def isHugePower (base m : Nat) (q : Int) : Bool :=
  logarithm leastInfinite * twoTo (-q).toNat ≤ logarithm base * m * twoTo q.toNat

end Liquidity.Binary64
