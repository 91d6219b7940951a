import Liquidity.Decimal.Basic
import Liquidity.Text.Numeral

/-! Numerals: decimals, and words for infinite and for undefined values. White space around a
numeral and underscores anywhere in it are skipped, and digits may be of any script. The
number read has the digits and the exponent that were written. -/

namespace Liquidity.Decimal
set_option autoImplicit false

/-- What a numeral stands for. Undefined values carry a number of their own, and some of them
signal: no arithmetic takes those. -/
inductive Numeral where
  | finite (d : Decimal)
  | infinite (negative : Bool)
  | undefined (negative signals : Bool) (tag : Nat)
deriving DecidableEq, Repr

def Numeral.text : Numeral → String
  | .finite d => d.text
  | .infinite negative => if negative then "-Infinity" else "Infinity"
  | .undefined negative signals tag =>
    (if negative then "-" else "") ++ (if signals then "sNaN" else "NaN") ++
      (if tag = 0 then "" else String.ofList (Text.numeral tag))

/-- The leading digits and the text after them. -/
def spanDigits (s : List Char) : List Nat × List Char :=
  (s.takeWhile (Text.digit? · |>.isSome) |>.filterMap Text.digit?,
    s.dropWhile (Text.digit? · |>.isSome))

/-- The number after a word for an undefined value. -/
def tag? (s : List Char) : Option Nat := (s.mapM Text.digit?).map Text.ofDigits

/-- The value that a word stands for. -/
def word? (negative : Bool) (s : List Char) : Option Numeral :=
  match s.map Char.toLower with
  | ['i', 'n', 'f'] | ['i', 'n', 'f', 'i', 'n', 'i', 't', 'y'] => some (.infinite negative)
  | 'n' :: 'a' :: 'n' :: tail => (tag? tail).map (.undefined negative false)
  | 's' :: 'n' :: 'a' :: 'n' :: tail => (tag? tail).map (.undefined negative true)
  | _ => none

def fraction? : List Char → List Nat × List Char
  | '.' :: rest => spanDigits rest
  | rest => ([], rest)

/-- The exponent that ends a numeral, zero when none is written. -/
def exponent? : List Char → Option Int
  | [] => some 0
  | c :: rest =>
    if c = 'e' ∨ c = 'E' then
      let (negative, body) := Text.splitSign rest
      match spanDigits body with
      | (ds@(_ :: _), []) => some (Text.applySign negative (Text.ofDigits ds))
      | _ => none
    else none

def maxAdjusted : Int := 999999999999999999
def minExponent : Int := -1999999999999999997

def inRange (d : Decimal) : Bool := d.adjusted ≤ maxAdjusted && minExponent ≤ d.exponent

def unsigned? (negative : Bool) (s : List Char) : Option Decimal := do
  let (whole, rest) := spanDigits s
  let (part, rest) := fraction? rest
  if whole ++ part = [] then none
  let e ← exponent? rest
  let d : Decimal := ⟨negative, Text.ofDigits (whole ++ part), e - part.length⟩
  if d.inRange then some d else none

def read? (s : String) : Option Numeral :=
  let (negative, body) := Text.splitSign ((Text.trim Text.isSpacing s.toList).filter (· ≠ '_'))
  match word? negative body with
  | some value => some value
  | none => (unsigned? negative body).map .finite

end Liquidity.Decimal
