import Liquidity.Text.Blank
import Liquidity.Text.Digit

/-! Numerals as people type them: white space around, a sign, single underscores between
digits. -/

namespace Liquidity.Text
set_option autoImplicit false

/-- The digits of a nonempty run in which single underscores may part neighbours. -/
def digitRun (digit : Char → Option Nat) : List Char → Option (List Nat)
  | [] => none
  | [c] => (digit c).map ([·])
  | c :: '_' :: rest => do
    let d ← digit c
    let ds ← digitRun digit rest
    return d :: ds
  | c :: rest => do
    let d ← digit c
    let ds ← digitRun digit rest
    return d :: ds

/-- Whether a minus sign stands in front, and what follows the sign. -/
def splitSign : List Char → Bool × List Char
  | '-' :: rest => (true, rest)
  | '+' :: rest => (false, rest)
  | rest => (false, rest)

def applySign (negative : Bool) (n : Nat) : Int := if negative then -(n : Int) else n

/-- Numerals with more digits are refused. -/
def digitLimit : Nat := 4300

/-- Whether a number has too many digits to be written. -/
def isOverlong (n : Int) : Bool := tenTo digitLimit ≤ n.natAbs

/-- Stands for a text that needs a number with too many digits. -/
def overlongText : String :=
  "Exceeds the limit (4300 digits) for integer string conversion; " ++
    "use sys.set_int_max_str_digits() to increase the limit"

/-- The whole number that a numeral in digits of any script denotes. -/
def integer? (s : String) : Option Int := do
  let (negative, body) := splitSign (trim isBlank s.toList)
  let ds ← digitRun digit? body
  if ds.length ≤ digitLimit then some (applySign negative (ofDigits ds)) else none

end Liquidity.Text
