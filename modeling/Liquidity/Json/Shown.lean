import Liquidity.Binary64.Layout
import Liquidity.Json.Writer
import Liquidity.Text.Numeral
import Liquidity.Text.Printable

/-! JSON values in the texts of faults. A text shows as it is, and inside of a list or an object
in quotes and with the codes of what cannot be shown. -/

namespace Liquidity.Json
set_option autoImplicit false

def shownLayout : Binary64.Layout := { fullFrom := -4, exponentDigits := 2 }

def shownFloat : Binary64 → List Char
  | .finite negative m q => shownLayout.finite negative m q
  | .infinite negative => (if negative then ['-'] else []) ++ ['i', 'n', 'f']
  | .undefined => ['n', 'a', 'n']

/-- The last `n` hexadecimal digits of a number. -/
def hexDigits : Nat → Nat → List Char
  | 0, _ => []
  | n + 1, v => hexDigits n (v / 16) ++ [hexChar (v % 16)]

/-- The code of a character, in as few of two, four or eight digits as will do. -/
def codeEscape (c : Char) : List Char :=
  let n := c.toNat
  if n < 0x100 then '\\' :: 'x' :: hexDigits 2 n
  else if n < 0x10000 then '\\' :: 'u' :: hexDigits 4 n
  else '\\' :: 'U' :: hexDigits 8 n

def shownEscape (quote c : Char) : List Char :=
  if c = quote ∨ c = '\\' then ['\\', c]
  else if c = '\n' then ['\\', 'n']
  else if c = '\r' then ['\\', 'r']
  else if c = '\t' then ['\\', 't']
  else if Text.isPrintable c then [c]
  else codeEscape c

/-- Single quotes, unless they stand in the text and double ones do not. -/
def shownQuoted (s : String) : List Char :=
  let quote := if s.toList.contains '\'' && !s.toList.contains '"' then '"' else '\''
  quote :: s.toList.flatMap (shownEscape quote) ++ [quote]

mutual

def shownInside : Json → List Char
  | .null => ['N', 'o', 'n', 'e']
  | .bool true => ['T', 'r', 'u', 'e']
  | .bool false => ['F', 'a', 'l', 's', 'e']
  | .int n => Text.intNumeral n
  | .float x => shownFloat x
  | .str s => shownQuoted s
  | .arr items => '[' :: shownItems items ++ [']']
  | .obj members => '{' :: shownMembers members ++ ['}']

def shownItems : List Json → List Char
  | [] => []
  | [j] => shownInside j
  | j :: rest => shownInside j ++ ',' :: ' ' :: shownItems rest

def shownMembers : List (String × Json) → List Char
  | [] => []
  | [(k, j)] => shownQuoted k ++ ':' :: ' ' :: shownInside j
  | (k, j) :: rest => shownQuoted k ++ ':' :: ' ' :: shownInside j ++ ',' :: ' ' :: shownMembers rest

end

def shown : Json → String
  | .str s => s
  | .int n => Text.intText n
  | j => String.ofList (shownInside j)

/-- Whether a value is a number with too many digits to be shown. -/
def isOverlong : Json → Bool
  | .int n => Text.isOverlong n
  | _ => false

@[simp] theorem shown_int (n : Int) : shown (.int n) = Text.intText n := rfl

end Liquidity.Json
