import Liquidity.Text.Numeral

/-! Whole numbers in ASCII digits. A plain numeral is read as JSON writes it. Whatever is
no plain numeral is tidied once, of white space, a plus sign, leading zeros, a null fraction
and single underscores, and has to be a plain numeral then. -/

namespace Liquidity.Text
set_option autoImplicit false

inductive Whole where
  | value (n : Int)
  | tooLong
  | unusable
deriving DecidableEq

/-- What follows too long a run of digits is not looked at. -/
def plain (s : List Char) : Whole :=
  let negative := s.head? == some '-'
  let body := if negative then s.tail else s
  let digits := body.takeWhile (asciiDigit? · |>.isSome) |>.filterMap asciiDigit?
  match digits with
  | [] | 0 :: _ :: _ => .unusable
  | ds =>
    if digitLimit < ds.length then .tooLong
    else if ds.length = body.length then .value (applySign negative (ofDigits ds))
    else .unusable

/-- What is left of a numeral that began with a zero, which is `last` so far: zeros and
underscores go up to the first other digit, a minus sign or a point. A point keeps the
character in front of it, and so does the end. -/
def afterZero (last : Char) : List Char → Option (List Char)
  | [] => some [last]
  | c :: rest =>
    if c = '0' ∨ c = '_' then afterZero c rest
    else if c = '.' then some (last :: c :: rest)
    else if c = '-' ∨ (asciiDigit? c).isSome then some (c :: rest)
    else none

/-- Texts that begin with no digit are refused. -/
def stripZeros : List Char → Option (List Char)
  | [] => none
  | c :: rest =>
    if c = '0' then afterZero c rest
    else if (asciiDigit? c).isSome then some (c :: rest)
    else none

/-- Drops a point that only zeros follow, at least one of them. -/
def stripFraction (s : List Char) : List Char :=
  match s.dropWhile (· != '.') with
  | _ :: '0' :: zeros => if zeros.all (· == '0') then s.takeWhile (· != '.') else s
  | _ => s

def hasDouble : List Char → Bool
  | '_' :: '_' :: _ => true
  | _ :: rest => hasDouble rest
  | [] => false

/-- Underscores go if each stands alone between other characters. -/
def stripUnderscores (s : List Char) : List Char :=
  if s.head? = some '_' ∨ s.getLast? = some '_' ∨ hasDouble s then s else s.filter (· != '_')

def tidyMagnitude (s : List Char) : Option (List Char) :=
  (stripZeros s).map fun s => stripUnderscores (stripFraction s)

def tidy (s : List Char) : Option (List Char) :=
  match trim isBlank s with
  | '-' :: rest => (tidyMagnitude rest).map ('-' :: ·)
  | '+' :: rest => tidyMagnitude rest
  | rest => tidyMagnitude rest

/-- The whole number that a text stands for. -/
def whole (s : String) : Whole :=
  match plain s.toList with
  | .value n => .value n
  | .tooLong => .tooLong
  | .unusable =>
    match (tidy s.toList).map plain with
    | some (.value n) => .value n
    | _ => .unusable

end Liquidity.Text
