import Liquidity.Json.Equality

/-! The order of JSON values: of numbers by value, where truth values count as one and zero,
of texts by their characters, and of lists by the first items that differ. -/

namespace Liquidity.Json
set_option autoImplicit false

/-- The sign of an infinite number, and zero for a finite one. -/
def extent? : Json → Option Int
  | .float (.infinite negative) => some (if negative then -1 else 1)
  | .float .undefined => none
  | _ => some 0

/-- The order of two numbers; undefined values have none. -/
def numberOrder (a b : Json) : Option Ordering :=
  match fraction? a, fraction? b with
  | some (m, d), some (n, e) => some (compare (m * e) (n * d))
  | _, _ => do return compare (← extent? a) (← extent? b)

def isNumber : Json → Bool
  | .bool _ | .int _ | .float _ => true
  | _ => false

mutual

/-- Whether two values can be compared, and how they compare. -/
def order? : Json → Json → Option (Option Ordering)
  | .str s, .str t => some (some (compare s t))
  | .arr xs, .arr ys => itemOrder? xs ys
  | a, b => if a.isNumber && b.isNumber then some (numberOrder a b) else none

def itemOrder? : List Json → List Json → Option (Option Ordering)
  | [], [] => some (some .eq)
  | [], _ :: _ => some (some .lt)
  | _ :: _, [] => some (some .gt)
  | x :: xs, y :: ys =>
    if coincide x y then itemOrder? xs ys else order? x y

end

end Liquidity.Json
