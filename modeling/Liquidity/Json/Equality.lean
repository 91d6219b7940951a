import Liquidity.Json.Basic

/-! Equality of JSON values by meaning: numbers by value, truth values as one and zero, and
objects without regard to the order of their members. An undefined number equals nothing by
itself, but lists and objects that differ in nothing else are equal. -/

namespace Liquidity.Json
set_option autoImplicit false

/-- A finite number as a fraction. -/
def fraction? : Json → Option (Int × Nat)
  | .bool b => some (if b then 1 else 0, 1)
  | .int n => some (n, 1)
  | .float (.finite negative m q) =>
    let n : Int := (m * Binary64.twoTo q.toNat : Nat)
    some (if negative then -n else n, Binary64.twoTo (-q).toNat)
  | _ => none

def sameNumber (a b : Json) : Bool :=
  match fraction? a, fraction? b with
  | some (m, d), some (n, e) => m * e == n * d
  | _, _ =>
    match a, b with
    | .float (.infinite x), .float (.infinite y) => x == y
    | _, _ => false

def isUndefined : Json → Bool
  | .float .undefined => true
  | _ => false

mutual

def alike : Json → Json → Bool
  | .null, .null => true
  | .str s, .str t => s == t
  | .arr xs, .arr ys => alikeItems xs ys
  | .obj ms, .obj ns => ms.length == ns.length && alikeMembers ms ns
  | a, b => sameNumber a b

def alikeItems : List Json → List Json → Bool
  | [], [] => true
  | x :: xs, y :: ys => (alike x y || x.isUndefined && y.isUndefined) && alikeItems xs ys
  | _, _ => false

def alikeMembers : List (String × Json) → List (String × Json) → Bool
  | [], _ => true
  | (k, x) :: ms, ns =>
    (match ns.lookup k with
      | some y => alike x y || x.isUndefined && y.isUndefined
      | none => false) && alikeMembers ms ns

end

/-- Whether two values are one as items and as keys. Undefined numbers are. -/
def coincide (a b : Json) : Bool := alike a b || a.isUndefined && b.isUndefined

end Liquidity.Json
