import Liquidity.Binary64

/-! JSON values. Whole numbers and numbers written with a point or an exponent are told
apart, and an object keeps its members in the order of their first appearance. -/

namespace Liquidity
set_option autoImplicit false

inductive Json where
  | null
  | bool (b : Bool)
  | int (n : Int)
  | float (x : Binary64)
  | str (s : String)
  | arr (items : List Json)
  | obj (members : List (String × Json))
deriving Repr

namespace Json

instance : Coe Int Json := ⟨int⟩

inductive Kind where
  | null | bool | int | float | str | arr | obj
deriving DecidableEq, Repr

def Kind.name : Kind → String
  | .null => "NoneType"
  | .bool => "bool"
  | .int => "int"
  | .float => "float"
  | .str => "str"
  | .arr => "list"
  | .obj => "dict"

def kind : Json → Kind
  | .null => .null
  | .bool _ => .bool
  | .int _ => .int
  | .float _ => .float
  | .str _ => .str
  | .arr _ => .arr
  | .obj _ => .obj

abbrev Members := List (String × Json)

/-- Writes a member: an old one keeps its place, a new one comes last. -/
def Members.put (ms : Members) (name : String) (value : Json) : Members :=
  match ms with
  | [] => [(name, value)]
  | (k, v) :: rest => if k = name then (k, value) :: rest else (k, v) :: Members.put rest name value

/-- The member of an object; nothing for other values. -/
def get? (j : Json) (name : String) : Option Json :=
  match j with
  | .obj ms => ms.lookup name
  | _ => none

mutual

/-- Whether two values are the same in every detail. -/
def same : Json → Json → Bool
  | .null, .null => true
  | .bool a, .bool b => a == b
  | .int m, .int n => m == n
  | .float x, .float y => x == y
  | .str s, .str t => s == t
  | .arr xs, .arr ys => sameItems xs ys
  | .obj ms, .obj ns => sameMembers ms ns
  | _, _ => false

def sameItems : List Json → List Json → Bool
  | [], [] => true
  | x :: xs, y :: ys => same x y && sameItems xs ys
  | _, _ => false

def sameMembers : List (String × Json) → List (String × Json) → Bool
  | [], [] => true
  | (k, x) :: ms, (l, y) :: ns => k == l && same x y && sameMembers ms ns
  | _, _ => false

end

mutual

theorem same_iff : (a b : Json) → (same a b = true ↔ a = b)
  | .null, b | .bool _, b | .int _, b | .float _, b | .str _, b => by cases b <;> simp [same]
  | .arr xs, b => by cases b <;> simp [same, sameItems_iff xs]
  | .obj ms, b => by cases b <;> simp [same, sameMembers_iff ms]

theorem sameItems_iff : (xs ys : List Json) → (sameItems xs ys = true ↔ xs = ys)
  | [], ys => by cases ys <;> simp [sameItems]
  | x :: xs, ys => by cases ys <;> simp [sameItems, same_iff x, sameItems_iff xs]

theorem sameMembers_iff :
    (ms ns : List (String × Json)) → (sameMembers ms ns = true ↔ ms = ns)
  | [], ns => by cases ns <;> simp [sameMembers]
  | (k, x) :: ms, ns => by
    cases ns <;> simp [sameMembers, same_iff x, sameMembers_iff ms, Prod.ext_iff]

end

instance : DecidableEq Json := fun a b => decidable_of_iff _ (same_iff a b)

mutual

/-- The value with null for every number that is not finite. -/
def finite : Json → Json
  | .float (.infinite _) | .float .undefined => .null
  | .arr items => .arr (finiteItems items)
  | .obj members => .obj (finiteMembers members)
  | j => j

def finiteItems : List Json → List Json
  | [] => []
  | j :: rest => finite j :: finiteItems rest

def finiteMembers : List (String × Json) → List (String × Json)
  | [] => []
  | (k, j) :: rest => (k, finite j) :: finiteMembers rest

end

mutual

/-- How deep values stand inside one another, the innermost counted. -/
def depth : Json → Nat
  | .arr items => itemsDepth items + 1
  | .obj members => membersDepth members + 1
  | _ => 1

def itemsDepth : List Json → Nat
  | [] => 0
  | j :: rest => max (depth j) (itemsDepth rest)

def membersDepth : List (String × Json) → Nat
  | [] => 0
  | (_, j) :: rest => max (depth j) (membersDepth rest)

end

end Json
end Liquidity
