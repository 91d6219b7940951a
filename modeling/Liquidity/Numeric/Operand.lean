import Liquidity.Fault
import Liquidity.Json.Order

/-! What arithmetic works on: whole numbers, and values that somebody states as numbers and
that nobody has looked at yet. Of the latter, each operation refuses what it cannot use, and
on whole numbers all of this is the ordinary thing. -/

namespace Liquidity
set_option autoImplicit false

/-- A number as somebody states it, which may be anything that JSON can say. -/
abbrev Figure := Json

/-- Whether a number can say how many there are of something or where it stands. -/
def isIndex (n : Int) : Bool := -9223372036854775808 ≤ n && n < 9223372036854775808

class Operand (α : Type) where
  toJson : α → Json
  ofInt : Int → α

instance : Operand Int := ⟨.int, id⟩
instance : Operand Json := ⟨id, .int⟩

namespace Operand

variable {α β : Type} [Operand α] [Operand β]

/-- Amounts have to be whole numbers outright. -/
def strict (a : α) : Except Fault Int :=
  match toJson a with
  | .int n => .ok n
  | j => .error (.notInteger j.kind)

/-- Truth values pass for one and zero. -/
def whole? (a : α) : Option Int :=
  match toJson a with
  | .int n => some n
  | .bool b => some (if b then 1 else 0)
  | _ => none

def count (a : α) : Except Fault Int :=
  match whole? a with
  | some n => .ok n
  | none => .error .notOperand

def isZero (a : α) : Bool :=
  match toJson a with
  | .int n => n == 0
  | j => Json.sameNumber j (.int 0)

def equal (a : α) (b : β) : Bool :=
  match toJson a, toJson b with
  | .int m, .int n => m == n
  | a, b => Json.alike a b

def order (a : α) (b : β) : Except Fault (Option Ordering) :=
  match Json.order? (toJson a) (toJson b) with
  | some o => .ok o
  | none => .error .notOperand

def less (a : α) (b : β) : Except Fault Bool :=
  match toJson a, toJson b with
  | .int m, .int n => .ok (decide (m < n))
  | _, _ => (order a b).map (· == some .lt)

def atMost (a : α) (b : β) : Except Fault Bool :=
  match toJson a, toJson b with
  | .int m, .int n => .ok (decide (m ≤ n))
  | _, _ => (order a b).map fun o => o == some .lt || o == some .eq

/-- What can be gone through one by one: the items of a list, the characters of a text or the
names of an object. -/
def items : Figure → Except Fault (List Figure)
  | .arr items => .ok items
  | .str s => .ok (s.toList.map fun c => .str c.toString)
  | .obj members => .ok (members.map fun (name, _) => .str name)
  | _ => .error .notOperand

/-- What has names for its items has no places for them. -/
def checkPlaced : Figure → Except Fault Unit
  | .obj _ => .error .notPlaced
  | _ => .ok ()

variable (m n : Int)

@[simp] theorem toJson_int : toJson n = .int n := rfl
@[simp] theorem toJson_json (j : Json) : toJson j = j := rfl
@[simp] theorem ofInt_int : (ofInt n : Int) = n := rfl
@[simp] theorem ofInt_json : (ofInt n : Json) = .int n := rfl
@[simp] theorem strict_int : strict n = .ok n := rfl
@[simp] theorem whole?_int : whole? n = some n := rfl
@[simp] theorem count_int : count n = .ok n := rfl
@[simp] theorem isZero_int : isZero n = (n == 0) := rfl
@[simp] theorem equal_int : equal m n = (m == n) := rfl
@[simp] theorem less_int : less m n = .ok (decide (m < n)) := rfl
@[simp] theorem atMost_int : atMost m n = .ok (decide (m ≤ n)) := rfl

@[simp] theorem mapM_strict_int (ns : List Int) : ns.mapM strict = .ok ns := by
  induction ns with
  | nil => rfl
  | cons n ns ih => rw [List.mapM_cons, ih]; rfl

end Operand
end Liquidity
