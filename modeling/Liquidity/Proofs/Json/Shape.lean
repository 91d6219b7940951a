import Mathlib.Data.List.Nodup
import Liquidity.Json.Basic
import Liquidity.Text.Numeral

/-! Conditions on JSON values as a whole. Some are about every scalar in a value, wherever it
stands; a value without floats and without repeated names is tidy. -/

namespace Liquidity.Json
set_option autoImplicit false

def isScalar : Json → Bool
  | .arr _ | .obj _ => false
  | _ => true

/-- Every scalar in the value satisfies `p`. -/
inductive Throughout (p : Json → Prop) : Json → Prop where
  | scalar {j : Json} : j.isScalar → p j → Throughout p j
  | arr {items : List Json} : (∀ j ∈ items, Throughout p j) → Throughout p (.arr items)
  | obj {ms : Members} : (∀ m ∈ ms, Throughout p m.2) → Throughout p (.obj ms)

/-- Whole numbers have no more digits than are read. -/
def Legible : Json → Prop
  | .int n => Decimal.numDigits n.natAbs ≤ Text.digitLimit
  | _ => True

/-- Values of at most so many levels in which no float occurs and no object has one name
twice. -/
inductive Tidy : Nat → Json → Prop where
  | null {k : Nat} : Tidy (k + 1) .null
  | bool {k : Nat} (b : Bool) : Tidy (k + 1) (.bool b)
  | int {k : Nat} (n : Int) : Tidy (k + 1) (.int n)
  | str {k : Nat} (s : String) : Tidy (k + 1) (.str s)
  | arr {k : Nat} {items : List Json} : (∀ j ∈ items, Tidy k j) → Tidy (k + 1) (.arr items)
  | obj {k : Nat} {ms : Members} : (ms.map Prod.fst).Nodup → (∀ m ∈ ms, Tidy k m.2) →
    Tidy (k + 1) (.obj ms)

section Throughout

variable {p : Json → Prop} {j : Json}

theorem throughout_iff (h : j.isScalar) : j.Throughout p ↔ p j := by
  constructor
  · intro hj
    cases hj with
    | scalar _ hp => exact hp
    | arr | obj => cases h
  · exact .scalar h

@[simp] theorem throughout_int {n : Int} : (Json.int n).Throughout p ↔ p (.int n) :=
  throughout_iff rfl

@[simp] theorem throughout_str {s : String} : (Json.str s).Throughout p ↔ p (.str s) :=
  throughout_iff rfl

@[simp] theorem throughout_arr {items : List Json} :
    (Json.arr items).Throughout p ↔ ∀ j ∈ items, j.Throughout p := by
  constructor
  · intro h
    cases h with
    | scalar hs => cases hs
    | arr h => exact h
  · exact .arr

@[simp] theorem throughout_obj {ms : Members} :
    (Json.obj ms).Throughout p ↔ ∀ m ∈ ms, m.2.Throughout p := by
  constructor
  · intro h
    cases h with
    | scalar hs => cases hs
    | obj h => exact h
  · exact .obj

end Throughout

theorem Tidy.pos {k : Nat} {j : Json} (h : Tidy k j) : 0 < k := by
  cases h <;> exact Nat.succ_pos _

end Liquidity.Json
