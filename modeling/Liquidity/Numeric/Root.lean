import Liquidity.Numeric.Checked

/-! Floored roots by descent: from a start at or above the root each step is smaller than
the last, until the first that is not. -/

namespace Liquidity.Root
set_option autoImplicit false

/-- The next guess for the `n`-th root of `v` after `r`. -/
def next (n v r : Nat) : Nat := ((n - 1) * r + v / Nat.pow r (n - 1)) / n

def descend (n v r : Nat) : Nat :=
  if next n v r < r then descend n v (next n v r) else r
termination_by r

/-- A power of two above the `n`-th root of `v`, for `v` other than zero. -/
def start (n v : Nat) : Nat := Nat.pow 2 ((Nat.log2 v + 1 + n - 1) / n)

/-- The greatest number whose `n`-th power is at most `v`. -/
def floor (n v : Nat) : Nat :=
  if n = 1 ∨ v < 2 then v
  else if Nat.log2 v < n then 1
  else descend n v (start n v)

/-- The floored `n`-th root of a value of at most 256 bits. A degree that is no whole number
will do where it equals one or two, and for values below two. -/
def root {α : Type} [Operand α] (v : Int) (n : α) : Except Fault Int := do
  if ← Operand.less n (1 : Int) then throw (.rootDegree (Operand.toJson n))
  let w ← Width.uint256.check v
  match Operand.whole? n with
  | some k => return floor k.toNat w.toNat
  | none =>
    if Operand.equal n (1 : Int) || w < 2 then return w
    else if Operand.equal n (2 : Int) then return floor 2 w.toNat
    else throw .notOperand

/-- Roots of a degree that is an amount itself: its halving and doubling go no further than
degree two. -/
def rootByAmount (v n : Int) : Except Fault Int := do
  let r ← root v n
  if 2 < n ∧ 2 ≤ v then throw .notOperand
  return r

def sqrt (v : Int) : Except Fault Int :=
  (Width.uint256.check v).map fun v => floor 2 v.toNat

theorem root_int (v n : Int) : root v n =
    if n < 1 then .error (.rootDegree n)
    else (Width.uint256.check v).map fun w => (floor n.toNat w.toNat : Int) := by
  unfold root
  by_cases h : n < 1
  · simp [h, bind, Except.bind, throw, throwThe, MonadExceptOf.throw]
  · simp [h, bind, Except.bind]
    cases Width.uint256.check v <;> rfl

end Liquidity.Root
