import Liquidity.Binary64.Power
import Liquidity.Numeric.Operand

/-! Whole-number arithmetic that refuses what has no meaning for amounts: differences below
zero, division by zero, words that are too narrow for a result, and operands that are no
whole numbers. Quotients and remainders are floored. -/

namespace Liquidity
set_option autoImplicit false

namespace Width

/-- The value, if the word can hold it. -/
def check (w : Width) (n : Int) : Except Fault Int :=
  if n < 0 then .error (.negativeWord w n)
  else if w.limit ≤ n then .error (.oversizedWord w n)
  else .ok n

def holds (w : Width) (n : Int) : Bool := 0 ≤ n && n < w.limit

end Width

namespace Checked

open Operand

variable {α β : Type} [Operand α] [Operand β]

def inFloat (a : Int) : Except Fault Binary64 :=
  match Binary64.ofInt a with
  | .infinite _ => .error .beyondFloat
  | x => .ok x

/-- The number as a float. -/
def floatOf : Json → Except Fault Binary64
  | .bool b => inFloat (if b then 1 else 0)
  | .int n => inFloat n
  | .float x => .ok x
  | _ => .error .notOperand

/-- What an operation on `a` and a float comes to: the float is refused, unless `a` is too
large for one. -/
def lossy (a : Int) : Fault :=
  match inFloat a with
  | .error f => f
  | .ok _ => .notInteger .float

def onWhole (a : Int) (b : α) (f : Int → Except Fault Int) : Except Fault Int :=
  match toJson b with
  | .int n => f n
  | .bool t => f (if t then 1 else 0)
  | .float _ => .error (lossy a)
  | _ => .error .notOperand

def add (a : Int) (b : α) : Except Fault Int := onWhole a b fun n => .ok (a + n)

/-- As many characters or items do not fit in memory. -/
def copyLimit : Nat := 68719476736

/-- The size of `a` copies of something with `size` characters or items, none for a negative
number of copies. Characters, but not items, are counted by an index. -/
def copies (a : Int) (size : Nat) (kind : Json.Kind) : Except Fault Nat :=
  let total := a.toNat * size
  if !isIndex a then .error .beyondIndex
  else if kind = .str ∧ !isIndex total then .error .beyondIndex
  else if copyLimit ≤ total then .error .beyondMemory
  else .ok total

def mul (a : Int) (b : α) : Except Fault Int :=
  match toJson b with
  | .str s => do
    let _ ← copies a s.length .str
    throw (.notInteger .str)
  | .arr items => do
    let _ ← copies a items.length .arr
    throw (.notInteger .arr)
  | _ => onWhole a b fun n => .ok (a * n)

/-- What the difference of `a` and `b` comes to where one of them is a float. -/
def floatDifference (a b : Json) (x y : Binary64) : Fault :=
  let d := x.sub y
  if d.isNegative then .underflow a b (.float d) else .notInteger .float

def sub (a : Int) (b : α) : Except Fault Int :=
  match toJson b with
  | .float y => do throw (floatDifference a (.float y) (← inFloat a) y)
  | j => onWhole a b fun n => if a - n < 0 then .error (.underflow a j (a - n)) else .ok (a - n)

/-- The difference of a figure and a number. -/
def subFrom (a : α) (b : Int) : Except Fault Int :=
  match toJson a with
  | .float x => do throw (floatDifference (.float x) b x (← inFloat b))
  | j => onWhole b a fun n => if n - b < 0 then .error (.underflow j b (n - b)) else .ok (n - b)

def div (a : Int) (b : α) : Except Fault Int :=
  if isZero b then .error (.divisionByZero a) else onWhole a b fun n => .ok (a.fdiv n)

/-- The quotient of a figure by a number. -/
def divInto (a : α) (b : Int) : Except Fault Int :=
  if b = 0 then .error (.divisionByZero (toJson a)) else onWhole b a fun n => .ok (n.fdiv b)

def mod (a : Int) (b : α) : Except Fault Int :=
  if isZero b then .error (.moduloByZero a) else onWhole a b fun n => .ok (a.fmod n)

/-- What the power of a whole number that a float holds comes to where the exponent is a
float. -/
def floatPower (a : Int) (x : Binary64) : Fault :=
  match x with
  | .finite negative m q =>
    if m = 0 then .notInteger .float
    else if a = 0 then if negative then .zeroToNegativePower else .notInteger .float
    else if !negative && Binary64.isHugePower a.natAbs m q then .beyondFloat
    else if a < 0 && !x.isWhole then .complexPower
    else .notInteger .float
  | _ => .notInteger .float

/-- A power. Those of one, zero and minus one take no multiplying, however large the exponent. -/
def power (a : Int) (n : Nat) : Int :=
  if 1 < a.natAbs then Int.pow a n
  else if n = 0 then 1
  else if n % 2 = 0 then a * a
  else a

theorem power_eq (a : Int) : (n : Nat) → power a n = Int.pow a n
  | 0 => by
    unfold power
    split
    · rfl
    · exact (Int.pow_zero a).symm
  | 1 => by
    unfold power
    split
    · rfl
    · exact (Int.pow_one a).symm
  | n + 2 => by
    have h : Int.pow a (n + 2) = Int.pow a n * (a * a) :=
      (Int.pow_succ a (n + 1)).trans
        ((congrArg (· * a) (Int.pow_succ a n)).trans (Int.mul_assoc ..))
    by_cases ha : 1 < a.natAbs
    · simp [power, ha]
    · rw [h, ← power_eq a n]
      have : a = -1 ∨ a = 0 ∨ a = 1 := by omega
      rcases this with rfl | rfl | rfl <;> grind [power]

/-- Powers with a negative exponent are no whole numbers. -/
def pow (a : Int) (b : α) : Except Fault Int :=
  match toJson b with
  | .float x => do
    let base ← inFloat a
    throw (floatPower base.truncate x)
  | _ => onWhole a b fun n =>
    if 0 ≤ n then .ok (power a n.toNat)
    else do
      let _ ← inFloat a
      let _ ← inFloat n
      throw (if a = 0 then .zeroToNegativePower else .notInteger .float)

/-- `a * num / den` with a product of at most 256 bits. -/
def mulDiv (a : Int) (num : α) (den : β) : Except Fault Int := do
  let product ← Width.uint256.check (← mul a num)
  div product den

def absDiff (a b : Int) : Int := (a - b).natAbs

def distance (a : Int) (b : α) : Except Fault Int := onWhole a b fun n => .ok (absDiff a n)

/-- Whether a figure is the number `a`; no float is. -/
def isSame (a : Int) (b : α) : Bool := whole? b == some a

/-- Whether a set of figures holds `a`. Of equal figures a set keeps the first, and it holds
no lists and objects. -/
def isAmong (a : Int) (bs : List Figure) : Except Fault Bool :=
  if bs.any fun b => b.kind = .arr ∨ b.kind = .obj then .error .notOperand
  else .ok ((bs.find? (equal · a)).any (isSame a ·))

/-- The smaller of the two, `a` if they are equal. -/
def smaller (a : Int) (b : α) : Except Fault Int := do
  if ← less b a then strict b else return a

/-- The greater of the two, `a` if they are equal. -/
def greater (a : Int) (b : α) : Except Fault Int := do
  if ← less a b then strict b else return a

end Checked

variable {w : Width} {a b n m : Int}

@[simp] theorem Checked.add_int : Checked.add a b = .ok (a + b) := rfl

@[simp] theorem Checked.mul_int : Checked.mul a b = .ok (a * b) := rfl

theorem Checked.sub_int :
    Checked.sub a b = if a - b < 0 then .error (.underflow a b (a - b)) else .ok (a - b) := rfl

theorem Checked.div_int :
    Checked.div a b = if b == 0 then .error (.divisionByZero a) else .ok (a.fdiv b) := rfl

theorem Checked.mulDiv_int (c : Int) :
    Checked.mulDiv a b c = Width.uint256.check (a * b) >>= (Checked.div · c) := rfl

@[simp] theorem Width.check_eq_ok : w.check n = .ok m ↔ 0 ≤ n ∧ n < w.limit ∧ m = n := by
  unfold Width.check
  split
  · constructor
    · intro h; cases h
    · rintro ⟨h, _, _⟩; omega
  · split
    · constructor
      · intro h; cases h
      · rintro ⟨_, h, _⟩; omega
    · constructor
      · intro h; cases h; omega
      · rintro ⟨_, _, h⟩; rw [h]

@[simp] theorem Checked.sub_eq_ok : Checked.sub a b = .ok n ↔ b ≤ a ∧ n = a - b := by
  rw [Checked.sub_int]
  split
  · constructor
    · intro h; cases h
    · rintro ⟨h, _⟩; omega
  · constructor
    · intro h; cases h; omega
    · rintro ⟨_, h⟩; rw [h]

@[simp] theorem Checked.div_eq_ok : Checked.div a b = .ok n ↔ b ≠ 0 ∧ n = a.fdiv b := by
  rw [Checked.div_int]
  by_cases h : b = 0
  · simp [h]
  · simpa [h] using eq_comm

end Liquidity
