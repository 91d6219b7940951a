import Liquidity.Numeric.Operand
import Liquidity.Text.Numeral

/-! Amounts out of whole numbers and numerals. -/

namespace Liquidity
set_option autoImplicit false

namespace Amount

def maximum128 : Int := Width.uint128.limit - 1

def natural (n : Int) : Except AmountFault Int :=
  if n < 0 then .error (.isNegative n) else .ok n

/-- A number that is not negative, out of a number or a numeral. -/
def unbounded : Json → Except AmountFault Int
  | .bool _ => .error .isBool
  | .str s =>
    match Text.integer? s with
    | some n => natural n
    | none => .error (.unreadable s)
  | .int n => natural n
  | j => .error (.wrongKind j.kind)

def bounded (maximum n : Int) : Except AmountFault Int :=
  if maximum < n then .error (.tooLarge n maximum) else .ok n

def ofJson (maximum : Int) (j : Json) : Except AmountFault Int := do
  bounded maximum (← unbounded j)

/-- An amount under a bound that nobody has checked. In the texts it goes by `name`. -/
def checked (name : String) (maximum : Figure) (j : Json) : Except Fault Int :=
  match unbounded j with
  | .error cause => .error (.amount name cause)
  | .ok n => do
    if ← Operand.less maximum n then throw (.amount name (.tooLarge n maximum))
    return n

/-- The amount as a word; whatever is no more than `maximum128` fits. -/
def word (r : Except AmountFault Int) : Except Fault Uint128 :=
  match r with
  | .error cause => .error (.invalid [⟨.amount cause, []⟩])
  | .ok n =>
    match Uint128.ofInt? n with
    | some w => .ok w
    | none => .error (.invalid [⟨.amount (.tooLarge n maximum128), []⟩])

end Amount

/-- An asset of an amount as stated. -/
def Asset.of (id : AssetId) (amount : Figure) : Except Fault Asset :=
  match Amount.word (Amount.ofJson Amount.maximum128 amount) with
  | .ok w => .ok ⟨id, w⟩
  | .error (.invalid ds) => .error (.invalid (ds.map (Detail.under (.member "amount"))))
  | .error f => .error f

/-- The entry at a position; negative positions count from the end. -/
def Assets.entry (as : Assets) (position : Figure) : Except Fault Asset := do
  let i ← Operand.count position
  match (if i < 0 then (if -i ≤ as.length then as[(as.length + i).toNat]? else none)
    else as[i.toNat]?) with
  | some a => return a
  | none => throw .indexOutOfRange

/-- The first `count` entries; a negative count leaves as many off the end. -/
def Assets.first (as : Assets) (count : Figure) : Except Fault Assets :=
  match count with
  | .null => .ok as
  | j => do
    let n ← Operand.count j
    return if n < 0 then as.take (as.length + n).toNat else as.take n.toNat

end Liquidity
