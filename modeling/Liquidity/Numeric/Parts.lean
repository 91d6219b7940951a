import Liquidity.Decimal.Numeral
import Liquidity.Numeric.Operand

/-! Numerals in parts: a list of the sign, as one or zero, of the digits and of the exponent. A
letter in the place of the exponent says that the value is infinite or undefined. -/

namespace Liquidity.Decimal.Numeral
set_option autoImplicit false

/-- A part that is a number. -/
def partNumber (j : Json) : Except Fault Int :=
  match Operand.whole? j with
  | some n => if isIndex n then .ok n else .error .beyondIndex
  | none => .error .notParts

def partSign (j : Json) : Except Fault Bool := do
  let n ← partNumber j
  if n = 0 ∨ n = 1 then return n == 1 else throw .notParts

/-- The last part of a numeral. -/
inductive Ending where
  | exponent (e : Int)
  | infinite
  | undefined (signals : Bool)
deriving DecidableEq, Repr

def partEnding : Json → Except Fault Ending
  | .str "F" => .ok .infinite
  | .str "n" => .ok (.undefined false)
  | .str "N" => .ok (.undefined true)
  | j => (partNumber j).map .exponent

def partDigit (j : Json) : Except Fault Nat := do
  let d ← partNumber j
  if 0 ≤ d ∧ d ≤ 9 then return d.toNat else throw .notParts

def partDigits : Json → Except Fault (List Nat)
  | .arr items => items.mapM partDigit
  | _ => .error .notParts

/-- The value that the parts stand for. Infinite values have no use for their digits. -/
def ofParts : List Json → Except Fault Numeral
  | [sign, digits, ending] => do
    let negative ← partSign sign
    let ending ← partEnding ending
    let n := Text.ofDigits (← partDigits digits)
    match ending with
    | .exponent e =>
      let d : Decimal := ⟨negative, n, e⟩
      if d.inRange then return .finite d else throw .notDecimal
    | .infinite => return .infinite negative
    | .undefined signals => return .undefined negative signals n
  | _ => .error .notParts

end Liquidity.Decimal.Numeral
