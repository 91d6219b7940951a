import Liquidity.Amount
import Liquidity.Numeric.Parts
import Liquidity.Schema.Basic
import Liquidity.Slippage
import Liquidity.Text.Whole

/-! Reading the scalars of documents: strings, words from a fixed choice, whole numbers,
amounts and decimals. -/

namespace Liquidity.Schema
set_option autoImplicit false

variable {α : Type}

def string : Json → Except Fault String
  | .str s => .ok s
  | _ => refuse .notString

/-- The first of `choices` with the label that is written. -/
def choice (choices : List α) (label : α → String) (c : Complaint) : Json → Except Fault α
  | .str s =>
    match choices.find? (label · == s) with
    | some a => .ok a
    | none => refuse c
  | _ => refuse c

/-- A member that may only say `tag`. -/
def literal (tag : String) : Json → Except Fault Unit
  | .str s => if s = tag then .ok () else refuse .notLiteral
  | _ => refuse .notLiteral

/-- Floats from here on have no whole number of 64 bits. -/
def int64Limit : Int := 9223372036854775808

def intOfFloat (x : Binary64) : Except Fault Int :=
  match x with
  | .finite .. =>
    if !x.isWhole then refuse .intHasFraction
    else if -int64Limit < x.truncate ∧ x.truncate < int64Limit then .ok x.truncate
    else refuse .intTooLong
  | _ => refuse .notFinite

/-- Whole numbers, also as truth values, as floats without a fraction and as numerals. -/
def integer : Json → Except Fault Int
  | .int n => .ok n
  | .bool b => .ok (if b then 1 else 0)
  | .float x => intOfFloat x
  | .str s =>
    match Text.whole s with
    | .value n => .ok n
    | .tooLong => refuse .intTooLong
    | .unusable => refuse .intUnreadable
  | _ => refuse .notInt

def natural (j : Json) : Except Fault { n : Int // 0 ≤ n } :=
  match integer j with
  | .ok n => if h : 0 ≤ n then .ok ⟨n, h⟩ else refuse .belowMinimum
  | .error f => .error f

def word (j : Json) : Except Fault Uint128 := Amount.word (Amount.ofJson Amount.maximum128 j)

/-- The shortest digits of a float, with what is written after them: in values one zero
after the point while all digits fit sixteen places, in text no point for whole numbers. Of
equally near digits values have the even ones, and text has the greater ones. -/
def floatDecimal (src : Source) (negative : Bool) (m : Nat) (q : Int) : Decimal :=
  match src with
  | .value =>
    let (c, e) := Binary64.shortest .even m q
    if 0 ≤ e ∧ Decimal.numDigits c + e ≤ 16 then ⟨negative, c * Text.tenTo (e + 1).toNat, -1⟩
    else ⟨negative, c, e⟩
  | .text =>
    let (c, e) := Binary64.shortest .up m q
    if 0 ≤ e then ⟨negative, c * Text.tenTo e.toNat, 0⟩ else ⟨negative, c, e⟩

/-- Decimals are finite. -/
def finiteDecimal : Decimal.Numeral → Except Fault Decimal
  | .finite d => .ok d
  | _ => refuse .notFinite

/-- A decimal in parts, which only text may state. -/
def decimalOfParts (src : Source) (parts : List Json) : Except Fault Decimal :=
  match src with
  | .value => refuse .notDecimal
  | .text =>
    match Decimal.Numeral.ofParts parts with
    | .ok value => finiteDecimal value
    | .error .notParts => refuse .notDecimal
    | .error .notDecimal => refuse .decimalUnreadable
    | .error f => .error f

def decimal (src : Source) : Json → Except Fault Decimal
  | .int n =>
    let d := Decimal.ofInt n
    if d.inRange then .ok d else refuse .decimalUnreadable
  | .float (.finite negative m q) => .ok (floatDecimal src negative m q)
  | .float _ => refuse .notFinite
  | .str s =>
    match Decimal.read? s with
    | some value => finiteDecimal value
    | none => refuse .decimalUnreadable
  | .arr parts => decimalOfParts src parts
  | _ => refuse .notDecimal

def positiveDecimal (src : Source) (j : Json) :
    Except Fault { d : Decimal // Decimal.zero < d } :=
  match decimal src j with
  | .ok d => if h : Decimal.zero < d then .ok ⟨d, h⟩ else refuse .notAbove
  | .error f => .error f

def ratio (src : Source) (j : Json) : Except Fault Ratio :=
  match decimal src j with
  | .ok d =>
    if h : d ≤ Decimal.one then
      if h0 : Decimal.zero ≤ d then .ok ⟨d, h0, h⟩ else refuse .belowMinimum
    else refuse .aboveMaximum
  | .error f => .error f

end Liquidity.Schema
