import Liquidity.Json.Shown

/-! What a document can be refused for, and where in it. -/

namespace Liquidity
set_option autoImplicit false

inductive Curve where
  | constantProduct
  | stableSwap
  | unsupported
deriving DecidableEq, Repr

def Curve.label : Curve → String
  | .constantProduct => "constant_product"
  | .stableSwap => "stable_swap"
  | .unsupported => "unsupported"

/-- Why a value is no amount. -/
inductive AmountFault where
  | isBool
  | unreadable (text : String)
  | wrongKind (kind : Json.Kind)
  | isNegative (value : Int)
  | tooLarge (value : Int) (maximum : Json)
deriving DecidableEq, Repr

namespace AmountFault

/-- Whether the text needs a number with too many digits. -/
def isOverlong : AmountFault → Bool
  | .isNegative value => Text.isOverlong value
  | .tooLarge value maximum => Text.isOverlong value || maximum.isOverlong
  | _ => false

/-- The amount goes by `name` in the text. -/
def message (name : String) (cause : AmountFault) : String :=
  if cause.isOverlong then Text.overlongText else
  match cause with
  | .isBool => name ++ " must be an integer, got bool"
  | .unreadable text => name ++ " must be a decimal integer string: '" ++ text ++ "'"
  | .wrongKind kind => name ++ " must be string or int, got " ++ kind.name
  | .isNegative value => name ++ " cannot be negative: " ++ Text.intText value
  | .tooLarge value maximum =>
    name ++ " overflow: " ++ Text.intText value ++ " > " ++ maximum.shown

end AmountFault

inductive Complaint where
  | missing
  | notModel
  | notConfig
  | notTagged
  | tagMissing
  | tagUnknown
  | notLiteral
  | notString
  | notOption
  | notList
  | tooShort
  | notMap
  | notInt
  | intUnreadable
  | intTooLong
  | intHasFraction
  | notFinite
  | belowMinimum
  | aboveMaximum
  | notAbove
  | notDecimal
  | decimalUnreadable
  | notJson
  | notText
  | amount (cause : AmountFault)
  | wrongCurve (expected found : Curve)
  | wrongMemberCount (found : Nat)
deriving DecidableEq, Repr

/-- The text of those complaints that have one. -/
def Complaint.message? : Complaint → Option String
  | .amount cause => some (cause.message "Uint128")
  | .wrongCurve expected found =>
    some ("Expected a " ++ expected.label ++ " pool, got " ++ found.label)
  | .wrongMemberCount found =>
    some ("Constant product pools have exactly two assets, got " ++ Text.intText found)
  | _ => none

/-- A step from a value to a part of it. -/
inductive Step where
  | member (name : String)
  | item (index : Nat)
deriving DecidableEq, Repr

structure Detail where
  complaint : Complaint
  path : List Step
deriving DecidableEq, Repr

def Detail.under (s : Step) (d : Detail) : Detail := { d with path := s :: d.path }

end Liquidity
