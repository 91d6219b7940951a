import Liquidity.Json.Scalar

/-! The tokens of JSON text: brackets, separators, and scalars with their values. -/

namespace Liquidity.Json
set_option autoImplicit false

inductive Token where
  | openArr | closeArr | openObj | closeObj | comma | colon
  | scalar (j : Json)

def punctuation? : Char → Option Token
  | '[' => some .openArr
  | ']' => some .closeArr
  | '{' => some .openObj
  | '}' => some .closeObj
  | ',' => some .comma
  | ':' => some .colon
  | _ => none

def isGap (c : Char) : Bool := c == ' ' || c == '\t' || c == '\n' || c == '\r'

/-- The tokens of a text. -/
def tokens : List Char → Option (List Token)
  | [] => some []
  | c :: rest =>
    if isGap c then tokens rest
    else match punctuation? c with
      | some t => (tokens rest).map (t :: ·)
      | none =>
        match _h : scanScalar (c :: rest) with
        | some (j, after) => (tokens after).map (.scalar j :: ·)
        | none => none
termination_by s => s.length
decreasing_by
  · simp
  · simp
  · exact scanScalar_shrinks _h

end Liquidity.Json
