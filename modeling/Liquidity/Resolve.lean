import Liquidity.Pool.Basic

/-! From an LP token back to the pool that issues it. A native LP denom is a fixed head and
the id of the pool; a contract-issued token was created by its pool. -/

namespace Liquidity
set_option autoImplicit false

/-- What follows `head` in a text that begins with it. -/
def tail? (text head : List Char) : Option (List Char) :=
  match head, text with
  | [], text => some text
  | _ :: _, [] => none
  | h :: head, c :: text => if c = h then tail? text head else none

theorem tail?_eq_some {text head tail : List Char} :
    tail? text head = some tail ↔ text = head ++ tail := by
  induction head generalizing text with
  | nil => simp [tail?]
  | cons h head ih =>
    cases text with
    | nil => simp [tail?]
    | cons c text =>
      by_cases hc : c = h
      · simp [tail?, hc, ih]
      · simp [tail?, hc]

/-- The pool id after the head of a denom; nothing for denoms of another form. -/
def nativePoolId? (denom head : String) : Except Fault (Option Int) :=
  match tail? denom.toList head.toList with
  | none => .ok none
  | some tail =>
    match tail.mapM Text.asciiDigit? with
    | none | some [] => .ok none
    | some ds =>
      if ds.length ≤ Text.digitLimit then .ok (some (Text.ofDigits ds)) else .error .numeralTooLong

/-- The head of denoms as stated, which has to be a text. -/
def headOf : Json → Except Fault String
  | .str s => .ok s
  | _ => .error .notOperand

def nativePoolIdOf : Json → Json → Except Fault (Option Int)
  | .str denom, head => do nativePoolId? denom (← headOf head)
  | _, _ => .error .notText

namespace Snapshot

/-- The pool that a token points at, whether or not it is the pool's own. -/
def candidate (s : Snapshot) (token : AssetId) (head : Json) : Except Fault Identity :=
  if token.isNative then do
    match ← nativePoolId? token.identifier (← headOf head) with
    | some n => s.nativePool n
    | none => .error (.notLpToken token)
  else do
    let creator ← s.creatorOf (.str token.identifier)
    s.pairAt creator

/-- The pool issuing a token. -/
def resolve (s : Snapshot) (token : AssetId) (config : Config) : Except Fault Identity :=
  match s.candidate token config.lpDenomHead with
  | .ok p => if p.lpToken = token then .ok p else .error (.notLpToken token)
  | .error (.unread _) => .error (.notLpToken token)
  | .error f => .error f

end Snapshot

def Pool.forLpToken (s : Snapshot) (token : AssetId) (config : Config) : Except Fault Pool := do
  let p ← s.resolve token config
  ofIdentity p config

end Liquidity
