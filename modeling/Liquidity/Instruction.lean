import Liquidity.Schema.Encode

/-! Calls for the ledger: who executes them, what they do, the native assets attached and
the arguments. -/

namespace Liquidity
set_option autoImplicit false

inductive Action where
  | provideLiquidity
  | withdrawLiquidity
  | withdrawLiquidityImbalanced
  | swap
  | increaseAllowance
deriving DecidableEq, Repr

namespace Action

def label : Action → String
  | .provideLiquidity => "provide_liquidity"
  | .withdrawLiquidity => "withdraw_liquidity"
  | .withdrawLiquidityImbalanced => "withdraw_liquidity_imbalanced"
  | .swap => "swap"
  | .increaseAllowance => "increase_allowance"

def all : List Action :=
  [.provideLiquidity, .withdrawLiquidity, .withdrawLiquidityImbalanced, .swap, .increaseAllowance]

end Action

structure Instruction where
  target : String
  action : Action
  funds : Assets := []
  payload : Json.Members := []

namespace Instruction

/-- The JSON form; JSON has no numbers that are not finite. -/
def toJson (i : Instruction) : Json :=
  .obj [("target", .str i.target), ("action", .str i.action.label),
    ("funds", Assets.toJson i.funds), ("payload", .obj (Json.finiteMembers i.payload))]

/-- Equality, where payloads are compared by meaning. -/
def agrees (i j : Instruction) : Bool :=
  i.target == j.target && i.action == j.action && i.funds == j.funds &&
    Json.alike (.obj i.payload) (.obj j.payload)

/-- Lets the pool draw a contract-issued asset. -/
def allowance (spender : String) (a : Asset) : Instruction :=
  { target := a.id.identifier
    action := .increaseAllowance
    payload := [("spender", .str spender), ("amount", .int a.amount.val)] }

/-- Whatever is contract-issued needs an allowance, if there is any of it. -/
def allowances (spender : String) (as : Assets) : List Instruction :=
  (as.filter fun a => !a.id.isNative && 0 < a.amount.val).map (allowance spender)

/-- Whatever is native travels with the call. -/
def attached (as : Assets) : Assets := as.filter fun a => a.id.isNative && 0 < a.amount.val

/-- The allowances for `as`, then the call itself with the rest of `as` attached. -/
def transferring (address : String) (as : Assets) (action : Action) (payload : Json.Members) :
    List Instruction :=
  allowances address as ++
    [{ target := address, action := action, funds := attached as, payload := payload }]

section Transferring

variable (address : String) (as : Assets) (action : Action) (payload : Json.Members)

@[simp] theorem getLast?_transferring : (transferring address as action payload).getLast? =
    some { target := address, action := action, funds := attached as, payload := payload } :=
  List.getLast?_concat

@[simp] theorem dropLast_transferring :
    (transferring address as action payload).dropLast = allowances address as :=
  List.dropLast_concat

end Transferring

end Instruction
end Liquidity
