import Liquidity.Numeric.Root
import Liquidity.Precision
import Liquidity.Stable.Fee
import Liquidity.Stable.Invariant

/-! Shares of a stable pool: minted by deposits, and burned by withdrawals of chosen
amounts. Balances, deposits and withdrawals are at one common precision. -/

namespace Liquidity.Stable
set_option autoImplicit false

open Operand

variable {ν α β : Type} [Operand ν] [Operand α] [Operand β]

/-- Shares minted by the first deposit: the geometric mean of its sides, brought to the
precision of the shares. -/
def initialMint (deposits : List α) (precision lpPrecision : β) (floor : ν) :
    Except Fault Int := do
  if deposits.length < 2 then throw (.tooFewAssets deposits.length)
  if deposits.any isZero then throw .singleSidedDeposit
  let product ← deposits.foldlM Checked.mul 1
  let root ← Root.root product (deposits.length : Int)
  let share ← adjustPrecision root precision lpPrecision
  if ← atMost share floor then throw (.mintAtFloor share (toJson floor))
  return share

def checkCounts (balances amounts : List α) : Except Fault Unit :=
  if balances.length < 2 then .error (.tooFewAssets balances.length)
  else if balances.length ≠ amounts.length then .error (.balanceCount amounts.length balances.length)
  else .ok ()

/-- The balance after a deposit. -/
def grow (balance deposit : α) : Except Fault Int := do
  Width.uint128.check (← Checked.add (← strict balance) deposit)

/-- Shares minted by a later deposit: the supply's part of the growth of the invariant, after
the fee for imbalance. -/
def mint (s : Shape ν) (balances deposits : List α) (supply : α) (fee : ν) :
    Except Fault Int := do
  checkCounts balances deposits
  if isZero supply then throw .noSharesYet
  if deposits.all isZero then throw .zeroAmount
  if (balances.zip deposits).any (fun (b, d) => isZero d && isZero b) then throw .singleSidedDeposit
  let d0 ← invariant s balances
  let grown ← (balances.zip deposits).mapM fun (b, d) => grow b d
  let d1 ← invariant s grown
  if d1 ≤ d0 then throw .mintTooSmall
  let charged ← chargeImbalance d0 d1 (← balances.mapM strict) grown fee
  let d2 ← invariant s charged
  if d2 ≤ d0 then throw .mintTooSmall
  let growth ← Checked.sub d2 d0
  let share ← Checked.mulDiv (← strict supply) growth d0
  if share = 0 then throw .mintTooSmall
  Width.uint128.check share

/-- Every withdrawal has to leave something in its reserve. -/
def checkReserves (balances withdrawals : List α) : Except Fault Unit :=
  (balances.zip withdrawals).zipIdx.forM fun ((b, w), i) => do
    if ← atMost b w then throw (.reserveEmptied (toJson w) (toJson b) i)

def checkProvided (share : Int) : Option ν → Except Fault Unit
  | none => .ok ()
  | some available => do
    if ← less available share then throw (.insufficientShares share (toJson available))

/-- Shares burned to withdraw exactly the given amounts, rounded up. -/
def burn (s : Shape ν) (balances withdrawals : List α) (supply : α) (fee : ν)
    (provided : Option ν := none) : Except Fault Int := do
  checkCounts balances withdrawals
  if withdrawals.all isZero then throw .zeroAmount
  if isZero supply then throw .noShares
  checkReserves balances withdrawals
  let d0 ← invariant s balances
  let left ← (balances.zip withdrawals).mapM fun (b, w) => do Checked.sub (← strict b) w
  let d1 ← invariant s left
  let charged ← chargeImbalance d0 d1 (← balances.mapM strict) left fee
  let d2 ← invariant s charged
  let supply ← strict supply
  let shrinkage ← Checked.sub d0 d2
  let part ← Checked.mulDiv supply shrinkage d0
  let share ← Width.uint128.check (part + 1)
  if supply < share then throw (.burnAboveSupply share supply)
  checkProvided share provided
  return share

end Liquidity.Stable
