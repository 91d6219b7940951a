import Liquidity.Numeric.Fraction
import Liquidity.Numeric.Root

/-! Shares of a pool of two assets whose reserves keep a constant product. -/

namespace Liquidity.ConstantProduct
set_option autoImplicit false

open Operand

variable {α ν : Type} [Operand α] [Operand ν]

def minimumLiquidity : Int := 1000

/-- Both sides of a deposit, neither of them zero. -/
def sides (d0 d1 : α) : Except Fault (Int × Int) := do
  let d0 ← strict d0
  let d1 ← strict d1
  if d0 = 0 ∨ d1 = 0 then throw .oneSidedPair
  return (d0, d1)

/-- Shares minted for a deposit. The first deposit mints the geometric mean of its sides;
later ones are paid for the side that is short of the pool's ratio. -/
def mint (deposits reserves : List α) (supply : α) (floor : ν) : Except Fault Int :=
  match deposits, reserves with
  | [d0, d1], [r0, r1] => do
    let (d0, d1) ← sides d0 d1
    if isZero supply then
      let share ← Root.sqrt (d0 * d1)
      if ← less share floor then throw (.mintBelowFloor share (toJson floor))
      Width.uint128.check share
    else
      let share0 ← Checked.mulDiv d0 supply r0
      let share1 ← Checked.mulDiv d1 supply r1
      Width.uint128.check (min share0 share1)
  | _, _ => .error .assetCount

/-- The part of every reserve that `share` of the supply is worth, rounded down. -/
def payout (reserves : List α) (supply share : α) : Except Fault (List Int) := do
  if isZero supply then return reserves.map fun _ => 0
  if ← less supply share then throw (.insufficientShares (toJson share) (toJson supply))
  reserves.mapM fun r => do
    let n ← Checked.mulDiv (← strict r) share supply
    Width.uint128.check n

/-- The price of the first asset in units of the second. -/
def spotPrice : List α → Except Fault Decimal.Numeral
  | [] => .error .indexOutOfRange
  | r0 :: rest =>
    if isZero r0 then .error .emptyReservePrice
    else match rest with
      | [] => .error .indexOutOfRange
      | r1 :: _ => do (← numeral r1).dividedBy (← numeral r0)

end Liquidity.ConstantProduct
