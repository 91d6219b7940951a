import Liquidity.Numeric.Operand

/-! What an operation would yield, and whether that meets the caller's bound. -/

namespace Liquidity
set_option autoImplicit false

open Operand

variable {α β : Type} [Operand α] [Operand β]

def checkMinOut (got : α) (wanted : β) (id : Option AssetId) : Except Fault Unit := do
  if ← less got wanted then throw (.shortfall (toJson wanted) (toJson got) id)

theorem checkMinOut_int (got wanted : Int) (id : Option AssetId) : checkMinOut got wanted id =
    if got < wanted then .error (.shortfall wanted got id) else .ok () := by
  unfold checkMinOut
  by_cases h : got < wanted <;> simp [h, bind, Except.bind, pure, Except.pure, throw, throwThe,
    MonadExceptOf.throw]

def Asset.units (a : Asset) : Int := a.amount.val

/-- Shares minted by a deposit. -/
structure Mint where
  shares : Asset
deriving DecidableEq, Repr

/-- Assets returned for shares. -/
structure Payout where
  assets : Assets
deriving DecidableEq, Repr

/-- What the pool gives for an offer. -/
structure Quote where
  offer : Asset
  receive : Asset
deriving DecidableEq, Repr

/-- Shares burned for chosen assets. -/
structure Burn where
  burn : Asset
  assets : Assets
deriving DecidableEq, Repr

namespace Mint

def meets (m : Mint) (bound : β) : Except Fault Bool := atMost bound m.shares.units

def check (m : Mint) (bound : β) : Except Fault Unit :=
  checkMinOut m.shares.units bound (some m.shares.id)

end Mint

namespace Payout

/-- Every entry of the bound holds for the amount of its asset. -/
def check (p : Payout) : Option Assets → Except Fault Unit
  | none => .ok ()
  | some bound => bound.forM fun b =>
    checkMinOut (Assets.amountOf p.assets b.id : Int) b.units (some b.id)

def meets (p : Payout) (bound : Option Assets) : Bool := (p.check bound).isOk

end Payout

namespace Quote

def meets (q : Quote) (bound : β) : Except Fault Bool := atMost bound q.receive.units

def check (q : Quote) (bound : β) : Except Fault Unit :=
  checkMinOut q.receive.units bound (some q.receive.id)

end Quote

namespace Burn

def meets (b : Burn) (bound : β) : Except Fault Bool := atMost b.burn.units bound

def check (b : Burn) (bound : β) : Except Fault Unit := do
  if !(← b.meets bound) then throw (.insufficientShares b.burn.units (toJson bound))

end Burn
end Liquidity
