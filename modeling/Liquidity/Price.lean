import Liquidity.Asset
import Liquidity.Decimal.Order

/-! Prices: units of a quote asset paid per unit of a base asset. -/

namespace Liquidity
set_option autoImplicit false

structure Price where
  base : AssetId
  quote : AssetId
  value : Decimal
  positive : Decimal.zero < value
deriving DecidableEq, Repr

namespace Price

def text (p : Price) : String := p.value.text ++ " " ++ p.quote.text ++ " per " ++ p.base.text

/-- Prices of one pair that are equal in value. -/
def agrees (p q : Price) : Bool :=
  p.base == q.base && p.quote == q.quote && p.value.sameValue q.value

end Price
end Liquidity
