import Liquidity.Decimal.Order
import Liquidity.Decimal.Arithmetic
import Liquidity.Decimal.Numeral
import Liquidity.Binary64
import Liquidity.Json.Writer
import Liquidity.Json.Reader
import Liquidity.Fault
import Liquidity.ConstantProduct
import Liquidity.Stable.Shares
import Liquidity.Stable.Price
import Liquidity.Ramp
import Liquidity.Slippage
import Liquidity.Snapshot
import Liquidity.Pool.Operate
import Liquidity.Resolve
import Liquidity.Document
import Liquidity.Proofs.ConstantProduct.Backing
import Liquidity.Proofs.ConstantProduct.Splitting
import Liquidity.Proofs.WideProducts
import Liquidity.Proofs.Stable.VirtualPrice
import Liquidity.Proofs.Stable.FeeDirection
import Liquidity.Proofs.Stable.Balanced
import Liquidity.Proofs.Stable.FirstMint
import Liquidity.Proofs.Stable.PriceRange
import Liquidity.Proofs.Stable.Order
import Liquidity.Proofs.Stable.Withdrawal
import Liquidity.Proofs.Stable.Pair
import Liquidity.Proofs.Slippage
import Liquidity.Proofs.Pool.Totals
import Liquidity.Proofs.Pool.UnitPrice
import Liquidity.Proofs.Pool.BurnBound
import Liquidity.Proofs.Pool.Readings
import Liquidity.Proofs.Pool.EmptyReserves
import Liquidity.Proofs.Pool.Proportional
import Liquidity.Proofs.Snapshot.Staleness
import Liquidity.Proofs.Pool.Lookup
import Liquidity.Proofs.Document.RoundTrip
import Liquidity.Proofs.Amount
