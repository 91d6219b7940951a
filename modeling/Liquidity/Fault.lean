import Liquidity.Complaint
import Liquidity.Price
import Liquidity.Text.Numeral

/-! Everything that can go wrong, by cause. A fault carries the values that its text shows. -/

namespace Liquidity
set_option autoImplicit false

inductive Width where
  | uint128
  | uint256
deriving DecidableEq, Repr

namespace Width

def bits : Width → Nat
  | .uint128 => 128
  | .uint256 => 256

/-- The first number that is too large for the word. -/
def limit (w : Width) : Int := (Nat.pow 2 w.bits : Nat)

@[simp] theorem limit_uint128 : uint128.limit = 340282366920938463463374607431768211456 := rfl

@[simp] theorem limit_uint256 : uint256.limit =
    115792089237316195423570985008687907853269984665640564039457584007913129639936 := rfl

def label : Width → String
  | .uint128 => "uint128"
  | .uint256 => "uint256"

end Width

/-- A read that a snapshot has no answer for. -/
inductive Unread where
  | pool (address : String)
  | reserves (address : String)
  | tokenInfo (id : AssetId)
  | ramp (address : String)
  | quote (offer : Asset) (ask : AssetId) (address : String)
  | creator (address : Json)
  | pair (address : Json)
  | nativePool (poolId : Json)
deriving DecidableEq, Repr

def Unread.message : Unread → String
  | .pool address => "Unknown pool " ++ address
  | .reserves address => "No reserves for pool " ++ address
  | .tokenInfo id => "No token info for " ++ id.text
  | .ramp address => "No amplification parameters for pool " ++ address
  | .quote offer ask address =>
    "No quote for " ++ offer.text ++ " -> " ++ ask.text ++ " on pool " ++ address
  | .creator address => "No contract info for " ++ address.shown
  | .pair address => "No pair at " ++ address.shown
  | .nativePool poolId => "No native pool with id " ++ poolId.shown

inductive Fault where
  -- numbers
  | underflow (a b difference : Json)
  | divisionByZero (a : Json)
  | moduloByZero (a : Json)
  | negativeWord (w : Width) (value : Int)
  | oversizedWord (w : Width) (value : Int)
  | rootDegree (n : Json)
  | notInteger (kind : Json.Kind)
  | complexPower
  | notOperand
  | notText
  | notOffered
  | notParts
  | notPlaced
  | zeroToNegativePower
  | beyondFloat
  | beyondIndex
  | beyondMemory
  | notDecimal
  | undefinedQuotient
  | unboundedQuotient
  | decimalTooLarge
  -- precisions and lists
  | negativePrecision (current new : Json)
  | noPrecisions
  | precisionCount (amounts precisions : Nat)
  | precisionRange (id : AssetId) (found : Json)
  | nothingToCompare
  | unequalLengths
  | numeralTooLong
  | figureTooLong
  | indexOutOfRange
  -- amplification
  | rampReversed (nextTime initTime : Json)
  | rampEmpty (initTime time : Json)
  -- shares
  | assetCount
  | tooFewAssets (found : Nat)
  | balanceCount (amounts balances : Nat)
  | spotBalanceCount (found : Nat)
  | emptyReservePrice
  | oneSidedPair
  | zeroAmount
  | singleSidedDeposit
  | mintBelowFloor (share : Int) (floor : Json)
  | mintAtFloor (share : Int) (floor : Json)
  | mintTooSmall
  | insufficientShares (required available : Json)
  | feeAboveBalance (fee balance : Int) (position : Nat)
  | noShares
  | noSharesYet
  | reserveEmptied (withdrawal balance : Json) (position : Nat)
  | burnAboveSupply (burn supply : Int)
  -- pools
  | foreignInput (id : AssetId)
  | foreignOutput (id : AssetId)
  | foreignLpToken (id : AssetId)
  | notLpToken (id : AssetId)
  | notTwoAssets (address : String) (found : Nat)
  | unsupportedCurve (address : String) (curve : Curve)
  | noImbalancedWithdrawal (curve : Curve) (address : String)
  -- guards
  | priceMismatch (base quote : AssetId)
  | shortfall (wanted got : Json) (id : Option AssetId)
  | priceOutOfRange (old new : Option Price)
  | beliefWithoutPrice
  -- snapshots and documents
  | nestedTooDeep
  | unknownParameter
  | unread (what : Unread)
  | amount (name : String) (cause : AmountFault)
  | invalid (details : List Detail)
deriving DecidableEq, Repr

namespace Fault

/-- The reaction that a fault asks of the caller. -/
inductive Kind where
  | zeroAmount | singleSidedDeposit | foreignInput | foreignOutput | foreignLpToken | notLpToken
  | unsupportedPool | insufficientShares | insufficientLiquidity | priceMismatch
  | overflow | underflow | divideByZero | mintTooSmall | badSchedule
  | minOutMissed | slippage | unread
  | badValue | badType | badMember | badIndex | badKey | zeroDivision | tooLarge | memory
  | undefined | unbounded | decimalTooLarge | invalid
deriving DecidableEq, Repr

def kind : Fault → Kind
  | .underflow .. => .underflow
  | .divisionByZero _ | .moduloByZero _ | .emptyReservePrice => .divideByZero
  | .negativeWord .. | .oversizedWord .. => .overflow
  | .notInteger _ | .complexPower | .notOperand | .unknownParameter => .badType
  | .notText | .notOffered => .badMember
  | .zeroToNegativePower => .zeroDivision
  | .beyondFloat | .beyondIndex => .tooLarge
  | .beyondMemory => .memory
  | .notDecimal | .undefinedQuotient => .undefined
  | .unboundedQuotient => .unbounded
  | .decimalTooLarge => .decimalTooLarge
  | .rootDegree _ | .negativePrecision .. | .noPrecisions | .precisionCount ..
  | .precisionRange .. | .nothingToCompare | .unequalLengths | .numeralTooLong | .figureTooLong
  | .assetCount | .tooFewAssets _ | .balanceCount .. | .spotBalanceCount _ | .noSharesYet
  | .beliefWithoutPrice | .nestedTooDeep | .notParts | .amount .. => .badValue
  | .indexOutOfRange => .badIndex
  | .notPlaced => .badKey
  | .rampReversed .. | .rampEmpty .. => .badSchedule
  | .oneSidedPair | .zeroAmount => .zeroAmount
  | .singleSidedDeposit => .singleSidedDeposit
  | .mintBelowFloor .. | .mintAtFloor .. | .mintTooSmall => .mintTooSmall
  | .insufficientShares .. => .insufficientShares
  | .feeAboveBalance .. | .noShares | .reserveEmptied .. | .burnAboveSupply .. =>
    .insufficientLiquidity
  | .foreignInput _ => .foreignInput
  | .foreignOutput _ => .foreignOutput
  | .foreignLpToken _ => .foreignLpToken
  | .notLpToken _ => .notLpToken
  | .notTwoAssets .. | .unsupportedCurve .. | .noImbalancedWithdrawal .. => .unsupportedPool
  | .priceMismatch .. => .priceMismatch
  | .shortfall .. => .minOutMissed
  | .priceOutOfRange .. => .slippage
  | .unread _ => .unread
  | .invalid _ => .invalid

open Text (intText)

def priceText : Option Price → String
  | some p => p.text
  | none => "None"

/-- The text of a fault; some have none. -/
def message? : Fault → Option String
  | .underflow a b difference =>
    some ("Underflow: " ++ a.shown ++ " - " ++ b.shown ++ " = " ++ difference.shown)
  | .divisionByZero a => some ("Division by zero: " ++ a.shown ++ " // 0")
  | .moduloByZero a => some ("Modulo by zero: " ++ a.shown ++ " % 0")
  | .negativeWord w value =>
    some ("Negative value cannot be " ++ w.label ++ ": " ++ intText value)
  | .oversizedWord w value => some ("Value exceeds " ++ w.label ++ " max: " ++ intText value)
  | .rootDegree n => some ("Root degree must be positive, got " ++ n.shown)
  | .notInteger kind => some ("SafeInt requires int, got " ++ kind.name)
  | .complexPower => some "SafeInt requires int, got complex"
  | .negativePrecision current new =>
    some ("Precision must be non-negative, got " ++ current.shown ++ ", " ++ new.shown)
  | .noPrecisions => some "Cannot take the greatest of no precisions"
  | .precisionCount amounts precisions =>
    some ("Got " ++ intText amounts ++ " amounts for " ++ intText precisions ++ " precisions")
  | .precisionRange id found =>
    some ("Precision of " ++ id.text ++ " must be between 0 and 38, got " ++ found.shown)
  | .rampReversed nextTime initTime =>
    some ("next_amp_time " ++ nextTime.shown ++ " is before init_amp_time " ++ initTime.shown)
  | .rampEmpty initTime time =>
    some ("Zero-length ramp at " ++ initTime.shown ++ " queried at earlier time " ++ time.shown)
  | .assetCount => some "Constant product pools have exactly two assets"
  | .tooFewAssets found =>
    some ("Stable pools need at least two assets, got " ++ intText found)
  | .balanceCount amounts balances =>
    some ("Got " ++ intText amounts ++ " amounts for " ++ intText balances ++ " balances")
  | .spotBalanceCount found =>
    some ("Spot price needs exactly two balances, got " ++ intText found)
  | .emptyReservePrice => some "Spot price of an empty reserve"
  | .oneSidedPair => some "Either asset cannot be zero"
  | .zeroAmount => some "Event of zero transfer"
  | .singleSidedDeposit =>
    some "It is not possible to provide liquidity with one token for an empty pool"
  | .mintBelowFloor share floor =>
    some ("Share " ++ intText share ++ " cannot be less than minimum liquidity amount " ++
      floor.shown)
  | .mintAtFloor share floor =>
    some ("Share " ++ intText share ++ " must exceed minimum liquidity amount " ++ floor.shown)
  | .mintTooSmall => some "Insufficient amount of liquidity"
  | .insufficientShares required available =>
    some ("Insufficient LP shares: required " ++ required.shown ++ ", available " ++
      available.shown)
  | .feeAboveBalance fee balance position =>
    some ("Imbalance fee " ++ intText fee ++ " exceeds balance " ++ intText balance ++
      " of asset " ++ intText position)
  | .noShares => some "Cannot withdraw from a pool with no shares"
  | .noSharesYet => some "Pool has no shares; use initial_provide_shares"
  | .reserveEmptied withdrawal balance position =>
    some ("Withdrawal " ++ withdrawal.shown ++ " would empty reserve " ++ balance.shown ++
      " of asset " ++ intText position)
  | .burnAboveSupply burn supply =>
    some ("Burn " ++ intText burn ++ " exceeds LP supply " ++ intText supply)
  | .foreignInput id => some ("Invalid input asset: " ++ id.text)
  | .foreignOutput id => some ("Invalid output asset: " ++ id.text)
  | .foreignLpToken id => some ("Invalid LP token: " ++ id.text)
  | .notLpToken id => some ("Asset is not an LP token: " ++ id.text)
  | .notTwoAssets address found =>
    some ("Pool " ++ address ++ " has " ++ intText found ++
      " assets; prices are quoted for two-asset pools only")
  | .unsupportedCurve address curve =>
    some ("Pool " ++ address ++ " has unsupported curve " ++ curve.label)
  | .noImbalancedWithdrawal curve address =>
    some (curve.label ++ " pool " ++ address ++ " has no imbalanced withdrawal")
  | .priceMismatch base quote =>
    some ("Price not for requested assets: " ++ base.text ++ ", " ++ quote.text)
  | .shortfall wanted got id =>
    let suffix := match id with
      | some id => " of " ++ id.text
      | none => ""
    some ("Did not receive expected amount of tokens" ++ suffix ++ ". Expected: " ++
      wanted.shown ++ ", received: " ++ got.shown)
  | .priceOutOfRange old new =>
    some ("Slippage control price check failed. Old price: " ++ priceText old ++
      ", new price: " ++ priceText new)
  | .beliefWithoutPrice =>
    some "Belief price check needs the pool price after the operation"
  | .unread what => some what.message
  | .amount name cause => some (cause.message name)
  | .figureTooLong => some Text.overlongText
  | .notOperand | .notText | .notOffered | .notParts | .notPlaced | .zeroToNegativePower
  | .beyondFloat | .beyondIndex | .beyondMemory | .notDecimal | .undefinedQuotient
  | .unboundedQuotient | .decimalTooLarge | .nothingToCompare | .unequalLengths
  | .numeralTooLong | .indexOutOfRange | .nestedTooDeep | .unknownParameter | .invalid _ => none

/-- The numbers that the text of a fault shows and that have no bound of their own. -/
def figures : Fault → List Json
  | .underflow a b difference => [a, b, difference]
  | .divisionByZero a | .moduloByZero a | .rootDegree a => [a]
  | .negativeWord _ value | .oversizedWord _ value => [value]
  | .precisionRange _ found => [found]
  | .mintBelowFloor share floor | .mintAtFloor share floor => [share, floor]
  | .feeAboveBalance a b _ | .burnAboveSupply a b => [a, b]
  | .negativePrecision a b | .rampReversed a b | .rampEmpty a b | .insufficientShares a b
  | .reserveEmptied a b _ | .shortfall a b _ => [a, b]
  | .unread (.nativePool poolId) => [poolId]
  | _ => []

/-- Whether the text of a fault is written where the fault is raised. The others are written
apart from that, and what stops them has no text. -/
def isWrittenInPlace : Fault → Bool
  | .underflow .. | .divisionByZero _ | .moduloByZero _ | .rootDegree _ | .negativeWord ..
  | .oversizedWord .. | .burnAboveSupply .. | .unread _ => true
  | _ => false

/-- Numerals of more than 4300 digits are not written: a fault whose text needs one is
reported as the failure to write it. -/
def reported (f : Fault) : Fault :=
  if f.figures.any Json.isOverlong then
    if f.isWrittenInPlace then .figureTooLong else .numeralTooLong
  else f

end Fault
end Liquidity
