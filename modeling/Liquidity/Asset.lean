import Liquidity.Text.Digit

/-! Assets: who issued a token, amounts of 128 bits, and lists of assets as deposits,
reserves and payouts carry them. -/

namespace Liquidity
set_option autoImplicit false

/-- Whether the ledger itself or a token contract issued the asset. -/
inductive AssetKind where
  | native
  | cw20
deriving DecidableEq, Repr

def AssetKind.label : AssetKind → String
  | .native => "native"
  | .cw20 => "cw20"

/-- A native denom, or the address of a token contract. -/
structure AssetId where
  kind : AssetKind
  identifier : String
deriving DecidableEq, Repr

namespace AssetId

def native (denom : String) : AssetId := ⟨.native, denom⟩
def cw20 (address : String) : AssetId := ⟨.cw20, address⟩

def isNative (id : AssetId) : Bool := id.kind == .native

def text (id : AssetId) : String := id.kind.label ++ ":" ++ id.identifier

end AssetId

/-- Two to the power of 128. -/
def Uint128.limit : Nat := 340282366920938463463374607431768211456

abbrev Uint128 := { n : Nat // n < Uint128.limit }

def Uint128.ofInt? (n : Int) : Option Uint128 :=
  if h : 0 ≤ n ∧ n.toNat < Uint128.limit then some ⟨n.toNat, h.2⟩ else none

structure Asset where
  id : AssetId
  amount : Uint128
deriving DecidableEq, Repr

def Asset.text (a : Asset) : String := Text.intText a.amount.val ++ " " ++ a.id.text

abbrev Assets := List Asset

namespace Assets

/-- The first entry of an asset. -/
def find? (as : Assets) (id : AssetId) : Option Asset := List.find? (·.id == id) as

/-- The amount of the first entry, zero without one. -/
def amountOf (as : Assets) (id : AssetId) : Nat :=
  match find? as id with
  | some a => a.amount.val
  | none => 0

/-- The amount over all entries. -/
def total (as : Assets) (id : AssetId) : Nat :=
  as.foldr (fun a n => if a.id = id then a.amount.val + n else n) 0

def text (as : Assets) : String := String.intercalate ", " (as.map Asset.text)

@[simp] theorem total_nil (id : AssetId) : total [] id = 0 := rfl

theorem total_cons (a : Asset) (as : Assets) (id : AssetId) :
    total (a :: as) id = (if a.id = id then a.amount.val else 0) + total as id := by
  by_cases h : a.id = id <;> simp [total, h]

end Assets
end Liquidity
