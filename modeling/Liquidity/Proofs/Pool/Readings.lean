import Liquidity.Proofs.Pool.Totals
import Liquidity.Proofs.Schema.Documents

/-! The two readings of a list of assets. Of a deposit a pool takes what all entries of a member
come to, of its reserves the first entry. Nothing keeps an asset from being named again, and the
two agree where an asset that is named again is there with nothing. -/

namespace Liquidity
set_option autoImplicit false

open Schema

theorem AssetId.ofJson_toJson (id : AssetId) : ofJson id.toJson = .ok id := by
  cases id with
  | mk kind identifier => cases kind <;> rfl

theorem Asset.ofJson_toJson (a : Asset) : ofJson a.toJson = .ok a := by
  have hid : required "info" AssetId.ofJson
      [("info", a.id.toJson), ("amount", .int a.amount.val)] = .ok a.id :=
    required_eq_ok.mpr ⟨_, rfl, AssetId.ofJson_toJson a.id⟩
  have hamount : required "amount" word
      [("info", a.id.toJson), ("amount", .int a.amount.val)] = .ok a.amount :=
    required_eq_ok.mpr ⟨_, rfl, word_val a.amount⟩
  unfold ofJson toJson
  rw [record_eq_ok.mpr rfl, Outcome.ok_bind, hid, hamount]
  rfl

namespace Assets

variable {as : Assets} {id : AssetId}

/-- Every list of assets is a document, whatever it repeats. -/
theorem ofJson_toJson (as : Assets) : ofJson as.toJson = .ok as := by
  refine list_eq_ok.mpr ⟨_, rfl, ?_⟩
  rw [List.forall₂_map_left_iff, List.forall₂_same]
  exact fun a _ => a.ofJson_toJson

/-- Assets that a list does not name are read alike. -/
theorem amountOf_eq_total_members {ids : List AssetId} (h : ∀ a ∈ as, a.id ∈ ids) :
    (∀ id ∈ ids, amountOf as id = total as id) ↔ SpentOnce as := by
  rw [← amountOf_eq_total_iff]
  refine ⟨fun hids id => ?_, fun hall id _ => hall id⟩
  by_cases hid : id ∈ ids
  · exact hids id hid
  · have hnone : total as id = 0 := by
      apply total_eq_zero
      rintro a ha rfl
      exact hid (h a ha)
    have hle := amountOf_le_total as id
    omega

end Assets

namespace Identity

variable {p : Identity}

/-- A list of members as a deposit and as reserves. Each can be a document, and each member gets
of the reserves what it gets of the deposit or less; all get the same if and only if an asset
that is named again is there with nothing. -/
theorem readings_agree_iff (p : Identity) (r : Reserves) (foreign : AssetId → Fault)
    (hd : p.members.Nodup) (hall : ∀ a ∈ r.assets, a.id ∈ p.members) :
    Assets.ofJson r.assets.toJson = .ok r.assets ∧
    ∃ totals, p.ordered foreign r.assets = .ok totals ∧
      List.Forall₂ (· ≤ ·) (r.amountsFor p.members) (totals.map Int.ofNat) ∧
      (r.amountsFor p.members = totals.map Int.ofNat ↔ r.assets.SpentOnce) ∧
      ((∀ id, Assets.amountOf r.assets id = Assets.total r.assets id) ↔ r.assets.SpentOnce) ∧
      ((r.assets.map (·.id)).Nodup → r.assets.SpentOnce) := by
  have hordered : p.ordered foreign r.assets = .ok (p.members.map (Assets.total r.assets)) :=
    ordered_eq_ok.mpr ⟨hall, (firsts_of_nodup hd).symm⟩
  refine ⟨r.assets.ofJson_toJson, _, hordered, ?_, ?_, Assets.amountOf_eq_total_iff,
    Assets.spentOnce_of_nodup⟩
  · rw [Reserves.amountsFor, List.map_map, List.forall₂_map_left_iff, List.forall₂_map_right_iff,
      List.forall₂_same]
    exact fun id _ => Int.ofNat_le.mpr (Assets.amountOf_le_total r.assets id)
  · rw [← Assets.amountOf_eq_total_members hall, Reserves.amountsFor, List.map_map,
      List.map_inj_left]
    exact forall₂_congr fun id _ => Int.ofNat_inj

end Identity

namespace Pool

/-- Reserves with a second entry of nothing. -/
theorem readings_agree_iff_padded :
    ∃ r : Reserves, r.assets = mixedReserves.assets ++ [⟨.native "uusd", 0, by decide⟩] ∧
      mixed.identity.ordered .foreignInput r.assets = .ok [1000, 4000] ∧
      r.amountsFor mixed.identity.members = [1000, 4000] := by
  let r : Reserves :=
    ⟨mixedReserves.assets ++ [⟨.native "uusd", 0, by decide⟩], mixedReserves.supply⟩
  obtain ⟨-, totals, hordered, -, hiff, -⟩ :=
    Identity.readings_agree_iff mixed.identity r .foreignInput (by decide) (by decide)
  have htotals : totals = [1000, 4000] := Except.ok.inj (hordered.symm.trans rfl)
  rw [htotals] at hordered hiff
  exact ⟨r, rfl, hordered, hiff.mpr (by decide)⟩

/-- Reserves that name the native asset twice. -/
def repeatedReserves : Reserves :=
  ⟨⟨.native "uusd", 250, by decide⟩ :: mixedReserves.assets, mixedReserves.supply⟩

/-- Of the native asset there are 1250 in a deposit of these assets, and 250 in these reserves. -/
theorem repeated_asset_read_apart :
    mixed.identity.members.Nodup ∧
    (∀ a ∈ repeatedReserves.assets, a.id ∈ mixed.identity.members) ∧
    Assets.ofJson repeatedReserves.assets.toJson = .ok repeatedReserves.assets ∧
    mixed.identity.ordered .foreignInput repeatedReserves.assets = .ok [1250, 4000] ∧
    repeatedReserves.amountsFor mixed.identity.members = [250, 4000] ∧
    Assets.total repeatedReserves.assets (.native "uusd") = 1250 ∧
    Assets.amountOf repeatedReserves.assets (.native "uusd") = 250 :=
  ⟨by decide, by decide, Assets.ofJson_toJson _, rfl, rfl, rfl, rfl⟩

end Pool
end Liquidity
