import Liquidity.Pool.Simulate
import Liquidity.Proofs.Pool.Decimals

/-! Shares of a stable pool do not depend on the unit in which an asset is counted. Amounts,
reserves and decimals are restated together, and at the greatest decimals they meet again. -/

namespace Liquidity
set_option autoImplicit false

open Outcome

/-- Entry by entry the same, with one asset counted in the finer unit. -/
def Assets.Recounted (i : AssetId) (k : Nat) (as bs : Assets) : Prop :=
  List.Forall₂ (fun a b => b.id = a.id ∧ b.amount.val = a.amount.val * i.factor k a.id) as bs

structure Reserves.Recounted (i : AssetId) (k : Nat) (r r' : Reserves) : Prop where
  assets : Assets.Recounted i k r.assets r'.assets
  supply : r'.supply = r.supply

/-- Two snapshots of which the second counts a member of the pool, and what the pool holds of
it, in a unit `10 ^ k` times finer. -/
structure StablePool.Recounted (p : StablePool) (i : AssetId) (d k : Nat) (s t : Snapshot) : Prop
    extends p.FinerDecimals i d k s t where
  reserves : Alike (Reserves.Recounted i k) (s.reservesOf p.identity) (t.reservesOf p.identity)
  ramp : t.rampOf p.identity = s.rampOf p.identity
  blockTime : t.blockTime = s.blockTime

/-- A member whose decimals and reserves are registered anew. -/
theorem StablePool.Recounted.registered {p : StablePool} {i : AssetId} {d k : Nat} {s t : Snapshot}
    {r r' : Reserves} (h : p.Refinable i d k s) (hr : s.reservesOf p.identity = .ok r)
    (hrr : Reserves.Recounted i k r r')
    (ht : (s.addPrecision i (.int (d + k))).setReserves p.identity r' = .ok t) :
    p.Recounted i d k s t := by
  unfold Snapshot.setReserves at ht
  split at ht
  · cases ht
    refine { h with after := ?_, others := ?_, reserves := ?_, ramp := rfl, blockTime := rfl }
    · simp [Snapshot.precisionOf, Snapshot.addPrecision]
    · intro j hj
      have hne : (j == i) = false := by simpa using hj
      simp only [Snapshot.precisionOf, Snapshot.addPrecision, List.lookup_cons, hne]
      rfl
    · rw [hr]
      simpa [Snapshot.reservesOf, Snapshot.found] using Alike.ok hrr
  · cases ht

namespace Identity

variable {p : Identity} {foreign : AssetId → Fault} {as : Assets}

theorem zip_map_self {α β : Type} (xs : List α) (f : α → β) :
    xs.zip (xs.map f) = xs.map fun x => (x, f x) := by
  have h := List.zip_map' (f := fun x : α => x) (g := f) (l := xs)
  rwa [List.map_id'] at h

theorem units_entries {xs : List (AssetId × Nat)} (h : Entries xs as) :
    as.map Asset.units = xs.map fun x => (x.2 : Int) := by
  induction h with
  | nil => rfl
  | cons hx _ ih => rw [List.map_cons, List.map_cons, ih, Asset.units, hx.2]

theorem units_inPoolOrder (hp : p.members.Nodup) {bs : Assets}
    (h : p.inPoolOrder foreign as = .ok bs) :
    bs.map Asset.units = p.members.map fun j => (Assets.total as j : Int) := by
  have hentries := (inPoolOrder_eq_ok.mp h).2
  rw [firsts_of_nodup hp, zip_map_self] at hentries
  rw [units_entries hentries, List.map_map]
  rfl

end Identity

namespace Assets.Recounted

variable {i : AssetId} {k : Nat} {as bs : Assets}

theorem total (h : Assets.Recounted i k as bs) (id : AssetId) :
    Assets.total bs id = Assets.total as id * i.factor k id := by
  induction h with
  | nil => exact (Nat.zero_mul _).symm
  | cons hab _ ih =>
    rw [total_cons, total_cons, ih, hab.1, hab.2, Nat.add_mul]
    split
    · rename_i he
      rw [he]
    · rw [Nat.zero_mul]

theorem amountOf (h : Assets.Recounted i k as bs) (id : AssetId) :
    Assets.amountOf bs id = Assets.amountOf as id * i.factor k id := by
  induction h with
  | nil => exact (Nat.zero_mul _).symm
  | @cons a b as bs hab _ ih =>
    unfold Assets.amountOf Assets.find? at ih ⊢
    by_cases he : a.id = id
    · simp [hab.1, hab.2, he]
    · simpa [hab.1, he] using ih

/-- The first entry of no member, if there is one, is for the same asset. -/
theorem foreign (h : Assets.Recounted i k as bs) (p : Identity) :
    (List.find? (fun b => !p.has b.id) bs).map (·.id) =
      (List.find? (fun a => !p.has a.id) as).map (·.id) := by
  induction h with
  | nil => rfl
  | @cons a b as bs hab _ ih =>
    by_cases hp : p.has a.id
    · simpa [hab.1, hp] using ih
    · simp [hab.1, hp]

variable {p : Identity} (hp : p.members.Nodup)
include hp

theorem ordered (h : Assets.Recounted i k as bs) (foreign : AssetId → Fault) :
    Alike (fun ns ns' => ns = p.members.map (Assets.total as) ∧
        ns' = p.members.map fun j => Assets.total as j * i.factor k j)
      (p.ordered foreign as) (p.ordered foreign bs) := by
  have hf := h.foreign p
  have hs : ∀ ns, p.ordered foreign as = .ok ns → ns = p.members.map (Assets.total as) := by
    intro ns hns
    rw [(Identity.ordered_eq_ok.mp hns).2, Identity.firsts_of_nodup hp]
  have ht : ∀ ns, p.ordered foreign bs = .ok ns →
      ns = p.members.map fun j => Assets.total as j * i.factor k j := by
    intro ns hns
    rw [(Identity.ordered_eq_ok.mp hns).2, Identity.firsts_of_nodup hp]
    exact List.map_congr_left fun j _ => h.total j
  have halike : Alike (fun _ _ => True) (p.ordered foreign as) (p.ordered foreign bs) := by
    unfold Identity.ordered
    cases hb : List.find? (fun b => !p.has b.id) bs with
    | none =>
      rw [hb, Option.map_none, eq_comm, Option.map_eq_none_iff] at hf
      rw [hf]
      exact .ok trivial
    | some b =>
      rw [hb, Option.map_some, eq_comm, Option.map_eq_some_iff] at hf
      obtain ⟨a, ha, hid⟩ := hf
      simp only [ha, hid]
      exact .error _
  exact halike.mono fun ns ns' hns hns' _ => ⟨hs ns hns, ht ns' hns'⟩

/-- Where the finer unit leaves room for all of the asset, lists are laid out alike. -/
theorem inPoolOrder (h : Assets.Recounted i k as bs) (foreign : AssetId → Fault)
    (hfits : Assets.total bs i < Uint128.limit) :
    Alike (fun cs cs' => cs.map Asset.units = p.members.map (fun j => (Assets.total as j : Int)) ∧
        cs'.map Asset.units =
          p.members.map fun j => ((Assets.total as j * i.factor k j : Nat) : Int))
      (p.inPoolOrder foreign as) (p.inPoolOrder foreign bs) := by
  have hitem : ∀ j, Alike (fun _ _ => True) (Asset.of j (.int (Assets.total as j : Int)))
      (Asset.of j (.int ((Assets.total as j * i.factor k j : Nat) : Int))) := by
    intro j
    by_cases he : j = i
    · subst he
      have hafter : Assets.total as j * j.factor k j < Uint128.limit := h.total j ▸ hfits
      have hbefore : Assets.total as j < Uint128.limit :=
        Nat.lt_of_le_of_lt (Nat.le_mul_of_pos_right _ AssetId.factor_pos) hafter
      obtain ⟨a, ha⟩ := Asset.exists_of_int.mpr ⟨Int.natCast_nonneg _, Int.ofNat_lt.mpr hbefore⟩
      obtain ⟨b, hb⟩ := Asset.exists_of_int.mpr ⟨Int.natCast_nonneg _, Int.ofNat_lt.mpr hafter⟩
      rw [ha, hb]
      exact .ok trivial
    · rw [AssetId.factor, if_neg he, Nat.mul_one]
      exact .refl fun _ _ => trivial
  have halike : Alike (fun _ _ => True) (p.inPoolOrder foreign as) (p.inPoolOrder foreign bs) := by
    refine (h.ordered hp foreign).bind ?_
    rintro _ _ ⟨rfl, rfl⟩
    rw [Identity.zip_map_self, Identity.zip_map_self, List.mapM_map, List.mapM_map]
    have hsame : List.Forall₂ (fun j j' => j = j') p.members p.members :=
      List.forall₂_same.mpr fun _ _ => rfl
    refine (Alike.mapM (S := fun _ _ => True) hsame ?_).mono fun _ _ _ _ _ => trivial
    rintro j _ rfl
    exact hitem j
  refine halike.mono fun cs cs' hcs hcs' _ => ⟨Identity.units_inPoolOrder hp hcs, ?_⟩
  rw [Identity.units_inPoolOrder hp hcs']
  exact List.map_congr_left fun j _ => congrArg Int.ofNat (h.total j)

end Assets.Recounted

theorem Reserves.Recounted.amountsFor {i : AssetId} {k : Nat} {r r' : Reserves}
    (h : Reserves.Recounted i k r r') (ids : List AssetId) :
    r'.amountsFor ids =
      ids.map fun j => ((Assets.amountOf r.assets j * i.factor k j : Nat) : Int) :=
  List.map_congr_left fun j _ => congrArg Int.ofNat (h.assets.amountOf j)

namespace StablePool.Recounted

variable {p : StablePool} {i : AssetId} {d k : Nat} {s t : Snapshot} {as bs : Assets}

section

variable (h : p.Recounted i d k s t)
include h

theorem currentAmp : p.currentAmp t = p.currentAmp s := by
  unfold StablePool.currentAmp
  rw [h.ramp, h.blockTime]

/-- What the pool holds comes to the same at the greatest decimals. -/
theorem balances {c c' : Scale} (hc : p.SameScale s t c c') {r r' : Reserves}
    (hr : Reserves.Recounted i k r r') :
    c'.up (r'.amountsFor p.identity.members) = c.up (r.amountsFor p.identity.members) := by
  rw [hr.amountsFor]
  exact h.up hc (Assets.amountOf r.assets)

theorem mint (has : Assets.Recounted i k as bs) : p.mint t bs = p.mint s as := by
  have hzero : ((p.identity.members.map fun j => Assets.total as j * i.factor k j).all (· == 0)) =
      (p.identity.members.map (Assets.total as)).all (· == 0) := by
    have hitem : ∀ j, (Assets.total as j * i.factor k j == 0) = (Assets.total as j == 0) := by
      intro j
      have hfactor : i.factor k j ≠ 0 := Nat.ne_of_gt AssetId.factor_pos
      rw [Bool.eq_iff_iff, beq_iff_eq, beq_iff_eq, Nat.mul_eq_zero, or_iff_left hfactor]
    simp only [List.all_map, Function.comp_def, hitem]
  refine ((has.ordered h.distinct _).bind_eq ?_).symm
  rintro _ _ ⟨rfl, rfl⟩
  rw [hzero]
  split
  · rfl
  · refine h.reserves.bind_eq fun r r' hr => h.scale.bind_eq fun c c' hc => ?_
    obtain ⟨g, hg, hg', -⟩ := hc.greatest
    have hup : c'.up ((p.identity.members.map fun j => Assets.total as j * i.factor k j).map
        Int.ofNat) = c.up ((p.identity.members.map (Assets.total as)).map Int.ofNat) := by
      rw [List.map_map, List.map_map]
      exact h.up hc (Assets.total as)
    rw [hup]
    refine bind_congr fun normalized => ?_
    rw [hr.supply, hc.lpToken, hg, hg', h.currentAmp, h.balances hc hr]

theorem simulateProvide (has : Assets.Recounted i k as bs) :
    (Pool.stable p).simulateProvide t bs = (Pool.stable p).simulateProvide s as := by
  have hmint : (Pool.stable p).mint t bs = (Pool.stable p).mint s as := h.mint has
  rw [Pool.simulateProvide, hmint]
  rfl

theorem simulateBurn (has : Assets.Recounted i k as bs)
    (hfits : Assets.total bs i < Uint128.limit) (provided : Option Figure) :
    (p.simulateBurn t bs provided).map (·.burn) = (p.simulateBurn s as provided).map (·.burn) := by
  refine (Alike.map_eq (R := fun b b' => b.burn = b'.burn) ?_ fun _ _ hb => hb).symm
  refine (has.inPoolOrder h.distinct _ hfits).bind fun cs cs' hcs => ?_
  refine h.reserves.bind fun r r' hr => h.scale.bind fun c c' hc => ?_
  have hup : c'.up (cs'.map Asset.units) = c.up (cs.map Asset.units) := by
    rw [hcs.1, hcs.2]
    exact h.up hc (Assets.total as)
  rw [hr.supply, h.currentAmp, h.balances hc hr, hup]
  refine .after fun amp _ => .after fun balances _ => .after fun withdrawals _ => ?_
  exact .after fun share _ => .after fun burn _ => .ok rfl

end

end StablePool.Recounted

end Liquidity
