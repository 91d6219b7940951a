import Liquidity.Proofs.Schema.Scalars

/-! Every kind of document that has fixed parts is kept, from its parts. -/

namespace Liquidity
set_option autoImplicit false

open Outcome Schema

variable {k : Nat}

theorem AssetKind.faithful : Faithful (k + 1)
    (fun _ => choice [.native, .cw20] AssetKind.label .notOption) fun a => .str a.label :=
  choice_faithful (by decide)

theorem AssetId.faithful : Faithful (k + 2) (fun _ => AssetId.ofJson) AssetId.toJson := by
  refine ((AssetKind.faithful.required "kind").both
    (string_faithful.required "identifier")).object (by decide) ?_
  intro a id h
  cases h
  rfl

theorem Asset.faithful : Faithful (k + 3) (fun _ => Asset.ofJson) Asset.toJson := by
  refine ((AssetId.faithful.required "info").both
    (word_faithful.required "amount")).object (by decide) ?_
  intro a asset h
  cases h
  rfl

theorem Assets.faithful : Faithful (k + 4) (fun _ => Assets.ofJson) Assets.toJson :=
  Asset.faithful.list

theorem poolIdOfJson_eq_ok {j : Json} (hj : j ≠ .null) {o : Option Nat} :
    poolIdOfJson j = .ok o ↔ ∃ n, natural j = .ok n ∧ some n.val.toNat = o := by
  cases j with
  | null => exact absurd rfl hj
  | _ => simp [poolIdOfJson]

theorem poolId_faithful : Faithful (k + 1) (fun _ => poolIdOfJson) fun
    | some n => .int n
    | none => .null := by
  constructor
  intro src o j hread
  by_cases hj : j = .null
  · subst hj
    cases hread
    exact ⟨fun _ => rfl, .null, id⟩
  · obtain ⟨n, hn, rfl⟩ := (poolIdOfJson_eq_ok hj).mp hread
    have hkept := (natural_faithful (k := k)).kept src hn
    have hcast : (n.val.toNat : Int) = n.val := Int.toNat_of_nonneg n.property
    dsimp only
    rw [hcast]
    refine ⟨fun src => ?_, hkept.tidy, hkept.legible⟩
    exact (poolIdOfJson_eq_ok (by simp)).mpr ⟨n, hkept.back src, rfl⟩

theorem Curve.faithful : Faithful (k + 1) (fun _ => Curve.ofJson) fun a => .str a.label :=
  choice_faithful (by decide)

theorem Identity.faithful : Faithful (k + 4) (fun _ => Identity.ofJson) Identity.toJson := by
  refine ((string_faithful.required "address").both
    ((AssetId.faithful.required "lp_token").both
      ((AssetId.faithful.listOfTwo.required "asset_infos").both
        ((Curve.faithful.required "curve").both
          (poolId_faithful.defaulted "pool_id" (j := .null) (.scalar rfl trivial) rfl))))).object (by decide) ?_
  intro a p h
  cases h
  rfl

theorem Reserves.faithful : Faithful (k + 5) (fun _ => Reserves.ofJson) Reserves.toJson := by
  refine ((Assets.faithful.required "assets").both
    (word_faithful.required "total_shares")).object (by decide) ?_
  intro a r h
  cases h
  rfl

theorem Ramp.faithful : Faithful (k + 2) (fun _ => Ramp.ofJson) Ramp.toJson := by
  refine ((natural_faithful.required "init_amp").both
    ((natural_faithful.required "init_amp_time").both
      ((natural_faithful.required "next_amp").both
        (natural_faithful.required "next_amp_time")))).object (by decide) ?_
  intro a r h
  -- Of the four numbers, only those with the times in order make a ramp.
  dsimp only at h
  split at h
  · cases h
  · cases h
    rfl

theorem Price.faithful : Faithful (k + 3) Price.ofJson Price.toJson := by
  refine ((AssetId.faithful.required "base_asset").both
    ((AssetId.faithful.required "quote_asset").both
      (positiveDecimal_faithful.required "price"))).object (by decide) ?_
  intro a p h
  cases h
  rfl

theorem tag_faithful (name : String) :
    MembersFaithful (k + 1) ["kind"] (fun _ => tag name) fun _ => [("kind", .str name)] :=
  (literal_faithful name).defaulted "kind" (j := .str name) (.scalar rfl trivial)
    (literal_eq_ok.mpr rfl)

theorem MinOut.faithful : Faithful (k + 2) (fun _ => MinOut.ofJson) MinOut.toJson := by
  refine ((tag_faithful "min_out").both
    (word_faithful.required "min_out")).object (by decide) ?_
  intro a g h
  cases h
  rfl

theorem BeliefPrice.faithful : Faithful (k + 4) BeliefPrice.ofJson BeliefPrice.toJson := by
  refine ((tag_faithful "belief_price").both
    ((Price.faithful.required "belief_price").both
      (ratio_faithful.required "slippage_tolerance"))).object (by decide) ?_
  intro a g h
  cases h
  rfl

theorem MaxPriceImpact.faithful : Faithful (k + 2) MaxPriceImpact.ofJson MaxPriceImpact.toJson := by
  have husual : ratio .value usual.val.toJson = .ok usual :=
    ratio_eq_ok.mpr (decimal_text (by decide +kernel))
  refine ((tag_faithful "max_price_impact").both
    (ratio_faithful.defaulted "max_price_impact" (j := usual.val.toJson) (.scalar rfl trivial)
      husual)).object (by decide) ?_
  intro a g h
  cases h
  rfl

theorem Mint.faithful : Faithful (k + 4) (fun _ => Mint.ofJson) Mint.toJson := by
  refine (Asset.faithful.required "shares").object (by decide) ?_
  intro a m h
  cases h
  rfl

theorem Payout.faithful : Faithful (k + 5) (fun _ => Payout.ofJson) Payout.toJson := by
  refine (Assets.faithful.required "assets").object (by decide) ?_
  intro a p h
  cases h
  rfl

theorem Quote.faithful : Faithful (k + 4) (fun _ => Quote.ofJson) Quote.toJson := by
  refine ((Asset.faithful.required "offer").both
    (Asset.faithful.required "receive")).object (by decide) ?_
  intro a q h
  cases h
  rfl

theorem Burn.faithful : Faithful (k + 5) (fun _ => Burn.ofJson) Burn.toJson := by
  refine ((Asset.faithful.required "burn").both
    (Assets.faithful.required "assets")).object (by decide) ?_
  intro a b h
  cases h
  rfl

theorem figure_faithful : Faithful (k + 1) (fun _ => figure) Figure.toJson :=
  integer_faithful.map fun _ => rfl

theorem denomHead_faithful : Faithful (k + 1) (fun _ => denomHead) Json.finite :=
  string_faithful.map fun _ => rfl

theorem figure_defaulted {n : Int} (hn : n.natAbs < 10 ^ 40) (name : String) :
    MembersFaithful (k + 1) [name] (fun _ => defaulted name (.int n) figure)
      fun f => [(name, Figure.toJson f)] :=
  figure_faithful.defaulted name (j := .int n) (.scalar rfl (legible_of_lt hn)) rfl

theorem Config.faithful : Faithful (k + 2) (fun _ => Config.ofJson) Config.toJson := by
  refine ((figure_defaulted (by decide) "minimum_liquidity_amount").both
    ((figure_defaulted (by decide) "max_iterations").both
      ((figure_defaulted (by decide) "amp_precision").both
        ((figure_defaulted (by decide) "stable_fee").both
          ((figure_defaulted (by decide) "native_token_precision").both
            (denomHead_faithful.defaulted "lp_denom_prefix" (j := .str "gamm/pool/")
              (.scalar rfl trivial) rfl)))))).object (by decide) ?_
  intro a c h
  cases h
  rfl

/-- What a pool is built on is the identity that was checked. -/
theorem poolMembers_faithful {α : Type} {check : Identity → Except Complaint α}
    {identity : α → Identity} (hcheck : ∀ p a, check p = .ok a → identity a = p) (curve : Curve) :
    Faithful (k + 5) (fun _ => poolMembers check curve)
      fun x => poolJson (identity x.1) x.2 curve := by
  have hidentity : Faithful (k + 4)
      (fun _ j => Identity.ofJson j >>= fun p =>
        (check p).mapError fun c => Fault.invalid [⟨c, []⟩])
      fun a => (identity a).toJson := by
    apply Identity.faithful.bind
    intro p a h
    rw [hcheck p a (mapError_eq_ok.mp h)]
  refine ((hidentity.required "identity").both
    ((Config.faithful.defaulted "config" (j := .obj []) (.obj (by simp)) rfl).both
      (tag_faithful curve.label))).object (by decide) ?_
  intro a x h
  cases h
  rfl

theorem val_pairIdentity {p : Identity} {a : PairIdentity} (h : pairIdentity p = .ok a) :
    a.val = p := by
  unfold pairIdentity at h
  split at h
  · split at h
    · cases h
      rfl
    · cases h
  · cases h

theorem val_stableIdentity {p : Identity} {a : StableIdentity} (h : stableIdentity p = .ok a) :
    a.val = p := by
  unfold stableIdentity at h
  split at h
  · cases h
    rfl
  · cases h

theorem ConstantProductPool.faithful : Faithful (k + 5) (fun _ => ConstantProductPool.ofJson)
    ConstantProductPool.toJson :=
  (poolMembers_faithful (fun _ _ => val_pairIdentity) .constantProduct).map fun _ => rfl

theorem StablePool.faithful : Faithful (k + 5) (fun _ => StablePool.ofJson) StablePool.toJson :=
  (poolMembers_faithful (fun _ _ => val_stableIdentity) .stableSwap).map fun _ => rfl

/-- The kinds of pools by tag, as they are read. -/
def Pool.kinds : List (String × (Source → Json → Except Fault Pool)) :=
  [("constant_product", fun _ j => (ConstantProductPool.ofJson j).map .constantProduct),
    ("stable_swap", fun _ j => (StablePool.ofJson j).map .stable)]

theorem Pool.faithful : Faithful (k + 5) Pool.ofJson Pool.toJson := by
  have hkinds : ∀ v ∈ kinds, Kind (k + 5) Pool.toJson v.1 v.2 := by
    intro v hv
    unfold kinds at hv
    simp only [List.mem_cons, List.not_mem_nil, or_false] at hv
    rcases hv with rfl | rfl
    · exact ConstantProductPool.faithful.kind (fun _ => rfl) fun _ => rfl
    · exact StablePool.faithful.kind (fun _ => rfl) fun _ => rfl
  exact Faithful.tagged hkinds

/-- The kinds of guards by tag, as they are read. -/
def SlippageControl.kinds : List (String × (Source → Json → Except Fault SlippageControl)) :=
  [("min_out", fun _ j => (MinOut.ofJson j).map .minOut),
    ("belief_price", fun src j => (BeliefPrice.ofJson src j).map .beliefPrice),
    ("max_price_impact", fun src j => (MaxPriceImpact.ofJson src j).map .maxPriceImpact)]

theorem SlippageControl.faithful :
    Faithful (k + 4) SlippageControl.ofJson SlippageControl.toJson := by
  have hkinds : ∀ v ∈ kinds, Kind (k + 4) SlippageControl.toJson v.1 v.2 := by
    intro v hv
    unfold kinds at hv
    simp only [List.mem_cons, List.not_mem_nil, or_false] at hv
    rcases hv with rfl | rfl | rfl
    · exact MinOut.faithful.kind (fun _ => rfl) fun _ => rfl
    · exact BeliefPrice.faithful.kind (fun _ => rfl) fun _ => rfl
    · exact MaxPriceImpact.faithful.kind (fun _ => rfl) fun _ => rfl
  exact Faithful.tagged hkinds

end Liquidity
