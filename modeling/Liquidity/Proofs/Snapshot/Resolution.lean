import Liquidity.Proofs.Snapshot.History
import Liquidity.Proofs.Text.Digits

/-! From tokens back to pools. A token leads to a pool only if the pool says that the token is its
own, and it leads to every registered pool as long as nothing that came later took the pool's
address, its id or the creation of its token. -/

namespace Liquidity
set_option autoImplicit false

open Outcome

/-- The native LP denom of digits under a head. -/
def poolDenom (head : String) (ds : List Nat) : String :=
  head ++ String.ofList (ds.map Text.digitChar)

section Denom

variable {denom head : String} {ds : List Nat} {n : Int}

theorem nativePoolId?_poolDenom (hne : ds ≠ []) (hds : ∀ d ∈ ds, d < 10) :
    nativePoolId? (poolDenom head ds) head =
      if ds.length ≤ Text.digitLimit then .ok (some (Text.ofDigits ds))
      else .error .numeralTooLong := by
  have htail : tail? (poolDenom head ds).toList head.toList = some (ds.map Text.digitChar) := by
    rw [tail?_eq_some, poolDenom, String.toList_append, String.toList_ofList]
  have hdigits := Text.mapM_asciiDigit?_eq_some.mpr ⟨hds, rfl⟩
  unfold nativePoolId?
  rw [htail]
  dsimp only
  rw [hdigits]
  cases ds with
  | nil => exact absurd rfl hne
  | cons d ds => rfl

/-- A denom of another form than the head and digits has no pool id. -/
theorem nativePoolId?_eq_none_or (denom head : String) : nativePoolId? denom head = .ok none ∨
    ∃ ds, ds ≠ [] ∧ (∀ d ∈ ds, d < 10) ∧ denom = poolDenom head ds := by
  unfold nativePoolId?
  cases ht : tail? denom.toList head.toList with
  | none => exact .inl rfl
  | some tail =>
    dsimp only
    cases hm : tail.mapM Text.asciiDigit? with
    | none => exact .inl rfl
    | some ds =>
      cases ds with
      | nil => exact .inl rfl
      | cons d ds =>
        obtain ⟨hds, rfl⟩ := Text.mapM_asciiDigit?_eq_some.mp hm
        refine .inr ⟨d :: ds, List.cons_ne_nil d ds, hds, ?_⟩
        apply String.toList_injective
        rw [tail?_eq_some.mp ht, poolDenom, String.toList_append, String.toList_ofList]

end Denom

namespace Snapshot

variable {s : Snapshot} {h : History} {token : AssetId} {config : Config} {p : Identity}

theorem resolve_eq_ok : s.resolve token config = .ok p ↔
    s.candidate token config.lpDenomHead = .ok p ∧ p.lpToken = token := by
  unfold resolve
  cases s.candidate token config.lpDenomHead with
  | ok q =>
    by_cases hq : q.lpToken = token
    · simp only [hq, if_true, Except.ok.injEq]
      constructor
      · rintro rfl
        exact ⟨rfl, hq⟩
      · exact fun hp => hp.1
    · simp only [hq, if_false, reduceCtorEq, Except.ok.injEq, false_iff, not_and]
      rintro rfl
      exact hq
  | error f => cases f <;> simp

theorem Indexed.mem_of_candidate (hi : s.Indexed h) {head : Json}
    (hc : s.candidate token head = .ok p) : ∃ r ramp, .addPool p r ramp ∈ h := by
  unfold candidate at hc
  split at hc
  · obtain ⟨_, -, hc⟩ := bind_eq_ok.mp hc
    obtain ⟨id, -, hc⟩ := bind_eq_ok.mp hc
    cases id with
    | none => cases hc
    | some n =>
      obtain ⟨r, ramp, hf⟩ := (nativePool_eq_ok hi).mp hc
      exact ⟨r, ramp, List.mem_of_find?_eq_some hf⟩
  · obtain ⟨creator, -, hc⟩ := bind_eq_ok.mp hc
    cases creator with
    | str a =>
      obtain ⟨r, ramp, hf⟩ := (pairAt_eq_ok hi).mp hc
      exact ⟨r, ramp, List.mem_of_find?_eq_some hf⟩
    | _ => cases hc

theorem Indexed.reservesOf_of_mem (hi : s.Indexed h) {r : Reserves} {ramp : Option Ramp}
    (hp : .addPool p r ramp ∈ h) : ∃ r, s.reservesOf p = .ok r := by
  have hpair : (p.address, p) ∈ s.pairs := by
    rw [hi.pairs]
    exact List.mem_filterMap.mpr ⟨_, hp, rfl⟩
  obtain ⟨r, hr⟩ := Option.isSome_iff_exists.mp (hi.stocked _ hpair)
  exact ⟨r, found_eq_ok.mpr hr⟩

/-- What a token can be told by that a pool issued: its contract, or its denom. -/
inductive Issued (config : Config) (p : Identity) : Prop where
  | contract : p.lpToken.kind = .cw20 → Issued config p
  | denom (head : String) (ds : List Nat) : p.lpToken.kind = .native →
      config.lpDenomHead = .str head → ds ≠ [] → (∀ d ∈ ds, d < 10) →
      ds.length ≤ Text.digitLimit → p.lpToken.identifier = poolDenom head ds →
      p.poolId = some (Text.ofDigits ds) → Issued config p

/-- Whether a call writes where a pool is looked for. -/
structure Spares (p : Identity) (c : Call) : Prop where
  address : c.isAt p.address = false
  poolId : ∀ n, p.poolId = some n → c.hasId (.int n) = false
  creator : c.createsAt p.lpToken.identifier = false

variable {later earlier : History} {r : Reserves} {ramp : Option Ramp}

theorem Indexed.nativePool_of_spared (hi : s.Indexed (later ++ .addPool p r ramp :: earlier))
    (hl : ∀ c ∈ later, Spares p c) {n : Nat} (hn : p.poolId = some n) :
    s.nativePool (.int n) = .ok p := by
  apply (nativePool_eq_ok hi).mpr
  refine ⟨r, ramp, find?_latest (fun c hc => (hl c hc).poolId n hn) ?_⟩
  simp [Call.hasId, hn, Operand.equal]

theorem Indexed.creatorOf_of_spared (hi : s.Indexed (later ++ .addPool p r ramp :: earlier))
    (hl : ∀ c ∈ later, Spares p c) (hk : p.lpToken.isNative = false) :
    s.creatorOf (.str p.lpToken.identifier) = .ok (.str p.address) := by
  apply (creatorOf_eq_ok hi).mpr
  refine ⟨_, .str p.lpToken.identifier, find?_latest (fun c hc => (hl c hc).creator) ?_, ?_⟩
  · simp [Call.createsAt, hk]
  · simp [Call.creator?, hk]

theorem Indexed.pairAt_of_spared (hi : s.Indexed (later ++ .addPool p r ramp :: earlier))
    (hl : ∀ c ∈ later, Spares p c) : s.pairAt (.str p.address) = .ok p := by
  apply (pairAt_eq_ok hi).mpr
  exact ⟨r, ramp, find?_latest (fun c hc => (hl c hc).address) (beq_self_eq_true p.address)⟩

theorem Indexed.resolve_of_spared (hi : s.Indexed (later ++ .addPool p r ramp :: earlier))
    (hl : ∀ c ∈ later, Spares p c) (hp : Issued config p) :
    s.resolve p.lpToken config = .ok p := by
  refine resolve_eq_ok.mpr ⟨?_, rfl⟩
  unfold candidate
  cases hp with
  | contract hk =>
    have hnative : p.lpToken.isNative = false := by simp [AssetId.isNative, hk]
    rw [hnative, if_neg Bool.false_ne_true, hi.creatorOf_of_spared hl hnative]
    exact hi.pairAt_of_spared hl
  | denom head ds hk hhead hne hds hlen hdenom hid =>
    have hnative : p.lpToken.isNative = true := by simp [AssetId.isNative, hk]
    rw [hnative, if_pos rfl, hhead, hdenom]
    change (nativePoolId? (poolDenom head ds) head >>= _) = _
    rw [nativePoolId?_poolDenom hne hds, if_pos hlen]
    exact hi.nativePool_of_spared hl hid

/-- Whatever was written before, a token leads only to a registered pool that issues it and that
has reserves, and it leads to every pool that issues it recognizably and was registered without
anything later being written over it. -/
theorem resolve_follows_registrations (time : Figure) (own config : Config) (h : History) :
    (∀ token p, ((empty time own).after h).resolve token config = .ok p →
      p.lpToken = token ∧ (∃ r ramp, .addPool p r ramp ∈ h) ∧
        ∃ r, ((empty time own).after h).reservesOf p = .ok r) ∧
    ∀ later p r ramp earlier, h = later ++ .addPool p r ramp :: earlier →
      (∀ c ∈ later, Spares p c) → Issued config p →
        ((empty time own).after h).resolve p.lpToken config = .ok p := by
  have hi := indexed time own h
  constructor
  · intro token p hr
    obtain ⟨hc, htoken⟩ := resolve_eq_ok.mp hr
    obtain ⟨r, ramp, hmem⟩ := hi.mem_of_candidate hc
    exact ⟨htoken, ⟨r, ramp, hmem⟩, hi.reservesOf_of_mem hmem⟩
  · rintro later p r ramp earlier rfl hl hp
    exact hi.resolve_of_spared hl hp

/-- Two pools, one of a denom and one of a contract, among calls that fail or write elsewhere. -/
theorem resolve_follows_registrations_mixed :
    let a : Identity :=
      ⟨"a", .native "gamm/pool/007", [.native "x", .native "y"], .stableSwap, some 7, by decide⟩
    let b : Identity :=
      ⟨"b", .cw20 "lp", [.native "x", .cw20 "y"], .constantProduct, none, by decide⟩
    let later : History := [.addCreator (.arr []) (.str "a"), .addCreator (.str "other") (.str "a"),
      .setReserves b ⟨[], 5, by decide⟩, .addPrecision (.cw20 "y") (.int 9)]
    let h : History := later ++ .addPool b ⟨[], 3, by decide⟩ none ::
      [.addPool a ⟨[], 1, by decide⟩ (some ⟨1, 0, 1, 0⟩), .setReserves a ⟨[], 2, by decide⟩]
    (((empty (.int 0) {}).after h).resolve a.lpToken {} = .ok a ∧
      ((empty (.int 0) {}).after h).resolve b.lpToken {} = .ok b) ∧
      ∃ r, ((empty (.int 0) {}).after h).reservesOf b = .ok r := by
  intro a b later h
  obtain ⟨hsound, hcomplete⟩ := resolve_follows_registrations (.int 0) {} {} h
  have ha : ((empty (.int 0) {}).after h).resolve a.lpToken {} = .ok a := by
    apply hcomplete (later ++ [.addPool b ⟨[], 3, by decide⟩ none]) a ⟨[], 1, by decide⟩
      (some ⟨1, 0, 1, 0⟩) [.setReserves a ⟨[], 2, by decide⟩] rfl
    · have hspared : ∀ c ∈ later ++ [.addPool b ⟨[], 3, by decide⟩ none],
          c.isAt "a" = false ∧ c.hasId (.int 7) = false ∧ c.createsAt "gamm/pool/007" = false := by
        decide
      intro c hc
      obtain ⟨haddress, hid, hcreator⟩ := hspared c hc
      refine ⟨haddress, ?_, hcreator⟩
      rintro _ ⟨⟩
      exact hid
    · exact .denom "gamm/pool/" [0, 0, 7] rfl rfl (by decide) (by decide) (by decide) rfl rfl
  have hb : ((empty (.int 0) {}).after h).resolve b.lpToken {} = .ok b := by
    apply hcomplete later b ⟨[], 3, by decide⟩ none _ rfl
    · have hspared : ∀ c ∈ later, c.isAt "b" = false ∧ c.createsAt "lp" = false := by
        decide
      intro c hc
      obtain ⟨haddress, hcreator⟩ := hspared c hc
      exact ⟨haddress, nofun, hcreator⟩
    · exact .contract rfl
  exact ⟨⟨ha, hb⟩, (hsound b.lpToken b hb).2.2⟩

end Snapshot
end Liquidity
