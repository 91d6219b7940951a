import Liquidity.Proofs.Snapshot.Resolution

/-! What asking for the pool of a token can come to. A pool of that token, a refusal of the token
or of the curve is all there is, but for two cases: the id in a native denom is longer than any
numeral that is read, or the pool found is a pair that has not two members. -/

namespace Liquidity
set_option autoImplicit false

open Outcome

inductive Settled (token : AssetId) : Except Fault Pool → Prop where
  | pool {p : Pool} : p.lpToken = token → Settled token (.ok p)
  | notLpToken : Settled token (.error (.notLpToken token))
  | unsupported (address : String) : Settled token (.error (.unsupportedCurve address .unsupported))

/-- The id of a pool in more digits than are read. -/
def Overlong (head : String) (token : AssetId) : Prop :=
  token.kind = .native ∧ ∃ ds : List Nat, (∀ d ∈ ds, d < 10) ∧ Text.digitLimit < ds.length ∧
    token.identifier = poolDenom head ds

/-- A pool of constant product of one asset or of more than two. -/
def Misshapen (p : Identity) : Prop := p.curve = .constantProduct ∧ p.members.length ≠ 2

namespace Snapshot

variable {s : Snapshot} {token : AssetId} {config : Config} {head : String} {p : Identity}
variable {f : Fault}

theorem candidate_of_overlong (h : Overlong head token) :
    s.candidate token (.str head) = .error .numeralTooLong := by
  obtain ⟨hk, ds, hds, hlen, hdenom⟩ := h
  have hnative : token.isNative = true := by simp [AssetId.isNative, hk]
  have hne : ds ≠ [] := by
    rintro rfl
    exact absurd hlen (by decide)
  unfold candidate
  rw [hnative, if_pos rfl, hdenom]
  change (nativePoolId? (poolDenom head ds) head >>= _) = _
  rw [nativePoolId?_poolDenom hne hds, if_neg (Nat.not_le.mpr hlen)]
  rfl

theorem found_eq_error {α : Type} {what : Unread} {o : Option α} :
    found what o = .error f ↔ o = none ∧ f = .unread what := by
  cases o <;> simp [found, eq_comm]

theorem mem_creators {k creator : Json} (h : s.creatorOf k = .ok creator) :
    ∃ x ∈ s.creators, x.2 = creator := by
  obtain ⟨l, -, h⟩ := bind_eq_ok.mp h
  obtain ⟨x, hx, rfl⟩ := Option.map_eq_some_iff.mp (found_eq_ok.mp h)
  exact ⟨x, List.mem_of_find?_eq_some hx, rfl⟩

theorem candidate_error (hs : ∀ x ∈ s.creators, ∃ a, x.2 = .str a)
    (h : s.candidate token (.str head) = .error f) :
    f = .notLpToken token ∨ (∃ what, f = .unread what) ∨
      (f = .numeralTooLong ∧ Overlong head token) := by
  unfold candidate at h
  split at h
  · rename_i hnative
    have hk : token.kind = .native := by simpa [AssetId.isNative] using hnative
    change (nativePoolId? token.identifier head >>= _) = _ at h
    rcases nativePoolId?_eq_none_or token.identifier head with hnone | ⟨ds, hne, hds, hdenom⟩
    · rw [hnone] at h
      cases h
      exact .inl rfl
    · rw [hdenom, nativePoolId?_poolDenom hne hds] at h
      by_cases hlen : ds.length ≤ Text.digitLimit
      · rw [if_pos hlen] at h
        exact .inr (.inl ⟨_, (found_eq_error.mp h).2⟩)
      · rw [if_neg hlen] at h
        cases h
        exact .inr (.inr ⟨rfl, hk, ds, hds, Nat.not_le.mp hlen, hdenom⟩)
  · rcases bind_eq_error.mp h with h | ⟨creator, hc, h⟩
    · exact .inr (.inl ⟨_, (found_eq_error.mp h).2⟩)
    · obtain ⟨x, hx, rfl⟩ := mem_creators hc
      obtain ⟨a, ha⟩ := hs x hx
      rw [ha] at h
      exact .inr (.inl ⟨_, (found_eq_error.mp h).2⟩)

theorem resolve_of_overlong (hhead : config.lpDenomHead = .str head) (h : Overlong head token) :
    s.resolve token config = .error .numeralTooLong := by
  unfold resolve
  rw [hhead, candidate_of_overlong h]

theorem resolve_error (hhead : config.lpDenomHead = .str head)
    (hs : ∀ x ∈ s.creators, ∃ a, x.2 = .str a) (ho : ¬ Overlong head token)
    (h : s.resolve token config = .error f) : f = .notLpToken token := by
  unfold resolve at h
  rw [hhead] at h
  cases hc : s.candidate token (.str head) with
  | ok p =>
    rw [hc] at h
    dsimp only at h
    split at h
    · cases h
    · cases h
      rfl
  | error g =>
    rcases candidate_error hs hc with rfl | ⟨what, rfl⟩ | ⟨-, hlong⟩
    · rw [hc] at h
      cases h
      rfl
    · rw [hc] at h
      cases h
      rfl
    · exact absurd hlong ho

end Snapshot

namespace Pool

variable {p : Identity} {token : AssetId}

theorem ofIdentity_of_misshapen (h : Misshapen p) (config : Config) :
    ofIdentity p config = .error (identityFault (.wrongMemberCount p.members.length)) := by
  unfold ofIdentity
  rw [h.1]
  unfold ConstantProductPool.of pairIdentity
  rw [dif_pos h.1, dif_neg h.2]
  rfl

theorem ofIdentity_settled (htoken : p.lpToken = token) (h : ¬ Misshapen p) (config : Config) :
    Settled token (ofIdentity p config) := by
  unfold ofIdentity
  cases hcurve : p.curve with
  | constantProduct =>
    have hlength : p.members.length = 2 := by
      by_contra hlength
      exact h ⟨hcurve, hlength⟩
    unfold ConstantProductPool.of pairIdentity
    rw [dif_pos hcurve, dif_pos hlength]
    exact .pool htoken
  | stableSwap =>
    unfold StablePool.of stableIdentity
    rw [dif_pos hcurve]
    exact .pool htoken
  | unsupported => exact .unsupported p.address

/-- Asking for the pool of a token yields a pool of that token or refuses the token or the curve
unless the token's id is too long to be read or its pool is a pair that has not two members. It
fails in a way of its own in each of these cases. -/
theorem forLpToken_settled_iff (s : Snapshot) (token : AssetId) (config : Config) (head : String)
    (hhead : config.lpDenomHead = .str head) (hs : ∀ x ∈ s.creators, ∃ a, x.2 = .str a) :
    (Settled token (forLpToken s token config) ↔
      ¬ Overlong head token ∧ ∀ p, s.resolve token config = .ok p → ¬ Misshapen p) ∧
    (Overlong head token → forLpToken s token config = .error .numeralTooLong) ∧
    ∀ p, s.resolve token config = .ok p → Misshapen p →
      forLpToken s token config =
        .error (identityFault (.wrongMemberCount p.members.length)) := by
  have hlong : Overlong head token → forLpToken s token config = .error .numeralTooLong := by
    intro ho
    unfold forLpToken
    rw [Snapshot.resolve_of_overlong hhead ho]
    rfl
  have hshape (p : Identity) (hp : s.resolve token config = .ok p) :
      forLpToken s token config = ofIdentity p config := by
    unfold forLpToken
    rw [hp]
    rfl
  refine ⟨⟨?_, ?_⟩, hlong, ?_⟩
  · intro hsettled
    constructor
    · intro ho
      rw [hlong ho] at hsettled
      cases hsettled
    · intro p hp hm
      rw [hshape p hp, ofIdentity_of_misshapen hm] at hsettled
      cases hsettled
  · rintro ⟨ho, hm⟩
    cases hr : s.resolve token config with
    | ok p =>
      rw [hshape p hr]
      exact ofIdentity_settled (Snapshot.resolve_eq_ok.mp hr).2 (hm p hr) config
    | error f =>
      obtain rfl := Snapshot.resolve_error hhead hs ho hr
      unfold forLpToken
      rw [hr]
      exact .notLpToken
  · intro p hp hm
    rw [hshape p hp, ofIdentity_of_misshapen hm]

/-- A pool of a native denom, a token that nobody created, and a pool of an unknown curve. -/
theorem forLpToken_settled_iff_known :
    let a : Identity :=
      ⟨"a", .native "gamm/pool/7", [.native "x", .native "y"], .stableSwap, some 7, by decide⟩
    let b : Identity := ⟨"b", .cw20 "lp", [.native "x", .cw20 "y"], .unsupported, none, by decide⟩
    let s := (Snapshot.empty (.int 0) {}).after
      [.addPool b ⟨[], 3, by decide⟩ none, .addPool a ⟨[], 1, by decide⟩ none]
    Settled a.lpToken (forLpToken s a.lpToken {}) ∧
      Settled (.cw20 "other") (forLpToken s (.cw20 "other") {}) ∧
      Settled b.lpToken (forLpToken s b.lpToken {}) := by
  intro a b s
  have hcreators : s.creators = [(.str "lp", .str "b")] := rfl
  have hs : ∀ x ∈ s.creators, ∃ a, x.2 = .str a := by
    rw [hcreators]
    intro x hx
    obtain rfl := List.mem_singleton.mp hx
    exact ⟨"b", rfl⟩
  have hshort : ¬ Overlong "gamm/pool/" a.lpToken := by
    rintro ⟨-, ds, -, hlen, hdenom⟩
    have hlength := congrArg (·.toList.length) hdenom
    simp only [poolDenom, String.toList_append, String.toList_ofList, List.length_append,
      List.length_map] at hlength
    have : a.lpToken.identifier.toList.length = 11 := by decide
    have : Text.digitLimit = 4300 := rfl
    omega
  have hcontract (id : String) : ¬ Overlong "gamm/pool/" (.cw20 id) := by
    rintro ⟨hk, -⟩
    cases hk
  refine ⟨?_, ?_, ?_⟩
  · apply (forLpToken_settled_iff s a.lpToken {} "gamm/pool/" rfl hs).1.mpr
    refine ⟨hshort, ?_⟩
    rintro p hp ⟨hcurve, -⟩
    have ha : s.resolve a.lpToken {} = .ok a := by decide +kernel
    obtain rfl : a = p := Except.ok.inj (ha.symm.trans hp)
    cases hcurve
  · apply (forLpToken_settled_iff s (.cw20 "other") {} "gamm/pool/" rfl hs).1.mpr
    refine ⟨hcontract "other", ?_⟩
    rintro p ⟨⟩
  · apply (forLpToken_settled_iff s b.lpToken {} "gamm/pool/" rfl hs).1.mpr
    refine ⟨hcontract "lp", ?_⟩
    rintro p hp ⟨hcurve, -⟩
    obtain rfl : b = p := Except.ok.inj hp
    cases hcurve

/-- A denom whose id has one digit too many, and the token of a pool of constant product that was
registered with three members: asking for their pools yields none and neither refusal. -/
theorem pool_of_token_unsettled :
    let long : AssetId := .native (poolDenom "gamm/pool/" (List.replicate 4301 1))
    let three : Identity :=
      ⟨"p", .cw20 "lp", [.native "x", .native "y", .native "z"], .constantProduct, none, by decide⟩
    let s := (Snapshot.empty (.int 0) {}).after [.addPool three ⟨[], 0, by decide⟩ none]
    (forLpToken s long {} = .error .numeralTooLong ∧ ¬ Settled long (forLpToken s long {})) ∧
      forLpToken s three.lpToken {} =
        .error (.invalid [⟨.wrongMemberCount 3, [.member "identity"]⟩]) ∧
      ¬ Settled three.lpToken (forLpToken s three.lpToken {}) := by
  intro long three s
  have hlong : Overlong "gamm/pool/" long := by
    refine ⟨rfl, List.replicate 4301 1, ?_, ?_, rfl⟩
    · intro d hd
      rw [List.eq_of_mem_replicate hd]
      decide
    · rw [List.length_replicate]
      decide
  -- The long denom is not spelled out: its length is all that counts.
  have hl : forLpToken s long {} = .error .numeralTooLong := by
    unfold forLpToken
    rw [Snapshot.resolve_of_overlong rfl hlong]
    rfl
  have ht : forLpToken s three.lpToken {} =
      .error (.invalid [⟨.wrongMemberCount 3, [.member "identity"]⟩]) := rfl
  refine ⟨⟨hl, ?_⟩, ht, ?_⟩
  · rw [hl]
    rintro ⟨⟩
  · rw [ht]
    rintro ⟨⟩

end Pool
end Liquidity
