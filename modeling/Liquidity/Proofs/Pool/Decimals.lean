import Liquidity.Proofs.Alike
import Liquidity.Proofs.Pool.Members

/-! An asset of a stable pool counted in a finer unit. As long as its decimals stay within the
greatest of the pool, the amounts that the pool calculates with stay what they were. -/

namespace Liquidity
set_option autoImplicit false

open Outcome

/-- The decimals of an asset, where they are known and a whole number. -/
def Snapshot.decimals (s : Snapshot) (id : AssetId) : Int :=
  match s.precisionOf id with
  | .ok (.int n) => n
  | _ => 0

theorem Snapshot.decimals_eq {s : Snapshot} {id : AssetId} {n : Int}
    (h : s.precisionOf id = .ok (.int n)) : s.decimals id = n := by
  simp [decimals, h]

/-- How many of the new units there are to one of the old. -/
def AssetId.factor (i : AssetId) (k : Nat) (id : AssetId) : Nat :=
  if id = i then Text.tenTo k else 1

theorem AssetId.factor_pos {i id : AssetId} {k : Nat} : 0 < i.factor k id := by
  unfold factor
  split
  · exact Nat.pow_pos (by decide)
  · exact Nat.one_pos

/-- An amount of `n` decimals and one of `k` more, at as many decimals or more. -/
theorem adjustPrecision_raised (value n g : Int) (k : Nat) (hn : 0 ≤ n) (hg : n + k ≤ g) :
    adjustPrecision (value * Text.tenTo k) (n + k) g = adjustPrecision value n g := by
  have hraised : value * Text.tenTo k * Text.tenTo (g - (n + k)).toNat =
      value * Text.tenTo (g - n).toNat := by
    have hsum : k + (g - (n + k)).toNat = (g - n).toNat := by omega
    have hpow : Text.tenTo k * Text.tenTo (g - (n + k)).toNat =
        Text.tenTo (k + (g - (n + k)).toNat) := (Nat.pow_add 10 k _).symm
    rw [Int.mul_assoc, ← Int.natCast_mul, hpow, hsum]
  rw [adjustPrecision_int, adjustPrecision_int, if_neg (by omega), if_neg (by omega), rescale,
    rescale, if_pos hg, if_pos (by omega), hraised]

theorem normalize_map (ids : List AssetId) (amount decimals : AssetId → Int) (g : Int) :
    normalize (ids.map amount) (ids.map fun j => (.int (decimals j) : Figure)) (.int g : Figure) =
      ids.mapM fun j => adjustPrecision (amount j) (decimals j) g := by
  rw [normalize, if_neg (by simp), List.zip_map', List.mapM_map]
  rfl

namespace PrecisionTable

/-- Decimals that a table accepts. -/
def InRange (n : Int) : Prop := 0 ≤ n ∧ n ≤ maxPrecision

theorem isInRange_int {n : Int} : isInRange (.int n) = .ok true ↔ InRange n := by
  unfold InRange
  have hless : isInRange (.int n) =
      if decide (0 ≤ n) then Except.ok (decide (n ≤ maxPrecision)) else Except.ok false := rfl
  by_cases h0 : 0 ≤ n <;> simp [hless, h0]

theorem inRange_eq_ok {id : AssetId} {f g : Figure} :
    inRange id f = .ok g ↔ g = f ∧ isInRange f = .ok true := by
  unfold inRange
  rw [bind_eq_ok]
  constructor
  · rintro ⟨fits, hfits, h⟩
    cases fits with
    | false => cases h
    | true => exact ⟨(Except.ok.inj h).symm, hfits⟩
  · rintro ⟨rfl, h⟩
    exact ⟨true, h, rfl⟩

theorem greatestFrom_figures (n : Int) (ns : List Int) :
    greatestFrom (.int n : Figure) (ns.map .int) = .ok (.int (ns.foldl max n)) := by
  unfold greatestFrom
  induction ns generalizing n with
  | nil => rfl
  | cons m ns ih =>
    have hless : Operand.less (.int n : Figure) (.int m : Figure) = .ok (decide (n < m)) := rfl
    rw [List.map_cons, List.foldlM_cons, hless, List.foldl_cons, ← ih (max n m)]
    by_cases h : n < m
    · simp [h, show max n m = m by omega]
    · simp [h, show max n m = n by omega]

end PrecisionTable

namespace StablePool

/-- A member of `d` decimals to which `k` more can be given. They are decimals still, and some
member has as many already. -/
structure Refinable (p : StablePool) (i : AssetId) (d k : Nat) (s : Snapshot) : Prop where
  member : i ∈ p.identity.members
  distinct : p.identity.members.Nodup
  lpToken : p.identity.lpToken ∉ p.identity.members
  whole : ∀ j ∈ p.identity.members, ∀ f, s.precisionOf j = .ok f → f = .int (s.decimals j)
  before : s.precisionOf i = .ok (.int d)
  inRange : PrecisionTable.InRange (d + k)
  top : ∃ j ∈ p.identity.members, ∃ g : Int, s.precisionOf j = .ok (.int g) ∧ d + k ≤ g

/-- The member of fewer decimals, of a pool of two. -/
theorem Refinable.of_pair {p : StablePool} {i j : AssetId} {d k g : Nat} {s : Snapshot}
    (hp : p.identity.members = [i, j]) (hi : s.precisionOf i = .ok (.int d))
    (hj : s.precisionOf j = .ok (.int g)) (hij : i ≠ j) (hlpi : p.identity.lpToken ≠ i)
    (hlpj : p.identity.lpToken ≠ j) (hle : d + k ≤ g) (hg : g ≤ 38) : p.Refinable i d k s := by
  have hmax : PrecisionTable.maxPrecision = 38 := rfl
  have hdk : (d + k : Int) ≤ g := by exact_mod_cast hle
  refine ⟨by simp [hp], by simp [hp, hij], by simp [hp, hlpi, hlpj], ?_, hi,
    ⟨by omega, by omega⟩, j, by simp [hp], g, hj, hdk⟩
  intro a ha f hf
  rw [hp, List.mem_cons, List.mem_singleton] at ha
  rcases ha with rfl | rfl
  · rw [hi] at hf
    cases hf
    rw [Snapshot.decimals_eq hi]
  · rw [hj] at hf
    cases hf
    rw [Snapshot.decimals_eq hj]

/-- Two snapshots of which the second gives a member these decimals. -/
structure FinerDecimals (p : StablePool) (i : AssetId) (d k : Nat) (s t : Snapshot) : Prop
    extends p.Refinable i d k s where
  after : t.precisionOf i = .ok (.int (d + k))
  others : ∀ j, j ≠ i → t.precisionOf j = s.precisionOf j

namespace FinerDecimals

variable {p : StablePool} {i id : AssetId} {d k : Nat} {s t : Snapshot}

/-- Entries of one asset in the tables of the two snapshots. -/
def Entered (s t : Snapshot) (x y : AssetId × Figure) : Prop :=
  y.1 = x.1 ∧ s.precisionOf x.1 = .ok x.2 ∧ t.precisionOf x.1 = .ok y.2

/-- Entries that the tables keep. -/
def Accepted (s t : Snapshot) (x y : AssetId × Figure) : Prop :=
  Entered s t x y ∧ PrecisionTable.isInRange x.2 = .ok true ∧
    PrecisionTable.isInRange y.2 = .ok true

section

variable (h : p.FinerDecimals i d k s t)
include h

theorem decimals_before : s.decimals i = d := Snapshot.decimals_eq h.before

theorem decimals_after : t.decimals i = d + k := Snapshot.decimals_eq h.after

theorem decimals_others {j : AssetId} (hj : j ≠ i) : t.decimals j = s.decimals j := by
  simp [Snapshot.decimals, h.others j hj]

theorem whole_after {j : AssetId} (hj : j ∈ p.identity.members) {f : Figure}
    (hf : t.precisionOf j = .ok f) : f = .int (t.decimals j) := by
  by_cases he : j = i
  · subst he
    rw [h.after, Except.ok.injEq] at hf
    rw [h.decimals_after, hf]
  · rw [h.others j he] at hf
    rw [h.decimals_others he]
    exact h.whole j hj f hf

theorem entered (id : AssetId) :
    Alike (Entered s t) ((s.precisionOf id).map (id, ·)) ((t.precisionOf id).map (id, ·)) := by
  by_cases he : id = i
  · subst he
    rw [h.before, h.after]
    exact .ok ⟨rfl, h.before, h.after⟩
  · rw [h.others id he]
    cases hs : s.precisionOf id with
    | error e => exact .error e
    | ok f => exact .ok ⟨rfl, hs, (h.others id he).trans hs⟩

theorem accepted {x y : AssetId × Figure} (hxy : Entered s t x y) :
    Alike (Accepted s t) ((PrecisionTable.inRange x.1 x.2).map (x.1, ·))
      ((PrecisionTable.inRange y.1 y.2).map (y.1, ·)) := by
  obtain ⟨id, f⟩ := x
  obtain ⟨id', g⟩ := y
  obtain ⟨hid, hf, hg⟩ := hxy
  obtain rfl : id = id' := hid.symm
  simp only at hf hg
  by_cases he : id = i
  · subst he
    rw [h.before, Except.ok.injEq] at hf
    rw [h.after, Except.ok.injEq] at hg
    subst hf hg
    have hmax := h.inRange.2
    have hdk := PrecisionTable.isInRange_int.mpr h.inRange
    have hd : PrecisionTable.isInRange (.int d) = .ok true :=
      PrecisionTable.isInRange_int.mpr ⟨by omega, by omega⟩
    rw [PrecisionTable.inRange_eq_ok.mpr ⟨rfl, hd⟩, PrecisionTable.inRange_eq_ok.mpr ⟨rfl, hdk⟩]
    exact .ok ⟨⟨rfl, h.before, h.after⟩, hd, hdk⟩
  · have hfg : g = f := by
      rw [h.others id he, hf, Except.ok.injEq] at hg
      exact hg.symm
    subst hfg
    apply Alike.refl
    intro z hz
    obtain ⟨f', hf', rfl⟩ := map_eq_ok.mp hz
    obtain ⟨rfl, hrange⟩ := PrecisionTable.inRange_eq_ok.mp hf'
    exact ⟨⟨rfl, hf, hg⟩, hrange, hrange⟩

end

theorem put_entered {xs ys : List (AssetId × Figure)} (hxs : List.Forall₂ (Entered s t) xs ys)
    {x y : AssetId × Figure} (hxy : Entered s t x y) :
    List.Forall₂ (Entered s t) (PrecisionTable.put xs x.1 x.2) (PrecisionTable.put ys y.1 y.2) := by
  induction hxs with
  | nil => exact .cons hxy .nil
  | @cons u v us vs huv hrest ih =>
    unfold PrecisionTable.put
    rw [huv.1, hxy.1]
    split
    · rename_i hu
      refine .cons ⟨rfl, ?_, ?_⟩ hrest
      · rw [hu]
        exact hxy.2.1
      · rw [hu]
        exact hxy.2.2
    · refine .cons ⟨rfl, huv.2⟩ ?_
      rw [hxy.1] at ih
      exact ih

theorem foldl_put_entered {xs ys us vs : List (AssetId × Figure)}
    (hxs : List.Forall₂ (Entered s t) xs ys) (hus : List.Forall₂ (Entered s t) us vs) :
    List.Forall₂ (Entered s t) (us.foldl (fun table x => PrecisionTable.put table x.1 x.2) xs)
      (vs.foldl (fun table x => PrecisionTable.put table x.1 x.2) ys) := by
  induction hus generalizing xs ys with
  | nil => exact hxs
  | cons huv _ ih => exact ih (put_entered hxs huv)

theorem precisionOf {xs ys : PrecisionTable} (hxs : List.Forall₂ (Accepted s t) xs ys)
    (id : AssetId) :
    Alike (fun f g => Accepted s t (id, f) (id, g)) (xs.precisionOf id) (ys.precisionOf id) := by
  unfold PrecisionTable.precisionOf
  induction hxs with
  | nil => exact .error _
  | @cons u v us vs huv _ ih =>
    obtain ⟨a, f⟩ := u
    obtain ⟨b, g⟩ := v
    obtain rfl : a = b := huv.1.1.symm
    by_cases he : id = a
    · subst he
      simp only [List.lookup_cons, beq_self_eq_true]
      exact .ok huv
    · have hne : (id == a) = false := by simpa using he
      simpa only [List.lookup_cons, hne] using ih

theorem precisionTable (h : p.FinerDecimals i d k s t) :
    Alike (List.Forall₂ (Accepted s t)) (p.precisionTable s) (p.precisionTable t) := by
  have hentries : ∀ ids : List AssetId, Alike (List.Forall₂ (Entered s t))
      (ids.mapM fun id => (s.precisionOf id).map (id, ·))
      (ids.mapM fun id => (t.precisionOf id).map (id, ·)) := fun ids =>
    Alike.mapM (List.forall₂_same.mpr fun _ _ => rfl) fun id _ he => he ▸ h.entered id
  refine (hentries _).bind fun xs ys hxs => ?_
  exact Alike.mapM (foldl_put_entered .nil hxs) fun x y hxy => h.accepted hxy

end FinerDecimals

/-- Scales of two snapshots that differ in the decimals of the members only. -/
structure SameScale (p : StablePool) (s t : Snapshot) (c c' : Scale) : Prop where
  before : c.members = p.identity.members.map fun j => .int (s.decimals j)
  after : c'.members = p.identity.members.map fun j => .int (t.decimals j)
  inRange : ∀ j ∈ p.identity.members,
    PrecisionTable.InRange (s.decimals j) ∧ PrecisionTable.InRange (t.decimals j)
  greatest : ∃ g : Int, c.greatest = .int g ∧ c'.greatest = .int g ∧
    ∀ j ∈ p.identity.members, t.decimals j ≤ g
  lpToken : c'.table.precisionOf p.identity.lpToken = c.table.precisionOf p.identity.lpToken

namespace FinerDecimals

variable {p : StablePool} {i : AssetId} {d k : Nat} {s t : Snapshot}

section

variable (h : p.FinerDecimals i d k s t)
include h

/-- The greatest decimals stay what they were, as no member has to have more. -/
theorem max_decimals : ∃ g : Int, (p.identity.members.map s.decimals).max? = some g ∧
    (p.identity.members.map t.decimals).max? = some g ∧
    ∀ j ∈ p.identity.members, t.decimals j ≤ g := by
  obtain ⟨j, hj, top, htop, hle⟩ := h.top
  obtain ⟨g, hg⟩ : ∃ g, (p.identity.members.map s.decimals).max? = some g := by
    rw [← Option.isSome_iff_exists, List.isSome_max?_iff]
    exact List.ne_nil_of_mem (List.mem_map_of_mem hj)
  have hmax := List.max?_eq_some_iff.mp hg
  have hbound : ∀ m ∈ p.identity.members, s.decimals m ≤ g := fun m hm =>
    hmax.2 _ (List.mem_map_of_mem hm)
  have htopg : top ≤ g := Snapshot.decimals_eq htop ▸ hbound j hj
  have hafter : ∀ m ∈ p.identity.members, t.decimals m ≤ g := by
    intro m hm
    by_cases he : m = i
    · rw [he, h.decimals_after]
      omega
    · rw [h.decimals_others he]
      exact hbound m hm
  refine ⟨g, hg, List.max?_eq_some_iff.mpr ⟨?_, List.forall_mem_map.mpr hafter⟩, hafter⟩
  obtain ⟨m, hm, hmg⟩ := List.mem_map.mp hmax.1
  refine List.mem_map.mpr ⟨m, hm, ?_⟩
  by_cases he : m = i
  · have := hafter m hm
    rw [he] at hmg this ⊢
    rw [h.decimals_after] at this ⊢
    rw [h.decimals_before] at hmg
    omega
  · rw [h.decimals_others he, hmg]

theorem members_figures {xs ys : PrecisionTable} (hxs : List.Forall₂ (Accepted s t) xs ys) :
    Alike (fun fs gs => fs = p.identity.members.map (fun j => .int (s.decimals j)) ∧
        gs = p.identity.members.map (fun j => .int (t.decimals j)) ∧
        ∀ j ∈ p.identity.members,
          PrecisionTable.InRange (s.decimals j) ∧ PrecisionTable.InRange (t.decimals j))
      (p.identity.members.mapM xs.precisionOf) (p.identity.members.mapM ys.precisionOf) := by
  refine Alike.mapM_map _ _ fun j hj => (precisionOf hxs j).mono fun f g _ _ hfg => ?_
  obtain ⟨⟨-, hf, hg⟩, hs, ht⟩ := hfg
  obtain rfl := h.whole j hj f hf
  obtain rfl := h.whole_after hj hg
  exact ⟨rfl, rfl, PrecisionTable.isInRange_int.mp hs, PrecisionTable.isInRange_int.mp ht⟩

theorem greatest_figure {xs ys : PrecisionTable} (hxs : List.Forall₂ (Accepted s t) xs ys) :
    Alike (fun f f' => ∃ g : Int, f = .int g ∧ f' = .int g ∧
        ∀ j ∈ p.identity.members, t.decimals j ≤ g)
      (xs.greatest p.identity.members) (ys.greatest p.identity.members) := by
  obtain ⟨g, hs, ht, hg⟩ := h.max_decimals
  refine (h.members_figures hxs).bind ?_
  rintro _ _ ⟨rfl, rfl, -⟩
  obtain ⟨m, ms, hms⟩ := List.exists_cons_of_ne_nil (List.ne_nil_of_mem h.member)
  rw [hms] at hs ht ⊢
  rw [List.map_cons, List.max?_cons', Option.some.injEq] at hs ht
  have hfirst := PrecisionTable.greatestFrom_figures (s.decimals m) (ms.map s.decimals)
  have hsecond := PrecisionTable.greatestFrom_figures (t.decimals m) (ms.map t.decimals)
  rw [List.map_map, hs] at hfirst
  rw [List.map_map, ht] at hsecond
  have hgreatest : Alike (fun f f' => ∃ g : Int, f = .int g ∧ f' = .int g ∧
        ∀ j ∈ m :: ms, t.decimals j ≤ g)
      (greatestFrom (.int (s.decimals m) : Figure) (ms.map (Json.int ∘ s.decimals)))
      (greatestFrom (.int (t.decimals m) : Figure) (ms.map (Json.int ∘ t.decimals))) := by
    rw [hfirst, hsecond]
    exact .ok ⟨g, rfl, rfl, hms ▸ hg⟩
  exact hgreatest

theorem scale : Alike (p.SameScale s t) (p.scale s) (p.scale t) := by
  refine h.precisionTable.bind fun xs ys hxs => ?_
  refine (h.members_figures hxs).bind ?_
  rintro _ _ ⟨rfl, rfl, hrange⟩
  refine (h.greatest_figure hxs).bind fun _ _ hgreatest => ?_
  refine .ok ⟨rfl, rfl, hrange, hgreatest, ?_⟩
  have hlp : p.identity.lpToken ≠ i := fun he => h.lpToken (he ▸ h.member)
  refine ((precisionOf hxs p.identity.lpToken).eq ?_).symm
  rintro _ _ ⟨⟨-, hf, hg⟩, -⟩
  rw [h.others _ hlp, hf, Except.ok.injEq] at hg
  exact hg

/-- Amounts in the finer unit come to the same at the greatest decimals. -/
theorem up {c c' : Scale} (hc : p.SameScale s t c c') (f : AssetId → Nat) :
    c'.up (p.identity.members.map fun j => ((f j * i.factor k j : Nat) : Int)) =
      c.up (p.identity.members.map fun j => (f j : Int)) := by
  obtain ⟨g, hg, hg', hbound⟩ := hc.greatest
  rw [Scale.up, Scale.up, hc.before, hc.after, hg, hg', normalize_map, normalize_map]
  apply mapM_congr
  intro j hj
  by_cases he : j = i
  · have hle := hbound j hj
    rw [he, h.decimals_after] at hle
    rw [he, h.decimals_after, h.decimals_before, AssetId.factor, if_pos rfl, Int.natCast_mul]
    exact adjustPrecision_raised _ d g k (Int.natCast_nonneg d) hle
  · rw [h.decimals_others he, AssetId.factor, if_neg he, Nat.mul_one]

end

end FinerDecimals

end StablePool
end Liquidity
