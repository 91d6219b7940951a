import Mathlib.Data.List.Nodup
import Liquidity.Pool.Basic
import Liquidity.Proofs.Outcome

/-! A list of assets laid out over the members of a pool. Each member gets what all entries of
its asset come to, and where an asset is a member twice, its first place gets it all. -/

namespace Liquidity
set_option autoImplicit false

open Outcome

theorem Amount.word_int (n : Int) : Amount.word (Amount.ofJson Amount.maximum128 (.int n)) =
    if n < 0 then .error (.invalid [⟨.amount (.isNegative n), []⟩])
    else if h : n.toNat < Uint128.limit then .ok ⟨n.toNat, h⟩
    else .error (.invalid [⟨.amount (.tooLarge n Amount.maximum128), []⟩]) := by
  unfold Amount.ofJson Amount.unbounded Amount.natural Amount.bounded Amount.word
  by_cases hn : n < 0
  · simp [hn]
  · have hmax : Amount.maximum128 = 340282366920938463463374607431768211455 := rfl
    have hlim : Uint128.limit = 340282366920938463463374607431768211456 := rfl
    by_cases hl : n.toNat < Uint128.limit
    · have hle : ¬ Amount.maximum128 < n := by omega
      simp [hn, hl, hle, Uint128.ofInt?, Int.not_lt.mp hn]
    · have hlt : Amount.maximum128 < n := by omega
      simp [hn, hl, hlt]

/-- A whole number is an amount if it fits the word. -/
theorem Asset.of_int_eq_ok {id : AssetId} {n : Int} {a : Asset} :
    Asset.of id (.int n) = .ok a ↔ a.id = id ∧ (a.amount.val : Int) = n := by
  unfold Asset.of
  rw [Amount.word_int]
  by_cases hn : n < 0
  · simp only [hn, if_true, reduceCtorEq, false_iff, not_and]
    omega
  · by_cases hl : n.toNat < Uint128.limit
    · simp only [hn, hl, if_false, dif_pos, Except.ok.injEq]
      constructor
      · rintro rfl
        exact ⟨rfl, Int.toNat_of_nonneg (Int.not_lt.mp hn)⟩
      · rintro ⟨rfl, rfl⟩
        rfl
    · have := a.amount.property
      simp only [hn, hl, if_false, dif_neg, not_false_eq_true, reduceCtorEq, false_iff, not_and]
      omega

theorem Asset.exists_of_int {id : AssetId} {n : Int} :
    (∃ a, Asset.of id (.int n) = .ok a) ↔ 0 ≤ n ∧ n < Uint128.limit := by
  simp only [Asset.of_int_eq_ok]
  constructor
  · rintro ⟨a, -, rfl⟩
    have := a.amount.property
    omega
  · rintro ⟨h0, hl⟩
    exact ⟨⟨id, n.toNat, by omega⟩, rfl, Int.toNat_of_nonneg h0⟩

/-- Nothing but whole numbers and their numerals states an amount. -/
theorem Asset.of_number {id : AssetId} {j : Json} {a : Asset} (h : Asset.of id j = .ok a)
    (hn : j.isNumber) : ∃ n : Int, j = .int n := by
  cases j <;> simp_all [Asset.of, Amount.ofJson, Amount.unbounded, Amount.word, Json.isNumber]

namespace Assets

variable {as : Assets} {id : AssetId}

theorem total_eq_zero (h : ∀ a ∈ as, a.id ≠ id) : total as id = 0 := by
  induction as with
  | nil => rfl
  | cons a as ih =>
    rw [List.forall_mem_cons] at h
    rw [total_cons, if_neg h.1, ih h.2]

theorem amount_le_total {a : Asset} (h : a ∈ as) : a.amount.val ≤ total as a.id := by
  induction as with
  | nil => cases h
  | cons b as ih =>
    rw [total_cons]
    rcases List.mem_cons.mp h with rfl | h
    · simp
    · exact Nat.le_add_left_of_le (ih h)

/-- The entries that are for something. -/
def spent (as : Assets) : Assets := as.filter fun a => 0 < a.amount.val

end Assets

namespace Identity

variable {p : Identity} {foreign : AssetId → Fault} {as bs : Assets} {id : AssetId}
variable {ms : List AssetId} {f g : AssetId → Nat} {limit : Nat}

@[simp] theorem has_iff : p.has id = true ↔ id ∈ p.members := by
  unfold has indexOf
  rw [List.findIdx?_isSome, List.any_eq_true]
  simp

/-- Amounts over a list of assets, of which an asset that comes again gets nothing more. -/
def firsts : List AssetId → (AssetId → Nat) → List Nat
  | [], _ => []
  | m :: ms, f => f m :: firsts ms fun id => if id = m then 0 else f id

theorem zipIdx_map_eq_firsts (ms : List AssetId) (f : AssetId → Nat) :
    (ms.zipIdx.map fun x => if ms.findIdx? (· == x.1) = some x.2 then f x.1 else 0) =
      firsts ms f := by
  induction ms generalizing f with
  | nil => rfl
  | cons m ms ih =>
    rw [List.zipIdx_cons, List.map_cons, firsts, ← ih]
    congr 1
    · simp [List.findIdx?_cons]
    · rw [Nat.zero_add, List.zipIdx_succ, List.map_map]
      apply List.map_congr_left
      rintro ⟨id, i⟩ -
      by_cases h : id = m
      · simp [h, List.findIdx?_cons]
      · simp [h, Ne.symm h, List.findIdx?_cons]

theorem length_firsts (ms : List AssetId) (f : AssetId → Nat) : (firsts ms f).length = ms.length := by
  induction ms generalizing f with
  | nil => rfl
  | cons m ms ih => simp [firsts, ih]

theorem firsts_congr (h : ∀ id ∈ ms, f id = g id) : firsts ms f = firsts ms g := by
  induction ms generalizing f g with
  | nil => rfl
  | cons m ms ih =>
    rw [List.forall_mem_cons] at h
    rw [firsts, firsts, h.1]
    congr 1
    apply ih
    intro id hid
    rw [h.2 id hid]

theorem firsts_of_nodup (h : ms.Nodup) : firsts ms f = ms.map f := by
  induction ms generalizing f with
  | nil => rfl
  | cons m ms ih =>
    rw [List.nodup_cons] at h
    rw [firsts, List.map_cons, ih h.2]
    congr 1
    apply List.map_congr_left
    intro id hid
    rw [if_neg]
    rintro rfl
    exact h.1 hid

theorem firsts_lt (hl : 0 < limit) :
    (∀ n ∈ firsts ms f, n < limit) ↔ ∀ id ∈ ms, f id < limit := by
  induction ms generalizing f with
  | nil => simp [firsts]
  | cons m ms ih =>
    rw [firsts, List.forall_mem_cons, List.forall_mem_cons, ih]
    refine and_congr_right fun hm => forall₂_congr fun id _ => ?_
    split
    · rename_i h
      exact ⟨fun _ => h ▸ hm, fun _ => hl⟩
    · rfl

/-- Assets `bs` that stand for the pairs of an asset and an amount. -/
def Entries (xs : List (AssetId × Nat)) (bs : Assets) : Prop :=
  List.Forall₂ (fun x b => b.id = x.1 ∧ b.amount.val = x.2) xs bs

theorem total_entries (h : Entries (ms.zip (firsts ms f)) bs) (id : AssetId) :
    Assets.total bs id = if id ∈ ms then f id else 0 := by
  induction ms generalizing f bs with
  | nil =>
    cases h
    rfl
  | cons m ms ih =>
    rw [firsts, List.zip_cons_cons] at h
    obtain ⟨b, bs, ⟨hid, hn⟩, hbs, rfl⟩ := List.forall₂_cons_left_iff.mp h
    rw [Assets.total_cons, ih hbs, hid, hn]
    by_cases he : id = m
    · simp [he]
    · simp [he, Ne.symm he]

/-- An asset stands among the entries with an amount once at most. -/
theorem spent_entries_nodup (h : Entries (ms.zip (firsts ms f)) bs) :
    ((Assets.spent bs).map (·.id)).Nodup := by
  induction ms generalizing f bs with
  | nil =>
    cases h
    exact .nil
  | cons m ms ih =>
    rw [firsts, List.zip_cons_cons] at h
    obtain ⟨b, bs, ⟨hid, -⟩, hbs, rfl⟩ := List.forall₂_cons_left_iff.mp h
    have hnone : Assets.total bs m = 0 := by
      rw [total_entries hbs]
      simp
    unfold Assets.spent
    rw [List.filter_cons]
    split
    · rw [List.map_cons, List.nodup_cons]
      refine ⟨?_, ih hbs⟩
      rintro hmem
      obtain ⟨c, hc, hcid⟩ := List.mem_map.mp hmem
      obtain ⟨hc, hpos⟩ := List.mem_filter.mp hc
      have hle := Assets.amount_le_total hc
      rw [hcid, hid, hnone] at hle
      simp [Nat.le_zero.mp hle] at hpos
    · exact ih hbs

theorem ordered_eq_ok {ns : List Nat} : p.ordered foreign as = .ok ns ↔
    (∀ a ∈ as, a.id ∈ p.members) ∧ ns = firsts p.members (Assets.total as) := by
  unfold ordered
  rw [← zipIdx_map_eq_firsts]
  cases h : List.find? (fun a => !p.has a.id) as with
  | none =>
    have hall : ∀ a ∈ as, a.id ∈ p.members := by simpa using h
    simp only [Except.ok.injEq]
    exact ⟨fun he => ⟨hall, he.symm⟩, fun he => he.2.symm⟩
  | some a =>
    have hf : p.has a.id = false := by simpa using List.find?_some h
    have ha : a.id ∉ p.members := by simp [← has_iff, hf]
    simp only [reduceCtorEq, false_iff, not_and]
    exact fun hall => absurd (hall a (List.mem_of_find?_eq_some h)) ha

theorem inPoolOrder_eq_ok : p.inPoolOrder foreign as = .ok bs ↔ (∀ a ∈ as, a.id ∈ p.members) ∧
    Entries (p.members.zip (firsts p.members (Assets.total as))) bs := by
  unfold inPoolOrder
  rw [bind_eq_ok]
  simp only [ordered_eq_ok, mapM_eq_ok, Asset.of_int_eq_ok, Int.natCast_inj]
  constructor
  · rintro ⟨_, ⟨hall, rfl⟩, h⟩
    exact ⟨hall, h⟩
  · rintro ⟨hall, h⟩
    exact ⟨_, ⟨hall, rfl⟩, h⟩

theorem exists_entries (xs : List (AssetId × Nat)) :
    (∃ bs, Entries xs bs) ↔ ∀ x ∈ xs, x.2 < Uint128.limit := by
  induction xs with
  | nil => simp [Entries]
  | cons x xs ih =>
    rw [List.forall_mem_cons, ← ih]
    constructor
    · rintro ⟨bs, h⟩
      obtain ⟨b, bs, ⟨-, hn⟩, hbs, rfl⟩ := List.forall₂_cons_left_iff.mp h
      exact ⟨hn ▸ b.amount.property, bs, hbs⟩
    · rintro ⟨hx, bs, hbs⟩
      exact ⟨⟨x.1, x.2, hx⟩ :: bs, .cons ⟨rfl, rfl⟩ hbs⟩

theorem total_foreign (hall : ∀ a ∈ as, a.id ∈ p.members) (hid : id ∉ p.members) :
    Assets.total as id = 0 := by
  apply Assets.total_eq_zero
  rintro a ha rfl
  exact hid (hall a ha)

theorem total_inPoolOrder (h : p.inPoolOrder foreign as = .ok bs) (id : AssetId) :
    Assets.total bs id = Assets.total as id := by
  obtain ⟨hall, hbs⟩ := inPoolOrder_eq_ok.mp h
  rw [total_entries hbs]
  split
  · rfl
  · rename_i hid
    exact (total_foreign hall hid).symm

theorem spent_inPoolOrder_nodup (h : p.inPoolOrder foreign as = .ok bs) :
    ((Assets.spent bs).map (·.id)).Nodup :=
  spent_entries_nodup (inPoolOrder_eq_ok.mp h).2

/-- Assets can be laid out if all are members and no total is too large for an amount. -/
theorem exists_inPoolOrder : (∃ bs, p.inPoolOrder foreign as = .ok bs) ↔
    (∀ a ∈ as, a.id ∈ p.members) ∧ ∀ id, Assets.total as id < Uint128.limit := by
  simp only [inPoolOrder_eq_ok, exists_and_left, exists_entries]
  refine and_congr_right fun hall => ?_
  rw [← List.forall_mem_map (f := Prod.snd) (P := (· < Uint128.limit)),
    List.map_snd_zip (Nat.le_of_eq (length_firsts _ _)), firsts_lt (by decide)]
  constructor
  · intro h id
    by_cases hid : id ∈ p.members
    · exact h id hid
    · rw [total_foreign hall hid]
      decide
  · exact fun h id _ => h id

end Identity
end Liquidity
