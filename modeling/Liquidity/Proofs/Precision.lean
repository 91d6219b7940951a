import Mathlib.Data.List.Zip
import Liquidity.Precision
import Liquidity.Proofs.Numeric.Ratio
import Liquidity.Proofs.Reported

/-! Amounts brought to more decimals exactly and to fewer with what is left over dropped. Going up
and down again changes nothing, and going down and up again gives less than an amount by less than
one of the coarser units. -/

namespace Liquidity
set_option autoImplicit false

open Outcome

section Amount

variable {value current new a b c : Int}

/-- How many units of `fine` decimals make one of `coarse` decimals. -/
def unitsPer (fine coarse : Int) : Int := 10 ^ (fine - coarse).toNat

theorem unitsPer_pos (fine coarse : Int) : 0 < unitsPer fine coarse := by
  unfold unitsPer
  positivity

theorem unitsPer_self (a : Int) : unitsPer a a = 1 := by simp [unitsPer]

theorem unitsPer_mul (hab : b ≤ a) (hbc : c ≤ b) : unitsPer a b * unitsPer b c = unitsPer a c := by
  have hsum : (a - c).toNat = (a - b).toNat + (b - c).toNat := by omega
  rw [unitsPer, unitsPer, unitsPer, hsum, pow_add]

theorem tenTo_eq_unitsPer (fine coarse : Int) :
    (Text.tenTo (fine - coarse).toNat : Int) = unitsPer fine coarse := by
  change ((10 ^ (fine - coarse).toNat : Nat) : Int) = _
  push_cast
  rfl

theorem unitsPer_natCast (m n : Nat) : unitsPer m n = ((10 ^ (m - n) : Nat) : Int) := by
  rw [unitsPer, Int.toNat_sub]
  push_cast
  rfl

theorem adjustPrecision_up (h0 : 0 ≤ current) (h : current ≤ new) :
    adjustPrecision value current new = Width.uint128.check (value * unitsPer new current) := by
  rw [adjustPrecision_int, if_neg (by omega), rescale, if_pos h, tenTo_eq_unitsPer]

theorem adjustPrecision_down (h0 : 0 ≤ new) (h : new ≤ current) :
    adjustPrecision value current new = Width.uint128.check (value / unitsPer current new) := by
  rcases h.eq_or_lt with rfl | hlt
  · rw [adjustPrecision_up h0 le_rfl, unitsPer_self, Int.mul_one, Int.ediv_one]
  · have hpos := unitsPer_pos current new
    rw [adjustPrecision_int, if_neg (by omega), rescale, if_neg (by omega), tenTo_eq_unitsPer,
      Checked.div_eq_ok.mpr ⟨hpos.ne', rfl⟩, ok_bind, Int.fdiv_eq_ediv_of_nonneg _ hpos.le]

theorem lowered_bounds (h0 : 0 ≤ value) (hw : value < Width.uint128.limit) (current new : Int) :
    0 ≤ value / unitsPer current new ∧ value / unitsPer current new < Width.uint128.limit :=
  ⟨Int.ediv_nonneg h0 (unitsPer_pos current new).le, (Int.ediv_le_self _ h0).trans_lt hw⟩

theorem adjustPrecision_lowers (h0 : 0 ≤ value) (hw : value < Width.uint128.limit) (hn : 0 ≤ new)
    (h : new ≤ current) :
    adjustPrecision value current new = .ok (value / unitsPer current new) := by
  obtain ⟨hq0, hq⟩ := lowered_bounds h0 hw current new
  rw [adjustPrecision_down hn h, Width.check_eq_ok]
  exact ⟨hq0, hq, rfl⟩

/-- In two steps down no more is dropped than in one. -/
theorem adjustPrecision_twice (h0 : 0 ≤ value) (hw : value < Width.uint128.limit) (hc : 0 ≤ c)
    (hab : b ≤ a) (hbc : c ≤ b) :
    (adjustPrecision value a b >>= fun n => adjustPrecision n b c) =
      .ok (value / unitsPer a c) := by
  obtain ⟨hq0, hq⟩ := lowered_bounds h0 hw a b
  rw [adjustPrecision_lowers h0 hw (hc.trans hbc) hab, ok_bind,
    adjustPrecision_lowers hq0 hq hc hbc, Int.ediv_ediv_of_nonneg (unitsPer_pos a b).le,
    unitsPer_mul hab hbc]

end Amount

section Lists

variable {amounts precisions values : List Int} {target v w : Int} {e : Fault}

/-- Amounts that fit their word. -/
def InWords (amounts : List Int) : Prop := ∀ a ∈ amounts, 0 ≤ a ∧ a < Width.uint128.limit

/-- Decimals, none more than the target's. -/
def UpTo (target : Int) (precisions : List Int) : Prop := ∀ p ∈ precisions, 0 ≤ p ∧ p ≤ target

/-- Amounts restated at the target's decimals. -/
def raisedTo (target : Int) (amounts precisions : List Int) : List Int :=
  List.zipWith (fun a p => a * unitsPer target p) amounts precisions

/-- Amounts at the target's decimals restated at their own, rounded down. -/
def loweredFrom (target : Int) (amounts precisions : List Int) : List Int :=
  List.zipWith (fun a p => a / unitsPer target p) amounts precisions

theorem checked_eq_ok {f : Int → Int → Int} :
    (amounts.zip precisions).mapM (fun x => Width.uint128.check (f x.1 x.2)) = .ok values ↔
      values = List.zipWith f amounts precisions ∧ InWords values := by
  refine mapM_zip_eq_ok (k := fun a p => Width.uint128.check (f a p)) fun a p n => ?_
  rw [Width.check_eq_ok]
  constructor
  · rintro ⟨h0, hw, rfl⟩
    exact ⟨rfl, h0, hw⟩
  · rintro ⟨rfl, h0, hw⟩
    exact ⟨h0, hw, rfl⟩

theorem normalize_eq (hl : amounts.length = precisions.length) (hp : UpTo target precisions) :
    normalize amounts precisions target =
      (amounts.zip precisions).mapM fun x => Width.uint128.check (x.1 * unitsPer target x.2) := by
  rw [normalize, if_neg (not_not.mpr hl)]
  refine mapM_congr fun x hx => ?_
  obtain ⟨h0, hle⟩ := hp x.2 (List.of_mem_zip hx).2
  exact adjustPrecision_up h0 hle

theorem denormalize_eq (hl : amounts.length = precisions.length) (hp : UpTo target precisions) :
    denormalize amounts precisions target =
      (amounts.zip precisions).mapM fun x => Width.uint128.check (x.1 / unitsPer target x.2) := by
  rw [denormalize, if_neg (not_not.mpr hl)]
  refine mapM_congr fun x hx => ?_
  obtain ⟨h0, hle⟩ := hp x.2 (List.of_mem_zip hx).2
  exact adjustPrecision_down h0 hle

theorem normalize_eq_ok (hl : amounts.length = precisions.length) (hp : UpTo target precisions) :
    normalize amounts precisions target = .ok values ↔
      values = raisedTo target amounts precisions ∧ InWords values := by
  rw [normalize_eq hl hp]
  exact checked_eq_ok (f := fun a p => a * unitsPer target p)

theorem denormalize_eq_ok (hl : amounts.length = precisions.length) (hp : UpTo target precisions) :
    denormalize amounts precisions target = .ok values ↔
      values = loweredFrom target amounts precisions ∧ InWords values := by
  rw [denormalize_eq hl hp]
  exact checked_eq_ok (f := fun a p => a / unitsPer target p)

theorem length_zipWith_self {f : Int → Int → Int} (hl : amounts.length = precisions.length) :
    (List.zipWith f amounts precisions).length = precisions.length := by
  rw [List.length_zipWith, hl, Nat.min_self]

theorem mem_zipWith {f : Int → Int → Int} :
    v ∈ List.zipWith f amounts precisions ↔ ∃ x ∈ amounts.zip precisions, f x.1 x.2 = v := by
  rw [← List.map_uncurry_zip_eq_zipWith, List.mem_map]
  rfl

theorem loweredFrom_inWords (ha : InWords amounts) :
    InWords (loweredFrom target amounts precisions) := by
  intro v hv
  obtain ⟨x, hx, rfl⟩ := mem_zipWith.mp hv
  obtain ⟨h0, hw⟩ := ha x.1 (List.of_mem_zip hx).1
  exact lowered_bounds h0 hw target x.2

/-- Raised amounts are whole numbers of their own units. -/
theorem loweredFrom_raisedTo (hl : amounts.length = precisions.length) :
    loweredFrom target (raisedTo target amounts precisions) precisions = amounts := by
  rw [loweredFrom, raisedTo, List.zipWith_zipWith_left, List.zipWith3_same_right]
  simp only [Int.mul_ediv_cancel _ (unitsPer_pos _ _).ne']
  rw [← List.map_uncurry_zip_eq_zipWith]
  exact List.map_fst_zip hl.le

/-- Lowered and raised again, an amount is cut to whole numbers of its own units. -/
theorem raisedTo_loweredFrom :
    raisedTo target (loweredFrom target amounts precisions) precisions =
      List.zipWith (fun a p => a / unitsPer target p * unitsPer target p) amounts precisions := by
  rw [loweredFrom, raisedTo, List.zipWith_zipWith_left, List.zipWith3_same_right]

theorem cut_bounds (a p target : Int) :
    a / unitsPer target p * unitsPer target p ≤ a ∧
      a < a / unitsPer target p * unitsPer target p + unitsPer target p := by
  have hpos := unitsPer_pos target p
  have hlt := Int.lt_ediv_add_one_mul_self a hpos
  rw [Int.add_mul, Int.one_mul] at hlt
  exact ⟨Int.ediv_mul_le a hpos.ne', hlt⟩

theorem raisedTo_loweredFrom_inWords (ha : InWords amounts) :
    InWords (raisedTo target (loweredFrom target amounts precisions) precisions) := by
  intro v hv
  rw [raisedTo_loweredFrom] at hv
  obtain ⟨x, hx, rfl⟩ := mem_zipWith.mp hv
  obtain ⟨h0, hw⟩ := ha x.1 (List.of_mem_zip hx).1
  have hpos := unitsPer_pos target x.2
  exact ⟨Int.mul_nonneg (Int.ediv_nonneg h0 hpos.le) hpos.le,
    (cut_bounds x.1 x.2 target).1.trans_lt hw⟩

/-- Less than one of the amount's own units is lost. -/
theorem raisedTo_loweredFrom_near :
    List.Forall₂ (fun x w => w ≤ x.1 ∧ x.1 < w + unitsPer target x.2) (amounts.zip precisions)
      (raisedTo target (loweredFrom target amounts precisions) precisions) := by
  rw [raisedTo_loweredFrom, ← List.map_uncurry_zip_eq_zipWith, List.forall₂_map_right_iff,
    List.forall₂_same]
  exact fun x _ => cut_bounds x.1 x.2 target

/-- Of values that are too wide for a word the first is refused. -/
theorem mapM_check_eq_error (h : ∀ v ∈ values, 0 ≤ v) :
    values.mapM Width.uint128.check = .error e ↔
      ∃ v, values.find? (Width.uint128.limit ≤ ·) = some v ∧ e = .oversizedWord .uint128 v := by
  induction values with
  | nil => simp
  | cons v vs ih =>
    obtain ⟨hv, hvs⟩ := List.forall_mem_cons.mp h
    rw [List.mapM_cons, Ratio.check_of_nonneg hv, List.find?_cons]
    by_cases hw : v < Width.uint128.limit
    · rw [if_pos hw, decide_eq_false (Int.not_le.mpr hw), ok_bind, bind_eq_error, ih hvs]
      simp
    · rw [if_neg hw, decide_eq_true (Int.not_lt.mp hw), error_bind]
      simp [eq_comm]

theorem raisedTo_nonneg (ha : ∀ a ∈ amounts, 0 ≤ a) :
    ∀ v ∈ raisedTo target amounts precisions, 0 ≤ v := by
  intro v hv
  obtain ⟨x, hx, rfl⟩ := mem_zipWith.mp hv
  exact Int.mul_nonneg (ha x.1 (List.of_mem_zip hx).1) (unitsPer_pos target x.2).le

/-- A list of amounts cannot be raised only where one of them leaves its word. -/
theorem told_normalize_eq_error (hl : amounts.length = precisions.length)
    (hp : UpTo target precisions) (ha : ∀ a ∈ amounts, 0 ≤ a) :
    told (normalize amounts precisions target) = .error e ↔
      ∃ v, (raisedTo target amounts precisions).find? (Width.uint128.limit ≤ ·) = some v ∧
        e = if Text.isOverlong v then .figureTooLong else .oversizedWord .uint128 v := by
  have hmap : normalize amounts precisions target =
      (raisedTo target amounts precisions).mapM Width.uint128.check := by
    rw [normalize_eq hl hp, raisedTo, ← List.map_uncurry_zip_eq_zipWith, List.mapM_map]
    rfl
  rw [told_eq_error, hmap]
  simp only [mapM_check_eq_error (raisedTo_nonneg ha), ← Fault.reported_oversizedWord]
  constructor
  · rintro ⟨_, ⟨v, hv, rfl⟩, rfl⟩
    exact ⟨v, hv, rfl⟩
  · rintro ⟨v, hv, he⟩
    exact ⟨_, ⟨v, hv, rfl⟩, he.symm⟩

/-- Raised to a common number of decimals amounts are exact, which they can be exactly where none
leaves its word, and they can be taken back. A caller is told of the first that leaves its word, if
it can be written. Amounts at the common decimals can always be taken to their own and raised
again, to less than they were by less than a unit. Taking them down in two steps is taking them
down in one. -/
theorem rescaling_never_overstates (amounts precisions : List Int) (target : Int)
    (value a b c : Int) :
    (amounts.length = precisions.length → UpTo target precisions → InWords amounts →
      (∀ values, normalize amounts precisions target = .ok values →
        values = raisedTo target amounts precisions ∧
          denormalize values precisions target = .ok amounts) ∧
      ((∃ e, told (normalize amounts precisions target) = .error e) ↔
        ∃ v ∈ raisedTo target amounts precisions, Width.uint128.limit ≤ v) ∧
      (∀ e, told (normalize amounts precisions target) = .error e ↔
        ∃ v, (raisedTo target amounts precisions).find? (Width.uint128.limit ≤ ·) = some v ∧
          e = if Text.isOverlong v then .figureTooLong else .oversizedWord .uint128 v) ∧
      ∃ lowered again, denormalize amounts precisions target = .ok lowered ∧
        normalize lowered precisions target = .ok again ∧
        List.Forall₂ (fun x w => w ≤ x.1 ∧ x.1 < w + unitsPer target x.2)
          (amounts.zip precisions) again) ∧
    (0 ≤ value → value < Width.uint128.limit → 0 ≤ c → c ≤ b → b ≤ a →
      (adjustPrecision value a b >>= fun n => adjustPrecision n b c) = adjustPrecision value a c ∧
        adjustPrecision value a c = .ok (value / unitsPer a c)) := by
  constructor
  · intro hl hp ha
    have hnonneg : ∀ a ∈ amounts, 0 ≤ a := fun a hmem => (ha a hmem).1
    refine ⟨?_, ?_, fun e => told_normalize_eq_error hl hp hnonneg, ?_⟩
    · intro values hv
      obtain ⟨rfl, hwords⟩ := (normalize_eq_ok hl hp).mp hv
      refine ⟨rfl, (denormalize_eq_ok (length_zipWith_self hl) hp).mpr ⟨?_, ha⟩⟩
      exact (loweredFrom_raisedTo hl).symm
    · simp only [told_normalize_eq_error hl hp hnonneg]
      rw [exists_comm]
      simp only [exists_and_left, exists_eq, and_true]
      rw [← Option.isSome_iff_exists, List.find?_isSome]
      simp only [decide_eq_true_eq]
    · exact ⟨_, _, (denormalize_eq_ok hl hp).mpr ⟨rfl, loweredFrom_inWords ha⟩,
        (normalize_eq_ok (length_zipWith_self hl) hp).mpr ⟨rfl, raisedTo_loweredFrom_inWords ha⟩,
        raisedTo_loweredFrom_near⟩
  · intro h0 hw hc hcb hba
    rw [adjustPrecision_twice h0 hw hc hba hcb, adjustPrecision_lowers h0 hw hc (hcb.trans hba)]
    exact ⟨rfl, rfl⟩

/-- Amounts of six and of eight decimals, raised to eight and back; taken down from eight, the
first loses 99 of the 100 units that make one of its own. -/
theorem rescaling_never_overstates_mixed :
    (normalize [(1999 : Int), 1999] [(6 : Int), 8] 8 = .ok [199900, 1999] ∧
      denormalize [(199900 : Int), 1999] [(6 : Int), 8] 8 = .ok [1999, 1999]) ∧
    (∃ lowered again, denormalize [(1999 : Int), 1999] [(6 : Int), 8] 8 = .ok lowered ∧
      normalize lowered [(6 : Int), 8] 8 = .ok again ∧
      List.Forall₂ (fun x w => w ≤ x.1 ∧ x.1 < w + unitsPer 8 x.2) [(1999, 6), (1999, 8)] again) ∧
    (adjustPrecision (1999 : Int) (8 : Int) 7 >>= fun n => adjustPrecision n (7 : Int) 6) =
      .ok 19 := by
  obtain ⟨hlists, hsteps⟩ := rescaling_never_overstates [1999, 1999] [6, 8] 8 1999 8 7 6
  obtain ⟨hraised, -, -, hlowered⟩ := hlists rfl (by simp [UpTo])
    (by simp [InWords, Width.limit_uint128])
  obtain ⟨htwice, honce⟩ := hsteps (by decide) (by decide) (by decide) (by decide) (by decide)
  have hvalues : normalize [(1999 : Int), 1999] [(6 : Int), 8] 8 = .ok [199900, 1999] := rfl
  exact ⟨⟨hvalues, (hraised _ hvalues).2⟩, hlowered, htwice.trans honce⟩

/-- One unit has more digits in the finest decimals than can be written, and no caller is told
that it leaves its word. -/
theorem rescaling_misreported :
    UpTo 4300 [0] ∧ InWords [1] ∧
      told (normalize [(1 : Int)] [(0 : Int)] 4300) = .error .figureTooLong ∧
      Fault.figureTooLong.kind = .badValue := by
  refine ⟨by simp [UpTo], by simp [InWords, Width.limit_uint128], ?_, rfl⟩
  decide +kernel

end Lists
end Liquidity
