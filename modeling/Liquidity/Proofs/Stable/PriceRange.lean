import Liquidity.ConstantProduct
import Liquidity.Stable.Price
import Liquidity.Proofs.Decimal.Whole
import Liquidity.Proofs.Stable.Overshoot
import Liquidity.Proofs.Stable.Pair
import Liquidity.Proofs.Stable.Shares

/-! The price of a stable pool of two between par and the ratio of its balances. As a fraction it
is a mediant of these, whatever number the search for the invariant has come to, and rounding
to a decimal keeps the order. The balances stand in no ratio that decimals cannot hold: their
squares are within the cube of that number. -/

namespace Liquidity
set_option autoImplicit false

theorem ConstantProduct.spotPrice_eq {x y : Int} (hx : x ≠ 0) :
    ConstantProduct.spotPrice [x, y] =
      ((Decimal.ofInt y).dividedBy (.ofInt x)).map .finite := by
  unfold ConstantProduct.spotPrice
  simp [hx]

namespace Stable

open Outcome
open Decimal (Numeral Rounds tooLarge)

variable {s : Shape} {balances : List Int} {x y b d d' m num den : Int}

section Descent

theorem incline_nonneg (ha : 0 < s.ampPrecision) (hl : s.ampPrecision ≤ s.amp * balances.length)
    (hd : 0 ≤ d) : 0 ≤ incline s balances d :=
  Int.ediv_nonneg (Int.mul_nonneg (by omega) hd) ha.le

theorem weighted_nonneg (ha : 0 < s.ampPrecision) (hl : s.ampPrecision ≤ s.amp * balances.length)
    (ht : 0 ≤ total balances) : 0 ≤ weighted s balances :=
  Int.ediv_nonneg (Int.mul_nonneg (by omega) ht) ha.le

/-- A step that is taken, however little is amplified. -/
theorem newtonStep_taken (hb : ∀ b ∈ balances, 0 < b) (ha : 0 < s.ampPrecision) (hd : 0 ≤ d)
    (h : newtonStep (s.amp * balances.length) s.ampPrecision balances d = .ok d') :
    s.ampPrecision ≤ s.amp * balances.length ∧
      0 < incline s balances d + term balances d * (balances.length + 1) ∧
      d' = (weighted s balances + term balances d * balances.length) * d /
        (incline s balances d + term balances d * (balances.length + 1)) := by
  have hl : s.ampPrecision ≤ s.amp * balances.length := by
    unfold newtonStep at h
    rw [productTerm_eq hb, ok_bind] at h
    obtain ⟨_, -, h⟩ := bind_eq_ok.mp h
    obtain ⟨_, hslack, -⟩ := bind_eq_ok.mp h
    exact (Checked.sub_eq_ok.mp hslack).1
  rw [newtonStep_eq hb ha hl, Checked.div_eq_ok] at h
  obtain ⟨hne, rfl⟩ := h
  change incline s balances d + term balances d * (balances.length + 1) ≠ 0 at hne
  have hincline := incline_nonneg ha hl hd
  have hterm : 0 ≤ term balances d * ((balances.length : Int) + 1) :=
    Int.mul_nonneg (term_nonneg hb hd) (by omega)
  refine ⟨hl, by omega, ?_⟩
  exact Int.fdiv_eq_ediv_of_nonneg _ (Int.add_nonneg hincline hterm)

theorem incline_add_total_le (ha : 0 < s.ampPrecision)
    (hl : s.ampPrecision ≤ s.amp * balances.length) (hle : d ≤ total balances) :
    incline s balances d + total balances ≤ weighted s balances := by
  unfold incline weighted
  rw [← Int.add_mul_ediv_left _ _ ha.ne']
  apply Int.ediv_le_ediv ha
  have := Int.mul_le_mul_of_nonneg_left hle (Int.sub_nonneg_of_le hl)
  linarith

theorem incline_mul_total_le (ha : 0 < s.ampPrecision) (ht : 0 < total balances) (hd : 0 ≤ d) :
    incline s balances d * total balances ≤ weighted s balances * d := by
  have hincline := Int.ediv_mul_le ((s.amp * balances.length - s.ampPrecision) * d) ha.ne'
  have hweight := Int.lt_ediv_add_one_mul_self (s.amp * balances.length * total balances) ha
  change incline s balances d * _ ≤ _ at hincline
  change _ < (weighted s balances + 1) * _ at hweight
  refine Int.le_of_mul_le_mul_right ?_ ha
  have hi := Int.mul_le_mul_of_nonneg_right hincline ht.le
  have hw := Int.mul_le_mul_of_nonneg_right hweight.le hd
  have hspare : 0 ≤ s.ampPrecision * d * (total balances - 1) :=
    Int.mul_nonneg (Int.mul_nonneg ha.le hd) (by omega)
  linarith

theorem two_mul_lt_of_ratio (hden : 0 < den) (h : 2 * m * den ≤ 3 * num) :
    2 * m < 3 * (num / den + 1) := by
  have hfloor := Int.lt_ediv_add_one_mul_self num hden
  refine Int.lt_of_mul_lt_mul_right ?_ hden.le
  linarith

end Descent

section Spans

/-- Neither balance is far beyond `d`, which is zero only where something is amplified. -/
structure Spans (s : Shape) (x y d : Int) : Prop where
  nonneg : 0 ≤ d
  weight : 0 < s.amp ∨ 0 < d
  squares : ∀ b ∈ [x, y], b ^ 2 ≤ (d + 1) ^ 3

theorem sq_le_cube {t : Int} (h0 : 0 ≤ b) (hb : b ≤ t) : b ^ 2 ≤ (t + 1) ^ 3 := by
  calc b ^ 2 ≤ (t + 1) ^ 2 := pow_le_pow_left₀ h0 (by omega) 2
    _ ≤ (t + 1) ^ 3 := pow_le_pow_right₀ (by omega) (by omega)

theorem spans_total (hx : 0 < x) (hy : 0 < y) : Spans s x y (total [x, y]) := by
  rw [total_pair]
  refine ⟨by omega, .inr (by omega), ?_⟩
  rintro b hb
  simp only [List.mem_cons, List.not_mem_nil, or_false] at hb
  exact sq_le_cube (by omega) (by omega)

/-- A balance within the product term at `d` is small beside `d`. -/
theorem six_sq_le (hx : 0 < x) (hy : 0 < y) (hb : b ∈ [x, y]) (hd : 0 ≤ d)
    (hp : b ≤ term [x, y] d) : 6 * b ^ 2 ≤ d ^ 3 := by
  have hpos : ∀ b ∈ [x, y], 0 < b := by simp [hx, hy]
  have hproduct : term [x, y] d * divisor [x, y] ≤ d ^ 3 := term_mul_divisor_le hpos hd
  have hdivisor : 6 * b ≤ divisor [x, y] := by
    have hxy : x ≤ x * y := le_mul_of_one_le_right hx.le hy
    have hyx : y ≤ x * y := le_mul_of_one_le_left hy.le hx
    simp only [List.mem_cons, List.not_mem_nil, or_false] at hb
    rw [divisor_pair]
    rcases hb with rfl | rfl <;> linarith
  calc 6 * b ^ 2 = b * (6 * b) := by ring
    _ ≤ term [x, y] d * divisor [x, y] :=
      Int.mul_le_mul hp hdivisor (by have := hpos b hb; omega) (term_nonneg hpos hd)
    _ ≤ d ^ 3 := hproduct

/-- From within the total a step falls only where the product term exceeds the total, and from
beyond it not far below the total: by a third at most either way. -/
theorem step_range {i w p S : Int} (hw : 0 ≤ w) (hp : 0 ≤ p) (hd : 0 ≤ d)
    (hden : 0 < i + p * (2 + 1)) (hwithin : d ≤ S → i + S ≤ w) (hbeyond : i * S ≤ w * d)
    (hd' : d' = (w + p * 2) * d / (i + p * (2 + 1))) :
    d ≤ d' ∨ S < p ∧ 2 * d < 3 * (d' + 1) ∨ 2 * S < 3 * (d' + 1) := by
  subst hd'
  have hwd : 0 ≤ w * d := Int.mul_nonneg hw hd
  by_cases hle : d ≤ S
  · have hweight := hwithin hle
    by_cases hterm : p ≤ S
    · left
      rw [Int.le_ediv_iff_mul_le hden, Int.mul_comm]
      exact Int.mul_le_mul_of_nonneg_right (by omega) hd
    · refine .inr (.inl ⟨by omega, two_mul_lt_of_ratio hden ?_⟩)
      have := Int.mul_le_mul_of_nonneg_right (show i ≤ w by omega) hd
      linarith
  · refine .inr (.inr (two_mul_lt_of_ratio hden ?_))
    have := Int.mul_le_mul_of_nonneg_left (show S ≤ d by omega) hp
    linarith

theorem spans_step (ha : 0 < s.ampPrecision) (hx : 0 < x) (hy : 0 < y) (h : Spans s x y d)
    (hstep : newtonStep (s.amp * [x, y].length) s.ampPrecision [x, y] d = .ok d') :
    Spans s x y d' := by
  have hpos : ∀ b ∈ [x, y], 0 < b := by simp [hx, hy]
  have hd := h.nonneg
  obtain ⟨hl, hden, hd'⟩ := newtonStep_taken hpos ha hd hstep
  have hp := term_nonneg hpos hd
  have ht : total [x, y] = x + y := total_pair x y
  have hw : 0 ≤ weighted s [x, y] := weighted_nonneg ha hl (by omega)
  have hbeyond : incline s [x, y] d * total [x, y] ≤ weighted s [x, y] * d :=
    incline_mul_total_le ha (by omega) hd
  have hwithin := incline_add_total_le (d := d) ha hl
  have hn : ([x, y].length : Int) = 2 := rfl
  rw [hn] at hl hden hd'
  have hrange := step_range hw hp hd hden hwithin hbeyond hd'
  have hd'0 : 0 ≤ d' := by
    rw [hd']
    exact Int.ediv_nonneg (Int.mul_nonneg (by omega) hd) hden.le
  refine ⟨hd'0, .inl (by omega), fun b hb => ?_⟩
  have hb0 := hpos b hb
  have hbt : b + 1 ≤ total [x, y] := by
    simp only [List.mem_cons, List.not_mem_nil, or_false] at hb
    omega
  -- A fall by a third keeps the squares: it starts far above a balance that the product term
  -- exceeds, or ends near the total.
  rcases hrange with hkept | ⟨hterm, hfall⟩ | hfall
  · exact (h.squares b hb).trans (pow_le_pow_left₀ (by omega) (by omega) 3)
  · have hsmall := six_sq_le hx hy hb hd (by omega)
    have hcube := pow_le_pow_left₀ (by omega) hfall.le 3
    have hsq := sq_nonneg b
    linarith
  · have hcube := pow_le_pow_left₀ (by omega) (show 2 * (b + 1) ≤ 3 * (d' + 1) by omega) 3
    have hspare := Int.mul_nonneg (sq_nonneg b) (show 0 ≤ 8 * b - 3 by omega)
    linarith

theorem newton_of_invariant (hb : ∀ b ∈ balances, 0 < b) (h : invariant s balances = .ok d) :
    newton (s.amp * balances.length) s.ampPrecision balances s.maxIterations.toNat
      (total balances) = .ok d := by
  have hfull : balances.any Operand.isZero = false := by
    rw [List.any_eq_false]
    intro b hmem
    simpa using (hb b hmem).ne'
  unfold invariant at h
  simp only [throw_eq, error_bind, refused_eq_ok, hfull, if_false, Operand.mapM_strict_int,
    Operand.strict_int, Operand.count_int, ok_bind, Bool.false_eq_true] at h
  obtain ⟨-, h⟩ := h
  obtain ⟨r, hr, h⟩ := bind_eq_ok.mp h
  obtain ⟨-, -, rfl⟩ := Width.check_eq_ok.mp h
  exact hr

/-- Any number of steps. -/
theorem spans_invariant (ha : 0 < s.ampPrecision) (hx : 0 < x) (hy : 0 < y)
    (h : invariant s [x, y] = .ok d) : Spans s x y d := by
  have hrun := newton_of_invariant (by simp [hx, hy]) h
  refine newton_run (I := Spans s x y) (fun _ hd => hd) ?_ (spans_total hx hy) hrun
  intro e e' he hstep
  have he' := spans_step ha hx hy he hstep
  exact ⟨he', fun _ => he'⟩

end Spans

section Mediant

variable {amp part : Int}

/-- What makes a positive fraction of the slope. -/
structure Sloped (amp part d x y : Int) : Prop where
  amplified : 0 ≤ amp
  parts : 0 < part
  nonneg : 0 ≤ d
  weight : 0 < amp ∨ 0 < d
  first : 0 < x
  second : 0 < y

/-- The slope as a number. -/
def marginal (amp part d x y : Int) : ℚ :=
  ((slope amp part d x y).1 : ℚ) / (slope amp part d x y).2

namespace Sloped

theorem shared_nonneg (h : Sloped amp part d x y) : 0 ≤ 4 * amp * 2 * x * x * y * y := by
  obtain ⟨ha, -, -, -, hx, hy⟩ := h
  positivity

theorem curved_nonneg (h : Sloped amp part d x y) : 0 ≤ part * (d * d * d) := by
  obtain ⟨-, hp, hd, -, -, -⟩ := h
  positivity

theorem pos (h : Sloped amp part d x y) :
    0 < (slope amp part d x y).1 ∧ 0 < (slope amp part d x y).2 := by
  have hshared := h.shared_nonneg
  have hcurved := h.curved_nonneg
  obtain ⟨-, hp, -, hweight, hx, hy⟩ := h
  unfold slope
  dsimp only
  rcases hweight with hpos | hpos
  · have hsome : 0 < 4 * amp * 2 * x * x * y * y := by positivity
    exact ⟨by positivity, by positivity⟩
  · have hsome : 0 < part * (d * d * d) := by positivity
    exact ⟨by positivity, by positivity⟩

theorem symm (h : Sloped amp part d x y) : Sloped amp part d y x :=
  ⟨h.amplified, h.parts, h.nonneg, h.weight, h.second, h.first⟩

theorem marginal_symm (amp part d x y : Int) :
    marginal amp part d y x = (marginal amp part d x y)⁻¹ := by
  have hswap : slope amp part d y x = (slope amp part d x y).swap := by
    unfold slope
    dsimp only [Prod.swap]
    rw [show 4 * amp * 2 * y * y * x * x = 4 * amp * 2 * x * x * y * y by ring]
  rw [marginal, marginal, hswap, inv_div]
  rfl

/-- The slope is between one and the ratio of the balances. -/
theorem marginal_bounds (h : Sloped amp part d x y) (hxy : x ≤ y) :
    1 ≤ marginal amp part d x y ∧ marginal amp part d x y ≤ y / x := by
  have hden : (0 : ℚ) < (slope amp part d x y).2 := by exact_mod_cast h.pos.2
  have hx : (0 : ℚ) < x := by exact_mod_cast h.first
  constructor
  · have hle := Int.mul_le_mul_of_nonneg_left hxy h.curved_nonneg
    have hcross : (slope amp part d x y).2 ≤ (slope amp part d x y).1 := Int.add_le_add_left hle _
    rw [marginal, one_le_div hden]
    exact_mod_cast hcross
  · have hle := Int.mul_le_mul_of_nonneg_left hxy h.shared_nonneg
    have hcross : (slope amp part d x y).1 * x ≤ y * (slope amp part d x y).2 := by
      unfold slope
      dsimp only
      linarith
    rw [marginal, div_le_div_iff₀ hden hx]
    exact_mod_cast hcross

theorem marginal_bounds_of_ge (h : Sloped amp part d x y) (hyx : y ≤ x) :
    (y : ℚ) / x ≤ marginal amp part d x y ∧ marginal amp part d x y ≤ 1 := by
  obtain ⟨hone, hratio⟩ := h.symm.marginal_bounds hyx
  have hpos : 0 < marginal amp part d y x := zero_lt_one.trans_le hone
  rw [marginal_symm amp part d y x]
  constructor
  · rw [← inv_div]
    exact inv_anti₀ hpos hratio
  · exact inv_le_one_of_one_le₀ hone

end Sloped

end Mediant

section SpotPrice

variable {amp part : Int}

theorem Sloped.quotient (h : Sloped amp part d x y) (hq : marginal amp part d x y < tooLarge) :
    ∃ p, (Numeral.finite (.ofInt (slope amp part d x y).1)).dividedBy
        (.finite (.ofInt (slope amp part d x y).2)) = .ok (.finite p) ∧
      Rounds (marginal amp part d x y) p.toRat := by
  obtain ⟨hnum, hden⟩ := h.pos
  obtain ⟨p, hp, hround⟩ := Decimal.ratio_found hnum.le hden hq
  rw [Numeral.dividedBy_finite, hp]
  exact ⟨p, rfl, hround⟩

/-- Between equal balances the fraction is one, to the last digit. -/
theorem Sloped.quotient_self {p : Decimal} (h : Sloped amp part d x x)
    (hp : (Numeral.finite (.ofInt (slope amp part d x x).1)).dividedBy
      (.finite (.ofInt (slope amp part d x x).2)) = .ok (.finite p)) : p = .one := by
  have hself : (slope amp part d x x).2 = (slope amp part d x x).1 := rfl
  rw [hself, Numeral.dividedBy_finite, Decimal.dividedBy_self h.pos.1.ne'] at hp
  cases hp
  rfl

theorem spotPrice_empty {ν : Type} [Operand ν] {s : Shape ν} (h : x = 0 ∨ y = 0) :
    spotPrice s [x, y] = .error .emptyReservePrice := by
  unfold spotPrice
  rcases h with rfl | rfl <;> simp

theorem spotPrice_eq {ν : Type} [Operand ν] {s : Shape ν} (hx : x ≠ 0) (hy : y ≠ 0)
    (hd : invariant s [x, y] = .ok d) (hamp : Operand.strict s.amp = .ok amp)
    (hpart : Operand.toJson s.ampPrecision = .int part) :
    spotPrice s [x, y] = (Numeral.finite (.ofInt (slope amp part d x y).1)).dividedBy
      (.finite (.ofInt (slope amp part d x y).2)) := by
  have hcount : Operand.count s.ampPrecision = .ok part := by
    simp only [Operand.count, Operand.whole?, hpart]
  unfold spotPrice
  simp [hx, hy, hd, hamp, hpart, hcount]

/-- Balances are in no ratio beyond the decimals. -/
theorem Spans.ratio_lt {s : Shape} (h : Spans s x y d) (hd : d < Width.uint128.limit) (hx : 0 < x)
    (hb : b ∈ [x, y]) (hb0 : 0 < b) : (b : ℚ) / x < tooLarge := by
  have hlimit : Width.uint128.limit = 2 ^ 128 := rfl
  have hsq : b ^ 2 ≤ (2 ^ 192) ^ 2 := by
    calc b ^ 2 ≤ (d + 1) ^ 3 := h.squares b hb
      _ ≤ (2 ^ 128) ^ 3 := pow_le_pow_left₀ (by have := h.nonneg; omega) (by omega) 3
      _ = (2 ^ 192) ^ 2 := by norm_num
  have hsize : b ≤ 2 ^ 192 := (pow_le_pow_iff_left₀ hb0.le (by norm_num) (by norm_num)).mp hsq
  have hone : (1 : ℚ) ≤ x := by exact_mod_cast hx
  have hcast : (b : ℚ) ≤ 2 ^ 192 := by exact_mod_cast hsize
  calc (b : ℚ) / x ≤ b := div_le_self (by exact_mod_cast hb0.le) hone
    _ ≤ 2 ^ 192 := hcast
    _ < 10 ^ (58 : Int) := by norm_num
    _ < tooLarge := Decimal.ten_pow_lt_tooLarge (by decide)

/-- The price of a stable pool is between par and the price without a curve, at par where the
balances are equal, and both prices are found wherever the invariant is. -/
theorem spotPrice_between (s : Shape) (x y d : Int) (ha : 0 ≤ s.amp) (hp : 1 ≤ s.ampPrecision)
    (hx : 0 < x) (hy : 0 < y) (hd : invariant s [x, y] = .ok d) :
    ∃ p c, spotPrice s [x, y] = .ok (.finite p) ∧
      ConstantProduct.spotPrice [x, y] = .ok (.finite c) ∧
      (x = y → p = .one) ∧ (x ≤ y → .one ≤ p ∧ p ≤ c) ∧ (y ≤ x → c ≤ p ∧ p ≤ .one) := by
  have hspans := spans_invariant hp hx hy hd
  have hslope : Sloped s.amp s.ampPrecision d x y :=
    ⟨ha, hp, hspans.nonneg, hspans.weight, hx, hy⟩
  have hratio := hspans.ratio_lt (invariant_bounds hd).2 hx (b := y) (by simp) hy
  obtain ⟨c, hc, hcround⟩ := Decimal.ratio_found hy.le hx hratio
  have hmarginal : marginal s.amp s.ampPrecision d x y < tooLarge := by
    rcases le_total x y with hle | hge
    · exact (hslope.marginal_bounds hle).2.trans_lt hratio
    · exact (hslope.marginal_bounds_of_ge hge).2.trans_lt Decimal.one_lt_tooLarge
  obtain ⟨p, hp, hpround⟩ := hslope.quotient hmarginal
  refine ⟨p, c, ?_, ?_, ?_, ?_, ?_⟩
  · rw [spotPrice_eq hx.ne' hy.ne' hd rfl rfl, hp]
  · rw [ConstantProduct.spotPrice_eq hx.ne', hc]
    rfl
  · rintro rfl
    exact hslope.quotient_self hp
  · intro hle
    obtain ⟨hone, hup⟩ := hslope.marginal_bounds hle
    rw [Decimal.le_iff, Decimal.le_iff, Decimal.toRat_one]
    exact ⟨Rounds.one.mono hpround one_pos hone, hpround.mono hcround (one_pos.trans_le hone) hup⟩
  · intro hge
    obtain ⟨hlow, hone⟩ := hslope.marginal_bounds_of_ge hge
    have hpos : (0 : ℚ) < y / x := div_pos (by exact_mod_cast hy) (by exact_mod_cast hx)
    rw [Decimal.le_iff, Decimal.le_iff, Decimal.toRat_one]
    exact ⟨hcround.mono hpround hpos hlow, hpround.mono Rounds.one (hpos.trans_le hlow) hone⟩

theorem spotPrice_between_lopsided :
    invariant (.usual (100 : Int)) [(1000 : Int), 3000] = .ok 3718 ∧
    ∃ p c, spotPrice (.usual (100 : Int)) [(1000 : Int), 3000] = .ok (.finite p) ∧
      ConstantProduct.spotPrice [(1000 : Int), 3000] = .ok (.finite c) ∧
      .one ≤ p ∧ p ≤ c := by
  have hd : invariant (.usual (100 : Int)) [(1000 : Int), 3000] = .ok 3718 := by decide +kernel
  obtain ⟨p, c, hp, hc, -, hle, -⟩ := spotPrice_between (.usual 100) 1000 3000 3718
    (by decide) (by decide) (by decide) (by decide) hd
  exact ⟨hd, p, c, hp, hc, hle (by decide)⟩

end SpotPrice

end Stable
end Liquidity
