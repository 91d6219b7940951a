import Liquidity.Proofs.Decimal.Whole

/-! Sums, differences and products. What is found of one that is not negative is the exact result,
rounded. Of a sum this holds although a summand far below the digits of the other is replaced: the
exact sum and the sum with its stand-in lie between the same two halves of a unit. -/

namespace Liquidity.Decimal
set_option autoImplicit false

variable {a b d large small : Decimal} {q q' v : ℚ} {e j k m : Int}

section Cell

/-- Numbers that no multiple of half a unit at a place from `m` up tells apart. -/
structure SameCell (m : Int) (q q' : ℚ) : Prop where
  lt_iff : ∀ (k : Int) {e : Int}, m ≤ e → (2 * q < k * 10 ^ e ↔ 2 * q' < k * 10 ^ e)
  gt_iff : ∀ (k : Int) {e : Int}, m ≤ e → (k * 10 ^ e < 2 * q ↔ k * 10 ^ e < 2 * q')

theorem isNearest_iff : IsNearest (q / 10 ^ e) k ↔
    ¬ ((2 * k + 1 : Int) * 10 ^ e < 2 * q) ∧ ¬ (2 * q < (2 * k - 1 : Int) * 10 ^ e) ∧
      (¬ (2 * q < (2 * k + 1 : Int) * 10 ^ e) ∨ ¬ ((2 * k - 1 : Int) * 10 ^ e < 2 * q) →
        Even k) := by
  have hpos := ten_pow_pos e
  obtain ⟨x, rfl⟩ : ∃ x, q = x * 10 ^ e := ⟨_, (div_mul_cancel₀ q hpos.ne').symm⟩
  simp only [mul_div_cancel_right₀ _ hpos.ne', ← mul_assoc, mul_lt_mul_iff_left₀ hpos, not_lt]
  push_cast
  constructor
  · rintro ⟨hle, hge, heven⟩
    refine ⟨by linarith, by linarith, fun htie => heven (htie.imp ?_ ?_)⟩ <;> intro h <;> linarith
  · rintro ⟨hle, hge, heven⟩
    refine ⟨by linarith, by linarith, fun htie => heven (htie.imp ?_ ?_)⟩ <;> intro h <;> linarith

theorem lt_cell (hlow : j * 10 ^ m < 2 * q) (hup : 2 * q < (j + 1 : Int) * 10 ^ m) :
    2 * q < k * 10 ^ m ↔ j < k := by
  have hpos := ten_pow_pos m
  constructor
  · intro h
    have hlt := lt_of_mul_lt_mul_right (hlow.trans h) hpos.le
    exact_mod_cast hlt
  · intro h
    have hle : ((j + 1 : Int) : ℚ) ≤ k := by exact_mod_cast h
    exact hup.trans_le (mul_le_mul_of_nonneg_right hle hpos.le)

theorem cell_lt (hlow : j * 10 ^ m < 2 * q) (hup : 2 * q < (j + 1 : Int) * 10 ^ m) :
    k * 10 ^ m < 2 * q ↔ k ≤ j := by
  have hpos := ten_pow_pos m
  constructor
  · intro h
    have hlt := lt_of_mul_lt_mul_right (h.trans hup) hpos.le
    exact Int.lt_add_one_iff.mp (by exact_mod_cast hlt)
  · intro h
    have hle : (k : ℚ) ≤ j := by exact_mod_cast h
    exact (mul_le_mul_of_nonneg_right hle hpos.le).trans_lt hlow

namespace SameCell

theorem symm (h : SameCell m q q') : SameCell m q' q :=
  ⟨fun k _ he => (h.lt_iff k he).symm, fun k _ he => (h.gt_iff k he).symm⟩

theorem of_between (hlow : j * 10 ^ m < 2 * q) (hup : 2 * q < (j + 1 : Int) * 10 ^ m)
    (hlow' : j * 10 ^ m < 2 * q') (hup' : 2 * q' < (j + 1 : Int) * 10 ^ m) : SameCell m q q' := by
  constructor
  · intro k e he
    rw [int_on_grid k he, lt_cell hlow hup, lt_cell hlow' hup']
  · intro k e he
    rw [int_on_grid k he, cell_lt hlow hup, cell_lt hlow' hup']

/-- Beside a whole number of units less than a tenth of one does not show. -/
theorem of_unit {l s : ℚ} (hl : l = k * 10 ^ (m + 1)) (h0 : 0 < s) (hs : s < 10 ^ m) :
    SameCell (m + 1) (l + s) (l + 10 ^ m) ∧ SameCell (m + 1) (l + -s) (l + -10 ^ m) := by
  have hpos := ten_pow_pos m
  have hten : (10 : ℚ) ^ (m + 1) = 10 ^ m * 10 := zpow_add_one₀ (by norm_num) m
  constructor
  · apply of_between (j := 2 * k) <;> push_cast <;> linarith
  · apply of_between (j := 2 * k - 1) <;> push_cast <;> linarith

theorem isNearest (h : SameCell m q q') (he : m ≤ e) (hn : IsNearest (q / 10 ^ e) k) :
    IsNearest (q' / 10 ^ e) k := by
  rw [isNearest_iff] at hn ⊢
  rwa [← h.lt_iff _ he, ← h.gt_iff _ he, ← h.lt_iff _ he, ← h.gt_iff _ he]

theorem log_eq (h : SameCell m q q') (h0 : 0 < q) (hm : m ≤ Int.log 10 q) :
    Int.log 10 q' = Int.log 10 q := by
  have hlow := h.lt_iff 2 hm
  have hup := h.lt_iff 2 (hm.trans (Int.le_add_one le_rfl))
  push_cast at hlow hup
  simp only [mul_lt_mul_iff_right₀ (show (0 : ℚ) < 2 by norm_num)] at hlow hup
  exact Decimal.log_eq (not_lt.mp (hlow.not.mp (not_lt.mpr (pow_log_le h0))))
    (hup.mp (lt_pow_log h0))

theorem rounds (h : SameCell m q q') (h0 : 0 < q) (hm : m + 27 ≤ Int.log 10 q)
    (hv : Rounds q v) : Rounds q' v := by
  obtain ⟨k, hk, rfl⟩ := hv
  have hgrain : grain q' = grain q := by rw [grain, grain, h.log_eq h0 (by omega)]
  have hplace : m ≤ grain q := by
    have hdigits : ((precision - 1 : Nat) : Int) = 27 := rfl
    unfold grain lastPlace
    omega
  exact ⟨k, by rw [hgrain]; exact h.isNearest hplace hk, by rw [hgrain]⟩

theorem lt_tooLarge (h : SameCell m q q') (h0 : 0 < q) (hm : m + 27 ≤ Int.log 10 q)
    (hq : q < tooLarge) : q' < tooLarge := by
  have hlead : Int.log 10 q < maxLeading + 1 :=
    (Int.lt_zpow_iff_log_lt (b := 10) (by decide) h0).mp (by exact_mod_cast hq.trans tooLarge_lt)
  have hplace : m ≤ maxLeading - (precision - 1 : Nat) := by
    have hdigits : ((precision - 1 : Nat) : Int) = 27 := rfl
    omega
  have hiff := h.lt_iff (2 * 10 ^ precision - 1) hplace
  have hdouble : ((2 * 10 ^ precision - 1 : Int) : ℚ) * 10 ^ (maxLeading - (precision - 1 : Nat)) =
      2 * tooLarge := by
    unfold tooLarge
    push_cast
    ring
  rw [hdouble, mul_lt_mul_iff_right₀ (by norm_num), mul_lt_mul_iff_right₀ (by norm_num)] at hiff
  exact hiff.mp hq

end SameCell

end Cell

section Sum

@[simp] theorem toRat_neg (d : Decimal) : d.neg.toRat = -d.toRat := by
  unfold toRat neg
  change (if (!d.negative) = true then -d.size else d.size) = _
  cases d.negative <;> simp

theorem toRat_eq_signedAt (h : e ≤ d.exponent) : d.toRat = d.signedAt e * 10 ^ e := by
  unfold toRat signedAt
  rw [size_eq_coefficientAt h]
  split <;> push_cast <;> ring

theorem toRat_eq_zero (h : d.coefficient = 0) : d.toRat = 0 := by
  unfold toRat
  rw [size_eq_zero.mpr h]
  split <;> simp

/-- A result that is not negative. -/
theorem fit_found (h0 : 0 ≤ d.toRat) (h : d.toRat < tooLarge) :
    ∃ r, found d.fit = .ok r ∧ Rounds d.toRat r.toRat := by
  have hfit := fit_fitted d
  have hsize := d.size_nonneg
  unfold toRat at h0 h
  by_cases hsign : d.negative = true
  · rw [if_pos hsign] at h0 h
    have hzero : d.size = 0 := by linarith
    obtain ⟨r, hr, -, hround⟩ := hfit.found_ok (by linarith)
    rw [hzero] at hround
    refine ⟨r, hr, ?_⟩
    rw [toRat_eq_zero (size_eq_zero.mp hzero), toRat_eq_zero (size_eq_zero.mp hround.eq_zero)]
    exact Rounds.zero
  · rw [if_neg hsign] at h
    obtain ⟨r, hr, hrsign, hround⟩ := hfit.found_ok h
    rw [Bool.not_eq_true] at hsign
    exact ⟨r, hr, by rwa [toRat_eq_size hsign, toRat_eq_size (hrsign.trans hsign)]⟩

theorem fit_tooLarge (h : tooLarge ≤ d.toRat) : found d.fit = .error .decimalTooLarge := by
  have hpos : 0 < d.toRat := (ten_pow_pos _).trans_le (pow_maxLeading_le_tooLarge.trans h)
  rw [toRat_eq_size (toRat_pos_iff.mp hpos).1] at h
  exact (fit_fitted d).found_error h

theorem addOrdered_found (h : small.exponent ≤ large.exponent)
    (h0 : 0 ≤ large.toRat + small.toRat) (hlt : large.toRat + small.toRat < tooLarge) :
    ∃ r, found (addOrdered large small) = .ok r ∧ Rounds (large.toRat + small.toRat) r.toRat := by
  have hsum : large.toRat + small.toRat =
      (large.signedAt small.exponent + small.signedAt small.exponent : Int) *
        10 ^ small.exponent := by
    rw [toRat_eq_signedAt h, toRat_eq_signedAt (le_refl small.exponent)]
    push_cast
    ring
  unfold addOrdered
  dsimp only
  generalize large.signedAt small.exponent + small.signedAt small.exponent = n at hsum ⊢
  have hn : 0 ≤ n := by
    rw [hsum, mul_nonneg_iff_of_pos_right (ten_pow_pos _)] at h0
    exact_mod_cast h0
  generalize hd : (⟨if n = 0 then large.negative && small.negative else decide (n < 0), n.natAbs,
    small.exponent⟩ : Decimal) = d
  have hvalue : d.toRat = large.toRat + small.toRat := by
    rw [hsum, ← hd]
    rcases hn.eq_or_lt with rfl | hpos
    · rw [toRat_eq_zero rfl, Int.cast_zero, zero_mul]
    · have hsign : (if n = 0 then large.negative && small.negative else decide (n < 0)) = false := by
        rw [if_neg hpos.ne', decide_eq_false (not_lt.mpr hn)]
      rw [toRat_eq_size hsign, size, Nat.cast_natAbs, abs_of_nonneg hn]
  rw [← hvalue] at h0 hlt ⊢
  exact fit_found h0 hlt

/-- The unit that stands for a summand below the digits of the other one. -/
theorem settled_cell (place : Int) (hplace : place < large.exponent)
    (hdigits : place + 30 ≤ large.exponent + numDigits large.coefficient)
    (hc : large.coefficient ≠ 0) (hs : small.coefficient ≠ 0) (hfar : small.adjusted < place)
    (h0 : 0 ≤ large.toRat + small.toRat) :
    SameCell (place + 1) (large.toRat + small.toRat)
        (large.toRat + toRat { small with coefficient := 1, exponent := place }) ∧
      10 ^ (place + 28) ≤ large.toRat + small.toRat := by
  have hsmall0 := size_pos.mpr hs
  have hsmall : small.size < 10 ^ place := small.size_lt.trans_le (ten_pow_le (by omega))
  have hroom : (10 : ℚ) ^ place ≤ 10 ^ (place + 28) := ten_pow_le (by omega)
  have hlarge : (10 : ℚ) ^ (place + 28) * 10 ≤ large.size := by
    rw [← zpow_add_one₀ (by norm_num)]
    refine (ten_pow_le ?_).trans (pow_log_le (size_pos.mpr hc))
    rw [log_size hc, adjusted]
    omega
  have hgrid : large.size = _ := int_on_grid (large.coefficient : Int) (Int.add_one_le_of_lt hplace)
  obtain ⟨hover, hunder⟩ := SameCell.of_unit hgrid hsmall0 hsmall
  -- A negative summand of that size would decide the sign of the sum.
  have hsign : large.toRat = large.size := by
    rcases large.signum_cases with h | h | h
    · linarith
    · exact h.2.2
    · rcases small.signum_cases with h' | h' | h' <;> linarith
  have hstand : size { small with coefficient := 1, exponent := place } = 10 ^ place := by
    simp [size]
  rw [hsign]
  unfold toRat
  rw [hstand]
  cases small.negative with
  | false =>
    simp only [Bool.false_eq_true, if_false]
    exact ⟨hover, by linarith⟩
  | true =>
    simp only [if_true]
    exact ⟨hunder, by linarith⟩

/-- The sum with what stands for the second summand is the sum. -/
theorem settle_found (h : small.exponent ≤ large.exponent)
    (h0 : 0 ≤ large.toRat + small.toRat) (hlt : large.toRat + small.toRat < tooLarge) :
    ∃ r, found (addOrdered large (settle large small)) = .ok r ∧
      Rounds (large.toRat + small.toRat) r.toRat := by
  unfold settle
  dsimp only
  have hprecision : precision = 28 := rfl
  split
  · exact addOrdered_found h h0 hlt
  · rename_i hc
    have hpositive := numDigits_pos large.coefficient
    generalize hplace : large.exponent + min (-1)
      ((numDigits large.coefficient : Int) - precision - 2) = place
    split
    · rename_i hs
      have hsame : toRat { small with exponent := max small.exponent place } = small.toRat := by
        rw [toRat_eq_zero hs]
        exact toRat_eq_zero hs
      rw [← hsame] at h0 hlt ⊢
      exact addOrdered_found (by dsimp only; omega) h0 hlt
    · rename_i hs
      split
      · rename_i hfar
        obtain ⟨hcell, hleast⟩ :=
          settled_cell place (by omega) (by omega) hc hs hfar h0
        have hpos := (ten_pow_pos _).trans_le hleast
        have hlog : place + 28 ≤ Int.log 10 (large.toRat + small.toRat) :=
          (Int.zpow_le_iff_le_log (b := 10) (by decide) hpos).mp (by exact_mod_cast hleast)
        have hpos' := (hcell.gt_iff 0 (le_refl _)).mp (by simpa using hpos)
        obtain ⟨r, hr, hround⟩ := addOrdered_found (by dsimp only; omega)
          (by simpa using hpos'.le) (hcell.lt_tooLarge hpos (by omega) hlt)
        refine ⟨r, hr, hcell.symm.rounds (by simpa using hpos') ?_ hround⟩
        rw [hcell.log_eq hpos (by omega)]
        omega
      · exact addOrdered_found h h0 hlt

theorem plus_found (h0 : 0 ≤ a.toRat + b.toRat) (h : a.toRat + b.toRat < tooLarge) :
    ∃ r, a.plus b = .ok r ∧ Rounds (a.toRat + b.toRat) r.toRat := by
  unfold plus add
  split
  · rename_i hlt
    rw [add_comm] at h0 h ⊢
    exact settle_found hlt.le h0 h
  · rename_i hle
    exact settle_found (not_lt.mp hle) h0 h

theorem minus_found (h0 : b.toRat ≤ a.toRat) (h : a.toRat - b.toRat < tooLarge) :
    ∃ r, a.minus b = .ok r ∧ Rounds (a.toRat - b.toRat) r.toRat := by
  rw [sub_eq_add_neg, ← toRat_neg] at h ⊢
  exact plus_found (by rw [toRat_neg]; linarith) h

theorem times_eq (a b : Decimal) : ∃ d : Decimal, d.toRat = a.toRat * b.toRat ∧ a.times b = found d.fit := by
  refine ⟨⟨a.negative != b.negative, a.coefficient * b.coefficient, a.exponent + b.exponent⟩, ?_,
    rfl⟩
  unfold toRat size
  rw [ten_pow_add]
  cases a.negative <;> cases b.negative <;> simp <;> ring

theorem times_found (h0 : 0 ≤ a.toRat * b.toRat) (h : a.toRat * b.toRat < tooLarge) :
    ∃ r, a.times b = .ok r ∧ Rounds (a.toRat * b.toRat) r.toRat := by
  obtain ⟨d, hd, hfit⟩ := times_eq a b
  rw [← hd] at h0 h ⊢
  rw [hfit]
  exact fit_found h0 h

theorem lt_tooLarge_of_times {r : Decimal} (h : a.times b = .ok r) :
    a.toRat * b.toRat < tooLarge := by
  obtain ⟨d, hd, hfit⟩ := times_eq a b
  by_contra hlarge
  rw [hfit, fit_tooLarge (hd ▸ not_lt.mp hlarge)] at h
  cases h

end Sum

end Liquidity.Decimal
