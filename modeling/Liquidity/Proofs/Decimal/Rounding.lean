import Liquidity.Proofs.Decimal.Value

/-! Results of decimal arithmetic as numbers rounded to the grid of 28 digits, a half to the even
neighbour. The grid is coarser further out, but wherever it changes it has a power of ten, which
is kept: so rounding never turns an order around. -/

namespace Liquidity.Decimal
set_option autoImplicit false

variable {q q' v v' : ℚ} {k k' e place : Int} {m n : Nat}

/-- A whole number nearest to `q`, the even one of two. -/
structure IsNearest (q : ℚ) (k : Int) : Prop where
  le_add : q ≤ k + 1 / 2
  sub_le : k - 1 / 2 ≤ q
  even : q = k + 1 / 2 ∨ q = k - 1 / 2 → Even k

namespace IsNearest

theorem self (k : Int) : IsNearest k k := by
  refine ⟨by linarith, by linarith, ?_⟩
  rintro (h | h) <;> linarith

theorem mono (h : IsNearest q k) (h' : IsNearest q' k') (hq : q ≤ q') : k ≤ k' := by
  by_contra hlt
  have hstep : (k' : ℚ) + 1 ≤ k := by exact_mod_cast Int.not_le.mp hlt
  have hle := h.sub_le
  have hle' := h'.le_add
  -- The two meet half-way between neighbours, which cannot both be even.
  have heven := h.even (.inr (by linarith))
  have heven' := h'.even (.inl (by linarith))
  have hnext : (k : ℚ) = k' + 1 := by linarith
  have hnext' : k = k' + 1 := by exact_mod_cast hnext
  rw [hnext', Int.even_add_one] at heven
  exact heven heven'

theorem le_of_le (h : IsNearest q k) (hq : q ≤ k') : k ≤ k' := h.mono (self k') hq

theorem ge_of_ge (h : IsNearest q k) (hq : k' ≤ q) : k' ≤ k := (self k').mono h hq

/-- Coming from below, half-way is already rounded up to an even number. -/
theorem eq_iff_of_even (h : IsNearest q k) (heven : Even k') (hq : q ≤ k') :
    k = k' ↔ k' - 1 / 2 ≤ q := by
  constructor
  · rintro rfl
    exact h.sub_le
  · intro hhalf
    have hle : k ≤ k' := h.le_of_le hq
    have hge : k' - 1 ≤ k := h.ge_of_ge (by push_cast; linarith)
    by_contra hne
    obtain rfl : k = k' - 1 := by omega
    have hup := h.le_add
    push_cast at hup
    have hodd := h.even (.inl (by push_cast; linarith))
    rw [Int.even_sub_one] at hodd
    exact hodd heven

theorem of_lt_half (h0 : 0 ≤ q) (h : q < 1 / 2) : IsNearest q 0 := by
  refine ⟨by push_cast; linarith, by push_cast; linarith, ?_⟩
  rintro (h' | h') <;> push_cast at h' <;> linarith

theorem pos_iff (h : IsNearest q k) : 0 < k ↔ 1 / 2 < q := by
  constructor
  · intro hk
    have hstep : (1 : ℚ) ≤ k := by exact_mod_cast hk
    have hle := h.sub_le
    by_contra hhalf
    have htie : q = k - 1 / 2 := by linarith
    have hone : (k : ℚ) = 1 := by linarith
    have heven := h.even (.inr htie)
    rw [(by exact_mod_cast hone : k = 1), Int.even_iff] at heven
    omega
  · intro hq
    have hle := h.le_add
    have hpos : (0 : ℚ) < k := by linarith
    exact_mod_cast hpos

end IsNearest

/-- The same without fractions. -/
theorem isNearest_div (hm : 0 < m) (hle : 2 * (n : Int) ≤ (2 * k + 1) * m)
    (hge : (2 * k - 1) * (m : Int) ≤ 2 * n)
    (heven : 2 * (n : Int) = (2 * k + 1) * m ∨ 2 * (n : Int) = (2 * k - 1) * m → Even k) :
    IsNearest ((n : ℚ) / m) k := by
  have hpos : (0 : ℚ) < m := by exact_mod_cast hm
  have hle' : 2 * (n : ℚ) ≤ (2 * k + 1) * m := by exact_mod_cast hle
  have hge' : (2 * k - 1) * (m : ℚ) ≤ 2 * n := by exact_mod_cast hge
  refine ⟨?_, ?_, ?_⟩
  · rw [div_le_iff₀ hpos]
    linarith
  · rw [le_div_iff₀ hpos]
    linarith
  · intro htie
    rw [div_eq_iff hpos.ne', div_eq_iff hpos.ne'] at htie
    refine heven (htie.imp (fun h => ?_) fun h => ?_)
    · have : 2 * (n : ℚ) = (2 * k + 1) * m := by linarith
      exact_mod_cast this
    · have : 2 * (n : ℚ) = (2 * k - 1) * m := by linarith
      exact_mod_cast this

theorem roundDiv_isNearest (n : Nat) (hm : 0 < m) : IsNearest ((n : ℚ) / m) (roundDiv n m) := by
  have hsum : (n : Int) = m * (n / m : Nat) + (n % m : Nat) := by
    exact_mod_cast (Nat.div_add_mod n m).symm
  have hrest : n % m < m := Nat.mod_lt n hm
  unfold roundDiv
  dsimp only
  generalize n / m = f, n % m = r at *
  have hfloor : (2 * (f : Int) + 1) * m = 2 * (m * f) + m := by ring
  have hnext : (2 * ((f + 1 : Nat) : Int) - 1) * m = 2 * (m * f) + m := by push_cast; ring
  have hbelow : (2 * (f : Int) - 1) * m = 2 * (m * f) - m := by ring
  have habove : (2 * ((f + 1 : Nat) : Int) + 1) * m = 2 * (m * f) + 3 * m := by push_cast; ring
  split
  · apply isNearest_div hm
    · omega
    · omega
    · rw [Int.even_iff]
      omega
  · apply isNearest_div hm
    · omega
    · omega
    · rw [Int.even_iff]
      omega

section Grid

/-- The place of the last digit that is kept of `q`. -/
def grain (q : ℚ) : Int := lastPlace (Int.log 10 q)

/-- `v` is `q` rounded to the digits that are kept of it. -/
def Rounds (q v : ℚ) : Prop := ∃ k : Int, IsNearest (q / 10 ^ grain q) k ∧ v = k * 10 ^ grain q

theorem lt_pow_log (hq : 0 < q) : q < 10 ^ (Int.log 10 q + 1) := by
  exact_mod_cast (Int.lt_zpow_iff_log_lt (b := 10) (by decide) hq).mpr (Int.lt_succ _)

theorem pow_log_le (hq : 0 < q) : 10 ^ Int.log 10 q ≤ q := by
  exact_mod_cast (Int.zpow_le_iff_le_log (b := 10) (by decide) hq).mpr le_rfl

theorem grain_le_log (h : leastPlace ≤ Int.log 10 q) : grain q ≤ Int.log 10 q := by
  unfold grain lastPlace
  omega

theorem grain_mono (hq : 0 < q) (h : q ≤ q') : grain q ≤ grain q' := by
  have hlog := Int.log_mono_right (b := 10) hq h
  unfold grain lastPlace
  omega

/-- A multiple of a power of ten on a finer grid. -/
theorem int_on_grid (k : Int) (h : place ≤ e) :
    (k : ℚ) * 10 ^ e = (k * 10 ^ (e - place).toNat : Int) * 10 ^ place := by
  have hsum : e = (e - place) + place := by omega
  rw [hsum, ten_pow_add, ← ten_pow_toNat (by omega), ← mul_assoc, Int.sub_add_cancel]
  push_cast
  rfl

theorem on_grid (m : Nat) (h : place ≤ e) :
    (m : ℚ) * 10 ^ e = ((m * 10 ^ (e - place).toNat : Nat) : Int) * 10 ^ place := by
  exact_mod_cast int_on_grid m h

namespace Rounds

theorem zero : Rounds 0 0 := ⟨0, by simpa using IsNearest.self 0, by simp⟩

theorem eq_zero (h : Rounds 0 v) : v = 0 := by
  obtain ⟨k, hk, rfl⟩ := h
  rw [zero_div] at hk
  have hle : k ≤ 0 := hk.le_of_le (by simp)
  have hge : 0 ≤ k := hk.ge_of_ge (by simp)
  rw [le_antisymm hle hge, Int.cast_zero, zero_mul]

theorem le_of_le (h : Rounds q v) (he : grain q ≤ e) (hq : q ≤ m * 10 ^ e) : v ≤ m * 10 ^ e := by
  obtain ⟨k, hk, rfl⟩ := h
  have hpos := ten_pow_pos (grain q)
  rw [on_grid m he] at hq ⊢
  rw [mul_le_mul_iff_left₀ hpos]
  exact_mod_cast hk.le_of_le ((div_le_iff₀ hpos).mpr hq)

theorem ge_of_ge (h : Rounds q v) (he : grain q ≤ e) (hq : m * 10 ^ e ≤ q) : m * 10 ^ e ≤ v := by
  obtain ⟨k, hk, rfl⟩ := h
  have hpos := ten_pow_pos (grain q)
  rw [on_grid m he] at hq ⊢
  rw [mul_le_mul_iff_left₀ hpos]
  exact_mod_cast hk.ge_of_ge ((le_div_iff₀ hpos).mpr hq)

/-- What is on the grid already is kept. -/
theorem exact (he : grain (m * 10 ^ e) ≤ e) : Rounds (m * 10 ^ e) (m * 10 ^ e) := by
  refine ⟨(m * 10 ^ (e - grain (m * 10 ^ e)).toNat : Nat), ?_, on_grid m he⟩
  rw [div_eq_of_eq_mul (ten_pow_pos _).ne' (on_grid m he)]
  exact IsNearest.self _

theorem one : Rounds 1 1 := by
  have hone : ((1 : Nat) : ℚ) * 10 ^ (0 : Int) = 1 := by simp
  have hgrain : grain (((1 : Nat) : ℚ) * 10 ^ (0 : Int)) ≤ 0 := by
    rw [hone, grain, Int.log_one_right]
    decide
  simpa only [hone] using exact hgrain

theorem mono (h : Rounds q v) (h' : Rounds q' v') (h0 : 0 < q) (hq : q ≤ q') : v ≤ v' := by
  rcases (grain_mono h0 hq).eq_or_lt with heq | hlt
  · obtain ⟨k, hk, rfl⟩ := h
    obtain ⟨k', hk', rfl⟩ := h'
    have hpos := ten_pow_pos (grain q')
    rw [heq] at hk ⊢
    rw [mul_le_mul_iff_left₀ hpos]
    exact_mod_cast hk.mono hk' ((div_le_div_iff_of_pos_right hpos).mpr hq)
  · -- The leading digit of `q'` starts a power of ten between the two.
    have hlast : leastPlace < grain q' := (le_max_left _ _).trans_lt hlt
    have hlog : Int.log 10 q + 1 ≤ Int.log 10 q' := by
      unfold grain lastPlace at *
      omega
    have hleast : leastPlace ≤ Int.log 10 q' := by
      unfold grain lastPlace at *
      omega
    have hup : q ≤ ((1 : Nat) : ℚ) * 10 ^ Int.log 10 q' := by
      rw [Nat.cast_one, one_mul]
      exact (lt_pow_log h0).le.trans (ten_pow_le hlog)
    have hlow : ((1 : Nat) : ℚ) * 10 ^ Int.log 10 q' ≤ q' := by
      rw [Nat.cast_one, one_mul]
      exact pow_log_le (h0.trans_le hq)
    exact (h.le_of_le (hlt.le.trans (grain_le_log hleast)) hup).trans
      (h'.ge_of_ge (grain_le_log hleast) hlow)

theorem nonneg (h : Rounds q v) (h0 : 0 ≤ q) : 0 ≤ v := by
  obtain ⟨k, hk, rfl⟩ := h
  have hpos := ten_pow_pos (grain q)
  have hk0 : 0 ≤ k := hk.ge_of_ge (by simpa using div_nonneg h0 hpos.le)
  exact mul_nonneg (by exact_mod_cast hk0) hpos.le

theorem mono_of_nonneg (h : Rounds q v) (h' : Rounds q' v') (h0 : 0 ≤ q) (hq : q ≤ q') : v ≤ v' := by
  rcases h0.eq_or_lt with rfl | hpos
  · rw [h.eq_zero]
    exact h'.nonneg hq
  · exact h.mono h' hpos hq

theorem unique (h : Rounds q v) (h' : Rounds q v') (h0 : 0 ≤ q) : v = v' :=
  le_antisymm (h.mono_of_nonneg h' h0 le_rfl) (h'.mono_of_nonneg h h0 le_rfl)

/-- Nothing is left of a number up to half of the least place. -/
theorem pos_iff (h : Rounds q v) (h0 : 0 < q) : 0 < v ↔ 10 ^ leastPlace / 2 < q := by
  by_cases hleast : leastPlace ≤ Int.log 10 q
  · have hlow : ((1 : Nat) : ℚ) * 10 ^ Int.log 10 q ≤ q := by
      rw [Nat.cast_one, one_mul]
      exact pow_log_le h0
    have hv := h.ge_of_ge (grain_le_log hleast) hlow
    have hpow := ten_pow_le hleast
    have hpos := ten_pow_pos leastPlace
    rw [Nat.cast_one, one_mul] at hlow hv
    constructor
    · intro _
      linarith
    · intro _
      linarith
  · have hgrain : grain q = leastPlace := by
      unfold grain lastPlace
      omega
    obtain ⟨k, hk, rfl⟩ := h
    rw [hgrain] at hk ⊢
    have hpos := ten_pow_pos leastPlace
    rw [mul_pos_iff_of_pos_right hpos, Int.cast_pos, hk.pos_iff, lt_div_iff₀ hpos, one_div,
      inv_mul_eq_div]

end Rounds

/-- A number of at most 28 digits, none of them below the least place. -/
def Fits (q : ℚ) : Prop :=
  ∃ (c : Nat) (e : Int), c < 10 ^ precision ∧ leastPlace ≤ e ∧ q = c * 10 ^ e

theorem Fits.one : Fits 1 := ⟨1, 0, by decide, by decide, by simp⟩

theorem Fits.ten_pow (h : leastPlace ≤ e) : Fits (10 ^ e) := ⟨1, e, by decide, h, by simp⟩

theorem Fits.nonneg (h : Fits q) : 0 ≤ q := by
  obtain ⟨c, e, -, -, rfl⟩ := h
  exact mul_nonneg (Nat.cast_nonneg c) (ten_pow_pos e).le

theorem Fits.rounds (h : Fits q) : Rounds q q := by
  obtain ⟨c, e, hc, he, rfl⟩ := h
  by_cases hzero : c = 0
  · rw [hzero, Nat.cast_zero, zero_mul]
    exact Rounds.zero
  · have hlog : Int.log 10 ((c : ℚ) * 10 ^ e) = e + numDigits c - 1 :=
      log_size (d := ⟨false, c, e⟩) hzero
    have hdigits : numDigits c ≤ 28 := numDigits_le (by decide) hc
    have hlast : ((precision - 1 : Nat) : Int) = 27 := rfl
    apply Rounds.exact
    rw [grain, hlog]
    unfold lastPlace
    omega

/-- What is kept of a number fits. Rounding up to another digit leaves zeros behind it. -/
theorem Rounds.fits (h : Rounds q v) (h0 : 0 ≤ q) : Fits v := by
  rcases h0.eq_or_lt with rfl | hpos
  · exact ⟨0, leastPlace, by decide, le_refl _, by simp [h.eq_zero]⟩
  · obtain ⟨k, hk, rfl⟩ := h
    have hleast : leastPlace ≤ grain q := le_max_left _ _
    have hgrain := ten_pow_pos (grain q)
    have hlog : Int.log 10 q + 1 ≤ (precision : Nat) + grain q := by
      have hprecision : precision = 28 := rfl
      unfold grain lastPlace
      omega
    have hup : q / 10 ^ grain q ≤ ((10 ^ precision : Int) : ℚ) := by
      rw [div_le_iff₀ hgrain]
      push_cast
      rw [← zpow_natCast, ← ten_pow_add]
      exact (lt_pow_log hpos).le.trans (ten_pow_le hlog)
    have hk0 : 0 ≤ k := hk.ge_of_ge (by simpa using (div_pos hpos hgrain).le)
    obtain ⟨n, rfl⟩ := Int.eq_ofNat_of_zero_le hk0
    rcases (hk.le_of_le hup).eq_or_lt with heq | hlt
    · refine ⟨1, (precision : Nat) + grain q, by decide, by omega, ?_⟩
      rw [heq, ten_pow_add, zpow_natCast]
      push_cast
      ring
    · exact ⟨n, grain q, by exact_mod_cast hlt, hleast, by simp⟩

end Grid

end Liquidity.Decimal
