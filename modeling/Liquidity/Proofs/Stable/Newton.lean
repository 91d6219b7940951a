import Liquidity.Proofs.Reported
import Liquidity.Proofs.Stable.Solution

/-! The search for the invariant. A Newton step on a convex curve never lands below the
solution, and rounding takes less than two from that, whatever number it starts from: so the
search neither fails nor falls short by more, whether or not it has settled when it stops. -/

namespace Liquidity.Stable
set_option autoImplicit false

open Outcome

variable {s : Shape} {balances : List Int} {leverage ampPrecision d g : Int}

/-- The product term by plain division. -/
def term (balances : List Int) (d : Int) : Int :=
  balances.foldl (fun p b => p * d / (b * (balances.length : Int) + 1)) d

section Term
variable {n : Nat} {p : Int}

theorem foldlM_div_eq (h : ∀ b ∈ balances, 0 < b) :
    balances.foldlM (fun p b => Checked.div (p * d) (b * (n : Int) + 1)) p =
      .ok (balances.foldl (fun p b => p * d / (b * (n : Int) + 1)) p) := by
  induction balances generalizing p with
  | nil => rfl
  | cons b bs ih =>
    obtain ⟨hb, hbs⟩ := List.forall_mem_cons.mp h
    have hpos : 0 < b * (n : Int) + 1 := by positivity
    rw [List.foldlM_cons, Checked.div_eq_ok.mpr ⟨hpos.ne', rfl⟩, ok_bind,
      Int.fdiv_eq_ediv_of_nonneg _ hpos.le, ih hbs, List.foldl_cons]

theorem foldl_div_bounds (h : ∀ b ∈ balances, 0 < b) (hd : 0 ≤ d) (hp : 0 ≤ p) :
    0 ≤ balances.foldl (fun p b => p * d / (b * (n : Int) + 1)) p ∧
      balances.foldl (fun p b => p * d / (b * (n : Int) + 1)) p *
        (balances.map fun b => b * (n : Int) + 1).prod ≤ p * d ^ balances.length := by
  induction balances generalizing p with
  | nil => simpa using hp
  | cons b bs ih =>
    obtain ⟨hb, hbs⟩ := List.forall_mem_cons.mp h
    have hpos : 0 < b * (n : Int) + 1 := by positivity
    have hq : 0 ≤ p * d / (b * (n : Int) + 1) := Int.ediv_nonneg (Int.mul_nonneg hp hd) hpos.le
    have hfloor : p * d / (b * (n : Int) + 1) * (b * (n : Int) + 1) ≤ p * d :=
      Int.ediv_mul_le _ hpos.ne'
    obtain ⟨h0, hle⟩ := ih hbs hq
    rw [List.foldl_cons, List.map_cons, List.prod_cons, List.length_cons]
    refine ⟨h0, ?_⟩
    generalize bs.foldl _ _ = t at h0 hle ⊢
    generalize (bs.map fun b => b * (n : Int) + 1).prod = q at hle ⊢
    calc t * ((b * (n : Int) + 1) * q) = t * q * (b * (n : Int) + 1) := by ring
      _ ≤ p * d / (b * (n : Int) + 1) * d ^ bs.length * (b * (n : Int) + 1) :=
        Int.mul_le_mul_of_nonneg_right hle hpos.le
      _ = p * d / (b * (n : Int) + 1) * (b * (n : Int) + 1) * d ^ bs.length := by ring
      _ ≤ p * d * d ^ bs.length := Int.mul_le_mul_of_nonneg_right hfloor (pow_nonneg hd _)
      _ = p * d ^ (bs.length + 1) := by ring

theorem productTerm_eq (h : ∀ b ∈ balances, 0 < b) :
    productTerm balances d = .ok (term balances d) := foldlM_div_eq h

theorem term_nonneg (h : ∀ b ∈ balances, 0 < b) (hd : 0 ≤ d) : 0 ≤ term balances d :=
  (foldl_div_bounds h hd hd).1

theorem term_mul_divisor_le (h : ∀ b ∈ balances, 0 < b) (hd : 0 ≤ d) :
    term balances d * divisor balances ≤ d ^ (balances.length + 1) := by
  rw [pow_succ']
  exact (foldl_div_bounds h hd hd).2

end Term

/-- With nothing to refuse, a step divides the one side of the curve's tangent by the other. -/
theorem newtonStep_eq (h : ∀ b ∈ balances, 0 < b) (ha : 0 < ampPrecision)
    (hl : ampPrecision ≤ leverage) :
    newtonStep leverage ampPrecision balances d =
      Checked.div
        ((leverage * total balances / ampPrecision + term balances d * balances.length) * d)
        ((leverage - ampPrecision) * d / ampPrecision +
          term balances d * (balances.length + 1)) := by
  unfold newtonStep
  rw [productTerm_eq h]
  simp only [ok_bind, Checked.sub_eq_ok.mpr ⟨hl, rfl⟩, Checked.div_eq_ok.mpr ⟨ha.ne', rfl⟩,
    Int.fdiv_eq_ediv_of_nonneg _ ha.le]

theorem le_slope (ha : 0 < ampPrecision) (hl : 2 * ampPrecision ≤ leverage) (hd : 0 ≤ d) :
    d ≤ (leverage - ampPrecision) * d / ampPrecision := by
  rw [Int.le_ediv_iff_mul_le ha, Int.mul_comm]
  exact Int.mul_le_mul_of_nonneg_right (by omega) hd

/-- `d` falls short of the solution by less than two. -/
def Reaches (s : Shape) (balances : List Int) (d : Int) : Prop :=
  ∀ g, Within s balances g → g ≤ d + 1

section Step

/-- What the linear part of the step has over `g - 1`, rounding included. -/
theorem linear_part_le (h : Sound s balances) (hd : 0 ≤ d) (hg1 : 1 ≤ g)
    (hg : Within s balances g) : d * g ^ (balances.length + 1) ≤ divisor balances *
      (s.amp * balances.length * total balances / s.ampPrecision * d -
        (g - 1) * ((s.amp * balances.length - s.ampPrecision) * d / s.ampPrecision)) := by
  have ha := h.parts
  have hl := h.amplified
  have hweighted := Int.lt_ediv_add_one_mul_self (s.amp * balances.length * total balances) ha
  have hslope := Int.ediv_mul_le ((s.amp * balances.length - s.ampPrecision) * d) ha.ne'
  unfold Within at hg
  generalize s.amp * balances.length = leverage at *
  generalize leverage * total balances / s.ampPrecision = weighted at *
  generalize (leverage - s.ampPrecision) * d / s.ampPrecision = slope at *
  refine Int.le_of_mul_le_mul_left ?_ ha
  have hlow : (leverage * total balances - (leverage - s.ampPrecision) * g) * d ≤
      s.ampPrecision * (weighted * d - (g - 1) * slope) := by
    have hw := Int.mul_le_mul_of_nonneg_right (Int.le_sub_one_of_lt hweighted) hd
    have hs := Int.mul_le_mul_of_nonneg_left hslope (show 0 ≤ g - 1 by omega)
    have hspare := Int.mul_nonneg (show 0 ≤ leverage - 2 * s.ampPrecision + 1 by omega) hd
    linarith
  calc s.ampPrecision * (d * g ^ (balances.length + 1))
      = s.ampPrecision * g ^ (balances.length + 1) * d := by ring
    _ ≤ (leverage * total balances - (leverage - s.ampPrecision) * g) * divisor balances * d :=
        Int.mul_le_mul_of_nonneg_right (by linarith) hd
    _ = divisor balances * ((leverage * total balances - (leverage - s.ampPrecision) * g) * d) := by
        ring
    _ ≤ divisor balances * (s.ampPrecision * (weighted * d - (g - 1) * slope)) :=
        Int.mul_le_mul_of_nonneg_left hlow (divisor_pos h.positive).le
    _ = s.ampPrecision * (divisor balances * (weighted * d - (g - 1) * slope)) := by ring

/-- What the product term takes from that, as the power lies above its tangent at `d`. -/
theorem product_part_le (h : ∀ b ∈ balances, 0 < b) (hd : 0 ≤ d) (hg1 : 1 ≤ g) :
    divisor balances * (term balances d *
        ((g - 1) * (balances.length + 1) - balances.length * d)) ≤
      d * g ^ (balances.length + 1) := by
  have hq := divisor_pos h
  have hp := term_nonneg h hd
  have hbound := term_mul_divisor_le h hd
  have htangent := Mean.tangent_le (show 0 ≤ g by omega) hd balances.length
  by_cases hsign : (g - 1) * ((balances.length : Int) + 1) ≤ balances.length * d
  · have hneg := Int.mul_nonneg hq.le (Int.mul_nonneg hp (Int.sub_nonneg_of_le hsign))
    have hpos : 0 ≤ d * g ^ (balances.length + 1) := by positivity
    linarith
  · have hgap : 0 ≤ (g - 1) * ((balances.length : Int) + 1) - balances.length * d := by omega
    have hpow : 0 ≤ ((balances.length : Int) + 1) * d ^ balances.length := by positivity
    calc divisor balances * (term balances d *
          ((g - 1) * (balances.length + 1) - balances.length * d))
        = term balances d * divisor balances *
          ((g - 1) * (balances.length + 1) - balances.length * d) := by ring
      _ ≤ d ^ (balances.length + 1) * ((g - 1) * (balances.length + 1) - balances.length * d) :=
          Int.mul_le_mul_of_nonneg_right hbound hgap
      _ = d * ((balances.length + 1) * g * d ^ balances.length -
          balances.length * d ^ (balances.length + 1) -
            (balances.length + 1) * d ^ balances.length) := by ring
      _ ≤ d * g ^ (balances.length + 1) := Int.mul_le_mul_of_nonneg_left (by linarith) hd

/-- One step from anywhere above zero. -/
theorem newtonStep_reaches (h : Sound s balances) (hd : 0 < d) :
    ∃ d', newtonStep (s.amp * balances.length) s.ampPrecision balances d = .ok d' ∧
      Reaches s balances d' := by
  have ha := h.parts
  have hslope := le_slope ha h.amplified hd.le
  have hp := term_nonneg h.positive hd.le
  have hn : 0 ≤ term balances d * (balances.length + 1) := by positivity
  have hden : 0 < (s.amp * balances.length - s.ampPrecision) * d / s.ampPrecision +
      term balances d * (balances.length + 1) := by omega
  rw [newtonStep_eq h.positive ha (by have := h.amplified; omega)]
  refine ⟨_, Checked.div_eq_ok.mpr ⟨hden.ne', rfl⟩, ?_⟩
  intro g hg
  rw [Int.fdiv_eq_ediv_of_nonneg _ hden.le, ← sub_le_iff_le_add, Int.le_ediv_iff_mul_le hden]
  by_cases hg1 : 1 ≤ g
  · have hlinear := linear_part_le h hd.le hg1 hg
    have hproduct := product_part_le h.positive hd.le hg1
    have hq := divisor_pos h.positive
    refine Int.le_of_sub_nonneg (nonneg_of_mul_nonneg_right ?_ hq)
    linarith
  · have hweighted : 0 ≤ s.amp * balances.length * total balances / s.ampPrecision :=
      Int.ediv_nonneg (Int.mul_nonneg h.leverage_pos.le (total_nonneg h.positive)) ha.le
    have hneg := Int.mul_nonneg (show 0 ≤ 1 - g by omega) hden.le
    have hnum : 0 ≤ (s.amp * balances.length * total balances / s.ampPrecision +
        term balances d * balances.length) * d := by positivity
    linarith

end Step

theorem Reaches.pos (h : Sound s balances) (hr : Reaches s balances d) : 0 < d := by
  have := hr 2 h.within_two
  omega

theorem total_reaches (h : Sound s balances) : Reaches s balances (total balances) := by
  intro g hg
  have := h.le_total hg
  omega

/-- Any number of steps. -/
theorem newton_reaches (h : Sound s balances) (steps : Nat) (hr : Reaches s balances d) :
    ∃ d', newton (s.amp * balances.length) s.ampPrecision balances steps d = .ok d' ∧
      Reaches s balances d' := by
  induction steps generalizing d with
  | zero => exact ⟨d, rfl, hr⟩
  | succ steps ih =>
    obtain ⟨d', hstep, hr'⟩ := newtonStep_reaches h (hr.pos h)
    unfold newton
    rw [hstep, ok_bind]
    split
    · exact ⟨d', rfl, hr'⟩
    · exact ih hr'

/-- The invariant of a pool with something of each asset is what the search comes to. -/
theorem invariant_of_newton (hn : 2 ≤ balances.length) (hb : ∀ b ∈ balances, 0 < b)
    (hrun : newton (s.amp * balances.length) s.ampPrecision balances s.maxIterations.toNat
      (total balances) = .ok d) : invariant s balances = Width.uint128.check d := by
  have hfull : balances.any Operand.isZero = false := by
    rw [List.any_eq_false]
    intro b hmem
    simpa using (hb b hmem).ne'
  unfold invariant
  simp only [Nat.not_lt.mpr hn, hfull, if_false, Operand.mapM_strict_int, Operand.strict_int,
    Operand.count_int, ok_bind, hrun, Bool.false_eq_true]

theorem invariant_eq (h : Sound s balances) :
    ∃ d, newton (s.amp * balances.length) s.ampPrecision balances s.maxIterations.toNat
        (total balances) = .ok d ∧
      Reaches s balances d ∧ invariant s balances = Width.uint128.check d := by
  obtain ⟨d, hd, hr⟩ := newton_reaches h s.maxIterations.toNat (total_reaches h)
  exact ⟨d, hd, hr, invariant_of_newton h.count h.positive hd⟩

theorem invariant_reaches (h : Sound s balances) (hd : invariant s balances = .ok d) :
    Reaches s balances d := by
  obtain ⟨e, -, hr, he⟩ := invariant_eq h
  rw [he] at hd
  obtain ⟨-, -, rfl⟩ := Width.check_eq_ok.mp hd
  exact hr

theorem Reaches.pow_mul_prod_lt (h : Sound s balances) (hr : Reaches s balances d) :
    (balances.length : Int) ^ balances.length * balances.prod < (d + 2) ^ balances.length := by
  by_contra hle
  have hpos := hr.pos h
  have := hr (d + 2) (h.within_of_pow_le (by omega) (Int.not_lt.mp hle))
  omega

/-- The invariant falls short of the geometric mean of the balances, times their number, by less
than two. No step is refused, from whatever number it starts, and the invariant only fails to be
given where it is too large for its word, which a caller is told if it can be written. -/
theorem invariant_not_understated (s : Shape) (balances : List Int) (hn : 2 ≤ balances.length)
    (hb : ∀ b ∈ balances, 0 < b) (ha : 1 ≤ s.ampPrecision)
    (hl : 2 * s.ampPrecision ≤ s.amp * balances.length) :
    (∀ d, 0 < d → ∃ d', newtonStep (s.amp * balances.length) s.ampPrecision balances d = .ok d' ∧
      0 < d' ∧ (balances.length : Int) ^ balances.length * balances.prod <
        (d' + 2) ^ balances.length) ∧
    ∃ d, newton (s.amp * balances.length) s.ampPrecision balances s.maxIterations.toNat
        (total balances) = .ok d ∧
      1 ≤ d ∧ (balances.length : Int) ^ balances.length * balances.prod <
        (d + 2) ^ balances.length ∧
      told (invariant s balances) =
        if d < Width.uint128.limit then .ok d
        else .error (if Text.isOverlong d then .figureTooLong else .oversizedWord .uint128 d) := by
  have h : Sound s balances := ⟨hn, hb, ha, hl⟩
  constructor
  · intro d hd
    obtain ⟨d', hstep, hr⟩ := newtonStep_reaches h hd
    exact ⟨d', hstep, hr.pos h, hr.pow_mul_prod_lt h⟩
  · obtain ⟨d, hrun, hr, hinv⟩ := invariant_eq h
    refine ⟨d, hrun, hr.pos h, hr.pow_mul_prod_lt h, ?_⟩
    rw [hinv, Width.told_check_of_nonneg (hr.pos h).le]

/-- Four assets between which the search has not settled after all of its steps, and two that
are worth more than a word holds. -/
theorem invariant_not_understated_unsettled :
    (told (invariant (.usual (50 : Int)) [(1222261 : Int), 2670901, 2, 4]) = .ok 1632912 ∧
      (4 : Int) ^ 4 * [(1222261 : Int), 2670901, 2, 4].prod < (1632912 + 2) ^ 4) ∧
    ∃ d, told (invariant (.usual (100 : Int)) [(2 : Int) ^ 127, 2 ^ 127 + 1]) =
      .error (.oversizedWord .uint128 d) := by
  obtain ⟨-, d, hrun, -, hlt, hinv⟩ := invariant_not_understated (.usual 50)
    [1222261, 2670901, 2, 4] (by decide) (by decide) (by decide) (by decide)
  obtain ⟨-, d', hrun', -, -, hinv'⟩ := invariant_not_understated (.usual 100)
    [2 ^ 127, 2 ^ 127 + 1] (by decide) (by decide) (by decide) (by decide)
  have hd : newton (50 * 4) (100 : Int) [1222261, 2670901, 2, 4] 32
      (total [1222261, 2670901, 2, 4]) = .ok 1632912 := by decide +kernel
  have hd' : newton (100 * 2) (100 : Int) [2 ^ 127, 2 ^ 127 + 1] 32
      (total [2 ^ 127, 2 ^ 127 + 1]) = .ok (2 ^ 128 + 1) := by decide +kernel
  obtain rfl := Except.ok.inj (hrun.symm.trans hd)
  obtain rfl := Except.ok.inj (hrun'.symm.trans hd')
  rw [if_neg (by decide), if_neg (by decide +kernel)] at hinv'
  exact ⟨⟨hinv, hlt⟩, _, hinv'⟩

/-- A balance of as many digits as can be written. -/
def longBalance : Int := (9 * Text.tenTo 4299 : Nat)

/-- The invariant of two such balances has a digit more, and no caller is told that it is too
large. -/
theorem invariant_misreported :
    Sound (.usual 100) [longBalance, longBalance] ∧
      told (invariant (.usual (100 : Int)) [longBalance, longBalance]) = .error .figureTooLong ∧
      Fault.figureTooLong.kind = .badValue := by
  have hpos : 0 < longBalance := by decide +kernel
  have hsquare : ((Text.tenTo Text.digitLimit : Int) + 2) ^ 2 ≤
      2 ^ 2 * (longBalance * longBalance) := by decide +kernel
  have h : Sound (.usual 100) [longBalance, longBalance] :=
    ⟨le_rfl, by simp [hpos], by decide, by decide⟩
  obtain ⟨d, -, hr, hinv⟩ := invariant_eq h
  have hd := hr.pos h
  have hlt : 2 ^ 2 * (longBalance * longBalance) < (d + 2) ^ 2 := by
    simpa using hr.pow_mul_prod_lt h
  have hlarge := lt_of_pow_lt_pow_left₀ 2 (by omega) (hsquare.trans_lt hlt)
  have hlong : Text.isOverlong d = true := Text.isOverlong_eq_true.mpr (by omega)
  have hwide : ¬ d < Width.uint128.limit := by
    intro hw
    rw [Text.isOverlong_of_word hd.le hw] at hlong
    cases hlong
  refine ⟨h, ?_, rfl⟩
  rw [hinv, Width.told_check_of_nonneg hd.le, if_neg hwide, if_pos hlong]

end Liquidity.Stable
