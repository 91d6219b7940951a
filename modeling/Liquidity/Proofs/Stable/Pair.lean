import Liquidity.Proofs.Stable.Overshoot

/-! The search for the invariant of two balances. It passes their total for four pools of a few
units only. From the total itself the first step stays within it, by a quadratic bound on the
divisor. A search that goes on from there is one of a lopsided pool, and from whatever number it
gets to the product term is ample: near the total since the divisor is small, and far from it
since the number is not two short of the solution. -/

namespace Liquidity.Stable
set_option autoImplicit false

open Outcome

section Product

variable {x y d : Int}

theorem total_pair (x y : Int) : total [x, y] = x + y := by simp [total]

theorem divisor_pair (x y : Int) : divisor [x, y] = (2 * x + 1) * (2 * y + 1) := by
  simp [divisor]
  ring

/-- What the two divisions of the product term round off. -/
theorem term_pair_ge {u v : Int} (hv : v = 2 * x + 1) (hu : u = 2 * y + 1) (hx : 0 < x)
    (hy : 0 < y) (hd : 0 ≤ d) :
    d ^ 3 - (v - 1) * d - (u - 1) * v ≤ term [x, y] d * (v * u) := by
  have hv' : x * (2 : Nat) + 1 = v := by push_cast; omega
  have hu' : y * (2 : Nat) + 1 = u := by push_cast; omega
  have hfirst := Int.lt_ediv_add_one_mul_self (d * d) (show 0 < v by omega)
  have hsecond := Int.lt_ediv_add_one_mul_self (d * d / v * d) (show 0 < u by omega)
  have hterm : term [x, y] d = d * d / v * d / u := by
    rw [← hv', ← hu']
    rfl
  rw [← hterm] at hsecond
  generalize d * d / v = p at hfirst hsecond
  have hrest := Int.mul_le_mul_of_nonneg_right (Int.le_sub_one_of_lt hfirst) hd
  have hwhole := Int.mul_le_mul_of_nonneg_right (Int.le_sub_one_of_lt hsecond)
    (show 0 ≤ v by omega)
  linarith

end Product

section Margin

variable {p q u v S d t : Int}

/-- A product term below `c` leaves to `c` divisors all of the power but what is rounded off. -/
theorem le_mul_divisor {c : Int} (hq : q = v * u) (hqpos : 0 < q)
    (hp : d ^ 3 - (v - 1) * d - (u - 1) * v ≤ p * q) (hlt : p < c) :
    d ^ 3 - v * (d - 1) + d ≤ c * q := by
  have hle : p * q ≤ (c - 1) * q := Int.mul_le_mul_of_nonneg_right (by omega) hqpos.le
  linarith

/-- At the total: the quadratic in `v` that a smaller term would satisfy has no root. -/
theorem le_term_at_total (hsum : u + v = 2 * S + 2) (hq : q = v * u) (hqpos : 0 < q)
    (hS : 10 ≤ S) (hp : S ^ 3 - (v - 1) * S - (u - 1) * v ≤ p * q) : S - 3 ≤ p := by
  by_contra hlt
  have hquadratic := Int.mul_le_mul_of_nonneg_left
    (le_mul_divisor hq hqpos hp (Int.not_le.mp hlt)) (show 0 ≤ 4 * (S - 3) by omega)
  have hsquare := sq_nonneg (2 * (S - 3) * v - (2 * S ^ 2 - 3 * S - 7))
  have hdiscriminant : 54 * S + 49 < 23 * S ^ 2 := by nlinarith
  obtain rfl : u = 2 * S + 2 - v := by omega
  rw [hq] at hquadratic
  linarith

/-- Close below the total of a lopsided pool. -/
theorem le_term_near (hv : v ≤ 2 * S - 1) (hq : q = v * u) (hqpos : 0 < q) (hS : 22 ≤ S)
    (ht : 1 ≤ t) (ht' : t ≤ 3) (hd : d = S - t) (hfar : (S + 1) * q < S ^ 2 * (S - 3))
    (hp : d ^ 3 - (v - 1) * d - (u - 1) * v ≤ p * q) : d - 2 - t ≤ p := by
  by_contra hlt
  have hlow := le_mul_divisor hq hqpos hp (Int.not_le.mp hlt)
  have hsmall : q ≤ (S - 1) * (S - 3) := by
    by_contra hbig
    have := Int.mul_le_mul_of_nonneg_left (show (S - 1) * (S - 3) + 1 ≤ q by omega)
      (show 0 ≤ S + 1 by omega)
    linarith
  have hq' : (d - 2 - t) * q ≤ (d - 2 - t) * ((S - 1) * (S - 3)) :=
    Int.mul_le_mul_of_nonneg_left hsmall (by omega)
  have hv' : v * (d - 1) ≤ (2 * S - 1) * (d - 1) := Int.mul_le_mul_of_nonneg_right hv (by omega)
  have hsquare : 22 * S ≤ S * S := Int.mul_le_mul_of_nonneg_right hS (by omega)
  subst hd
  obtain rfl | rfl | rfl : t = 1 ∨ t = 2 ∨ t = 3 := by omega
  · linarith
  · linarith
  · linarith

/-- Far below the total, where the divisor is small against the number: for it the smaller of its
two factors is three at least. -/
theorem le_term_far (hu : 3 ≤ u) (hv : 3 ≤ v) (hq : q = v * u) (hd : 14 ≤ d)
    (hS : 3 * d + 6 ≤ 2 * S) (hreach : q * (2 * S - (d + 2)) < (d + 2) ^ 3)
    (hp : d ^ 3 - (v - 1) * d - (u - 1) * v ≤ p * q) : d - 5 ≤ p := by
  by_contra hlt
  have hqpos : 0 < q := by rw [hq]; positivity
  have hlow := le_mul_divisor hq hqpos hp (Int.not_le.mp hlt)
  have hfactor : 3 * v ≤ q := by
    rw [hq, Int.mul_comm 3]
    exact Int.mul_le_mul_of_nonneg_left hu (by omega)
  have hsquare : 2 * q < (d + 2) ^ 2 := by
    refine Int.lt_of_mul_lt_mul_right (a := d + 2) ?_ (by omega)
    have := Int.mul_le_mul_of_nonneg_left (show 2 * (d + 2) ≤ 2 * S - (d + 2) by omega) hqpos.le
    linarith
  have hv' := Int.mul_le_mul_of_nonneg_right hfactor (show 0 ≤ d - 1 by omega)
  have hq' := Int.mul_le_mul_of_nonneg_right hsquare.le (show 0 ≤ 4 * d - 16 by omega)
  have hcube : 0 ≤ d ^ 3 := by positivity
  linarith

/-- In between, where the number is some way below the total. -/
theorem le_term_between (hv : v ≤ 2 * S - 1) (hq : q = v * u) (hqpos : 0 < q) (hd : 14 ≤ d)
    (hS : d + 4 ≤ S) (hS' : 2 * S < 3 * d + 6)
    (hreach : q * (2 * S - (d + 2)) < (d + 2) ^ 3)
    (hp : d ^ 3 - (v - 1) * d - (u - 1) * v ≤ p * q) : d - 5 ≤ p := by
  by_contra hlt
  have hv' : v * (d - 1) ≤ (2 * S - 1) * (d - 1) := Int.mul_le_mul_of_nonneg_right hv (by omega)
  have hlow : d ^ 3 - (2 * S - 1) * (d - 1) + d ≤ (d - 5) * q := by
    have := le_mul_divisor hq hqpos hp (Int.not_le.mp hlt)
    linarith
  have hlow' := Int.mul_le_mul_of_nonneg_right hlow (show 0 ≤ 2 * S - (d + 2) by omega)
  have hhigh := Int.mul_lt_mul_of_pos_left hreach (show 0 < d - 5 by omega)
  obtain ⟨k, rfl⟩ : ∃ k, S = d + 4 + k := ⟨S - d - 4, by omega⟩
  have hk : 0 ≤ k := by omega
  -- What is left over is `d` times a polynomial without a root from here on.
  have hcube : 0 ≤ (2 * k + 3) * d ^ 2 * (d - 14) :=
    Int.mul_nonneg (by positivity) (by omega)
  have hsquare : 0 ≤ k * d * (d - (2 * k + 3)) :=
    Int.mul_nonneg (Int.mul_nonneg hk (by omega)) (by omega)
  have hproduct : 0 ≤ k * d * (d - 14) := Int.mul_nonneg (Int.mul_nonneg hk (by omega)) (by omega)
  have hrest : 0 ≤ d * (d - 14) := Int.mul_nonneg (by omega) (by omega)
  linarith [Int.mul_nonneg hk hk, Int.mul_nonneg hk (show 0 ≤ d by omega)]

/-- A number that is far below a total of some size is of some size itself. -/
theorem le_of_reaches (hsum : u + v = 2 * S + 2) (hu : 3 ≤ u) (hv : 3 ≤ v) (hS : 22 ≤ S)
    (hd : 0 < d) (hreach : v * u * (2 * S - (d + 2)) < (d + 2) ^ 3) : 14 ≤ d := by
  by_contra hlt
  have hq : 6 * S - 3 ≤ v * u := by
    have := Int.mul_nonneg (show 0 ≤ v - 3 by omega) (show 0 ≤ u - 3 by omega)
    linarith
  have hlow : 129 * 29 ≤ v * u * (2 * S - (d + 2)) :=
    mul_le_mul (by omega) (by omega) (by decide) (by omega)
  have hhigh : (d + 2) ^ 3 ≤ 15 ^ 3 := pow_le_pow_left₀ (by omega) (by omega) 3
  omega

theorem margin_near (hS : 22 ≤ S) (ht : 1 ≤ t) (ht' : t ≤ 3) (hd : d = S - t)
    (hp : d - 2 - t ≤ p) : (S - 1) * (d + 1) < p * (3 * (S + 1) - 2 * d) := by
  have hle := Int.mul_le_mul_of_nonneg_right hp (show 0 ≤ 3 * (S + 1) - 2 * d by omega)
  subst hd
  obtain rfl | rfl | rfl : t = 1 ∨ t = 2 ∨ t = 3 := by omega
  · linarith
  · linarith
  · linarith

theorem margin_far (hd : 14 ≤ d) (hS : d + 4 ≤ S) (hp : d - 5 ≤ p) :
    (S - 1) * (d + 1) < p * (3 * (S + 1) - 2 * d) := by
  have hle := Int.mul_le_mul_of_nonneg_right hp (show 0 ≤ 3 * (S + 1) - 2 * d by omega)
  have hspare := Int.mul_nonneg (show 0 ≤ d - 14 by omega) (show 0 ≤ S - d - 4 by omega)
  linarith

end Margin

section Step

variable {s : Shape} {balances : List Int} {x y d d' r : Int}

/-- The divisor is small against the total. -/
def Lopsided (x y : Int) : Prop :=
  (x + y + 1) * divisor [x, y] < (x + y) ^ 2 * (x + y - 3)

instance (x y : Int) : Decidable (Lopsided x y) := inferInstanceAs (Decidable (_ < _))

/-- Where a search from the total of such a pool can get to below it: not two short of the
solution. -/
structure Below (x y d : Int) : Prop where
  positive : 0 < x ∧ 0 < y ∧ 0 < d
  lopsided : Lopsided x y
  lt_total : d < x + y
  reaches : d + 2 ≤ x + y → divisor [x, y] * (2 * (x + y) - (d + 2)) < (d + 2) ^ 3

instance (x y d : Int) : Decidable (Below x y d) :=
  decidable_of_iff ((0 < x ∧ 0 < y ∧ 0 < d) ∧ Lopsided x y ∧ d < x + y ∧
    (d + 2 ≤ x + y → divisor [x, y] * (2 * (x + y) - (d + 2)) < (d + 2) ^ 3))
    ⟨fun ⟨hpos, h, hlt, hr⟩ => ⟨hpos, h, hlt, hr⟩, fun ⟨hpos, h, hlt, hr⟩ => ⟨hpos, h, hlt, hr⟩⟩

/-- Pools of a few units that one step may lift above their total. -/
def dust : List (List Int) := [[1, 1], [1, 2], [2, 1], [5, 3]]

theorem ample_pair : Ample [x, y] d ↔
    (x + y - 1) * (d + 1) < term [x, y] d * (3 * (x + y + 1) - 2 * d) := by
  unfold Ample
  rw [total_pair]
  rfl

/-- What is left below the sizes that the estimates need. -/
theorem ample_small : ∀ x : Nat, x < 22 → ∀ y : Nat, y < 22 - x → ∀ d : Nat, d < x + y →
    Below x y d → Ample [(x : Int), y] d := by
  decide +kernel

theorem Below.ample (h : Below x y d) : Ample [x, y] d := by
  obtain ⟨hx, hy, hd⟩ := h.positive
  have hlt := h.lt_total
  by_cases hsmall : x + y < 22
  · lift x to Nat using hx.le
    lift y to Nat using hy.le
    lift d to Nat using hd.le
    exact ample_small x (by omega) y (by omega) d (by omega) h
  · obtain ⟨v, hv⟩ : ∃ v, v = 2 * x + 1 := ⟨_, rfl⟩
    obtain ⟨u, hu⟩ : ∃ u, u = 2 * y + 1 := ⟨_, rfl⟩
    have hdivisor : divisor [x, y] = v * u := by rw [divisor_pair, hv, hu]
    have hq : 0 < v * u := Int.mul_pos (by omega) (by omega)
    have hterm := term_pair_ge hv hu hx hy hd.le
    have hfar := h.lopsided
    have hreach := h.reaches
    unfold Lopsided at hfar
    rw [hdivisor] at hfar hreach
    rw [ample_pair]
    -- Up to three below the total the reach says little or nothing, and the small divisor is enough.
    by_cases hnear : x + y ≤ d + 3
    · have hp := le_term_near (S := x + y) (by omega) rfl hq (by omega)
        (show 1 ≤ x + y - d by omega) (by omega) (by omega) hfar hterm
      exact margin_near (by omega) (by omega) (by omega) (by omega) hp
    · have hd14 : 14 ≤ d :=
        le_of_reaches (by omega) (by omega) (by omega) (by omega) hd (hreach (by omega))
      have hp : d - 5 ≤ term [x, y] d := by
        by_cases hmid : 2 * (x + y) < 3 * d + 6
        · exact le_term_between (by omega) rfl hq hd14 (by omega) hmid (hreach (by omega)) hterm
        · exact le_term_far (by omega) (by omega) rfl hd14 (by omega) (hreach (by omega)) hterm
      exact margin_far hd14 (by omega) hp

theorem first_small : ∀ x : Nat, x < 10 → ∀ y : Nat, y < 10 - x →
    0 < x ∧ 0 < y ∧ [(x : Int), y] ∉ dust →
    (x + y : Int) ^ 2 - (x + y) < term [(x : Int), y] (x + y) * (x + y + 3) := by
  decide +kernel

theorem first_ample (hx : 0 < x) (hy : 0 < y) (hdust : [x, y] ∉ dust) :
    (x + y) ^ 2 - (x + y) < term [x, y] (x + y) * (x + y + 3) := by
  by_cases hsmall : x + y < 10
  · lift x to Nat using hx.le
    lift y to Nat using hy.le
    exact first_small x (by omega) y (by omega) ⟨by omega, by omega, hdust⟩
  · have hq : 0 < (2 * x + 1) * (2 * y + 1) := Int.mul_pos (by omega) (by omega)
    have hterm := term_pair_ge (d := x + y) rfl rfl hx hy (by omega)
    have hp := le_term_at_total (S := x + y) (by ring) rfl hq (by omega) hterm
    have hle := Int.mul_le_mul_of_nonneg_right hp (show 0 ≤ x + y + 3 by omega)
    linarith

/-- At the total the weight is twice the total or more. -/
theorem two_total_le_weighted (h : Sound s balances) :
    2 * total balances ≤ weighted s balances := by
  have hincline := le_incline h (total_pos h).le
  rw [incline_total h] at hincline
  omega

theorem first_step_le_iff {m : Int} (h : Sound s [x, y])
    (hstep : newtonStep (s.amp * [x, y].length) s.ampPrecision [x, y] (x + y) = .ok d') :
    d' ≤ m ↔ (weighted s [x, y] + term [x, y] (x + y) * 2) * (x + y) <
      (m + 1) * (weighted s [x, y] - (x + y) + term [x, y] (x + y) * 3) := by
  have hS := total_pos h
  have hincline := incline_total h
  rw [total_pair] at hS hincline
  rw [newtonStep_le_iff h hS hstep, hincline]
  rfl

theorem first_step_le (h : Sound s [x, y]) (hdust : [x, y] ∉ dust)
    (hstep : newtonStep (s.amp * [x, y].length) s.ampPrecision [x, y] (x + y) = .ok d') :
    d' ≤ x + y := by
  obtain ⟨hx, hy⟩ : 0 < x ∧ 0 < y := by simpa using h.positive
  have hp := first_ample hx hy hdust
  have hweight := two_total_le_weighted h
  rw [total_pair] at hweight
  rw [first_step_le_iff h hstep]
  linarith

theorem lopsided_of_first_step (h : Sound s [x, y])
    (hstep : newtonStep (s.amp * [x, y].length) s.ampPrecision [x, y] (x + y) = .ok d')
    (hd' : d' ≤ x + y - 2) : Lopsided x y := by
  have hS := total_pos h
  have hweight := two_total_le_weighted h
  rw [total_pair] at hS hweight
  have hp := term_nonneg h.positive hS.le
  have hbound : term [x, y] (x + y) * divisor [x, y] ≤ (x + y) ^ 3 :=
    term_mul_divisor_le h.positive hS.le
  have hq := divisor_pos h.positive
  rw [first_step_le_iff h hstep] at hd'
  unfold Lopsided
  generalize term [x, y] (x + y) = p at *
  generalize divisor [x, y] = q at *
  generalize x + y = S at *
  have hsquare : S ^ 2 + S < p * (S - 3) := by linarith
  have hS3 : 0 < S - 3 := by
    by_contra hle
    have := mul_nonpos_of_nonneg_of_nonpos hp (Int.not_lt.mp hle)
    have := sq_nonneg S
    omega
  refine Int.lt_of_mul_lt_mul_left ?_ hS.le
  calc S * ((S + 1) * q) = (S ^ 2 + S) * q := by ring
    _ < p * (S - 3) * q := Int.mul_lt_mul_of_pos_right hsquare hq
    _ = p * q * (S - 3) := by ring
    _ ≤ S ^ 3 * (S - 3) := Int.mul_le_mul_of_nonneg_right hbound hS3.le
    _ = S * (S ^ 2 * (S - 3)) := by ring

theorem below_of_reaches (h : Sound s [x, y]) (hfar : Lopsided x y) (hlt : d < x + y)
    (hr : Reaches s [x, y] d) : Below x y d := by
  obtain ⟨hx, hy⟩ : 0 < x ∧ 0 < y := by simpa using h.positive
  refine ⟨⟨hx, hy, hr.pos h⟩, hfar, hlt, fun hle => ?_⟩
  rw [← total_pair x y] at hle ⊢
  exact hr.divisor_mul_lt h hle

/-- Any number of steps from the total, which a step may come back to. -/
theorem newton_pair_le (h : Sound s [x, y]) (hdust : [x, y] ∉ dust) {steps : Nat}
    (hrun : newton (s.amp * [x, y].length) s.ampPrecision [x, y] steps (x + y) = .ok r) :
    r ≤ x + y := by
  have hS := total_pos h
  rw [total_pair] at hS
  refine newton_run (R := (· ≤ x + y))
    (I := fun d => d = x + y ∨ Lopsided x y ∧ d < x + y ∧ Reaches s [x, y] d) ?_ ?_ (.inl rfl) hrun
  · rintro d (rfl | ⟨-, hlt, -⟩)
    · exact Int.le_refl _
    · exact hlt.le
  · rintro d d' (rfl | ⟨hfar, hlt, hr⟩) hstep
    · have hle := first_step_le h hdust hstep
      refine ⟨hle, fun hmoved => .inr ?_⟩
      have hfall : d' ≤ x + y - 2 := by
        unfold Checked.absDiff at hmoved
        omega
      exact ⟨lopsided_of_first_step h hstep hfall, by omega, newtonStep_ok_reaches h hS hstep⟩
    · have hd := hr.pos h
      have hle : d' ≤ total [x, y] :=
        (below_of_reaches h hfar hlt hr).ample.newtonStep_le h hd hstep
      rw [total_pair] at hle
      refine ⟨hle, fun _ => ?_⟩
      rcases Int.lt_or_eq_of_le hle with hlt' | rfl
      · exact .inr ⟨hfar, hlt', newtonStep_ok_reaches h hd hstep⟩
      · exact .inl rfl

end Step

/-- The invariant of two balances is within their total, but for four pools of a few units. That of
any number of balances is below three times their total, and where it passes the total the last
step was from a number whose product term is not ample. -/
theorem invariant_overshoot (s : Shape) (balances : List Int) (d : Int) (hn : 2 ≤ balances.length)
    (hb : ∀ b ∈ balances, 0 < b) (ha : 1 ≤ s.ampPrecision)
    (hl : 2 * s.ampPrecision ≤ s.amp * balances.length) (hd : invariant s balances = .ok d) :
    (balances.length = 2 → balances ∉ dust → d ≤ total balances) ∧
      d < 3 * total balances ∧ Accounted s balances d := by
  have h : Sound s balances := ⟨hn, hb, ha, hl⟩
  obtain ⟨r, hrun, -, hinv⟩ := invariant_eq h
  rw [hinv] at hd
  obtain ⟨-, -, rfl⟩ := Width.check_eq_ok.mp hd
  refine ⟨fun hpair hdust => ?_, newton_overshoot h hrun⟩
  obtain ⟨x, y, rfl⟩ := List.length_eq_two.mp hpair
  rw [total_pair] at hrun ⊢
  exact newton_pair_le h hdust hrun

/-- The mirror image of a pool of dust, and four assets whose invariant comes to twice their
total. -/
theorem invariant_overshoot_quadruple :
    (invariant (.usual (100 : Int)) [(3 : Int), 5] = .ok 8 ∧ (8 : Int) ≤ total [3, 5]) ∧
    invariant (.usual (50 : Int)) [(919957592 : Int), 653843436, 7, 8] = .ok 3147602086 ∧
      total [919957592, 653843436, 7, 8] < 3147602086 ∧
      (3147602086 : Int) < 3 * total [919957592, 653843436, 7, 8] ∧
      Accounted (.usual 50) [919957592, 653843436, 7, 8] 3147602086 := by
  have hpair : invariant (.usual (100 : Int)) [(3 : Int), 5] = .ok 8 := by decide +kernel
  have hfour : invariant (.usual (50 : Int)) [(919957592 : Int), 653843436, 7, 8] =
      .ok 3147602086 := by decide +kernel
  obtain ⟨hle, -⟩ := invariant_overshoot _ _ _ (by decide) (by decide) (by decide) (by decide) hpair
  obtain ⟨-, hlt, haccounted⟩ :=
    invariant_overshoot _ _ _ (by decide) (by decide) (by decide) (by decide) hfour
  exact ⟨⟨hpair, hle rfl (by decide)⟩, hfour, by decide, hlt, haccounted⟩

/-- Every pool of dust passes its total at some amplification. So do pools of more assets, however
large and close to equal their balances are, and where some are tiny by as much again. -/
theorem total_overshot :
    invariant (.usual (100 : Int)) [(2 : Int), 1] = .ok 4 ∧ total [2, 1] = 3 ∧
    invariant (.usual (100 : Int)) [(1 : Int), 2] = .ok 4 ∧
    invariant (.usual (150 : Int)) [(1 : Int), 1] = .ok 3 ∧
    invariant (.usual (100 : Int)) [(5 : Int), 3] = .ok 9 ∧
    invariant (.usual (50 : Int)) [(1000000016 : Int), 1000000002, 1000000004, 999999991] =
      .ok 4000000014 ∧ total [1000000016, 1000000002, 1000000004, 999999991] = 4000000013 ∧
    invariant (.usual (50 : Int)) [(919957592 : Int), 653843436, 7, 8] = .ok 3147602086 ∧
      total [919957592, 653843436, 7, 8] = 1573801043 := by
  decide +kernel

end Liquidity.Stable
