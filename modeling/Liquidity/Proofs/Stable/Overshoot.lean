import Liquidity.Proofs.Stable.Newton

/-! How far the search for the invariant rises above the total of the balances. Rounding takes more
from what a step divides by than from what it divides, so that a step may pass the total, where the
search starts. It passes it only from a number whose product term is small, and never comes to
three times the total. -/

namespace Liquidity.Stable
set_option autoImplicit false

open Outcome

variable {s : Shape} {balances : List Int} {leverage ampPrecision d d' r m : Int}

/-- What a run comes to where `I` holds before every step and `R` of what a step comes to. -/
theorem newton_run {I R : Int → Prop} (hI : ∀ d, I d → R d)
    (hstep : ∀ d d', I d → newtonStep leverage ampPrecision balances d = .ok d' →
      R d' ∧ (1 < Checked.absDiff d' d → I d'))
    {steps : Nat} (hd : I d) (h : newton leverage ampPrecision balances steps d = .ok r) : R r := by
  induction steps generalizing d with
  | zero =>
    cases h
    exact hI r hd
  | succ steps ih =>
    unfold newton at h
    obtain ⟨d', hd', h⟩ := bind_eq_ok.mp h
    obtain ⟨hr, hnext⟩ := hstep d d' hd hd'
    split at h
    · cases h
      exact hr
    · exact ih (hnext (Int.not_le.mp ‹_›)) h

/-- What the total weighs in a step. -/
def weighted (s : Shape) (balances : List Int) : Int :=
  s.amp * balances.length * total balances / s.ampPrecision

/-- The linear part of what a step from `d` divides by. -/
def incline (s : Shape) (balances : List Int) (d : Int) : Int :=
  (s.amp * balances.length - s.ampPrecision) * d / s.ampPrecision

theorem le_incline (h : Sound s balances) (hd : 0 ≤ d) : d ≤ incline s balances d :=
  le_slope h.parts h.amplified hd

theorem newtonStep_ok_reaches (h : Sound s balances) (hd : 0 < d)
    (hstep : newtonStep (s.amp * balances.length) s.ampPrecision balances d = .ok d') :
    Reaches s balances d' := by
  obtain ⟨_, hstep', hr⟩ := newtonStep_reaches h hd
  cases hstep.symm.trans hstep'
  exact hr

theorem total_pos (h : Sound s balances) : 0 < total balances := by
  have := h.le_total h.within_two
  omega

/-- At the total the linear part is short of the weight by the total. -/
theorem incline_total (h : Sound s balances) :
    incline s balances (total balances) = weighted s balances - total balances := by
  have hsplit : (s.amp * balances.length - s.ampPrecision) * total balances =
      s.amp * balances.length * total balances + s.ampPrecision * -total balances := by ring
  unfold incline weighted
  rw [hsplit, Int.add_mul_ediv_left _ _ h.parts.ne', Int.sub_eq_add_neg]

theorem weighted_mul_lt (h : Sound s balances) (hd : 0 ≤ d) :
    weighted s balances * d < total balances * (incline s balances d + d + 1) := by
  have ha := h.parts
  have hweight := Int.ediv_mul_le (s.amp * balances.length * total balances) ha.ne'
  have hincline :=
    Int.lt_ediv_add_one_mul_self ((s.amp * balances.length - s.ampPrecision) * d) ha
  change weighted s balances * s.ampPrecision ≤ _ at hweight
  change _ < (incline s balances d + 1) * s.ampPrecision at hincline
  refine Int.lt_of_mul_lt_mul_right ?_ ha.le
  calc weighted s balances * d * s.ampPrecision
      = weighted s balances * s.ampPrecision * d := by ring
    _ ≤ s.amp * balances.length * total balances * d := Int.mul_le_mul_of_nonneg_right hweight hd
    _ = total balances *
        ((s.amp * balances.length - s.ampPrecision) * d + s.ampPrecision * d) := by ring
    _ < total balances * ((incline s balances d + 1) * s.ampPrecision + s.ampPrecision * d) :=
        Int.mul_lt_mul_of_pos_left (by omega) (total_pos h)
    _ = total balances * (incline s balances d + d + 1) * s.ampPrecision := by ring

theorem newtonStep_sound (h : Sound s balances) (d : Int) :
    newtonStep (s.amp * balances.length) s.ampPrecision balances d =
      Checked.div ((weighted s balances + term balances d * balances.length) * d)
        (incline s balances d + term balances d * (balances.length + 1)) :=
  newtonStep_eq h.positive h.parts (by have := h.amplified; have := h.parts; omega)

/-- Where a step stays within `m`. -/
theorem newtonStep_le_iff (h : Sound s balances) (hd : 0 < d)
    (hstep : newtonStep (s.amp * balances.length) s.ampPrecision balances d = .ok d') :
    d' ≤ m ↔ (weighted s balances + term balances d * balances.length) * d <
      (m + 1) * (incline s balances d + term balances d * (balances.length + 1)) := by
  have hincline := le_incline h hd.le
  have hp := term_nonneg h.positive hd.le
  have hdiv : 0 < incline s balances d + term balances d * (balances.length + 1) := by
    have : 0 ≤ term balances d * (balances.length + 1) := by positivity
    omega
  rw [newtonStep_sound h, Checked.div_eq_ok] at hstep
  obtain ⟨-, rfl⟩ := hstep
  rw [Int.fdiv_eq_ediv_of_nonneg _ hdiv.le, ← Int.lt_add_one_iff]
  exact Int.ediv_lt_iff_lt_mul hdiv

/-- The product term at `d` is large enough to keep a step from there within the total, however
the balances are amplified. -/
def Ample (balances : List Int) (d : Int) : Prop :=
  (total balances - 1) * (d + 1) <
    term balances d * ((balances.length + 1) * (total balances + 1) - balances.length * d)

instance (balances : List Int) (d : Int) : Decidable (Ample balances d) :=
  inferInstanceAs (Decidable (_ < _))

theorem Ample.newtonStep_le (hp : Ample balances d) (h : Sound s balances) (hd : 0 < d)
    (hstep : newtonStep (s.amp * balances.length) s.ampPrecision balances d = .ok d') :
    d' ≤ total balances := by
  rw [newtonStep_le_iff h hd hstep]
  unfold Ample at hp
  have hweight := weighted_mul_lt h hd.le
  have hincline := le_incline h hd.le
  linarith

theorem newtonStep_lt_three (h : Sound s balances) (hd : 0 < d) (hlt : d < 3 * total balances)
    (hstep : newtonStep (s.amp * balances.length) s.ampPrecision balances d = .ok d') :
    d' < 3 * total balances := by
  rw [← Int.le_sub_one_iff, newtonStep_le_iff h hd hstep, Int.sub_add_cancel]
  have hweight := weighted_mul_lt h hd.le
  have hincline := le_incline h hd.le
  have hp := term_nonneg h.positive hd.le
  have hlinear : total balances * (incline s balances d + d + 1) ≤
      total balances * (3 * incline s balances d) :=
    Int.mul_le_mul_of_nonneg_left (by omega) (total_pos h).le
  have hproduct : term balances d * balances.length * d ≤
      term balances d * (balances.length + 1) * (3 * total balances) := by
    apply mul_le_mul
    · exact Int.mul_le_mul_of_nonneg_left (by omega) hp
    · exact hlt.le
    · exact hd.le
    · positivity
  linarith

/-- `r` is within the total, unless the step to it is from a number without an ample term. -/
def Accounted (s : Shape) (balances : List Int) (r : Int) : Prop :=
  r ≤ total balances ∨ ∃ e, 0 < e ∧ ¬ Ample balances e ∧
    newtonStep (s.amp * balances.length) s.ampPrecision balances e = .ok r

/-- Any number of steps from the total. -/
theorem newton_overshoot (h : Sound s balances) {steps : Nat}
    (hrun : newton (s.amp * balances.length) s.ampPrecision balances steps (total balances) =
      .ok r) : r < 3 * total balances ∧ Accounted s balances r := by
  have ht := total_pos h
  refine newton_run
    (I := fun d => Reaches s balances d ∧ d < 3 * total balances ∧ Accounted s balances d)
    (fun d hd => hd.2) ?_ ⟨total_reaches h, by omega, .inl (Int.le_refl _)⟩ hrun
  rintro d d' ⟨hr, hlt, -⟩ hstep
  have hd := hr.pos h
  have hlt' := newtonStep_lt_three h hd hlt hstep
  have haccounted : Accounted s balances d' := by
    by_cases hp : Ample balances d
    · exact .inl (hp.newtonStep_le h hd hstep)
    · exact .inr ⟨d, hd, hp, hstep⟩
  exact ⟨⟨hlt', haccounted⟩, fun _ => ⟨newtonStep_ok_reaches h hd hstep, hlt', haccounted⟩⟩

/-- What a number that is not two short of the solution has over the divisor. -/
theorem Reaches.divisor_mul_lt (hr : Reaches s balances d) (h : Sound s balances)
    (hd : d + 2 ≤ total balances) :
    divisor balances * (2 * total balances - (d + 2)) < (d + 2) ^ (balances.length + 1) := by
  have hout : ¬ Within s balances (d + 2) := fun hin => by have := hr _ hin; omega
  have hspare : 0 ≤ (s.amp * balances.length - 2 * s.ampPrecision) *
      ((total balances - (d + 2)) * divisor balances) :=
    Int.mul_nonneg (by have := h.amplified; omega)
      (Int.mul_nonneg (by omega) (divisor_pos h.positive).le)
  unfold Within at hout
  refine Int.lt_of_mul_lt_mul_left ?_ h.parts.le
  linarith

end Liquidity.Stable
