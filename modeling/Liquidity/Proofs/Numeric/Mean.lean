import Mathlib.Algebra.BigOperators.Group.List.Basic
import Mathlib.Tactic.Linarith
import Mathlib.Tactic.Positivity
import Mathlib.Tactic.Ring
import Liquidity.Proofs.Numeric.Root

/-! The geometric mean is at most the arithmetic one, said of whole numbers with every root and
quotient multiplied out. Like the descent to a root it rests on the tangents of a power. -/

namespace Liquidity.Mean
set_option autoImplicit false

variable {k r : Int}

/-- The power lies above its tangent at `r`. -/
theorem tangent_le (hk : 0 ≤ k) (hr : 0 ≤ r) (m : Nat) :
    (m + 1) * k * r ^ m ≤ k ^ (m + 1) + m * r ^ (m + 1) := by
  obtain ⟨k, rfl⟩ := Int.eq_ofNat_of_zero_le hk
  obtain ⟨r, rfl⟩ := Int.eq_ofNat_of_zero_le hr
  exact_mod_cast Root.tangent_le k r m

/-- Of all ways to split a number into `x` and `s`, the product `x * s ^ n` is greatest where `s` is
`n` times `x`. -/
theorem mul_pow_le_pow_add {x s : Int} (hx : 0 ≤ x) (hs : 0 ≤ s) : (n : Nat) →
    ((n : Int) + 1) ^ (n + 1) * (x * s ^ n) ≤ (n : Int) ^ n * (x + s) ^ (n + 1)
  | 0 => by
    simp
    exact hs
  | n + 1 => by
    have ht := tangent_le (k := (n + 1) * (x + s)) (r := (n + 1 + 1) * s) (by positivity)
      (by positivity) (n + 1)
    push_cast at ht ⊢
    rw [mul_pow, mul_pow, mul_pow] at ht
    refine Int.le_of_mul_le_mul_left ?_ (show (0 : Int) < n + 1 by omega)
    calc ((n : Int) + 1) * ((n + 1 + 1) ^ (n + 1 + 1) * (x * s ^ (n + 1)))
        = (n + 1 + 1) * ((n + 1) * (x + s)) * ((n + 1 + 1) ^ (n + 1) * s ^ (n + 1)) -
            (n + 1) * ((n + 1 + 1) ^ (n + 1 + 1) * s ^ (n + 1 + 1)) := by ring
      _ ≤ (n + 1) ^ (n + 1 + 1) * (x + s) ^ (n + 1 + 1) := by linarith only [ht]
      _ = (n + 1) * ((n + 1) ^ (n + 1) * (x + s) ^ (n + 1 + 1)) := by ring

theorem pow_mul_prod_le : (xs : List Int) → (∀ x ∈ xs, 0 ≤ x) →
    (xs.length : Int) ^ xs.length * xs.prod ≤ xs.sum ^ xs.length
  | [], _ => by simp
  | x :: xs, h => by
    obtain ⟨hx, hxs⟩ := List.forall_mem_cons.mp h
    have ih := pow_mul_prod_le xs hxs
    have hs : 0 ≤ xs.sum := List.sum_nonneg hxs
    have hsplit := mul_pow_le_pow_add hx hs xs.length
    have hscaled := mul_le_mul_of_nonneg_left ih
      (show 0 ≤ ((xs.length : Int) + 1) ^ (xs.length + 1) * x by positivity)
    have hpos : (0 : Int) < (xs.length : Int) ^ xs.length := by
      rcases Nat.eq_zero_or_pos xs.length with h0 | h0
      · simp [h0]
      · positivity
    rw [List.length_cons, List.prod_cons, List.sum_cons]
    push_cast
    refine Int.le_of_mul_le_mul_left ?_ hpos
    calc (xs.length : Int) ^ xs.length * (((xs.length : Int) + 1) ^ (xs.length + 1) *
          (x * xs.prod))
        = ((xs.length : Int) + 1) ^ (xs.length + 1) * x *
            ((xs.length : Int) ^ xs.length * xs.prod) := by ring
      _ ≤ ((xs.length : Int) + 1) ^ (xs.length + 1) * x * xs.sum ^ xs.length := hscaled
      _ = ((xs.length : Int) + 1) ^ (xs.length + 1) * (x * xs.sum ^ xs.length) := by ring
      _ ≤ (xs.length : Int) ^ xs.length * (x + xs.sum) ^ (xs.length + 1) := hsplit

end Liquidity.Mean
