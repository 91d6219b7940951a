import Mathlib.Tactic.Linarith
import Mathlib.Tactic.Ring
import Liquidity.Numeric.Root

/-! The descent to a root, one step at a time and as a whole. A step never falls below the root,
because the power lies above each of its tangents, and a step that does not descend starts from a
number whose power is already small enough. So the guesses fall, none of them is below the root,
and the last of them is no more than the root. -/

namespace Liquidity.Root
set_option autoImplicit false

section Step

variable {n v r k : Nat}

/-- The power lies above its tangent at `r`. -/
theorem tangent_le (k r : Nat) : (m : Nat) → (m + 1) * k * r ^ m ≤ k ^ (m + 1) + m * r ^ (m + 1)
  | 0 => by simp
  | m + 1 => by
    -- Times `k` the bound for `m` is short of the one for `m + 1` by a square.
    have ih := Nat.mul_le_mul_right k (tangent_le k r m)
    have hs : 2 * k * r ≤ k ^ 2 + r ^ 2 := two_mul_le_add_sq k r
    have hsq := Nat.mul_le_mul_left ((m + 1) * r ^ m) hs
    have hl : (m + 1 + 1) * k * r ^ (m + 1) + m * r ^ (m + 1) * k =
        (m + 1) * r ^ m * (2 * k * r) := by ring
    have hr : (m + 1) * r ^ m * (k ^ 2 + r ^ 2) =
        (m + 1) * k * r ^ m * k + (m + 1) * r ^ (m + 1 + 1) := by ring
    have hk : (k ^ (m + 1) + m * r ^ (m + 1)) * k = k ^ (m + 1 + 1) + m * r ^ (m + 1) * k := by
      ring
    omega

theorem le_next (hn : 0 < n) (hr : 0 < r) (hk : k ^ n ≤ v) : k ≤ next n v r := by
  obtain ⟨m, rfl⟩ := Nat.exists_eq_add_one.mpr hn
  have ht := tangent_le k r m
  unfold next
  rw [Nat.le_div_iff_mul_le hn, Nat.add_sub_cancel, Nat.pow_eq]
  by_cases hlow : k * (m + 1) ≤ m * r
  · exact Nat.le_add_right_of_le hlow
  · have hq : k * (m + 1) - m * r ≤ v / r ^ m := by
      rw [Nat.le_div_iff_mul_le (Nat.pow_pos hr), Nat.sub_mul]
      have hl : k * (m + 1) * r ^ m = (m + 1) * k * r ^ m := by ring
      have hp : m * r * r ^ m = m * r ^ (m + 1) := by ring
      omega
    omega

theorem pow_le_of_le_next (hn : 0 < n) (h : r ≤ next n v r) : r ^ n ≤ v := by
  obtain ⟨m, rfl⟩ := Nat.exists_eq_add_one.mpr hn
  unfold next at h
  rw [Nat.le_div_iff_mul_le hn, Nat.add_sub_cancel, Nat.pow_eq, Nat.mul_add_one,
    Nat.mul_comm r m] at h
  have hq : r ≤ v / r ^ m := by omega
  rw [Nat.pow_succ, Nat.mul_comm]
  exact Nat.mul_le_of_le_div _ _ _ hq

end Step

/-- A descent from a first guess, with all its guesses and the one that it ends in. -/
inductive Descent (n v : Nat) : Nat → List Nat → Nat → Prop
  | ends {r : Nat} (h : r ≤ next n v r) : Descent n v r [r] r
  | falls {r s : Nat} {gs : List Nat} (h : next n v r < r) (rest : Descent n v (next n v r) gs s) :
      Descent n v r (r :: gs) s

theorem exists_descent (n v r : Nat) : ∃ gs, Descent n v r gs (descend n v r) := by
  fun_induction descend n v r with
  | case1 r h ih =>
    obtain ⟨gs, hgs⟩ := ih
    exact ⟨r :: gs, .falls h hgs⟩
  | case2 r h => exact ⟨[r], .ends (Nat.not_lt.mp h)⟩

namespace Descent

variable {n v r s k : Nat} {gs : List Nat}

theorem last_mem (h : Descent n v r gs s) : s ∈ gs := by
  induction h with
  | ends => exact List.mem_singleton.mpr rfl
  | falls _ _ ih => exact List.mem_cons_of_mem _ ih

theorem le_first (h : Descent n v r gs s) : ∀ g ∈ gs, g ≤ r := by
  induction h with
  | ends => simp
  | falls h _ ih =>
    rw [List.forall_mem_cons]
    exact ⟨Nat.le_refl _, fun g hg => (ih g hg).trans h.le⟩

theorem falling (h : Descent n v r gs s) : gs.Pairwise (· > ·) := by
  induction h with
  | ends => exact List.pairwise_singleton _ _
  | falls h rest ih =>
    exact List.pairwise_cons.mpr ⟨fun g hg => (rest.le_first g hg).trans_lt h, ih⟩

theorem last_pow_le (hn : 0 < n) (h : Descent n v r gs s) : s ^ n ≤ v := by
  induction h with
  | ends h => exact pow_le_of_le_next hn h
  | falls _ _ ih => exact ih

/-- What is no more than the root is no more than any guess. -/
theorem le (hn : 0 < n) (hk : k ^ n ≤ v) (h : Descent n v r gs s) (hr : k ≤ r) :
    ∀ g ∈ gs, k ≤ g := by
  induction h with
  | ends => simpa using hr
  | falls _ _ ih =>
    rw [List.forall_mem_cons]
    refine ⟨hr, ih ?_⟩
    rcases Nat.eq_zero_or_pos k with rfl | hpos
    · exact Nat.zero_le _
    · exact le_next hn (by omega) hk

end Descent

end Liquidity.Root
