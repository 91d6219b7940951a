import Mathlib.Data.Nat.Sqrt
import Mathlib.Tactic.Zify
import Liquidity.Proofs.Numeric.Descent
import Liquidity.Proofs.Numeric.Ratio
import Liquidity.Proofs.Reported

/-! The descent ends in the floored root, from its start as from any number that is not below the
root. So the root of every degree is the same function of the degree, however it is found. -/

namespace Liquidity.Root
set_option autoImplicit false

open Outcome

variable {n v r k : Nat}

def IsFloor (n v r : Nat) : Prop := r ^ n ≤ v ∧ v < (r + 1) ^ n

theorem IsFloor.le (h : IsFloor n v r) (hk : k ^ n ≤ v) : k ≤ r := by
  by_contra hr
  have hp : (r + 1) ^ n ≤ k ^ n := Nat.pow_le_pow_left (by omega) n
  have := h.2
  omega

theorem IsFloor.of_greatest (hr : r ^ n ≤ v) (hm : ∀ k, k ^ n ≤ v → k ≤ r) : IsFloor n v r := by
  refine ⟨hr, ?_⟩
  by_contra hv
  have := hm (r + 1) (by omega)
  omega

theorem IsFloor.unique {s : Nat} (hr : IsFloor n v r) (hs : IsFloor n v s) : r = s :=
  Nat.le_antisymm (hs.le hr.1) (hr.le hs.1)

/-- The descent keeps at or above every number whose power fits, and so ends at the root. -/
theorem descend_isFloor (hn : 0 < n) (hr : ∀ k, k ^ n ≤ v → k ≤ r) :
    IsFloor n v (descend n v r) := by
  obtain ⟨gs, h⟩ := exists_descent n v r
  exact .of_greatest (h.last_pow_le hn) fun k hk => h.le hn hk (hr k hk) _ h.last_mem

theorem lt_start_pow (hn : 0 < n) (v : Nat) : v < start n v ^ n := by
  have hdiv : Nat.log2 v + 1 ≤ (Nat.log2 v + 1 + n - 1) / n * n := by
    have hd := Nat.div_add_mod (Nat.log2 v + 1 + n - 1) n
    have hm := Nat.mod_lt (Nat.log2 v + 1 + n - 1) hn
    rw [Nat.mul_comm] at hd
    omega
  calc v < 2 ^ (Nat.log2 v + 1) := Nat.lt_log2_self
    _ ≤ 2 ^ ((Nat.log2 v + 1 + n - 1) / n * n) := Nat.pow_le_pow_right (by omega) hdiv
    _ = start n v ^ n := by rw [start, Nat.pow_eq, ← Nat.pow_mul]

theorem descend_start_isFloor (hn : 0 < n) (v : Nat) :
    IsFloor n v (descend n v (start n v)) := by
  refine descend_isFloor hn fun k hk => ?_
  by_contra hlt
  have hp : start n v ^ n ≤ k ^ n := Nat.pow_le_pow_left (by omega) n
  have := lt_start_pow hn v
  omega

theorem floor_isFloor (hn : 0 < n) (v : Nat) : IsFloor n v (floor n v) := by
  unfold floor
  split
  · rename_i h
    rcases h with rfl | hv
    · exact ⟨by simp, by simp⟩
    · have h01 : v = 0 ∨ v = 1 := by omega
      rcases h01 with rfl | rfl
      · exact ⟨by simp [Nat.ne_of_gt hn], by simp⟩
      · exact ⟨by simp, Nat.one_lt_pow (by omega) (by omega)⟩
  · rename_i h
    split
    · rename_i hlog
      refine ⟨by rw [Nat.one_pow]; omega, ?_⟩
      exact (Nat.log2_lt (by omega)).mp hlog
    · exact descend_start_isFloor hn v

theorem floor_eq_descend (hn : 0 < n) (v : Nat) : floor n v = descend n v (start n v) :=
  (floor_isFloor hn v).unique (descend_start_isFloor hn v)

theorem floor_one (v : Nat) : floor 1 v = v := rfl

theorem floor_two (v : Nat) : floor 2 v = Nat.sqrt v :=
  (floor_isFloor (by omega) v).unique ⟨Nat.sqrt_le' v, Nat.lt_succ_sqrt' v⟩

theorem sqrt_eq_ok {a s : Int} : sqrt a = .ok s ↔
    0 ≤ a ∧ a < Width.uint256.limit ∧ 0 ≤ s ∧ s * s ≤ a ∧ a < (s + 1) * (s + 1) := by
  have hf := floor_isFloor (n := 2) (by omega) a.toNat
  unfold sqrt
  simp only [map_eq_ok, Width.check_eq_ok]
  constructor
  · rintro ⟨w, ⟨h0, hw, rfl⟩, rfl⟩
    obtain ⟨hle, hlt⟩ := hf
    rw [Nat.pow_two] at hle hlt
    refine ⟨h0, hw, Int.natCast_nonneg _, ?_, ?_⟩ <;> zify at hle hlt <;> omega
  · rintro ⟨h0, hw, hs, hle, hlt⟩
    refine ⟨a, ⟨h0, hw, rfl⟩, ?_⟩
    have hroot : IsFloor 2 a.toNat s.toNat := by
      constructor
      · rw [Nat.pow_two]; zify; rw [Int.toNat_of_nonneg hs, Int.toNat_of_nonneg h0]; exact hle
      · rw [Nat.pow_two]; zify; rw [Int.toNat_of_nonneg hs, Int.toNat_of_nonneg h0]; exact hlt
    rw [hf.unique hroot, Int.toNat_of_nonneg hs]

theorem sqrt_ne_divisionByZero (a : Int) (x : Json) : sqrt a ≠ .error (.divisionByZero x) := by
  intro h
  unfold sqrt at h
  cases hc : Width.uint256.check a with
  | ok w => simp [hc, Except.map] at h
  | error e =>
    simp only [hc, Except.map, Except.error.injEq] at h
    subst h
    exact Ratio.check_ne_divisionByZero _ _ _ hc

section Word

variable {a d : Int}

theorem root_below_one (hd : d < 1) : root a d = .error (.rootDegree d) := by
  rw [root_int, if_pos hd]

theorem told_root_outside (hd : 1 ≤ d) (ha : a < 0 ∨ Width.uint256.limit ≤ a) :
    told (root a d) = told (Width.uint256.check a) := by
  obtain ⟨_, htold, -⟩ := Width.told_check_outside ha
  obtain ⟨f, hf, -⟩ := told_eq_error.mp htold
  rw [root_int, if_neg (Int.not_lt.mpr hd), hf]
  rfl

theorem root_inside (hd : 1 ≤ d) (h0 : 0 ≤ a) (ha : a < Width.uint256.limit) :
    root a d = .ok (floor d.toNat a.toNat : Int) := by
  rw [root_int, if_neg (Int.not_lt.mpr hd), Ratio.check_of_nonneg h0, if_pos ha]
  rfl

theorem sqrt_inside (h0 : 0 ≤ a) (ha : a < Width.uint256.limit) :
    sqrt a = .ok (Nat.sqrt a.toNat : Int) := by
  unfold sqrt
  rw [Ratio.check_of_nonneg h0, if_pos ha, Except.map, floor_two]

end Word

/-- The way down to the root. No guess on it is zero, so that each step can divide by its power. -/
theorem descent_to_floor (hn : 0 < n) (hv : 0 < v) : ∃ guesses,
    Descent n v (start n v) guesses (floor n v) ∧ guesses.Pairwise (· > ·) ∧
      ∀ g ∈ guesses, 0 < g ∧ floor n v ≤ g := by
  obtain ⟨gs, h⟩ := exists_descent n v (start n v)
  rw [← floor_eq_descend hn] at h
  have hfloor := floor_isFloor hn v
  have hle : ∀ g ∈ gs, floor n v ≤ g := h.le hn hfloor.1 (h.le_first _ h.last_mem)
  have hpos : 1 ≤ floor n v := hfloor.le (by rw [Nat.one_pow]; exact hv)
  exact ⟨gs, h, h.falling, fun g hg => ⟨hpos.trans (hle g hg), hle g hg⟩⟩

/-- The root of a value of 256 bits is its floored root of every degree from one on: the value
itself, the square root, and in general what the descent comes to, over guesses that fall and are
never below the root. Other degrees are none, and other values are too wide, which a caller is told
if the value can be written. -/
theorem root_by_descent (a d : Int) :
    (d < 1 → ∃ f, told (root a d) = .error f ∧ f.kind = .badValue) ∧
    (1 ≤ d → a < 0 ∨ Width.uint256.limit ≤ a → ∃ f, told (root a d) = .error f ∧
      f.kind = if Text.isOverlong a then .badValue else .overflow) ∧
    (0 ≤ a → a < Width.uint256.limit →
      (root a (1 : Int) = .ok a ∧ root a (2 : Int) = sqrt a ∧
        sqrt a = .ok (Nat.sqrt a.toNat : Int)) ∧
      (1 ≤ d → ∃ r : Nat, root a d = .ok (r : Int) ∧ IsFloor d.toNat a.toNat r ∧
        (0 < a → ∃ guesses, Descent d.toNat a.toNat (start d.toNat a.toNat) guesses r ∧
          guesses.Pairwise (· > ·) ∧ ∀ g ∈ guesses, 0 < g ∧ r ≤ g))) := by
  refine ⟨fun hd => ?_, fun hd ha => ?_, fun h0 ha => ⟨⟨?_, ?_, ?_⟩, ?_⟩⟩
  · rw [root_below_one hd]
    refine ⟨_, rfl, ?_⟩
    rw [Fault.reported_of_figure rfl rfl]
    split <;> rfl
  · rw [told_root_outside hd ha]
    exact Width.told_check_outside ha
  · rw [root_inside (by decide) h0 ha, Int.toNat_one, floor_one, Int.toNat_of_nonneg h0]
  · rw [root_inside (by decide) h0 ha, sqrt_inside h0 ha, ← floor_two]
    rfl
  · exact sqrt_inside h0 ha
  · intro hd
    have hpos : 0 < d.toNat := by omega
    exact ⟨_, root_inside hd h0 ha, floor_isFloor hpos _,
      fun hapos => descent_to_floor hpos (by omega)⟩

/-- One short of the fifth power of five, one more than any word, and no degree at all. -/
theorem root_by_descent_fifth :
    root (3124 : Int) (5 : Int) = .ok (4 : Int) ∧
    (∃ guesses, Descent 5 3124 8 guesses 4 ∧ guesses.Pairwise (· > ·)) ∧
    (∃ f, told (root Width.uint256.limit (5 : Int)) = .error f ∧ f.kind = .overflow) ∧
    ∃ f, told (root (3124 : Int) (0 : Int)) = .error f ∧ f.kind = .badValue := by
  obtain ⟨-, -, hinside⟩ := root_by_descent 3124 5
  obtain ⟨-, hroot⟩ := hinside (by decide) (by decide)
  obtain ⟨r, hr, hfloor, hdescent⟩ := hroot (by decide)
  obtain rfl : r = 4 := hfloor.unique ⟨by decide, by decide⟩
  obtain ⟨guesses, hguesses, hfalling, -⟩ := hdescent (by decide)
  obtain ⟨-, hwide, -⟩ := root_by_descent Width.uint256.limit 5
  obtain ⟨f, hf, hkind⟩ := hwide (by decide) (.inr (Int.le_refl _))
  rw [if_neg (by decide +kernel)] at hkind
  exact ⟨hr, ⟨guesses, hguesses, hfalling⟩, ⟨f, hf, hkind⟩, (root_by_descent 3124 0).1 (by decide)⟩

/-- The product of 120 deposits of 10^36 is too wide, which nobody is told. -/
theorem overlong_root_misreported :
    Width.uint256.limit ≤ (Text.tenTo 4320 : Int) ∧
    ∃ f, told (root (Text.tenTo 4320 : Int) (120 : Int)) = .error f ∧ f.kind = .badValue ∧
      f.kind ≠ .overflow := by
  have hwide : Width.uint256.limit ≤ (Text.tenTo 4320 : Int) := by decide +kernel
  have hlong : Text.isOverlong (Text.tenTo 4320 : Int) = true := by decide +kernel
  obtain ⟨f, hf, hkind⟩ := Width.told_check_outside (.inr hwide)
  rw [if_pos hlong] at hkind
  rw [told_root_outside (by decide) (.inr hwide)]
  exact ⟨hwide, f, hf, hkind, by rw [hkind]; decide⟩

end Liquidity.Root
