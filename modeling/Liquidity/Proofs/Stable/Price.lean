import Mathlib.Tactic.GCongr
import Mathlib.Tactic.Positivity
import Liquidity.Stable.Price
import Liquidity.Proofs.Numeric.Quotient
import Liquidity.Proofs.Stable.Shares

/-! How far a spot price is from the bounds of decimals. It is the quotient of two numbers
whose lengths differ by little, and so its point can be moved exactly. -/

namespace Liquidity.Stable
set_option autoImplicit false

open Outcome Operand
open Decimal (Numeral numDigits)

/-- Amplifications that are counted as they should be, or else in numbers of a length far
below the greatest exponent of decimals. -/
def Moderate (amp ampPrecision : Int) : Prop :=
  (0 ≤ amp ∧ 0 ≤ ampPrecision) ∨
    (numDigits amp.natAbs ≤ 900000 ∧ numDigits ampPrecision.natAbs ≤ 900000)

section Slope

variable {amp ampPrecision d x y shared term : Int}

theorem sum_le_mul_sum {limit : Int} (hs : 0 ≤ shared) (ht : 0 ≤ term) (hx : 1 ≤ x)
    (hy : y ≤ limit) (hl : 1 ≤ limit) : shared + term * y ≤ limit * (shared + term * x) := by
  have hshared : shared ≤ limit * shared := le_mul_of_one_le_left hs hl
  have hterm : term * y ≤ limit * (term * x) := by
    calc term * y ≤ term * limit := Int.mul_le_mul_of_nonneg_left hy ht
      _ = limit * term := Int.mul_comm _ _
      _ ≤ limit * (term * x) :=
        Int.mul_le_mul_of_nonneg_left (le_mul_of_one_le_right ht hx) (by omega)
  rw [Int.mul_add]
  exact Int.add_le_add hshared hterm

/-- Where nothing is negative, the two sides of the slope differ by the greatest balance as a
factor at most. -/
theorem numDigits_sum_le (hs : 0 ≤ shared) (ht : 0 ≤ term) (hx : 0 < x) (hy0 : 0 < y)
    (hy : y ≤ 10 ^ 39) : numDigits (shared + term * y).natAbs ≤
      numDigits (shared + term * x).natAbs + 39 := by
  apply Decimal.numDigits_le_add
  have hle := sum_le_mul_sum hs ht hx hy (by decide)
  have hterm : ∀ z, 0 < z → 0 ≤ shared + term * z := fun z hz =>
    Int.add_nonneg hs (Int.mul_nonneg ht hz.le)
  have hnum := hterm y hy0
  have hden := hterm x hx
  omega

theorem numDigits_side_le {e : Nat} (ha : numDigits amp.natAbs ≤ e)
    (hp : numDigits ampPrecision.natAbs ≤ e) (hd : d.natAbs ≤ 10 ^ 39) (hx : x.natAbs ≤ 10 ^ 39)
    (hy : y.natAbs ≤ 10 ^ 39) {z : Int} (hz : z.natAbs ≤ 10 ^ 39) :
    numDigits (4 * amp * 2 * x * x * y * y + ampPrecision * (d * d * d) * z).natAbs ≤ e + 157 := by
  have hpow : ∀ n : Nat, numDigits n ≤ e → n ≤ 10 ^ e := fun n hn =>
    (Decimal.lt_pow_numDigits n).le.trans (Nat.pow_le_pow_right (by decide) hn)
  have hamp := hpow _ ha
  have hprecision := hpow _ hp
  apply Decimal.numDigits_le (by omega)
  have hshared : (4 * amp * 2 * x * x * y * y).natAbs ≤ 8 * 10 ^ (e + 156) := by
    calc (4 * amp * 2 * x * x * y * y).natAbs
        = 4 * amp.natAbs * 2 * x.natAbs * x.natAbs * y.natAbs * y.natAbs := by
          simp only [Int.natAbs_mul]
          rfl
      _ ≤ 4 * 10 ^ e * 2 * 10 ^ 39 * 10 ^ 39 * 10 ^ 39 * 10 ^ 39 := by gcongr
      _ = 8 * 10 ^ (e + 156) := by ring
  have hterm : (ampPrecision * (d * d * d) * z).natAbs ≤ 10 ^ (e + 156) := by
    calc (ampPrecision * (d * d * d) * z).natAbs
        = ampPrecision.natAbs * (d.natAbs * d.natAbs * d.natAbs) * z.natAbs := by
          simp only [Int.natAbs_mul]
      _ ≤ 10 ^ e * (10 ^ 39 * 10 ^ 39 * 10 ^ 39) * 10 ^ 39 := by gcongr
      _ = 10 ^ (e + 156) := by ring
  have hpow : 10 ^ (e + 157) = 10 * 10 ^ (e + 156) := by ring
  have hsum := Int.natAbs_add_le (4 * amp * 2 * x * x * y * y) (ampPrecision * (d * d * d) * z)
  have hpos : 0 < 10 ^ (e + 156) := Nat.pow_pos (by decide)
  omega

theorem numDigits_slope (hm : Moderate amp ampPrecision) (hd : 0 ≤ d ∧ d ≤ 10 ^ 39)
    (hx : 0 < x ∧ x ≤ 10 ^ 39) (hy : 0 < y ∧ y ≤ 10 ^ 39) :
    numDigits (slope amp ampPrecision d x y).1.natAbs ≤
        numDigits (slope amp ampPrecision d x y).2.natAbs + 900157 ∧
      numDigits (slope amp ampPrecision d x y).2.natAbs ≤
        numDigits (slope amp ampPrecision d x y).1.natAbs + 900157 := by
  obtain ⟨hx0, hx⟩ := hx
  obtain ⟨hy0, hy⟩ := hy
  obtain ⟨hd0, hd⟩ := hd
  unfold slope
  dsimp only
  rcases hm with ⟨ha, hp⟩ | ⟨ha, hp⟩
  · have hshared : 0 ≤ 4 * amp * 2 * x * x * y * y := by positivity
    have hterm : 0 ≤ ampPrecision * (d * d * d) := by positivity
    have hnum := numDigits_sum_le hshared hterm hx0 hy0 hy
    have hden := numDigits_sum_le hshared hterm hy0 hx0 hx
    omega
  · have hside : ∀ z : Int, 0 < z → z ≤ 10 ^ 39 →
        numDigits (4 * amp * 2 * x * x * y * y + ampPrecision * (d * d * d) * z).natAbs ≤
          900000 + 157 := by
      intro z hz0 hz
      have habs : ∀ n : Int, 0 ≤ n → n ≤ 10 ^ 39 → n.natAbs ≤ 10 ^ 39 := by omega
      exact numDigits_side_le ha hp (habs d hd0 hd) (habs x hx0.le hx) (habs y hy0.le hy)
        (habs z hz0.le hz)
    have hnum := hside y hy0 hy
    have hden := hside x hx0 hx
    omega

theorem slope_quotient_clear {value : Numeral} (hm : Moderate amp ampPrecision)
    (hd : 0 ≤ d ∧ d ≤ 10 ^ 39) (hx : 0 < x ∧ x ≤ 10 ^ 39) (hy : 0 < y ∧ y ≤ 10 ^ 39)
    (h : (Numeral.finite (.ofInt (slope amp ampPrecision d x y).1)).dividedBy
      (.finite (.ofInt (slope amp ampPrecision d x y).2)) = .ok value) :
    ∃ price, value = .finite price ∧ price.Clear 99 := by
  obtain ⟨hnum, hden⟩ := numDigits_slope hm hd hx hy
  rw [Decimal.Numeral.dividedBy_finite, map_eq_ok] at h
  obtain ⟨price, h, rfl⟩ := h
  refine ⟨price, rfl, ?_⟩
  unfold Decimal.dividedBy at h
  split at h
  · rename_i hne
    have hdiv : ∃ quotient, (Decimal.ofInt (slope amp ampPrecision d x y).1).div
        (.ofInt (slope amp ampPrecision d x y).2) = some quotient ∧ quotient.Clear 99 :=
      Decimal.div_clear hne rfl hnum hden (by decide)
    obtain ⟨quotient, hq, hclear⟩ := hdiv
    rw [hq] at h
    cases h
    exact hclear
  · split at h <;> cases h

end Slope

section SpotPrice

variable {ν : Type} [Operand ν] {s : Shape ν} {balances : List Int} {value : Numeral}

theorem repeatedPart_ne_ok {α : Type} {size : Nat} {kind : Json.Kind} {d y : Int} {a : α} :
    repeatedPart size kind d y ≠ .ok a := by
  unfold repeatedPart
  intro h
  obtain ⟨_, -, h⟩ := bind_eq_ok.mp h
  obtain ⟨_, -, h⟩ := bind_eq_ok.mp h
  cases h

/-- A price that is found is a decimal with room for its point. -/
theorem spotPrice_clear (hb : ∀ b ∈ balances, 0 ≤ b ∧ b < Width.uint128.limit)
    (hfloat : ∀ f, toJson s.ampPrecision ≠ .float f)
    (hm : ∀ amp ampPrecision, strict s.amp = .ok amp → count s.ampPrecision = .ok ampPrecision →
      Moderate amp ampPrecision)
    (h : spotPrice s balances = .ok value) : ∃ price, value = .finite price ∧ price.Clear 99 := by
  unfold spotPrice at h
  split at h
  · rename_i x y
    simp only [throw_eq, error_bind, refused_eq_ok] at h
    obtain ⟨hzero, h⟩ := h
    obtain ⟨d, hd, h⟩ := bind_eq_ok.mp h
    obtain ⟨amp, hamp, h⟩ := bind_eq_ok.mp h
    simp only [strict_int, ok_bind] at h
    split at h
    · rename_i f hf
      exact absurd hf (hfloat f)
    · exact absurd h repeatedPart_ne_ok
    · exact absurd h repeatedPart_ne_ok
    · obtain ⟨ampPrecision, hp, h⟩ := bind_eq_ok.mp h
      have hpos : ∀ b, b ∈ [x, y] → isZero b = false → 0 < b ∧ b ≤ 10 ^ 39 := by
        intro b hmem hne
        obtain ⟨h0, hlt⟩ := hb b hmem
        have hlimit : Width.uint128.limit = 340282366920938463463374607431768211456 := rfl
        rw [isZero_int, beq_eq_false_iff_ne] at hne
        omega
      have hnone : isZero x = false ∧ isZero y = false := by simpa using hzero
      have hsize := invariant_bounds hd
      have hlimit : Width.uint128.limit = 340282366920938463463374607431768211456 := rfl
      exact slope_quotient_clear (hm amp ampPrecision hamp hp) (by omega)
        (hpos x (by simp) hnone.1) (hpos y (by simp) hnone.2) h
  · cases h

end SpotPrice

end Liquidity.Stable
