import Mathlib.Tactic.Linarith
import Mathlib.Tactic.Ring
import Liquidity.Decimal.Arithmetic

/-! Decimals far from the bounds of the exponent. Moving their point is exact there, and
quotients of whole numbers of about equal length are such decimals. -/

namespace Liquidity.Decimal
set_option autoImplicit false

section Digits

variable {n k : Nat}

theorem numDigits_pos (n : Nat) : 0 < numDigits n :=
  List.length_pos_iff.mpr (Text.digits_ne_nil n)

theorem lt_pow_numDigits (n : Nat) : n < 10 ^ numDigits n := by
  unfold numDigits
  fun_induction Text.digits n with
  | case1 n h => simpa using h
  | case2 n h ih =>
    rw [List.length_append, List.length_singleton, pow_succ]
    omega

/-- The leading digit is not zero. -/
theorem pow_numDigits_le (hn : n ≠ 0) : 10 ^ numDigits n ≤ 10 * n := by
  unfold numDigits
  fun_induction Text.digits n with
  | case1 n h =>
    rw [List.length_singleton]
    omega
  | case2 n h ih =>
    have hq := ih (by omega)
    rw [List.length_append, List.length_singleton, pow_succ]
    omega

theorem numDigits_le (hk : 0 < k) (h : n < 10 ^ k) : numDigits n ≤ k := by
  by_cases hn : n = 0
  · have hzero : numDigits 0 = 1 := by simp [numDigits, Text.digits]
    rw [hn, hzero]
    exact hk
  · have hlt : 10 ^ numDigits n < 10 ^ (k + 1) := by
      have := pow_numDigits_le hn
      rw [pow_succ]
      omega
    exact Nat.lt_succ_iff.mp ((Nat.pow_lt_pow_iff_right (by decide)).mp hlt)

/-- What is at most `10 ^ k` times as large has at most `k` digits more. -/
theorem numDigits_le_add {m : Nat} (h : n ≤ 10 ^ k * m) : numDigits n ≤ numDigits m + k := by
  apply numDigits_le (Nat.add_pos_left (numDigits_pos m) k)
  calc n ≤ 10 ^ k * m := h
    _ < 10 ^ k * 10 ^ numDigits m :=
      Nat.mul_lt_mul_of_pos_left (lt_pow_numDigits m) (Nat.pow_pos (by decide))
    _ = 10 ^ (numDigits m + k) := by rw [pow_add, mul_comm]

end Digits

/-- A decimal whose digits can move `room` places either way. -/
structure Clear (room : Nat) (d : Decimal) : Prop where
  digits : d.coefficient < 10 ^ precision
  place : leastPlace + room ≤ d.exponent
  leading : d.exponent + (precision - 1 : Nat) + room ≤ maxLeading

section Shift

variable {d : Decimal} {room : Nat} {k : Int}

theorem fit_clear (h : d.Clear room) : d.fit = some d := by
  have hdigits : numDigits d.coefficient ≤ precision := numDigits_le (by decide) h.digits
  have hpos := numDigits_pos d.coefficient
  have hplace := h.place
  have hleading := h.leading
  unfold fit
  by_cases hc : d.coefficient = 0
  · have he : max leastPlace (min d.exponent maxLeading) = d.exponent := by
      omega
    rw [if_pos hc, he]
  · have hlead : ¬ maxLeading < d.adjusted := by
      unfold adjusted precision at *
      omega
    have hlast : lastPlace d.adjusted ≤ d.exponent := by
      unfold lastPlace adjusted precision at *
      omega
    rw [if_neg hc, if_neg hlead, if_pos hlast]

/-- Moving the point within the room keeps every digit. -/
theorem scale_clear (h : d.Clear room) (hk : k.natAbs ≤ room) :
    d.scale k = some { d with exponent := d.exponent + k } := by
  have hplace := h.place
  have hleading := h.leading
  have hmoved : Clear 0 { d with exponent := d.exponent + k } := by
    refine ⟨h.digits, ?_, ?_⟩
    · change leastPlace + ((0 : Nat) : Int) ≤ d.exponent + k
      omega
    · change d.exponent + k + (precision - 1 : Nat) + ((0 : Nat) : Int) ≤ maxLeading
      omega
  exact fit_clear hmoved

end Shift

section Quotient

variable {n m k : Nat} {s e : Int} {negative : Bool} {gap room : Nat}

/-- Before it is decided between two places, the quotient may have a digit too many. -/
theorem shifted_lt (hm : m ≠ 0) (hs : s = precision + numDigits m - numDigits n) :
    (shifted n m s).1 < 10 ^ (precision + 1) * (shifted n m s).2 := by
  have hsum : numDigits n + s.toNat = precision + numDigits m + (-s).toNat := by omega
  calc n * 10 ^ s.toNat < 10 ^ numDigits n * 10 ^ s.toNat :=
        Nat.mul_lt_mul_of_pos_right (lt_pow_numDigits n) (Nat.pow_pos (by decide))
    _ = 10 ^ precision * 10 ^ numDigits m * 10 ^ (-s).toNat := by
        rw [← pow_add, hsum, pow_add, pow_add]
    _ ≤ 10 ^ precision * (10 * m) * 10 ^ (-s).toNat :=
        Nat.mul_le_mul_right _ (Nat.mul_le_mul_left _ (pow_numDigits_le hm))
    _ = 10 ^ (precision + 1) * (m * 10 ^ (-s).toNat) := by ring

/-- One place lower the quotient is a tenth. -/
theorem shifted_pred (n m : Nat) (s : Int) :
    10 * (shifted n m (s - 1)).1 * (shifted n m s).2 =
      (shifted n m s).1 * (shifted n m (s - 1)).2 := by
  change 10 * (n * 10 ^ (s - 1).toNat) * (m * 10 ^ (-s).toNat) =
    n * 10 ^ s.toNat * (m * 10 ^ (-(s - 1)).toNat)
  by_cases h : 0 < s
  · have htop : s.toNat = (s - 1).toNat + 1 := by omega
    have hbottom : (-(s - 1)).toNat = (-s).toNat := by omega
    rw [htop, hbottom]
    ring
  · have htop : (s - 1).toNat = s.toNat := by omega
    have hbottom : (-(s - 1)).toNat = (-s).toNat + 1 := by omega
    rw [htop, hbottom]
    ring

theorem shifted_pos (n : Nat) (hm : m ≠ 0) (s : Int) : 0 < (shifted n m s).2 :=
  Nat.mul_pos (Nat.pos_of_ne_zero hm) (Nat.pow_pos (by decide))

theorem quotientShift_lt (hm : m ≠ 0) :
    (shifted n m (quotientShift n m)).1 / (shifted n m (quotientShift n m)).2 <
      10 ^ precision := by
  unfold quotientShift
  dsimp only
  split
  · assumption
  · have hlt := shifted_lt (n := n) hm rfl
    rw [Nat.div_lt_iff_lt_mul (shifted_pos n hm _)]
    generalize (precision + numDigits m - numDigits n : Int) = s at hlt ⊢
    have hd := shifted_pos n hm s
    have hd' := shifted_pos n hm (s - 1)
    have hpred := shifted_pred n m s
    have hprod := Nat.mul_lt_mul_of_pos_right hlt hd'
    rw [← hpred] at hprod
    refine Nat.lt_of_mul_lt_mul_left (a := 10 * (shifted n m s).2) ?_
    calc 10 * (shifted n m s).2 * (shifted n m (s - 1)).1
        = 10 * (shifted n m (s - 1)).1 * (shifted n m s).2 := by ring
      _ < 10 ^ (precision + 1) * (shifted n m s).2 * (shifted n m (s - 1)).2 := hprod
      _ = 10 * (shifted n m s).2 * (10 ^ precision * (shifted n m (s - 1)).2) := by ring

theorem quotientShift_bounds (h : numDigits n ≤ numDigits m + gap)
    (h' : numDigits m ≤ numDigits n + gap) :
    (precision : Int) - 1 - gap ≤ quotientShift n m ∧
      quotientShift n m ≤ (precision : Int) + gap := by
  unfold quotientShift
  dsimp only
  split <;> omega

theorem roundDiv_le (n m : Nat) : roundDiv n m ≤ n / m + 1 := by
  unfold roundDiv
  dsimp only
  split
  · exact Nat.le_succ _
  · exact Nat.le_refl _

theorem dropZeros_bounds (k n : Nat) (e : Int) :
    (dropZeros k n e).1 ≤ n ∧ e ≤ (dropZeros k n e).2 ∧ (dropZeros k n e).2 ≤ e + k := by
  fun_induction dropZeros k n e with
  | case1 n e => simp
  | case2 n e k h ih => omega
  | case3 n e k h => omega

theorem carried_clear (hn : n ≤ 10 ^ precision) (hplace : leastPlace + room ≤ e)
    (hleading : e + precision + room ≤ maxLeading) :
    ∃ d, carried negative n e = some d ∧ d.Clear room := by
  unfold carried
  by_cases hc : n = Text.tenTo precision
  · have hle : ¬ maxLeading < e + precision := by omega
    rw [if_pos hc, if_neg hle]
    refine ⟨_, rfl, ?_, ?_, ?_⟩
    · exact Nat.pow_lt_pow_right (by decide) (by decide)
    · change leastPlace + room ≤ e + 1
      omega
    · change e + 1 + (precision - 1 : Nat) + room ≤ maxLeading
      unfold precision at *
      omega
  · rw [if_neg hc]
    refine ⟨_, rfl, Nat.lt_of_le_of_ne hn hc, hplace, ?_⟩
    change e + (precision - 1 : Nat) + room ≤ maxLeading
    omega

theorem roundedQuotient_zero_le (n m : Nat) : roundedQuotient n m 0 ≤ n / m + 1 := by
  have hden : m * Text.tenTo 0 = m := Nat.mul_one m
  rw [roundedQuotient, if_neg (by decide), hden]
  exact roundDiv_le n m

/-- Coefficients of about equal length at one exponent have a quotient far from the bounds. -/
theorem div_clear {a b : Decimal} (hb : b.coefficient ≠ 0) (he : a.exponent = b.exponent)
    (h : numDigits a.coefficient ≤ numDigits b.coefficient + gap)
    (h' : numDigits b.coefficient ≤ numDigits a.coefficient + gap)
    (hroom : gap + room ≤ 999900) : ∃ d, a.div b = some d ∧ d.Clear room := by
  obtain ⟨hlow, hhigh⟩ := quotientShift_bounds h h'
  have hlt := quotientShift_lt (n := a.coefficient) hb
  have hmax : maxLeading = 999999 := rfl
  have hleast : leastPlace = -1000026 := rfl
  have hprecision : precision = 28 := rfl
  unfold div
  simp only [he, Int.sub_self, Int.zero_sub]
  split
  · have hzero : Clear room ⟨a.negative != b.negative, 0, 0⟩ :=
      ⟨Nat.pow_pos (by decide), by simp only; omega, by simp only; omega⟩
    exact ⟨_, fit_clear hzero, hzero⟩
  · generalize quotientShift a.coefficient b.coefficient = s at *
    generalize shifted a.coefficient b.coefficient s = q at *
    split
    · obtain ⟨hc, he, he'⟩ := dropZeros_bounds s.toNat (q.1 / q.2) (-s)
      generalize dropZeros s.toNat (q.1 / q.2) (-s) = z at *
      have hexact : Clear room ⟨a.negative != b.negative, z.1, z.2⟩ :=
        ⟨Nat.lt_of_le_of_lt hc hlt, by simp only; omega, by simp only; omega⟩
      exact ⟨_, fit_clear hexact, hexact⟩
    · have hplace : max leastPlace (-s) = -s := by omega
      have hzero : (-s - -s).toNat = 0 := by omega
      have hnone : ¬ maxLeading < -s + (precision - 1 : Nat) := by omega
      rw [hplace, hzero, if_neg hnone]
      have hrounded : roundedQuotient q.1 q.2 0 ≤ 10 ^ precision :=
        (roundedQuotient_zero_le q.1 q.2).trans hlt
      exact carried_clear hrounded (by omega) (by omega)

end Quotient

end Liquidity.Decimal
