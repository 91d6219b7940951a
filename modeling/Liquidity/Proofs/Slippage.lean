import Liquidity.Proofs.Decimal.Sum
import Liquidity.Proofs.Outcome
import Liquidity.Slippage

/-! How far a price may be from a reference. Each bound is a sum and a product, both rounded, and
rounding keeps order: so the accepted prices are those between two bounds that move apart as the
tolerance grows, and the reference is between them if it fits. -/

namespace Liquidity
set_option autoImplicit false

open Decimal Outcome

section Bounds

variable {q x x' v v' : ℚ} {r price lower upper : Decimal} {t t' : Ratio}

/-- The product with a factor, both rounded. -/
def RoundedTwice (q x v : ℚ) : Prop := ∃ f, Rounds x f ∧ Rounds (q * f) v

namespace RoundedTwice

theorem mono (h : RoundedTwice q x v) (h' : RoundedTwice q x' v') (hq : 0 ≤ q) (hx : 0 ≤ x)
    (hle : x ≤ x') : v ≤ v' := by
  obtain ⟨f, hf, hv⟩ := h
  obtain ⟨f', hf', hv'⟩ := h'
  have hfactor := hf.mono_of_nonneg hf' hx hle
  exact hv.mono_of_nonneg hv' (mul_nonneg hq (hf.nonneg hx)) (mul_le_mul_of_nonneg_left hfactor hq)

theorem unique (h : RoundedTwice q x v) (h' : RoundedTwice q x v') (hq : 0 ≤ q) (hx : 0 ≤ x) :
    v = v' :=
  le_antisymm (h.mono h' hq hx le_rfl) (h'.mono h hq hx le_rfl)

theorem exact (hx : Fits x) (hv : Fits (q * x)) : RoundedTwice q x (q * x) :=
  ⟨x, hx.rounds, hv.rounds⟩

theorem self (h : Fits q) : RoundedTwice q 1 q := by
  simpa using exact Fits.one ((mul_one q).symm ▸ h)

end RoundedTwice

/-- The upper bound is found, and so is everything on the way to it. -/
def Roomy (r : Decimal) (t : Ratio) : Prop :=
  ∃ upper, (Decimal.one.plus t.val >>= r.times) = .ok upper

/-- The bounds that a reference has at a tolerance. -/
structure Band (r : Decimal) (t : Ratio) (lower upper : Decimal) : Prop where
  above : (Decimal.one.plus t.val >>= r.times) = .ok upper
  below : (Decimal.one.minus t.val >>= r.times) = .ok lower
  upper_rounded : RoundedTwice r.toRat (1 + t.val.toRat) upper.toRat
  lower_rounded : RoundedTwice r.toRat (1 - t.val.toRat) lower.toRat

theorem ratio_nonneg (t : Ratio) : 0 ≤ t.val.toRat := by
  have h := le_iff.mp t.property.1
  rwa [toRat_zero] at h

theorem ratio_le_one (t : Ratio) : t.val.toRat ≤ 1 := by
  have h := le_iff.mp t.property.2
  rwa [toRat_one] at h

theorem raised_factor (t : Ratio) :
    ∃ f, Decimal.one.plus t.val = .ok f ∧ Rounds (1 + t.val.toRat) f.toRat := by
  have h0 := ratio_nonneg t
  have h1 := ratio_le_one t
  have hroom := two_lt_tooLarge
  have hfound := plus_found (a := Decimal.one) (b := t.val)
  rw [toRat_one] at hfound
  exact hfound (by linarith) (by linarith)

theorem lowered_factor (t : Ratio) :
    ∃ f, Decimal.one.minus t.val = .ok f ∧ Rounds (1 - t.val.toRat) f.toRat := by
  have h0 := ratio_nonneg t
  have h1 := ratio_le_one t
  have hroom := two_lt_tooLarge
  have hfound := minus_found (a := Decimal.one) (b := t.val)
  rw [toRat_one] at hfound
  exact hfound (by linarith) (by linarith)

/-- Where the upper bound is found, the lower one is, which is nearer to nothing. -/
theorem exists_band (hr : 0 ≤ r.toRat) (h : Roomy r t) : ∃ lower upper, Band r t lower upper := by
  have h0 := ratio_nonneg t
  have h1 := ratio_le_one t
  obtain ⟨f, hf, hrounds⟩ := raised_factor t
  obtain ⟨g, hg, hrounds'⟩ := lowered_factor t
  obtain ⟨upper, hupper⟩ := h
  have hproduct := lt_tooLarge_of_times (by rwa [hf, ok_bind] at hupper)
  have hone : g.toRat ≤ f.toRat := hrounds'.mono_of_nonneg hrounds (by linarith) (by linarith)
  have hg0 := hrounds'.nonneg (by linarith)
  obtain ⟨u, hu, hur⟩ := times_found (mul_nonneg hr (hg0.trans hone)) hproduct
  obtain ⟨l, hl, hlr⟩ := times_found (mul_nonneg hr hg0)
    ((mul_le_mul_of_nonneg_left hone hr).trans_lt hproduct)
  exact ⟨l, u, by rw [hf, ok_bind, hu], by rw [hg, ok_bind, hl], ⟨_, hrounds, hur⟩,
    ⟨_, hrounds', hlr⟩⟩

theorem Roomy.of_le (hr : 0 ≤ r.toRat) (h : Roomy r t') (hle : t.val ≤ t'.val) : Roomy r t := by
  have h0 := ratio_nonneg t
  rw [le_iff] at hle
  obtain ⟨f, hf, hrounds⟩ := raised_factor t
  obtain ⟨g, hg, hrounds'⟩ := raised_factor t'
  obtain ⟨upper, hupper⟩ := h
  have hproduct := lt_tooLarge_of_times (by rwa [hg, ok_bind] at hupper)
  have hfactor := hrounds.mono_of_nonneg hrounds' (by linarith) (by linarith)
  obtain ⟨u, hu, -⟩ := times_found (mul_nonneg hr (hrounds.nonneg (by linarith)))
    ((mul_le_mul_of_nonneg_left hfactor hr).trans_lt hproduct)
  exact ⟨u, by rw [hf, ok_bind, hu]⟩

/-- A reference whose double is not too large has bounds at every tolerance. -/
theorem roomy_of_double (hr : 0 ≤ r.toRat) (h : r.toRat * 2 < tooLarge) (t : Ratio) :
    Roomy r t := by
  have h0 := ratio_nonneg t
  have h1 := ratio_le_one t
  obtain ⟨f, hf, hrounds⟩ := raised_factor t
  have htwo : Fits 2 := ⟨2, 0, by decide, by decide, by simp⟩
  have hfactor : f.toRat ≤ 2 := hrounds.mono_of_nonneg htwo.rounds (by linarith) (by linarith)
  obtain ⟨u, hu, -⟩ := times_found (mul_nonneg hr (hrounds.nonneg (by linarith)))
    ((mul_le_mul_of_nonneg_left hfactor hr).trans_lt h)
  exact ⟨u, by rw [hf, ok_bind, hu]⟩

namespace Band

theorem outside_eq (h : Band r t lower upper) (price : Decimal) :
    outside price r t.val = .ok (decide (¬ (lower ≤ price ∧ price ≤ upper))) := by
  obtain ⟨f, hf, hupper⟩ := bind_eq_ok.mp h.above
  obtain ⟨g, hg, hlower⟩ := bind_eq_ok.mp h.below
  unfold outside
  rw [hf, ok_bind, hupper, ok_bind]
  simp only [lt_iff, le_iff, not_and_or, not_le]
  split
  · rename_i habove
    simp [habove, pure_eq]
  · rename_i habove
    rw [hg, ok_bind, hlower, ok_bind]
    simp [habove, pure_eq]

theorem contains (h : Band r t lower upper) (hr : Fits r.toRat) :
    lower ≤ r ∧ r ≤ upper := by
  have h0 := ratio_nonneg t
  have h1 := ratio_le_one t
  rw [le_iff, le_iff]
  exact ⟨h.lower_rounded.mono (.self hr) hr.nonneg (by linarith) (by linarith),
    (RoundedTwice.self hr).mono h.upper_rounded hr.nonneg (by norm_num) (by linarith)⟩

theorem widens {lower' upper' : Decimal} (h : Band r t lower upper) (h' : Band r t' lower' upper')
    (hr : 0 ≤ r.toRat) (hle : t.val ≤ t'.val) : lower' ≤ lower ∧ upper ≤ upper' := by
  have h0 := ratio_nonneg t
  have h1 := ratio_le_one t'
  rw [le_iff] at hle
  rw [le_iff, le_iff]
  exact ⟨h'.lower_rounded.mono h.lower_rounded hr (by linarith) (by linarith),
    h.upper_rounded.mono h'.upper_rounded hr (by linarith) (by linarith)⟩

end Band

end Bounds

section Checks

variable {r q : Price} {t t' : Ratio} {lower upper : Decimal} {o o' : Except Fault Unit}

/-- What checking a new price `q` comes to: the impact on a pool that was at `r`, or a belief in
`r` that is quoted the way of the pool. -/
inductive Compared (r : Price) (t : Ratio) (q : Price) : Except Fault Unit → Prop
  | impact : Compared r t q (MaxPriceImpact.check ⟨t⟩ (some r) (some q))
  | belief (old : Option Price) : q.base = r.base → q.quote = r.quote →
      Compared r t q (BeliefPrice.check ⟨r, t⟩ old (some q))

theorem Compared.eq (h : Compared r t q o) (hband : Band r.value t lower upper) : ∃ old, o =
    if lower ≤ q.value ∧ q.value ≤ upper then .ok () else .error (.priceOutOfRange old (some q)) := by
  have houtside := hband.outside_eq q.value
  cases h with
  | impact =>
    refine ⟨some r, ?_⟩
    unfold MaxPriceImpact.check
    dsimp only
    rw [houtside, ok_bind]
    by_cases hin : lower ≤ q.value ∧ q.value ≤ upper <;> simp [hin]
  | belief old hb hq =>
    refine ⟨old, ?_⟩
    have hquoted : q.quoted r.base r.quote = .ok q.value := if_pos ⟨hb.symm, hq.symm⟩
    unfold BeliefPrice.check
    dsimp only
    rw [hquoted, ok_bind, houtside, ok_bind]
    by_cases hin : lower ≤ q.value ∧ q.value ≤ upper <;> simp [hin]

theorem Compared.accepted_iff (h : Compared r t q o) (hband : Band r.value t lower upper) :
    o = .ok () ↔ lower ≤ q.value ∧ q.value ≤ upper := by
  obtain ⟨old, rfl⟩ := h.eq hband
  split <;> simp [*]

theorem value_nonneg (r : Price) : 0 ≤ r.value.toRat := by
  have h := lt_iff.mp r.positive
  rw [toRat_zero] at h
  exact h.le

/-- A price that stays is accepted at every tolerance, however it is written. -/
theorem Compared.accepted_of_same (h : Compared r t q o) (hr : Fits r.value.toRat)
    (hroom : Roomy r.value t) (hq : q.value.toRat = r.value.toRat) : o = .ok () := by
  obtain ⟨lower, upper, hband⟩ := exists_band hr.nonneg hroom
  obtain ⟨hle, hge⟩ := hband.contains hr
  rw [h.accepted_iff hband, le_iff, le_iff, hq, ← le_iff, ← le_iff]
  exact ⟨hle, hge⟩

theorem Compared.accepted_mono (h : Compared r t q o) (h' : Compared r t' q o')
    (hle : t.val ≤ t'.val) (hroom : Roomy r.value t') (ho : o = .ok ()) : o' = .ok () := by
  have hr := value_nonneg r
  obtain ⟨lower, upper, hband⟩ := exists_band hr (hroom.of_le hr hle)
  obtain ⟨lower', upper', hband'⟩ := exists_band hr hroom
  obtain ⟨hlow, hup⟩ := hband.widens hband' hr hle
  rw [h.accepted_iff hband] at ho
  rw [h'.accepted_iff hband']
  simp only [le_iff] at *
  exact ⟨hlow.trans ho.1, ho.2.trans hup⟩

/-- With no tolerance both bounds are the reference. -/
theorem Compared.accepted_at_zero (h : Compared r t q o) (hr : Fits r.value.toRat)
    (hroom : Roomy r.value t) (ht : t.val.toRat = 0) :
    o = .ok () ↔ q.value.toRat = r.value.toRat := by
  obtain ⟨lower, upper, hband⟩ := exists_band hr.nonneg hroom
  have hup := hband.upper_rounded
  have hlow := hband.lower_rounded
  rw [ht, add_zero] at hup
  rw [ht, sub_zero] at hlow
  rw [h.accepted_iff hband, le_iff, le_iff, hup.unique (.self hr) hr.nonneg zero_le_one,
    hlow.unique (.self hr) hr.nonneg zero_le_one, and_comm]
  exact le_antisymm_iff.symm

/-- The prices that are accepted at a tolerance are those between two bounds with the reference
between them, and are accepted at every greater tolerance; with no tolerance there is the reference
only. Bounds that need no rounding are the exact ones. -/
theorem accepted_prices_interval (r : Price) (hr : Fits r.value.toRat) :
    (∀ t : Ratio, Roomy r.value t → ∃ lower upper : Decimal,
      lower ≤ r.value ∧ r.value ≤ upper ∧
      (∀ q o, Compared r t q o → ∃ old, o =
        if lower ≤ q.value ∧ q.value ≤ upper then .ok ()
        else .error (.priceOutOfRange old (some q))) ∧
      (Fits (1 + t.val.toRat) → Fits (r.value.toRat * (1 + t.val.toRat)) →
        upper.toRat = r.value.toRat * (1 + t.val.toRat)) ∧
      (Fits (1 - t.val.toRat) → Fits (r.value.toRat * (1 - t.val.toRat)) →
        lower.toRat = r.value.toRat * (1 - t.val.toRat))) ∧
    (∀ (t t' : Ratio) q o o', t.val ≤ t'.val → Roomy r.value t' → Compared r t q o →
      Compared r t' q o' → o = .ok () → o' = .ok ()) ∧
    (∀ (t : Ratio) q o, t.val.toRat = 0 → Roomy r.value t → Compared r t q o →
      (o = .ok () ↔ q.value.toRat = r.value.toRat)) ∧
    (r.value.toRat * 2 < tooLarge → ∀ t, Roomy r.value t) := by
  refine ⟨?_, ?_, ?_, roomy_of_double hr.nonneg⟩
  · intro t hroom
    have h0 := ratio_nonneg t
    have h1 := ratio_le_one t
    obtain ⟨lower, upper, hband⟩ := exists_band hr.nonneg hroom
    obtain ⟨hle, hge⟩ := hband.contains hr
    refine ⟨lower, upper, hle, hge, fun q o h => h.eq hband, ?_, ?_⟩
    · intro hfactor hbound
      exact hband.upper_rounded.unique (.exact hfactor hbound) hr.nonneg (by linarith)
    · intro hfactor hbound
      exact hband.lower_rounded.unique (.exact hfactor hbound) hr.nonneg (by linarith)
  · intro t t' q o o' hle hroom h h' ho
    exact h.accepted_mono h' hle hroom ho
  · intro t q o ht hroom h
    exact h.accepted_at_zero hr hroom ht

/-- Two and a half of a token for a coin. -/
def twoAndHalf : Price :=
  ⟨.native "uusd", .cw20 "token", ⟨false, 250, -2⟩, by decide +kernel⟩

/-- Its neighbourhood of three percent, and of nothing. -/
theorem accepted_prices_interval_usual :
    (∃ lower upper : Decimal, lower.toRat = 97 / 40 ∧ upper.toRat = 103 / 40 ∧
      ∀ q o, Compared twoAndHalf MaxPriceImpact.usual q o → ∃ old, o =
        if lower ≤ q.value ∧ q.value ≤ upper then .ok ()
        else .error (.priceOutOfRange old (some q))) ∧
    ∀ q o o', Compared twoAndHalf ⟨Decimal.zero, by decide, by decide⟩ q o →
      Compared twoAndHalf MaxPriceImpact.usual q o' → q.value.toRat = 5 / 2 →
      o = .ok () ∧ o' = .ok () := by
  have hvalue : twoAndHalf.value.toRat = 5 / 2 := by norm_num [toRat, size, twoAndHalf]
  have husual : MaxPriceImpact.usual.val.toRat = 3 / 100 := by
    norm_num [toRat, size, MaxPriceImpact.usual]
  have hfits : Fits twoAndHalf.value.toRat :=
    ⟨25, -1, by decide, by decide, by norm_num [hvalue]⟩
  obtain ⟨hinterval, hmono, hzero, hroomy⟩ := accepted_prices_interval twoAndHalf hfits
  have hroom : ∀ t, Roomy twoAndHalf.value t := hroomy <| by
    rw [hvalue]
    calc (5 / 2 * 2 : ℚ) < 10 ^ (1 : Int) := by norm_num
      _ ≤ 10 ^ maxLeading := ten_pow_le (by decide)
      _ ≤ tooLarge := pow_maxLeading_le_tooLarge
  constructor
  · obtain ⟨lower, upper, -, -, hcompared, hupper, hlower⟩ := hinterval MaxPriceImpact.usual (hroom _)
    rw [hvalue, husual] at hupper hlower
    refine ⟨lower, upper, ?_, ?_, hcompared⟩
    · rw [hlower ⟨97, -2, by decide, by decide, by norm_num⟩
        ⟨2425, -3, by decide, by decide, by norm_num⟩]
      norm_num
    · rw [hupper ⟨103, -2, by decide, by decide, by norm_num⟩
        ⟨2575, -3, by decide, by decide, by norm_num⟩]
      norm_num
  · intro q o o' h h' hq
    have ho : o = .ok () := (hzero _ q o toRat_zero (hroom _) h).mpr (hq.trans hvalue.symm)
    exact ⟨ho, hmono _ _ q o o' (by decide +kernel) (hroom _) h h' ho⟩

end Checks

end Liquidity
