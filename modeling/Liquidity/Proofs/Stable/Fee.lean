import Liquidity.Stable.Fee
import Liquidity.Proofs.Numeric.Ratio

/-! The fee for imbalance is taken from the balances and never given to them. At a rate of
zero it takes nothing. -/

namespace Liquidity.Stable
set_option autoImplicit false

open Outcome

variable {dBefore dAfter rate fee n o c : Int} {position : Nat} {old new charged : List Int}

theorem imbalanceRate_eq_ok : imbalanceRate fee n = .ok rate ↔
    4 * (n - 1) ≠ 0 ∧ rate = (fee * n).fdiv (4 * (n - 1)) := by
  simp [imbalanceRate]

theorem imbalanceRate_zero (h : imbalanceRate (0 : Int) n = .ok rate) : rate = 0 := by
  rw [(imbalanceRate_eq_ok.mp h).2]
  simp

theorem imbalanceRate_nonneg (hfee : 0 ≤ fee) (hn : 2 ≤ n) (h : imbalanceRate fee n = .ok rate) :
    0 ≤ rate := by
  rw [(imbalanceRate_eq_ok.mp h).2]
  exact Int.fdiv_nonneg (Int.mul_nonneg hfee (by omega)) (by omega)

/-- What the fee takes of a balance that lies `distance` off its ideal. -/
def feeOn (rate distance : Int) : Int := (distance * rate).fdiv feeDenominator

theorem feeOn_zero (distance : Int) : feeOn 0 distance = 0 := by simp [feeOn]

theorem feeOn_nonneg (hr : 0 ≤ rate) (a b : Int) : 0 ≤ feeOn rate (Checked.absDiff a b) :=
  Int.fdiv_nonneg (Int.mul_nonneg (Int.natCast_nonneg _) hr) (by decide)

theorem chargedBalance_eq_ok : chargedBalance dBefore dAfter rate o n position = .ok c ↔
    ∃ ideal, Checked.mulDiv o dAfter dBefore = .ok ideal ∧
      feeOn rate (Checked.absDiff ideal n) ≤ n ∧ c = n - feeOn rate (Checked.absDiff ideal n) := by
  have hd : feeDenominator ≠ 0 := by decide
  unfold chargedBalance feeOn
  rw [bind_eq_ok]
  refine exists_congr fun ideal => and_congr_right fun _ => ?_
  rw [bind_eq_ok]
  simp only [Checked.div_eq_ok, hd, ne_eq, not_false_eq_true, true_and, exists_eq_left]
  simp only [throw_eq, error_bind, refused_eq_ok, Checked.sub_eq_ok, not_lt]
  constructor
  · rintro ⟨hle, _, hc⟩
    exact ⟨hle, hc⟩
  · rintro ⟨hle, hc⟩
    exact ⟨hle, hle, hc⟩

/-- The position of a balance shows in refusals only. -/
theorem chargeImbalance_eq_ok : chargeImbalance dBefore dAfter old new fee = .ok charged ↔
    ∃ rate, imbalanceRate fee (old.length : Int) = .ok rate ∧
      List.Forall₂ (fun b c => ∃ ideal, Checked.mulDiv b.1 dAfter dBefore = .ok ideal ∧
        feeOn rate (Checked.absDiff ideal b.2) ≤ b.2 ∧
        c = b.2 - feeOn rate (Checked.absDiff ideal b.2)) (old.zip new) charged := by
  unfold chargeImbalance
  rw [bind_eq_ok]
  refine exists_congr fun rate => and_congr_right fun _ => ?_
  simp only [mapM_eq_ok, chargedBalance_eq_ok]
  conv_rhs => rw [← List.zipIdx_map_fst 0 (old.zip new), List.forall₂_map_left_iff]

/-- The fee is refused only where it is more than the balance. -/
theorem chargedBalance_error {f : Fault} (ho : 0 ≤ o) (how : o < Width.uint128.limit)
    (hd : 0 ≤ dAfter) (hdw : dAfter < Width.uint128.limit) (hb : 0 < dBefore)
    (h : chargedBalance dBefore dAfter rate o n position = .error f) :
    ∃ amount, n < amount ∧ f = .feeAboveBalance amount n position := by
  have hne : feeDenominator ≠ 0 := by decide
  unfold chargedBalance at h
  rw [Ratio.mulDiv_words ho hd how hdw hb, ok_bind, Checked.div_eq_ok.mpr ⟨hne, rfl⟩, ok_bind] at h
  split at h
  · rename_i hlt
    cases h
    exact ⟨_, hlt, rfl⟩
  · rename_i hle
    rw [Checked.sub_eq_ok.mpr ⟨Int.not_lt.mp hle, rfl⟩] at h
    cases h

theorem chargeImbalance_error {f : Fault} (hn : 2 ≤ old.length)
    (ho : ∀ b ∈ old, 0 ≤ b ∧ b < Width.uint128.limit) (hd : 0 ≤ dAfter)
    (hdw : dAfter < Width.uint128.limit) (hb : 0 < dBefore)
    (h : chargeImbalance dBefore dAfter old new fee = .error f) :
    ∃ amount, ∃ b ∈ new, ∃ position, b < amount ∧ f = .feeAboveBalance amount b position := by
  unfold chargeImbalance at h
  rw [imbalanceRate_eq_ok.mpr ⟨by omega, rfl⟩, ok_bind] at h
  obtain ⟨⟨⟨b, c⟩, i⟩, hmem, h⟩ := exists_of_mapM_eq_error h
  obtain ⟨hold, hnew⟩ := List.of_mem_zip (List.fst_mem_of_mem_zipIdx hmem)
  obtain ⟨h0, hw⟩ := ho b hold
  obtain ⟨amount, hlt, rfl⟩ := chargedBalance_error h0 hw hd hdw hb h
  exact ⟨amount, c, hnew, i, hlt, rfl⟩

theorem charged_nonneg (h : chargeImbalance dBefore dAfter old new fee = .ok charged) :
    ∀ c ∈ charged, 0 ≤ c := by
  obtain ⟨rate, -, hf⟩ := chargeImbalance_eq_ok.mp h
  generalize old.zip new = pairs at hf
  clear h
  induction hf with
  | nil => simp
  | cons hc _ ih =>
    obtain ⟨ideal, -, hle, rfl⟩ := hc
    exact List.forall_mem_cons.mpr ⟨Int.sub_nonneg_of_le hle, ih⟩

theorem charged_length (hl : old.length = new.length)
    (h : chargeImbalance dBefore dAfter old new fee = .ok charged) :
    charged.length = old.length := by
  obtain ⟨rate, -, hf⟩ := chargeImbalance_eq_ok.mp h
  rw [← hf.length_eq, List.length_zip, ← hl, Nat.min_self]

/-- A bound on each balance after the fee, where `new` has a balance for every old one. -/
theorem charged_forall₂ {R : Int → Int → Prop} (hl : old.length = new.length)
    (h : chargeImbalance dBefore dAfter old new fee = .ok charged)
    (hR : ∀ rate ideal n, imbalanceRate fee (old.length : Int) = .ok rate →
      R (n - feeOn rate (Checked.absDiff ideal n)) n) : List.Forall₂ R charged new := by
  obtain ⟨rate, hrate, hf⟩ := chargeImbalance_eq_ok.mp h
  rw [← List.map_snd_zip (Nat.le_of_eq hl.symm), List.forall₂_map_right_iff]
  apply List.Forall₂.flip
  apply hf.imp
  rintro ⟨o, n⟩ c ⟨ideal, _, _, rfl⟩
  exact hR rate ideal n hrate

theorem charged_le (hfee : 0 ≤ fee) (hn : 2 ≤ old.length) (hl : old.length = new.length)
    (h : chargeImbalance dBefore dAfter old new fee = .ok charged) :
    List.Forall₂ (· ≤ ·) charged new := by
  apply charged_forall₂ hl h
  intro rate ideal n hrate
  have hr := imbalanceRate_nonneg hfee (by omega) hrate
  have := feeOn_nonneg hr ideal n
  omega

theorem charged_zero (hl : old.length = new.length)
    (h : chargeImbalance dBefore dAfter old new (0 : Int) = .ok charged) : charged = new := by
  have hf : List.Forall₂ (· = ·) charged new := by
    apply charged_forall₂ hl h
    intro rate ideal n hrate
    rw [imbalanceRate_zero hrate, feeOn_zero, Int.sub_zero]
  rwa [List.forall₂_eq_eq_eq] at hf

end Liquidity.Stable
