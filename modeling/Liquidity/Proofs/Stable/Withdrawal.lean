import Liquidity.Proofs.Stable.Newton
import Liquidity.Proofs.Stable.Shares

/-! What a withdrawal of exact amounts from a sound pool can come to, as its caller gets it. The
burn fits the supply and what is provided, or there is too little liquidity, or too few shares are
provided. Other faults come out exactly where the invariant turns against the withdrawal, where it
no longer fits its word or is larger for the smaller balances, or is gone while the supply fills
its word, and where a number that a fault shows is too long to be written. -/

namespace Liquidity.Stable
set_option autoImplicit false

open Outcome

/-- What a withdrawal is meant to come to. -/
inductive Foreseen (supply : Int) (provided : Option Int) : Except Fault Int → Prop where
  | burned {share : Int} : 1 ≤ share → share ≤ supply → (∀ m, provided = some m → share ≤ m) →
      Foreseen supply provided (.ok share)
  | illiquid {f : Fault} : f.kind = .insufficientLiquidity → Foreseen supply provided (.error f)
  | unaffordable {f : Fault} : f.kind = .insufficientShares → Foreseen supply provided (.error f)

/-- What the fee leaves of `left`, the balances after a withdrawal from `old`. -/
def Remains (s : Shape) (old left : List Int) (fee d0 : Int) (charged : List Int) : Prop :=
  ∃ d1, invariant s left = .ok d1 ∧ chargeImbalance d0 d1 old left fee = .ok charged

/-- What lets a fault of another kind out of a withdrawal from `old` to `left`, where `d0` is the
invariant of `old`. -/
inductive Upset (s : Shape) (old left : List Int) (supply fee d0 : Int) (provided : Option Int) :
    Fault.Kind → Prop where
  | left {f : Fault} : invariant s left = .error f →
      Upset s old left supply fee d0 provided f.reported.kind
  | overcharged {d1 amount balance : Int} {position : Nat} : invariant s left = .ok d1 →
      chargeImbalance d0 d1 old left fee = .error (.feeAboveBalance amount balance position) →
      Text.isOverlong amount = true → Upset s old left supply fee d0 provided .badValue
  | charged {charged : List Int} {f : Fault} : Remains s old left fee d0 charged →
      invariant s charged = .error f → Upset s old left supply fee d0 provided f.reported.kind
  | grown {charged : List Int} {d2 : Int} : Remains s old left fee d0 charged →
      invariant s charged = .ok d2 → d0 < d2 → Upset s old left supply fee d0 provided .underflow
  | drained {charged : List Int} : Remains s old left fee d0 charged →
      invariant s charged = .ok 0 → supply + 1 = Width.uint128.limit →
      Upset s old left supply fee d0 provided .overflow
  | outbid {charged : List Int} {d2 share m : Int} : Remains s old left fee d0 charged →
      invariant s charged = .ok d2 → burnOf supply d0 d2 none = .ok share → provided = some m →
      m < share → Text.isOverlong m = true → Upset s old left supply fee d0 provided .badValue

variable {s : Shape} {balances withdrawals old left charged : List Int}
variable {supply fee d0 d1 d2 share : Int} {provided : Option Int} {f : Fault} {kind : Fault.Kind}

theorem not_foreseen (hk : f.kind = .overflow ∨ f.kind = .underflow ∨ f.kind = .badValue) :
    ¬ Foreseen supply provided (.error f) := by
  intro h
  cases h with
  | illiquid hf => rw [hf] at hk; simp at hk
  | unaffordable hf => rw [hf] at hk; simp at hk

section BurnOf

theorem told_burnOf_grown (hd0 : 0 < d0) (hd2w : d2 < Width.uint128.limit) (h : d0 < d2) :
    told (burnOf supply d0 d2 provided) = .error (.underflow d0 d2 (d0 - d2)) := by
  have h0 := Text.isOverlong_of_word hd0.le (h.trans hd2w)
  have h2 := Text.isOverlong_of_word (hd0.trans h).le hd2w
  have hdiff : Text.isOverlong (d0 - d2) = false := by
    rw [Text.isOverlong_eq_false] at h2 ⊢
    omega
  unfold burnOf
  rw [Checked.sub_int, if_pos (by omega), error_bind, told_error, Fault.reported_of_short]
  simp [Fault.figures, Json.isOverlong, h0, h2, hdiff]

theorem told_burnOf_drained (hd0 : 0 < d0) (hd0w : d0 < Width.uint128.limit) (hs : 0 < supply)
    (hsw : supply + 1 = Width.uint128.limit) :
    told (burnOf supply d0 0 provided) = .error (.oversizedWord .uint128 (supply + 1)) := by
  have hshort : Text.isOverlong (supply + 1) = false := by
    rw [hsw]
    decide +kernel
  rw [burnOf_eq hd0 hd0w (Int.le_refl 0) hd0.le hs (by omega), Int.sub_zero,
    Int.mul_ediv_cancel _ hd0.ne', Ratio.check_of_nonneg (by omega), if_neg (by omega), error_bind,
    told_error, Fault.reported_oversizedWord, hshort]
  rfl

/-- What is provided is looked at last. -/
theorem burnOf_some (supply d0 d2 m : Int) : burnOf supply d0 d2 (some m) =
    burnOf supply d0 d2 none >>= fun share =>
      if m < share then .error (.insufficientShares share m) else .ok share := by
  unfold burnOf
  simp only [throw_eq, error_bind, bind_assoc, refused_bind]
  refine bind_congr fun _ => bind_congr fun _ => bind_congr fun share => ?_
  simp only [checkProvided, Operand.less_int, Operand.toJson_int, ok_bind, decide_eq_true_eq,
    throw_eq, refused_bind]
  rfl

theorem burnOf_bounds (h : burnOf supply d0 d2 provided = .ok share) :
    0 ≤ share ∧ share < Width.uint128.limit := by
  unfold burnOf at h
  simp only [throw_eq, error_bind, refused_eq_ok, bind_eq_ok, Width.check_eq_ok, pure_eq] at h
  obtain ⟨_, -, _, -, _, ⟨h0, hw, rfl⟩, -, _, -, h⟩ := h
  obtain rfl := Except.ok.inj h
  exact ⟨h0, hw⟩

theorem reported_insufficientShares (h : burnOf supply d0 d2 provided = .ok share) (m : Int) :
    (Fault.insufficientShares share m).reported =
      if Text.isOverlong m then .numeralTooLong else .insufficientShares share m := by
  obtain ⟨h0, hw⟩ := burnOf_bounds h
  rw [Fault.reported_of_pair rfl rfl, Text.isOverlong_of_word h0 hw, Bool.false_or]

/-- Without a bound the shares that are due are burned, unless they are more than there are. -/
theorem burnOf_none (hd0 : 0 < d0) (hd0w : d0 < Width.uint128.limit) (hd2 : 0 ≤ d2)
    (hle : d2 ≤ d0) (hs : 0 < supply) (hsw : supply < Width.uint128.limit)
    (hroom : d2 = 0 → supply + 1 ≠ Width.uint128.limit) :
    ∃ share, 1 ≤ share ∧ share < Width.uint128.limit ∧ burnOf supply d0 d2 none =
      if supply < share then .error (.burnAboveSupply share supply) else .ok share := by
  obtain ⟨h0, hmax, hlt⟩ := part_bounds hd0 hd2 hle hs
  have hfits : supply * (d0 - d2) / d0 + 1 < Width.uint128.limit := by
    by_cases hzero : d2 = 0
    · have := hroom hzero
      omega
    · have := hlt hzero
      omega
  refine ⟨_, by omega, hfits, ?_⟩
  rw [burnOf_eq hd0 hd0w hd2 hle hs hsw, Width.check_eq_ok.mpr ⟨by omega, hfits, rfl⟩, ok_bind]
  rfl

theorem reported_burnAboveSupply (hs : 0 < supply) (hlt : supply < share)
    (hw : share < Width.uint128.limit) :
    (Fault.burnAboveSupply share supply).reported = .burnAboveSupply share supply := by
  have hshare := Text.isOverlong_of_word (hs.trans hlt).le hw
  have hsupply := Text.isOverlong_of_word hs.le (hlt.trans hw)
  apply Fault.reported_of_short
  simp [Fault.figures, Json.isOverlong, hshare, hsupply]

theorem burnOf_foreseen (hd0 : 0 < d0) (hd0w : d0 < Width.uint128.limit) (hd2 : 0 ≤ d2)
    (hle : d2 ≤ d0) (hs : 0 < supply) (hsw : supply < Width.uint128.limit)
    (hroom : d2 = 0 → supply + 1 ≠ Width.uint128.limit)
    (hbid : ∀ share m, burnOf supply d0 d2 none = .ok share → provided = some m → m < share →
      Text.isOverlong m = false) :
    Foreseen supply provided (told (burnOf supply d0 d2 provided)) := by
  obtain ⟨share, h1, hw, hburn⟩ := burnOf_none hd0 hd0w hd2 hle hs hsw hroom
  by_cases hall : supply < share
  · have hfail : burnOf supply d0 d2 provided = .error (.burnAboveSupply share supply) := by
      rw [if_pos hall] at hburn
      cases provided with
      | none => exact hburn
      | some m => rw [burnOf_some, hburn, error_bind]
    rw [hfail, told_error, reported_burnAboveSupply hs hall hw]
    exact .illiquid rfl
  · rw [if_neg hall] at hburn
    cases provided with
    | none =>
      rw [hburn, told_ok]
      exact .burned h1 (Int.not_lt.mp hall) nofun
    | some m =>
      rw [burnOf_some, hburn, ok_bind]
      by_cases hm : m < share
      · rw [if_pos hm, told_error, reported_insufficientShares hburn, hbid share m hburn rfl hm]
        exact .unaffordable rfl
      · rw [if_neg hm, told_ok]
        exact .burned h1 (Int.not_lt.mp hall) (by rintro _ ⟨rfl⟩; exact Int.not_lt.mp hm)

end BurnOf

/-- The invariant of balances that may have run out, but for the amplification of a sound
pool. -/
theorem invariant_cases (hn : 2 ≤ balances.length) (hb : ∀ b ∈ balances, 0 ≤ b)
    (ha : 0 < s.ampPrecision) (hl : 2 * s.ampPrecision ≤ s.amp * balances.length) :
    (∃ d, invariant s balances = .ok d) ∨
      ∃ d, invariant s balances = .error (.oversizedWord .uint128 d) := by
  by_cases hfull : ∀ b ∈ balances, 0 < b
  · have h : Sound s balances := ⟨hn, hfull, ha, hl⟩
    obtain ⟨d, -, hr, hinv⟩ := invariant_eq h
    rw [Ratio.check_of_nonneg (hr.pos h).le] at hinv
    rw [hinv]
    split
    · exact .inl ⟨d, rfl⟩
    · exact .inr ⟨d, rfl⟩
  · have hempty : balances.any Operand.isZero = true := by
      push Not at hfull
      obtain ⟨b, hmem, hle⟩ := hfull
      rw [List.any_eq_true]
      exact ⟨b, hmem, by simpa using Int.le_antisymm hle (hb b hmem)⟩
    unfold invariant
    rw [if_neg (Nat.not_lt.mpr hn), if_pos hempty]
    exact .inl ⟨0, rfl⟩

theorem invariant_error (hn : 2 ≤ balances.length) (hb : ∀ b ∈ balances, 0 ≤ b)
    (ha : 0 < s.ampPrecision) (hl : 2 * s.ampPrecision ≤ s.amp * balances.length)
    (h : invariant s balances = .error f) :
    f.reported.kind = .overflow ∨ f.reported.kind = .badValue := by
  obtain ⟨d, hd⟩ | ⟨d, hd⟩ := invariant_cases hn hb ha hl
  · rw [hd] at h
    cases h
  · obtain rfl := Except.error.inj (hd.symm.trans h)
    rw [Fault.reported_oversizedWord]
    split
    · exact .inr rfl
    · exact .inl rfl

/-- A withdrawal that is in order, from a sound pool with shares whose invariant is `d0`. -/
structure Orderly (s : Shape) (balances withdrawals : List Int) (supply d0 : Int) : Prop where
  sound : Sound s balances
  words : ∀ b ∈ balances, b < Width.uint128.limit
  length_eq : balances.length = withdrawals.length
  asked : ∃ w ∈ withdrawals, w ≠ 0
  leaves : ∀ p ∈ balances.zip withdrawals, p.2 < p.1
  supply_pos : 0 < supply
  supply_lt : supply < Width.uint128.limit
  before : invariant s balances = .ok d0

namespace Orderly

theorem d0_pos (h : Orderly s balances withdrawals supply d0) : 0 < d0 :=
  (invariant_reaches h.sound h.before).pos h.sound

theorem d0_lt (h : Orderly s balances withdrawals supply d0) : d0 < Width.uint128.limit :=
  (invariant_bounds h.before).2

theorem burn_left (h : Orderly s balances withdrawals supply d0) :
    burn s balances withdrawals supply fee provided =
      invariant s (List.zipWith (· - ·) balances withdrawals) >>= fun d1 =>
        chargeImbalance d0 d1 balances (List.zipWith (· - ·) balances withdrawals) fee >>=
          fun charged => invariant s charged >>= fun d2 => burnOf supply d0 d2 provided :=
  burn_eq h.sound.count h.length_eq h.asked h.supply_pos.ne' h.leaves h.before

theorem burn_charged (h : Orderly s balances withdrawals supply d0)
    (hr : Remains s balances (List.zipWith (· - ·) balances withdrawals) fee d0 charged) :
    burn s balances withdrawals supply fee provided =
      invariant s charged >>= fun d2 => burnOf supply d0 d2 provided := by
  obtain ⟨d1, h1, hc⟩ := hr
  rw [h.burn_left, h1, ok_bind, hc, ok_bind]

theorem left_error (h : Orderly s balances withdrawals supply d0)
    (h1 : invariant s (List.zipWith (· - ·) balances withdrawals) = .error f) :
    f.reported.kind = .overflow ∨ f.reported.kind = .badValue := by
  have hl := length_zipWith_eq (f := (· - ·)) h.length_eq
  exact invariant_error (hl ▸ h.sound.count) (left_nonneg h.leaves) h.sound.parts
    (hl ▸ h.sound.amplified) h1

theorem charged_error (h : Orderly s balances withdrawals supply d0)
    (hr : Remains s balances (List.zipWith (· - ·) balances withdrawals) fee d0 charged)
    (h2 : invariant s charged = .error f) :
    f.reported.kind = .overflow ∨ f.reported.kind = .badValue := by
  obtain ⟨d1, -, hc⟩ := hr
  have hl := charged_length (length_zipWith_eq h.length_eq) hc
  exact invariant_error (hl ▸ h.sound.count) (charged_nonneg hc) h.sound.parts
    (hl ▸ h.sound.amplified) h2

/-- The fee is refused only where it is more than what is left of an asset. -/
theorem fee_error (h : Orderly s balances withdrawals supply d0)
    (h1 : invariant s (List.zipWith (· - ·) balances withdrawals) = .ok d1)
    (hc : chargeImbalance d0 d1 balances (List.zipWith (· - ·) balances withdrawals) fee =
      .error f) : ∃ amount balance position, f = .feeAboveBalance amount balance position ∧
        f.reported = if Text.isOverlong amount then .numeralTooLong else f := by
  obtain ⟨h0, hw⟩ := invariant_bounds h1
  have hwords : ∀ b ∈ balances, 0 ≤ b ∧ b < Width.uint128.limit := by
    intro b hb
    exact ⟨(h.sound.positive b hb).le, h.words b hb⟩
  obtain ⟨amount, balance, hmem, position, hlt, rfl⟩ :=
    chargeImbalance_error h.sound.count hwords h0 hw h.d0_pos hc
  refine ⟨amount, balance, position, rfl, ?_⟩
  rw [Fault.reported_of_pair rfl rfl]
  -- What is left has no more digits than the fee.
  by_cases hlong : Text.isOverlong amount = true
  · rw [hlong, Bool.true_or]
  · have hbalance : Text.isOverlong balance = false := by
      have hnonneg := left_nonneg h.leaves balance hmem
      rw [Bool.not_eq_true, Text.isOverlong_eq_false] at hlong
      rw [Text.isOverlong_eq_false]
      omega
    rw [hbalance, Bool.or_false]

theorem upset_kind (h : Orderly s balances withdrawals supply d0)
    (hu : Upset s balances (List.zipWith (· - ·) balances withdrawals) supply fee d0 provided
      kind) : kind = .overflow ∨ kind = .underflow ∨ kind = .badValue := by
  cases hu with
  | left h1 => exact (h.left_error h1).imp_right .inr
  | charged hr h2 => exact (h.charged_error hr h2).imp_right .inr
  | grown => exact .inr (.inl rfl)
  | drained => exact .inl rfl
  | overcharged | outbid => exact .inr (.inr rfl)

theorem burn_upset (h : Orderly s balances withdrawals supply d0)
    (hu : Upset s balances (List.zipWith (· - ·) balances withdrawals) supply fee d0 provided
      kind) :
    ∃ f, told (burn s balances withdrawals supply fee provided) = .error f ∧ f.kind = kind := by
  cases hu with
  | @left f h1 =>
    rw [h.burn_left, h1, error_bind]
    exact ⟨_, rfl, rfl⟩
  | @overcharged d1 amount balance position h1 hc hlong =>
    obtain ⟨_, _, _, heq, hreported⟩ := h.fee_error h1 hc
    cases heq
    rw [h.burn_left, h1, ok_bind, hc, error_bind, told_error, hreported, if_pos hlong]
    exact ⟨_, rfl, rfl⟩
  | @charged _ f hr h2 =>
    rw [h.burn_charged hr, h2, error_bind]
    exact ⟨_, rfl, rfl⟩
  | @grown _ d2 hr h2 hlt =>
    rw [h.burn_charged hr, h2, ok_bind, told_burnOf_grown h.d0_pos (invariant_bounds h2).2 hlt]
    exact ⟨_, rfl, rfl⟩
  | drained hr h2 hfull =>
    rw [h.burn_charged hr, h2, ok_bind, told_burnOf_drained h.d0_pos h.d0_lt h.supply_pos hfull]
    exact ⟨_, rfl, rfl⟩
  | @outbid _ d2 share m hr h2 hburn hm hlt hlong =>
    rw [h.burn_charged hr, h2, ok_bind, hm, burnOf_some, hburn, ok_bind, if_pos hlt, told_error,
      reported_insufficientShares hburn, if_pos hlong]
    exact ⟨_, rfl, rfl⟩

theorem burn_foreseen (h : Orderly s balances withdrawals supply d0)
    (hu : ∀ kind, ¬ Upset s balances (List.zipWith (· - ·) balances withdrawals) supply fee d0
      provided kind) :
    Foreseen supply provided (told (burn s balances withdrawals supply fee provided)) := by
  match h1 : invariant s (List.zipWith (· - ·) balances withdrawals) with
  | .error f => exact absurd (.left h1) (hu _)
  | .ok d1 =>
    match hc : chargeImbalance d0 d1 balances (List.zipWith (· - ·) balances withdrawals) fee with
    | .error f =>
      obtain ⟨amount, balance, position, rfl, hreported⟩ := h.fee_error h1 hc
      have hshort : ¬ Text.isOverlong amount = true := fun hlong => hu _ (.overcharged h1 hc hlong)
      rw [h.burn_left, h1, ok_bind, hc, error_bind, told_error, hreported, if_neg hshort]
      exact .illiquid rfl
    | .ok charged =>
      have hr : Remains s balances _ fee d0 charged := ⟨d1, h1, hc⟩
      rw [h.burn_charged hr]
      match h2 : invariant s charged with
      | .error f => exact absurd (.charged hr h2) (hu _)
      | .ok d2 =>
        have hle : d2 ≤ d0 := Int.not_lt.mp fun hlt => hu _ (.grown hr h2 hlt)
        have hroom : d2 = 0 → supply + 1 ≠ Width.uint128.limit := by
          rintro rfl hfull
          exact hu _ (.drained hr h2 hfull)
        rw [ok_bind]
        refine burnOf_foreseen h.d0_pos h.d0_lt (invariant_bounds h2).1 hle h.supply_pos
          h.supply_lt hroom ?_
        intro share m hburn hm hlt
        rw [← Bool.not_eq_true]
        exact fun hlong => hu _ (.outbid hr h2 hburn hm hlt hlong)

end Orderly

/-- A withdrawal that is in order comes to what is foreseen, unless it is upset, and then its caller
gets the fault that belongs to it. In particular nothing is ever divided by zero. -/
theorem burn_foreseen_iff (s : Shape) (balances withdrawals : List Int) (supply fee d0 : Int)
    (provided : Option Int) (h : Orderly s balances withdrawals supply d0) :
    (Foreseen supply provided (told (burn s balances withdrawals supply fee provided)) ↔
      ∀ kind, ¬ Upset s balances (List.zipWith (· - ·) balances withdrawals) supply fee d0 provided
        kind) ∧
    ∀ kind, Upset s balances (List.zipWith (· - ·) balances withdrawals) supply fee d0 provided
        kind →
      (kind = .overflow ∨ kind = .underflow ∨ kind = .badValue) ∧
        ∃ f, told (burn s balances withdrawals supply fee provided) = .error f ∧
          f.kind = kind := by
  refine ⟨⟨?_, h.burn_foreseen⟩, ?_⟩
  · intro hf kind hu
    obtain ⟨f, hburn, rfl⟩ := h.burn_upset hu
    rw [hburn] at hf
    exact not_foreseen (h.upset_kind hu) hf
  · intro kind hu
    exact ⟨h.upset_kind hu, h.burn_upset hu⟩

/-- A withdrawal of one asset that nothing upsets, and one of a single unit that is upset. -/
theorem burn_foreseen_iff_single :
    (Orderly (.usual 10000) [1000000, 1000000] [100000, 0] 2000000 2000000 ∧
      ∀ kind, ¬ Upset (.usual 10000) [1000000, 1000000] [900000, 1000000] 2000000 5000000 2000000
        none kind) ∧
    Orderly (.usual 100) [159, 5] [1, 0] 1 93 ∧
      Upset (.usual 100) [159, 5] [158, 5] 1 5000000 93 none .underflow ∧
      ∃ f, told (burn (.usual (100 : Int)) [(159 : Int), 5] [1, 0] 1 (5000000 : Int) none) =
        .error f ∧ f.kind = .underflow := by
  have hround : Orderly (.usual 10000) [1000000, 1000000] [100000, 0] 2000000 2000000 :=
    ⟨⟨by decide, by decide, by decide, by decide⟩, by decide, rfl, by decide, by decide, by decide,
      by decide, by decide +kernel⟩
  have hskewed : Orderly (.usual 100) [159, 5] [1, 0] 1 93 :=
    ⟨⟨by decide, by decide, by decide, by decide⟩, by decide, rfl, by decide, by decide, by decide,
      by decide, by decide +kernel⟩
  have hremains : Remains (.usual 100) [159, 5] [158, 5] 5000000 93 [158, 5] :=
    ⟨94, by decide +kernel, by decide +kernel⟩
  have hgrown : invariant (.usual (100 : Int)) [(158 : Int), 5] = .ok 94 := by decide +kernel
  have hupset : Upset (.usual 100) [159, 5] [158, 5] 1 5000000 93 none .underflow :=
    .grown hremains hgrown (by decide)
  obtain ⟨hiff, -⟩ := burn_foreseen_iff _ _ _ _ 5000000 _ none hround
  obtain ⟨-, hfails⟩ := burn_foreseen_iff _ _ _ _ 5000000 _ none hskewed
  have hburn : burn (.usual (10000 : Int)) [(1000000 : Int), 1000000] [100000, 0] 2000000
      (5000000 : Int) none = .ok 100052 := by decide +kernel
  refine ⟨⟨hround, ?_⟩, hskewed, hupset, (hfails .underflow hupset).2⟩
  refine hiff.mp ?_
  rw [hburn]
  exact .burned (by decide) (by decide) (by simp)

/-- A unit less of the larger asset, and the invariant is larger. The invariant before a
withdrawal may fill its word, and then it no longer fits after one. Where the fee takes the last
unit of an asset, so that all of a full supply is due, the share more that is asked for is too
large for its word before it is compared with the supply. And no caller is told of a fee or of a
bound that is too long to be written. -/
theorem withdrawal_unforeseen :
    told (burn (.usual (100 : Int)) [(159 : Int), 5] [1, 0] 1 (5000000 : Int) none) =
        .error (.underflow (93 : Int) (94 : Int) (-1 : Int)) ∧
      told (burn (.usual (1000 : Int)) [(327783591544770089479441027849225036427 : Int),
          340282366086674656532805954623039297378, 437044097536318065276263580218704365] [1, 0, 0]
          1000000 (5000000 : Int) none) =
        .error (.oversizedWord .uint128 340282366920938463463374607431768211456) ∧
      told (burn (.usual (10000 : Int)) [(30000 : Int), 30000] [29999, 0]
          340282366920938463463374607431768211455 (5000000 : Int) none) =
        .error (.oversizedWord .uint128 340282366920938463463374607431768211456) ∧
      told (burn (.usual (10000 : Int)) [(Text.tenTo 20 : Int), Text.tenTo 20] [Text.tenTo 19, 0]
          (Text.tenTo 20) (Text.tenTo 4299 : Int) none) = .error .numeralTooLong ∧
      told (burn (.usual (10000 : Int)) [(1000000 : Int), 1000000] [100000, 0] 2000000
          (5000000 : Int) (some (-(Text.tenTo 4300 : Int)))) = .error .numeralTooLong := by
  decide +kernel

end Liquidity.Stable
