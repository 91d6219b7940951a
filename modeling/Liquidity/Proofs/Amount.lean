import Liquidity.Proofs.Numeric.Quotient
import Liquidity.Proofs.Pool.Members
import Liquidity.Proofs.Text.Numerals
import Liquidity.Schema.Decode

/-! Amounts out of texts. A text is the amount that it spells as a numeral. It is refused where it
spells none, or one that is negative or above the maximum. Whatever takes amounts takes the
numeral for the number. -/

namespace Liquidity
set_option autoImplicit false

open Outcome Text

variable {s name : String} {ds : List Nat} {v maximum : Int}

namespace Amount

/-- Why a text is no amount up to a maximum. -/
inductive Refused (s : String) (maximum : Int) : AmountFault → Prop
  | unreadable (h : ∀ ds v, ¬ Spells s ds v) : Refused s maximum (.unreadable s)
  | negative {ds : List Nat} {v : Int} (h : Spells s ds v) (hv : v < 0) :
      Refused s maximum (.isNegative v)
  | tooLarge {ds : List Nat} {v : Int} (h : Spells s ds v) (h0 : 0 ≤ v) (hv : maximum < v) :
      Refused s maximum (.tooLarge v (.int maximum))

theorem unbounded_str (s : String) : unbounded (.str s) =
    match integer? s with
    | some n => natural n
    | none => .error (.unreadable s) := rfl

theorem unbounded_spelled (h : Spells s ds v) (hl : ds.length ≤ digitLimit) :
    unbounded (.str s) = unbounded (.int v) := by
  rw [unbounded_str, integer?_eq_some.mpr ⟨ds, h, hl⟩]
  rfl

theorem unbounded_unreadable (h : ∀ ds v, ¬ Spells s ds v) :
    unbounded (.str s) = .error (.unreadable s) := by
  have hnone : integer? s = none := by
    cases hread : integer? s with
    | none => rfl
    | some v =>
      obtain ⟨ds, hs, -⟩ := integer?_eq_some.mp hread
      exact absurd hs (h ds v)
  rw [unbounded_str, hnone]

theorem checked_int (name : String) (maximum n : Int) : checked name (.int maximum) (.int n) =
    if n < 0 then .error (.amount name (.isNegative n))
    else if maximum < n then .error (.amount name (.tooLarge n (.int maximum)))
    else .ok n := by
  unfold checked unbounded natural
  by_cases hn : n < 0
  · simp [hn]
  · by_cases hm : maximum < n <;> simp [hn, hm, Operand.less]

theorem checked_spelled (h : Spells s ds v) (hl : ds.length ≤ digitLimit) :
    checked name (.int maximum) (.str s) = checked name (.int maximum) (.int v) := by
  unfold checked
  rw [unbounded_spelled h hl]

theorem word_spelled (h : Spells s ds v) (hl : ds.length ≤ digitLimit) :
    Schema.word (.str s) = Schema.word (.int v) := by
  unfold Schema.word ofJson
  rw [unbounded_spelled h hl]

/-- What a text comes to as an amount, if it is short enough to be read. -/
theorem checked_cases (name : String) (maximum : Int) (hs : s.length ≤ digitLimit) :
    (∃ ds v, Spells s ds v ∧ 0 ≤ v ∧ v ≤ maximum ∧
      checked name (.int maximum) (.str s) = .ok v) ∨
    ∃ cause, Refused s maximum cause ∧
      checked name (.int maximum) (.str s) = .error (.amount name cause) := by
  by_cases hspelled : ∃ ds v, Spells s ds v
  · obtain ⟨ds, v, h⟩ := hspelled
    rw [checked_spelled h (h.length_le.trans hs), checked_int]
    by_cases hneg : v < 0
    · exact .inr ⟨_, .negative h hneg, if_pos hneg⟩
    · rw [if_neg hneg]
      by_cases hlarge : maximum < v
      · exact .inr ⟨_, .tooLarge h (by omega) hlarge, if_pos hlarge⟩
      · exact .inl ⟨ds, v, h, by omega, by omega, if_neg hlarge⟩
  · have hnone : ∀ ds v, ¬ Spells s ds v := fun ds v h => hspelled ⟨ds, v, h⟩
    refine .inr ⟨_, .unreadable hnone, ?_⟩
    unfold checked
    rw [unbounded_unreadable hnone]

end Amount

theorem Asset.of_spelled (id : AssetId) (h : Spells s ds v) (hl : ds.length ≤ digitLimit) :
    Asset.of id (.str s) = Asset.of id (.int v) := by
  have hword : Amount.word (Amount.ofJson Amount.maximum128 (.str s)) =
      Amount.word (Amount.ofJson Amount.maximum128 (.int v)) := Amount.word_spelled h hl
  unfold Asset.of
  rw [hword]

theorem Asset.ofJson_spelled (info : Json) (h : Spells s ds v) (hl : ds.length ≤ digitLimit) :
    Asset.ofJson (.obj [("info", info), ("amount", .str s)]) =
      Asset.ofJson (.obj [("info", info), ("amount", .int v)]) := by
  have hword : Schema.required "amount" Schema.word [("info", info), ("amount", .str s)] =
      Schema.required "amount" Schema.word [("info", info), ("amount", .int v)] :=
    congrArg (Schema.within (.member "amount")) (Amount.word_spelled h hl)
  unfold Asset.ofJson Schema.record
  rw [ok_bind, ok_bind, hword]
  rfl

/-- An amount is stated by its number and by the numeral of it alike. -/
theorem Asset.of_intText (id : AssetId) (h0 : 0 ≤ v) (hv : v < Uint128.limit) :
    ∃ a : Asset, a.id = id ∧ (a.amount.val : Int) = v ∧ Asset.of id (.int v) = .ok a ∧
      Asset.of id (.str (intText v)) = .ok a := by
  obtain ⟨a, ha⟩ := Asset.exists_of_int.mpr ⟨h0, hv⟩
  have hdigits : (digits v.natAbs).length ≤ 39 := by
    refine Decimal.numDigits_le (by decide) ?_
    have hlimit : Uint128.limit = 340282366920938463463374607431768211456 := rfl
    omega
  have hspelled := Asset.of_spelled id (spells_intText v) (hdigits.trans (by decide))
  obtain ⟨hid, hamount⟩ := Asset.of_int_eq_ok.mp ha
  exact ⟨a, hid, hamount, ha, hspelled.trans ha⟩

/-- A text is read as the amount that it spells, between zero and the maximum, and every other is
refused for what it is. So the numeral of an amount is the amount, and an asset can be stated by
either. -/
theorem Amount.texts_read_exactly (s name : String) (maximum : Int) (hs : s.length ≤ digitLimit) :
    (∀ v, checked name (.int maximum) (.str s) = .ok v ↔
      (∃ ds, Spells s ds v) ∧ 0 ≤ v ∧ v ≤ maximum) ∧
    ((¬ ∃ ds v, Spells s ds v ∧ 0 ≤ v ∧ v ≤ maximum) → ∃ cause, Refused s maximum cause ∧
      checked name (.int maximum) (.str s) = .error (.amount name cause) ∧
      (Fault.amount name cause).reported.kind = .badValue) ∧
    (∀ v, 0 ≤ v → v ≤ maximum → (intText v).length ≤ digitLimit →
      checked name (.int maximum) (.str (intText v)) = .ok v) ∧
    (∀ (v : Int) (id : AssetId), 0 ≤ v → v < Uint128.limit → ∃ a : Asset, a.id = id ∧ (a.amount.val : Int) = v ∧
      Asset.of id (.int v) = .ok a ∧ Asset.of id (.str (intText v)) = .ok a) ∧
    ∀ ds v, Spells s ds v → ∀ id info, Asset.of id (.str s) = Asset.of id (.int v) ∧
      Asset.ofJson (.obj [("info", info), ("amount", .str s)]) =
        Asset.ofJson (.obj [("info", info), ("amount", .int v)]) := by
  have haccepted : ∀ {t : String} {ds v}, t.length ≤ digitLimit → Spells t ds v → 0 ≤ v →
      v ≤ maximum → checked name (.int maximum) (.str t) = .ok v := by
    intro t ds v ht h h0 hv
    rw [checked_spelled h (h.length_le.trans ht), checked_int, if_neg (by omega), if_neg (by omega)]
  refine ⟨fun v => ⟨fun hv => ?_, ?_⟩, fun hnone => ?_, ?_, ?_, ?_⟩
  · rcases checked_cases name maximum hs with ⟨ds, w, h, h0, hw, hread⟩ | ⟨cause, -, hread⟩
    · obtain rfl := Except.ok.inj (hread.symm.trans hv)
      exact ⟨⟨ds, h⟩, h0, hw⟩
    · rw [hread] at hv
      cases hv
  · rintro ⟨⟨ds, h⟩, h0, hv⟩
    exact haccepted hs h h0 hv
  · rcases checked_cases name maximum hs with ⟨ds, v, h, h0, hv, -⟩ | ⟨cause, hcause, hread⟩
    · exact absurd ⟨ds, v, h, h0, hv⟩ hnone
    · exact ⟨cause, hcause, hread, rfl⟩
  · exact fun v h0 hv hlength => haccepted hlength (spells_intText v) h0 hv
  · exact fun v id h0 hv => Asset.of_intText id h0 hv
  · intro ds v h id info
    have hl := h.length_le.trans hs
    exact ⟨Asset.of_spelled id h hl, Asset.ofJson_spelled info h hl⟩

/-- Digits of two scripts, with a sign, an underscore and white space, and one too many. -/
theorem Amount.texts_read_exactly_mixed :
    ("\u00a0+\u0663_\u0664\uff15\u3000".length ≤ digitLimit) ∧
    checked "Uint128" (.int 345) (.str "\u00a0+\u0663_\u0664\uff15\u3000") = .ok 345 ∧
    checked "Uint128" (.int 344) (.str "\u00a0+\u0663_\u0664\uff15\u3000") =
      .error (.amount "Uint128" (.tooLarge 345 (.int 344))) ∧
    Asset.of (.native "uusd") (.str "\u00a0+\u0663_\u0664\uff15\u3000") =
      Asset.of (.native "uusd") (.int 345) := by
  have hlength : "\u00a0+\u0663_\u0664\uff15\u3000".length ≤ digitLimit := by decide
  have hspelled : Spells "\u00a0+\u0663_\u0664\uff15\u3000" [3, 4, 5] 345 := by
    refine ⟨['\u00a0'], ['+', '\u0663', '_', '\u0664', '\uff15'], ['\u3000'], rfl, by simp [isBlank], ?_⟩
    exact .plus (.parted ⟨by decide, 0x660, by decide, rfl⟩
      (.next ⟨by decide, 0x660, by decide, rfl⟩ (.last ⟨by decide, 0xFF10, by decide, rfl⟩)))
  obtain ⟨hread, -, -, -, hasset⟩ := texts_read_exactly _ "Uint128" 345 hlength
  obtain ⟨-, hrefused, -⟩ := texts_read_exactly _ "Uint128" 344 hlength
  refine ⟨hlength, (hread 345).mpr ⟨⟨_, hspelled⟩, by decide, by decide⟩, ?_,
    (hasset _ _ hspelled (.native "uusd") .null).1⟩
  obtain ⟨cause, hcause, hfault, -⟩ := hrefused (by
    rintro ⟨ds, v, h, -, hv⟩
    obtain ⟨-, rfl⟩ := h.unique hspelled
    exact absurd hv (by decide))
  rw [hfault]
  cases hcause with
  | unreadable h => exact absurd hspelled (h _ _)
  | negative h hv =>
    obtain ⟨-, rfl⟩ := h.unique hspelled
    exact absurd hv (by decide)
  | tooLarge h _ _ =>
    obtain ⟨-, rfl⟩ := h.unique hspelled
    rfl

end Liquidity
