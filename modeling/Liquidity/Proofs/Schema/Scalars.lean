import Liquidity.Proofs.Json.Read
import Liquidity.Proofs.Numeric.Binary64
import Liquidity.Proofs.Schema.Faithful
import Liquidity.Proofs.Text.Decimals
import Liquidity.Schema.Encode

/-! The scalars of documents are kept: whole numbers, amounts and decimals are written in one way
however they were read. -/

namespace Liquidity.Schema
set_option autoImplicit false

open Json (Legible)
open Decimal (numDigits numDigits_le)

variable {α : Type} {k : Nat} {src : Source} {j : Json} {n : Int} {d : Decimal}

theorem string_faithful : Faithful (k + 1) (fun _ => string) Json.str := by
  constructor
  intro src s j hread
  exact .str fun _ => rfl

theorem mem_of_choice {choices : List α} {label : α → String} {c : Complaint} {a : α}
    (h : choice choices label c j = .ok a) : a ∈ choices := by
  unfold choice at h
  split at h
  · split at h
    · rename_i hfind
      cases h
      exact List.mem_of_find?_eq_some hfind
    · cases h
  · cases h

theorem choice_faithful {choices : List α} {label : α → String} {c : Complaint}
    (h : ∀ a ∈ choices, choices.find? (label · == label a) = some a) :
    Faithful (k + 1) (fun _ => choice choices label c) fun a => .str (label a) := by
  constructor
  intro src a j hread
  -- The labels tell the choices apart, so the first choice of this label is `a` itself.
  have hfind := h a (mem_of_choice hread)
  apply Kept.str
  intro src
  simp only [choice, hfind]

theorem literal_eq_ok {tag : String} : literal tag j = .ok () ↔ j = .str tag := by
  cases j with
  | str s => by_cases h : s = tag <;> simp [literal, refuse, h]
  | _ => simp [literal, refuse]

theorem literal_faithful (tag : String) :
    Faithful (k + 1) (fun _ => literal tag) fun _ => .str tag := by
  constructor
  intro src _ j hread
  exact .str fun _ => literal_eq_ok.mpr rfl

section Whole

theorem plain_legible {s : List Char} (h : Text.plain s = .value n) : Legible (.int n) := by
  unfold Text.plain at h
  dsimp only at h
  generalize (if (s.head? == some '-') = true then s.tail else s) = body at h
  split at h
  · cases h
  · cases h
  · split_ifs at h with hlong hbody
    cases h
    apply Json.legible_applySign _ _ (Nat.not_lt.mp hlong)
    intro d hd
    obtain ⟨c, -, hc⟩ := Text.mem_span hd
    exact (Text.asciiDigit?_eq_some.mp hc).1

theorem whole_legible {s : String} (h : Text.whole s = .value n) : Legible (.int n) := by
  unfold Text.whole at h
  split at h
  · rename_i hplain
    cases h
    exact plain_legible hplain
  · cases h
  · split at h
    · rename_i hplain
      cases h
      obtain ⟨t, -, hplain⟩ := Option.map_eq_some_iff.mp hplain
      exact plain_legible hplain
    · cases h

theorem legible_of_lt (h : n.natAbs < 10 ^ 40) : Legible (.int n) :=
  (numDigits_le (by decide) h).trans (by decide)

theorem intOfFloat_legible {x : Binary64} (h : intOfFloat x = .ok n) : Legible (.int n) := by
  unfold intOfFloat at h
  split at h
  · split_ifs at h with hwhole hlimit
    · cases h
    · cases h
      apply legible_of_lt
      unfold int64Limit at hlimit
      omega
    · cases h
  · cases h

theorem integer_legible (hread : integer j = .ok n) (hl : j.Throughout Legible) :
    (Json.int n).Throughout Legible := by
  rw [Json.throughout_int]
  unfold integer at hread
  split at hread
  case h_1 =>
    cases hread
    exact Json.throughout_int.mp hl
  case h_2 b =>
    cases hread
    cases b <;> exact legible_of_lt (by decide)
  case h_3 x => exact intOfFloat_legible hread
  case h_4 s =>
    split at hread
    · rename_i hwhole
      cases hread
      exact whole_legible hwhole
    · cases hread
    · cases hread
  case h_5 => cases hread

theorem integer_faithful : Faithful (k + 1) (fun _ => integer) Json.int := by
  constructor
  intro src n j hread
  constructor
  · intro src
    rfl
  · exact .int n
  · exact integer_legible hread

theorem natural_eq_ok {n : { n : Int // 0 ≤ n }} : natural j = .ok n ↔ integer j = .ok n.val := by
  obtain ⟨n, hn⟩ := n
  unfold natural
  cases integer j with
  | error f => simp
  | ok m =>
    simp only [Except.ok.injEq]
    split
    · simp [Subtype.ext_iff]
    · rename_i hm
      have hne : m ≠ n := fun he => hm (he ▸ hn)
      simp [refuse, hne]

theorem natural_faithful :
    Faithful (k + 1) (fun _ => natural) fun n => .int n.val :=
  integer_faithful.restrict fun _ _ _ => natural_eq_ok

theorem word_val (w : Uint128) : word (.int w.val) = .ok w := by
  have hlt : (w.val : Int) < 340282366920938463463374607431768211456 :=
    Int.ofNat_lt.mpr w.property
  have hnatural : Amount.natural w.val = .ok (w.val : Int) := by
    rw [Amount.natural, if_neg (by omega)]
  have hbounded : Amount.bounded Amount.maximum128 w.val = .ok (w.val : Int) := by
    rw [Amount.bounded, Amount.maximum128, Width.limit_uint128, if_neg (by omega)]
  have hamount : Amount.ofJson Amount.maximum128 (.int w.val) = .ok (w.val : Int) := by
    change Amount.natural w.val >>= _ = _
    rw [hnatural]
    exact hbounded
  have hword : Uint128.ofInt? w.val = some w := dif_pos ⟨Int.natCast_nonneg _, w.property⟩
  rw [word, hamount, Amount.word, hword]

theorem word_faithful : Faithful (k + 1) (fun _ => word) fun w => .int w.val := by
  constructor
  intro src w j hread
  constructor
  · intro src
    exact word_val w
  · exact .int w.val
  · intro _
    apply Json.Throughout.scalar rfl
    apply legible_of_lt
    have hlt : w.val < 340282366920938463463374607431768211456 := w.property
    omega

end Whole

section Decimals

open Decimal (Numeral)
open Outcome

theorem inRange_of_near (hc : numDigits d.coefficient ≤ 10000) (hlow : -10000 ≤ d.exponent)
    (hhigh : d.exponent ≤ 10000) : d.inRange := by
  have hadjusted : d.adjusted ≤ Decimal.maxAdjusted := by
    unfold Decimal.adjusted Decimal.maxAdjusted
    omega
  have hexponent : Decimal.minExponent ≤ d.exponent := by
    unfold Decimal.minExponent
    omega
  simp [Decimal.inRange, hadjusted, hexponent]

theorem numDigits_mul_tenTo (c e : Nat) : numDigits (c * Text.tenTo e) ≤ numDigits c + e :=
  Decimal.numDigits_le_add (Nat.mul_comm _ _).le

theorem floatDecimal_inRange (src : Source) (negative : Bool) {m : Nat} {q : Int}
    (h : Binary64.Fits m q) : (floatDecimal src negative m q).inRange := by
  cases src with
  | value =>
    obtain ⟨hc, hlow, hhigh⟩ := Binary64.shortest_bounds .even h
    unfold floatDecimal
    dsimp only
    generalize Binary64.shortest .even m q = z at *
    have hdigits := numDigits_mul_tenTo z.1 (z.2 + 1).toNat
    split
    · apply inRange_of_near <;> dsimp only <;> omega
    · apply inRange_of_near <;> dsimp only <;> omega
  | text =>
    obtain ⟨hc, hlow, hhigh⟩ := Binary64.shortest_bounds .up h
    unfold floatDecimal
    dsimp only
    generalize Binary64.shortest .up m q = z at *
    have hdigits := numDigits_mul_tenTo z.1 z.2.toNat
    split
    · apply inRange_of_near <;> dsimp only <;> omega
    · apply inRange_of_near <;> dsimp only <;> omega

theorem finiteDecimal_eq_ok {x : Numeral} : finiteDecimal x = .ok d ↔ x = .finite d := by
  cases x <;> simp [finiteDecimal, refuse]

theorem ofParts_inRange {parts : List Json} (h : Numeral.ofParts parts = .ok (.finite d)) :
    d.inRange := by
  unfold Numeral.ofParts at h
  split at h
  · obtain ⟨negative, -, h⟩ := bind_eq_ok.mp h
    obtain ⟨ending, -, h⟩ := bind_eq_ok.mp h
    obtain ⟨ds, -, h⟩ := bind_eq_ok.mp h
    cases ending with
    | exponent e =>
      dsimp only at h
      split at h
      · rename_i hrange
        cases h
        exact hrange
      · cases h
    | infinite => cases h
    | undefined signals => cases h
  · cases h

theorem word?_ne_finite {negative : Bool} {s : List Char} :
    Decimal.word? negative s ≠ some (.finite d) := by
  unfold Decimal.word?
  split <;> simp

theorem read?_inRange {s : String} (h : Decimal.read? s = some (.finite d)) : d.inRange := by
  unfold Decimal.read? at h
  dsimp only at h
  split at h
  · rename_i hword
    cases h
    exact absurd hword word?_ne_finite
  · obtain ⟨x, hx, hfinite⟩ := Option.map_eq_some_iff.mp h
    cases hfinite
    unfold Decimal.unsigned? at hx
    dsimp only at hx
    split at hx
    · cases hx
    · obtain ⟨e, -, hx⟩ := Option.bind_eq_some_iff.mp hx
      split at hx
      · rename_i hrange
        cases hx
        exact hrange
      · cases hx

theorem decimal_inRange (h : decimal src j = .ok d) : d.inRange := by
  unfold decimal at h
  split at h
  · dsimp only at h
    split at h
    · rename_i hrange
      cases h
      exact hrange
    · cases h
  · rename_i hfits
    cases h
    exact floatDecimal_inRange src _ hfits
  · cases h
  · split at h
    · rename_i hread
      rw [finiteDecimal_eq_ok.mp h] at hread
      exact read?_inRange hread
    · cases h
  · unfold decimalOfParts at h
    split at h
    · cases h
    · split at h
      · rename_i hparts
        rw [finiteDecimal_eq_ok.mp h] at hparts
        exact ofParts_inRange hparts
      · cases h
      · cases h
      · cases h
  · cases h

theorem decimal_text (h : d.inRange) : decimal src d.toJson = .ok d := by
  simp only [Decimal.toJson, decimal, Decimal.read?_text h, finiteDecimal]

/-- A decimal keeps its digits and its exponent, however it was stated. -/
theorem decimal_faithful : Faithful (k + 1) decimal Decimal.toJson := by
  constructor
  intro src d j hread
  exact .str fun _ => decimal_text (decimal_inRange hread)

theorem positiveDecimal_eq_ok {x : { d : Decimal // Decimal.zero < d }} :
    positiveDecimal src j = .ok x ↔ decimal src j = .ok x.val := by
  unfold positiveDecimal
  cases decimal src j with
  | error f => simp
  | ok d =>
    simp only [Except.ok.injEq]
    split
    · simp [Subtype.ext_iff]
    · rename_i hd
      have hne : d ≠ x.val := fun he => hd (he ▸ x.property)
      simp [refuse, hne]

theorem ratio_eq_ok {x : Ratio} : ratio src j = .ok x ↔ decimal src j = .ok x.val := by
  unfold ratio
  cases decimal src j with
  | error f => simp
  | ok d =>
    simp only [Except.ok.injEq]
    split
    · split
      · simp [Subtype.ext_iff]
      · rename_i hd
        have hne : d ≠ x.val := fun he => hd (he ▸ x.property.1)
        simp [refuse, hne]
    · rename_i hd
      have hne : d ≠ x.val := fun he => hd (he ▸ x.property.2)
      simp [refuse, hne]

theorem positiveDecimal_faithful :
    Faithful (k + 1) positiveDecimal fun x => x.val.toJson :=
  decimal_faithful.restrict fun _ _ _ => positiveDecimal_eq_ok

theorem ratio_faithful : Faithful (k + 1) ratio fun x => x.val.toJson :=
  decimal_faithful.restrict fun _ _ _ => ratio_eq_ok

end Decimals
end Liquidity.Schema
