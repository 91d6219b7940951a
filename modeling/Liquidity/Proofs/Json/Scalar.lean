import Mathlib.Tactic.SplitIfs
import Liquidity.Json.Token
import Liquidity.Json.Writer
import Liquidity.Proofs.Text.Digits

/-! Scalars that are written and scanned again: strings behind their escapes, and whole numbers
in front of whatever may follow a value. -/

namespace Liquidity.Json
set_option autoImplicit false

open Text

section Strings

variable {c : Char} {s rest : List Char}

theorem hexUnit?_control (h : c.toNat < 0x20) :
    hexUnit? '0' '0' (hexChar (c.toNat / 16)) (hexChar (c.toNat % 16)) = some c.toNat := by
  have : ∀ n : Fin 0x20,
      hexUnit? '0' '0' (hexChar (n.val / 16)) (hexChar (n.val % 16)) = some n.val := by decide
  exact this ⟨c.toNat, h⟩

theorem scanString_unit {u : Nat} {x y : Char} (rest : List Char)
    (hu : hexUnit? '0' '0' x y = some u) (hs : isSurrogate u = false) :
    scanString ('\\' :: 'u' :: '0' :: '0' :: x :: y :: rest) =
      (scanString rest).map fun (s, after) => (Char.ofNat u :: s, after) := by
  have hmap (o : Option (List Char × List Char)) :
      (o.bind fun (s, after) => some (Char.ofNat u :: s, after)) =
        o.map fun (s, after) => (Char.ofNat u :: s, after) := by cases o <;> rfl
  -- The next escape may look as if it were the other half of a pair.
  rw [scanString.eq_def]
  split <;> simp only [List.cons.injEq, Char.reduceEq, reduceCtorEq, false_and, true_and] at *
  case h_3 he =>
    obtain ⟨rfl, rfl, rfl, rfl, rfl⟩ := he
    rw [hu, Option.bind_eq_bind, Option.bind_some, hs]
    exact hmap _
  case h_4 he =>
    obtain ⟨rfl, rfl, rfl, rfl, rfl⟩ := he
    rw [hu, Option.bind_eq_bind, Option.bind_some, hs]
    exact hmap _
  case h_5 hno he =>
    obtain ⟨rfl, rfl⟩ := he
    exact (hno _ _ _ _ _ rfl rfl).elim
  case h_6 hno he =>
    obtain ⟨rfl, rfl⟩ := he
    exact (hno _ _ rfl rfl).elim

theorem scanString_short {x : Char} (hx : shortEscape? c = some x) :
    scanString ('\\' :: c :: rest) = (scanString rest).map fun (s, after) => (x :: s, after) := by
  have hu : c ≠ 'u' := by
    intro hc
    rw [hc] at hx
    cases hx
  rw [scanString, hx]
  · cases scanString rest <;> rfl
  · intros
    contradiction
  · intros
    contradiction

theorem scanString_plain (hb : c ≠ '\\') (hq : c ≠ '"') (hc : ¬ c.toNat < 0x20) :
    scanString (c :: rest) = (scanString rest).map fun (s, after) => (c :: s, after) := by
  have hno : ¬(c = '\\' ∨ c.toNat < 0x20) := not_or.mpr ⟨hb, hc⟩
  rw [scanString, if_neg hno]
  · cases scanString rest <;> rfl
  · exact hq
  all_goals
    intros
    contradiction

theorem scanString_escape (c : Char) (rest : List Char) :
    scanString (escape c ++ rest) = (scanString rest).map fun (s, after) => (c :: s, after) := by
  unfold escape
  split_ifs with hq hb h8 ht hn hf hr hc
  iterate 7
    · subst c
      exact scanString_short rfl
  · have hs : isSurrogate c.toNat = false := by
      simp [isSurrogate]
      omega
    have h := scanString_unit rest (hexUnit?_control hc) hs
    rwa [Char.ofNat_toNat] at h
  · exact scanString_plain hb hq hc

theorem scanString_escapes (s rest : List Char) :
    scanString (s.flatMap escape ++ '"' :: rest) = some (s, rest) := by
  induction s with
  | nil => simp [scanString]
  | cons c s ih =>
    rw [List.flatMap_cons, List.append_assoc, scanString_escape, ih]
    rfl

theorem scanScalar_quote (s : String) (rest : List Char) :
    scanScalar (quote s ++ rest) = some (.str s, rest) := by
  have h := scanString_escapes s.toList rest
  simp only [quote, List.cons_append, List.append_assoc, List.nil_append, scanScalar]
  rw [h]
  simp

end Strings

section Numbers

variable {n : Nat} {rest : List Char}

/-- What may follow a value: nothing, or a bracket, a comma or a colon. -/
def Stops (rest : List Char) : Prop := ∀ c ∈ rest.head?, (punctuation? c).isSome

theorem Stops.nil : Stops [] := by simp [Stops]

theorem Stops.cons {c : Char} {t : Token} (h : punctuation? c = some t) (rest : List Char) :
    Stops (c :: rest) := by simp [Stops, h]

theorem punctuation?_cases {c : Char} (h : (punctuation? c).isSome) :
    c = '[' ∨ c = ']' ∨ c = '{' ∨ c = '}' ∨ c = ',' ∨ c = ':' := by
  unfold punctuation? at h
  split at h
  all_goals simp at h ⊢

theorem spanAscii_numeral (h : Stops rest) : spanAscii (numeral n ++ rest) = (digits n, rest) := by
  have hrest : ∀ c ∈ rest.head?, asciiDigit? c = none := by
    intro c hc
    rcases punctuation?_cases (h c hc) with rfl | rfl | rfl | rfl | rfl | rfl <;> rfl
  obtain ⟨htake, hdrop⟩ :=
    span_map (f := digitChar) (fun d hd => asciiDigit?_digitChar (digits_lt n d hd)) hrest
  exact Prod.ext htake hdrop

/-- Neither a fraction nor an exponent begins with punctuation. -/
theorem scan_stops (h : Stops rest) :
    scanFraction rest = some (none, rest) ∧ scanExponent rest = some (none, rest) := by
  cases rest with
  | nil => exact ⟨rfl, rfl⟩
  | cons c rest =>
    rcases punctuation?_cases (h c rfl) with rfl | rfl | rfl | rfl | rfl | rfl <;>
      exact ⟨rfl, rfl⟩

theorem scanNumber_numeral (negative : Bool) (hn : (digits n).length ≤ digitLimit)
    (h : Stops rest) :
    scanNumber negative (numeral n ++ rest) = some (.int (applySign negative n), rest) := by
  have hlong : isLongNumeral (digits n) = false := by simpa [isLongNumeral] using hn
  unfold scanNumber
  rw [spanAscii_numeral h]
  split
  case h_1 he => exact absurd (Prod.mk.inj he).1 (digits_ne_nil n)
  case h_2 he => exact absurd (digits_eq_zero_cons (Prod.mk.inj he).1) (by simp)
  case h_3 he =>
    obtain ⟨rfl, rfl⟩ := Prod.mk.inj he
    simp [hlong, (scan_stops h).1, (scan_stops h).2, numberValue, ofDigits_digits]

/-- What begins with a digit is scanned as a number, behind a minus sign too. -/
theorem scanScalar_digitChar {d : Nat} (hd : d < 10) (cs : List Char) :
    scanScalar (digitChar d :: cs) = scanNumber false (digitChar d :: cs) ∧
      scanScalar ('-' :: digitChar d :: cs) = scanNumber true (digitChar d :: cs) := by
  have hc := digitChar_mem hd
  generalize digitChar d = c at hc
  simp only [List.mem_cons, List.not_mem_nil, or_false] at hc
  rcases hc with rfl | rfl | rfl | rfl | rfl | rfl | rfl | rfl | rfl | rfl <;> exact ⟨rfl, rfl⟩

theorem scanScalar_intNumeral {n : Int} (hn : (digits n.natAbs).length ≤ digitLimit)
    (h : Stops rest) : scanScalar (intNumeral n ++ rest) = some (.int n, rest) := by
  obtain ⟨d, cs, hd, he⟩ := numeral_eq_cons n.natAbs
  unfold intNumeral
  split
  case isTrue hneg =>
    have hs := scanNumber_numeral true hn h
    rw [he, List.cons_append] at hs
    rw [he, List.cons_append, List.cons_append, (scanScalar_digitChar hd _).2, hs]
    simp only [applySign, if_true, Option.some.injEq, Prod.mk.injEq, int.injEq, and_true]
    omega
  case isFalse hneg =>
    have hs := scanNumber_numeral false hn h
    rw [he, List.cons_append] at hs
    rw [he, List.cons_append, (scanScalar_digitChar hd _).1, hs]
    simp only [applySign, Bool.false_eq_true, if_false, Option.some.injEq, Prod.mk.injEq,
      int.injEq, and_true]
    omega

end Numbers
end Liquidity.Json
