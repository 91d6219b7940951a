import Mathlib.Data.List.Basic
import Mathlib.Data.List.TakeWhile
import Mathlib.Data.Nat.Digits.Defs
import Liquidity.Proofs.Text.Digits

/-! Numerals by their grammar: white space, a sign or none, digits of any script of which
neighbours may be parted by one underscore, and white space again. The reader accepts the texts of
the grammar up to its limit of digits, each with the number that the digits come to. -/

namespace Liquidity.Text
set_option autoImplicit false

section Grammar

/-- A character that stands for the digit `d` in some script. -/
def StandsFor (c : Char) (d : Nat) : Prop := d < 10 ∧ ∃ z ∈ zeroes, c.toNat = z + d

/-- One digit or more. An underscore has a digit on each side. -/
inductive DigitRun : List Char → List Nat → Prop
  | last {c : Char} {d : Nat} (h : StandsFor c d) : DigitRun [c] [d]
  | next {c : Char} {d : Nat} {cs : List Char} {ds : List Nat} (h : StandsFor c d)
      (rest : DigitRun cs ds) : DigitRun (c :: cs) (d :: ds)
  | parted {c : Char} {d : Nat} {cs : List Char} {ds : List Nat} (h : StandsFor c d)
      (rest : DigitRun cs ds) : DigitRun (c :: '_' :: cs) (d :: ds)

/-- What digits come to, the most significant first. -/
def value (ds : List Nat) : Nat := Nat.ofDigits 10 ds.reverse

inductive Signed : List Char → List Nat → Int → Prop
  | plain {cs : List Char} {ds : List Nat} (h : DigitRun cs ds) : Signed cs ds (value ds)
  | plus {cs : List Char} {ds : List Nat} (h : DigitRun cs ds) : Signed ('+' :: cs) ds (value ds)
  | minus {cs : List Char} {ds : List Nat} (h : DigitRun cs ds) :
      Signed ('-' :: cs) ds (-(value ds : Int))

/-- A text that states the number `v` in the digits `ds`. -/
def Spells (s : String) (ds : List Nat) (v : Int) : Prop :=
  ∃ before body after, s.toList = before ++ body ++ after ∧
    (∀ c ∈ before ++ after, isBlank c) ∧ Signed body ds v

end Grammar

section Digits

variable {c : Char} {d : Nat}

theorem zeroes_apart : ∀ y ∈ zeroes, ∀ z ∈ zeroes, y < z + 10 → z < y + 10 → y = z := by
  decide +kernel

theorem digit?_eq_some : digit? c = some d ↔ StandsFor c d := by
  simp only [digit?, Option.map_eq_some_iff, StandsFor]
  constructor
  · rintro ⟨z, hfind, rfl⟩
    have hz := List.find?_some hfind
    simp only [Bool.and_eq_true, decide_eq_true_eq] at hz
    exact ⟨by omega, z, List.mem_of_find?_eq_some hfind, by omega⟩
  · rintro ⟨hd, z, hz, hc⟩
    cases hfind : zeroes.find? fun z => z ≤ c.toNat && c.toNat < z + 10 with
    | none =>
      have hnone := List.find?_eq_none.mp hfind z hz
      simp only [Bool.and_eq_true, decide_eq_true_eq, not_and, not_lt] at hnone
      omega
    | some y =>
      have hy := List.find?_some hfind
      simp only [Bool.and_eq_true, decide_eq_true_eq] at hy
      obtain rfl := zeroes_apart y (List.mem_of_find?_eq_some hfind) z hz (by omega) (by omega)
      exact ⟨y, rfl, by omega⟩

theorem StandsFor.ne_of_none {m : Char} (h : StandsFor c d) (hm : digit? m = none) : c ≠ m := by
  rintro rfl
  rw [digit?_eq_some.mpr h] at hm
  cases hm

theorem StandsFor.isBlank_eq_false (h : StandsFor c d) : isBlank c = false := by
  have hall : ∀ z ∈ zeroes, ∀ i < 10, isBlank (Char.ofNat (z + i)) = false := by decide +kernel
  obtain ⟨hd, z, hz, hc⟩ := h
  rw [← Char.ofNat_toNat c, hc]
  exact hall z hz d hd

theorem standsFor_digitChar (h : d < 10) : StandsFor (digitChar d) d :=
  digit?_eq_some.mp (digit?_digitChar h)

end Digits

namespace DigitRun

variable {cs : List Char} {ds : List Nat}

theorem first (h : DigitRun cs ds) : ∃ c rest d, cs = c :: rest ∧ StandsFor c d := by
  cases h with
  | last h => exact ⟨_, _, _, rfl, h⟩
  | next h _ => exact ⟨_, _, _, rfl, h⟩
  | parted h _ => exact ⟨_, _, _, rfl, h⟩

theorem final (h : DigitRun cs ds) : ∀ c ∈ cs.getLast?, ∃ d, StandsFor c d := by
  induction h with
  | last h => simpa using ⟨_, h⟩
  | next _ rest ih =>
    obtain ⟨c, tail, _, rfl, _⟩ := rest.first
    simpa using ih
  | parted _ rest ih =>
    obtain ⟨c, tail, _, rfl, _⟩ := rest.first
    simpa using ih

theorem length_le (h : DigitRun cs ds) : ds.length ≤ cs.length := by
  induction h with
  | last => exact Nat.le_refl _
  | next _ _ ih => exact Nat.succ_le_succ ih
  | parted _ _ ih =>
    simp only [List.length_cons]
    omega

theorem of_digits (hne : ds ≠ []) (hd : ∀ d ∈ ds, d < 10) : DigitRun (ds.map digitChar) ds := by
  induction ds with
  | nil => exact absurd rfl hne
  | cons d ds ih =>
    rw [List.forall_mem_cons] at hd
    cases ds with
    | nil => exact .last (standsFor_digitChar hd.1)
    | cons e es => exact .next (standsFor_digitChar hd.1) (ih (by simp) hd.2)

end DigitRun

section Reader

variable {cs : List Char} {ds : List Nat} {v : Int} {s : String}

theorem digitRun_cons {digit : Char → Option Nat} {c e : Char} (he : e ≠ '_') :
    digitRun digit (c :: e :: cs) = (do
      let d ← digit c
      let ds ← digitRun digit (e :: cs)
      return d :: ds) := by
  rw [digitRun]
  · simp
  · intro rest h
    exact he (List.cons.inj h).1

theorem digitRun_eq_some : digitRun digit? cs = some ds ↔ DigitRun cs ds := by
  constructor
  · intro h
    fun_induction digitRun digit? cs generalizing ds with
    | case1 => cases h
    | case2 c =>
      obtain ⟨d, hd, rfl⟩ := Option.map_eq_some_iff.mp h
      exact .last (digit?_eq_some.mp hd)
    | case3 c rest ih =>
      simp only [bind, pure, Option.bind_eq_some_iff, Option.some.injEq] at h
      obtain ⟨d, hd, es, hes, rfl⟩ := h
      exact .parted (digit?_eq_some.mp hd) (ih hes)
    | case4 c rest _ _ ih =>
      simp only [bind, pure, Option.bind_eq_some_iff, Option.some.injEq] at h
      obtain ⟨d, hd, es, hes, rfl⟩ := h
      exact .next (digit?_eq_some.mp hd) (ih hes)
  · intro h
    induction h with
    | last h => simp [digitRun, digit?_eq_some.mpr h]
    | next h rest ih =>
      obtain ⟨c, tail, _, rfl, hc⟩ := rest.first
      rw [digitRun_cons (hc.ne_of_none (by decide)), digit?_eq_some.mpr h, ih]
      rfl
    | parted h _ ih =>
      rw [digitRun, digit?_eq_some.mpr h, ih]
      rfl

theorem ofDigits_eq_value (ds : List Nat) : ofDigits ds = value ds := by
  rw [value, Nat.ofDigits_eq_foldr, List.foldr_reverse, ofDigits]
  congr 1
  funext n d
  simp [Nat.add_comm]

theorem signed_iff : Signed cs ds v ↔
    DigitRun (splitSign cs).2 ds ∧ v = applySign (splitSign cs).1 (ofDigits ds) := by
  rw [ofDigits_eq_value]
  constructor
  · intro h
    cases h with
    | plain h =>
      obtain ⟨c, rest, _, rfl, hc⟩ := h.first
      have hplus := hc.ne_of_none (show digit? '+' = none by decide)
      have hminus := hc.ne_of_none (show digit? '-' = none by decide)
      have hsplit : splitSign (c :: rest) = (false, c :: rest) := by
        unfold splitSign
        split <;> simp_all
      rw [hsplit]
      exact ⟨h, rfl⟩
    | plus h => exact ⟨h, rfl⟩
    | minus h => exact ⟨h, rfl⟩
  · rintro ⟨h, rfl⟩
    unfold splitSign at h ⊢
    split at h
    · exact .minus h
    · exact .plus h
    · exact .plain h

theorem Signed.first (h : Signed cs ds v) : ∃ c rest, cs = c :: rest ∧ isBlank c = false := by
  cases h with
  | plain h =>
    obtain ⟨c, rest, _, rfl, hc⟩ := h.first
    exact ⟨c, rest, rfl, hc.isBlank_eq_false⟩
  | plus h => exact ⟨_, _, rfl, by decide⟩
  | minus h => exact ⟨_, _, rfl, by decide⟩

theorem Signed.final (h : Signed cs ds v) : ∀ c ∈ cs.getLast?, isBlank c = false := by
  have hlast : ∀ {body : List Char}, DigitRun body ds → ∀ c ∈ body.getLast?, isBlank c = false := by
    intro body h c hc
    obtain ⟨d, hd⟩ := h.final c hc
    exact hd.isBlank_eq_false
  cases h with
  | plain h => exact hlast h
  | plus h =>
    obtain ⟨c, rest, _, rfl, _⟩ := h.first
    simpa using hlast h
  | minus h =>
    obtain ⟨c, rest, _, rfl, _⟩ := h.first
    simpa using hlast h

theorem Signed.length_le (h : Signed cs ds v) : ds.length ≤ cs.length := by
  cases h with
  | plain h => exact h.length_le
  | plus h => exact Nat.le_succ_of_le h.length_le
  | minus h => exact Nat.le_succ_of_le h.length_le

end Reader

section Trim

variable {p : Char → Bool} {before body after : List Char}

theorem trim_around (hp : ∀ c ∈ before ++ after, p c) (first : ∀ c ∈ body.head?, p c = false)
    (last : ∀ c ∈ body.getLast?, p c = false) (hne : body ≠ []) :
    trim p (before ++ body ++ after) = body := by
  rw [List.forall_mem_append] at hp
  have hfront : (before ++ body ++ after).dropWhile p = body ++ after := by
    rw [List.append_assoc, List.dropWhile_append_of_pos hp.1]
    apply dropWhile_eq_self
    rwa [List.head?_append_of_ne_nil _ hne]
  unfold trim
  rw [hfront, List.reverse_append,
    List.dropWhile_append_of_pos fun c hc => hp.2 c (List.mem_reverse.mp hc),
    dropWhile_eq_self p (by simpa using last), List.reverse_reverse]

theorem exists_around (p : Char → Bool) (cs : List Char) :
    ∃ before after, cs = before ++ trim p cs ++ after ∧ ∀ c ∈ before ++ after, p c := by
  refine ⟨cs.takeWhile p, ((cs.dropWhile p).reverse.takeWhile p).reverse, ?_, ?_⟩
  · unfold trim
    rw [List.append_assoc, ← List.reverse_append, List.takeWhile_append_dropWhile,
      List.reverse_reverse, List.takeWhile_append_dropWhile]
  · rw [List.forall_mem_append]
    exact ⟨fun c hc => List.mem_takeWhile_imp hc,
      fun c hc => List.mem_takeWhile_imp (List.mem_reverse.mp hc)⟩

end Trim

section Integer

variable {s : String} {ds : List Nat} {v : Int}

theorem spells_iff : Spells s ds v ↔ Signed (trim isBlank s.toList) ds v := by
  constructor
  · rintro ⟨before, body, after, hs, hblank, h⟩
    obtain ⟨c, rest, hbody, hc⟩ := h.first
    have hne : body ≠ [] := by simp [hbody]
    rw [hs, trim_around hblank (by simpa [hbody] using hc) h.final hne]
    exact h
  · intro h
    obtain ⟨before, after, hs, hblank⟩ := exists_around isBlank s.toList
    exact ⟨before, _, after, hs, hblank, h⟩

/-- A text spells one number at most, in one way. -/
theorem Spells.unique {es : List Nat} {w : Int} (h : Spells s ds v) (h' : Spells s es w) :
    ds = es ∧ v = w := by
  rw [spells_iff, signed_iff, ← digitRun_eq_some] at h h'
  obtain rfl := Option.some.inj (h.1.symm.trans h'.1)
  exact ⟨rfl, h.2.trans h'.2.symm⟩

theorem Spells.length_le (h : Spells s ds v) : ds.length ≤ s.length := by
  obtain ⟨before, body, after, hs, -, h⟩ := h
  rw [← String.length_toList, hs, List.length_append, List.length_append]
  have := h.length_le
  omega

/-- The reader accepts what the grammar derives in no more digits than its limit. -/
theorem integer?_eq_some : integer? s = some v ↔ ∃ ds, Spells s ds v ∧ ds.length ≤ digitLimit := by
  simp only [integer?, bind, Option.bind_eq_some_iff, digitRun_eq_some, spells_iff, signed_iff]
  constructor
  · rintro ⟨ds, hrun, h⟩
    split at h
    · rename_i hlimit
      exact ⟨ds, ⟨hrun, (Option.some.inj h).symm⟩, hlimit⟩
    · cases h
  · rintro ⟨ds, ⟨hrun, rfl⟩, hlimit⟩
    exact ⟨ds, hrun, if_pos hlimit⟩

/-- The numeral of a number states it. -/
theorem spells_intText (v : Int) : Spells (intText v) (digits v.natAbs) v := by
  have hrun : DigitRun (numeral v.natAbs) (digits v.natAbs) :=
    .of_digits (digits_ne_nil _) (digits_lt _)
  have hvalue : value (digits v.natAbs) = v.natAbs := by
    rw [← ofDigits_eq_value, ofDigits_digits]
  have hsigned : Signed (intNumeral v) (digits v.natAbs) v := by
    unfold intNumeral
    split
    · have h := Signed.minus hrun
      rw [hvalue] at h
      convert h using 1
      omega
    · have h := Signed.plain hrun
      rw [hvalue] at h
      convert h using 1
      omega
  exact ⟨[], intNumeral v, [], by simp [intText], by simp, hsigned⟩

end Integer

end Liquidity.Text
