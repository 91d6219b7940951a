import Liquidity.Decimal.Numeral
import Liquidity.Proofs.Text.Digits

/-! The text of a decimal is read as that decimal, with the digits and the exponent that it has.
Each of the three notations is digits, perhaps a point with more digits, and perhaps an
exponent. -/

namespace Liquidity.Decimal
set_option autoImplicit false

open Text

variable {d : Nat} {ws ps : List Nat} {tail : List Char} {e : Int}

/-- A point with digits behind it, if there are any. -/
def pointed : List Nat → List Char
  | [] => []
  | ps => '.' :: ps.map digitChar

/-- What ends a decimal: nothing, or an exponent. -/
inductive Ends : List Char → Int → Prop where
  | bare : Ends [] 0
  | exponent (e : Int) :
    Ends ('E' :: (if e < 0 then '-' else '+') :: numeral e.natAbs) e

theorem Ends.digit?_eq_none (h : Ends tail e) : ∀ c ∈ tail.head?, digit? c = none := by
  cases h with
  | bare => simp
  | exponent e =>
    intro c hc
    obtain rfl : 'E' = c := by simpa using hc
    decide

theorem spanDigits_map {rest : List Char} (hds : ∀ d ∈ ws, d < 10)
    (hrest : ∀ c ∈ rest.head?, digit? c = none) :
    spanDigits (ws.map digitChar ++ rest) = (ws, rest) := by
  obtain ⟨htake, hdrop⟩ :=
    span_map (f := digitChar) (fun d hd => digit?_digitChar (hds d hd)) hrest
  exact Prod.ext htake hdrop

theorem fraction?_pointed (hps : ∀ d ∈ ps, d < 10) (h : Ends tail e) :
    fraction? (pointed ps ++ tail) = (ps, tail) := by
  cases ps with
  | nil => cases h <;> rfl
  | cons p ps => exact spanDigits_map hps h.digit?_eq_none

theorem spanDigits_numeral (n : Nat) : spanDigits (numeral n) = (digits n, []) := by
  have h := spanDigits_map (digits_lt n) (by simp : ∀ c ∈ ([] : List Char).head?, digit? c = none)
  rwa [List.append_nil] at h

theorem exponent?_ends (h : Ends tail e) : exponent? tail = some e := by
  cases h with
  | bare => rfl
  | exponent e =>
    have hsign : splitSign ((if e < 0 then '-' else '+') :: numeral e.natAbs) =
        (decide (e < 0), numeral e.natAbs) := by
      by_cases he : e < 0 <;> simp [he, splitSign]
    have hvalue : applySign (decide (e < 0)) e.natAbs = e := by
      by_cases he : e < 0 <;> simp only [he, applySign, decide_true, decide_false, if_true,
        Bool.false_eq_true, if_false] <;> omega
    simp only [exponent?, or_true, if_true, hsign, spanDigits_numeral]
    split
    · rename_i d ds h
      obtain ⟨h, -⟩ := Prod.mk.inj h
      rw [← h, ofDigits_digits, hvalue]
    · rename_i h
      cases hd : digits e.natAbs with
      | nil => exact absurd hd (digits_ne_nil _)
      | cons d ds => exact (h d ds (by rw [hd])).elim

/-- A decimal in digits, a point with digits and an exponent. -/
structure Written (d : Decimal) (cs : List Char) (ws ps : List Nat) (tail : List Char) (e : Int) :
    Prop where
  text : cs = ws.map digitChar ++ (pointed ps ++ tail)
  whole : ∀ w ∈ ws, w < 10
  part : ∀ p ∈ ps, p < 10
  ne_nil : ws ≠ []
  ends : Ends tail e
  coefficient : ofDigits (ws ++ ps) = d.coefficient
  exponent : e - ps.length = d.exponent

variable {x : Decimal} {cs : List Char}

theorem Written.unsigned? (h : Written x cs ws ps tail e) (hx : x.inRange) :
    unsigned? x.negative cs = some x := by
  have hrest : ∀ c ∈ (pointed ps ++ tail).head?, digit? c = none := by
    cases ps with
    | nil => exact h.ends.digit?_eq_none
    | cons p ps =>
      intro c hc
      obtain rfl : '.' = c := by simpa [pointed] using hc
      decide
  have hne : ¬ ws ++ ps = [] := by simp [h.ne_nil]
  unfold Decimal.unsigned?
  rw [h.text, spanDigits_map h.whole hrest]
  simp only [fraction?_pointed h.part h.ends, if_neg hne, exponent?_ends h.ends]
  have hsame : (⟨x.negative, ofDigits (ws ++ ps), e - ps.length⟩ : Decimal) = x := by
    rw [h.coefficient, h.exponent]
  simp [hsame, hx]

theorem ofDigits_zeros (n : Nat) (ds : List Nat) :
    ofDigits (List.replicate n 0 ++ ds) = ofDigits ds := by
  induction n with
  | zero => rfl
  | succ n ih => exact ih

theorem zeros_eq_map (n : Nat) : zeros n = (List.replicate n 0).map digitChar := by
  rw [List.map_replicate]
  rfl

theorem pointed_of_ne_nil (h : ps ≠ []) : pointed ps = '.' :: ps.map digitChar := by
  cases ps with
  | nil => exact absurd rfl h
  | cons p ps => rfl

/-- Digits behind a point and the zeros that follow it. -/
theorem written_below (hpoint : x.exponent + numDigits x.coefficient ≤ 0) :
    Written x ('0' :: '.' :: zeros (-(x.exponent + numDigits x.coefficient)).toNat ++
        numeral x.coefficient) [0]
      (List.replicate (-(x.exponent + numDigits x.coefficient)).toNat 0 ++ digits x.coefficient)
      [] 0 := by
  have hlen : numDigits x.coefficient = (digits x.coefficient).length := rfl
  constructor
  case text =>
    rw [pointed_of_ne_nil (by simp [digits_ne_nil]), zeros_eq_map]
    simp [numeral, digitChar]
  case whole => simp
  case part =>
    intro p hp
    rcases List.mem_append.mp hp with hp | hp
    · rw [List.eq_of_mem_replicate hp]
      exact Nat.succ_pos _
    · exact digits_lt _ p hp
  case ne_nil => simp
  case ends => exact .bare
  case coefficient => exact (ofDigits_zeros _ _).trans (ofDigits_digits _)
  case exponent =>
    rw [List.length_append, List.length_replicate]
    omega

/-- Digits on both sides of a point. -/
theorem written_within (he : x.exponent < 0) (hpoint : 0 < x.exponent + numDigits x.coefficient) :
    let point := (x.exponent + numDigits x.coefficient).toNat
    Written x ((numeral x.coefficient).take point ++ '.' :: (numeral x.coefficient).drop point)
      ((digits x.coefficient).take point) ((digits x.coefficient).drop point) [] 0 := by
  intro point
  have hlen : numDigits x.coefficient = (digits x.coefficient).length := rfl
  have hdrop : (digits x.coefficient).drop point ≠ [] := by
    rw [Ne, List.drop_eq_nil_iff]
    omega
  constructor
  case text =>
    rw [pointed_of_ne_nil hdrop, List.append_nil, List.map_take, List.map_drop]
    rfl
  case whole =>
    intro w hw
    exact digits_lt _ w (List.mem_of_mem_take hw)
  case part =>
    intro p hp
    exact digits_lt _ p (List.mem_of_mem_drop hp)
  case ne_nil =>
    intro hnil
    rcases List.take_eq_nil_iff.mp hnil with hnil | hnil
    · omega
    · exact digits_ne_nil _ hnil
  case ends => exact .bare
  case coefficient => rw [List.take_append_drop, ofDigits_digits]
  case exponent =>
    rw [List.length_drop]
    omega

theorem written_scientific (x : Decimal) : ∃ ws ps tail,
    Written x (scientific (numeral x.coefficient) x.adjusted) ws ps tail x.adjusted := by
  cases hd : digits x.coefficient with
  | nil => exact absurd hd (digits_ne_nil _)
  | cons d ds =>
    have hlt := digits_lt x.coefficient
    have hvalue := ofDigits_digits x.coefficient
    have hlen : numDigits x.coefficient = ds.length + 1 := by
      rw [numDigits, hd, List.length_cons]
    rw [hd] at hlt hvalue
    rw [List.forall_mem_cons] at hlt
    refine ⟨[d], ds, _, ?_, ?_, hlt.2, ?_, .exponent x.adjusted, hvalue, ?_⟩
    · unfold scientific numeral
      rw [hd]
      cases ds <;> rfl
    · simpa using hlt.1
    · simp
    · unfold adjusted
      omega

theorem written_magnitude (x : Decimal) :
    ∃ ws ps tail e, Written x x.magnitude ws ps tail e := by
  unfold magnitude
  dsimp only
  split
  · split
    · rename_i he
      refine ⟨digits x.coefficient, [], [], 0, ?_, digits_lt _, by simp, digits_ne_nil _, .bare,
        ?_, ?_⟩
      · simp [pointed, numeral]
      · rw [List.append_nil, ofDigits_digits]
      · simp [he]
    · have hlen : (numeral x.coefficient).length = numDigits x.coefficient := by
        simp [numeral, numDigits]
      rw [hlen]
      unfold placed
      split
      · rename_i hpoint
        exact ⟨_, _, [], 0, written_below hpoint⟩
      · exact ⟨_, _, [], 0, written_within (by omega) (by omega)⟩
  · obtain ⟨ws, ps, tail, h⟩ := written_scientific x
    exact ⟨ws, ps, tail, x.adjusted, h⟩

/-- The characters that a decimal is written in. -/
def marks : List Char := ['0', '1', '2', '3', '4', '5', '6', '7', '8', '9', '.', 'E', '+', '-']

theorem map_digitChar_subset (h : ∀ w ∈ ws, w < 10) : ws.map digitChar ⊆ marks := by
  intro c hc
  obtain ⟨w, hw, rfl⟩ := List.mem_map.mp hc
  exact List.mem_append_left ['.', 'E', '+', '-'] (digitChar_mem (h w hw))

theorem Ends.subset_marks (h : Ends tail e) : tail ⊆ marks := by
  cases h with
  | bare => exact List.nil_subset _
  | exponent e =>
    have hdigits := map_digitChar_subset (digits_lt e.natAbs)
    refine List.cons_subset.mpr ⟨by decide, List.cons_subset.mpr ⟨?_, hdigits⟩⟩
    split <;> decide

theorem Written.subset_marks (h : Written x cs ws ps tail e) : cs ⊆ marks := by
  rw [h.text, List.append_subset, List.append_subset]
  refine ⟨map_digitChar_subset h.whole, ?_, h.ends.subset_marks⟩
  cases ps with
  | nil => exact List.nil_subset _
  | cons p ps => exact List.cons_subset.mpr ⟨by decide, map_digitChar_subset h.part⟩

theorem Written.eq_cons (h : Written x cs ws ps tail e) :
    ∃ d rest, d < 10 ∧ cs = digitChar d :: rest := by
  cases ws with
  | nil => exact absurd rfl h.ne_nil
  | cons w ws => exact ⟨w, _, h.whole w List.mem_cons_self, h.text⟩

/-- No digit begins a word or is a sign. -/
theorem digitChar_cons {d : Nat} (hd : d < 10) (rest : List Char) :
    (∀ negative, word? negative (digitChar d :: rest) = none) ∧
      splitSign (digitChar d :: rest) = (false, digitChar d :: rest) := by
  have hc := digitChar_mem hd
  generalize digitChar d = c at hc
  simp only [List.mem_cons, List.not_mem_nil, or_false] at hc
  rcases hc with rfl | rfl | rfl | rfl | rfl | rfl | rfl | rfl | rfl | rfl <;>
    exact ⟨fun _ => rfl, rfl⟩

theorem marks_kept : marks.all (fun c => !isSpacing c && c != '_') = true := rfl

/-- Nothing in the text of a decimal is skipped. -/
theorem tidied_eq_self (h : cs ⊆ marks) : (trim isSpacing cs).filter (· ≠ '_') = cs := by
  have hkept : ∀ c ∈ cs, isSpacing c = false ∧ c ≠ '_' := by
    intro c hc
    simpa using List.all_eq_true.mp marks_kept c (h hc)
  rw [trim_eq_self]
  · rw [List.filter_eq_self]
    intro c hc
    exact decide_eq_true (hkept c hc).2
  · intro c hc
    exact (hkept c (List.mem_of_mem_head? hc)).1
  · intro c hc
    exact (hkept c (List.mem_of_mem_getLast? hc)).1

theorem read?_text (hx : x.inRange) : read? x.text = some (.finite x) := by
  obtain ⟨ws, ps, tail, e, h⟩ := written_magnitude x
  -- Every notation begins with a digit, so a sign in front is the decimal's own.
  obtain ⟨d, rest, hd, hcons⟩ := h.eq_cons
  obtain ⟨hword, hsign⟩ := digitChar_cons hd rest
  rw [← hcons] at hword hsign
  have hmarks : x.text.toList ⊆ marks := by
    unfold text
    rw [String.toList_ofList]
    split
    · exact List.cons_subset.mpr ⟨by decide, h.subset_marks⟩
    · exact h.subset_marks
  have hsplit : splitSign x.text.toList = (x.negative, x.magnitude) := by
    unfold text
    rw [String.toList_ofList]
    split
    · rename_i hneg
      rw [hneg]
      rfl
    · rename_i hneg
      rw [hsign, (Bool.not_eq_true _).mp hneg]
  unfold read?
  rw [tidied_eq_self hmarks, hsplit]
  simp only [hword, h.unsigned? hx, Option.map_some]

end Liquidity.Decimal
