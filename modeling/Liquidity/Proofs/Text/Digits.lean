import Mathlib.Algebra.Group.Nat.Defs
import Liquidity.Text.Numeral

/-! Runs of ASCII digits: the characters that stand for digits, and what a reader of digits
takes off the front of a text. -/

namespace Liquidity.Text
set_option autoImplicit false

variable {c : Char} {d : Nat} {cs : List Char} {ds : List Nat}

theorem asciiDigit?_eq_some : asciiDigit? c = some d ↔ d < 10 ∧ c = digitChar d := by
  constructor
  · intro h
    unfold asciiDigit? at h
    split at h
    · rename_i hc
      obtain rfl := Option.some.inj h
      refine ⟨by omega, ?_⟩
      unfold digitChar
      rw [Nat.add_sub_cancel' hc.1, Char.ofNat_toNat]
    · cases h
  · rintro ⟨hd, rfl⟩
    exact asciiDigit?_digitChar hd

theorem digitChar_mem (hd : d < 10) :
    digitChar d ∈ ['0', '1', '2', '3', '4', '5', '6', '7', '8', '9'] := by
  have : ∀ d : Fin 10, digitChar d ∈ ['0', '1', '2', '3', '4', '5', '6', '7', '8', '9'] := by
    decide
  exact this ⟨d, hd⟩

theorem numeral_eq_cons (n : Nat) : ∃ d cs, d < 10 ∧ numeral n = digitChar d :: cs := by
  unfold numeral
  cases hd : digits n with
  | nil => exact absurd hd (digits_ne_nil n)
  | cons d ds => exact ⟨d, ds.map digitChar, digits_lt n d (by simp [hd]), rfl⟩

theorem mapM_asciiDigit?_eq_some :
    cs.mapM asciiDigit? = some ds ↔ (∀ d ∈ ds, d < 10) ∧ cs = ds.map digitChar := by
  induction cs generalizing ds with
  | nil => cases ds <;> simp
  | cons c cs ih =>
    simp only [List.mapM_cons, bind, pure, Option.bind_eq_some_iff, Option.some.injEq, ih,
      asciiDigit?_eq_some]
    constructor
    · rintro ⟨d, ⟨hd, hc⟩, ds, ⟨hds, hcs⟩, rfl⟩
      exact ⟨List.forall_mem_cons.mpr ⟨hd, hds⟩, by rw [hc, hcs, List.map_cons]⟩
    · intro ⟨hall, he⟩
      cases ds with
      | nil => cases he
      | cons d ds =>
        rw [List.forall_mem_cons] at hall
        obtain ⟨hc, hcs⟩ := List.cons.inj he
        exact ⟨d, ⟨hall.1, hc⟩, ds, ⟨hall.2, hcs⟩, rfl⟩

/-- The digits of a number begin with no zero in front of another digit. -/
theorem digits_eq_zero_cons {n : Nat} (h : digits n = 0 :: ds) : ds = [] := by
  fun_induction digits n generalizing ds with
  | case1 n hn => exact (List.cons.inj h).2.symm
  | case2 n hn ih =>
    cases hd : digits (n / 10) with
    | nil => exact absurd hd (digits_ne_nil _)
    | cons d es =>
      rw [hd, List.cons_append] at h
      obtain ⟨rfl, -⟩ := List.cons.inj h
      have hzero : ofDigits (digits (n / 10)) = 0 := by
        rw [hd, ih hd]
        rfl
      rw [ofDigits_digits] at hzero
      omega

theorem ofDigits_lt (h : ∀ d ∈ ds, d < 10) : ofDigits ds < 10 ^ ds.length := by
  -- The fold starts anywhere, since its start changes with each digit.
  have hfold : ∀ n, ds.foldl (fun n d => 10 * n + d) n < (n + 1) * 10 ^ ds.length := by
    induction ds with
    | nil => simp
    | cons d ds ih =>
      rw [List.forall_mem_cons] at h
      intro n
      calc (d :: ds).foldl (fun n d => 10 * n + d) n
          < (10 * n + d + 1) * 10 ^ ds.length := ih h.2 (10 * n + d)
        _ ≤ (n + 1) * 10 * 10 ^ ds.length := Nat.mul_le_mul_right _ (by omega)
        _ = (n + 1) * 10 ^ (d :: ds).length := by
          rw [List.length_cons, Nat.pow_succ, Nat.mul_comm (10 ^ ds.length), Nat.mul_assoc]
  simpa [ofDigits] using hfold 0

section Span

variable {α β : Type} {read : α → Option β} {xs rest : List α} {ys : List β}

/-- What a reader takes off the front of a run that it reads in full, up to where it cannot. -/
theorem span_map {f : β → α} (hf : ∀ y ∈ ys, read (f y) = some y)
    (hrest : ∀ x ∈ rest.head?, read x = none) :
    ((ys.map f ++ rest).takeWhile (read · |>.isSome)).filterMap read = ys ∧
      (ys.map f ++ rest).dropWhile (read · |>.isSome) = rest := by
  induction ys with
  | nil =>
    cases rest with
    | nil => exact ⟨rfl, rfl⟩
    | cons x rest => simp [hrest x (by simp)]
  | cons y ys ih =>
    rw [List.forall_mem_cons] at hf
    obtain ⟨htake, hdrop⟩ := ih hf.2
    simp [hf.1, htake, hdrop]

theorem mem_span {y : β} (h : y ∈ (xs.takeWhile (read · |>.isSome)).filterMap read) :
    ∃ x ∈ xs, read x = some y := by
  obtain ⟨x, hx, hread⟩ := List.mem_filterMap.mp h
  exact ⟨x, List.takeWhile_subset _ hx, hread⟩

end Span

end Liquidity.Text
