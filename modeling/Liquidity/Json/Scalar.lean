import Liquidity.Json.Basic
import Liquidity.Text.Numeral
import Liquidity.Decimal.Arithmetic

/-! The scalars of JSON text: strings, numbers and words, each with its value and the text
after it. That text is always shorter (`scanScalar_shrinks`). -/

namespace Liquidity.Json
set_option autoImplicit false

def hexDigit? (c : Char) : Option Nat :=
  let n := c.toNat
  if 0x30 ≤ n ∧ n ≤ 0x39 then some (n - 0x30)
  else if 0x41 ≤ n ∧ n ≤ 0x46 then some (n - 0x37)
  else if 0x61 ≤ n ∧ n ≤ 0x66 then some (n - 0x57)
  else none

def hexUnit? (a b c d : Char) : Option Nat := do
  return ((← hexDigit? a) * 16 + (← hexDigit? b)) * 256 + (← hexDigit? c) * 16 + (← hexDigit? d)

def shortEscape? : Char → Option Char
  | '"' => some '"'
  | '\\' => some '\\'
  | '/' => some '/'
  | 'b' => some '\x08'
  | 'f' => some '\x0c'
  | 'n' => some '\n'
  | 'r' => some '\r'
  | 't' => some '\t'
  | _ => none

/-- Code units that only a pair gives a meaning to. -/
def isSurrogate (u : Nat) : Bool := 0xD800 ≤ u && u < 0xE000

def pair? (high low : Nat) : Option Char :=
  if 0xD800 ≤ high ∧ high < 0xDC00 ∧ 0xDC00 ≤ low ∧ low < 0xE000 then
    some (Char.ofNat (0x10000 + (high - 0xD800) * 0x400 + (low - 0xDC00)))
  else none

/-- The rest of a string after its opening quote, and the text after its closing quote. -/
def scanString : List Char → Option (List Char × List Char)
  | [] => none
  | '"' :: rest => some ([], rest)
  | '\\' :: 'u' :: a :: b :: c :: d :: '\\' :: 'u' :: e :: f :: g :: h :: rest => do
    let u ← hexUnit? a b c d
    if isSurrogate u then
      let x ← pair? u (← hexUnit? e f g h)
      let (s, after) ← scanString rest
      return (x :: s, after)
    else
      let (s, after) ← scanString ('\\' :: 'u' :: e :: f :: g :: h :: rest)
      return (Char.ofNat u :: s, after)
  | '\\' :: 'u' :: a :: b :: c :: d :: rest => do
    let u ← hexUnit? a b c d
    if isSurrogate u then none
    else
      let (s, after) ← scanString rest
      return (Char.ofNat u :: s, after)
  | '\\' :: c :: rest => do
    let x ← shortEscape? c
    let (s, after) ← scanString rest
    return (x :: s, after)
  | c :: rest =>
    if c = '\\' ∨ c.toNat < 0x20 then none
    else do
      let (s, after) ← scanString rest
      return (c :: s, after)

def spanAscii (s : List Char) : List Nat × List Char :=
  (s.takeWhile (Text.asciiDigit? · |>.isSome) |>.filterMap Text.asciiDigit?,
    s.dropWhile (Text.asciiDigit? · |>.isSome))

/-- The digits of the fraction; nothing when a point has no digit after it. -/
def scanFraction : List Char → Option (Option (List Nat) × List Char)
  | '.' :: rest =>
    match spanAscii rest with
    | ([], _) => none
    | (ds, after) => some (some ds, after)
  | rest => some (none, rest)

def scanExponent : List Char → Option (Option Int × List Char)
  | [] => some (none, [])
  | c :: rest =>
    if c = 'e' ∨ c = 'E' then
      let (negative, body) := Text.splitSign rest
      match spanAscii body with
      | ([], _) => none
      | (ds, after) => some (some (Text.applySign negative (Text.ofDigits ds)), after)
    else some (none, c :: rest)

def numberValue (negative : Bool) (ds : List Nat) (fraction : Option (List Nat))
    (exponent : Option Int) : Json :=
  match fraction, exponent with
  | none, none => .int (Text.applySign negative (Text.ofDigits ds))
  | fs, e =>
    let part := fs.getD []
    .float (Binary64.ofDecimal ⟨negative, Text.ofDigits (ds ++ part), e.getD 0 - part.length⟩)

/-- Whether the digits before the point are too many. -/
def isLongNumeral (ds : List Nat) : Bool := Text.digitLimit < ds.length

/-- A number after its minus sign, if it had one. -/
def scanNumber (negative : Bool) (s : List Char) : Option (Json × List Char) :=
  match spanAscii s with
  | ([], _) => none
  | (0 :: _ :: _, _) => none
  | (ds, rest) =>
    if isLongNumeral ds then none
    else do
      let (fraction, rest) ← scanFraction rest
      let (exponent, rest) ← scanExponent rest
      return (numberValue negative ds fraction exponent, rest)

def scanScalar : List Char → Option (Json × List Char)
  | '"' :: rest => (scanString rest).map fun (s, after) => (.str (String.ofList s), after)
  | 'n' :: 'u' :: 'l' :: 'l' :: rest => some (.null, rest)
  | 't' :: 'r' :: 'u' :: 'e' :: rest => some (.bool true, rest)
  | 'f' :: 'a' :: 'l' :: 's' :: 'e' :: rest => some (.bool false, rest)
  | 'N' :: 'a' :: 'N' :: rest => some (.float .undefined, rest)
  | 'I' :: 'n' :: 'f' :: 'i' :: 'n' :: 'i' :: 't' :: 'y' :: rest => some (.float (.infinite false), rest)
  | '-' :: 'I' :: 'n' :: 'f' :: 'i' :: 'n' :: 'i' :: 't' :: 'y' :: rest =>
    some (.float (.infinite true), rest)
  | '-' :: rest => scanNumber true rest
  | rest => scanNumber false rest

theorem scanString_shrinks {s t after : List Char} (h : scanString s = some (t, after)) :
    after.length < s.length := by
  fun_induction scanString s generalizing t after <;>
    simp only [bind, Option.bind_eq_some_iff, pure, Option.some.injEq, Prod.mk.injEq, Prod.exists,
      reduceCtorEq, List.length_cons] at * <;> grind [Option.bind_eq_some_iff]

theorem length_dropWhile_le (p : Char → Bool) (s : List Char) :
    (s.dropWhile p).length ≤ s.length := by
  induction s with
  | nil => simp
  | cons c s ih => simp only [List.dropWhile_cons]; split <;> grind

theorem spanAscii_le (s : List Char) : (spanAscii s).2.length ≤ s.length := length_dropWhile_le ..

theorem spanAscii_shrinks {s after : List Char} {d : Nat} {ds : List Nat}
    (h : spanAscii s = (d :: ds, after)) : after.length < s.length := by
  obtain ⟨h1, rfl⟩ := Prod.mk.inj h
  cases s with
  | nil => cases h1
  | cons c s =>
    rw [List.takeWhile_cons] at h1
    rw [List.dropWhile_cons]
    split
    · exact Nat.lt_succ_of_le (length_dropWhile_le ..)
    · rename_i hc
      rw [if_neg hc] at h1
      cases h1

theorem splitSign_le (s : List Char) : (Text.splitSign s).2.length ≤ s.length := by
  unfold Text.splitSign
  split <;> simp

theorem scanFraction_le {s after : List Char} {ds : Option (List Nat)}
    (h : scanFraction s = some (ds, after)) : after.length ≤ s.length := by
  unfold scanFraction at h
  split at h
  · rename_i rest
    have hle := spanAscii_le rest
    split at h
    · cases h
    · rename_i hs
      rw [hs] at hle
      cases h
      exact Nat.le_succ_of_le hle
  · cases h
    exact Nat.le_refl _

theorem scanExponent_le {s after : List Char} {e : Option Int}
    (h : scanExponent s = some (e, after)) : after.length ≤ s.length := by
  unfold scanExponent at h
  split at h
  · cases h
    exact Nat.le_refl _
  · rename_i c rest
    have hle := Nat.le_trans (spanAscii_le (Text.splitSign rest).2) (splitSign_le rest)
    split at h
    · dsimp only at h
      split at h
      · cases h
      · rename_i hs
        rw [hs] at hle
        cases h
        exact Nat.le_succ_of_le hle
    · cases h
      exact Nat.le_refl _

theorem scanNumber_shrinks {negative : Bool} {s after : List Char} {j : Json}
    (h : scanNumber negative s = some (j, after)) : after.length < s.length := by
  unfold scanNumber at h
  split at h
  · cases h
  · cases h
  · rename_i ds rest h1 h2 hs
    cases ds with
    | nil => exact (h1 rfl).elim
    | cons d ds =>
      have := spanAscii_shrinks hs
      split at h
      · cases h
      · simp only [bind, Option.bind_eq_some_iff, pure, Option.some.injEq, Prod.mk.injEq,
        Prod.exists] at h
        obtain ⟨_, _, hf, _, _, he, _, rfl⟩ := h
        have := scanFraction_le hf
        have := scanExponent_le he
        omega

theorem scanScalar_shrinks {s after : List Char} {j : Json} (h : scanScalar s = some (j, after)) :
    after.length < s.length := by
  unfold scanScalar at h
  split at h
  · simp only [Option.map_eq_some_iff, Prod.mk.injEq, Prod.exists] at h
    obtain ⟨_, _, hs, _, rfl⟩ := h
    have := scanString_shrinks hs
    simp only [List.length_cons]
    omega
  all_goals first
    | exact scanNumber_shrinks h
    | (cases h; simp only [List.length_cons]; omega)
    | exact Nat.lt_succ_of_lt (scanNumber_shrinks h)

end Liquidity.Json
