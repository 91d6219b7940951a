/-! Decimal digits: the characters that stand for them in any script, and the base ten
digits of a natural number, most significant first. -/

namespace Liquidity.Text
set_option autoImplicit false

/-- The characters for zero in version 14 of Unicode; each is followed by those for one to nine. -/
def zeroes : List Nat :=
  [0x30, 0x660, 0x6F0, 0x7C0, 0x966, 0x9E6, 0xA66, 0xAE6, 0xB66, 0xBE6, 0xC66, 0xCE6, 0xD66, 0xDE6,
   0xE50, 0xED0, 0xF20, 0x1040, 0x1090, 0x17E0, 0x1810, 0x1946, 0x19D0, 0x1A80, 0x1A90, 0x1B50,
   0x1BB0, 0x1C40, 0x1C50, 0xA620, 0xA8D0, 0xA900, 0xA9D0, 0xA9F0, 0xAA50, 0xABF0, 0xFF10, 0x104A0,
   0x10D30, 0x11066, 0x110F0, 0x11136, 0x111D0, 0x112F0, 0x11450, 0x114D0, 0x11650, 0x116C0,
   0x11730, 0x118E0, 0x11950, 0x11C50, 0x11D50, 0x11DA0, 0x16A60, 0x16AC0, 0x16B50, 0x1D7CE,
   0x1D7D8, 0x1D7E2, 0x1D7EC, 0x1D7F6, 0x1E140, 0x1E2F0, 0x1E950, 0x1FBF0]

def asciiDigit? (c : Char) : Option Nat :=
  if 0x30 ≤ c.toNat ∧ c.toNat ≤ 0x39 then some (c.toNat - 0x30) else none

/-- The value of a decimal digit of any script. -/
def digit? (c : Char) : Option Nat :=
  (zeroes.find? fun z => z ≤ c.toNat && c.toNat < z + 10).map (c.toNat - ·)

/-- The ASCII character for a digit. -/
def digitChar (d : Nat) : Char := Char.ofNat (0x30 + d)

def digits (n : Nat) : List Nat :=
  if n < 10 then [n] else digits (n / 10) ++ [n % 10]

def ofDigits (ds : List Nat) : Nat := ds.foldl (fun n d => 10 * n + d) 0

def tenTo (n : Nat) : Nat := Nat.pow 10 n

def numeral (n : Nat) : List Char := (digits n).map digitChar

def intNumeral (n : Int) : List Char :=
  if n < 0 then '-' :: numeral n.natAbs else numeral n.natAbs

def intText (n : Int) : String := String.ofList (intNumeral n)

theorem asciiDigit?_digitChar {d : Nat} (h : d < 10) : asciiDigit? (digitChar d) = some d := by
  have : ∀ d : Fin 10, asciiDigit? (digitChar d) = some d.val := by decide
  exact this ⟨d, h⟩

theorem digit?_digitChar {d : Nat} (h : d < 10) : digit? (digitChar d) = some d := by
  have : ∀ d : Fin 10, digit? (digitChar d) = some d.val := by decide
  exact this ⟨d, h⟩

theorem digits_lt (n : Nat) : ∀ d ∈ digits n, d < 10 := by
  fun_induction digits n with
  | case1 n h => simpa using h
  | case2 n h ih =>
    intro d hd
    rcases List.mem_append.mp hd with hd | hd
    · exact ih d hd
    · have : d = n % 10 := by simpa using hd
      omega

theorem digits_ne_nil (n : Nat) : digits n ≠ [] := by
  unfold digits
  split <;> simp

theorem ofDigits_append (ds es : List Nat) :
    ofDigits (ds ++ es) = es.foldl (fun n d => 10 * n + d) (ofDigits ds) := by
  simp [ofDigits]

theorem ofDigits_digits (n : Nat) : ofDigits (digits n) = n := by
  fun_induction digits n with
  | case1 n h => simp [ofDigits]
  | case2 n h ih =>
    rw [ofDigits_append, ih]
    simp only [List.foldl_cons, List.foldl_nil]
    omega

end Liquidity.Text
