/-! White space around numerals. -/

namespace Liquidity.Text
set_option autoImplicit false

/-- White space as the Unicode property of that name lists it. -/
def isBlank (c : Char) : Bool :=
  let n := c.toNat
  (9 ≤ n && n ≤ 13) || n == 0x20 || n == 0x85 || n == 0xA0 || n == 0x1680 ||
    (0x2000 ≤ n && n ≤ 0x200A) || n == 0x2028 || n == 0x2029 || n == 0x202F || n == 0x205F ||
    n == 0x3000

/-- White space and the four information separators. -/
def isSpacing (c : Char) : Bool :=
  isBlank c || (0x1C ≤ c.toNat && c.toNat ≤ 0x1F)

variable (p : Char → Bool)

def trim (s : List Char) : List Char :=
  ((s.dropWhile p).reverse.dropWhile p).reverse

@[simp] theorem trim_nil : trim p [] = [] := rfl

theorem dropWhile_eq_self {s : List Char} (h : ∀ c ∈ s.head?, p c = false) :
    s.dropWhile p = s := by
  cases s with
  | nil => rfl
  | cons c s => simp [h c (by simp)]

theorem trim_eq_self {s : List Char} (first : ∀ c ∈ s.head?, p c = false)
    (last : ∀ c ∈ s.getLast?, p c = false) : trim p s = s := by
  unfold trim
  rw [dropWhile_eq_self p first, dropWhile_eq_self p (by simpa using last), List.reverse_reverse]

end Liquidity.Text
