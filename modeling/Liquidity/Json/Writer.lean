import Liquidity.Binary64.Layout
import Liquidity.Json.Basic

/-! The compact text of a JSON value: no spaces, members in order, and in strings only the
quote, the backslash and the control characters escaped. -/

namespace Liquidity.Json
set_option autoImplicit false

def hexChar (n : Nat) : Char := if n < 10 then Char.ofNat (0x30 + n) else Char.ofNat (0x57 + n)

def escape (c : Char) : List Char :=
  if c = '"' then ['\\', '"']
  else if c = '\\' then ['\\', '\\']
  else if c = '\x08' then ['\\', 'b']
  else if c = '\t' then ['\\', 't']
  else if c = '\n' then ['\\', 'n']
  else if c = '\x0c' then ['\\', 'f']
  else if c = '\r' then ['\\', 'r']
  else if c.toNat < 0x20 then ['\\', 'u', '0', '0', hexChar (c.toNat / 16), hexChar (c.toNat % 16)]
  else [c]

def quote (s : String) : List Char := '"' :: s.toList.flatMap escape ++ ['"']

def floatLayout : Binary64.Layout := { fullFrom := -5, exponentDigits := 1 }

def floatText : Binary64 → List Char
  | .finite negative m q => floatLayout.finite negative m q
  | .infinite negative =>
    (if negative then ['-'] else []) ++ ['I', 'n', 'f', 'i', 'n', 'i', 't', 'y']
  | .undefined => ['N', 'a', 'N']

mutual

def chars : Json → List Char
  | .null => ['n', 'u', 'l', 'l']
  | .bool true => ['t', 'r', 'u', 'e']
  | .bool false => ['f', 'a', 'l', 's', 'e']
  | .int n => Text.intNumeral n
  | .float x => floatText x
  | .str s => quote s
  | .arr items => '[' :: itemChars items ++ [']']
  | .obj members => '{' :: memberChars members ++ ['}']

def itemChars : List Json → List Char
  | [] => []
  | [j] => chars j
  | j :: rest => chars j ++ ',' :: itemChars rest

def memberChars : List (String × Json) → List Char
  | [] => []
  | [(k, j)] => quote k ++ ':' :: chars j
  | (k, j) :: rest => quote k ++ ':' :: chars j ++ ',' :: memberChars rest

end

def compact (j : Json) : String := String.ofList j.chars

end Liquidity.Json
