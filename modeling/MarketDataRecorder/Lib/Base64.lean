import Mathlib.Init

/-!
# Base64

What `base64.b64encode` makes of bytes, and `base64.b64decode(text, validate=True)` of a text:
groups of four characters for three bytes, the last one filled up with `=`.
-/

namespace Base64

/-- The six bits of a character. -/
def sextet (c : Char) : Option Nat :=
  if 'A' ≤ c ∧ c ≤ 'Z' then some (c.toNat - 65)
  else if 'a' ≤ c ∧ c ≤ 'z' then some (c.toNat - 71)
  else if '0' ≤ c ∧ c ≤ '9' then some (c.toNat + 4)
  else if c = '+' then some 62
  else if c = '/' then some 63
  else none

/-- The bytes of four characters; the last ones can be padding. -/
def group (a b c d : Char) : Option (List UInt8) := do
  let a ← sextet a
  let b ← sextet b
  let first := UInt8.ofNat (a * 4 + b / 16)
  if c = '=' ∧ d = '=' then return [first]
  else do
    let c ← sextet c
    let second := UInt8.ofNat (b % 16 * 16 + c / 4)
    if d = '=' then return [first, second]
    else do
      let d ← sextet d
      return [first, second, UInt8.ofNat (c % 4 * 64 + d)]

def decode : List Char → Option (List UInt8)
  | [] => some []
  | a :: b :: c :: d :: rest => do
    let bytes ← group a b c d
    if d = '=' ∧ rest ≠ [] then none
    else return bytes ++ (← decode rest)
  | _ => none

/-- The character of six bits. -/
def letter (n : Nat) : Char :=
  if n < 26 then Char.ofNat (n + 65)
  else if n < 52 then Char.ofNat (n + 71)
  else if n < 62 then Char.ofNat (n - 4)
  else if n = 62 then '+'
  else '/'

def encodeChars : List UInt8 → List Char
  | [] => []
  | [a] => [letter (a.toNat / 4), letter (a.toNat % 4 * 16), '=', '=']
  | [a, b] =>
    [letter (a.toNat / 4), letter (a.toNat % 4 * 16 + b.toNat / 16), letter (b.toNat % 16 * 4), '=']
  | a :: b :: c :: rest =>
    letter (a.toNat / 4) :: letter (a.toNat % 4 * 16 + b.toNat / 16) ::
      letter (b.toNat % 16 * 4 + c.toNat / 64) :: letter (c.toNat % 64) :: encodeChars rest

def encode (bytes : List UInt8) : String := String.ofList (encodeChars bytes)

example : decode "QUJDRA==".toList = some [65, 66, 67, 68] := by decide

example : encodeChars [65, 66, 67, 68] = "QUJDRA==".toList := by decide

end Base64
