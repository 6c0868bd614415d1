import Mathlib.Init

/-!
# Blanks and digits of Unicode

Which characters are white space (`str.isspace`) and which are decimal digits (the category `Nd`),
as the constructors of numbers ask before they read a text. The digits come in runs of ten; the
table is that of Unicode 15.0, and gives the zero of each run.
-/

namespace UnicodeText

/-- White space. -/
def isSpace (c : Char) : Bool :=
  let n := c.toNat
  (9 ≤ n && n ≤ 13) || (28 ≤ n && n ≤ 32) || n == 0x85 || n == 0xA0 || n == 0x1680 ||
    (0x2000 ≤ n && n ≤ 0x200A) || n == 0x2028 || n == 0x2029 || n == 0x202F || n == 0x205F ||
    n == 0x3000

/-- The zeros of the decimal digits beyond ASCII. -/
def decimalZeros : List Nat := [
  0x660, 0x6F0, 0x7C0, 0x966, 0x9E6, 0xA66, 0xAE6, 0xB66, 0xBE6, 0xC66, 0xCE6, 0xD66, 0xDE6, 0xE50,
  0xED0, 0xF20, 0x1040, 0x1090, 0x17E0, 0x1810, 0x1946, 0x19D0, 0x1A80, 0x1A90, 0x1B50, 0x1BB0,
  0x1C40, 0x1C50, 0xA620, 0xA8D0, 0xA900, 0xA9D0, 0xA9F0, 0xAA50, 0xABF0, 0xFF10, 0x104A0, 0x10D30,
  0x11066, 0x110F0, 0x11136, 0x111D0, 0x112F0, 0x11450, 0x114D0, 0x11650, 0x116C0, 0x11730, 0x118E0,
  0x11950, 0x11C50, 0x11D50, 0x11DA0, 0x11F50, 0x16A60, 0x16AC0, 0x16B50, 0x1D7CE, 0x1D7D8, 0x1D7E2,
  0x1D7EC, 0x1D7F6, 0x1E140, 0x1E2F0, 0x1E4F0, 0x1E950, 0x1FBF0]

/-- The value of a decimal digit beyond ASCII. -/
def decimalDigit? (c : Char) : Option Nat :=
  (decimalZeros.find? fun first => first ≤ c.toNat && c.toNat < first + 10).map (c.toNat - ·)

/-- The ASCII character that stands for a character: a blank for white space, a digit
for a digit. -/
def ascii? (c : Char) : Option Char :=
  if c.toNat < 128 then some c
  else if isSpace c then some ' '
  else (decimalDigit? c).map fun digit => Char.ofNat (48 + digit)

/-- A text without the characters of a kind at its ends. -/
def strip (blank : Char → Bool) (text : List Char) : List Char :=
  ((text.dropWhile blank).reverse.dropWhile blank).reverse

theorem strip_eq_self {blank : Char → Bool} {text : List Char}
    (h : ∀ c ∈ text, blank c = false) : strip blank text = text := by
  have hdrop : ∀ text : List Char, (∀ c ∈ text, blank c = false) → text.dropWhile blank = text := by
    intro text h
    cases text with
    | nil => rfl
    | cons c text => rw [List.dropWhile_cons, h c List.mem_cons_self]; rfl
  have hreverse : ∀ c ∈ text.reverse, blank c = false := fun c hc => h c (List.mem_reverse.mp hc)
  rw [strip, hdrop text h, hdrop text.reverse hreverse, List.reverse_reverse]

/-- A text of ASCII characters stands for itself. -/
theorem mapM_ascii?_eq_self : ∀ {text : List Char}, (∀ c ∈ text, c.toNat < 128) →
    text.mapM ascii? = some text
  | [], _ => rfl
  | c :: text, h => by
    obtain ⟨hc, htext⟩ := List.forall_mem_cons.mp h
    rw [List.mapM_cons, ascii?, if_pos hc, mapM_ascii?_eq_self htext]
    rfl

example : ("\u0663\uFF15\u2003".toList.mapM ascii?) = some ['3', '5', ' '] := by decide

end UnicodeText
