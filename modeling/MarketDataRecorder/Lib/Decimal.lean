import Mathlib.Algebra.Order.Ring.Rat
import MarketDataRecorder.Lib.Number

/-!
# Decimal numbers

What `Decimal(text)` makes of a text: a sign, digits with at most one point, and an exponent, with
blanks around them and underscores anywhere; digits and blanks are those of Unicode. A text that
cannot be held exactly, because its exponent is out of range, is refused. That a coefficient has at
most 999999999999999999 digits is not asked, as no text is that long. A decimal number is held as
the rational number it denotes; two texts of one number are one key of a dictionary.
-/

namespace Decimal

/-- The exponent behind the digits. -/
def exponent : List Char → Option Int
  | [] => some 0
  | c :: rest =>
    let (sign, digits) := Json.takeSign rest
    if (c = 'e' ∨ c = 'E') ∧ digits ≠ [] ∧ digits.all Char.isDigit then
      some (Value.signed sign (Nat.ofDigitChars 10 digits 0))
    else none

/-- `MAX_EMAX`: the greatest exponent of a first digit. -/
def maxEmax : Int := 999999999999999999

/-- `MIN_ETINY`: the least exponent of a last digit. -/
def minEtiny : Int := -1999999999999999997

/-- A coefficient and the exponent of its last digit are held exactly. -/
def fits (coefficient : Nat) (places : Int) : Bool :=
  ((Nat.toDigits 10 coefficient).length : Int) - 1 + places ≤ maxEmax && minEtiny ≤ places

/-- A number without its sign. -/
def magnitude (text : List Char) : Option ℚ :=
  let (whole, rest) := Json.takeDigits text
  let (fraction, rest) := match rest with
    | '.' :: rest => Json.takeDigits rest
    | _ => ([], rest)
  if whole = [] ∧ fraction = [] then none
  else (exponent rest).bind fun power =>
    let coefficient := Nat.ofDigitChars 10 (whole ++ fraction) 0
    let places : Int := power - fraction.length
    if fits coefficient places then
      some (((coefficient * 10 ^ places.toNat : Nat) : ℚ) / ((10 ^ (-places).toNat : Nat) : ℚ))
    else none

/-- An infinity or something that is not a number. -/
def isSpecial (text : List Char) : Bool :=
  let lower := text.map Char.toLower
  lower = "inf".toList || lower = "infinity".toList ||
    ["nan".toList, "snan".toList].any fun word =>
      word.isPrefixOf lower && (lower.drop word.length).all Char.isDigit

/-- The ASCII text that is read: without blanks around it and without underscores. -/
def numericAsAscii (text : String) : Option (List Char) :=
  ((UnicodeText.strip UnicodeText.isSpace text.toList).filter (· ≠ '_')).mapM UnicodeText.ascii?

/-- `Decimal(text)`: `none` where it is refused, `some none` for what is not finite. -/
def ofText? (text : String) : Option (Option ℚ) :=
  (numericAsAscii text).bind fun ascii =>
    let (sign, rest) := Json.takeSign ascii
    if isSpecial rest then some none
    else (magnitude rest).map fun value => some (if sign = ['-'] then -value else value)

example : ofText? "-1.50e1" = some (some (-15)) := by decide +kernel

example : ofText? " \u0661_.\uFF15\u3000" = some (some (3 / 2)) := by decide +kernel

example : ofText? "0.1e1000000000000000001" = none := by decide +kernel

end Decimal
