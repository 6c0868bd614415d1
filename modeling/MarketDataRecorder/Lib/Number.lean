import Mathlib.Algebra.Order.Ring.Rat
import MarketDataRecorder.Lib.Json
import MarketDataRecorder.Lib.UnicodeText

/-!
# Numbers of a document

What `int(value)` and `==` do to the values of a JSON document. A number with a fraction or an
exponent is held as the nearest binary64 number, ties to even.

`int` drops a fraction; a text it reads as at most 4300 decimal digits of any script, with blanks
around them and single underscores between them. Anything else is refused.

`==` compares numbers by what they denote, so that `1`, `1.0` and `true` are equal. `NaN` is not
equal to itself, but two values inside containers are first compared by identity: a parser that has
one object for every `NaN`, as `json.loads` does, makes them equal.

* `Value.toInt?` — `int(value)`
* `Value.same` — `value == other`
* `Value.same_trans` — equality is transitive
-/

namespace Value

/-- The natural number nearest to `a / b`, ties to even. -/
def nearest (a b : Nat) : Nat :=
  if 2 * (a % b) < b ∨ 2 * (a % b) = b ∧ a / b % 2 = 0 then a / b else a / b + 1

/-- The binary64 number nearest to `a / b`, ties to even; `none` beyond the finite ones. -/
def binary64 (a b : Nat) : Option ℚ :=
  let lead : Int := (a.log2 : Int) - b.log2
  -- the quotient of two numbers may lead one place behind the difference of their places
  let lead := if a * 2 ^ (-lead).toNat < b * 2 ^ lead.toNat then lead - 1 else lead
  -- 53 places, and none behind the last one of the subnormal numbers
  let last := max (lead - 52) (-1074)
  let digits := nearest (a * 2 ^ (-last).toNat) (b * 2 ^ last.toNat)
  if (digits.log2 : Int) + last < 1024 then
    some (((digits * 2 ^ last.toNat : Nat) : ℚ) / ((2 ^ (-last).toNat : Nat) : ℚ))
  else none

/-- The integer of digits behind a sign. -/
def signed (sign : List Char) (n : Nat) : Int := if sign = ['-'] then - (n : Int) else n

/-- The sign of a number with a fraction or an exponent, and the quotient behind it. -/
def quotient (text : List Char) : Option (List Char × Nat × Nat) :=
  let (sign, rest) := Json.takeSign text
  let (whole, rest) := Json.takeWhole rest
  -- `NaN` and the infinities have no digits
  if whole = [] then none else
  let (fraction, rest) := Json.takeFraction rest
  let (expSign, expDigits) := Json.takeSign (rest.drop 1)
  let mantissa := Nat.ofDigitChars 10 (whole ++ fraction.drop 1) 0
  let exponent := signed expSign (Nat.ofDigitChars 10 expDigits 0) - (fraction.length - 1 : Nat)
  some (sign, mantissa * 10 ^ exponent.toNat, 10 ^ (-exponent).toNat)

/-! ## Conversion to an integer -/

/-- `int` of a number with a fraction or an exponent. -/
def truncate (text : List Char) : Option Int := do
  let (sign, a, b) ← quotient text
  let value ← binary64 a b
  some (signed sign ⌊value⌋.toNat)

/-- Digits with single underscores between them. -/
def digitGroups (text : List Char) : Option (List Char) :=
  let groups := text.splitOn '_'
  if groups.all fun group => group ≠ [] ∧ group.all Char.isDigit then some groups.flatten else none

/-- The blanks that `int` passes over once the others beyond ASCII have become blanks. -/
def isBlank (c : Char) : Bool := c = ' ' || 9 ≤ c.toNat && c.toNat ≤ 13

def maxStrDigits : Nat := 4300

/-- `int` of a text. -/
def integerText (text : List Char) : Option Int := do
  let text ← text.mapM UnicodeText.ascii?
  let (sign, digits) := Json.takeSign (UnicodeText.strip isBlank text)
  let digits ← digitGroups digits
  if maxStrDigits < digits.length then none
  else some (signed sign (Nat.ofDigitChars 10 digits 0))

/-- `int(value)`. -/
def toInt? : Value → Option Int
  | bool b => some (if b then 1 else 0)
  | int i => some i
  | other text => truncate text.toList
  | str text => integerText text.toList
  | null | bytes _ | list _ | dict _ | oddDict _ => none

/-! ## Equality -/

/-- What a number is compared by. -/
inductive Numeral where
  | finite (value : ℚ)
  | infinite (negative : Bool)
  | nan
  deriving DecidableEq

/-- The number of a text with a fraction or an exponent, or of a constant. -/
def numeralText (text : List Char) : Option Numeral :=
  match quotient text with
  | some (sign, a, b) =>
    some <| match binary64 a b with
      | some value => .finite (if sign = ['-'] then -value else value)
      | none => .infinite (sign = ['-'])
  | none =>
    if text = ['N', 'a', 'N'] then some .nan
    else match Json.takeSign text with
      | (sign, ['I', 'n', 'f', 'i', 'n', 'i', 't', 'y']) => some (.infinite (sign = ['-']))
      | _ => none

/-- The number that a value is, `none` if it is none. -/
def numeral? : Value → Option Numeral
  | bool b => some (.finite (if b then 1 else 0))
  | int i => some (.finite i)
  | other text => numeralText text.toList
  | null | str _ | bytes _ | list _ | dict _ | oddDict _ => none

/-- Equality of two numbers inside containers; `oneNaN` says whether all `NaN` are one object. -/
def Numeral.same (oneNaN : Bool) (x y : Numeral) : Bool := x = y && (x ≠ .nan || oneNaN)

/-- Equality of two values of which the first one is neither a list nor a dictionary. -/
def sameScalar (oneNaN : Bool) (a b : Value) : Bool :=
  match a.numeral?, b.numeral? with
  | some x, some y => x.same oneNaN y
  | none, none => a = b
  | _, _ => false

mutual

/-- `a == b` inside a container. -/
def same (oneNaN : Bool) : Value → Value → Bool
  | list xs, b =>
    match b with
    | list ys => sameList oneNaN xs ys
    | _ => false
  | dict xs, b =>
    match b with
    | dict ys => sameItems oneNaN xs ys
    | _ => false
  | a, b => sameScalar oneNaN a b

def sameList (oneNaN : Bool) : List Value → List Value → Bool
  | [], ys => ys.isEmpty
  | x :: xs, ys =>
    match ys with
    | [] => false
    | y :: ys => same oneNaN x y && sameList oneNaN xs ys

def sameItems (oneNaN : Bool) : List (String × Value) → List (String × Value) → Bool
  | [], ys => ys.isEmpty
  | (j, x) :: xs, ys =>
    match ys with
    | [] => false
    | (k, y) :: ys => j = k && same oneNaN x y && sameItems oneNaN xs ys

end

/-! ### Equality is transitive -/

variable {oneNaN : Bool}

theorem Numeral.same_trans {x y z : Numeral} (hxy : x.same oneNaN y = true)
    (hyz : y.same oneNaN z = true) : x.same oneNaN z = true := by
  simp only [Numeral.same, Bool.and_eq_true, decide_eq_true_eq] at hxy hyz ⊢
  obtain ⟨rfl, hone⟩ := hxy
  exact ⟨hyz.1, hone⟩

/-- Two equal scalars are two equal numbers, or one value that is no number. -/
theorem sameScalar_iff {a b : Value} : sameScalar oneNaN a b = true ↔
    (∃ x y, a.numeral? = some x ∧ b.numeral? = some y ∧ x.same oneNaN y = true) ∨
      a.numeral? = none ∧ a = b := by
  unfold sameScalar
  cases ha : a.numeral? with
  | none =>
    cases hb : b.numeral? with
    | none => simp
    | some y =>
      have hne : a ≠ b := by
        rintro rfl
        rw [ha] at hb
        cases hb
      simp [hne]
  | some x =>
    cases hb : b.numeral? with
    | none => simp
    | some y => simp

theorem sameScalar_trans {a b c : Value} (hab : sameScalar oneNaN a b = true)
    (hbc : sameScalar oneNaN b c = true) : sameScalar oneNaN a c = true := by
  rcases sameScalar_iff.mp hab with ⟨x, y, hx, hy, hxy⟩ | ⟨-, rfl⟩
  · rcases sameScalar_iff.mp hbc with ⟨y', z, hy', hz, hyz⟩ | ⟨hnone, -⟩
    · rw [hy] at hy'
      obtain rfl := Option.some.inj hy'
      exact sameScalar_iff.mpr (.inl ⟨x, z, hx, hz, Numeral.same_trans hxy hyz⟩)
    · rw [hy] at hnone
      cases hnone
  · exact hbc

/-- Lists and dictionaries. -/
def isContainer : Value → Bool
  | list _ | dict _ => true
  | _ => false

theorem same_of_scalar {a : Value} (h : a.isContainer = false) (b : Value) :
    same oneNaN a b = sameScalar oneNaN a b := by
  cases a with
  | list xs => cases h
  | dict items => cases h
  | _ => rfl

/-- What a scalar is equal to is a scalar. -/
theorem isContainer_of_sameScalar {a b : Value} (h : a.isContainer = false)
    (hab : sameScalar oneNaN a b = true) : b.isContainer = false := by
  rcases sameScalar_iff.mp hab with ⟨x, y, -, hy, -⟩ | ⟨-, rfl⟩
  · cases b with
    | list ys => cases hy
    | dict items => cases hy
    | _ => rfl
  · exact h

theorem same_trans_scalar {a b c : Value} (h : a.isContainer = false)
    (hab : same oneNaN a b = true) (hbc : same oneNaN b c = true) : same oneNaN a c = true := by
  rw [same_of_scalar h] at hab ⊢
  rw [same_of_scalar (isContainer_of_sameScalar h hab)] at hbc
  exact sameScalar_trans hab hbc

theorem exists_list_of_same {xs : List Value} {b : Value} (h : same oneNaN (list xs) b = true) :
    ∃ ys, b = list ys ∧ sameList oneNaN xs ys = true := by
  cases b with
  | list ys => exact ⟨ys, rfl, h⟩
  | _ => cases h

theorem exists_dict_of_same {xs : List (String × Value)} {b : Value}
    (h : same oneNaN (dict xs) b = true) :
    ∃ ys, b = dict ys ∧ sameItems oneNaN xs ys = true := by
  cases b with
  | dict ys => exact ⟨ys, rfl, h⟩
  | _ => cases h

mutual

/-- **Equality is transitive.** It is not reflexive, as a document can hold a `NaN`. -/
theorem same_trans : ∀ {a b c : Value},
    same oneNaN a b = true → same oneNaN b c = true → same oneNaN a c = true
  | list xs, b, c, hab, hbc => by
    obtain ⟨ys, rfl, hxy⟩ := exists_list_of_same hab
    obtain ⟨zs, rfl, hyz⟩ := exists_list_of_same hbc
    exact sameList_trans hxy hyz
  | dict xs, b, c, hab, hbc => by
    obtain ⟨ys, rfl, hxy⟩ := exists_dict_of_same hab
    obtain ⟨zs, rfl, hyz⟩ := exists_dict_of_same hbc
    exact sameItems_trans hxy hyz
  | null, _, _, hab, hbc | bool _, _, _, hab, hbc | int _, _, _, hab, hbc
  | str _, _, _, hab, hbc | bytes _, _, _, hab, hbc | oddDict _, _, _, hab, hbc
  | other _, _, _, hab, hbc => same_trans_scalar rfl hab hbc

theorem sameList_trans : ∀ {xs ys zs : List Value},
    sameList oneNaN xs ys = true → sameList oneNaN ys zs = true → sameList oneNaN xs zs = true
  | [], [], _, _, hyz => hyz
  | [], _ :: _, _, hxy, _ => by cases hxy
  | _ :: _, [], _, hxy, _ => by cases hxy
  | _ :: _, _ :: _, [], _, hyz => by cases hyz
  | x :: xs, y :: ys, z :: zs, hxy, hyz => by
    simp only [sameList, Bool.and_eq_true] at hxy hyz ⊢
    exact ⟨same_trans hxy.1 hyz.1, sameList_trans hxy.2 hyz.2⟩

theorem sameItems_trans : ∀ {xs ys zs : List (String × Value)},
    sameItems oneNaN xs ys = true → sameItems oneNaN ys zs = true → sameItems oneNaN xs zs = true
  | [], [], _, _, hyz => hyz
  | [], _ :: _, _, hxy, _ => by cases hxy
  | _ :: _, [], _, hxy, _ => by cases hxy
  | _ :: _, _ :: _, [], _, hyz => by cases hyz
  | (j, x) :: xs, (k, y) :: ys, (l, z) :: zs, hxy, hyz => by
    simp only [sameItems, Bool.and_eq_true, decide_eq_true_eq] at hxy hyz ⊢
    exact ⟨⟨hxy.1.1.trans hyz.1.1, same_trans hxy.1.2 hyz.1.2⟩, sameItems_trans hxy.2 hyz.2⟩

end

end Value
