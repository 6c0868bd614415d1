import MarketDataRecorder.Lib.Cbor

/-!
# JSON

Dynamic values as compact JSON in ASCII, dictionaries with ascending keys, and a reader of the texts
of the grammar. A number with a fraction or an exponent is read as its text; a lone surrogate is no
character and is not read.

`json.loads` is not just this reader: it takes the constants `NaN`, `Infinity` and `-Infinity` and a
lone surrogate, and it raises over an integer of more than 4300 digits and over a nesting
that is too deep for the interpreter. Where that matters the reader is a `Json.Reader`,
which is any function.

* `Json.encodeValue` — the text of a value
* `Json.decode` — what a text of the grammar says
* `Json.decode_encode` — **round trip**
* `Json.Reader` — a reader of other texts too
-/

namespace Json

/-! ## Encoding -/

/-- The characters with an escape of their own. -/
def shortEscapes : List (Char × Char) :=
  [('\x22', '\x22'), ('\\', '\\'), ('\n', 'n'), ('\r', 'r'), ('\t', 't'), ('\x08', 'b'),
   ('\x0c', 'f')]

def unicodeEscape (n : Nat) : List Char :=
  '\\' :: 'u' :: [n / 4096 % 16, n / 256 % 16, n / 16 % 16, n % 16].map Nat.digitChar

def escape (c : Char) : List Char :=
  match shortEscapes.lookup c with
  | some e => ['\\', e]
  | none =>
    if 32 ≤ c.toNat ∧ c.toNat < 127 then [c]
    else if c.toNat < 0x10000 then unicodeEscape c.toNat
    else
      let n := c.toNat - 0x10000
      unicodeEscape (0xD800 + n / 1024) ++ unicodeEscape (0xDC00 + n % 1024)

def encodeText (s : String) : List Char :=
  '\x22' :: (s.toList.flatMap escape ++ ['\x22'])

def encodeInt : Int → List Char
  | .ofNat n => Nat.toDigits 10 n
  | .negSucc n => '-' :: Nat.toDigits 10 (n + 1)

mutual

def encodeValue : Value → List Char
  | .null => ['n', 'u', 'l', 'l']
  | .bool true => ['t', 'r', 'u', 'e']
  | .bool false => ['f', 'a', 'l', 's', 'e']
  | .int i => encodeInt i
  | .str s => encodeText s
  | .list [] => ['[', ']']
  | .list (x :: xs) => '[' :: (encodeValue x ++ encodeElements xs)
  | .dict [] => ['\x7b', '\x7d']
  | .dict ((k, v) :: items) =>
    '\x7b' :: (encodeText k ++ ':' :: (encodeValue v ++ encodeMembers items))
  | .other text => text.toList
  | .bytes _ => []
  | .oddDict _ => []

/-- The elements behind the first one, and the end. -/
def encodeElements : List Value → List Char
  | [] => [']']
  | x :: xs => ',' :: (encodeValue x ++ encodeElements xs)

/-- The members behind the first one, and the end. -/
def encodeMembers : List (String × Value) → List Char
  | [] => ['\x7d']
  | (k, v) :: items => ',' :: (encodeText k ++ ':' :: (encodeValue v ++ encodeMembers items))

end

/-! ## Decoding -/

def isSpace (c : Char) : Bool := c = ' ' ∨ c = '\t' ∨ c = '\n' ∨ c = '\r'

def skip (text : List Char) : List Char := text.dropWhile isSpace

def hexValue (c : Char) : Option Nat :=
  if '0' ≤ c ∧ c ≤ '9' then some (c.toNat - 48)
  else if 'a' ≤ c ∧ c ≤ 'f' then some (c.toNat - 87)
  else if 'A' ≤ c ∧ c ≤ 'F' then some (c.toNat - 55)
  else none

/-- Four hexadecimal digits. -/
def takeUnit : List Char → Option (Nat × List Char)
  | a :: b :: c :: d :: rest => do
    let a ← hexValue a
    let b ← hexValue b
    let c ← hexValue c
    let d ← hexValue d
    return (((a * 16 + b) * 16 + c) * 16 + d, rest)
  | _ => none

/-- What the letter of an escape stands for. -/
def unescape (letter : Char) : Option Char :=
  if letter = '/' then some '/'
  else (shortEscapes.find? fun p => p.2 = letter).map Prod.fst

/-- The character of a code unit, together with the next one where it is half of a pair. -/
def takeCodePoint (text : List Char) : Option (Char × List Char) := do
  let (n, rest) ← takeUnit text
  if 0xD800 ≤ n ∧ n < 0xDC00 then
    match rest with
    | '\\' :: 'u' :: rest => do
      let (m, rest) ← takeUnit rest
      if 0xDC00 ≤ m ∧ m < 0xE000 then
        return (Char.ofNat (0x10000 + (n - 0xD800) * 1024 + (m - 0xDC00)), rest)
      else none
    | _ => none
  else if 0xDC00 ≤ n ∧ n < 0xE000 then none
  else return (Char.ofNat n, rest)

/-- One character of a string. -/
def takeChar : List Char → Option (Char × List Char)
  | [] => none
  | c :: rest =>
    if c = '\\' then
      match rest with
      | [] => none
      | letter :: rest =>
        if letter = 'u' then takeCodePoint rest
        else (unescape letter).map fun c => (c, rest)
    else if c.toNat < 32 then none
    else some (c, rest)

/-- The characters of a string up to its end; `fuel` bounds their number. -/
def takeText : Nat → List Char → Option (List Char × List Char)
  | 0, _ => none
  | fuel + 1, text =>
    if text.head? = some '\x22' then some ([], text.tail)
    else do
      let (c, rest) ← takeChar text
      let (chars, rest) ← takeText fuel rest
      return (c :: chars, rest)

def takeDigits (text : List Char) : List Char × List Char :=
  (text.takeWhile Char.isDigit, text.dropWhile Char.isDigit)

/-- A fraction, as far as there is one. -/
def takeFraction (text : List Char) : List Char × List Char :=
  match text with
  | '.' :: rest =>
    if (takeDigits rest).1 = [] then ([], text) else
      ('.' :: (takeDigits rest).1, (takeDigits rest).2)
  | _ => ([], text)

def takeSign : List Char → List Char × List Char
  | '+' :: rest => (['+'], rest)
  | '-' :: rest => (['-'], rest)
  | text => ([], text)

/-- An exponent, as far as there is one. -/
def takeExponent (text : List Char) : List Char × List Char :=
  match text with
  | c :: rest =>
    if c = 'e' ∨ c = 'E' then
      let (sign, rest) := takeSign rest
      if (takeDigits rest).1 = [] then ([], text)
      else (c :: (sign ++ (takeDigits rest).1), (takeDigits rest).2)
    else ([], text)
  | [] => ([], text)

/-- The digits in front of a fraction: a zero, or digits that do not begin with one. -/
def takeWhole (text : List Char) : List Char × List Char :=
  match text with
  | '0' :: rest => (['0'], rest)
  | _ => takeDigits text

/-- A number behind its sign. -/
def takeNumber (negative : Bool) (text : List Char) : Option (Value × List Char) :=
  let (whole, rest) := takeWhole text
  if whole = [] then none
  else
    let (fraction, rest) := takeFraction rest
    let (exponent, rest) := takeExponent rest
    if fraction = [] ∧ exponent = [] then
      let n := Nat.ofDigitChars 10 whole 0
      some (.int (if negative then - (n : Int) else n), rest)
    else
      let sign := if negative then ['-'] else []
      some (.other (String.ofList (sign ++ whole ++ fraction ++ exponent)), rest)

/-- A word or a number. -/
def takeScalar : List Char → Option (Value × List Char)
  | 'n' :: 'u' :: 'l' :: 'l' :: rest => some (.null, rest)
  | 't' :: 'r' :: 'u' :: 'e' :: rest => some (.bool true, rest)
  | 'f' :: 'a' :: 'l' :: 's' :: 'e' :: rest => some (.bool false, rest)
  | '-' :: rest => takeNumber true rest
  | text => takeNumber false text

mutual

/-- The value at the front of a text; `fuel` bounds the depth and the number of the items. -/
def takeValue : Nat → List Char → Option (Value × List Char)
  | 0, _ => none
  | fuel + 1, text =>
    match text with
    | '\x22' :: rest => do
      let (chars, rest) ← takeText (rest.length + 1) rest
      return (.str (String.ofList chars), rest)
    | '[' :: rest =>
      match skip rest with
      | ']' :: rest => some (.list [], rest)
      | rest => do
        let (x, rest) ← takeValue fuel rest
        let (xs, rest) ← takeElements fuel rest
        return (.list (x :: xs), rest)
    | '\x7b' :: rest =>
      match skip rest with
      | '\x7d' :: rest => some (.dict [], rest)
      | rest => do
        let (item, rest) ← takeMember fuel rest
        let (items, rest) ← takeMembers fuel rest
        return (.dict (SortedDict.ofItems (item :: items)).items, rest)
    | text => takeScalar text

/-- The elements behind the first one, and the end. -/
def takeElements : Nat → List Char → Option (List Value × List Char)
  | 0, _ => none
  | fuel + 1, text =>
    match skip text with
    | ']' :: rest => some ([], rest)
    | ',' :: rest => do
      let (x, rest) ← takeValue fuel (skip rest)
      let (xs, rest) ← takeElements fuel rest
      return (x :: xs, rest)
    | _ => none

/-- A key and its value. -/
def takeMember : Nat → List Char → Option ((String × Value) × List Char)
  | 0, _ => none
  | fuel + 1, text =>
    match text with
    | '\x22' :: rest => do
      let (key, rest) ← takeText (rest.length + 1) rest
      match skip rest with
      | ':' :: rest => do
        let (v, rest) ← takeValue fuel (skip rest)
        return ((String.ofList key, v), rest)
      | _ => none
    | _ => none

/-- The members behind the first one, and the end. -/
def takeMembers : Nat → List Char → Option (List (String × Value) × List Char)
  | 0, _ => none
  | fuel + 1, text =>
    match skip text with
    | '\x7d' :: rest => some ([], rest)
    | ',' :: rest => do
      let (item, rest) ← takeMember fuel (skip rest)
      let (items, rest) ← takeMembers fuel rest
      return (item :: items, rest)
    | _ => none

end

/-- `json.loads`, of a text of the grammar. -/
def decode (text : List Char) : Option Value :=
  match takeValue (text.length + 1) (skip text) with
  | some (v, rest) => if skip rest = [] then some v else none
  | none => none

/-! ## Characters -/

/-- Reading a hexadecimal digit undoes writing it. -/
theorem hexValue_digitChar : ∀ d, d < 16 → hexValue (Nat.digitChar d) = some d := by decide

/-- Four hexadecimal digits read back as the code unit that they write. -/
theorem takeUnit_digits {n : Nat} (h : n < 0x10000) (rest : List Char) :
    takeUnit ([n / 4096 % 16, n / 256 % 16, n / 16 % 16, n % 16].map Nat.digitChar ++ rest) =
      some (n, rest) := by
  have hdigit : ∀ m, hexValue (Nat.digitChar (m % 16)) = some (m % 16) :=
    fun m => hexValue_digitChar _ (Nat.mod_lt _ (by decide))
  simp only [List.map_cons, List.map_nil, List.cons_append, List.nil_append, takeUnit, hdigit,
    Option.bind_eq_bind, Option.bind_some, Option.pure_def, Option.some.injEq, Prod.mk.injEq,
    and_true]
  omega

/-- A `\u` escape outside the surrogates reads back as its character. -/
theorem takeCodePoint_unit {c : Char} (h : c.toNat < 0x10000) (rest : List Char) :
    takeChar (unicodeEscape c.toNat ++ rest) = some (c, rest) := by
  -- a character is no surrogate
  have hvalid : c.toNat < 0xD800 ∨ 0xDFFF < c.toNat := by
    rcases c.valid with h | h
    · exact Or.inl h
    · exact Or.inr h.1
  rw [unicodeEscape, List.cons_append, List.cons_append, takeChar, if_pos rfl, if_pos rfl,
    takeCodePoint, takeUnit_digits h]
  simp only [Option.bind_eq_bind, Option.bind_some]
  rw [if_neg (by omega), if_neg (by omega), Char.ofNat_toNat]
  rfl

/-- A surrogate pair reads back as the one character that it stands for. -/
theorem takeChar_pair {high low : Nat} (hhigh : 0xD800 ≤ high ∧ high < 0xDC00)
    (hlow : 0xDC00 ≤ low ∧ low < 0xE000) (rest : List Char) :
    takeChar (unicodeEscape high ++ (unicodeEscape low ++ rest)) =
      some (Char.ofNat (0x10000 + (high - 0xD800) * 1024 + (low - 0xDC00)), rest) := by
  rw [unicodeEscape, List.cons_append, List.cons_append, takeChar, if_pos rfl, if_pos rfl,
    takeCodePoint, takeUnit_digits (by omega)]
  simp only [Option.bind_eq_bind, Option.bind_some]
  rw [if_pos hhigh, unicodeEscape, List.cons_append, List.cons_append]
  simp only [takeUnit_digits (show low < 0x10000 by omega), Option.bind_some]
  rw [if_pos hlow, Option.pure_def]

theorem unescape_of_mem :
    ∀ p ∈ shortEscapes, unescape p.2 = some p.1 ∧ (p.2 = 'u') = False := by
  simp only [eq_iff_iff, iff_false]
  decide

/-- **An escaped character is read back.** -/
theorem takeChar_escape (c : Char) (rest : List Char) :
    takeChar (escape c ++ rest) = some (c, rest) := by
  unfold escape
  split
  · next e he =>
    obtain ⟨before, after, hlist, -⟩ := List.lookup_eq_some_iff.mp he
    obtain ⟨hletter, hu⟩ := unescape_of_mem (c, e) (by rw [hlist]; simp)
    rw [List.cons_append, List.singleton_append, takeChar, if_pos rfl]
    simp only [hu, if_false, hletter, Option.map_some]
  · next hnone =>
    split
    · have hc : c ≠ '\\' := by
        rintro rfl
        cases hnone
      rw [List.singleton_append, takeChar.eq_def]
      simp only [if_neg hc]
      rw [if_neg (by omega)]
    · split
      · next hlt => exact takeCodePoint_unit hlt rest
      · next hge =>
        have hlt : c.toNat < 0x110000 := by
          rcases c.valid with h | h
          · exact Nat.lt_trans h (by decide)
          · exact h.2
        rw [List.append_assoc, takeChar_pair (by omega) (by omega)]
        have hback : 0x10000 + (0xD800 + (c.toNat - 0x10000) / 1024 - 0xD800) * 1024 +
            (0xDC00 + (c.toNat - 0x10000) % 1024 - 0xDC00) = c.toNat := by omega
        rw [hback, Char.ofNat_toNat]

/-- An escaped character never begins with the closing quote. -/
theorem head?_escape (c : Char) (rest : List Char) :
    (escape c ++ rest).head? ≠ some '\x22' := by
  unfold escape
  split
  · simp
  · next hnone =>
    split
    · rintro hc
      cases hc
      cases hnone
    · split <;> simp [unicodeEscape]

/-- A way to escape characters that is read back. -/
structure EscapesWell (escape : Char → List Char) : Prop where
  take : ∀ c rest, takeChar (escape c ++ rest) = some (c, rest)
  head : ∀ c rest, (escape c ++ rest).head? ≠ some '\x22'
  pos : ∀ c, 0 < (escape c).length

/-- The escapes of `ensure_ascii` read back, whatever follows them. -/
theorem escapesWell_escape : EscapesWell escape where
  take := takeChar_escape
  head := head?_escape
  pos c := by
    unfold escape
    repeat' split
    all_goals simp [unicodeEscape]

section

variable {escape : Char → List Char}

/-- An escaped text is at least as long as the text. -/
theorem EscapesWell.length_le (h : EscapesWell escape) (chars : List Char) :
    chars.length ≤ (chars.flatMap escape).length := by
  induction chars with
  | nil => exact Nat.le_refl 0
  | cons c chars ih =>
    rw [List.flatMap_cons, List.length_append, List.length_cons]
    have hpos := h.pos c
    omega

/-- A quoted text reads back up to its closing quote. -/
theorem EscapesWell.takeText (h : EscapesWell escape) (chars rest : List Char) {fuel : Nat}
    (hfuel : chars.length < fuel) :
    Json.takeText fuel (chars.flatMap escape ++ '\x22' :: rest) = some (chars, rest) := by
  induction chars generalizing fuel with
  | nil =>
    cases fuel with
    | zero => omega
    | succ fuel => rfl
  | cons c chars ih =>
    cases fuel with
    | zero => omega
    | succ fuel =>
      rw [List.length_cons] at hfuel
      rw [List.flatMap_cons, List.append_assoc, Json.takeText, if_neg (h.head c _), h.take]
      simp only [Option.bind_eq_bind, Option.bind_some]
      rw [ih (by omega)]
      rfl

/-- A way to write texts that is read back. -/
def WritesText (text : String → List Char) : Prop :=
  ∀ s, ∃ body, text s = '\x22' :: body ∧
    ∀ rest, Json.takeText ((body ++ rest).length + 1) (body ++ rest) = some (s.toList, rest)

/-- A quoted text whose escapes read back is a way to write texts. -/
theorem EscapesWell.writesText (h : EscapesWell escape) :
    WritesText fun s => '\x22' :: (s.toList.flatMap escape ++ ['\x22']) := by
  refine fun s => ⟨_, rfl, fun rest => ?_⟩
  have hlength := h.length_le s.toList
  rw [List.append_assoc, List.singleton_append]
  refine h.takeText s.toList rest ?_
  rw [List.length_append]
  omega

end

theorem writesText_encodeText : WritesText encodeText := escapesWell_escape.writesText

/-! ## Numbers -/

/-- What may stand behind a number. -/
def Ends (rest : List Char) : Prop :=
  ∀ c, rest.head? = some c → c.isDigit = false ∧ c ≠ '.' ∧ c ≠ 'e' ∧ c ≠ 'E'

theorem ends_nil : Ends [] := by
  rintro c ⟨⟩

theorem ends_cons {c : Char} (rest : List Char)
    (h : c.isDigit = false ∧ c ≠ '.' ∧ c ≠ 'e' ∧ c ≠ 'E') : Ends (c :: rest) := by
  intro d hd
  cases hd
  exact h

/-- The digits of a number are taken whole where no digit follows. -/
theorem takeDigits_append {digits rest : List Char} (hdigits : ∀ c ∈ digits, c.isDigit = true)
    (hends : Ends rest) : takeDigits (digits ++ rest) = (digits, rest) := by
  have hrest : rest.takeWhile Char.isDigit = [] ∧ rest.dropWhile Char.isDigit = rest := by
    cases rest with
    | nil => exact ⟨rfl, rfl⟩
    | cons c rest =>
      have hc := (hends c rfl).1
      exact ⟨by rw [List.takeWhile_cons, hc]; rfl, by rw [List.dropWhile_cons, hc]; rfl⟩
  rw [takeDigits, List.takeWhile_append_of_pos hdigits, List.dropWhile_append_of_pos hdigits,
    hrest.1, hrest.2, List.append_nil]

theorem takeFraction_ends {rest : List Char} (hends : Ends rest) :
    takeFraction rest = ([], rest) := by
  unfold takeFraction
  split
  · next tail => exact absurd rfl (hends '.' rfl).2.1
  · rfl

theorem takeExponent_ends {rest : List Char} (hends : Ends rest) :
    takeExponent rest = ([], rest) := by
  unfold takeExponent
  split
  · next c tail =>
    rw [if_neg]
    rintro (rfl | rfl)
    · exact (hends 'e' rfl).2.2.1 rfl
    · exact (hends 'E' rfl).2.2.2 rfl
  · rfl

theorem isDigit_toDigits (n : Nat) : ∀ c ∈ Nat.toDigits 10 n, c.isDigit = true :=
  fun _ hc => Nat.isDigit_of_mem_toDigits (by decide) (by decide) hc

theorem head?_toDigits {n : Nat} (h : 0 < n) : (Nat.toDigits 10 n).head? ≠ some '0' := by
  induction n using Nat.strongRecOn with
  | _ n ih =>
    by_cases hlt : n < 10
    · rw [Nat.toDigits_of_lt_base hlt]
      have hdigits : ∀ d, d < 10 → 0 < d → Nat.digitChar d ≠ '0' := by decide
      intro hc
      exact hdigits n hlt h (Option.some.inj hc)
    · rw [Nat.toDigits_of_base_le (by decide) (by omega), List.head?_append_of_ne_nil]
      · exact ih (n / 10) (by omega) (by omega)
      · exact Nat.toDigits_ne_nil

/-- The decimal digits of a natural number are a whole part: no leading zero. -/
theorem takeWhole_toDigits (n : Nat) {rest : List Char} (hends : Ends rest) :
    takeWhole (Nat.toDigits 10 n ++ rest) = (Nat.toDigits 10 n, rest) := by
  unfold takeWhole
  split
  · next tail heq =>
    by_cases h : n = 0
    · subst h
      rw [Nat.toDigits_zero] at heq ⊢
      cases heq
      rfl
    · have hhead := congrArg List.head? heq
      rw [List.head?_append_of_ne_nil _ Nat.toDigits_ne_nil] at hhead
      exact absurd hhead (head?_toDigits (by omega))
  · exact takeDigits_append (isDigit_toDigits n) hends

/-- A written integer reads back with its sign. -/
theorem takeNumber_toDigits (negative : Bool) (n : Nat) {rest : List Char} (hends : Ends rest) :
    takeNumber negative (Nat.toDigits 10 n ++ rest) =
      some (.int (if negative then - (n : Int) else n), rest) := by
  simp only [takeNumber, takeWhole_toDigits n hends, if_neg Nat.toDigits_ne_nil,
    takeFraction_ends hends, takeExponent_ends hends, and_self, if_true]
  rw [Nat.ofDigitChars_toDigits (by decide) (by decide)]

theorem takeScalar_digit {c : Char} (rest : List Char) (h : c.isDigit = true) :
    takeScalar (c :: rest) = takeNumber false (c :: rest) := by
  unfold takeScalar
  split
  · next heq => cases heq; cases h
  · next heq => cases heq; cases h
  · next heq => cases heq; cases h
  · next heq => cases heq; cases h
  · rfl

/-! ## Values -/

def isAscii (c : Char) : Prop := c.toNat < 0x80

instance (c : Char) : Decidable (isAscii c) := inferInstanceAs (Decidable (_ < _))

/-- A number with a fraction or an exponent: a text that is read as itself. -/
structure IsNumber (text : String) : Prop where
  head : ∃ c tail, text.toList = c :: tail ∧ (c = '-' ∨ c.isDigit = true)
  ascii : ∀ c ∈ text.toList, isAscii c
  read : ∀ rest, Ends rest → takeScalar (text.toList ++ rest) = some (.other text, rest)

mutual

/-- The values that JSON has, with ascending keys. -/
def Plain : Value → Prop
  | .null | .bool _ | .int _ | .str _ => True
  | .list xs => PlainElements xs
  | .dict items => items.Pairwise (fun p q => p.1 < q.1) ∧ PlainMembers items
  | .other text => IsNumber text
  | .bytes _ | .oddDict _ => False

def PlainElements : List Value → Prop
  | [] => True
  | x :: xs => Plain x ∧ PlainElements xs

def PlainMembers : List (String × Value) → Prop
  | [] => True
  | (_, v) :: items => Plain v ∧ PlainMembers items

end

theorem plainElements_iff : ∀ {xs : List Value}, PlainElements xs ↔ ∀ x ∈ xs, Plain x
  | [] => by simp [PlainElements]
  | x :: xs => by rw [PlainElements, plainElements_iff, List.forall_mem_cons]

theorem plainMembers_iff : ∀ {items : List (String × Value)},
    PlainMembers items ↔ ∀ item ∈ items, Plain item.2
  | [] => by simp [PlainMembers]
  | (k, v) :: items => by rw [PlainMembers, plainMembers_iff, List.forall_mem_cons]

theorem not_space_of_isDigit {c : Char} (h : c.isDigit = true) :
    isSpace c = false ∧ c ≠ ']' ∧ c ≠ '\x7d' := by
  refine ⟨?_, ?_, ?_⟩
  · simp only [isSpace, decide_eq_false_iff_not]
    rintro (rfl | rfl | rfl | rfl) <;> cases h
  · rintro rfl
    cases h
  · rintro rfl
    cases h

/-- A value begins with a character that neither is a space nor ends something. -/
def Begins (text : List Char) : Prop :=
  ∃ c rest, text = c :: rest ∧ isSpace c = false ∧ c ≠ ']' ∧ c ≠ '\x7d'

theorem skip_cons {c : Char} (rest : List Char) (h : isSpace c = false) :
    skip (c :: rest) = c :: rest := by
  rw [skip, List.dropWhile_cons, h]
  rfl

/-- Nothing is skipped before a text that begins with no space. -/
theorem Begins.skip_append {text : List Char} (h : Begins text) (rest : List Char) :
    skip (text ++ rest) = text ++ rest := by
  obtain ⟨c, tail, heq, hspace, -⟩ := h
  rw [heq, List.cons_append, skip_cons _ hspace]

theorem Begins.length_pos {text : List Char} (h : Begins text) : 0 < text.length := by
  obtain ⟨c, rest, heq, -⟩ := h
  rw [heq, List.length_cons]
  omega

/-- A value that begins like a number is one. -/
theorem takeValue_number (fuel : Nat) {c : Char} (rest : List Char)
    (h : c = '-' ∨ c.isDigit = true) :
    takeValue (fuel + 1) (c :: rest) = takeScalar (c :: rest) := by
  rw [takeValue]
  · rintro rest' heq
    cases heq
    rcases h with h | h <;> cases h
  · rintro rest' heq
    cases heq
    rcases h with h | h <;> cases h
  · rintro rest' heq
    cases heq
    rcases h with h | h <;> cases h

/-- An integer reads back where no digit follows. -/
theorem takeValue_int (fuel : Nat) (i : Int) {rest : List Char} (hends : Ends rest) :
    takeValue (fuel + 1) (encodeInt i ++ rest) = some (.int i, rest) := by
  cases i with
  | ofNat n =>
    have hnumber := takeNumber_toDigits false n hends
    obtain ⟨c, tail, heq⟩ := List.exists_cons_of_ne_nil (@Nat.toDigits_ne_nil n 10)
    have hc : c.isDigit = true := isDigit_toDigits n c (by rw [heq]; exact List.mem_cons_self ..)
    rw [encodeInt]
    rw [heq, List.cons_append] at hnumber ⊢
    rw [takeValue_number fuel _ (Or.inr hc), takeScalar_digit _ hc]
    exact hnumber
  | negSucc n =>
    have hnumber := takeNumber_toDigits true (n + 1) hends
    rw [encodeInt, List.cons_append, takeValue_number fuel _ (Or.inl rfl)]
    exact hnumber

/-! ## Texts of values

A value is written with its texts as one function of texts has them; what is read back is the same
whichever function that is. -/

mutual

def encodeWith (text : String → List Char) : Value → List Char
  | .null => ['n', 'u', 'l', 'l']
  | .bool true => ['t', 'r', 'u', 'e']
  | .bool false => ['f', 'a', 'l', 's', 'e']
  | .int i => encodeInt i
  | .str s => text s
  | .list [] => ['[', ']']
  | .list (x :: xs) => '[' :: (encodeWith text x ++ elementsWith text xs)
  | .dict [] => ['\x7b', '\x7d']
  | .dict ((k, v) :: items) =>
    '\x7b' :: (text k ++ ':' :: (encodeWith text v ++ membersWith text items))
  | .other number => number.toList
  | .bytes _ => []
  | .oddDict _ => []

def elementsWith (text : String → List Char) : List Value → List Char
  | [] => [']']
  | x :: xs => ',' :: (encodeWith text x ++ elementsWith text xs)

def membersWith (text : String → List Char) : List (String × Value) → List Char
  | [] => ['\x7d']
  | (k, v) :: items => ',' :: (text k ++ ':' :: (encodeWith text v ++ membersWith text items))

end

mutual

/-- The writer with the escapes of `ensure_ascii` is `encodeValue`. -/
theorem encodeWith_encodeText : ∀ v : Value, encodeWith encodeText v = encodeValue v
  | .null | .bool true | .bool false | .int _ | .str _ | .list [] | .dict [] | .other _ | .bytes _
  | .oddDict _ => rfl
  | .list (x :: xs) => by
    rw [encodeWith, encodeValue, encodeWith_encodeText x, elementsWith_encodeText xs]
  | .dict ((k, v) :: items) => by
    rw [encodeWith, encodeValue, encodeWith_encodeText v, membersWith_encodeText items]

theorem elementsWith_encodeText : ∀ xs : List Value, elementsWith encodeText xs = encodeElements xs
  | [] => rfl
  | x :: xs => by
    rw [elementsWith, encodeElements, encodeWith_encodeText x, elementsWith_encodeText xs]

theorem membersWith_encodeText : ∀ items : List (String × Value),
    membersWith encodeText items = encodeMembers items
  | [] => rfl
  | (k, v) :: items => by
    rw [membersWith, encodeMembers, encodeWith_encodeText v, membersWith_encodeText items]

end

section

variable {text : String → List Char}

theorem WritesText.begins (h : WritesText text) (s : String) : Begins (text s) := by
  obtain ⟨body, hbody, -⟩ := h s
  exact ⟨_, _, hbody, by decide, by decide, by decide⟩

/-- A written plain value begins with no space and no closing bracket. -/
theorem WritesText.begins_encodeWith (h : WritesText text) {v : Value} (hv : Plain v) :
    Begins (encodeWith text v) := by
  have hdigits : ∀ n, ∃ c rest, Nat.toDigits 10 n = c :: rest ∧ c.isDigit = true := by
    intro n
    obtain ⟨c, rest, heq⟩ := List.exists_cons_of_ne_nil (@Nat.toDigits_ne_nil n 10)
    exact ⟨c, rest, heq, isDigit_toDigits n c (by rw [heq]; exact List.mem_cons_self ..)⟩
  cases v with
  | null => exact ⟨_, _, rfl, by decide, by decide, by decide⟩
  | bool b => cases b <;> exact ⟨_, _, rfl, by decide, by decide, by decide⟩
  | int i =>
    cases i with
    | ofNat n =>
      obtain ⟨c, rest, heq, hc⟩ := hdigits n
      exact ⟨c, rest, heq, not_space_of_isDigit hc⟩
    | negSucc n => exact ⟨_, _, rfl, by decide, by decide, by decide⟩
  | str s => exact h.begins s
  | list xs => cases xs <;> exact ⟨_, _, rfl, by decide, by decide, by decide⟩
  | dict items =>
    rcases items with - | ⟨⟨k, v⟩, items⟩ <;> exact ⟨_, _, rfl, by decide, by decide, by decide⟩
  | bytes b => exact hv.elim
  | oddDict text => exact hv.elim
  | other number =>
    obtain ⟨c, tail, heq, hc⟩ := hv.head
    refine ⟨c, tail, heq, ?_⟩
    rcases hc with rfl | hc
    · exact ⟨by decide, by decide, by decide⟩
    · exact not_space_of_isDigit hc

/-- What follows an element of a list is no part of a number. -/
theorem ends_elementsWith (xs : List Value) (rest : List Char) :
    Ends (elementsWith text xs ++ rest) := by
  cases xs with
  | nil => exact ends_cons _ (by decide)
  | cons x xs => exact ends_cons _ (by decide)

/-- What follows a member of an object is no part of a number. -/
theorem ends_membersWith (items : List (String × Value)) (rest : List Char) :
    Ends (membersWith text items ++ rest) := by
  rcases items with - | ⟨⟨k, v⟩, items⟩
  · exact ends_cons _ (by decide)
  · exact ends_cons _ (by decide)

/-- A written text reads back as a value. -/
theorem WritesText.takeValue (h : WritesText text) (fuel : Nat) (s : String) (rest : List Char) :
    Json.takeValue (fuel + 1) (text s ++ rest) = some (.str s, rest) := by
  obtain ⟨body, hbody, hread⟩ := h s
  rw [hbody, List.cons_append, Json.takeValue]
  simp only [hread, Option.bind_eq_bind, Option.bind_some, String.ofList_toList]
  rfl

/-- A member reads back as its key and its value. -/
theorem WritesText.takeMember (h : WritesText text) {fuel : Nat} {k : String} {v : Value}
    {rest : List Char} (hv : Plain v)
    (hread : Json.takeValue fuel (encodeWith text v ++ rest) = some (v, rest)) :
    Json.takeMember (fuel + 1) (text k ++ ':' :: (encodeWith text v ++ rest)) =
      some ((k, v), rest) := by
  obtain ⟨body, hbody, hkey⟩ := h k
  rw [hbody, List.cons_append, Json.takeMember]
  simp only [hkey, Option.bind_eq_bind, Option.bind_some, String.ofList_toList,
    skip_cons _ (show isSpace ':' = false by decide), (h.begins_encodeWith hv).skip_append, hread]
  rfl

mutual

/-- A value is read back, whatever is behind it. -/
theorem WritesText.takeValue_encodeWith (h : WritesText text) : ∀ (v : Value), Plain v →
    ∀ (fuel : Nat) (rest : List Char), (encodeWith text v).length ≤ fuel + 1 → Ends rest →
      Json.takeValue (fuel + 1) (encodeWith text v ++ rest) = some (v, rest)
  | .null, _, _, _, _, _ => rfl
  | .bool true, _, _, _, _, _ => rfl
  | .bool false, _, _, _, _, _ => rfl
  | .int i, _, fuel, _, _, hends => takeValue_int fuel i hends
  | .str s, _, fuel, rest, _, _ => h.takeValue fuel s rest
  | .list [], _, _, _, _, _ => rfl
  | .list (x :: xs), hplain, fuel, rest, hfuel, _ => by
    obtain ⟨hx, hxs⟩ := hplain
    have hbegins := h.begins_encodeWith hx
    have hpos := hbegins.length_pos
    simp only [encodeWith, List.length_cons, List.length_append] at hfuel
    obtain ⟨fuel, rfl⟩ : ∃ n, fuel = n + 1 := ⟨fuel - 1, by omega⟩
    have hfirst := h.takeValue_encodeWith x hx fuel (elementsWith text xs ++ rest) (by omega)
      (ends_elementsWith xs rest)
    have hothers := h.takeElements_elementsWith xs hxs fuel rest (by omega)
    rw [encodeWith, List.cons_append, List.append_assoc, Json.takeValue, hbegins.skip_append]
    obtain ⟨c, tail, heq, hspace, hbracket, -⟩ := hbegins
    rw [heq, List.cons_append] at hfirst ⊢
    split
    · next hc =>
      cases hc
      exact absurd rfl hbracket
    · rw [hfirst]
      simp only [Option.bind_eq_bind, Option.bind_some, hothers]
      rfl
  | .dict [], _, _, _, _, _ => rfl
  | .dict ((k, v) :: items), hplain, fuel, rest, hfuel, _ => by
    obtain ⟨hsorted, hv, hitems⟩ := hplain
    have hpos := (h.begins_encodeWith hv).length_pos
    have hkey := h.begins k
    have hkeyPos := hkey.length_pos
    simp only [encodeWith, List.length_cons, List.length_append] at hfuel
    obtain ⟨fuel, rfl⟩ : ∃ n, fuel = n + 2 := ⟨fuel - 2, by omega⟩
    have hmember : Json.takeMember (fuel + 2)
        (text k ++ ':' :: (encodeWith text v ++ (membersWith text items ++ rest))) =
          some ((k, v), membersWith text items ++ rest) :=
      h.takeMember hv
        (h.takeValue_encodeWith v hv fuel _ (by omega) (ends_membersWith items rest))
    have hothers := h.takeMembers_membersWith items hitems (fuel + 1) rest (by omega)
    have hdict : (SortedDict.ofItems ((k, v) :: items)).items = (k, v) :: items :=
      congrArg SortedDict.items (SortedDict.ofItems_items ⟨_, hsorted⟩)
    rw [encodeWith, List.cons_append, List.append_assoc, List.cons_append, List.append_assoc,
      Json.takeValue, hkey.skip_append]
    obtain ⟨body, hbody, -⟩ := h k
    rw [hbody, List.cons_append] at hmember ⊢
    split
    · next heq => cases heq
    · rw [hmember]
      simp only [Option.bind_eq_bind, Option.bind_some, hothers, hdict]
      rfl
  | .bytes _, hplain, _, _, _, _ => hplain.elim
  | .oddDict _, hplain, _, _, _, _ => hplain.elim
  | .other number, hplain, fuel, rest, _, hends => by
    have hread := hplain.read rest hends
    obtain ⟨c, tail, heq, hc⟩ := hplain.head
    rw [encodeWith]
    rw [heq, List.cons_append] at hread ⊢
    rw [takeValue_number fuel _ hc]
    exact hread

/-- The elements of a written list read back up to the bracket. -/
theorem WritesText.takeElements_elementsWith (h : WritesText text) : ∀ (xs : List Value),
    PlainElements xs → ∀ (fuel : Nat) (rest : List Char),
      (elementsWith text xs).length ≤ fuel + 1 →
      Json.takeElements (fuel + 1) (elementsWith text xs ++ rest) = some (xs, rest)
  | [], _, _, _, _ => rfl
  | x :: xs, hplain, fuel, rest, hfuel => by
    obtain ⟨hx, hxs⟩ := hplain
    have hbegins := h.begins_encodeWith hx
    have hpos := hbegins.length_pos
    simp only [elementsWith, List.length_cons, List.length_append] at hfuel
    obtain ⟨fuel, rfl⟩ : ∃ n, fuel = n + 1 := ⟨fuel - 1, by omega⟩
    have hfirst := h.takeValue_encodeWith x hx fuel (elementsWith text xs ++ rest) (by omega)
      (ends_elementsWith xs rest)
    have hothers := h.takeElements_elementsWith xs hxs fuel rest (by omega)
    rw [elementsWith, List.cons_append, List.append_assoc, Json.takeElements,
      skip_cons _ (show isSpace ',' = false by decide)]
    simp only [hbegins.skip_append, hfirst, Option.bind_eq_bind, Option.bind_some, hothers]
    rfl

/-- The members of a written object read back up to the bracket. -/
theorem WritesText.takeMembers_membersWith (h : WritesText text) :
    ∀ (items : List (String × Value)), PlainMembers items → ∀ (fuel : Nat) (rest : List Char),
      (membersWith text items).length ≤ fuel + 1 →
      Json.takeMembers (fuel + 1) (membersWith text items ++ rest) = some (items, rest)
  | [], _, _, _, _ => rfl
  | (k, v) :: items, hplain, fuel, rest, hfuel => by
    obtain ⟨hv, hitems⟩ := hplain
    have hpos := (h.begins_encodeWith hv).length_pos
    have hkey := h.begins k
    have hkeyPos := hkey.length_pos
    simp only [membersWith, List.length_cons, List.length_append] at hfuel
    obtain ⟨fuel, rfl⟩ : ∃ n, fuel = n + 2 := ⟨fuel - 2, by omega⟩
    have hmember : Json.takeMember (fuel + 2)
        (text k ++ ':' :: (encodeWith text v ++ (membersWith text items ++ rest))) =
          some ((k, v), membersWith text items ++ rest) :=
      h.takeMember hv
        (h.takeValue_encodeWith v hv fuel _ (by omega) (ends_membersWith items rest))
    have hothers := h.takeMembers_membersWith items hitems (fuel + 1) rest (by omega)
    rw [membersWith, List.cons_append, List.append_assoc, List.cons_append, List.append_assoc,
      Json.takeMembers, skip_cons _ (show isSpace ',' = false by decide)]
    simp only [hkey.skip_append, hmember, Option.bind_eq_bind, Option.bind_some, hothers]
    rfl

end

/-- What a value is written as says that value, also in front of a line end. -/
theorem WritesText.decode_encodeWith (h : WritesText text) {v : Value} (hv : Plain v)
    {rest : List Char} (hrest : skip rest = []) (hends : Ends rest) :
    decode (encodeWith text v ++ rest) = some v := by
  rw [decode, (h.begins_encodeWith hv).skip_append,
    h.takeValue_encodeWith v hv _ rest (by rw [List.length_append]; omega) hends]
  simp only [hrest, if_true]

end

/-- **Round trip**, of the texts in ASCII. -/
theorem decode_encode {v : Value} (h : Plain v) {rest : List Char} (hrest : skip rest = [])
    (hends : Ends rest) : decode (encodeValue v ++ rest) = some v := by
  rw [← encodeWith_encodeText]
  exact writesText_encodeText.decode_encodeWith h hrest hends

/-! ## Bytes -/

theorem isAscii_of_isDigit {c : Char} (h : c.isDigit = true) : isAscii c := by
  simp only [Char.isDigit, Bool.and_eq_true, decide_eq_true_eq] at h
  have hle : c.toNat ≤ 57 := h.2
  exact Nat.lt_of_le_of_lt hle (by decide)

theorem isAscii_unicodeEscape (n : Nat) : ∀ c ∈ unicodeEscape n, isAscii c := by
  have hdigits : ∀ d, d < 16 → isAscii (Nat.digitChar d) := by decide
  have hdigit : ∀ m, isAscii (Nat.digitChar (m % 16)) :=
    fun m => hdigits _ (Nat.mod_lt _ (by decide))
  intro c hc
  rcases List.mem_cons.mp hc with rfl | hc
  · decide
  rcases List.mem_cons.mp hc with rfl | hc
  · decide
  simp only [List.map_cons, List.map_nil, List.mem_cons, List.not_mem_nil, or_false] at hc
  rcases hc with rfl | rfl | rfl | rfl <;> exact hdigit _

theorem isAscii_escape (c : Char) : ∀ d ∈ escape c, isAscii d := by
  unfold escape
  split
  · next e he =>
    obtain ⟨before, after, hlist, -⟩ := List.lookup_eq_some_iff.mp he
    have hall : ∀ p ∈ shortEscapes, isAscii p.2 := by decide
    have hletter := hall (c, e) (by rw [hlist]; simp)
    intro d hd
    rcases List.mem_cons.mp hd with rfl | hd
    · decide
    · rw [List.mem_singleton.mp hd]
      exact hletter
  · split
    · next hprintable =>
      intro d hd
      rw [List.mem_singleton.mp hd]
      exact Nat.lt_trans hprintable.2 (by decide)
    · split
      · exact isAscii_unicodeEscape _
      · intro d hd
        rcases List.mem_append.mp hd with hd | hd
        · exact isAscii_unicodeEscape _ d hd
        · exact isAscii_unicodeEscape _ d hd

/-- A text written with `ensure_ascii` is ASCII. -/
theorem isAscii_encodeText (s : String) : ∀ c ∈ encodeText s, isAscii c := by
  intro c hc
  rcases List.mem_cons.mp hc with rfl | hc
  · decide
  rcases List.mem_append.mp hc with hc | hc
  · obtain ⟨d, -, hd⟩ := List.mem_flatMap.mp hc
    exact isAscii_escape d c hd
  · rw [List.mem_singleton.mp hc]
    decide

theorem isAscii_encodeInt (i : Int) : ∀ c ∈ encodeInt i, isAscii c := by
  have hdigits : ∀ n, ∀ c ∈ Nat.toDigits 10 n, isAscii c :=
    fun n c hc => isAscii_of_isDigit (isDigit_toDigits n c hc)
  cases i with
  | ofNat n => exact hdigits n
  | negSucc n =>
    intro c hc
    rcases List.mem_cons.mp hc with rfl | hc
    · decide
    · exact hdigits _ c hc

/-- A short text is checked character by character. -/
theorem isAscii_of_all {text : List Char} (h : (text.all fun c => c.toNat < 0x80) = true) :
    ∀ c ∈ text, isAscii c := by
  intro c hc
  exact of_decide_eq_true (List.all_eq_true.mp h c hc)

mutual

/-- **A plain value is written in ASCII.** -/
theorem isAscii_encodeValue : ∀ (v : Value), Plain v → ∀ c ∈ encodeValue v, isAscii c
  | .null, _ => isAscii_of_all rfl
  | .bool true, _ => isAscii_of_all rfl
  | .bool false, _ => isAscii_of_all rfl
  | .int i, _ => isAscii_encodeInt i
  | .str s, _ => isAscii_encodeText s
  | .list [], _ => isAscii_of_all rfl
  | .list (x :: xs), h => by
    intro c hc
    rcases List.mem_cons.mp hc with rfl | hc
    · decide
    rcases List.mem_append.mp hc with hc | hc
    · exact isAscii_encodeValue x h.1 c hc
    · exact isAscii_encodeElements xs h.2 c hc
  | .dict [], _ => isAscii_of_all rfl
  | .dict ((k, v) :: items), h => by
    intro c hc
    rcases List.mem_cons.mp hc with rfl | hc
    · decide
    rcases List.mem_append.mp hc with hc | hc
    · exact isAscii_encodeText k c hc
    rcases List.mem_cons.mp hc with rfl | hc
    · decide
    rcases List.mem_append.mp hc with hc | hc
    · exact isAscii_encodeValue v h.2.1 c hc
    · exact isAscii_encodeMembers items h.2.2 c hc
  | .bytes _, h => h.elim
  | .oddDict _, h => h.elim
  | .other _, h => h.ascii

theorem isAscii_encodeElements : ∀ (xs : List Value), PlainElements xs →
    ∀ c ∈ encodeElements xs, isAscii c
  | [], _ => isAscii_of_all rfl
  | x :: xs, h => by
    intro c hc
    rcases List.mem_cons.mp hc with rfl | hc
    · decide
    rcases List.mem_append.mp hc with hc | hc
    · exact isAscii_encodeValue x h.1 c hc
    · exact isAscii_encodeElements xs h.2 c hc

theorem isAscii_encodeMembers : ∀ (items : List (String × Value)), PlainMembers items →
    ∀ c ∈ encodeMembers items, isAscii c
  | [], _ => isAscii_of_all rfl
  | (k, v) :: items, h => by
    intro c hc
    rcases List.mem_cons.mp hc with rfl | hc
    · decide
    rcases List.mem_append.mp hc with hc | hc
    · exact isAscii_encodeText k c hc
    rcases List.mem_cons.mp hc with rfl | hc
    · decide
    rcases List.mem_append.mp hc with hc | hc
    · exact isAscii_encodeValue v h.1 c hc
    · exact isAscii_encodeMembers items h.2 c hc

end

/-- The bytes of a text in ASCII. -/
def asciiBytes (text : List Char) : List UInt8 := text.map fun c => UInt8.ofNat c.toNat

/-- `(json.dumps(document, sort_keys=True, separators=(",", ":")) + "\n").encode("utf-8")`. -/
def canonical (v : Value) : List UInt8 := asciiBytes (encodeValue v ++ ['\n'])

/-- `json.loads` of bytes, which have to be in UTF-8: of any others it raises a
`UnicodeDecodeError`. -/
def loads (bytes : List UInt8) : Option Value := (Cbor.utf8Chars bytes.length bytes).bind decode

/-- ASCII bytes decode to the characters they were written from. -/
theorem utf8Chars_asciiBytes {text : List Char} (h : ∀ c ∈ text, isAscii c) :
    Cbor.utf8Chars text.length (asciiBytes text) = some text := by
  induction text with
  | nil => rfl
  | cons c text ih =>
    have hc : c.toNat < 0x80 := h c (List.mem_cons_self ..)
    have hbyte : (UInt8.ofNat c.toNat).toNat = c.toNat := by
      rw [UInt8.toNat_ofNat', Nat.mod_eq_of_lt (by omega)]
    have hrest := ih fun d hd => h d (List.mem_cons_of_mem _ hd)
    show Cbor.utf8Chars (text.length + 1) (UInt8.ofNat c.toNat :: asciiBytes text) = _
    rw [Cbor.utf8Chars.eq_def]
    simp only [hbyte, if_pos hc, Char.ofNat_toNat, hrest, Option.map_some]

/-- **The canonical bytes of a value say that value.** -/
theorem loads_canonical {v : Value} (h : Plain v) : loads (canonical v) = some v := by
  have hascii : ∀ c ∈ encodeValue v ++ ['\n'], isAscii c := by
    intro c hc
    rcases List.mem_append.mp hc with hc | hc
    · exact isAscii_encodeValue v h c hc
    · rw [List.mem_singleton.mp hc]
      decide
  rw [loads, canonical, asciiBytes, List.length_map, ← asciiBytes, utf8Chars_asciiBytes hascii]
  exact decode_encode h rfl (ends_cons [] (by decide))

/-! ## Readers -/

/-- What `json.loads` does with a text. -/
inductive Loads where
  | value (v : Value)
  /-- A `JSONDecodeError`. -/
  | invalid
  /-- Any other error: a `ValueError` over the digits of an integer, a `RecursionError`. -/
  | raised
  deriving DecidableEq

def Loads.value? : Loads → Option Value
  | value v => some v
  | invalid | raised => none

@[simp] theorem Loads.value?_eq_some {result : Loads} {v : Value} :
    result.value? = some v ↔ result = .value v := by
  cases result <;> simp [Loads.value?]

/-- `json.loads`. Nothing is assumed of it: which texts are read, and where the limits of the
interpreter are, is left open. -/
class Reader where
  loads : String → Loads

namespace Grammar

/-- The reader of the texts of the grammar. -/
scoped instance reader : Reader where
  loads text := ((decode text.toList).map Loads.value).getD .invalid

/-- A text of the grammar is what the reader loads. -/
theorem loads_of_decode {text : String} {v : Value} (h : decode text.toList = some v) :
    Reader.loads text = .value v := by
  show ((decode text.toList).map Loads.value).getD .invalid = .value v
  rw [h, Option.map_some, Option.getD_some]

end Grammar

end Json
