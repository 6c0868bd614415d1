import MarketDataRecorder.Lib.Json
import MarketDataRecorder.Lib.SortedDict

/-!
# JSON texts

The writing of a document as `json.dumps(value, sort_keys=True, separators=(",", ":"),
ensure_ascii=False)` does it: the text of `Json.encodeValue` with the characters beyond ASCII
left as they are.

* `decode_renderValue` — **round trip**
-/

namespace JsonText

/-- The escape of a character: a quotation mark, a backslash and the control characters have one. -/
def escape (c : Char) : List Char :=
  match Json.shortEscapes.lookup c with
  | some e => ['\\', e]
  | none => if c.toNat < 32 then Json.unicodeEscape c.toNat else [c]

def renderText (s : String) : List Char :=
  '\x22' :: (s.toList.flatMap escape ++ ['\x22'])

mutual

def renderValue : Value → List Char
  | .null => "null".toList
  | .bool true => "true".toList
  | .bool false => "false".toList
  | .int i => Json.encodeInt i
  | .str s => renderText s
  | .list [] => ['[', ']']
  | .list (x :: xs) => '[' :: (renderValue x ++ renderElements xs)
  | .dict [] => ['\x7b', '\x7d']
  | .dict ((k, v) :: items) =>
    '\x7b' :: (renderText k ++ ':' :: (renderValue v ++ renderMembers items))
  | .other text => text.toList
  | .bytes _ => []
  | .oddDict _ => []

/-- The elements behind the first one, and the end. -/
def renderElements : List Value → List Char
  | [] => [']']
  | x :: xs => ',' :: (renderValue x ++ renderElements xs)

/-- The members behind the first one, and the end. -/
def renderMembers : List (String × Value) → List Char
  | [] => ['\x7d']
  | (k, v) :: items => ',' :: (renderText k ++ ':' :: (renderValue v ++ renderMembers items))

end

/-! ## Reading back -/

theorem escapesWell_escape : Json.EscapesWell escape where
  take c rest := by
    unfold escape
    split
    · next e he =>
      have hsame : Json.escape c = ['\\', e] := by rw [Json.escape, he]
      rw [← hsame]
      exact Json.takeChar_escape c rest
    · next hnone =>
      split
      · next hlt => exact Json.takeCodePoint_unit (by omega) rest
      · next hge =>
        have hc : c ≠ '\\' := by
          rintro rfl
          cases hnone
        rw [List.singleton_append, Json.takeChar.eq_def]
        simp only [if_neg hc]
        rw [if_neg hge]
  head c rest := by
    unfold escape
    split
    · simp
    · next hnone =>
      split
      · simp [Json.unicodeEscape]
      · rintro hc
        cases hc
        cases hnone
  pos c := by
    unfold escape
    repeat' split
    all_goals simp [Json.unicodeEscape]

theorem writesText_renderText : Json.WritesText renderText := escapesWell_escape.writesText

mutual

theorem encodeWith_renderText : ∀ v : Value, Json.encodeWith renderText v = renderValue v
  | .null | .bool true | .bool false | .int _ | .str _ | .list [] | .dict [] | .other _ | .bytes _
  | .oddDict _ => rfl
  | .list (x :: xs) => by
    rw [Json.encodeWith, renderValue, encodeWith_renderText x, elementsWith_renderText xs]
  | .dict ((k, v) :: items) => by
    rw [Json.encodeWith, renderValue, encodeWith_renderText v, membersWith_renderText items]

theorem elementsWith_renderText : ∀ xs : List Value,
    Json.elementsWith renderText xs = renderElements xs
  | [] => rfl
  | x :: xs => by
    rw [Json.elementsWith, renderElements, encodeWith_renderText x, elementsWith_renderText xs]

theorem membersWith_renderText : ∀ items : List (String × Value),
    Json.membersWith renderText items = renderMembers items
  | [] => rfl
  | (k, v) :: items => by
    rw [Json.membersWith, renderMembers, encodeWith_renderText v, membersWith_renderText items]

end

/-- **Round trip**, of the texts with all characters. -/
theorem decode_renderValue {v : Value} (h : Json.Plain v) :
    Json.decode (renderValue v) = some v := by
  rw [← encodeWith_renderText, ← List.append_nil (Json.encodeWith renderText v)]
  exact writesText_renderText.decode_encodeWith h rfl Json.ends_nil

/-- A dictionary literal: of two items with one key the later one stays. -/
def document (items : List (String × Value)) : Value := .dict (SortedDict.ofItems items).items

end JsonText
