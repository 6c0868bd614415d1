import Mathlib.Init

/-!
# Dynamic values

The values a self-describing encoding carries. A dictionary is its items in ascending key order,
so that two equal dictionaries are equal as values; a sequence is a `list`, whether the language
calls it list or tuple.
-/

/-- A dynamic value. -/
inductive Value where
  | null
  | bool (b : Bool)
  | int (i : Int)
  | str (s : String)
  | bytes (b : List UInt8)
  | list (xs : List Value)
  | dict (items : List (String × Value))
  /-- A dictionary with a key that is not a string. -/
  | oddDict (text : String)
  /-- Anything else: a float, a tagged value, … -/
  | other (text : String)
  deriving Repr

namespace Value

instance : Inhabited Value := ⟨null⟩

/-! ## Decidable equality -/

mutual

def decEq : (a b : Value) → Decidable (a = b)
  | null, b => by
    cases b <;> first | exact isTrue rfl | exact isFalse (by intro h; cases h)
  | bool x, b => by
    cases b
    case bool y => exact decidable_of_iff (x = y) ⟨congrArg bool, bool.inj⟩
    all_goals exact isFalse (by intro h; cases h)
  | int x, b => by
    cases b
    case int y => exact decidable_of_iff (x = y) ⟨congrArg int, int.inj⟩
    all_goals exact isFalse (by intro h; cases h)
  | str x, b => by
    cases b
    case str y => exact decidable_of_iff (x = y) ⟨congrArg str, str.inj⟩
    all_goals exact isFalse (by intro h; cases h)
  | bytes x, b => by
    cases b
    case bytes y => exact decidable_of_iff (x = y) ⟨congrArg bytes, bytes.inj⟩
    all_goals exact isFalse (by intro h; cases h)
  | list xs, b => by
    cases b
    case list ys => exact @decidable_of_iff _ (xs = ys) ⟨congrArg list, list.inj⟩ (decEqList xs ys)
    all_goals exact isFalse (by intro h; cases h)
  | dict xs, b => by
    cases b
    case dict ys => exact @decidable_of_iff _ (xs = ys) ⟨congrArg dict, dict.inj⟩ (decEqItems xs ys)
    all_goals exact isFalse (by intro h; cases h)
  | oddDict x, b => by
    cases b
    case oddDict y => exact decidable_of_iff (x = y) ⟨congrArg oddDict, oddDict.inj⟩
    all_goals exact isFalse (by intro h; cases h)
  | other x, b => by
    cases b
    case other y => exact decidable_of_iff (x = y) ⟨congrArg other, other.inj⟩
    all_goals exact isFalse (by intro h; cases h)

def decEqList : (xs ys : List Value) → Decidable (xs = ys)
  | [], [] => isTrue rfl
  | [], _ :: _ => isFalse (by intro h; cases h)
  | _ :: _, [] => isFalse (by intro h; cases h)
  | x :: xs, y :: ys =>
    match decEq x y, decEqList xs ys with
    | isTrue h, isTrue hs => isTrue (by rw [h, hs])
    | isFalse h, _ => isFalse (fun e => h (List.cons.inj e).1)
    | _, isFalse hs => isFalse (fun e => hs (List.cons.inj e).2)

def decEqItems : (xs ys : List (String × Value)) → Decidable (xs = ys)
  | [], [] => isTrue rfl
  | [], _ :: _ => isFalse (by intro h; cases h)
  | _ :: _, [] => isFalse (by intro h; cases h)
  | (j, x) :: xs, (k, y) :: ys =>
    match decEq x y, decEqItems xs ys, (inferInstance : Decidable (j = k)) with
    | isTrue h, isTrue hs, isTrue hk => isTrue (by rw [h, hs, hk])
    | isFalse h, _, _ => isFalse (fun e => h (Prod.mk.inj (List.cons.inj e).1).2)
    | _, isFalse hs, _ => isFalse (fun e => hs (List.cons.inj e).2)
    | _, _, isFalse hk => isFalse (fun e => hk (Prod.mk.inj (List.cons.inj e).1).1)

end

instance : DecidableEq Value := decEq

/-! ## Access -/

/-- The item of a dictionary under a key, `none` where there is none. -/
def findItem (k : String) : List (String × Value) → Option Value
  | [] => none
  | (k', v) :: rest => if k' = k then some v else findItem k rest

/-- `value.get(key)` on a dictionary. -/
def get? : Value → String → Option Value
  | dict items, k => findItem k items
  | _, _ => none

/-- Set an item of an ascending item list. -/
def setItem (k : String) (v : Value) : List (String × Value) → List (String × Value)
  | [] => [(k, v)]
  | (k', v') :: rest =>
    if k < k' then (k, v) :: (k', v') :: rest
    else if k' = k then (k, v) :: rest
    else (k', v') :: setItem k v rest

/-- `value[key] = item` on a dictionary. -/
def set : Value → String → Value → Value
  | dict items, k, v => dict (setItem k v items)
  | value, _, _ => value

def isDict : Value → Bool
  | dict _ => true
  | oddDict _ => true
  | _ => false

end Value
