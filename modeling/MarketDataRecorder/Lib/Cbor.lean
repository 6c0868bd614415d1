import Mathlib.Data.String.Basic
import MarketDataRecorder.Lib.BigEndian
import MarketDataRecorder.Lib.SortedDict
import MarketDataRecorder.Lib.Value

/-!
# Canonical CBOR

The canonical encoding of dynamic values: shortest heads, integers beyond 64 bits as bignums, map
keys by length and then bytewise. The decoder reads one item and says what is left; it accepts
definite lengths only, and neither floats nor tags other than the two bignum tags.
-/

namespace Cbor

/-! ## Encoding -/

/-- The head of an item: a major type and an argument below `2 ^ 64`. -/
def head (major n : Nat) : List UInt8 :=
  let first (info : Nat) : UInt8 := UInt8.ofNat (major * 32 + info)
  if n < 24 then [first n]
  else if n < 0x100 then first 24 :: BigEndian.toBytes 1 n
  else if n < 0x10000 then first 25 :: BigEndian.toBytes 2 n
  else if n < 0x100000000 then first 26 :: BigEndian.toBytes 4 n
  else first 27 :: BigEndian.toBytes 8 n

/-- An unsigned argument of an integer item, as a bignum where it does not fit in 64 bits. -/
def integer (major tag n : Nat) : List UInt8 :=
  if n < 0x10000000000000000 then head major n
  else
    let width := Nat.log2 n / 8 + 1
    head 6 tag ++ head 2 width ++ BigEndian.toBytes width n

def utf8 (s : String) : List UInt8 := s.toByteArray.data.toList

def text (s : String) : List UInt8 :=
  let b := utf8 s
  head 3 b.length ++ b

/-- Bytewise order of byte strings. -/
def bytesLe : List UInt8 → List UInt8 → Bool
  | [], _ => true
  | _ :: _, [] => false
  | a :: as, b :: bs => if a = b then bytesLe as bs else a < b

/-- The canonical order of encoded keys. -/
def keyLe (a b : List UInt8) : Bool :=
  if a.length = b.length then bytesLe a b else a.length < b.length

def insertKey (p : List UInt8 × List UInt8) :
    List (List UInt8 × List UInt8) → List (List UInt8 × List UInt8)
  | [] => [p]
  | q :: rest => if keyLe p.1 q.1 then p :: q :: rest else q :: insertKey p rest

mutual

def encode : Value → List UInt8
  | .null => [0xF6]
  | .bool false => [0xF4]
  | .bool true => [0xF5]
  | .int (.ofNat n) => integer 0 2 n
  | .int (.negSucc n) => integer 1 3 n
  | .str s => text s
  | .bytes b => head 2 b.length ++ b
  | .list xs => head 4 xs.length ++ encodeList xs
  | .dict items =>
    let sorted := (encodeItems items).foldr insertKey []
    head 5 items.length ++ sorted.flatMap fun p => p.1 ++ p.2
  | .oddDict _ => [0xF7]
  | .other _ => [0xF7]

def encodeList : List Value → List UInt8
  | [] => []
  | x :: xs => encode x ++ encodeList xs

def encodeItems : List (String × Value) → List (List UInt8 × List UInt8)
  | [] => []
  | (k, v) :: items => (text k, encode v) :: encodeItems items

end

/-! ## Decoding -/

/-- `n` bytes and the rest. -/
def takeBytes (n : Nat) (b : List UInt8) : Option (List UInt8 × List UInt8) :=
  if n ≤ b.length then some (b.take n, b.drop n) else none

def takeNat (w : Nat) (b : List UInt8) : Option (Nat × List UInt8) :=
  (takeBytes w b).map fun p => (BigEndian.ofBytes p.1, p.2)

/-- The head of an item: major type, argument, rest. -/
def takeHead : List UInt8 → Option (Nat × Nat × List UInt8)
  | [] => none
  | c :: b =>
    let major := c.toNat / 32
    let info := c.toNat % 32
    let wide (w : Nat) := (takeNat w b).map fun p => (major, p.1, p.2)
    if info < 24 then some (major, info, b)
    else match info with
      | 24 => wide 1
      | 25 => wide 2
      | 26 => wide 4
      | 27 => wide 8
      | _ => none

/-- A continuation byte. -/
def continuation (c : UInt8) : Option Nat :=
  if c.toNat / 64 = 2 then some (c.toNat % 64) else none

/-- Decode UTF-8; `fuel` bounds the number of characters. -/
def utf8Chars : Nat → List UInt8 → Option (List Char)
  | _, [] => some []
  | 0, _ :: _ => none
  | fuel + 1, c :: b =>
    let lead := c.toNat
    if lead < 0x80 then (utf8Chars fuel b).map (Char.ofNat lead :: ·)
    else match b with
      | c1 :: b1 =>
        if lead < 0xE0 then do
          let x ← continuation c1
          let rest ← utf8Chars fuel b1
          return Char.ofNat (lead % 32 * 64 + x) :: rest
        else match b1 with
          | c2 :: b2 =>
            if lead < 0xF0 then do
              let x ← continuation c1
              let y ← continuation c2
              let rest ← utf8Chars fuel b2
              return Char.ofNat ((lead % 16 * 64 + x) * 64 + y) :: rest
            else match b2 with
              | c3 :: b3 => do
                let x ← continuation c1
                let y ← continuation c2
                let z ← continuation c3
                let rest ← utf8Chars fuel b3
                return Char.ofNat (((lead % 8 * 64 + x) * 64 + y) * 64 + z) :: rest
              | [] => none
          | [] => none
      | [] => none

/-- A map as a dictionary; a key that is not a string makes it an odd one. -/
def toDict (pairs : List (Value × Value)) : Value :=
  let items := pairs.filterMap fun
    | (.str k, v) => some (k, v)
    | _ => none
  if items.length = pairs.length then .dict (SortedDict.ofItems items).items else .oddDict "map"

mutual

/-- Decode one item; `fuel` bounds the number of items. -/
def decodeItem : Nat → List UInt8 → Option (Value × List UInt8)
  | 0, _ => none
  | fuel + 1, b => do
    let (major, n, rest) ← takeHead b
    match major with
    | 0 => return (.int n, rest)
    | 1 => return (.int (Int.negSucc n), rest)
    | 2 => (takeBytes n rest).map fun p => (.bytes p.1, p.2)
    | 3 => do
      let (body, rest) ← takeBytes n rest
      let chars ← utf8Chars body.length body
      return (.str (String.ofList chars), rest)
    | 4 => do
      let (xs, rest) ← decodeList fuel n rest
      return (.list xs, rest)
    | 5 => do
      let (pairs, rest) ← decodePairs fuel n rest
      return (toDict pairs, rest)
    | 6 => do
      match ← decodeItem fuel rest with
      | (.bytes body, rest) =>
        match n with
        | 2 => return (.int (BigEndian.ofBytes body), rest)
        | 3 => return (.int (Int.negSucc (BigEndian.ofBytes body)), rest)
        | _ => none
      | _ => none
    | _ =>
      match n with
      | 20 => return (.bool false, rest)
      | 21 => return (.bool true, rest)
      | 22 => return (.null, rest)
      | _ => none

def decodeList : Nat → Nat → List UInt8 → Option (List Value × List UInt8)
  | 0, _, _ => none
  | _ + 1, 0, b => some ([], b)
  | fuel + 1, n + 1, b => do
    let (x, b) ← decodeItem fuel b
    let (xs, b) ← decodeList fuel n b
    return (x :: xs, b)

def decodePairs : Nat → Nat → List UInt8 → Option (List (Value × Value) × List UInt8)
  | 0, _, _ => none
  | _ + 1, 0, b => some ([], b)
  | fuel + 1, n + 1, b => do
    let (k, b) ← decodeItem fuel b
    let (v, b) ← decodeItem fuel b
    let (pairs, b) ← decodePairs fuel n b
    return ((k, v) :: pairs, b)

end

/-- Decode the item at the front of `b`. -/
def decode (b : List UInt8) : Except String (Value × List UInt8) :=
  match decodeItem (2 * b.length + 2) b with
  | some p => .ok p
  | none => .error "malformed CBOR"

end Cbor
