import Mathlib.Init

/-!
# CRC-32C and SHA-256

The two checksums as their standards compute them, on natural numbers below `2 ^ 32`.
-/

namespace Checksum

/-! ## CRC-32C -/

/-- One bit of the reflected division by the Castagnoli polynomial. -/
def crcBit (crc : Nat) : Nat :=
  if crc % 2 = 1 then (crc / 2) ^^^ 0x82F63B78 else crc / 2

def crcByte (crc : Nat) (b : UInt8) : Nat :=
  crcBit (crcBit (crcBit (crcBit (crcBit (crcBit (crcBit (crcBit (crc ^^^ b.toNat))))))))

/-- The register after some bytes. The case split makes evaluation reduce it at each byte. -/
def crcBytes : List UInt8 → Nat → Nat
  | [], crc => crc
  | b :: rest, crc =>
    match crcByte crc b with
    | 0 => crcBytes rest 0
    | n + 1 => crcBytes rest (n + 1)

/-- The CRC-32C of a byte string. -/
def crc32c (b : List UInt8) : Nat := crcBytes b 0xFFFFFFFF ^^^ 0xFFFFFFFF

/-- The check value of the standard: the nine digits `1` to `9`. -/
example : crc32c [0x31, 0x32, 0x33, 0x34, 0x35, 0x36, 0x37, 0x38, 0x39] = 0xE3069283 := by
  decide

/-! ## SHA-256 -/

def word (n : Nat) : Nat := n % 0x100000000

def rotr (x n : Nat) : Nat := word ((x >>> n) ||| (x <<< (32 - n)))

/-- The round constants. -/
def roundConstants : List Nat :=
  [0x428a2f98, 0x71374491, 0xb5c0fbcf, 0xe9b5dba5, 0x3956c25b, 0x59f111f1, 0x923f82a4, 0xab1c5ed5,
   0xd807aa98, 0x12835b01, 0x243185be, 0x550c7dc3, 0x72be5d74, 0x80deb1fe, 0x9bdc06a7, 0xc19bf174,
   0xe49b69c1, 0xefbe4786, 0x0fc19dc6, 0x240ca1cc, 0x2de92c6f, 0x4a7484aa, 0x5cb0a9dc, 0x76f988da,
   0x983e5152, 0xa831c66d, 0xb00327c8, 0xbf597fc7, 0xc6e00bf3, 0xd5a79147, 0x06ca6351, 0x14292967,
   0x27b70a85, 0x2e1b2138, 0x4d2c6dfc, 0x53380d13, 0x650a7354, 0x766a0abb, 0x81c2c92e, 0x92722c85,
   0xa2bfe8a1, 0xa81a664b, 0xc24b8b70, 0xc76c51a3, 0xd192e819, 0xd6990624, 0xf40e3585, 0x106aa070,
   0x19a4c116, 0x1e376c08, 0x2748774c, 0x34b0bcb5, 0x391c0cb3, 0x4ed8aa4a, 0x5b9cca4f, 0x682e6ff3,
   0x748f82ee, 0x78a5636f, 0x84c87814, 0x8cc70208, 0x90befffa, 0xa4506ceb, 0xbef9a3f7, 0xc67178f2]

/-- The eight working words. -/
structure Words where
  a : Nat
  b : Nat
  c : Nat
  d : Nat
  e : Nat
  f : Nat
  g : Nat
  h : Nat

def initialWords : Words :=
  ⟨0x6a09e667, 0xbb67ae85, 0x3c6ef372, 0xa54ff53a, 0x510e527f, 0x9b05688c, 0x1f83d9ab, 0x5be0cd19⟩

def compress (s : Words) (k w : Nat) : Words :=
  let s1 := rotr s.e 6 ^^^ rotr s.e 11 ^^^ rotr s.e 25
  let ch := (s.e &&& s.f) ^^^ ((0xFFFFFFFF ^^^ s.e) &&& s.g)
  let t1 := word (s.h + s1 + ch + k + w)
  let s0 := rotr s.a 2 ^^^ rotr s.a 13 ^^^ rotr s.a 22
  let maj := (s.a &&& s.b) ^^^ (s.a &&& s.c) ^^^ (s.b &&& s.c)
  ⟨word (t1 + s0 + maj), s.a, s.b, s.c, word (s.d + t1), s.e, s.f, s.g⟩

/-- The next word of the message schedule; `recent` holds the last sixteen, newest first. -/
def scheduleWord (recent : List Nat) : Nat :=
  let w2 := recent.getD 1 0
  let w7 := recent.getD 6 0
  let w15 := recent.getD 14 0
  let w16 := recent.getD 15 0
  word (w16 + (rotr w15 7 ^^^ rotr w15 18 ^^^ (w15 >>> 3)) + w7 +
    (rotr w2 17 ^^^ rotr w2 19 ^^^ (w2 >>> 10)))

def extendSchedule : Nat → List Nat → List Nat
  | 0, recent => recent
  | n + 1, recent => extendSchedule n (scheduleWord recent :: recent)

def addWords (s t : Words) : Words :=
  ⟨word (s.a + t.a), word (s.b + t.b), word (s.c + t.c), word (s.d + t.d),
   word (s.e + t.e), word (s.f + t.f), word (s.g + t.g), word (s.h + t.h)⟩

/-- One block of sixteen words. -/
def sha256Block (s : Words) (block : List Nat) : Words :=
  let schedule := (extendSchedule 48 block.reverse).reverse
  addWords s ((roundConstants.zip schedule).foldl (fun t kw => compress t kw.1 kw.2) s)

/-- Group bytes into big-endian words of four. -/
def toWords : List UInt8 → List Nat
  | a :: b :: c :: d :: rest =>
    (((a.toNat * 256 + b.toNat) * 256 + c.toNat) * 256 + d.toNat) :: toWords rest
  | _ => []

/-- The message followed by `1`, zeros and its length in bits. -/
def pad (b : List UInt8) : List UInt8 :=
  let zeros := (119 - b.length % 64) % 64
  let bits := b.length * 8
  let trailer := (List.range 8).reverse.map fun i => UInt8.ofNat (bits >>> (8 * i))
  b ++ [0x80] ++ List.replicate zeros 0 ++ trailer

def sha256Blocks : Nat → List Nat → Words → Words
  | 0, _, s => s
  | n + 1, ws, s => sha256Blocks n (ws.drop 16) (sha256Block s (ws.take 16))

def hexDigit (n : Nat) : Char := "0123456789abcdef".toList.getD n '0'

def hexWord (w : Nat) : List Char :=
  (List.range 8).reverse.map fun i => hexDigit (w >>> (4 * i) % 16)

/-- The SHA-256 of a byte string in lower-case hexadecimal. -/
def sha256Hex (b : List UInt8) : String :=
  let ws := toWords (pad b)
  let s := sha256Blocks (ws.length / 16) ws initialWords
  String.ofList ([s.a, s.b, s.c, s.d, s.e, s.f, s.g, s.h].flatMap hexWord)

end Checksum
