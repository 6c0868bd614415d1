import Mathlib.Tactic

/-!
# Big-endian integers

Fixed-width unsigned integers, most significant byte first.
-/

namespace BigEndian

/-- The low `w` bytes of `n`. -/
def toBytes : Nat → Nat → List UInt8
  | 0, _ => []
  | w + 1, n => toBytes w (n / 256) ++ [UInt8.ofNat n]

/-- The integer a byte string stands for. -/
def ofBytes (b : List UInt8) : Nat := b.foldl (fun n c => n * 256 + c.toNat) 0

@[simp] theorem toBytes_length : ∀ w n, (toBytes w n).length = w
  | 0, _ => rfl
  | w + 1, n => by simp [toBytes, toBytes_length w]

theorem ofBytes_append_singleton (b : List UInt8) (c : UInt8) :
    ofBytes (b ++ [c]) = ofBytes b * 256 + c.toNat := by
  simp [ofBytes]

/-- What fits comes back. -/
theorem ofBytes_toBytes : ∀ {w n : Nat}, n < 256 ^ w → ofBytes (toBytes w n) = n
  | 0, n, h => by
    obtain rfl : n = 0 := by simpa using h
    rfl
  | w + 1, n, h => by
    have hdiv : n / 256 < 256 ^ w := by
      rw [Nat.div_lt_iff_lt_mul (by omega), ← Nat.pow_succ]
      exact h
    have hlow : (UInt8.ofNat n).toNat = n % 256 := UInt8.toNat_ofNat'
    rw [toBytes, ofBytes_append_singleton, ofBytes_toBytes hdiv, hlow]
    omega

end BigEndian
