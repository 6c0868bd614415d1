import MarketDataRecorder.Lib.Checksum

/-!
# Digests

The texts of SHA-256 digests: 64 hexadecimal digits in lower case. What `hexdigest` gives is one.
-/

namespace MarketDataRecorder

/-- A lower-case SHA-256. -/
def isDigest (text : String) : Bool :=
  text.toList.length = 64 && text.toList.all fun c => c ∈ "0123456789abcdef".toList

theorem hexDigit_mem (n : Nat) : Checksum.hexDigit n ∈ "0123456789abcdef".toList := by
  rw [Checksum.hexDigit, List.getD_eq_getElem?_getD]
  cases h : "0123456789abcdef".toList[n]? with
  | none => decide
  | some c => exact List.mem_of_getElem? h

theorem length_flatMap_hexWord (words : List Nat) :
    (words.flatMap Checksum.hexWord).length = 8 * words.length := by
  induction words with
  | nil => rfl
  | cons w words ih =>
    rw [List.flatMap_cons, List.length_append, ih, List.length_cons]
    simp only [Checksum.hexWord, List.length_map, List.length_reverse, List.length_range]
    omega

theorem isDigest_sha256Hex (b : List UInt8) : isDigest (Checksum.sha256Hex b) = true := by
  rw [isDigest, Checksum.sha256Hex]
  simp only [String.toList_ofList]
  rw [Bool.and_eq_true, decide_eq_true_eq, List.all_eq_true]
  refine ⟨by rw [length_flatMap_hexWord]; rfl, fun c hc => ?_⟩
  obtain ⟨w, -, hc⟩ := List.mem_flatMap.mp hc
  obtain ⟨i, -, rfl⟩ := List.mem_map.mp hc
  exact decide_eq_true (hexDigit_mem _)

end MarketDataRecorder
