import Mathlib.Data.List.Basic

/-!
# Sources with short reads

An unbuffered `read(n)` returns between one and `n` elements while the source lasts, and nothing
at its end. How much each call returns is the operating system's choice: `plan` lists the cuts of
the calls to come, and a source with an empty plan returns all it is asked for.
-/

/-- What is left to read, and how the next reads are cut short. -/
structure ByteSource (α : Type) where
  rest : List α
  plan : List Nat
  deriving DecidableEq, Repr

namespace ByteSource

variable {α : Type}

/-- The source that never cuts a read short. -/
def ofList (l : List α) : ByteSource α := ⟨l, []⟩

/-- One `read(n)`. -/
def read (s : ByteSource α) (n : Nat) : List α × ByteSource α :=
  match s.plan with
  | [] => (s.rest.take n, ⟨s.rest.drop n, []⟩)
  | cut :: plan =>
    let m := min n (max 1 cut)
    (s.rest.take m, ⟨s.rest.drop m, plan⟩)

/-- A read takes a prefix of what is left, no longer than asked, empty only at the end. -/
theorem read_cases (s : ByteSource α) (n : Nat) :
    ∃ m, m ≤ n ∧ (0 < n → 0 < m) ∧ (s.read n).1 = s.rest.take m ∧
      (s.read n).2.rest = s.rest.drop m := by
  unfold read
  split
  · exact ⟨n, Nat.le_refl n, id, rfl, rfl⟩
  · next cut plan _ =>
    refine ⟨min n (max 1 cut), Nat.min_le_left _ _, ?_, rfl, rfl⟩
    intro hn
    omega

/--
The blocks that repeated reads collect for `remaining` elements. Every read that is not the last
one makes progress, so `fuel = remaining` reads are enough.
-/
def readBlocks : Nat → Nat → ByteSource α → List (List α) × ByteSource α
  | 0, _, s => ([], s)
  | _ + 1, 0, s => ([], s)
  | fuel + 1, remaining + 1, s =>
    let (block, s') := s.read (remaining + 1)
    if block.isEmpty then ([], s')
    else
      let (blocks, s'') := readBlocks fuel (remaining + 1 - block.length) s'
      (block :: blocks, s'')

/-- Read until `n` elements are there or the source ends. -/
def readUpTo (s : ByteSource α) (n : Nat) : List α × ByteSource α :=
  let (blocks, s') := readBlocks n n s
  (blocks.flatten, s')

theorem readBlocks_spec :
    ∀ (fuel remaining : Nat) (s : ByteSource α), remaining ≤ fuel →
      (readBlocks fuel remaining s).1.flatten = s.rest.take remaining ∧
        (readBlocks fuel remaining s).2.rest = s.rest.drop remaining
  | 0, remaining, s, h => by
    obtain rfl : remaining = 0 := by omega
    simp [readBlocks]
  | fuel + 1, 0, s, _ => by simp [readBlocks]
  | fuel + 1, remaining + 1, s, h => by
    obtain ⟨m, hle, hpos, hblock, hrest⟩ := s.read_cases (remaining + 1)
    have hm : 0 < m := hpos (Nat.succ_pos _)
    simp only [readBlocks]
    split
    · next hempty =>
      -- an empty block: the source has ended
      have hnil : s.rest = [] := by
        rw [hblock, List.isEmpty_iff, List.take_eq_nil_iff] at hempty
        rcases hempty with h0 | hnil
        · omega
        · exact hnil
      simp [hrest, hnil]
    · next hempty =>
      obtain ⟨hf, hr⟩ := readBlocks_spec fuel (remaining + 1 - (s.read (remaining + 1)).1.length)
        (s.read (remaining + 1)).2 (by
          rw [hblock, List.isEmpty_iff] at hempty
          have : 0 < ((s.rest.take m)).length := List.length_pos_iff.mpr hempty
          rw [hblock]
          omega)
      rw [List.flatten_cons, hf, hr, hblock, hrest, List.length_take]
      by_cases hshort : m ≤ s.rest.length
      · rw [Nat.min_eq_left hshort, ← List.take_add, List.drop_drop]
        constructor
        · congr 1
          omega
        · congr 1
          omega
      · have hlen : s.rest.length ≤ m := by omega
        rw [List.drop_eq_nil_of_le hlen, List.take_of_length_le hlen,
          List.take_of_length_le (show s.rest.length ≤ remaining + 1 by omega),
          List.drop_eq_nil_of_le (show s.rest.length ≤ remaining + 1 by omega)]
        simp

/-- **However the reads are cut, the first `n` elements come out.** -/
theorem readUpTo_fst (s : ByteSource α) (n : Nat) : (s.readUpTo n).1 = s.rest.take n :=
  (readBlocks_spec n n s (Nat.le_refl n)).1

theorem readUpTo_rest (s : ByteSource α) (n : Nat) : (s.readUpTo n).2.rest = s.rest.drop n :=
  (readBlocks_spec n n s (Nat.le_refl n)).2

end ByteSource
