import Mathlib.Data.List.Sort
import Mathlib.Data.Set.Card
import Mathlib.Order.Interval.Finset.Nat
import Mathlib.Order.MinMax

/-!
# Intervals

Half-open intervals of a linear order, and the union of a list of them: the intervals in ascending
order, those that touch made one.
-/

namespace Intervals

variable {α : Type} [LinearOrder α]

/-- A point lies in one of the intervals. -/
def Covered (intervals : List (α × α)) (t : α) : Prop := ∃ p ∈ intervals, p.1 ≤ t ∧ t < p.2

@[simp] theorem covered_nil (t : α) : ¬ Covered [] t := by
  rintro ⟨p, hp, -⟩
  cases hp

@[simp] theorem covered_cons (p : α × α) (intervals : List (α × α)) (t : α) :
    Covered (p :: intervals) t ↔ (p.1 ≤ t ∧ t < p.2) ∨ Covered intervals t := by
  simp only [Covered, List.mem_cons, exists_eq_or_imp]

theorem covered_reverse (intervals : List (α × α)) (t : α) :
    Covered intervals.reverse t ↔ Covered intervals t := by
  simp only [Covered, List.mem_reverse]

/-- Add an interval to merged ones, the last of which comes first. -/
def mergeInterval : List (α × α) → α × α → List (α × α)
  | [], p => if p.2 ≤ p.1 then [] else [p]
  | last :: merged, p =>
    if p.2 ≤ p.1 then last :: merged
    else if p.1 ≤ last.2 then (last.1, max p.2 last.2) :: merged
    else p :: last :: merged

/-- The order of pairs. -/
def before (p q : α × α) : Bool := decide (p.1 < q.1) || (decide (p.1 = q.1) && decide (p.2 ≤ q.2))

theorem before_iff (p q : α × α) : before p q = true ↔ p.1 < q.1 ∨ (p.1 = q.1 ∧ p.2 ≤ q.2) := by
  simp [before]

def union (intervals : List (α × α)) : List (α × α) :=
  ((intervals.mergeSort before).foldl mergeInterval []).reverse

/-- What was merged last begins before an interval. -/
def LastBefore : List (α × α) → α × α → Prop
  | [], _ => True
  | last :: _, p => last.1 ≤ p.1

theorem covered_mergeInterval {merged : List (α × α)} {p : α × α}
    (h : LastBefore merged p) (t : α) :
    Covered (mergeInterval merged p) t ↔ Covered merged t ∨ (p.1 ≤ t ∧ t < p.2) := by
  cases merged with
  | nil =>
    rw [mergeInterval]
    by_cases hempty : p.2 ≤ p.1
    · rw [if_pos hempty]
      simp only [covered_nil, false_or, false_iff, not_and, not_lt]
      exact fun hle => hempty.trans hle
    · rw [if_neg hempty]
      simp
  | cons last merged =>
    have hle : last.1 ≤ p.1 := h
    rw [mergeInterval]
    by_cases hempty : p.2 ≤ p.1
    · rw [if_pos hempty]
      have hnot : ¬ (p.1 ≤ t ∧ t < p.2) :=
        fun hin => absurd (hin.2.trans_le hempty) (not_lt.mpr hin.1)
      simp only [hnot, or_false]
    · rw [if_neg hempty]
      by_cases htouch : p.1 ≤ last.2
      · rw [if_pos htouch, covered_cons, covered_cons]
        have hjoin : (last.1 ≤ t ∧ t < max p.2 last.2) ↔
            (last.1 ≤ t ∧ t < last.2) ∨ (p.1 ≤ t ∧ t < p.2) := by
          rw [lt_max_iff]
          constructor
          · rintro ⟨hfirst, hlast | hlast⟩
            · by_cases hin : t < last.2
              · exact Or.inl ⟨hfirst, hin⟩
              · exact Or.inr ⟨htouch.trans (not_lt.mp hin), hlast⟩
            · exact Or.inl ⟨hfirst, hlast⟩
          · rintro (⟨hfirst, hlast⟩ | ⟨hfirst, hlast⟩)
            · exact ⟨hfirst, Or.inr hlast⟩
            · exact ⟨hle.trans hfirst, Or.inl hlast⟩
        rw [hjoin]
        tauto
      · rw [if_neg htouch, covered_cons]
        tauto

theorem lastBefore_mergeInterval {merged : List (α × α)} {p q : α × α} (h : LastBefore merged p)
    (hpq : p.1 ≤ q.1) : LastBefore (mergeInterval merged p) q := by
  cases merged with
  | nil =>
    rw [mergeInterval]
    split
    · trivial
    · exact hpq
  | cons last merged =>
    have hle : last.1 ≤ q.1 := le_trans h hpq
    rw [mergeInterval]
    split
    · exact hle
    split
    · exact hle
    · exact hpq

theorem covered_foldl_mergeInterval : ∀ {intervals merged : List (α × α)},
    intervals.Pairwise (fun p q => p.1 ≤ q.1) → (∀ p ∈ intervals, LastBefore merged p) → ∀ t,
    (Covered (intervals.foldl mergeInterval merged) t ↔ Covered merged t ∨ Covered intervals t)
  | [], merged, _, _, t => by simp
  | p :: intervals, merged, hsorted, hbefore, t => by
    obtain ⟨hp, hrest⟩ := List.pairwise_cons.mp hsorted
    have hhead := hbefore p (by simp)
    have hnext : ∀ q ∈ intervals, LastBefore (mergeInterval merged p) q :=
      fun q hq => lastBefore_mergeInterval hhead (hp q hq)
    rw [List.foldl_cons, covered_foldl_mergeInterval hrest hnext t, covered_mergeInterval hhead,
      covered_cons, or_assoc]

/-- The union covers what the intervals cover. -/
theorem covered_union (intervals : List (α × α)) (t : α) :
    Covered (union intervals) t ↔ Covered intervals t := by
  have hsorted : (intervals.mergeSort before).Pairwise (fun p q => p.1 ≤ q.1) := by
    refine (List.pairwise_mergeSort ?_ ?_ intervals).imp ?_
    · intro a b c hab hbc
      rw [before_iff] at hab hbc ⊢
      rcases hab with hab | ⟨hab, hab'⟩
      · rcases hbc with hbc | ⟨hbc, -⟩
        · exact Or.inl (hab.trans hbc)
        · exact Or.inl (hbc ▸ hab)
      · rcases hbc with hbc | ⟨hbc, hbc'⟩
        · exact Or.inl (hab ▸ hbc)
        · exact Or.inr ⟨hab.trans hbc, hab'.trans hbc'⟩
    · intro a b
      rw [Bool.or_eq_true, before_iff, before_iff]
      rcases lt_trichotomy a.1 b.1 with h | h | h
      · exact Or.inl (Or.inl h)
      · rcases le_total a.2 b.2 with h' | h'
        · exact Or.inl (Or.inr ⟨h, h'⟩)
        · exact Or.inr (Or.inr ⟨h.symm, h'⟩)
      · exact Or.inr (Or.inl h)
    · intro a b hab
      rcases (before_iff a b).mp hab with h | ⟨h, -⟩
      · exact h.le
      · exact h.le
  have hbefore : ∀ p ∈ intervals.mergeSort before,
      LastBefore ([] : List (α × α)) p := fun _ _ => trivial
  rw [union, covered_reverse, covered_foldl_mergeInterval hsorted hbefore]
  have hmem : Covered (intervals.mergeSort before) t ↔ Covered intervals t := by
    simp only [Covered, List.mem_mergeSort]
  rw [hmem]
  simp only [covered_nil, false_or]

/-! ## Separated intervals -/

/-- Intervals that are not empty, each before the next and apart from it. -/
structure Separated (intervals : List (α × α)) : Prop where
  nonempty : ∀ p ∈ intervals, p.1 < p.2
  apart : intervals.Pairwise fun p q => p.2 < q.1

theorem separated_nil : Separated ([] : List (α × α)) where
  nonempty := by simp
  apart := List.Pairwise.nil

theorem Separated.tail {p : α × α} {intervals : List (α × α)} (h : Separated (p :: intervals)) :
    Separated intervals where
  nonempty := fun q hq => h.nonempty q (List.mem_cons_of_mem _ hq)
  apart := (List.pairwise_cons.mp h.apart).2

/-- Merged intervals are separated, read from the last one on. -/
theorem separated_mergeInterval {merged : List (α × α)} (p : α × α)
    (h : Separated merged.reverse) : Separated (mergeInterval merged p).reverse := by
  cases merged with
  | nil =>
    rw [mergeInterval]
    split
    · exact separated_nil
    · next hproper => exact ⟨by simpa using hproper, by simp⟩
  | cons last merged =>
    have hnonempty := h.nonempty
    have hapart := List.pairwise_cons.mp (List.pairwise_reverse.mp h.apart)
    simp only [List.mem_reverse, List.mem_cons, forall_eq_or_imp] at hnonempty
    rw [mergeInterval]
    split
    · exact h
    next hproper =>
    have hp : p.1 < p.2 := not_le.mp hproper
    split
    · -- the interval touches the last one, which grows at its end only
      refine ⟨?_, List.pairwise_reverse.mpr (List.pairwise_cons.mpr ⟨hapart.1, hapart.2⟩)⟩
      simp only [List.mem_reverse, List.mem_cons, forall_eq_or_imp]
      exact ⟨hnonempty.1.trans_le (le_max_right _ _), hnonempty.2⟩
    · next htouch =>
      have hafter : last.2 < p.1 := not_le.mp htouch
      refine ⟨?_, List.pairwise_reverse.mpr (List.pairwise_cons.mpr ⟨?_, ?_⟩)⟩
      · simp only [List.mem_reverse, List.mem_cons, forall_eq_or_imp]
        exact ⟨hp, hnonempty⟩
      · intro q hq
        rcases List.mem_cons.mp hq with rfl | hq
        · exact hafter
        · exact (hapart.1 q hq).trans (hnonempty.1.trans hafter)
      · exact List.pairwise_cons.mpr hapart

theorem separated_foldl_mergeInterval : ∀ (intervals : List (α × α)) {merged : List (α × α)},
    Separated merged.reverse → Separated (intervals.foldl mergeInterval merged).reverse
  | [], _, h => h
  | p :: intervals, _, h =>
    separated_foldl_mergeInterval intervals (separated_mergeInterval p h)

/-- The union is separated. -/
theorem separated_union (intervals : List (α × α)) : Separated (union intervals) :=
  separated_foldl_mergeInterval _ separated_nil

/-! ## Lengths -/

/-- The summed length of intervals of naturals. -/
def length (intervals : List (ℕ × ℕ)) : ℕ := (intervals.map fun p => p.2 - p.1).sum

theorem finite_covered : ∀ intervals : List (ℕ × ℕ), {t | Covered intervals t}.Finite
  | [] => by simp
  | p :: intervals => by
    have hsplit : {t | Covered (p :: intervals) t} = Set.Ico p.1 p.2 ∪
      {t | Covered intervals t} := by
      ext t
      simp
    rw [hsplit]
    exact (Set.finite_Ico p.1 p.2).union (finite_covered intervals)

/-- **The length of separated intervals is the number of points they cover.** -/
theorem length_eq_ncard : ∀ {intervals : List (ℕ × ℕ)}, Separated intervals →
    length intervals = {t | Covered intervals t}.ncard
  | [], _ => by simp [length]
  | p :: intervals, h => by
    have hsplit : {t | Covered (p :: intervals) t} = Set.Ico p.1 p.2 ∪
      {t | Covered intervals t} := by
      ext t
      simp
    have hdisjoint : Disjoint (Set.Ico p.1 p.2) {t | Covered intervals t} := by
      rw [Set.disjoint_left]
      rintro t ⟨-, hlt⟩ ⟨q, hq, hle, -⟩
      have hapart := (List.pairwise_cons.mp h.apart).1 q hq
      omega
    have hfirst : (Set.Ico p.1 p.2).ncard = p.2 - p.1 := by
      rw [← Finset.coe_Ico, Set.ncard_coe_finset, Nat.card_Ico]
    have hrest := length_eq_ncard h.tail
    rw [hsplit, Set.ncard_union_eq hdisjoint (Set.finite_Ico _ _) (finite_covered _),
      hfirst, ← hrest,
      length, List.map_cons, List.sum_cons]
    rfl

/-- Intervals that cover fewer points are shorter. -/
theorem length_le_length {a b : List (ℕ × ℕ)} (ha : Separated a) (hb : Separated b)
    (h : ∀ t, Covered a t → Covered b t) : length a ≤ length b := by
  rw [length_eq_ncard ha, length_eq_ncard hb]
  exact Set.ncard_le_ncard h (finite_covered b)

end Intervals
