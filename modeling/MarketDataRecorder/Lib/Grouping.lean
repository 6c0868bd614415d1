import MarketDataRecorder.Lib.SortedDict

/-!
# Grouping of adjacent items

A stream of items is cut into groups wherever the key changes. Of a stream in key order the groups
are the items collected into a dictionary of lists.
-/

namespace Grouping

variable {κ α : Type} [LinearOrder κ] (key : α → κ)

/-- The grouping loop: a group is closed when an item with another key comes, and at the end. -/
def adjacent : Option κ → List α → List α → List (List α)
  | _, group, [] => if group = [] then [] else [group]
  | current, group, a :: rest =>
    if current ≠ none ∧ current ≠ some (key a) then
      group :: adjacent (some (key a)) [a] rest
    else adjacent (some (key a)) (group ++ [a]) rest

/-- The items under their keys. -/
def byKey (items : List α) : SortedDict κ (List α) :=
  SortedDict.groupItems (items.map fun a => (key a, a))

variable {key}

theorem items_byKey_append (items : List α) (a : α) :
    (byKey key (items ++ [a])).items = SortedDict.insertItem (key a)
      (((byKey key items).get? (key a)).getD [] ++ [a]) (byKey key items).items := by
  rw [byKey, List.map_append, List.map_singleton, SortedDict.groupItems_append]
  rfl

theorem getD_byKey (items : List α) (k : κ) :
    ((byKey key items).get? k).getD [] = items.filter fun a => key a = k := by
  rw [byKey, SortedDict.getD_groupItems, List.filter_map, List.map_map]
  simp [Function.comp_def]

/-- The group of a key is the items with that key; there is one for the key of every item. -/
theorem get?_byKey {items : List α} {k : κ} {group : List α} :
    (byKey key items).get? k = some group ↔
      group = items.filter (fun a => key a = k) ∧ ∃ a ∈ items, key a = k := by
  have hget : ((byKey key items).get? k).getD [] = _ := getD_byKey items k
  have hsome : ((byKey key items).get? k).isSome = true ↔ ∃ a ∈ items, key a = k := by
    rw [byKey, SortedDict.isSome_get?_groupItems]
    simp
  constructor
  · intro h
    rw [h] at hget hsome
    exact ⟨hget, hsome.mp rfl⟩
  · rintro ⟨rfl, hex⟩
    obtain ⟨group, hgroup⟩ := Option.isSome_iff_exists.mp (hsome.mpr hex)
    rw [hgroup] at hget ⊢
    rw [← hget]
    rfl

/-- All groups together have the items. -/
theorem flatMap_byKey_perm (items : List α) :
    ((byKey key items).items.flatMap Prod.snd).Perm items := by
  classical
  -- the groups have the items of every key, and an item is counted among those of its key
  have hgroups : ∀ k, ((byKey key items).items.flatMap Prod.snd).filter (fun b => key b = k) =
      items.filter fun b => key b = k := by
    intro k
    have htag : ∀ k' group, (byKey key items).get? k' = some group → ∀ b ∈ group, key b = k' := by
      intro k' group hgroup b hb
      rw [(get?_byKey.mp hgroup).1, List.mem_filter] at hb
      exact of_decide_eq_true hb.2
    have hfilter := @SortedDict.filter_flatMap_items _ _ _ _ (byKey key items)
      (fun _ group => group)
      key htag k
    rw [hfilter, ← getD_byKey items k, Option.map_id']
  rw [List.perm_iff_count]
  intro a
  rw [← @List.count_filter _ _ _ (fun b => decide (key b = key a)) a _ (by simp), hgroups (key a),
    List.count_filter (by simp)]

theorem insertItem_last {β : Type} {k : κ} {v v' : β} : ∀ {l : List (κ × β)},
    (∀ p ∈ l, p.1 < k) → SortedDict.insertItem k v (l ++ [(k, v')]) = l ++ [(k, v)]
  | [], _ => by simp [SortedDict.insertItem]
  | p :: l, h => by
    have hlt : p.1 < k := h p (by simp)
    rw [List.cons_append, SortedDict.insertItem, if_neg hlt.not_gt, if_neg hlt.ne',
      insertItem_last fun q hq => h q (List.mem_cons_of_mem p hq)]
    rfl

/-- The loop in the middle of a sorted stream: the closed groups and the open one are the dictionary
of the items before. -/
theorem adjacent_of_open {closed : List (κ × List α)} {k : κ} {group : List α} {rest : List α} :
    ∀ {before : List α}, (byKey key before).items = closed ++ [(k, group)] → group ≠ [] →
      (∀ a ∈ rest, k ≤ key a) → rest.Pairwise (key · ≤ key ·) →
      closed.map Prod.snd ++ adjacent key (some k) group rest =
        (byKey key (before ++ rest)).items.map Prod.snd := by
  induction rest generalizing closed k group with
  | nil =>
    intro before hitems hgroup _ _
    simp [adjacent, hgroup, hitems]
  | cons a rest ih =>
    intro before hitems hgroup hle hsorted
    obtain ⟨hhead, htail⟩ := List.pairwise_cons.mp hsorted
    have hclosed : ∀ p ∈ closed, p.1 < k := by
      have := (byKey key before).sorted
      rw [hitems, List.pairwise_append] at this
      intro p hp
      exact this.2.2 p hp (k, group) (by simp)
    have hget : (byKey key before).get? k = some group :=
      SortedDict.get?_eq_some_iff.mpr (by simp [hitems])
    have happend : before ++ a :: rest = (before ++ [a]) ++ rest := by simp
    rw [happend, adjacent]
    by_cases hk : key a = k
    · subst hk
      have hnext : (byKey key (before ++ [a])).items = closed ++ [(key a, group ++ [a])] := by
        rw [items_byKey_append, hget, hitems]
        exact insertItem_last hclosed
      rw [if_neg (by simp)]
      exact ih hnext (by simp) hhead htail
    · have hlt : k < key a := lt_of_le_of_ne (hle a (by simp)) (Ne.symm hk)
      have hnone : (byKey key before).get? (key a) = none := by
        cases hfound : (byKey key before).get? (key a) with
        | none => rfl
        | some found =>
          have hmem := SortedDict.get?_eq_some_iff.mp hfound
          rw [hitems] at hmem
          rcases List.mem_append.mp hmem with hmem | hmem
          · exact absurd (hclosed _ hmem) hlt.not_gt
          · exact absurd (congrArg Prod.fst (List.mem_singleton.mp hmem)) hk
      have hbound : ∀ p ∈ closed ++ [(k, group)], p.1 < key a := by
        intro p hp
        rcases List.mem_append.mp hp with hp | hp
        · exact (hclosed p hp).trans hlt
        · rw [List.mem_singleton.mp hp]
          exact hlt
      have hnext : (byKey key (before ++ [a])).items =
          (closed ++ [(k, group)]) ++ [(key a, [a])] := by
        rw [items_byKey_append, hnone, hitems]
        exact SortedDict.insertItem_append hbound
      rw [if_pos ⟨by simp, fun h => hk (Option.some.inj h).symm⟩]
      have := ih hnext (by simp) hhead htail
      simpa using this

/-- Of a sorted stream the groups are the dictionary's lists. -/
theorem adjacent_eq {items : List α} (h : items.Pairwise (key · ≤ key ·)) :
    adjacent key none [] items = (byKey key items).items.map Prod.snd := by
  cases items with
  | nil => rfl
  | cons a rest =>
    obtain ⟨hhead, htail⟩ := List.pairwise_cons.mp h
    have hitems : (byKey key [a]).items = [] ++ [(key a, [a])] := rfl
    rw [adjacent, if_neg (by simp)]
    simpa using adjacent_of_open hitems (by simp) hhead htail

end Grouping
