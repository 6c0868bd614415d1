import Mathlib.Tactic

/-!
# Dictionaries as sorted item lists

A finite map stored as its items in strictly ascending key order. The order is a field of the
structure, so two dictionaries with the same items are equal as values: the equality of a
scripting language's `dict`, which does not see the order of insertion.
-/

/-- A finite map, its items in strictly ascending key order. -/
structure SortedDict (κ β : Type) [LinearOrder κ] where
  items : List (κ × β)
  sorted : items.Pairwise (fun a b => a.1 < b.1)

namespace SortedDict

variable {κ β γ : Type} [LinearOrder κ]

@[ext] theorem ext {d e : SortedDict κ β} (h : d.items = e.items) : d = e := by
  cases d
  cases e
  simp only [SortedDict.mk.injEq]
  exact h

instance [DecidableEq β] : DecidableEq (SortedDict κ β) := fun d e =>
  decidable_of_iff (d.items = e.items) ⟨SortedDict.ext, fun h => h ▸ rfl⟩

def empty : SortedDict κ β := ⟨[], List.Pairwise.nil⟩

instance : Inhabited (SortedDict κ β) := ⟨empty⟩

@[simp] theorem empty_items : (empty : SortedDict κ β).items = [] := rfl

/-! ## Lookup and insertion -/

/-- The value stored under a key in an item list. -/
def find (k : κ) : List (κ × β) → Option β
  | [] => none
  | (k', v) :: rest => if k = k' then some v else find k rest

def get? (d : SortedDict κ β) (k : κ) : Option β := find k d.items

/-- Set `k` to `v` in an ascending item list. -/
def insertItem (k : κ) (v : β) : List (κ × β) → List (κ × β)
  | [] => [(k, v)]
  | (k', v') :: rest =>
    if k < k' then (k, v) :: (k', v') :: rest
    else if k = k' then (k, v) :: rest
    else (k', v') :: insertItem k v rest

theorem mem_insertItem {k : κ} {v : β} {p : κ × β} :
    ∀ {l : List (κ × β)}, p ∈ insertItem k v l → p = (k, v) ∨ p ∈ l
  | [], h => by
    simp only [insertItem, List.mem_singleton] at h
    exact Or.inl h
  | (k', v') :: rest, h => by
    simp only [insertItem] at h
    split at h
    · rcases List.mem_cons.mp h with rfl | h
      · exact Or.inl rfl
      · exact Or.inr h
    · split at h
      · rcases List.mem_cons.mp h with rfl | h
        · exact Or.inl rfl
        · exact Or.inr (List.mem_cons_of_mem _ h)
      · rcases List.mem_cons.mp h with rfl | h
        · exact Or.inr List.mem_cons_self
        · rcases mem_insertItem h with h | h
          · exact Or.inl h
          · exact Or.inr (List.mem_cons_of_mem _ h)

theorem pairwise_insertItem {k : κ} {v : β} :
    ∀ {l : List (κ × β)}, l.Pairwise (fun a b => a.1 < b.1) →
      (insertItem k v l).Pairwise (fun a b => a.1 < b.1)
  | [], _ => List.pairwise_singleton _ _
  | (k', v') :: rest, h => by
    obtain ⟨hhead, htail⟩ := List.pairwise_cons.mp h
    simp only [insertItem]
    split
    · next hlt =>
      refine List.pairwise_cons.mpr ⟨?_, h⟩
      intro p hp
      rcases List.mem_cons.mp hp with rfl | hp
      · exact hlt
      · exact lt_trans hlt (hhead p hp)
    · next hlt =>
      split
      · next heq =>
        subst heq
        exact List.pairwise_cons.mpr ⟨hhead, htail⟩
      · next hne =>
        refine List.pairwise_cons.mpr ⟨?_, pairwise_insertItem htail⟩
        intro p hp
        rcases mem_insertItem hp with rfl | hp
        · exact lt_of_le_of_ne (not_lt.mp hlt) (Ne.symm hne)
        · exact hhead p hp

def insert (d : SortedDict κ β) (k : κ) (v : β) : SortedDict κ β :=
  ⟨insertItem k v d.items, pairwise_insertItem d.sorted⟩

/-- Insertion past the last key appends. -/
theorem insertItem_append {k : κ} {v : β} :
    ∀ {l : List (κ × β)}, (∀ p ∈ l, p.1 < k) → insertItem k v l = l ++ [(k, v)]
  | [], _ => rfl
  | (k', v') :: rest, h => by
    have hk : k' < k := h (k', v') List.mem_cons_self
    simp only [insertItem, if_neg (not_lt_of_gt hk), if_neg (ne_of_gt hk), List.cons_append]
    rw [insertItem_append fun p hp => h p (List.mem_cons_of_mem _ hp)]

/-- Collect items one by one, a later item overriding an earlier one of the same key. -/
def ofItems (l : List (κ × β)) : SortedDict κ β :=
  l.foldl (fun d p => d.insert p.1 p.2) empty

theorem foldl_insert_items :
    ∀ (l : List (κ × β)) (d : SortedDict κ β),
      (d.items ++ l).Pairwise (fun a b => a.1 < b.1) →
        (l.foldl (fun d p => d.insert p.1 p.2) d).items = d.items ++ l
  | [], d, _ => by simp
  | p :: rest, d, h => by
    have hins : (d.insert p.1 p.2).items = d.items ++ [p] := by
      refine insertItem_append fun q hq => ?_
      exact (List.pairwise_append.mp h).2.2 q hq p List.mem_cons_self
    rw [List.foldl_cons, foldl_insert_items rest (d.insert p.1 p.2), hins, List.append_assoc]
    · rfl
    · rw [hins, List.append_assoc]
      exact h

/-- Collecting the items of a dictionary gives it back. -/
theorem ofItems_items (d : SortedDict κ β) : ofItems d.items = d := by
  apply SortedDict.ext
  exact foldl_insert_items d.items empty (by simpa using d.sorted)

/-! ## Lookups after an insertion -/

theorem find_insertItem (k k' : κ) (v : β) :
    ∀ l : List (κ × β),
      find k' (insertItem k v l) = if k' = k then some v else find k' l
  | [] => rfl
  | (j, w) :: rest => by
    simp only [insertItem]
    split
    · rfl
    · split
      · next heq =>
        subst heq
        simp only [find]
        split <;> rfl
      · next hne =>
        simp only [find, find_insertItem k k' v rest]
        by_cases hj : k' = j
        · rw [if_pos hj, if_pos hj, if_neg]
          exact fun hk => hne (hk.symm.trans hj)
        · rw [if_neg hj, if_neg hj]

@[simp] theorem get?_insert (d : SortedDict κ β) (k k' : κ) (v : β) :
    (d.insert k v).get? k' = if k' = k then some v else d.get? k' :=
  find_insertItem k k' v d.items

@[simp] theorem get?_empty (k : κ) : (empty : SortedDict κ β).get? k = none := rfl

/-! ## Removal -/

def erase (d : SortedDict κ β) (k : κ) : SortedDict κ β :=
  ⟨d.items.filter fun p => p.1 ≠ k, d.sorted.filter _⟩

theorem find_filter_ne (k k' : κ) :
    ∀ l : List (κ × β),
      find k' (l.filter fun p => p.1 ≠ k) = if k' = k then none else find k' l
  | [] => by simp [find]
  | (j, w) :: rest => by
    by_cases hj : j = k
    · subst hj
      rw [List.filter_cons_of_neg (by simp), find_filter_ne j k' rest, find]
      split <;> rfl
    · rw [List.filter_cons_of_pos (by simpa using hj), find, find_filter_ne k k' rest, find]
      by_cases hk : k' = j
      · rw [if_pos hk, if_pos hk, if_neg (fun h => hj (hk.symm.trans h))]
      · rw [if_neg hk, if_neg hk]

@[simp] theorem get?_erase (d : SortedDict κ β) (k k' : κ) :
    (d.erase k).get? k' = if k' = k then none else d.get? k' :=
  find_filter_ne k k' d.items

/-! ## Items and lookups -/

theorem find_eq_some_iff {k : κ} {v : β} :
    ∀ {l : List (κ × β)}, l.Pairwise (fun a b => a.1 < b.1) → (find k l = some v ↔ (k, v) ∈ l)
  | [], _ => by simp [find]
  | (j, w) :: rest, h => by
    obtain ⟨hhead, htail⟩ := List.pairwise_cons.mp h
    rw [find, List.mem_cons, ← find_eq_some_iff htail]
    by_cases hk : k = j
    · subst hk
      have hnot : find k rest ≠ some v := by
        intro hv
        exact lt_irrefl k (hhead _ ((find_eq_some_iff htail).mp hv))
      simp only [if_pos, Option.some.injEq, Prod.mk.injEq, true_and, hnot, or_false]
      exact eq_comm
    · rw [if_neg hk]
      simp [hk]

/-- A lookup finds the items of the dictionary. -/
theorem get?_eq_some_iff {d : SortedDict κ β} {k : κ} {v : β} :
    d.get? k = some v ↔ (k, v) ∈ d.items := find_eq_some_iff d.sorted

/-- Dictionaries with the same lookups are equal. -/
theorem ext_get? {d e : SortedDict κ β} (h : ∀ k, d.get? k = e.get? k) : d = e := by
  have hmem : ∀ p, p ∈ d.items ↔ p ∈ e.items := by
    rintro ⟨k, v⟩
    rw [← get?_eq_some_iff, ← get?_eq_some_iff, h]
  have hnodup : ∀ f : SortedDict κ β, f.items.Nodup := fun f =>
    f.sorted.imp fun hlt heq => (ne_of_lt hlt) (congrArg Prod.fst heq)
  have hperm : d.items.Perm e.items := (List.perm_ext_iff_of_nodup (hnodup d) (hnodup e)).mpr hmem
  exact ext (hperm.eq_of_pairwise (fun _ _ _ _ hlt hgt => absurd hlt (lt_asymm hgt)) d.sorted
    e.sorted)

def keys (d : SortedDict κ β) : List κ := d.items.map Prod.fst

theorem mem_keys {d : SortedDict κ β} {k : κ} : k ∈ d.keys ↔ ∃ v, d.get? k = some v := by
  simp only [keys, List.mem_map, Prod.exists, exists_and_right, exists_eq_right,
    get?_eq_some_iff]

theorem nodup_keys (d : SortedDict κ β) : d.keys.Nodup := by
  rw [keys, List.Nodup, List.pairwise_map]
  exact d.sorted.imp fun h => ne_of_lt h

/-! ## Collected items -/

theorem ofItems_append (l : List (κ × β)) (p : κ × β) :
    ofItems (l ++ [p]) = (ofItems l).insert p.1 p.2 := by
  rw [ofItems, List.foldl_append]
  rfl

/-- Of the items with one key the last one stays. -/
theorem get?_ofItems (l : List (κ × β)) (k : κ) :
    (ofItems l).get? k = ((l.filter fun p => p.1 = k).getLast?).map Prod.snd := by
  induction l using List.reverseRecOn with
  | nil => rfl
  | append_singleton l p ih =>
    rw [ofItems_append, get?_insert, List.filter_append]
    by_cases hk : k = p.1
    · simp [hk]
    · rw [if_neg hk, ih, List.filter_singleton]
      simp [Ne.symm hk]

/-- Where no two items share a key, the items are what is looked up. -/
theorem get?_ofItems_eq_some {l : List (κ × β)} (hunique : ∀ p ∈ l, ∀ q ∈ l, p.1 = q.1 → p = q)
    {k : κ} {v : β} : (ofItems l).get? k = some v ↔ (k, v) ∈ l := by
  rw [get?_ofItems, Option.map_eq_some_iff]
  constructor
  · rintro ⟨p, hp, rfl⟩
    obtain ⟨hmem, hk⟩ := List.mem_filter.mp (List.mem_of_getLast? hp)
    rw [← of_decide_eq_true hk]
    exact hmem
  · intro h
    have hne : (l.filter fun p => p.1 = k) ≠ [] :=
      List.ne_nil_of_mem (List.mem_filter.mpr ⟨h, decide_eq_true rfl⟩)
    obtain ⟨hmem, hk⟩ := List.mem_filter.mp (List.getLast_mem hne)
    refine ⟨_, List.getLast?_eq_some_getLast hne, ?_⟩
    rw [hunique _ hmem _ h (of_decide_eq_true hk)]

/-- The items of a key: at most one. -/
theorem filter_items (d : SortedDict κ β) (k : κ) :
    d.items.filter (fun p => p.1 = k) = ((d.get? k).map fun v => (k, v)).toList := by
  have hfind : ∀ l : List (κ × β), l.Pairwise (fun a b => a.1 < b.1) →
      l.filter (fun p => p.1 = k) = ((find k l).map fun v => (k, v)).toList := by
    intro l
    induction l with
    | nil => exact fun _ => rfl
    | cons p l ih =>
      obtain ⟨j, w⟩ := p
      intro h
      obtain ⟨hhead, htail⟩ := List.pairwise_cons.mp h
      by_cases hk : k = j
      · subst hk
        have hnil : l.filter (fun p => p.1 = k) = [] :=
          List.filter_eq_nil_iff.mpr fun p hp => by simpa using (hhead p hp).ne'
        rw [List.filter_cons_of_pos (by simp), hnil, find, if_pos rfl]
        rfl
      · rw [List.filter_cons_of_neg (by simpa using Ne.symm hk), ih htail, find, if_neg hk]
  exact hfind d.items d.sorted

/-- Of what the items bring, the part of one key is what its item brings. -/
theorem filter_flatMap_items (d : SortedDict κ β) {f : κ → β → List γ} {tag : γ → κ}
    (htag : ∀ k v, d.get? k = some v → ∀ c ∈ f k v, tag c = k) (k : κ) :
    (d.items.flatMap fun p => f p.1 p.2).filter (fun c => tag c = k) =
      ((d.get? k).map (f k)).getD [] := by
  have hsplit : ∀ l : List (κ × β), (∀ p ∈ l, ∀ c ∈ f p.1 p.2, tag c = p.1) →
      (l.flatMap fun p => f p.1 p.2).filter (fun c => tag c = k) =
        (l.filter fun p => p.1 = k).flatMap fun p => f p.1 p.2 := by
    intro l
    induction l with
    | nil => exact fun _ => rfl
    | cons p l ih =>
      intro h
      rw [List.forall_mem_cons] at h
      obtain ⟨hhead, hrest⟩ := h
      rw [List.flatMap_cons, List.filter_append, ih hrest]
      by_cases hk : p.1 = k
      · have hall : (f p.1 p.2).filter (fun c => tag c = k) = f p.1 p.2 :=
          List.filter_eq_self.mpr fun c hc => decide_eq_true ((hhead c hc).trans hk)
        rw [hall, List.filter_cons_of_pos (by simpa using hk), List.flatMap_cons]
      · have hnone : (f p.1 p.2).filter (fun c => tag c = k) = [] :=
          List.filter_eq_nil_iff.mpr fun c hc => by simpa [hhead c hc] using hk
        rw [hnone, List.filter_cons_of_neg (by simpa using hk), List.nil_append]
  rw [hsplit d.items fun p hp => htag p.1 p.2 (get?_eq_some_iff.mpr hp), filter_items]
  cases d.get? k with
  | none => rfl
  | some v => simp
/-- Items collected into lists: `d.setdefault(key, []).append(item)` for item by item. -/
def groupItems (items : List (κ × β)) : SortedDict κ (List β) :=
  items.foldl (fun d p => d.insert p.1 ((d.get? p.1).getD [] ++ [p.2])) empty

theorem groupItems_append (items : List (κ × β)) (p : κ × β) :
    groupItems (items ++ [p]) =
      (groupItems items).insert p.1 (((groupItems items).get? p.1).getD [] ++ [p.2]) := by
  rw [groupItems, List.foldl_append]
  rfl

/-- A group has the items with its key, in their order. -/
theorem getD_groupItems (items : List (κ × β)) (k : κ) :
    ((groupItems items).get? k).getD [] = (items.filter fun p => p.1 = k).map Prod.snd := by
  induction items using List.reverseRecOn with
  | nil => rfl
  | append_singleton items p ih =>
    rw [groupItems_append, get?_insert, List.filter_append]
    by_cases hk : k = p.1
    · subst hk
      simp [ih]
    · rw [if_neg hk, ih, List.filter_singleton]
      simp [Ne.symm hk]

theorem isSome_get?_groupItems (items : List (κ × β)) (k : κ) :
    ((groupItems items).get? k).isSome = true ↔ ∃ p ∈ items, p.1 = k := by
  induction items using List.reverseRecOn with
  | nil => simp [groupItems]
  | append_singleton items p ih =>
    rw [groupItems_append, get?_insert]
    by_cases hk : k = p.1
    · subst hk
      simp
    · rw [if_neg hk, ih]
      simp [Ne.symm hk]

/-! ## Values -/

/-- Change every value, under its key. -/
def mapValues (f : κ → β → γ) (d : SortedDict κ β) : SortedDict κ γ :=
  ⟨d.items.map fun p => (p.1, f p.1 p.2), List.pairwise_map.mpr d.sorted⟩

theorem find_map (f : κ → β → γ) (k : κ) :
    ∀ l : List (κ × β), find k (l.map fun p => (p.1, f p.1 p.2)) = (find k l).map (f k)
  | [] => rfl
  | (j, w) :: rest => by
    simp only [List.map_cons, find]
    split
    · next hk => rw [hk, Option.map_some]
    · exact find_map f k rest

@[simp] theorem get?_mapValues (f : κ → β → γ) (d : SortedDict κ β) (k : κ) :
    (d.mapValues f).get? k = (d.get? k).map (f k) := find_map f k d.items

end SortedDict
