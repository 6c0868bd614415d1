import MarketDataRecorder.Lib.SortedDict

/-!
# Folds by key

A pass over items that keeps a state for each key: an item reads and writes the state under its own
key and appends to one output. Such a pass is many passes at once. What it leaves under a key, and
what it puts out for that key, is what a pass over the items of the key alone leaves and puts out.

* `getD_run` — the state under a key after a pass
* `filter_run` — the output of a key
* `mem_run` — where an output comes from
-/

namespace KeyedFold

/-- A pass: the key of an item, `none` where it is skipped, and what the item does under its key. -/
structure Pass (κ α σ β : Type) where
  key : α → Option κ
  init : σ
  next : σ → α → σ
  out : σ → α → List β

variable {κ α σ β : Type}

namespace Pass

variable (p : Pass κ α σ β)

/-- The state after the items of one key. -/
def final (state : σ) (items : List α) : σ := items.foldl p.next state

/-- The output of the items of one key. -/
def outs (state : σ) : List α → List β
  | [] => []
  | a :: items => p.out state a ++ outs (p.next state a) items

variable {p}

/-! ## One key alone -/

@[simp] theorem final_nil (state : σ) : p.final state [] = state := rfl

theorem final_cons (state : σ) (a : α) (items : List α) :
    p.final state (a :: items) = p.final (p.next state a) items := rfl

theorem final_append (state : σ) (items items' : List α) :
    p.final state (items ++ items') = p.final (p.final state items) items' := List.foldl_append

theorem outs_append (state : σ) : ∀ items items' : List α,
    p.outs state (items ++ items') =
      p.outs state items ++ p.outs (p.final state items) items'
  | [], items' => rfl
  | a :: items, items' => by
    rw [List.cons_append, outs, outs_append _ items items', outs, final_cons, List.append_assoc]

/-! ## The pass -/

section

variable [LinearOrder κ] (p)

/-- One item. -/
def step (s : SortedDict κ σ × List β) (a : α) : SortedDict κ σ × List β :=
  match p.key a with
  | none => s
  | some k =>
    let state := (s.1.get? k).getD p.init
    (s.1.insert k (p.next state a), s.2 ++ p.out state a)

/-- A pass over items, from what an earlier one left. -/
def run (s : SortedDict κ σ × List β) (items : List α) : SortedDict κ σ × List β :=
  items.foldl p.step s

/-- The items of a key. -/
def under (k : κ) (items : List α) : List α := items.filter fun a => p.key a = some k

variable {p}

@[simp] theorem run_nil (s : SortedDict κ σ × List β) : p.run s [] = s := rfl

theorem run_cons (s : SortedDict κ σ × List β) (a : α) (items : List α) :
    p.run s (a :: items) = p.run (p.step s a) items := rfl

theorem under_cons_self {k : κ} {a : α} (h : p.key a = some k) (items : List α) :
    p.under k (a :: items) = a :: p.under k items := List.filter_cons_of_pos (by simp [h])

theorem under_cons_ne {k : κ} {a : α} (h : p.key a ≠ some k) (items : List α) :
    p.under k (a :: items) = p.under k items := List.filter_cons_of_neg (by simp [h])

/-! ## A pass and its keys -/

theorem step_of_key {s : SortedDict κ σ × List β} {a : α} {k : κ} (h : p.key a = some k) :
    p.step s a = (s.1.insert k (p.next ((s.1.get? k).getD p.init) a),
      s.2 ++ p.out ((s.1.get? k).getD p.init) a) := by
  rw [step, h]

/-- The state under a key is that of a pass over the items of the key. -/
theorem getD_run (k : κ) : ∀ (s : SortedDict κ σ × List β) (items : List α),
    ((p.run s items).1.get? k).getD p.init =
      p.final ((s.1.get? k).getD p.init) (p.under k items)
  | s, [] => rfl
  | s, a :: items => by
    rw [run_cons, getD_run k _ items]
    cases ha : p.key a with
    | none => rw [under_cons_ne (by simp [ha]), step, ha]
    | some k' =>
      rw [step_of_key ha]
      by_cases hk : k' = k
      · subst hk
        rw [under_cons_self ha, final_cons, SortedDict.get?_insert, if_pos rfl, Option.getD_some]
      · rw [under_cons_ne (by simpa [ha] using hk), SortedDict.get?_insert,
          if_neg (fun h => hk h.symm)]

/-- The keys after a pass are those before it and those of the items. -/
theorem isSome_get?_run (k : κ) : ∀ (s : SortedDict κ σ × List β) (items : List α),
    ((p.run s items).1.get? k).isSome = true ↔
      (s.1.get? k).isSome = true ∨ ∃ a ∈ items, p.key a = some k
  | s, [] => by simp
  | s, a :: items => by
    rw [run_cons, isSome_get?_run k _ items, List.exists_mem_cons_iff, ← or_assoc]
    refine or_congr_left ?_
    cases ha : p.key a with
    | none => simp [step, ha]
    | some k' =>
      rw [step_of_key ha, SortedDict.get?_insert]
      by_cases hk : k = k'
      · simp [hk]
      · rw [if_neg hk]
        simp [show ¬ k' = k from fun h => hk h.symm]

/-- The output of a key is the output of its items, where an output tells the key of its item. -/
theorem filter_run {tag : β → κ} (htag : ∀ state a, ∀ b ∈ p.out state a, p.key a = some (tag b))
    (k : κ) : ∀ (s : SortedDict κ σ × List β) (items : List α),
    (p.run s items).2.filter (fun b => tag b = k) =
      s.2.filter (fun b => tag b = k) ++ p.outs ((s.1.get? k).getD p.init) (p.under k items)
  | s, [] => by simp [under, outs]
  | s, a :: items => by
    rw [run_cons, filter_run htag k _ items]
    cases ha : p.key a with
    | none => rw [under_cons_ne (by simp [ha]), step, ha]
    | some k' =>
      rw [step_of_key ha]
      have hout : ∀ b ∈ p.out ((s.1.get? k').getD p.init) a, tag b = k' := fun b hb =>
        (Option.some.inj (ha.symm.trans (htag _ _ b hb))).symm
      by_cases hk : k' = k
      · subst hk
        have hall : (p.out ((s.1.get? k').getD p.init) a).filter (fun b => tag b = k') =
            p.out ((s.1.get? k').getD p.init) a := List.filter_eq_self.mpr (by simpa using hout)
        rw [under_cons_self ha, outs, SortedDict.get?_insert, if_pos rfl, Option.getD_some,
          List.filter_append, List.append_assoc, hall]
      · have hnone : (p.out ((s.1.get? k').getD p.init) a).filter (fun b => tag b = k) = [] := by
          refine List.filter_eq_nil_iff.mpr fun b hb => ?_
          rw [decide_eq_true_eq, hout b hb]
          exact hk
        rw [under_cons_ne (by simpa [ha] using hk), SortedDict.get?_insert,
          if_neg (fun h => hk h.symm), List.filter_append, hnone, List.append_nil]

/-- What a pass puts out is of an item and of the state that the items of its key before it left. -/
theorem mem_run {b : β} : ∀ {s : SortedDict κ σ × List β} {items : List α},
    b ∈ (p.run s items).2 ↔ b ∈ s.2 ∨
      ∃ before a after k, items = before ++ a :: after ∧ p.key a = some k ∧
        b ∈ p.out (p.final ((s.1.get? k).getD p.init) (p.under k before)) a
  | s, [] => by simp
  | s, a :: items => by
    rw [run_cons, mem_run]
    constructor
    · rintro (h | ⟨before, a', after, k, rfl, hkey, h⟩)
      · cases ha : p.key a with
        | none =>
          rw [step, ha] at h
          exact Or.inl h
        | some k =>
          rw [step_of_key ha, List.mem_append] at h
          rcases h with h | h
          · exact Or.inl h
          · exact Or.inr ⟨[], a, items, k, rfl, ha, h⟩
      · refine Or.inr ⟨a :: before, a', after, k, rfl, hkey, ?_⟩
        rwa [← getD_run k (p.step s a) before, ← run_cons, getD_run] at h
    · rintro (h | ⟨before, a', after, k, hitems, hkey, h⟩)
      · refine Or.inl ?_
        cases ha : p.key a with
        | none => rwa [step, ha]
        | some k =>
          rw [step_of_key ha]
          exact List.mem_append_left _ h
      · cases before with
        | nil =>
          obtain ⟨rfl, rfl⟩ := List.cons.inj hitems
          rw [step_of_key hkey]
          exact Or.inl (List.mem_append_right _ h)
        | cons first before =>
          obtain ⟨rfl, rfl⟩ := List.cons.inj hitems
          refine Or.inr ⟨before, a', after, k, rfl, hkey, ?_⟩
          rwa [← getD_run k (p.step s a) before, ← run_cons, getD_run]

end

end Pass

end KeyedFold
