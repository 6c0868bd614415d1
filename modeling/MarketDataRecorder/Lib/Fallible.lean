import Mathlib.Data.List.Basic

/-!
# Fallible maps

Lists whose items are computed one after another, each by a step that can fail.
-/

/-- From `x >>= f` returning, that `x` returned and what `f` made of it. -/
theorem except_bind_eq_ok {ε α β : Type} {x : Except ε α} {f : α → Except ε β} {b : β}
    (h : (x >>= f) = .ok b) : ∃ a, x = .ok a ∧ f a = .ok b := by
  cases x with
  | error e => cases h
  | ok a => exact ⟨a, rfl, h⟩

theorem except_mapError_eq_ok {ε ε' α : Type} {f : ε → ε'} {x : Except ε α} {a : α}
    (h : x.mapError f = .ok a) : x = .ok a := by
  cases x with
  | error e => cases h
  | ok b => exact congrArg Except.ok (Except.ok.inj h)

namespace Fallible

theorem mapM_cons_ok {α β ε : Type} {f : α → Except ε β} {a : α} {items : List α}
    {results : List β} (h : (a :: items).mapM f = .ok results) :
    ∃ b rest, f a = .ok b ∧ items.mapM f = .ok rest ∧ results = b :: rest := by
  rw [List.mapM_cons] at h
  cases ha : f a with
  | error e =>
    rw [ha] at h
    cases h
  | ok b =>
    cases hrest : items.mapM f with
    | error e =>
      rw [ha, hrest] at h
      cases h
    | ok rest =>
      rw [ha, hrest] at h
      exact ⟨b, rest, rfl, rfl, (Except.ok.inj h).symm⟩

theorem mapM_cons_of_ok {α β ε : Type} {f : α → Except ε β} {a : α} {b : β} {items : List α}
    {rest : List β} (ha : f a = .ok b) (hrest : items.mapM f = .ok rest) :
    (a :: items).mapM f = .ok (b :: rest) := by
  rw [List.mapM_cons, ha, hrest]
  rfl

theorem exists_mapM_ok {α β ε : Type} {f : α → Except ε β} :
    ∀ {items : List α}, (∀ a ∈ items, ∃ b, f a = .ok b) → ∃ results, items.mapM f = .ok results
  | [], _ => ⟨[], rfl⟩
  | a :: items, h => by
    rw [List.forall_mem_cons] at h
    obtain ⟨⟨b, hb⟩, hitems⟩ := h
    obtain ⟨results, hresults⟩ := exists_mapM_ok hitems
    exact ⟨b :: results, mapM_cons_of_ok hb hresults⟩

/-- What a fallible map yields is what it yields of its items. -/
theorem mem_mapM_ok {α β ε : Type} {f : α → Except ε β} {b : β} :
    ∀ {items : List α} {results : List β}, items.mapM f = .ok results →
      (b ∈ results ↔ ∃ a ∈ items, f a = .ok b)
  | [], results, h => by
    obtain rfl : [] = results := Except.ok.inj h
    simp
  | a :: items, results, h => by
    obtain ⟨first, rest, ha, hrest, rfl⟩ := mapM_cons_ok h
    simp only [List.mem_cons, mem_mapM_ok hrest, exists_eq_or_imp, ha, Except.ok.injEq,
      @eq_comm _ b]

theorem exists_of_mapM_ok {α β ε : Type} {f : α → Except ε β} {a : α} :
    ∀ {items : List α} {results : List β}, items.mapM f = .ok results → a ∈ items →
      ∃ b, f a = .ok b
  | [], _, _, hmem => by cases hmem
  | a' :: items, _, h, hmem => by
    obtain ⟨b, rest, hb, hrest, -⟩ := mapM_cons_ok h
    rcases List.mem_cons.mp hmem with rfl | hmem
    · exact ⟨b, hb⟩
    · exact exists_of_mapM_ok hrest hmem

/-- A fallible map over a reordered list yields the same results, reordered. -/
theorem mapM_perm {α β ε : Type} {f : α → Except ε β} {items items' : List α} {results : List β}
    (hperm : items'.Perm items) (h : items.mapM f = .ok results) :
    ∃ results', items'.mapM f = .ok results' ∧ results'.Perm results := by
  induction hperm generalizing results with
  | nil => exact ⟨results, h, .refl results⟩
  | cons a _ ih =>
    obtain ⟨b, rest, hb, hrest, rfl⟩ := mapM_cons_ok h
    obtain ⟨rest', hrest', hp⟩ := ih hrest
    exact ⟨b :: rest', mapM_cons_of_ok hb hrest', hp.cons b⟩
  | swap a b _ =>
    obtain ⟨c, rest, hc, hrest, rfl⟩ := mapM_cons_ok h
    obtain ⟨d, rest, hd, hlast, rfl⟩ := mapM_cons_ok hrest
    exact ⟨d :: c :: rest, mapM_cons_of_ok hd (mapM_cons_of_ok hc hlast), .swap c d rest⟩
  | trans _ _ ih ih' =>
    obtain ⟨middle, hmiddle, hp⟩ := ih' h
    obtain ⟨first, hfirst, hp'⟩ := ih hmiddle
    exact ⟨first, hfirst, hp'.trans hp⟩

/-- What can be told of every result from its item alone, can be told of all results. -/
theorem map_of_mapM_ok {α β γ ε : Type} {f : α → Except ε β} {g : β → γ} {k : α → γ} :
    ∀ {items : List α} {results : List β}, (∀ a ∈ items, ∀ b, f a = .ok b → g b = k a) →
      items.mapM f = .ok results → results.map g = items.map k
  | [], results, _, h => by
    obtain rfl : [] = results := Except.ok.inj h
    rfl
  | a :: items, results, hg, h => by
    obtain ⟨hhead, hrest⟩ := List.forall_mem_cons.mp hg
    obtain ⟨b, rest, hb, hresults, rfl⟩ := mapM_cons_ok h
    rw [List.map_cons, List.map_cons, hhead b hb, map_of_mapM_ok hrest hresults]

/-- A fallible map that returns is a map. -/
theorem mapM_eq_map {α β ε : Type} {f : α → Except ε β} {g : α → β} {items : List α}
    {results : List β} (hg : ∀ a ∈ items, ∀ b, f a = .ok b → b = g a)
    (h : items.mapM f = .ok results) : results = items.map g := by
  have hmap := @map_of_mapM_ok _ _ _ _ f id g items results hg h
  rwa [List.map_id] at hmap

/-- The error of a fallible map is the error of the first of its items that has one. -/
theorem mapM_eq_error_iff {α β ε : Type} {f : α → Except ε β} {e : ε} :
    ∀ {items : List α}, items.mapM f = .error e ↔
      ∃ before a after, items = before ++ a :: after ∧ f a = .error e ∧
        ∀ b ∈ before, ∃ c, f b = .ok c
  | [] => by
    constructor
    · intro h
      cases h
    · rintro ⟨before, a, after, hitems, -, -⟩
      simp at hitems
  | a :: items => by
    rw [List.mapM_cons]
    cases ha : f a with
    | error e' =>
      constructor
      · intro h
        obtain rfl : e' = e := Except.error.inj h
        exact ⟨[], a, items, rfl, ha, by simp⟩
      · rintro ⟨before, b, after, hitems, hb, hbefore⟩
        cases before with
        | nil =>
          obtain ⟨rfl, rfl⟩ := List.cons.inj hitems
          rw [ha] at hb
          exact congrArg Except.error (Except.error.inj hb)
        | cons first before =>
          obtain ⟨rfl, -⟩ := List.cons.inj hitems
          obtain ⟨c, hc⟩ := hbefore a List.mem_cons_self
          rw [ha] at hc
          cases hc
    | ok c =>
      have hrest : (do let rest ← items.mapM f; pure (c :: rest) : Except ε (List β)) = .error e ↔
          items.mapM f = .error e := by
        cases items.mapM f with
        | error e' =>
          exact ⟨fun h => congrArg Except.error (Except.error.inj h),
            fun h => congrArg Except.error (Except.error.inj h)⟩
        | ok rest =>
          constructor <;> intro h <;> cases h
      refine (show _ ↔ items.mapM f = .error e from hrest).trans (mapM_eq_error_iff.trans ?_)
      constructor
      · rintro ⟨before, b, after, rfl, hb, hbefore⟩
        exact ⟨a :: before, b, after, rfl, hb, List.forall_mem_cons.mpr ⟨⟨c, ha⟩, hbefore⟩⟩
      · rintro ⟨before, b, after, hitems, hb, hbefore⟩
        cases before with
        | nil =>
          obtain ⟨rfl, -⟩ := List.cons.inj hitems
          rw [ha] at hb
          cases hb
        | cons first before =>
          obtain ⟨rfl, rfl⟩ := List.cons.inj hitems
          exact ⟨before, b, after, rfl, hb, (List.forall_mem_cons.mp hbefore).2⟩

theorem exists_of_mapM_error {α β ε : Type} {f : α → Except ε β} {e : ε} {items : List α}
    (h : items.mapM f = .error e) : ∃ a ∈ items, f a = .error e := by
  obtain ⟨before, a, after, rfl, ha, -⟩ := mapM_eq_error_iff.mp h
  exact ⟨a, by simp, ha⟩

end Fallible
