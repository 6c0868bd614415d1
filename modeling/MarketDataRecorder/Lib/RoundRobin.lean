import Mathlib.Data.List.Nodup

/-!
# Taking turns

Of a list of items the first pending one is picked, from the item on behind the one that was picked
last. An item that stays pending is picked again only when the others had their turn.

* `rotated`, `pick` — whose turn it is
* `attempts` — the items picked in a row of calls
* `attempted_of_pending` — as many calls as there are pending items pick each of them
-/

namespace RoundRobin

variable {α : Type} [DecidableEq α]

/-- The items behind the last one picked, then the others. -/
def rotated (items : List α) (last : Option α) : List α :=
  match last with
  | none => items
  | some x =>
    if x ∈ items then items.drop (items.idxOf x + 1) ++ items.take (items.idxOf x + 1) else items

def pick (pending : α → Bool) (items : List α) (last : Option α) : Option α :=
  (rotated items last).find? pending

theorem rotated_perm (items : List α) (last : Option α) : (rotated items last).Perm items := by
  cases last with
  | none => exact List.Perm.refl items
  | some x =>
    rw [rotated]
    split
    · refine List.perm_append_comm.trans ?_
      rw [List.take_append_drop]
    · exact List.Perm.refl items

/-- The items are cut in two, and the second part comes first. -/
theorem exists_rotated (items : List α) (last : Option α) :
    ∃ front back, items = front ++ back ∧ rotated items last = back ++ front := by
  cases last with
  | none => exact ⟨[], items, rfl, (List.append_nil items).symm⟩
  | some x =>
    rw [rotated]
    split
    · exact ⟨_, _, (List.take_append_drop (items.idxOf x + 1) items).symm, rfl⟩
    · exact ⟨[], items, rfl, (List.append_nil items).symm⟩

theorem rotated_some {front back : List α} {x : α} (h : x ∉ front) :
    rotated (front ++ x :: back) (some x) = back ++ (front ++ [x]) := by
  have hidx : (front ++ x :: back).idxOf x = front.length := by
    rw [List.idxOf_append_of_notMem h, List.idxOf_cons_self, Nat.add_zero]
  have hsplit : front ++ x :: back = (front ++ [x]) ++ back := by
    rw [List.append_assoc]
    rfl
  have hlength : front.length + 1 = (front ++ [x]).length := by
    rw [List.length_append, List.length_singleton]
  rw [rotated, if_pos (List.mem_append_right _ List.mem_cons_self), hidx, hsplit, hlength,
    List.drop_left, List.take_left]

/-- **Behind a pick come the items that were behind it**, then those before it, then itself. -/
theorem rotated_pick {items front back : List α} {last : Option α} {x : α} (hitems : items.Nodup)
    (h : rotated items last = front ++ x :: back) :
    rotated items (some x) = back ++ (front ++ [x]) := by
  obtain ⟨first, second, rfl, hrotated⟩ := exists_rotated items last
  rw [hrotated] at h
  rcases List.append_eq_append_iff.mp h with ⟨rest, rfl, hfirst⟩ | ⟨rest, hsecond, hback⟩
  · -- the pick is in the part that was moved behind
    subst hfirst
    have hnotin : x ∉ rest := by
      have := (List.nodup_append.mp hitems).1
      intro hmem
      exact (List.nodup_append.mp this).2.2 x hmem x List.mem_cons_self rfl
    rw [List.append_assoc, List.cons_append, rotated_some hnotin, List.append_assoc,
      List.append_assoc]
  · cases rest with
    | nil =>
      rw [List.append_nil] at hsecond
      rw [List.nil_append] at hback
      subst hsecond hback
      have hnotin : x ∉ ([] : List α) := List.not_mem_nil
      have hmoved : rotated ([] ++ x :: (back ++ second)) (some x) =
        (back ++ second) ++ ([] ++ [x]) :=
        rotated_some hnotin
      rw [List.nil_append, List.nil_append] at hmoved
      rw [List.cons_append, hmoved, List.append_assoc]
    | cons y rest =>
      rw [List.cons_append, List.cons.injEq] at hback
      obtain ⟨rfl, rfl⟩ := hback
      subst hsecond
      have hnotin : x ∉ first ++ front := by
        rw [← List.append_assoc] at hitems
        intro hmem
        exact (List.nodup_append.mp hitems).2.2 x hmem x List.mem_cons_self rfl
      rw [← List.append_assoc, rotated_some hnotin, List.append_assoc, List.append_assoc]

/-! ## Calls -/

section

variable {σ γ : Type} (items : List α) (pending : σ → α → Bool) (last : σ → Option α)
  (next : σ → γ → σ)

/-- The items that calls pick, one behind the other. -/
def attempts : σ → List γ → List α
  | _, [] => []
  | s, call :: calls => (pick (pending s) items (last s)).toList ++ attempts (next s call) calls

/-- A call changes whether its own pick is pending, and remembers it, and nothing else. -/
structure TakesTurns (I : σ → Prop) (allowed : γ → Prop) : Prop where
  keeps : ∀ s call, I s → allowed call → I (next s call)
  last_eq : ∀ s call x, I s → allowed call → pick (pending s) items (last s) = some x →
    last (next s call) = some x
  pending_eq : ∀ s call x, I s → allowed call → pick (pending s) items (last s) = some x →
    ∀ y ≠ x, pending (next s call) y = pending s y

variable {items pending last next} {I : σ → Prop} {allowed : γ → Prop}

theorem attempted_of_mem_front (hitems : items.Nodup)
    (hturns : TakesTurns items pending last next I allowed) :
    ∀ (calls : List γ) (s : σ) (front back : List α), I s → (∀ call ∈ calls, allowed call) →
      rotated items (last s) = front ++ back →
      (front.filter (pending s)).length ≤ calls.length →
      ∀ y ∈ front, pending s y = true → y ∈ attempts items pending last next s calls
  | [], s, front, back, _, _, _, hlength, y, hy, hpending => by
    have hnone := List.eq_nil_of_length_eq_zero (Nat.le_zero.mp hlength)
    have hmem := List.mem_filter.mpr ⟨hy, hpending⟩
    rw [hnone] at hmem
    cases hmem
  | call :: calls, s, front, back, hs, hallowed, hrotated, hlength, y, hy, hpending => by
    have hcall := hallowed call List.mem_cons_self
    have hsome : (front.find? (pending s)).isSome := List.find?_isSome.mpr ⟨y, hy, hpending⟩
    obtain ⟨x, hx⟩ := Option.isSome_iff_exists.mp hsome
    obtain ⟨hxPending, before, behind, rfl, hbefore⟩ := List.find?_eq_some_iff_append.mp hx
    have hpick : pick (pending s) items (last s) = some x := by
      rw [pick, hrotated, List.find?_append, hx]
      rfl
    have hlast := hturns.last_eq s call x hs hcall hpick
    have hsame := hturns.pending_eq s call x hs hcall hpick
    have hnodup : (before ++ x :: behind).Nodup := by
      have hperm := (rotated_perm items (last s)).nodup_iff.mpr hitems
      rw [hrotated] at hperm
      exact (List.nodup_append.mp hperm).1
    have hxBehind : x ∉ behind := (List.nodup_cons.mp (List.nodup_append.mp hnodup).2.1).1
    have hrotated' : rotated items (last (next s call)) = behind ++ (back ++ (before ++ [x])) := by
      rw [List.append_assoc, List.cons_append] at hrotated
      rw [hlast, rotated_pick hitems hrotated, List.append_assoc]
    have hfilter : behind.filter (pending (next s call)) = behind.filter (pending s) := by
      refine List.filter_congr fun z hz => hsame z ?_
      rintro rfl
      exact hxBehind hz
    rw [attempts, hpick]
    rcases List.mem_append.mp hy with hmem | hmem
    · exact absurd hpending (by simpa using hbefore y hmem)
    rcases List.mem_cons.mp hmem with rfl | htail
    · exact List.mem_cons_self
    · have hne : y ≠ x := by
        rintro rfl
        exact hxBehind htail
      refine List.mem_append_right _
        (attempted_of_mem_front hitems hturns calls (next s call) behind
        _ (hturns.keeps s call hs hcall)
        (fun other hother => hallowed other (List.mem_cons_of_mem _ hother))
          hrotated' ?_ y htail ?_)
      · rw [List.filter_append, List.filter_cons, if_pos hxPending, List.length_append,
          List.length_cons] at hlength
        rw [hfilter]
        rw [List.length_cons] at hlength
        omega
      · rw [hsame y hne, hpending]

/-- **As many calls as there are pending items pick each of them.** -/
theorem attempted_of_pending (hitems : items.Nodup)
    (hturns : TakesTurns items pending last next I allowed) {s : σ} {calls : List γ} (hs : I s)
    (hallowed : ∀ call ∈ calls, allowed call)
    (hlength : (items.filter (pending s)).length ≤ calls.length) {x : α} (hx : x ∈ items)
    (hpending : pending s x = true) : x ∈ attempts items pending last next s calls := by
  have hperm := rotated_perm items (last s)
  refine attempted_of_mem_front hitems hturns calls s (rotated items (last s)) [] hs hallowed
    (List.append_nil _).symm ?_ x (hperm.symm.subset hx) hpending
  rw [(hperm.filter (pending s)).length_eq]
  exact hlength

end

end RoundRobin
