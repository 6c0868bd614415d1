import Mathlib.Data.List.Induction

/-!
# Runs that stay good

Steps that always apply, a property of states, and the steps that break it: every state of a run has
the property exactly where no step of the run breaks it. An invariant of such runs may be used.
-/

namespace GoodRuns

variable {σ α : Type} {step : σ → α → σ} {start : σ} {inv good : σ → Prop} {breaks : σ → α → Prop}

/-- **Good runs** are the runs without a step that breaks the property. -/
theorem good_iff (hstart : inv start) (hgood : good start)
    (hkeep : ∀ s a, inv s → good s → ¬ breaks s a → inv (step s a) ∧ good (step s a))
    (hbreak : ∀ s a, inv s → good s → breaks s a → ¬ good (step s a)) (labels : List α) :
    (∀ before after, labels = before ++ after → good (before.foldl step start)) ↔
      ∀ before a after, labels = before ++ a :: after → ¬ breaks (before.foldl step start) a := by
  have hnext : ∀ before a, (before ++ [a]).foldl step start =
      step (before.foldl step start) a := by
    intro before a
    rw [List.foldl_append]
    rfl
  constructor
  · intro hall
    have hinv : ∀ before after, labels = before ++ after → inv (before.foldl step start) := by
      intro before
      induction before using List.reverseRecOn with
      | nil => exact fun _ _ => hstart
      | append_singleton before a ih =>
        rintro after hsplit
        have hbefore : labels = before ++ a :: after := by rw [hsplit, List.append_assoc]; rfl
        have hafter := hall (before ++ [a]) after hsplit
        rw [hnext] at hafter ⊢
        have hgood' := hall before _ hbefore
        exact (hkeep _ a (ih _ hbefore) hgood'
          fun hbreaks => hbreak _ a (ih _ hbefore) hgood' hbreaks hafter).1
    rintro before a after hsplit hbreaks
    have hafter := hall (before ++ [a]) after (by rw [hsplit, List.append_assoc]; rfl)
    rw [hnext] at hafter
    exact hbreak _ a (hinv before _ hsplit) (hall before _ hsplit) hbreaks hafter
  · intro hnone
    have hboth : ∀ before after, labels = before ++ after →
        inv (before.foldl step start) ∧ good (before.foldl step start) := by
      intro before
      induction before using List.reverseRecOn with
      | nil => exact fun _ _ => ⟨hstart, hgood⟩
      | append_singleton before a ih =>
        rintro after hsplit
        have hbefore : labels = before ++ a :: after := by rw [hsplit, List.append_assoc]; rfl
        rw [hnext]
        exact hkeep _ a (ih _ hbefore).1 (ih _ hbefore).2 (hnone before a after hbefore)
    exact fun before after hsplit => (hboth before after hsplit).2

end GoodRuns
