import Mathlib.Data.List.Induction

/-!
# Since

The past of a log: something happened in it, and nothing behind that ended it. A flag that is raised
and lowered by the entries of the log tells exactly this.
-/

namespace Log

variable {α σ : Type} {P P' Q Q' : α → Prop} {log : List α} {x : α}

/-- Some entry of the log is a `P`, and none behind it is a `Q`. -/
def Since (P Q : α → Prop) (log : List α) : Prop :=
  ∃ before x after, log = before ++ x :: after ∧ P x ∧ ∀ y ∈ after, ¬ Q y

@[simp] theorem since_nil : ¬ Since P Q [] := by
  rintro ⟨before, x, after, h, -⟩
  simp at h

/-- The newest entry decides, unless it says nothing. -/
theorem since_append : Since P Q (log ++ [x]) ↔ P x ∨ (Since P Q log ∧ ¬ Q x) := by
  constructor
  · rintro ⟨before, y, after, h, hy, hafter⟩
    rcases after.eq_nil_or_concat with rfl | ⟨after, z, rfl⟩
    · obtain ⟨-, hx⟩ := List.append_inj' h rfl
      simp only [List.cons.injEq, and_true] at hx
      exact .inl (hx ▸ hy)
    · have h' : log ++ [x] = (before ++ y :: after) ++ [z] := by simp [h]
      obtain ⟨rfl, hx⟩ := List.append_inj' h' rfl
      simp only [List.cons.injEq, and_true] at hx
      subst hx
      exact .inr ⟨⟨before, y, after, rfl, hy, fun w hw => hafter w (by simp [hw])⟩,
        hafter x (by simp)⟩
  · rintro (hx | ⟨⟨before, y, after, rfl, hy, hafter⟩, hx⟩)
    · exact ⟨log, x, [], by simp, hx, by simp⟩
    · refine ⟨before, y, after ++ [x], by simp, hy, fun w hw => ?_⟩
      rcases List.mem_append.mp hw with hw | hw
      · exact hafter w hw
      · rw [List.mem_singleton.mp hw]
        exact hx

/-- **A flag tells what happened since.** Along the states that meet an invariant it is raised by
the entries `P` and lowered by the other entries `Q`. -/
theorem flag_foldl {next : σ → α → σ} {I : σ → Prop} {s : σ} (flag : σ → Prop) (hs : I s)
    (hstart : ¬ flag s)
    (hkeep : ∀ s x, I s → I (next s x))
    (hnext : ∀ s x, I s → (flag (next s x) ↔ P x ∨ (flag s ∧ ¬ Q x))) (log : List α) :
    flag (log.foldl next s) ↔ Since P Q log := by
  have hboth : I (log.foldl next s) ∧ (flag (log.foldl next s) ↔ Since P Q log) := by
    induction log using List.reverseRecOn with
    | nil => exact ⟨hs, by simpa using hstart⟩
    | append_singleton log x ih =>
      rw [List.foldl_append, since_append, ← ih.2]
      exact ⟨hkeep _ x ih.1, hnext _ x ih.1⟩
  exact hboth.2

end Log
