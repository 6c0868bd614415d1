import Mathlib.Logic.Relation

/-!
# Transition systems

A system with computable steps under labels. What holds at the start and survives every step holds
in every state that is reached; a condition on the steps cuts the runs down to those that meet it.
-/

/-- A transition system: its initial states and its steps. -/
structure TransitionSystem (σ α : Type) where
  initial : σ → Prop
  step : σ → α → Option σ

namespace TransitionSystem

variable {σ α : Type} (T : TransitionSystem σ α)

/-- A run from one state to another, each of its steps taken from a state that allows it. -/
def Run (allowed : σ → α → Prop) : σ → σ → Prop :=
  Relation.ReflTransGen fun s t => ∃ a, allowed s a ∧ T.step s a = some t

/-- The states that such runs reach from the start. -/
def Reachable (allowed : σ → α → Prop) (s : σ) : Prop :=
  ∃ s₀, T.initial s₀ ∧ T.Run allowed s₀ s

/-- Take the steps of a list, one after the other. -/
def perform : σ → List α → Option σ
  | s, [] => some s
  | s, a :: rest => (T.step s a).bind fun t => perform t rest

variable {T} {allowed : σ → α → Prop}

/-- **Invariants**: what a step keeps, a run keeps. -/
theorem Run.invariant {I : σ → Prop} {s t : σ} (h : T.Run allowed s t)
    (hstep : ∀ s a t, I s → allowed s a → T.step s a = some t → I t) (hs : I s) : I t := by
  induction h with
  | refl => exact hs
  | tail _ hlast ih =>
    obtain ⟨a, hallowed, hnext⟩ := hlast
    exact hstep _ a _ ih hallowed hnext

theorem Reachable.invariant {I : σ → Prop} {s : σ} (h : T.Reachable allowed s)
    (hinit : ∀ s, T.initial s → I s)
    (hstep : ∀ s a t, I s → allowed s a → T.step s a = some t → I t) : I s := by
  obtain ⟨s₀, h₀, hrun⟩ := h
  exact hrun.invariant hstep (hinit s₀ h₀)

theorem Reachable.of_initial {s : σ} (h : T.initial s) : T.Reachable allowed s :=
  ⟨s, h, Relation.ReflTransGen.refl⟩

theorem Reachable.tail {s t : σ} {a : α} (h : T.Reachable allowed s) (ha : allowed s a)
    (hstep : T.step s a = some t) : T.Reachable allowed t := by
  obtain ⟨s₀, h₀, hrun⟩ := h
  exact ⟨s₀, h₀, hrun.tail ⟨a, ha, hstep⟩⟩

/-- What is performed is a run. -/
theorem run_of_perform {s t : σ} {actions : List α} (h : T.perform s actions = some t) :
    T.Run (fun _ _ => True) s t := by
  induction actions generalizing s with
  | nil =>
    cases Option.some.inj h
    exact Relation.ReflTransGen.refl
  | cons a rest ih =>
    obtain ⟨u, hu, hrest⟩ := Option.bind_eq_some_iff.mp h
    exact Relation.ReflTransGen.head ⟨a, trivial, hu⟩ (ih hrest)

/-- A list of steps with the states they are allowed in. -/
def performAllowed (T : TransitionSystem σ α) (allowed : σ → α → Bool) :
    σ → List α → Option σ
  | s, [] => some s
  | s, a :: rest =>
    if allowed s a then (T.step s a).bind fun t => performAllowed T allowed t rest else none

theorem run_of_performAllowed {test : σ → α → Bool} {s t : σ} {actions : List α}
    (htest : ∀ s a, test s a = true → allowed s a)
    (h : T.performAllowed test s actions = some t) : T.Run allowed s t := by
  induction actions generalizing s with
  | nil =>
    cases Option.some.inj h
    exact Relation.ReflTransGen.refl
  | cons a rest ih =>
    simp only [performAllowed] at h
    split at h
    · next hallowed =>
      obtain ⟨u, hu, hrest⟩ := Option.bind_eq_some_iff.mp h
      exact Relation.ReflTransGen.head ⟨a, htest s a hallowed, hu⟩ (ih hrest)
    · cases h

end TransitionSystem
