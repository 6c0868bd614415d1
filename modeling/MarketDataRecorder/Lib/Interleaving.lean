import Mathlib.Logic.Function.Basic
import MarketDataRecorder.Lib.Transition

/-!
# Interleaved calls

Programs of atomic actions on a shared state, each action with an outcome that the environment
decides. Any number of calls run such programs, their actions interleaved; a call may stop for good
anywhere, and the machine may go down under all of them.

* `Interleaved.wp` — the weakest precondition of a program between the steps of others: what others
  do is in its rely, what it does must be in its guarantee
* `Callers` — calls that come and run, and the machine that goes down
* `Callers.Verified` — what to show of the calls
* `Callers.Verified.sound` — **soundness**: what every reachable state then has
-/

/-- A program over states `σ` that returns or raises; `χ` are the outcomes of its actions. -/
inductive Interleaved (σ χ ε α : Type) where
  | ret (a : α)
  | raise (e : ε)
  | act (effect : χ → σ → σ) (next : χ → σ → Interleaved σ χ ε α)

namespace Interleaved

variable {σ χ ε ε' α β : Type}

protected def bind : Interleaved σ χ ε α → (α → Interleaved σ χ ε β) → Interleaved σ χ ε β
  | ret a, f => f a
  | raise e, _ => raise e
  | act effect next, f => act effect fun c s => (next c s).bind f

instance : Monad (Interleaved σ χ ε) where
  pure := ret
  bind := Interleaved.bind

/-- Return what a check returns, or raise its error. -/
def ofExcept : Except ε α → Interleaved σ χ ε α
  | .ok a => ret a
  | .error e => raise e

/-- One action that returns or raises. -/
def call (f : χ → σ → Except ε α × σ) : Interleaved σ χ ε α :=
  act (fun c s => (f c s).2) fun c s => ofExcept (f c s).1

/-- Run a program to its end, whether it returns or raises. -/
def attempt : Interleaved σ χ ε α → Interleaved σ χ ε' (Except ε α)
  | ret a => ret (.ok a)
  | raise e => ret (.error e)
  | act effect next => act effect fun c s => (next c s).attempt

/-! ## Weakest preconditions -/

/--
A program meets its postconditions, `Q` of what it returns and `E` of what it raises: each of its
actions is in the guarantee, whatever others do meanwhile in the rely.
-/
def wp (rely guarantee : σ → σ → Prop) (Q : α → σ → Prop) (E : ε → σ → Prop) :
    Interleaved σ χ ε α → σ → Prop
  | ret a, s => Q a s
  | raise e, s => E e s
  | act effect next, s => ∀ c, guarantee s (effect c s) ∧
      ∀ t, rely (effect c s) t → wp rely guarantee Q E (next c s) t

section

variable {rely guarantee : σ → σ → Prop} {Q Q' : α → σ → Prop} {E E' : ε → σ → Prop} {s : σ}

@[simp] theorem wp_ret (a : α) :
    wp rely guarantee Q E (ret a : Interleaved σ χ ε α) s ↔ Q a s := Iff.rfl

@[simp] theorem wp_raise (e : ε) :
    wp rely guarantee Q E (raise e : Interleaved σ χ ε α) s ↔ E e s := Iff.rfl

@[simp] theorem wp_bind {Q : β → σ → Prop} (p : Interleaved σ χ ε α)
    (f : α → Interleaved σ χ ε β) :
    wp rely guarantee Q E (p >>= f) s ↔
      wp rely guarantee (fun a => wp rely guarantee Q E (f a)) E p s := by
  show wp rely guarantee Q E (p.bind f) s ↔ _
  induction p generalizing s with
  | ret a => exact Iff.rfl
  | raise e => exact Iff.rfl
  | act effect next ih =>
    exact forall_congr' fun c => and_congr_right fun _ => forall_congr' fun t =>
      imp_congr_right fun _ => ih c s

theorem wp_mono {p : Interleaved σ χ ε α} (h : wp rely guarantee Q E p s)
    (hQ : ∀ a s, Q a s → Q' a s) (hE : ∀ e s, E e s → E' e s) : wp rely guarantee Q' E' p s := by
  induction p generalizing s with
  | ret a => exact hQ a s h
  | raise e => exact hE e s h
  | act effect next ih => exact fun c => ⟨(h c).1, fun t ht => ih c s ((h c).2 t ht)⟩

theorem wp_ofExcept {x : Except ε α} :
    wp rely guarantee Q E (ofExcept x : Interleaved σ χ ε α) s ↔
      (∀ a, x = .ok a → Q a s) ∧ ∀ e, x = .error e → E e s := by
  cases x with
  | ok a => simp [ofExcept]
  | error e => simp [ofExcept]

/-- What was attempted ends well either way. -/
theorem wp_attempt {Q : Except ε α → σ → Prop} {E : ε' → σ → Prop} (p : Interleaved σ χ ε α) :
    wp rely guarantee Q E (p.attempt : Interleaved σ χ ε' (Except ε α)) s ↔
      wp rely guarantee (fun a => Q (.ok a)) (fun e => Q (.error e)) p s := by
  induction p generalizing s with
  | ret a => exact Iff.rfl
  | raise e => exact Iff.rfl
  | act effect next ih =>
    exact forall_congr' fun c => and_congr_right fun _ => forall_congr' fun t =>
      imp_congr_right fun _ => ih c s

/-- One action: what it does is guaranteed, and its end holds whatever happens right behind it. -/
theorem wp_call {f : χ → σ → Except ε α × σ}
    (h : ∀ c, guarantee s (f c s).2 ∧ ∀ t, rely (f c s).2 t →
      (∀ a, (f c s).1 = .ok a → Q a t) ∧ ∀ e, (f c s).1 = .error e → E e t) :
    wp rely guarantee Q E (call f) s :=
  fun c => ⟨(h c).1, fun t ht => wp_ofExcept.mpr ((h c).2 t ht)⟩

end

end Interleaved

/-! ## Calls -/

/-- The calls of a component, under names `ι` and with arguments `β`; `loss` says what is lost where
the machine goes down. -/
structure Callers (σ χ ε α ι β loss : Type) where
  initial : σ → Prop
  /-- A call comes, where it can. -/
  arrive : ι → β → σ → Option σ
  program : ι → β → Interleaved σ χ ε α
  lose : loss → σ → Option σ

inductive CallEvent (χ ι β loss : Type) where
  | arrive (i : ι) (b : β)
  | act (i : ι) (c : χ)
  | stop (i : ι)
  | lose (l : loss)

structure Calls (σ χ ε α ι β : Type) where
  shared : σ
  running : ι → Option (β × Interleaved σ χ ε α)
  /-- The calls that returned, the last one first. -/
  returned : List (ι × β × α)

namespace Callers

variable {σ χ ε α ι β loss : Type} [DecidableEq ι] (T : Callers σ χ ε α ι β loss)

def step (s : Calls σ χ ε α ι β) : CallEvent χ ι β loss → Option (Calls σ χ ε α ι β)
  | .arrive i b =>
    match s.running i with
    | some _ => none
    | none => (T.arrive i b s.shared).map fun shared =>
      { s with
        shared := shared
        running := Function.update s.running i (some (b, T.program i b)) }
  | .act i c =>
    match s.running i with
    | some (b, .ret a) => some
      { s with
        running := Function.update s.running i none
        returned := (i, b, a) :: s.returned }
    | some (_, .raise _) => some { s with running := Function.update s.running i none }
    | some (b, .act effect next) => some
      { s with
        shared := effect c s.shared
        running := Function.update s.running i (some (b, next c s.shared)) }
    | none => none
  | .stop i =>
    match s.running i with
    | some _ => some { s with running := Function.update s.running i none }
    | none => none
  | .lose l => (T.lose l s.shared).map fun shared =>
    { s with shared := shared, running := fun _ => none }

def system : TransitionSystem (Calls σ χ ε α ι β) (CallEvent χ ι β loss) where
  initial s := T.initial s.shared ∧ (∀ i, s.running i = none) ∧ s.returned = []
  step := T.step

/-- What to show of the calls: an invariant of what they share, a rely and a guarantee of each, and
what holds of what they return, from then on. -/
structure Verified where
  Inv : σ → Prop
  rely : ι → σ → σ → Prop
  guarantee : ι → σ → σ → Prop
  Post : ι → β → α → σ → Prop
  inv_initial : ∀ s, T.initial s → Inv s
  rely_refl : ∀ i s, rely i s s
  rely_trans : ∀ i s t u, rely i s t → rely i t u → rely i s u
  /-- What one guarantees, another one relies on. -/
  compatible : ∀ i j s t, i ≠ j → guarantee i s t → rely j s t
  inv_guarantee : ∀ i s t, guarantee i s t → Inv s → Inv t
  post_guarantee : ∀ i s t, guarantee i s t → Inv s → ∀ j b a, Post j b a s → Post j b a t
  arrives : ∀ i b s t, T.arrive i b s = some t → Inv s → Inv t ∧ (∀ j, i ≠ j → rely j s t) ∧
    ∀ j b a, Post j b a s → Post j b a t
  starts : ∀ i b s t, T.arrive i b s = some t → Inv s → ∀ u, rely i t u →
    Interleaved.wp (rely i) (guarantee i) (Post i b) (fun _ _ => True) (T.program i b) u
  loses : ∀ l s t, T.lose l s = some t → Inv s → Inv t ∧ ∀ j b a, Post j b a s → Post j b a t

namespace Verified

variable {T} (V : T.Verified)

/-- What holds in every state: the invariant, what remains to be shown of the calls that run, and
what was shown of those that returned. -/
structure Holds (s : Calls σ χ ε α ι β) : Prop where
  inv : V.Inv s.shared
  running : ∀ i b p, s.running i = some (b, p) → ∀ t, V.rely i s.shared t →
    Interleaved.wp (V.rely i) (V.guarantee i) (V.Post i b) (fun _ _ => True) p t
  returned : ∀ r ∈ s.returned, V.Post r.1 r.2.1 r.2.2 s.shared

variable {V} {s t : Calls σ χ ε α ι β}

theorem Holds.remaining (h : V.Holds s) {i : ι} {shared : σ}
    (hothers : ∀ j, i ≠ j → V.rely j s.shared shared) (x : Option (β × Interleaved σ χ ε α))
    (hx : ∀ b p, x = some (b, p) → ∀ t, V.rely i shared t →
      Interleaved.wp (V.rely i) (V.guarantee i) (V.Post i b) (fun _ _ => True) p t) :
    ∀ j b p, Function.update s.running i x j = some (b, p) → ∀ t, V.rely j shared t →
      Interleaved.wp (V.rely j) (V.guarantee j) (V.Post j b) (fun _ _ => True) p t := by
  intro j b p hp u hu
  by_cases hj : j = i
  · subst hj
    rw [Function.update_self] at hp
    exact hx b p hp u hu
  · rw [Function.update_of_ne hj] at hp
    exact h.running j b p hp u (V.rely_trans j _ _ _ (hothers j (Ne.symm hj)) hu)

theorem Holds.ended (h : V.Holds s) (i : ι) :
    ∀ j b p, Function.update s.running i none j = some (b, p) → ∀ t, V.rely j s.shared t →
      Interleaved.wp (V.rely j) (V.guarantee j) (V.Post j b) (fun _ _ => True) p t :=
  h.remaining (fun j _ => V.rely_refl j s.shared) none (by rintro b p ⟨⟩)

omit [DecidableEq ι] in
/-- What the action of a call does is in its guarantee. -/
theorem Holds.guarantee (h : V.Holds s) {i : ι} {b : β} {effect : χ → σ → σ}
    {next : χ → σ → Interleaved σ χ ε α} (hrun : s.running i = some (b, .act effect next)) (c : χ) :
    V.guarantee i s.shared (effect c s.shared) :=
  (h.running i b _ hrun s.shared (V.rely_refl i s.shared) c).1

theorem Holds.initial (h : T.system.initial s) : V.Holds s := by
  obtain ⟨hinitial, hrunning, hreturned⟩ := h
  refine ⟨V.inv_initial _ hinitial, fun i b p hp => ?_, fun r hr => ?_⟩
  · rw [hrunning i] at hp
    cases hp
  · rw [hreturned] at hr
    cases hr

theorem Holds.arrive (h : V.Holds s) {i : ι} {b : β} (hstep : T.step s (.arrive i b) = some t) :
    V.Holds t := by
  simp only [step] at hstep
  split at hstep
  · cases hstep
  · obtain ⟨shared, hshared, rfl⟩ := Option.map_eq_some_iff.mp hstep
    obtain ⟨hinv, hothers, hpost⟩ := V.arrives i b _ _ hshared h.inv
    refine ⟨hinv, h.remaining hothers _ ?_, fun r hr => hpost _ _ _ (h.returned r hr)⟩
    rintro b' p heq u hu
    cases heq
    exact V.starts i b _ _ hshared h.inv u hu

theorem Holds.act (h : V.Holds s) {i : ι} {c : χ} (hstep : T.step s (.act i c) = some t) :
    V.Holds t := by
  simp only [step] at hstep
  split at hstep
  · next b a hrun =>
    cases hstep
    refine ⟨h.inv, h.ended i, fun r hr => ?_⟩
    rcases List.mem_cons.mp hr with rfl | hr
    · exact h.running i b _ hrun s.shared (V.rely_refl i s.shared)
    · exact h.returned r hr
  · cases hstep
    exact ⟨h.inv, h.ended i, h.returned⟩
  · next b effect next hrun =>
    cases hstep
    have hg := h.guarantee hrun c
    refine ⟨V.inv_guarantee i _ _ hg h.inv,
      h.remaining (fun j hj => V.compatible i j _ _ hj hg) _ ?_,
      fun r hr => V.post_guarantee i _ _ hg h.inv _ _ _ (h.returned r hr)⟩
    rintro b' p heq u hu
    cases heq
    exact (h.running i b _ hrun s.shared (V.rely_refl i s.shared) c).2 u hu
  · cases hstep

theorem Holds.stop (h : V.Holds s) {i : ι} (hstep : T.step s (.stop i) = some t) : V.Holds t := by
  simp only [step] at hstep
  split at hstep
  · cases hstep
    exact ⟨h.inv, h.ended i, h.returned⟩
  · cases hstep

theorem Holds.lose (h : V.Holds s) {l : loss} (hstep : T.step s (.lose l) = some t) :
    V.Holds t := by
  obtain ⟨shared, hshared, rfl⟩ := Option.map_eq_some_iff.mp hstep
  obtain ⟨hinv, hpost⟩ := V.loses l _ _ hshared h.inv
  refine ⟨hinv, ?_, fun r hr => hpost _ _ _ (h.returned r hr)⟩
  rintro i b p ⟨⟩

theorem Holds.step {event : CallEvent χ ι β loss} (h : V.Holds s)
    (hstep : T.step s event = some t) : V.Holds t := by
  cases event with
  | arrive i b => exact h.arrive hstep
  | act i c => exact h.act hstep
  | stop i => exact h.stop hstep
  | lose l => exact h.lose hstep

/-- **Soundness**, over every interleaving. -/
theorem sound {allowed : Calls σ χ ε α ι β → CallEvent χ ι β loss → Prop}
    (h : T.system.Reachable allowed s) : V.Holds s :=
  h.invariant (fun _ => Holds.initial) fun _ _ _ hs _ => hs.step

end Verified

end Callers
