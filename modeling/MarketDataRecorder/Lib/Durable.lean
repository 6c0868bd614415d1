import Mathlib.Init

/-!
# Programs with durable writes

A program that looks at a durable state and writes to it, one atomic write after the other. It can
stop in front of any write, for good: what it has written is there, what it has not is not.

* `Durable` — the programs: they return, raise, look or write
* `Durable.run`, `Durable.crashAt` — the run to the end, and the run that a crash cuts short
* `Durable.wp` — what must hold for a program to meet its three postconditions: on what it returns,
  on what it raises, and on what is there when it crashes
* `Durable.run_of_wp`, `Durable.crashAt_of_wp` — **soundness**
* `Durable.Keeps` — the programs that keep an invariant wherever they stop
-/

/-- A program over states `σ` with writes `ω`. -/
inductive Durable (ω σ ε α : Type) where
  | ret (a : α)
  | raise (e : ε)
  | read (k : σ → Durable ω σ ε α)
  | write (op : ω) (next : Durable ω σ ε α)

namespace Durable

variable {ω σ ε α β : Type}

protected def bind : Durable ω σ ε α → (α → Durable ω σ ε β) → Durable ω σ ε β
  | ret a, f => f a
  | raise e, _ => raise e
  | read k, f => read fun s => (k s).bind f
  | write op next, f => write op (next.bind f)

instance : Monad (Durable ω σ ε) where
  pure := ret
  bind := Durable.bind

/-- Look at the state. -/
def look : Durable ω σ ε σ := read ret

def perform (op : ω) : Durable ω σ ε Unit := write op (ret ())

/-- Return what a check returns, or raise its error. -/
def ofExcept : Except ε α → Durable ω σ ε α
  | .ok a => ret a
  | .error e => raise e

/-- What a run found out last: its last write, if it wrote, and the state. -/
structure Cut (ω σ : Type) where
  lastWrite : Option ω
  state : σ
  deriving DecidableEq

def Cut.satisfies (cut : Cut ω σ) (P : Option ω → σ → Prop) : Prop := P cut.lastWrite cut.state

section

variable (apply : ω → σ → σ)

/-- The run to the end. -/
def run : Durable ω σ ε α → σ → Except ε α × σ
  | ret a, s => (.ok a, s)
  | raise e, s => (.error e, s)
  | read k, s => run (k s) s
  | write op next, s => run next (apply op s)

/-- The state at a crash after `n` writes; a program that ends before has its last state. -/
def crashAt : Durable ω σ ε α → Nat → Option ω → σ → Cut ω σ
  | ret _, _, last, s => ⟨last, s⟩
  | raise _, _, last, s => ⟨last, s⟩
  | read k, n, last, s => crashAt (k s) n last s
  | write _ _, 0, last, s => ⟨last, s⟩
  | write op next, n + 1, _, s => crashAt next n (some op) (apply op s)

/--
The weakest precondition: `Q` of what the program returns, `R` of what it raises, `C` in front of
every write. All three see the last write and the state.
-/
def wp (Q : α → Option ω → σ → Prop) (R : ε → Option ω → σ → Prop) (C : Option ω → σ → Prop) :
    Durable ω σ ε α → Option ω → σ → Prop
  | ret a, last, s => Q a last s
  | raise e, last, s => R e last s
  | read k, last, s => wp Q R C (k s) last s
  | write op next, last, s => C last s ∧ wp Q R C next (some op) (apply op s)

end

section

variable {apply : ω → σ → σ} {Q Q' : α → Option ω → σ → Prop} {R R' : ε → Option ω → σ → Prop}
  {C C' : Option ω → σ → Prop} {last : Option ω} {s : σ}

/-! ## Symbolic execution -/

@[simp] theorem ret_bind (a : α) (f : α → Durable ω σ ε β) : (ret a >>= f) = f a := rfl

@[simp] theorem pure_bind (a : α) (f : α → Durable ω σ ε β) : (pure a >>= f) = f a := rfl

@[simp] theorem raise_bind (e : ε) (f : α → Durable ω σ ε β) : (raise e >>= f) = raise e := rfl

@[simp] theorem read_bind (k : σ → Durable ω σ ε α) (f : α → Durable ω σ ε β) :
    (read k >>= f) = read fun s => k s >>= f := rfl

@[simp] theorem write_bind (op : ω) (next : Durable ω σ ε α) (f : α → Durable ω σ ε β) :
    (write op next >>= f) = write op (next >>= f) := rfl

@[simp] theorem perform_bind (op : ω) (f : Unit → Durable ω σ ε β) :
    (perform op >>= f) = write op (f ()) := rfl

@[simp] theorem run_pure (a : α) (s : σ) :
    run apply (pure a : Durable ω σ ε α) s = (.ok a, s) := rfl

@[simp] theorem run_read (k : σ → Durable ω σ ε α) (s : σ) :
    run apply (read k) s = run apply (k s) s := rfl

@[simp] theorem run_write (op : ω) (next : Durable ω σ ε α) (s : σ) :
    run apply (write op next) s = run apply next (apply op s) := rfl

@[simp] theorem crashAt_pure (a : α) (n : Nat) (last : Option ω) (s : σ) :
    crashAt apply (pure a : Durable ω σ ε α) n last s = ⟨last, s⟩ := rfl

@[simp] theorem crashAt_raise (e : ε) (n : Nat) (last : Option ω) (s : σ) :
    crashAt apply (raise e : Durable ω σ ε α) n last s = ⟨last, s⟩ := rfl

@[simp] theorem crashAt_read (k : σ → Durable ω σ ε α) (n : Nat) (last : Option ω) (s : σ) :
    crashAt apply (read k) n last s = crashAt apply (k s) n last s := rfl

/-- Looking changes nothing. -/
@[simp] theorem crashAt_zero (p : Durable ω σ ε α) (last : Option ω) (s : σ) :
    crashAt apply p 0 last s = ⟨last, s⟩ := by
  induction p with
  | ret a => rfl
  | raise e => rfl
  | read k ih => exact ih s
  | write op next => rfl

@[simp] theorem crashAt_write_succ (op : ω) (next : Durable ω σ ε α) (n : Nat) (last : Option ω)
    (s : σ) :
    crashAt apply (write op next) (n + 1) last s = crashAt apply next n (some op) (apply op s) :=
  rfl

/-! ## The rules -/

@[simp] theorem wp_ret (a : α) :
    wp apply Q R C (ret a : Durable ω σ ε α) last s ↔ Q a last s := Iff.rfl

@[simp] theorem wp_pure (a : α) :
    wp apply Q R C (pure a : Durable ω σ ε α) last s ↔ Q a last s := Iff.rfl

@[simp] theorem wp_raise (e : ε) :
    wp apply Q R C (raise e : Durable ω σ ε α) last s ↔ R e last s := Iff.rfl

@[simp] theorem wp_read (k : σ → Durable ω σ ε α) :
    wp apply Q R C (read k) last s ↔ wp apply Q R C (k s) last s := Iff.rfl

@[simp] theorem wp_look {Q : σ → Option ω → σ → Prop} :
    wp apply Q R C (look : Durable ω σ ε σ) last s ↔ Q s last s := Iff.rfl

@[simp] theorem wp_write (op : ω) (next : Durable ω σ ε α) :
    wp apply Q R C (write op next) last s ↔
      C last s ∧ wp apply Q R C next (some op) (apply op s) := Iff.rfl

@[simp] theorem wp_perform {Q : Unit → Option ω → σ → Prop} (op : ω) :
    wp apply Q R C (perform op : Durable ω σ ε Unit) last s ↔
      C last s ∧ Q () (some op) (apply op s) := Iff.rfl

/-- A composition meets its postconditions if the second program meets them after the first. -/
@[simp] theorem wp_bind {Q : β → Option ω → σ → Prop} (p : Durable ω σ ε α)
    (f : α → Durable ω σ ε β) :
    wp apply Q R C (p >>= f) last s ↔
      wp apply (fun a last s => wp apply Q R C (f a) last s) R C p last s := by
  show wp apply Q R C (p.bind f) last s ↔ _
  induction p generalizing last s with
  | ret a => exact Iff.rfl
  | raise e => exact Iff.rfl
  | read k ih => exact ih s
  | write op next ih => exact and_congr_right fun _ => ih

/-- A computed result returns or raises, and writes nothing. -/
theorem wp_ofExcept {x : Except ε α} :
    wp apply Q R C (ofExcept x : Durable ω σ ε α) last s ↔
      (∀ a, x = .ok a → Q a last s) ∧ ∀ e, x = .error e → R e last s := by
  cases x with
  | ok a => simp [ofExcept]
  | error e => simp [ofExcept]

/-- Weaker postconditions are met too. -/
theorem wp_mono {p : Durable ω σ ε α} (h : wp apply Q R C p last s)
    (hQ : ∀ a last s, Q a last s → Q' a last s) (hR : ∀ e last s, R e last s → R' e last s)
    (hC : ∀ last s, C last s → C' last s) : wp apply Q' R' C' p last s := by
  induction p generalizing last s with
  | ret a => exact hQ a last s h
  | raise e => exact hR e last s h
  | read k ih => exact ih s h
  | write op next ih => exact ⟨hC last s h.1, ih h.2⟩

/-! ## Soundness -/

/-- **A run that ends satisfies what was proved of returning or of raising.** -/
theorem run_of_wp {p : Durable ω σ ε α} (h : wp apply Q R C p last s) :
    (∀ a, (p.run apply s).1 = .ok a → ∃ last', Q a last' (p.run apply s).2) ∧
      ∀ e, (p.run apply s).1 = .error e → ∃ last', R e last' (p.run apply s).2 := by
  induction p generalizing last s with
  | ret a =>
    constructor
    · intro b hb
      cases hb
      exact ⟨last, h⟩
    · intro e he
      cases he
  | raise e =>
    constructor
    · intro a ha
      cases ha
    · intro e' he
      cases he
      exact ⟨last, h⟩
  | read k ih => exact ih s h
  | write op next ih => exact ih h.2

/-- **Wherever a program crashes, one of its postconditions holds there.** -/
theorem crashAt_of_wp {p : Durable ω σ ε α} (h : wp apply Q R C p last s) (n : Nat) :
    (∃ a, (p.crashAt apply n last s).satisfies (Q a)) ∨
      (∃ e, (p.crashAt apply n last s).satisfies (R e)) ∨
      (p.crashAt apply n last s).satisfies C := by
  induction p generalizing n last s with
  | ret a => exact Or.inl ⟨a, h⟩
  | raise e => exact Or.inr (Or.inl ⟨e, h⟩)
  | read k ih => exact ih s h n
  | write op next ih =>
    cases n with
    | zero => exact Or.inr (Or.inr h.1)
    | succ n => exact ih h.2 n

/-- What every postcondition has in common holds wherever the program stops. -/
theorem crashAt_invariant {I : σ → Prop} {p : Durable ω σ ε α}
    (h : wp apply (fun _ _ s => I s) (fun _ _ s => I s) (fun _ s => I s) p last s) (n : Nat) :
    I (p.crashAt apply n last s).state := by
  rcases crashAt_of_wp h n with ⟨-, h⟩ | ⟨-, h⟩ | h <;> exact h

/-- An invariant that is proved of both ends holds where a run ends. -/
theorem run_invariant {I : σ → Prop} {p : Durable ω σ ε α}
    (h : wp apply (fun _ _ s => I s) (fun _ _ s => I s) C p last s) : I (p.run apply s).2 := by
  have hrun := run_of_wp h
  cases hend : (p.run apply s).1 with
  | ok a => exact (hrun.1 a hend).elim fun _ h => h
  | error e => exact (hrun.2 e hend).elim fun _ h => h

end

/-! ## Invariants -/

section

variable (apply : ω → σ → σ) (I : Option ω → σ → Prop)

/-- A program keeps what holds of the last write and the state, if it holds at its start. -/
def Keeps (p : Durable ω σ ε α) : Prop :=
  ∀ last s, I last s → wp apply (fun _ => I) (fun _ => I) I p last s

variable {apply I}

theorem keeps_pure (a : α) : Keeps apply I (pure a : Durable ω σ ε α) := fun _ _ hs => hs

theorem keeps_raise (e : ε) : Keeps apply I (raise e : Durable ω σ ε α) := fun _ _ hs => hs

/-- Looking at the state keeps every invariant. -/
theorem keeps_look : Keeps apply I (look : Durable ω σ ε σ) := fun _ _ hs => hs

theorem keeps_ofExcept (x : Except ε α) : Keeps apply I (ofExcept x : Durable ω σ ε α) := by
  cases x with
  | ok a => exact keeps_pure a
  | error e => exact keeps_raise e

/-- A program keeps what it keeps from every state it may read. -/
theorem Keeps.read {k : σ → Durable ω σ ε α} (hk : ∀ s, Keeps apply I (k s)) :
    Keeps apply I (Durable.read k) := fun last s hs => hk s last s hs

/-- A write that keeps the invariant may come first. -/
theorem Keeps.write {op : ω} {next : Durable ω σ ε α}
    (hop : ∀ last s, I last s → I (some op) (apply op s)) (hnext : Keeps apply I next) :
    Keeps apply I (Durable.write op next) :=
  fun last s hs => ⟨hs, hnext _ _ (hop last s hs)⟩

/-- One write keeps what its effect keeps. -/
theorem keeps_perform {op : ω} (hop : ∀ last s, I last s → I (some op) (apply op s)) :
    Keeps apply I (perform op : Durable ω σ ε Unit) := Keeps.write hop (keeps_pure ())

/-- What two programs keep, their composition keeps. -/
theorem Keeps.bind {p : Durable ω σ ε α} {f : α → Durable ω σ ε β} (hp : Keeps apply I p)
    (hf : ∀ a, Keeps apply I (f a)) : Keeps apply I (p >>= f) := by
  intro last s hs
  rw [wp_bind]
  exact wp_mono (hp last s hs) (fun a last s h => hf a last s h) (fun _ _ _ h => h)
    fun _ _ h => h

end

end Durable
