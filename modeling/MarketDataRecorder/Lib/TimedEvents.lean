import Mathlib.Data.List.TakeWhile
import Mathlib.Tactic

/-!
# Weighted events in time

Events with a time and a weight that is not negative, the oldest first: the weight within a span of
time, and the events that a rolling window has let go.
-/

namespace TimedEvents

variable {τ : Type} {events more : List (τ × Int)}

/-- The weight of all events. -/
def total (events : List (τ × Int)) : Int := (events.map Prod.snd).sum

/-- The weight of the events of some times. -/
def within (span : τ → Prop) [DecidablePred span] (events : List (τ × Int)) : Int :=
  total (events.filter fun event => span event.1)

/-- No event weighs less than nothing. -/
def Weighted (events : List (τ × Int)) : Prop := ∀ event ∈ events, 0 ≤ event.2

@[simp] theorem total_nil : total ([] : List (τ × Int)) = 0 := rfl

@[simp] theorem total_cons (event : τ × Int) (events : List (τ × Int)) :
    total (event :: events) = event.2 + total events := by
  simp [total]

theorem total_append (events more : List (τ × Int)) :
    total (events ++ more) = total events + total more := by
  simp [total]

section

variable (span : τ → Prop) [DecidablePred span]

@[simp] theorem within_nil : within span [] = 0 := rfl

theorem within_cons (event : τ × Int) (events : List (τ × Int)) :
    within span (event :: events) = (if span event.1 then event.2 else 0) + within span events := by
  unfold within
  by_cases h : span event.1
  · rw [List.filter_cons_of_pos (by simpa using h), if_pos h, total_cons]
  · rw [List.filter_cons_of_neg (by simpa using h), if_neg h, zero_add]

theorem within_append (events more : List (τ × Int)) :
    within span (events ++ more) = within span events + within span more := by
  rw [within, List.filter_append, total_append]
  rfl

theorem within_eq_zero (h : ∀ event ∈ events, ¬ span event.1) : within span events = 0 := by
  rw [within, List.filter_eq_nil_iff.mpr (by simpa using h), total_nil]

/-- A wider span holds more. -/
theorem within_mono {span : τ → Prop} [DecidablePred span] {wider : τ → Prop}
    [DecidablePred wider] (h : Weighted events)
    (hwider : ∀ event ∈ events, span event.1 → wider event.1) :
    within span events ≤ within wider events := by
  induction events with
  | nil => exact le_refl _
  | cons event events ih =>
    have htail := ih (fun e he => h e (List.mem_cons_of_mem _ he))
      fun e he => hwider e (List.mem_cons_of_mem _ he)
    have hhead := h event List.mem_cons_self
    have hspan := hwider event List.mem_cons_self
    rw [within_cons, within_cons]
    by_cases hin : span event.1
    · rw [if_pos hin, if_pos (hspan hin)]
      omega
    · rw [if_neg hin]
      split <;> omega

end

theorem Weighted.append (h : Weighted events) (h' : Weighted more) : Weighted (events ++ more) := by
  rintro event hevent
  rcases List.mem_append.mp hevent with he | he
  · exact h event he
  · exact h' event he

/-! ## Rolling windows -/

section

variable {τ : Type} [LinearOrder τ] [Add τ] {events : List (τ × Int)}

/-- The events that a window of some length has not let go at a time. -/
def unexpired (length now : τ) (events : List (τ × Int)) : List (τ × Int) :=
  events.dropWhile fun event => event.1 + length ≤ now

/-- What was let go has expired. -/
theorem exists_expired (length now : τ) (events : List (τ × Int)) :
    ∃ expired, events = expired ++ unexpired length now events ∧
      ∀ event ∈ expired, event.1 + length ≤ now := by
  refine ⟨events.takeWhile fun event => event.1 + length ≤ now,
    List.takeWhile_append_dropWhile.symm, fun event hevent => ?_⟩
  simpa using List.mem_takeWhile_imp hevent

/-- What has expired at a time does not count at that time or later. -/
theorem within_unexpired {length now later : τ} (hle : now ≤ later) (events : List (τ × Int)) :
    within (fun at' => later < at' + length) (unexpired length now events) =
      within (fun at' => later < at' + length) events := by
  obtain ⟨expired, hsplit, hexpired⟩ := exists_expired length now events
  conv_rhs => rw [hsplit]
  have hzero : within (fun at' => later < at' + length) expired = 0 :=
    within_eq_zero _ fun event hevent => not_lt.mpr ((hexpired event hevent).trans hle)
  rw [within_append, hzero, zero_add]

end

end TimedEvents
