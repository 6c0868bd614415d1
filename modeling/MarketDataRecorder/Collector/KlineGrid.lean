import Mathlib.Data.Nat.ModEq
import MarketDataRecorder.Lib.MonthCalendar

/-!
# Where bars open

The open times of the bars of a source, and `_next_kline_open_time_ms` of `collector/coverage.py`,
which goes from one to the next: by a period, or to the first of the next month, in UTC or in UTC+8.

* `BarGrid` — open times with a step to the next
* `klineGrid` — the open times of an interval
-/

namespace MarketDataRecorder

/-! ## Grids -/

/-- Open times, with a step that leads from one to the next, where there is a next. -/
structure BarGrid where
  opens : Nat → Prop
  next : Nat → Option Nat
  opens_next : ∀ {t u}, opens t → next t = some u → opens u
  lt_next : ∀ {t u}, opens t → next t = some u → t < u
  next_le : ∀ {t u v}, opens t → next t = some u → opens v → t < v → u ≤ v

/-! ## Intervals -/

/-- `SPOT_INTERVALS`. -/
inductive KlineInterval where
  | s1
  | m1
  | m3
  | m5
  | m15
  | m30
  | h1
  | h2
  | h4
  | h6
  | h8
  | h12
  | d1
  | d3
  | w1
  | month1
  deriving DecidableEq, Repr

namespace KlineInterval

/-- `bar_period_seconds`. -/
def barPeriodSeconds : KlineInterval → Nat
  | s1 => 1
  | m1 => 60
  | m3 => 3 * 60
  | m5 => 5 * 60
  | m15 => 15 * 60
  | m30 => 30 * 60
  | h1 => 3600
  | h2 => 2 * 3600
  | h4 => 4 * 3600
  | h6 => 6 * 3600
  | h8 => 8 * 3600
  | h12 => 12 * 3600
  | d1 => 86400
  | d3 => 3 * 86400
  | w1 => 604800
  | month1 => 31 * 86400

def periodMs (interval : KlineInterval) : Nat := interval.barPeriodSeconds * 1000

theorem periodMs_pos (interval : KlineInterval) : 0 < interval.periodMs := by
  cases interval <;> decide

end KlineInterval

/-! ## The next bar -/

def dayMs : Nat := 86400000

/-- `timedelta(hours=8 if utc8 else 0)`. -/
def openOffsetMs (utc8 : Bool) : Nat := if utc8 then 8 * 3600000 else 0

/-- The months that `datetime` has: up to the end of the year 9999. -/
def datetimeMonths : Nat := (10000 - 1970) * 12

/-- The first of the next month, at the same time of the day. -/
def nextMonthOpenTimeMs (utc8 : Bool) (openTimeMs : Nat) : Option Nat :=
  let opened := openTimeMs + openOffsetMs utc8
  let following := MonthCalendar.monthOf (opened / dayMs) + 1
  if following < datetimeMonths then
    some (MonthCalendar.start following * dayMs + opened % dayMs - openOffsetMs utc8)
  else none

/-- `_next_kline_open_time_ms`; it raises where `datetime` ends. -/
def nextKlineOpenTimeMs (interval : KlineInterval) (utc8 : Bool) (openTimeMs : Nat) : Option Nat :=
  if interval ≠ .month1 then some (openTimeMs + interval.periodMs)
  else nextMonthOpenTimeMs utc8 openTimeMs

/-! ## The grid of a source -/

/-- The bars of a period open at a distance of whole periods from some bar. -/
def periodGrid (period phase : Nat) (hperiod : 0 < period) : BarGrid where
  opens t := t % period = phase % period
  next t := some (t + period)
  opens_next := by
    rintro t u ht ⟨⟩
    rw [Nat.add_mod_right, ht]
  lt_next := by
    rintro t u - ⟨⟩
    omega
  next_le := by
    rintro t u v ht ⟨⟩ hv hlt
    -- both lie on whole periods, so they are a period apart
    have hdvd : period ∣ v - t := (Nat.modEq_iff_dvd' hlt.le).mp (ht.trans hv.symm)
    have := Nat.le_of_dvd (by omega) hdvd
    omega

theorem nextMonthOpenTimeMs_start {utc8 : Bool} {t u month : Nat}
    (ht : t + openOffsetMs utc8 = MonthCalendar.start month * dayMs)
    (h : nextMonthOpenTimeMs utc8 t = some u) :
    u + openOffsetMs utc8 = MonthCalendar.start (month + 1) * dayMs := by
  have hday : (t + openOffsetMs utc8) / dayMs = MonthCalendar.start month := by
    rw [ht, Nat.mul_div_cancel _ (by decide)]
  have htime : (t + openOffsetMs utc8) % dayMs = 0 := by
    rw [ht, Nat.mul_mod_left]
  have hlater : openOffsetMs utc8 ≤ MonthCalendar.start (month + 1) * dayMs := by
    have hday := MonthCalendar.start_strictMono (Nat.lt_add_one month)
    have hoffset : openOffsetMs utc8 ≤ dayMs := by cases utc8 <;> decide
    calc openOffsetMs utc8 ≤ 1 * dayMs := by rw [one_mul]; exact hoffset
      _ ≤ MonthCalendar.start (month + 1) * dayMs := Nat.mul_le_mul_right _ (by omega)
  simp only [nextMonthOpenTimeMs, hday, htime, MonthCalendar.monthOf_start, add_zero] at h
  split at h
  · cases h
    omega
  · cases h

/-- The bars of a month open on its first day. -/
def monthGrid (utc8 : Bool) : BarGrid where
  opens t := ∃ month, t + openOffsetMs utc8 = MonthCalendar.start month * dayMs
  next := nextMonthOpenTimeMs utc8
  opens_next := by
    rintro t u ⟨month, ht⟩ h
    exact ⟨month + 1, nextMonthOpenTimeMs_start ht h⟩
  lt_next := by
    rintro t u ⟨month, ht⟩ h
    have hu := nextMonthOpenTimeMs_start ht h
    have hlater := Nat.mul_lt_mul_of_pos_right
      (MonthCalendar.start_strictMono (Nat.lt_add_one month))
      (show 0 < dayMs by decide)
    omega
  next_le := by
    rintro t u v ⟨month, ht⟩ h ⟨month', hv⟩ hlt
    have hu := nextMonthOpenTimeMs_start ht h
    have hmonth : month < month' := by
      refine MonthCalendar.start_strictMono.lt_iff_lt.mp ?_
      refine Nat.lt_of_mul_lt_mul_right (a := dayMs) ?_
      omega
    have hle := Nat.mul_le_mul_right dayMs (MonthCalendar.start_strictMono.monotone
      (show month + 1 ≤ month' from hmonth))
    omega

/-- The open times of the bars of an interval. -/
def klineGrid (interval : KlineInterval) (utc8 : Bool) (phase : Nat) : BarGrid :=
  if interval ≠ .month1 then periodGrid interval.periodMs phase interval.periodMs_pos
  else monthGrid utc8

theorem next_klineGrid (interval : KlineInterval) (utc8 : Bool) (phase : Nat) :
    (klineGrid interval utc8 phase).next = nextKlineOpenTimeMs interval utc8 := by
  funext t
  rw [klineGrid, nextKlineOpenTimeMs]
  split <;> rfl

end MarketDataRecorder
