import Mathlib.Data.Nat.Find
import Mathlib.Order.WellFounded

/-!
# Months

The months of the Gregorian calendar, counted from January 1970, and the days they begin at, counted
from the first of that month.

* `start` — the day a month begins at
* `monthOf` — the month of a day
-/

namespace MonthCalendar

def isLeap (year : Nat) : Bool := year % 4 = 0 && (year % 100 ≠ 0 || year % 400 = 0)

/-- How many days a month has. -/
def days (month : Nat) : Nat :=
  match month % 12 with
  | 1 => if isLeap (1970 + month / 12) then 29 else 28
  | 3 => 30
  | 5 => 30
  | 8 => 30
  | 10 => 30
  | _ => 31

def start : Nat → Nat
  | 0 => 0
  | month + 1 => start month + days month

def monthOf (day : Nat) : Nat := Nat.findGreatest (fun month => start month ≤ day) day

theorem days_pos (month : Nat) : 0 < days month := by
  rw [days]
  split
  · split <;> decide
  all_goals decide

theorem start_strictMono : StrictMono start := by
  refine strictMono_nat_of_lt_succ fun month => ?_
  rw [start]
  have := days_pos month
  omega

theorem start_monthOf_le (day : Nat) : start (monthOf day) ≤ day :=
  Nat.findGreatest_spec (P := fun month => start month ≤ day) (Nat.zero_le day) (Nat.zero_le day)

/-- The month of the day it begins at is the month. -/
theorem monthOf_start (month : Nat) : monthOf (start month) = month := by
  refine le_antisymm ?_ ?_
  · exact start_strictMono.le_iff_le.mp (start_monthOf_le (start month))
  · exact Nat.le_findGreatest start_strictMono.le_apply le_rfl

/-- March 2024, behind the 29th of February. -/
example : start 650 = 19783 := by decide +kernel

end MonthCalendar
