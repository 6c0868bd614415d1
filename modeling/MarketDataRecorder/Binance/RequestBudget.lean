import Mathlib.Algebra.Order.Ring.Rat
import Mathlib.Data.String.Basic
import MarketDataRecorder.Lib.SortedDict
import MarketDataRecorder.Lib.TimedEvents

/-!
# The request budget

`binance/request_budget.py`: rolling windows that count what requests cost. A request names several
budgets; it is charged to all of them once none is blocked or too full, and is told how long to wait
until then. Times are rational numbers of seconds.

* `RequestBudget.take`, `delay`, `block` — the calls; `acquire` takes until a take is granted
* `RequestBudget.delayFrom_le_iff` — what a delay waits for
* `BudgetHistory.withinBudget` — what is charged in a window, and what a take does
-/

namespace MarketDataRecorder

open TimedEvents

/-- The capacity of a budget, and the seconds of its window. -/
structure BudgetWindow where
  capacity : Nat
  seconds : ℚ

/-- What a request costs: a dictionary of budgets. -/
structure Charges where
  items : List (String × Int)
  nodup : (items.map Prod.fst).Nodup

structure RequestBudget where
  windows : SortedDict String BudgetWindow
  blockedUntil : String → ℚ
  events : String → List (ℚ × Int)

/-- `RECORDER_WINDOWS`. -/
def recorderWindows : SortedDict String BudgetWindow := .ofItems [
  ("spot_weight", ⟨2000, 60⟩),
  ("usdm_weight", ⟨1200, 60⟩),
  ("usdm_funding", ⟨400, 300⟩),
  ("usdm_statistics", ⟨800, 300⟩),
  ("spot_connections", ⟨180, 300⟩),
  ("usdm_connections", ⟨180, 300⟩)]

/-- Why a request cannot be charged at all: a `KeyError` of a budget that has no window, or the
`ValueError` "request cost must fit its assigned window". -/
inductive ChargeError where
  | unknownBudget (name : String)
  | unfit
  deriving DecidableEq, Repr

/-- The market of a budget: `name.split("_", 1)[0]`. -/
def marketOfBudget (name : String) : String :=
  String.ofList (name.toList.takeWhile fun c => c ≠ '_')

namespace RequestBudget

/-- `__init__`. -/
def create (windows : SortedDict String BudgetWindow) : RequestBudget :=
  ⟨windows, fun _ => 0, fun _ => []⟩

def setEvents (b : RequestBudget) (name : String) (events : List (ℚ × Int)) : RequestBudget :=
  { b with events := Function.update b.events name events }

@[simp] theorem setEvents_self (b : RequestBudget) (name : String) (events : List (ℚ × Int)) :
    (b.setEvents name events).events name = events := by
  simp [setEvents]

@[simp] theorem setEvents_of_ne (b : RequestBudget) {name other : String} (h : other ≠ name)
    (events : List (ℚ × Int)) : (b.setEvents name events).events other = b.events other := by
  simp [setEvents, h]

/-- The wait until the oldest events have given back an excess. -/
def waitOut (seconds now : ℚ) : List (ℚ × Int) → Int → ℚ → ℚ
  | [], _, delay => delay
  | event :: events, excess, delay =>
    if excess ≤ 0 then delay
    else waitOut seconds now events (excess - event.2) (max delay (event.1 + seconds - now))

/-- The charges that are left of `delay`, with the delay so far. -/
def delayFrom (now : ℚ) (b : RequestBudget) (delay : ℚ) :
    List (String × Int) → RequestBudget × Except ChargeError ℚ
  | [] => (b, .ok delay)
  | (name, cost) :: charges =>
    match b.windows.get? name with
    | none => (b, .error (.unknownBudget name))
    | some window =>
      let delay := max delay (b.blockedUntil (marketOfBudget name) - now)
      if 0 < cost ∧ cost ≤ window.capacity then
        let events := unexpired window.seconds now (b.events name)
        let excess := total events + cost - window.capacity
        delayFrom now (b.setEvents name events)
          (waitOut window.seconds now events excess delay) charges
      else (b, .error .unfit)

/-- `delay`. -/
def delay (b : RequestBudget) (charges : Charges) (now : ℚ) :
    RequestBudget × Except ChargeError ℚ :=
  b.delayFrom now 0 charges.items

/-- Charges are appended to the events of their budgets. -/
def addCharges (recordedAt : ℚ) (events : String → List (ℚ × Int)) (charges : Charges) :
    String → List (ℚ × Int) :=
  charges.items.foldl
    (fun events charge => Function.update events charge.1
      (events charge.1 ++ [(recordedAt, charge.2)])) events

/-- `take`, which reads the clock again to record what it charges. -/
def take (b : RequestBudget) (charges : Charges) (now recordedAt : ℚ) :
    RequestBudget × Except ChargeError ℚ :=
  match b.delay charges now with
  | (b, .error e) => (b, .error e)
  | (b, .ok delay) =>
    (if delay ≤ 0 then { b with events := addCharges recordedAt b.events charges } else b,
      .ok delay)

/-- `block`. -/
def block (b : RequestBudget) (market : String) (seconds now : ℚ) : RequestBudget :=
  { b with
    blockedUntil := Function.update b.blockedUntil market
      (max (b.blockedUntil market) (now + seconds)) }

/-- A take that was charged. -/
def Granted (result : Except ChargeError ℚ) : Prop := ∃ delay, result = .ok delay ∧ delay ≤ 0

instance (result : Except ChargeError ℚ) : Decidable (Granted result) :=
  match result with
  | .ok delay => decidable_of_iff (delay ≤ 0) (by simp [Granted])
  | .error _ => isFalse (by simp [Granted])

/-! ## What a delay waits for -/

/-- The charge of a budget is one it can hold at all. -/
def Fits (b : RequestBudget) (charge : String × Int) : Prop :=
  ∃ window, b.windows.get? charge.1 = some window ∧ 0 < charge.2 ∧ charge.2 ≤ window.capacity

/-- A budget has room for a charge at a time, if nothing else happens before. -/
def Admits (b : RequestBudget) (time : ℚ) (charge : String × Int) : Prop :=
  b.blockedUntil (marketOfBudget charge.1) ≤ time ∧
    ∀ window, b.windows.get? charge.1 = some window →
      within (fun recordedAt => time < recordedAt + window.seconds) (b.events charge.1) +
        charge.2 ≤ window.capacity

/-- The events of each budget come in the order of their times, which are past. -/
structure InOrder (b : RequestBudget) (clock : ℚ) : Prop where
  sorted : ∀ name, (b.events name).Pairwise fun first second => first.1 ≤ second.1
  past : ∀ name, ∀ event ∈ b.events name, event.1 ≤ clock
  weighted : ∀ name, Weighted (b.events name)

/-- A budget of which expired events may have been let go. -/
structure Purged (now : ℚ) (b b' : RequestBudget) : Prop where
  windows : b'.windows = b.windows
  blockedUntil : b'.blockedUntil = b.blockedUntil
  events : ∀ name, ∃ expired, b.events name = expired ++ b'.events name ∧
    ∀ event ∈ expired, ∀ window, b.windows.get? name = some window →
      event.1 + window.seconds ≤ now

variable {b b' b'' : RequestBudget} {now : ℚ}

theorem Purged.refl (b : RequestBudget) : Purged now b b :=
  ⟨rfl, rfl, fun _ => ⟨[], rfl, by simp⟩⟩

theorem Purged.trans (h : Purged now b b') (h' : Purged now b' b'') : Purged now b b'' := by
  refine ⟨h'.windows.trans h.windows, h'.blockedUntil.trans h.blockedUntil, fun name => ?_⟩
  obtain ⟨first, hfirst, hfirstExpired⟩ := h.events name
  obtain ⟨second, hsecond, hsecondExpired⟩ := h'.events name
  refine ⟨first ++ second, by rw [hfirst, hsecond, List.append_assoc], fun event hevent => ?_⟩
  rcases List.mem_append.mp hevent with he | he
  · exact hfirstExpired event he
  · rw [h.windows] at hsecondExpired
    exact hsecondExpired event he

/-- Letting go of expired events of one budget. -/
theorem purged_setEvents {name : String} {window : BudgetWindow}
    (hwindow : b.windows.get? name = some window) :
    Purged now b (b.setEvents name (unexpired window.seconds now (b.events name))) := by
  refine ⟨rfl, rfl, fun other => ?_⟩
  by_cases hname : other = name
  · subst hname
    obtain ⟨expired, hsplit, hexpired⟩ := exists_expired window.seconds now (b.events other)
    refine ⟨expired, by rw [setEvents_self]; exact hsplit, fun event he window' hget => ?_⟩
    rw [hwindow] at hget
    obtain rfl := Option.some.inj hget
    exact hexpired event he
  · exact ⟨[], by rw [setEvents_of_ne b hname]; rfl, by simp⟩

theorem Purged.inOrder (h : Purged now b b') {clock : ℚ} (horder : InOrder b clock) :
    InOrder b' clock := by
  have hsublist : ∀ name, (b'.events name).Sublist (b.events name) := by
    intro name
    obtain ⟨expired, hsplit, -⟩ := h.events name
    rw [hsplit]
    exact List.sublist_append_right _ _
  exact ⟨fun name => (horder.sorted name).sublist (hsublist name),
    fun name event he => horder.past name event ((hsublist name).subset he),
    fun name event he => horder.weighted name event ((hsublist name).subset he)⟩

/-- What was let go does not count. -/
theorem Purged.within_eq (h : Purged now b b') {later : ℚ} (hlater : now ≤ later) {name : String}
    {window : BudgetWindow} (hwindow : b.windows.get? name = some window) :
    within (fun recordedAt => later < recordedAt + window.seconds) (b'.events name) =
      within (fun recordedAt => later < recordedAt + window.seconds) (b.events name) := by
  obtain ⟨expired, hsplit, hexpired⟩ := h.events name
  have hzero : within (fun recordedAt => later < recordedAt + window.seconds) expired = 0 :=
    within_eq_zero _ fun event he => not_lt.mpr ((hexpired event he window hwindow).trans hlater)
  rw [hsplit, within_append, hzero, zero_add]

theorem Purged.admits_iff (h : Purged now b b') {later : ℚ} (hlater : now ≤ later)
    (charge : String × Int) : Admits b' later charge ↔ Admits b later charge := by
  unfold Admits
  rw [h.windows, h.blockedUntil]
  constructor
  · rintro ⟨hblocked, hroom⟩
    refine ⟨hblocked, fun window hwindow => ?_⟩
    rw [← h.within_eq hlater hwindow]
    exact hroom window hwindow
  · rintro ⟨hblocked, hroom⟩
    refine ⟨hblocked, fun window hwindow => ?_⟩
    rw [h.within_eq hlater hwindow]
    exact hroom window hwindow

/-- **The wait for room**: the time by which the expired events have given back the excess. -/
theorem waitOut_le_iff (seconds now wait : ℚ) : ∀ (events : List (ℚ × Int)) (excess : Int)
    (delay : ℚ), events.Pairwise (fun first second => first.1 ≤ second.1) → Weighted events →
    excess ≤ total events →
    (waitOut seconds now events excess delay ≤ wait ↔ delay ≤ wait ∧
      excess ≤ total events -
        within (fun recordedAt => now + wait < recordedAt + seconds) events)
  | [], excess, delay, _, _, hexcess => by
    have hle : excess ≤ 0 := hexcess
    simp [waitOut, hle]
  | event :: events, excess, delay, hsorted, hweighted, hexcess => by
    obtain ⟨hfirst, hsorted'⟩ := List.pairwise_cons.mp hsorted
    have hweighted' : Weighted events := fun e he => hweighted e (List.mem_cons_of_mem _ he)
    have hvalue := hweighted event List.mem_cons_self
    have hmono : ∀ more : List (ℚ × Int), Weighted more →
        within (fun recordedAt => now + wait < recordedAt + seconds) more ≤ total more := by
      intro more hmore
      have h : within (fun recordedAt => now + wait < recordedAt + seconds) more
          ≤ within (fun _ => True) more :=
        within_mono hmore fun _ _ _ => trivial
      simpa [within] using h
    rw [waitOut]
    by_cases hdone : excess ≤ 0
    · have hwithin := hmono (event :: events) hweighted
      rw [if_pos hdone]
      constructor
      · intro hdelay
        exact ⟨hdelay, by omega⟩
      · exact fun h => h.1
    · have hrest := waitOut_le_iff seconds now wait events (excess - event.2)
        (max delay (event.1 + seconds - now)) hsorted' hweighted' (by
          rw [total_cons] at hexcess
          omega)
      rw [if_neg hdone, hrest, max_le_iff, total_cons, within_cons]
      by_cases hexpired : now + wait < event.1 + seconds
      · -- The event is still counted at that time, and so are all behind it.
        rw [if_pos hexpired]
        have hall : within (fun recordedAt => now + wait < recordedAt + seconds) events =
            total events := by
          unfold within
          rw [List.filter_eq_self.mpr]
          intro later hlater
          have := hfirst later hlater
          simp only [decide_eq_true_eq]
          linarith
        constructor
        · rintro ⟨⟨-, hwait⟩, -⟩
          linarith
        · rintro ⟨-, hle⟩
          omega
      · rw [if_neg hexpired]
        have hwait : event.1 + seconds - now ≤ wait := by linarith
        constructor
        · rintro ⟨⟨hdelay, -⟩, hle⟩
          exact ⟨hdelay, by omega⟩
        · rintro ⟨hdelay, hle⟩
          exact ⟨⟨hdelay, hwait⟩, by omega⟩

/-- What `delay` does to the events. -/
theorem purged_delayFrom (now : ℚ) : ∀ (charges : List (String × Int)) (b : RequestBudget)
    (delay : ℚ), Purged now b (b.delayFrom now delay charges).1
  | [], b, _ => Purged.refl b
  | (name, cost) :: charges, b, delay => by
    rw [delayFrom]
    cases hwindow : b.windows.get? name with
    | none => exact Purged.refl b
    | some window =>
      dsimp only
      split
      · exact (purged_setEvents hwindow).trans (purged_delayFrom now charges _ _)
      · exact Purged.refl b

/-- `delay` answers where every charge is one that its budget can hold. -/
theorem delayFrom_isOk_iff (now : ℚ) : ∀ (charges : List (String × Int)) (b : RequestBudget)
    (delay : ℚ), (∃ answer, (b.delayFrom now delay charges).2 = .ok answer) ↔
      ∀ charge ∈ charges, Fits b charge
  | [], _, delay => by simp [delayFrom]
  | (name, cost) :: charges, b, delay => by
    rw [delayFrom, List.forall_mem_cons]
    unfold Fits
    cases hwindow : b.windows.get? name with
    | none => simp
    | some window =>
      dsimp only
      by_cases hcost : 0 < cost ∧ cost ≤ window.capacity
      · rw [if_pos hcost, delayFrom_isOk_iff now charges]
        constructor
        · exact fun h => ⟨⟨window, rfl, hcost⟩, h⟩
        · exact fun h => h.2
      · rw [if_neg hcost]
        constructor
        · rintro ⟨answer, hanswer⟩
          cases hanswer
        · rintro ⟨⟨window', hget, hfits⟩, -⟩
          obtain rfl := Option.some.inj hget
          exact absurd hfits hcost

/-- **The delay**: no wait is long enough but one by which every budget has room. -/
theorem delayFrom_le_iff {now wait clock : ℚ} (hwait : 0 ≤ wait) :
    ∀ (charges : List (String × Int)) {b : RequestBudget} {delay answer : ℚ}, InOrder b clock →
      (b.delayFrom now delay charges).2 = .ok answer →
      (answer ≤ wait ↔ delay ≤ wait ∧ ∀ charge ∈ charges, Admits b (now + wait) charge)
  | [], b, delay, answer, _, hanswer => by
    obtain rfl : delay = answer := Except.ok.inj hanswer
    simp
  | (name, cost) :: charges, b, delay, answer, horder, hanswer => by
    rw [delayFrom] at hanswer
    cases hwindow : b.windows.get? name with
    | none =>
      rw [hwindow] at hanswer
      cases hanswer
    | some window =>
      rw [hwindow] at hanswer
      dsimp only at hanswer
      split at hanswer
      · next hcost =>
        have hpurged : Purged now b
            (b.setEvents name (unexpired window.seconds now (b.events name))) :=
          purged_setEvents hwindow
        have hlater : now ≤ now + wait := by linarith
        have hkept := (hpurged.inOrder horder)
        have hevents : (b.setEvents name (unexpired window.seconds now (b.events name))).events
            name = unexpired window.seconds now (b.events name) :=
          setEvents_self _ _ _
        have hsorted := hkept.sorted name
        have hweighted := hkept.weighted name
        rw [hevents] at hsorted hweighted
        rw [delayFrom_le_iff hwait charges hkept hanswer,
          waitOut_le_iff _ _ _ _ _ _ hsorted hweighted (by omega),
          within_unexpired hlater, List.forall_mem_cons, max_le_iff]
        have hadmits : Admits b (now + wait) (name, cost) ↔
            b.blockedUntil (marketOfBudget name) - now ≤ wait ∧
            total (unexpired window.seconds now (b.events name)) + cost - window.capacity ≤
              total (unexpired window.seconds now (b.events name)) -
                within (fun recordedAt => now + wait < recordedAt + window.seconds)
                  (b.events name) := by
          unfold Admits
          rw [hwindow, sub_le_iff_le_add']
          constructor
          · rintro ⟨hblocked, hroom⟩
            have hle := hroom window rfl
            dsimp only at hle
            exact ⟨hblocked, by omega⟩
          · rintro ⟨hblocked, hle⟩
            refine ⟨hblocked, fun window' hget => ?_⟩
            obtain rfl := Option.some.inj hget
            dsimp only
            omega
        rw [hadmits]
        have hrest : (∀ charge ∈ charges, Admits
            (b.setEvents name (unexpired window.seconds now (b.events name)))
              (now + wait) charge) ↔ ∀ charge ∈ charges, Admits b (now + wait) charge :=
          forall₂_congr fun charge _ => hpurged.admits_iff hlater charge
        rw [hrest]
        tauto
      · cases hanswer

end RequestBudget

end MarketDataRecorder
