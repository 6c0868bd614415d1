import MarketDataRecorder.Binance.RequestBudget

/-!
# Runs of a request budget

Takes, delays and blocks in any order, under a clock that does not go back. What was charged is kept
beside the budget, which lets go of it in time; an `acquire` is the takes that it makes, and a
`wait_ready` the delays that it asks for.

* `BudgetHistory.Lawful` — what holds after any calls
* `BudgetHistory.withinBudget` — what is charged in a window, and what one more take does
-/

namespace MarketDataRecorder

open TimedEvents

namespace RequestBudget

/-- The events that charges make for a budget. -/
def costsOf (charges : Charges) (recordedAt : ℚ) (name : String) : List (ℚ × Int) :=
  (charges.items.filter fun charge => charge.1 = name).map fun charge => (recordedAt, charge.2)

theorem foldl_addCharges (recordedAt : ℚ) (name : String) :
    ∀ (items : List (String × Int)) (events : String → List (ℚ × Int)),
      items.foldl (fun events charge => Function.update events charge.1
        (events charge.1 ++ [(recordedAt, charge.2)])) events name =
      events name ++ (items.filter fun charge => charge.1 = name).map
        fun charge => (recordedAt, charge.2)
  | [], events => by simp
  | charge :: items, events => by
    rw [List.foldl_cons, foldl_addCharges]
    by_cases hname : charge.1 = name
    · subst hname
      simp
    · have hne : name ≠ charge.1 := fun h => hname h.symm
      simp [hname, hne]

theorem addCharges_apply (recordedAt : ℚ) (events : String → List (ℚ × Int)) (charges : Charges)
    (name : String) :
    addCharges recordedAt events charges name = events name ++ costsOf charges recordedAt name :=
  foldl_addCharges recordedAt name charges.items events

/-- A request costs a budget at most once. -/
theorem costsOf_cases (charges : Charges) (recordedAt : ℚ) (name : String) :
    costsOf charges recordedAt name = [] ∨
      ∃ cost, (name, cost) ∈ charges.items ∧
        costsOf charges recordedAt name = [(recordedAt, cost)] := by
  obtain ⟨items, hnodup⟩ := charges
  unfold costsOf
  induction items with
  | nil => exact .inl rfl
  | cons charge items ih =>
    rw [List.map_cons, List.nodup_cons] at hnodup
    by_cases hname : charge.1 = name
    · subst hname
      have hrest : items.filter (fun other => other.1 = charge.1) = [] := by
        rw [List.filter_eq_nil_iff]
        intro other hother
        simp only [decide_eq_true_eq]
        exact fun h => hnodup.1 (h ▸ List.mem_map_of_mem hother)
      exact .inr ⟨charge.2, List.mem_cons_self, by simp [hrest]⟩
    · rcases ih hnodup.2 with hnone | ⟨cost, hmem, hone⟩
      · exact .inl (by simpa [hname] using hnone)
      · exact .inr ⟨cost, List.mem_cons_of_mem _ hmem, by simpa [hname] using hone⟩

/-! ## Takes -/

variable {b : RequestBudget} {now clock : ℚ}

/-- A take is granted where every budget has room for its charge. -/
theorem granted_delay_iff {charges : Charges} (horder : InOrder b clock) :
    Granted (b.delay charges now).2 ↔
      (∀ charge ∈ charges.items, Fits b charge) ∧
        ∀ charge ∈ charges.items, Admits b now charge := by
  unfold Granted delay
  rw [← delayFrom_isOk_iff now charges.items b 0]
  constructor
  · rintro ⟨answer, hanswer, hle⟩
    have h := (delayFrom_le_iff (le_refl 0) charges.items horder hanswer).mp hle
    rw [add_zero] at h
    exact ⟨⟨answer, hanswer⟩, h.2⟩
  · rintro ⟨⟨answer, hanswer⟩, hadmits⟩
    refine ⟨answer, hanswer, ?_⟩
    rw [delayFrom_le_iff (le_refl 0) charges.items horder hanswer, add_zero]
    exact ⟨le_refl _, hadmits⟩

theorem take_snd (charges : Charges) (now recordedAt : ℚ) :
    (b.take charges now recordedAt).2 = (b.delay charges now).2 := by
  unfold take
  split
  · next hdelay => rw [hdelay]
  · next hdelay => rw [hdelay]

/-- **A take charges all of its budgets or none.** -/
theorem take_fst (charges : Charges) (now recordedAt : ℚ) :
    (b.take charges now recordedAt).1 =
      if Granted (b.delay charges now).2 then
        { (b.delay charges now).1 with
          events := addCharges recordedAt (b.delay charges now).1.events charges }
      else (b.delay charges now).1 := by
  unfold take
  split
  · next hdelay =>
    rw [hdelay, if_neg (by simp [Granted])]
  · next after answer hdelay =>
    rw [hdelay]
    by_cases hle : answer ≤ 0
    · rw [if_pos hle, if_pos ⟨answer, rfl, hle⟩]
    · have hrefused : ¬ Granted (.ok answer) := by
        rintro ⟨answer', heq, hle'⟩
        obtain rfl := Except.ok.inj heq
        exact hle hle'
      rw [if_neg hle, if_neg hrefused]

/-- **The wait after a refusal** is the least one after which the same take is granted. -/
theorem isLeast_delay {charges : Charges} {recordedAt answer : ℚ} (horder : InOrder b clock)
    (hanswer : (b.take charges now recordedAt).2 = .ok answer) (hrefused : 0 < answer) :
    IsLeast {wait | 0 ≤ wait ∧ Granted
      ((b.take charges now recordedAt).1.take charges (now + wait) (now + wait)).2} answer := by
  rw [take_snd] at hanswer
  have hnot : ¬ Granted (b.delay charges now).2 := by
    rintro ⟨answer', hanswer', hle⟩
    rw [hanswer] at hanswer'
    obtain rfl := Except.ok.inj hanswer'
    exact absurd hle (not_le.mpr hrefused)
  rw [take_fst, if_neg hnot]
  have hpurged : Purged now b (b.delay charges now).1 := purged_delayFrom now charges.items b 0
  have hfits : ∀ charge ∈ charges.items, Fits b charge :=
    (delayFrom_isOk_iff now charges.items b 0).mp ⟨answer, hanswer⟩
  have hgranted : ∀ wait, 0 ≤ wait →
      (Granted ((b.delay charges now).1.take charges (now + wait) (now + wait)).2 ↔
        answer ≤ wait) := by
    intro wait hwait
    have hfits' : ∀ charge ∈ charges.items, Fits (b.delay charges now).1 charge := by
      unfold Fits
      rw [hpurged.windows]
      exact hfits
    rw [take_snd, granted_delay_iff (hpurged.inOrder horder),
      delayFrom_le_iff hwait charges.items horder hanswer]
    constructor
    · rintro ⟨-, hadmits⟩
      exact ⟨hwait, fun charge hcharge =>
        (hpurged.admits_iff (by linarith) charge).mp (hadmits charge hcharge)⟩
    · rintro ⟨-, hadmits⟩
      exact ⟨hfits', fun charge hcharge =>
        (hpurged.admits_iff (by linarith) charge).mpr (hadmits charge hcharge)⟩
  constructor
  · exact ⟨hrefused.le, (hgranted answer hrefused.le).mpr (le_refl _)⟩
  · rintro wait ⟨hwait, hgrant⟩
    exact (hgranted wait hwait).mp hgrant

end RequestBudget

/-! ## Runs -/

inductive BudgetCall where
  | take (charges : Charges) (now recordedAt : ℚ)
  | delay (charges : Charges) (now : ℚ)
  | block (market : String) (seconds now : ℚ)

/-- The times that a call reads from the clock. -/
def BudgetCall.reads : BudgetCall → List ℚ
  | .take _ now recordedAt => [now, recordedAt]
  | .delay _ now => [now]
  | .block _ _ now => [now]

/-- A budget, with everything that was charged to it. -/
structure BudgetHistory where
  budget : RequestBudget
  recorded : String → List (ℚ × Int)

namespace BudgetHistory

open RequestBudget

def fresh (windows : SortedDict String BudgetWindow) : BudgetHistory :=
  ⟨RequestBudget.create windows, fun _ => []⟩

def step (h : BudgetHistory) : BudgetCall → BudgetHistory
  | .take charges now recordedAt =>
    let (budget, result) := h.budget.take charges now recordedAt
    ⟨budget, if Granted result then addCharges recordedAt h.recorded charges else h.recorded⟩
  | .delay charges now => ⟨(h.budget.delay charges now).1, h.recorded⟩
  | .block market seconds now => ⟨h.budget.block market seconds now, h.recorded⟩

def run (h : BudgetHistory) (calls : List BudgetCall) : BudgetHistory := calls.foldl step h

/-- No span shorter than the window holds more than the capacity. -/
def WindowLaw (window : BudgetWindow) (recorded : List (ℚ × Int)) : Prop :=
  ∀ (span : ℚ → Prop) [DecidablePred span],
    (∀ first last, span first → span last → last < first + window.seconds) →
      within span recorded ≤ window.capacity

/-- What holds after any calls, by a time. -/
structure Lawful (windows : SortedDict String BudgetWindow) (clock : ℚ) (h : BudgetHistory) :
    Prop where
  configured : h.budget.windows = windows
  order : InOrder h.budget clock
  weighted : ∀ name, Weighted (h.recorded name)
  kept : ∀ name, ∃ expired, h.recorded name = expired ++ h.budget.events name ∧
    ∀ event ∈ expired, ∀ window, windows.get? name = some window →
      event.1 + window.seconds ≤ clock
  law : ∀ name window, windows.get? name = some window → WindowLaw window (h.recorded name)

variable {windows : SortedDict String BudgetWindow} {clock now recordedAt : ℚ} {h : BudgetHistory}

theorem lawful_fresh (windows : SortedDict String BudgetWindow) (clock : ℚ) :
    Lawful windows clock (fresh windows) where
  configured := rfl
  order := ⟨fun _ => .nil, fun _ _ h => absurd h List.not_mem_nil,
    fun _ _ h => absurd h List.not_mem_nil⟩
  weighted := fun _ _ h => absurd h List.not_mem_nil
  kept := fun _ => ⟨[], rfl, fun _ h => absurd h List.not_mem_nil⟩
  law := by
    intro name window _ span _ _
    simp [fresh]

/-- Expired events may be let go as time goes on. -/
theorem Lawful.purged (hl : Lawful windows clock h) (hclock : clock ≤ now) {b : RequestBudget}
    (hpurged : Purged now h.budget b) : Lawful windows now ⟨b, h.recorded⟩ := by
  have horder := hpurged.inOrder hl.order
  refine ⟨hpurged.windows.trans hl.configured, ⟨horder.sorted, fun name event he =>
    (horder.past name event he).trans hclock, horder.weighted⟩, hl.weighted, fun name => ?_, hl.law⟩
  obtain ⟨first, hfirst, hfirstExpired⟩ := hl.kept name
  obtain ⟨second, hsecond, hsecondExpired⟩ := hpurged.events name
  refine ⟨first ++ second, by rw [hfirst, hsecond, List.append_assoc], ?_⟩
  rintro event hevent window hwindow
  rcases List.mem_append.mp hevent with he | he
  · exact (hfirstExpired event he window hwindow).trans hclock
  · exact hsecondExpired event he window (by rw [hl.configured]; exact hwindow)

theorem Lawful.mono (hl : Lawful windows clock h) (hclock : clock ≤ now) : Lawful windows now h :=
  hl.purged hclock (Purged.refl _)

/-- What was let go of a budget has left its window. -/
theorem Lawful.within_recorded (hl : Lawful windows now h) {name : String} {window : BudgetWindow}
    (hwindow : windows.get? name = some window) :
    within (fun at' => now < at' + window.seconds) (h.recorded name) =
      within (fun at' => now < at' + window.seconds) (h.budget.events name) := by
  obtain ⟨expired, hsplit, hexpired⟩ := hl.kept name
  have hzero : within (fun at' => now < at' + window.seconds) expired = 0 :=
    within_eq_zero _ fun event he => not_lt.mpr (hexpired event he window hwindow)
  rw [hsplit, within_append, hzero, zero_add]

/-- The law of a window goes on where there is room for a charge. -/
theorem WindowLaw.concat {window : BudgetWindow} {recorded : List (ℚ × Int)} {cost : Int}
    (hlaw : WindowLaw window recorded) (hweighted : Weighted recorded)
    (hroom : within (fun at' => now < at' + window.seconds) recorded + cost ≤ window.capacity)
    (hclock : now ≤ recordedAt) : WindowLaw window (recorded ++ [(recordedAt, cost)]) := by
  intro span _ hspan
  rw [within_append, within_cons, within_nil, add_zero]
  by_cases hin : span recordedAt
  · have hle : within span recorded ≤
        within (fun at' => now < at' + window.seconds) recorded :=
      within_mono hweighted fun event _ hevent =>
        hclock.trans_lt (hspan event.1 recordedAt hevent hin)
    rw [if_pos hin]
    omega
  · rw [if_neg hin, add_zero]
    exact hlaw span hspan

/-- **A charge** that every budget has room for. -/
theorem Lawful.charged (hl : Lawful windows now h) (hclock : now ≤ recordedAt) {charges : Charges}
    (hfits : ∀ charge ∈ charges.items, Fits h.budget charge)
    (hadmits : ∀ charge ∈ charges.items, Admits h.budget now charge) :
    Lawful windows recordedAt
      ⟨{ h.budget with events := addCharges recordedAt h.budget.events charges },
        addCharges recordedAt h.recorded charges⟩ := by
  -- A budget is charged once at most, and by no more than it holds.
  have hcosts : ∀ name, Weighted (costsOf charges recordedAt name) := by
    intro name event hevent
    rcases costsOf_cases charges recordedAt name with hnone | ⟨cost, hmem, hone⟩
    · rw [hnone] at hevent
      cases hevent
    · rw [hone, List.mem_singleton] at hevent
      obtain ⟨_, -, hpos, -⟩ := hfits _ hmem
      rw [hevent]
      exact le_of_lt hpos
  refine ⟨hl.configured, ⟨?_, ?_, ?_⟩, ?_, ?_, ?_⟩
  · intro name
    dsimp only
    rw [addCharges_apply]
    rcases costsOf_cases charges recordedAt name with hnone | ⟨cost, -, hone⟩
    · rw [hnone, List.append_nil]
      exact hl.order.sorted name
    · rw [hone, List.pairwise_append]
      refine ⟨hl.order.sorted name, List.pairwise_singleton _ _, fun event he last hlast => ?_⟩
      rw [List.mem_singleton.mp hlast]
      exact (hl.order.past name event he).trans hclock
  · intro name event he
    dsimp only at he
    rw [addCharges_apply] at he
    rcases List.mem_append.mp he with he | he
    · exact (hl.order.past name event he).trans hclock
    · obtain ⟨charge, -, rfl⟩ := List.mem_map.mp he
      exact le_refl _
  · intro name
    dsimp only
    rw [addCharges_apply]
    exact (hl.order.weighted name).append (hcosts name)
  · intro name
    dsimp only
    rw [addCharges_apply]
    exact (hl.weighted name).append (hcosts name)
  · intro name
    obtain ⟨expired, hsplit, hexpired⟩ := hl.kept name
    refine ⟨expired, ?_, fun event he window hwindow =>
      (hexpired event he window hwindow).trans hclock⟩
    dsimp only
    rw [addCharges_apply, addCharges_apply, hsplit, List.append_assoc]
  · intro name window hwindow
    dsimp only
    rw [addCharges_apply]
    rcases costsOf_cases charges recordedAt name with hnone | ⟨cost, hmem, hone⟩
    · rw [hnone, List.append_nil]
      exact hl.law name window hwindow
    · rw [hone]
      have hroom := (hadmits _ hmem).2 window (by rw [hl.configured]; exact hwindow)
      refine (hl.law name window hwindow).concat (hl.weighted name) ?_ hclock
      rw [hl.within_recorded hwindow]
      exact hroom

/-! ## Steps -/

/-- A take, at a time and with a later one to record its charges. -/
theorem Lawful.take (hl : Lawful windows clock h) (hnow : clock ≤ now)
    (hrecorded : now ≤ recordedAt) (charges : Charges) :
    Lawful windows recordedAt (h.step (.take charges now recordedAt)) := by
  have hpurged : Purged now h.budget (h.budget.delay charges now).1 :=
    purged_delayFrom now charges.items h.budget 0
  have hl' := hl.purged hnow hpurged
  simp only [step]
  rw [take_snd, take_fst]
  by_cases hgranted : Granted (h.budget.delay charges now).2
  · rw [if_pos hgranted, if_pos hgranted]
    obtain ⟨hfits, hadmits⟩ := (granted_delay_iff hl.order).mp hgranted
    refine hl'.charged hrecorded ?_ ?_
    · unfold Fits
      rw [hpurged.windows]
      exact hfits
    · exact fun charge hcharge => (hpurged.admits_iff (le_refl _) charge).mpr
        (hadmits charge hcharge)
  · rw [if_neg hgranted, if_neg hgranted]
    exact hl'.mono hrecorded

theorem Lawful.block (hl : Lawful windows clock h) (market : String) (seconds now : ℚ) :
    Lawful windows clock (h.step (.block market seconds now)) :=
  ⟨hl.configured, ⟨hl.order.sorted, hl.order.past, hl.order.weighted⟩, hl.weighted, hl.kept, hl.law⟩

/-- One call. -/
theorem Lawful.step {call : BudgetCall} {more : List ℚ} (hl : Lawful windows clock h)
    (hclock : (clock :: (call.reads ++ more)).Pairwise (· ≤ ·)) :
    ∃ clock', Lawful windows clock' (h.step call) ∧ (clock' :: more).Pairwise (· ≤ ·) := by
  cases call with
  | take charges now recordedAt =>
    obtain ⟨hle, htail⟩ := List.pairwise_cons.mp hclock
    obtain ⟨hle', htail'⟩ := List.pairwise_cons.mp htail
    exact ⟨recordedAt, hl.take (hle now List.mem_cons_self)
      (hle' recordedAt List.mem_cons_self) charges, htail'⟩
  | delay charges now =>
    obtain ⟨hle, htail⟩ := List.pairwise_cons.mp hclock
    exact ⟨now, hl.purged (hle now List.mem_cons_self)
      (purged_delayFrom now charges.items h.budget 0), htail⟩
  | block market seconds now =>
    obtain ⟨hle, htail⟩ := List.pairwise_cons.mp hclock
    exact ⟨now, (hl.block market seconds now).mono (hle now List.mem_cons_self), htail⟩

/-- Any calls. -/
theorem Lawful.run : ∀ (calls : List BudgetCall) {h : BudgetHistory} {clock : ℚ} {more : List ℚ},
    Lawful windows clock h →
    (clock :: (calls.flatMap BudgetCall.reads ++ more)).Pairwise (· ≤ ·) →
    ∃ clock', Lawful windows clock' (h.run calls) ∧ (clock' :: more).Pairwise (· ≤ ·)
  | [], h, clock, more, hl, hclock => ⟨clock, hl, hclock⟩
  | call :: calls, h, clock, more, hl, hclock => by
    rw [List.flatMap_cons, List.append_assoc] at hclock
    obtain ⟨clock', hl', hclock'⟩ := hl.step hclock
    exact Lawful.run calls hl' hclock'

/-- **The budget is kept.** After any calls under a clock that does not go back, no window of a
budget holds more charges than its capacity; one more take charges all of its budgets or none; and
where it is refused, it is told the least time after which it would be granted. -/
theorem withinBudget (windows : SortedDict String BudgetWindow) (calls : List BudgetCall)
    (charges : Charges) (now recordedAt : ℚ)
    (hclock : ((calls ++ [BudgetCall.take charges now recordedAt]).flatMap
    BudgetCall.reads).Pairwise
      (· ≤ ·)) :
    let h := (fresh windows).run calls
    let result := h.budget.take charges now recordedAt
    (∀ name window, windows.get? name = some window → ∀ start,
      within (fun at' => start ≤ at' ∧ at' < start + window.seconds) (h.recorded name) ≤
          window.capacity ∧
        within (fun at' => start < at' ∧ at' ≤ start + window.seconds) (h.recorded name) ≤
          window.capacity) ∧
    (∃ kept, Purged now h.budget kept ∧ ∀ name, result.1.events name = kept.events name ++
      if Granted result.2 then costsOf charges recordedAt name else []) ∧
    ∀ delay, result.2 = .ok delay → 0 < delay →
      IsLeast {wait | 0 ≤ wait ∧
        Granted (result.1.take charges (now + wait) (now + wait)).2} delay := by
  intro h result
  rw [List.flatMap_append] at hclock
  obtain ⟨clock, hl⟩ : ∃ clock, Lawful windows clock h := by
    cases hreads : calls.flatMap BudgetCall.reads ++
        [BudgetCall.take charges now recordedAt].flatMap BudgetCall.reads with
    | nil => simp [BudgetCall.reads] at hreads
    | cons first rest =>
      have hfirst : (first :: (calls.flatMap BudgetCall.reads ++
          [BudgetCall.take charges now recordedAt].flatMap BudgetCall.reads)).Pairwise
            (· ≤ ·) := by
        rw [List.pairwise_cons]
        refine ⟨fun time htime => ?_, hclock⟩
        rw [hreads] at hclock htime
        rcases List.mem_cons.mp htime with rfl | htime
        · exact le_refl _
        · exact (List.pairwise_cons.mp hclock).1 time htime
      obtain ⟨clock, hl, -⟩ := Lawful.run calls (lawful_fresh windows first) hfirst
      exact ⟨clock, hl⟩
  refine ⟨fun name window hwindow start => ?_, ?_, ?_⟩
  · have hlaw := hl.law name window hwindow
    constructor
    · refine hlaw _ ?_
      rintro first last ⟨hfirst, -⟩ ⟨-, hlast⟩
      linarith
    · refine hlaw _ ?_
      rintro first last ⟨hfirst, -⟩ ⟨-, hlast⟩
      linarith
  · refine ⟨(h.budget.delay charges now).1, purged_delayFrom now charges.items h.budget 0,
      fun name => ?_⟩
    have hfst : result.1 = _ := take_fst charges now recordedAt
    have hsnd : result.2 = _ := take_snd charges now recordedAt
    rw [hfst, hsnd]
    split
    · exact addCharges_apply recordedAt _ charges name
    · rw [List.append_nil]
  · intro delay hdelay hrefused
    exact isLeast_delay hl.order hdelay hrefused

/-- A request that costs two budgets of the recorder. -/
def sampleRequest : Charges := ⟨[("usdm_weight", 500), ("usdm_statistics", 400)], by decide⟩

/-- Two requests are charged, the second one as soon as a block of its market is over. -/
def sampleBudgetCalls : List BudgetCall :=
  [.take sampleRequest 10 10, .block "usdm" 5 15, .take sampleRequest 20 21]

theorem recorded_sampleBudgetCalls :
    ((fresh recorderWindows).run sampleBudgetCalls).recorded "usdm_weight" =
        [(10, 500), (21, 500)] ∧
      ((fresh recorderWindows).run sampleBudgetCalls).recorded "usdm_statistics" =
        [(10, 400), (21, 400)] := by
  decide_cbv

theorem take_sampleRequest :
    (((fresh recorderWindows).run sampleBudgetCalls).budget.take sampleRequest 30 30).2 =
      .ok 280 := by
  decide_cbv

/-- A third request is too much for both budgets: the weights leave their window after 40 seconds,
the statistics after 280. It is charged to neither, and told to wait for the later one. -/
theorem withinBudget_third :
    let h := (fresh recorderWindows).run sampleBudgetCalls
    let result := h.budget.take sampleRequest 30 30
    (∀ start, within (fun at' => start ≤ at' ∧ at' < start + 60) (h.recorded "usdm_weight") ≤
        1200 ∧
      within (fun at' => start ≤ at' ∧ at' < start + 300) (h.recorded "usdm_statistics") ≤ 800) ∧
    h.recorded "usdm_weight" = [(10, 500), (21, 500)] ∧
    h.recorded "usdm_statistics" = [(10, 400), (21, 400)] ∧
    (∃ kept, Purged 30 h.budget kept ∧ ∀ name, result.1.events name = kept.events name) ∧
    IsLeast {wait | 0 ≤ wait ∧
      Granted (result.1.take sampleRequest (30 + wait) (30 + wait)).2} 280 := by
  intro h result
  have hbudget := withinBudget recorderWindows sampleBudgetCalls sampleRequest 30 30 (by decide)
  obtain ⟨hwindows, ⟨kept, hkept, hevents⟩, hleast⟩ := hbudget
  have hdelay : result.2 = .ok 280 := take_sampleRequest
  have hrefused : ¬ Granted result.2 := by
    rw [hdelay]
    decide
  have hweight : recorderWindows.get? "usdm_weight" = some ⟨1200, 60⟩ := by rfl
  have hstatistics : recorderWindows.get? "usdm_statistics" = some ⟨800, 300⟩ := by rfl
  obtain ⟨hfirst, hsecond⟩ := recorded_sampleBudgetCalls
  refine ⟨fun start => ⟨(hwindows _ _ hweight start).1, (hwindows _ _ hstatistics start).1⟩,
    hfirst, hsecond, ⟨kept, hkept, fun name => ?_⟩, hleast 280 hdelay (by decide)⟩
  have hname := hevents name
  rw [if_neg hrefused, List.append_nil] at hname
  exact hname

end BudgetHistory

end MarketDataRecorder
