import MarketDataRecorder.Collector.KlineBackfill

/-!
# No closed bar is lost

While the frames of a source open on its grid, every bar from the first observed to the last closed
was captured, is in a stored row, or is inside the pending range.

A bar is ahead of the range where it is neither before the first bar nor closed yet. The front of
the pending range, and of the page in flight, is never behind a bar that is ahead; so what a step
moves the last closed bar over is in the range that it schedules or in the rows that it takes.

* `Repaired` — the invariant
* `kline_covered` — every run keeps it
-/

namespace MarketDataRecorder

namespace KlineSource

variable {interval : KlineInterval} {utc8 : Bool} {phase : Nat}

section

variable (grid : BarGrid) (s : KlineSource)

/-- A bar that is ahead of the last closed one. -/
structure Ahead (openTime : Nat) : Prop where
  opens : grid.opens openTime
  first : ∀ first, s.firstKlineOpenTimeMs = some first → first ≤ openTime
  last : ∀ last, s.lastClosedOpenTimeMs = some last → last < openTime

/-- **The invariant of the repair.** -/
structure Repaired : Prop where
  firstOpens : ∀ first, s.firstKlineOpenTimeMs = some first → grid.opens first
  lastOpens : ∀ last, s.lastClosedOpenTimeMs = some last → grid.opens last
  unseen : s.firstKlineOpenTimeMs = none →
    s.lastClosedOpenTimeMs = none ∧ s.backfillStartMs = none ∧ s.poll = none
  startOpens : ∀ start, s.backfillStartMs = some start → grid.opens start
  start_le : ∀ start, s.backfillStartMs = some start → ∀ t, Ahead grid s t → start ≤ t
  pollOpens : ∀ start stop, s.poll = some (start, stop) → grid.opens start
  poll_le : ∀ start stop, s.poll = some (start, stop) → ∀ t, Ahead grid s t → start ≤ t
  pollSettled : ∀ start stop, s.poll = some (start, stop) → ∀ t, grid.opens t → s.Within t →
    t < start → s.Settled t
  covered : s.Covered grid

end

variable {grid : BarGrid} {s s' : KlineSource}

/-! ## Ranges -/

/-- A bar from the first on is within the range or ahead of it. -/
theorem within_or_ahead {first t : Nat} (hfirst : s.firstKlineOpenTimeMs = some first)
    (hopens : grid.opens t) (hle : first ≤ t) : s.Within t ∨ Ahead grid s t := by
  have hfirst' : ∀ other, s.firstKlineOpenTimeMs = some other → other ≤ t := by
    intro other hother
    rw [hfirst] at hother
    cases hother
    exact hle
  cases hlast : s.lastClosedOpenTimeMs with
  | none =>
    refine Or.inr ⟨hopens, hfirst', fun last hsome => ?_⟩
    rw [hlast] at hsome
    cases hsome
  | some last =>
    rcases Nat.lt_or_ge last t with hlt | hge
    · refine Or.inr ⟨hopens, hfirst', fun other hother => ?_⟩
      rw [hlast] at hother
      cases hother
      exact hlt
    · exact Or.inl ⟨first, last, hfirst, hlast, hle, hge⟩

/-- The range of a source grows. -/
structure Grows (s s' : KlineSource) : Prop where
  first : ∀ first, s.firstKlineOpenTimeMs = some first → s'.firstKlineOpenTimeMs = some first
  last : ∀ last, s.lastClosedOpenTimeMs = some last →
    ∃ last', s'.lastClosedOpenTimeMs = some last' ∧ last ≤ last'

theorem Grows.of_eq (hfirst : s'.firstKlineOpenTimeMs = s.firstKlineOpenTimeMs)
    (hlast : s'.lastClosedOpenTimeMs = s.lastClosedOpenTimeMs) : Grows s s' :=
  ⟨fun _ h => hfirst.trans h, fun last h => ⟨last, hlast.trans h, le_rfl⟩⟩

/-- What is ahead of the grown range was ahead. -/
theorem Grows.ahead (h : Grows s s') {t : Nat} (ht : Ahead grid s' t) : Ahead grid s t where
  opens := ht.opens
  first first hfirst := ht.first first (h.first first hfirst)
  last last hlast := by
    obtain ⟨last', hlast', hle⟩ := h.last last hlast
    exact hle.trans_lt (ht.last last' hlast')

/-! ## What is expected -/

/-- A bar that is closed was seen. -/
theorem Repaired.seen (h : Repaired grid s) {last : Nat}
    (hlast : s.lastClosedOpenTimeMs = some last) :
    s.firstKlineOpenTimeMs ≠ none := by
  intro hnone
  rw [(h.unseen hnone).1] at hlast
  cases hlast

/-- The bar that is expected opens on the grid, and no bar ahead opens before it. -/
theorem Repaired.expected (h : Repaired (klineGrid interval utc8 phase) s) {expected : Nat}
    (hexpected : s.expectedOpenTime interval utc8 = some expected) :
    s.firstKlineOpenTimeMs ≠ none ∧ (klineGrid interval utc8 phase).opens expected ∧
      ∀ t, Ahead (klineGrid interval utc8 phase) s t → expected ≤ t := by
  rw [expectedOpenTime] at hexpected
  cases hlast : s.lastClosedOpenTimeMs with
  | none =>
    rw [hlast] at hexpected
    have hfirst : s.firstKlineOpenTimeMs = some expected := hexpected
    refine ⟨?_, h.firstOpens expected hfirst, fun t ht => ht.first expected hfirst⟩
    rw [hfirst]
    exact Option.some_ne_none expected
  | some last =>
    rw [hlast] at hexpected
    simp only [← next_klineGrid interval utc8 phase] at hexpected
    have hopens := h.lastOpens last hlast
    exact ⟨h.seen hlast, BarGrid.opens_next _ hopens hexpected, fun t ht =>
      BarGrid.next_le _ hopens hexpected ht.opens (ht.last last hlast)⟩

/-! ## Frames -/

theorem Repaired.observeFirst (h : Repaired grid s) {openTime : Nat}
    (hopens : grid.opens openTime) :
    Repaired grid (s.observeFirst openTime) := by
  cases hfirst : s.firstKlineOpenTimeMs with
  | some first =>
    have hsame : s.observeFirst openTime = s := by
      rw [KlineSource.observeFirst, hfirst, Option.getD_some, ← hfirst]
    rw [hsame]
    exact h
  | none =>
    have hunseen := (h.unseen hfirst).1
    have hgrows : Grows s (s.observeFirst openTime) := by
      refine ⟨fun first hsome => ?_, fun last hlast => ⟨last, hlast, le_rfl⟩⟩
      rw [hfirst] at hsome
      cases hsome
    have hempty : ∀ t, ¬ (s.observeFirst openTime).Within t := by
      rintro t ⟨first, last, -, hlast, -⟩
      have hnone : s.lastClosedOpenTimeMs = some last := hlast
      rw [hunseen] at hnone
      cases hnone
    exact {
      firstOpens := fun first hsome => by
        rw [KlineSource.observeFirst, hfirst] at hsome
        cases hsome
        exact hopens
      lastOpens := h.lastOpens
      unseen := fun hnone => by
        rw [KlineSource.observeFirst] at hnone
        cases hnone
      startOpens := h.startOpens
      start_le := fun start hstart t ht => h.start_le start hstart t (hgrows.ahead ht)
      pollOpens := h.pollOpens
      poll_le := fun start stop hpoll t ht => h.poll_le start stop hpoll t (hgrows.ahead ht)
      pollSettled := fun start stop hpoll t _ hwithin _ => absurd hwithin (hempty t)
      covered := fun t _ hwithin => absurd hwithin (hempty t) }

/-- **What scheduling adds is pending**, and what was pending stays so. -/
theorem pending_schedule {start stop t : Nat}
    (h : s.Pending t ∨ start ≤ t ∧ t ≤ stop) :
    (s.scheduleKlineBackfill start stop).Pending t := by
  rw [scheduleKlineBackfill]
  split
  · next hgt =>
    rcases h with h | ⟨hstart, hstop⟩
    · exact h
    · omega
  · refine ⟨_, rfl, ?_, ?_⟩
    · rcases h with ⟨pending, hpending, hle, -⟩ | ⟨hstart, -⟩
      · rw [hpending, Option.getD_some]
        exact (min_le_left _ _).trans hle
      · exact (min_le_right _ _).trans hstart
    · rcases h with ⟨pending, -, -, hle⟩ | ⟨-, hstop⟩
      · exact hle.trans (le_max_left _ _)
      · exact hstop.trans (le_max_right _ _)

/-- Bars may be scheduled from one on that no bar ahead opens before. -/
theorem Repaired.schedule (h : Repaired grid s) {start : Nat}
    (hfirst : s.firstKlineOpenTimeMs ≠ none) (hopens : grid.opens start)
    (hstart : ∀ t, Ahead grid s t → start ≤ t) (stop : Nat) :
    Repaired grid (s.scheduleKlineBackfill start stop) := by
  have hcovered : (s.scheduleKlineBackfill start stop).Covered grid := by
    intro t ht hwithin
    have hwithin' : s.Within t := by
      rw [scheduleKlineBackfill] at hwithin
      split at hwithin <;> exact hwithin
    rcases h.covered t ht hwithin' with hsettled | hpending
    · left
      rw [scheduleKlineBackfill]
      split <;> exact hsettled
    · exact Or.inr (pending_schedule (Or.inl hpending))
  rw [scheduleKlineBackfill] at hcovered ⊢
  split
  · exact h
  next hle =>
  rw [if_neg hle] at hcovered
  have hcases : ∀ front, some (min (s.backfillStartMs.getD start) start) = some front →
      front = start ∨ s.backfillStartMs = some front := by
    rintro front ⟨⟩
    cases hpending : s.backfillStartMs with
    | none => exact Or.inl (by rw [Option.getD_none, min_self])
    | some pending =>
      rw [Option.getD_some]
      rcases min_choice pending start with hmin | hmin
      · exact Or.inr (by rw [hmin])
      · exact Or.inl hmin
  have hgrows : Grows s { s with
      backfillStartMs := some (min (s.backfillStartMs.getD start) start)
      backfillEndMs := max s.backfillEndMs stop } := .of_eq rfl rfl
  exact {
    firstOpens := h.firstOpens
    lastOpens := h.lastOpens
    unseen := fun hnone => absurd hnone hfirst
    startOpens := fun front hfront => by
      rcases hcases front hfront with rfl | hpending
      · exact hopens
      · exact h.startOpens front hpending
    start_le := fun front hfront t ht => by
      rcases hcases front hfront with rfl | hpending
      · exact hstart t (hgrows.ahead ht)
      · exact h.start_le front hpending t (hgrows.ahead ht)
    pollOpens := h.pollOpens
    poll_le := fun front back hpoll t ht => h.poll_le front back hpoll t (hgrows.ahead ht)
    pollSettled := h.pollSettled
    covered := hcovered }

/-- A bar within a range that was closed up to another bar was within, or was ahead and
opens by that bar. -/
theorem within_or_ahead_of_closed {openTime t : Nat} (ht : grid.opens t) (hwithin : s'.Within t)
    (hfirst : s'.firstKlineOpenTimeMs = s.firstKlineOpenTimeMs)
    (hclosed : s'.lastClosedOpenTimeMs = some (max (s.lastClosedOpenTimeMs.getD 0) openTime)) :
    s.Within t ∨ Ahead grid s t ∧ t ≤ openTime := by
  obtain ⟨first, last, hsome, hlast, hlow, hhigh⟩ := hwithin
  rw [hfirst] at hsome
  rw [hclosed] at hlast
  cases hlast
  rcases within_or_ahead hsome ht hlow with hold | hahead
  · exact Or.inl hold
  · refine Or.inr ⟨hahead, ?_⟩
    rcases le_max_iff.mp hhigh with hle | hle
    · cases hlast : s.lastClosedOpenTimeMs with
      | none =>
        rw [hlast, Option.getD_none] at hle
        omega
      | some last =>
        rw [hlast, Option.getD_some] at hle
        have := hahead.last last hlast
        omega
    · exact hle

theorem Repaired.opens_max (h : Repaired grid s) {openTime : Nat} (hopens : grid.opens openTime) :
    grid.opens (max (s.lastClosedOpenTimeMs.getD 0) openTime) := by
  cases hlast : s.lastClosedOpenTimeMs with
  | none => simpa using hopens
  | some last =>
    rw [Option.getD_some]
    rcases max_choice last openTime with hmax | hmax
    · rw [hmax]
      exact h.lastOpens last hlast
    · rw [hmax]
      exact hopens

theorem Grows.of_closed {openTime : Nat} (hfirst : s'.firstKlineOpenTimeMs = s.firstKlineOpenTimeMs)
    (hclosed : s'.lastClosedOpenTimeMs = some (max (s.lastClosedOpenTimeMs.getD 0) openTime)) :
    Grows s s' := by
  refine ⟨fun _ h => hfirst.trans h, fun last hlast => ⟨_, hclosed, ?_⟩⟩
  rw [hlast, Option.getD_some]
  exact le_max_left _ _

/-- A closed bar goes in where all bars before it that are ahead are pending. -/
theorem Repaired.closeBar (h : Repaired grid s) {openTime : Nat}
    (hfirst : s.firstKlineOpenTimeMs ≠ none) (hopens : grid.opens openTime)
    (hpending : ∀ t, Ahead grid s t → t < openTime → s.Pending t) :
    Repaired grid (s.closeBar openTime) := by
  have hgrows : Grows s (s.closeBar openTime) := .of_closed rfl rfl
  have hsettled : ∀ t, s.Settled t → (s.closeBar openTime).Settled t := by
    rintro t (ht | ht)
    · exact Or.inl (List.mem_append_left _ ht)
    · exact Or.inr ht
  exact {
    firstOpens := h.firstOpens
    lastOpens := by
      rintro last ⟨⟩
      exact h.opens_max hopens
    unseen := fun hnone => absurd hnone hfirst
    startOpens := h.startOpens
    start_le := fun start hstart t ht => h.start_le start hstart t (hgrows.ahead ht)
    pollOpens := h.pollOpens
    poll_le := fun start stop hpoll t ht => h.poll_le start stop hpoll t (hgrows.ahead ht)
    pollSettled := by
      intro start stop hpoll t ht hnew hlt
      rcases within_or_ahead_of_closed (s := s) ht hnew rfl rfl with hold | ⟨hahead, -⟩
      · exact hsettled t (h.pollSettled start stop hpoll t ht hold hlt)
      · exact absurd (h.poll_le start stop hpoll t hahead) (Nat.not_le.mpr hlt)
    covered := by
      intro t ht hnew
      rcases within_or_ahead_of_closed (s := s) ht hnew rfl rfl with hold | ⟨hahead, hle⟩
      · rcases h.covered t ht hold with hs | hp
        · exact Or.inl (hsettled t hs)
        · exact Or.inr hp
      · rcases Nat.lt_or_eq_of_le hle with hlt | rfl
        · exact Or.inr (hpending t hahead hlt)
        · exact Or.inl (Or.inl (List.mem_append_right _ List.mem_cons_self)) }

theorem Repaired.captureClosed (h : Repaired (klineGrid interval utc8 phase) s) {openTime : Nat}
    (hopens : (klineGrid interval utc8 phase).opens openTime) :
    Repaired (klineGrid interval utc8 phase) (s.captureClosed interval utc8 openTime) := by
  have hobserved := h.observeFirst hopens
  rw [KlineSource.captureClosed]
  cases hexpected : (s.observeFirst openTime).expectedOpenTime interval utc8 with
  | none => exact hobserved
  | some expected =>
    obtain ⟨hfirst, hexpectedOpens, hle⟩ := hobserved.expected hexpected
    simp only
    split
    · have hscheduled := hobserved.schedule hfirst hexpectedOpens hle (openTime - 1)
      have hgrows : Grows (s.observeFirst openTime)
          ((s.observeFirst openTime).scheduleKlineBackfill expected (openTime - 1)) :=
        .of_eq (firstKlineOpenTimeMs_schedule _ _ _) (lastClosedOpenTimeMs_schedule _ _ _)
      refine hscheduled.closeBar ?_ hopens fun t ht hlt => ?_
      · rw [firstKlineOpenTimeMs_schedule]
        exact hfirst
      · exact pending_schedule (Or.inr ⟨hle t (hgrows.ahead ht), by omega⟩)
    · refine hobserved.closeBar hfirst hopens fun t ht hlt => ?_
      have := hle t ht
      omega

/-! ## Reconnects and requests -/

theorem lastMonthOpenTime_spec {nowMs : Nat} : ∀ {fuel first last : Nat},
    (klineGrid interval utc8 phase).opens first →
    lastMonthOpenTime interval utc8 nowMs fuel first = some last → nowMs < first + fuel →
    ∀ following, nextKlineOpenTimeMs interval utc8 last = some following → nowMs < following
  | 0, first, last, hfirst, hlast, hfuel, following, hfollowing => by
    cases hlast
    rw [← next_klineGrid interval utc8 phase] at hfollowing
    have := BarGrid.lt_next _ hfirst hfollowing
    omega
  | fuel + 1, first, last, hfirst, hlast, hfuel, following, hfollowing => by
    rw [lastMonthOpenTime] at hlast
    cases hnext : nextKlineOpenTimeMs interval utc8 first with
    | none =>
      rw [hnext] at hlast
      cases hlast
    | some second =>
      simp only [hnext] at hlast
      split at hlast
      · have hgrid := hnext
        rw [← next_klineGrid interval utc8 phase] at hgrid
        have hlt := BarGrid.lt_next _ hfirst hgrid
        exact lastMonthOpenTime_spec (BarGrid.opens_next _ hfirst hgrid) hlast (by omega) following
          hfollowing
      · next hlate =>
        cases hlast
        rw [hnext] at hfollowing
        cases hfollowing
        omega

/-- **A reconnect looks as far as the bar that is open now**: the bar behind it opens later. -/
theorem reconnectEnd_spec {nowMs start stop : Nat}
    (hopens : (klineGrid interval utc8 phase).opens start)
    (h : reconnectEnd interval utc8 nowMs start = some stop) :
    ∀ following, nextKlineOpenTimeMs interval utc8 stop = some following → nowMs < following := by
  rw [reconnectEnd] at h
  split at h
  · next hperiod =>
    cases h
    rintro following hfollowing
    rw [nextKlineOpenTimeMs, if_pos hperiod] at hfollowing
    cases hfollowing
    have hdiv := Nat.div_add_mod (nowMs - start) interval.periodMs
    have hmod := Nat.mod_lt (nowMs - start) interval.periodMs_pos
    rw [mul_comm] at hdiv
    omega
  · exact lastMonthOpenTime_spec hopens h (by omega)

theorem Repaired.checkReconnect (h : Repaired (klineGrid interval utc8 phase) s) (nowMs : Nat) :
    Repaired (klineGrid interval utc8 phase)
      (s.checkReconnectKlineBackfill interval utc8 nowMs) := by
  rw [checkReconnectKlineBackfill]
  cases hexpected : s.expectedOpenTime interval utc8 with
  | none => exact h
  | some start =>
    obtain ⟨hfirst, hopens, hle⟩ := h.expected hexpected
    simp only
    split
    · exact h
    · split
      · exact h.schedule hfirst hopens hle _
      · exact h

theorem Repaired.withPoll (h : Repaired grid s) {poll : Option (Nat × Nat)}
    (hpoll : ∀ start stop, poll = some (start, stop) → s.backfillStartMs = some start) :
    Repaired grid { s with poll := poll } := by
  have hgrows : Grows s { s with poll := poll } := .of_eq rfl rfl
  exact {
    firstOpens := h.firstOpens
    lastOpens := h.lastOpens
    unseen := by
      intro hnone
      obtain ⟨hlast, hstart, -⟩ := h.unseen hnone
      refine ⟨hlast, hstart, ?_⟩
      cases hsome : poll with
      | none => rfl
      | some page =>
        have hfront := hpoll page.1 page.2 hsome
        rw [hstart] at hfront
        cases hfront
    startOpens := h.startOpens
    start_le := fun start hstart t ht => h.start_le start hstart t (hgrows.ahead ht)
    pollOpens := fun start stop hsome => h.startOpens start (hpoll start stop hsome)
    poll_le := fun start stop hsome t ht =>
      h.start_le start (hpoll start stop hsome) t (hgrows.ahead ht)
    pollSettled := by
      intro start stop hsome t ht hwithin hlt
      rcases h.covered t ht hwithin with hsettled | ⟨front, hfront, hle, -⟩
      · exact hsettled
      · rw [hpoll start stop hsome] at hfront
        cases hfront
        omega
    covered := h.covered }

/-- The page asked for lies in the pending range. -/
theorem backfillPage_spec {backfillEndMs start front stop : Nat}
    (hopens : (klineGrid interval utc8 phase).opens start) (hle : start ≤ backfillEndMs)
    (h : backfillPage interval utc8 backfillEndMs start = some (front, stop)) :
    front = start ∧ start ≤ stop ∧ stop ≤ backfillEndMs := by
  have hpage : ∀ (more : Nat) {first last : Nat}, (klineGrid interval utc8 phase).opens first →
      pageEnd interval utc8 backfillEndMs more first = some last →
      (klineGrid interval utc8 phase).opens last ∧ first ≤ last := by
    intro more
    induction more with
    | zero =>
      rintro first last hfirst ⟨⟩
      exact ⟨hfirst, le_rfl⟩
    | succ more ih =>
      intro first last hfirst hend
      rw [pageEnd] at hend
      cases hnext : nextKlineOpenTimeMs interval utc8 first with
      | none =>
        rw [hnext] at hend
        cases hend
      | some following =>
        simp only [hnext] at hend
        rw [← next_klineGrid interval utc8 phase] at hnext
        split at hend
        · cases hend
          exact ⟨hfirst, le_rfl⟩
        · obtain ⟨hlast, hbelow⟩ := ih (BarGrid.opens_next _ hfirst hnext) hend
          exact ⟨hlast, (BarGrid.lt_next _ hfirst hnext).le.trans hbelow⟩
  rw [backfillPage, Option.bind_eq_some_iff] at h
  obtain ⟨last, hlast, h⟩ := h
  obtain ⟨following, hfollowing, h⟩ := Option.map_eq_some_iff.mp h
  cases h
  obtain ⟨hlastOpens, hbelow⟩ := hpage _ hopens hlast
  rw [← next_klineGrid interval utc8 phase] at hfollowing
  have hlt := BarGrid.lt_next _ hlastOpens hfollowing
  exact ⟨rfl, le_min (by omega) hle, min_le_right _ _⟩

theorem Repaired.startPoll (h : Repaired grid s) : Repaired grid (s.startPoll interval utc8) := by
  rw [KlineSource.startPoll]
  split
  · next start _ hstart =>
    refine h.withPoll fun front stop hpage => ?_
    rw [backfillPage, Option.bind_eq_some_iff] at hpage
    obtain ⟨back, -, hpage⟩ := hpage
    obtain ⟨following, -, hpage⟩ := Option.map_eq_some_iff.mp hpage
    cases hpage
    exact hstart
  · exact h

/-! ## Answers -/

/-- **What an answer takes**: the cursor goes bar by bar, and every bar that it passes
is in a row. -/
theorem acceptRows_spec {receiveMs : Nat} :
    ∀ {rows : List KlineRow} {cursor latest stop last : Nat},
    (klineGrid interval utc8 phase).opens cursor →
    acceptRows interval utc8 receiveMs cursor latest rows = some (stop, last) →
    (∀ t, (klineGrid interval utc8 phase).opens t → cursor ≤ t → t < stop →
      t ∈ closedRows receiveMs rows) ∧
    (stop = cursor ∧ last = latest ∨ cursor ≤ last ∧ (klineGrid interval utc8 phase).opens last ∧
      (klineGrid interval utc8 phase).next last = some stop)
  | [], cursor, latest, stop, last, _, h => by
    cases h
    refine ⟨fun t _ hle hlt => ?_, Or.inl ⟨rfl, rfl⟩⟩
    omega
  | row :: rows, cursor, latest, stop, last, hopens, h => by
    rw [acceptRows] at h
    split at h
    · cases h
      refine ⟨fun t _ hle hlt => ?_, Or.inl ⟨rfl, rfl⟩⟩
      omega
    next htaken =>
    rw [not_or, not_not, not_le] at htaken
    cases hnext : nextKlineOpenTimeMs interval utc8 cursor with
    | none =>
      rw [hnext] at h
      cases h
    | some following =>
      rw [hnext] at h
      rw [← next_klineGrid interval utc8 phase] at hnext
      have hfollowing := BarGrid.opens_next _ hopens hnext
      have hlt := BarGrid.lt_next _ hopens hnext
      have hrows : closedRows receiveMs (row :: rows) = row.openTime ::
        closedRows receiveMs rows := by
        rw [closedRows, List.filter_cons, if_pos (decide_eq_true htaken.2)]
        rfl
      obtain ⟨hrest, hlast⟩ := acceptRows_spec hfollowing h
      refine ⟨fun t ht hle hstop => ?_, Or.inr ?_⟩
      · rw [hrows, htaken.1]
        rcases Nat.lt_or_eq_of_le hle with hafter | rfl
        · exact List.mem_cons_of_mem _
            (hrest t ht (BarGrid.next_le _ hopens hnext ht hafter) hstop)
        · exact List.mem_cons_self
      · rcases hlast with ⟨rfl, rfl⟩ | ⟨hle, hlastOpens, hlastNext⟩
        · exact ⟨le_rfl, hopens, hnext⟩
        · exact ⟨hlt.le.trans hle, hlastOpens, hlastNext⟩

theorem Settled.store {t : Nat} (h : s.Settled t) (rows : List Nat) : (s.store rows).Settled t :=
  h.imp_right (List.mem_append_left _)

theorem Repaired.store (h : Repaired grid s) (rows : List Nat) : Repaired grid (s.store rows) := by
  have hgrows : Grows s (s.store rows) := .of_eq rfl rfl
  exact {
    firstOpens := h.firstOpens
    lastOpens := h.lastOpens
    unseen := fun hnone => ⟨(h.unseen hnone).1, (h.unseen hnone).2.1, rfl⟩
    startOpens := h.startOpens
    start_le := fun start hstart t ht => h.start_le start hstart t (hgrows.ahead ht)
    pollOpens := by rintro start stop ⟨⟩
    poll_le := by rintro start stop ⟨⟩
    pollSettled := by rintro start stop ⟨⟩
    covered := fun t ht hwithin => (h.covered t ht hwithin).imp_left fun hsettled =>
      hsettled.store rows }

/-- The front of the pending range moves over bars that are settled. -/
theorem Repaired.advance (h : Repaired grid s) {start latestOpen cursor : Nat}
    (hfirst : s.firstKlineOpenTimeMs ≠ none) (hpoll : s.poll = none)
    (hstart : ∀ t, Ahead grid s t → start ≤ t)
    (hbefore : ∀ t, grid.opens t → s.Within t → t < start → s.Settled t)
    (hsettled : ∀ t, grid.opens t → start ≤ t → t < cursor → s.Settled t)
    (hlatest : grid.opens latestOpen) (hnext : grid.next latestOpen = some cursor) :
    Repaired grid (s.advance latestOpen cursor) := by
  have hcursor : ∀ front, (if cursor ≤ s.backfillEndMs then some cursor else none) = some front →
      front = cursor := by
    intro front hfront
    split at hfront
    · exact (Option.some.inj hfront).symm
    · cases hfront
  exact {
    firstOpens := h.firstOpens
    lastOpens := by
      rintro last ⟨⟩
      exact h.opens_max hlatest
    unseen := fun hnone => absurd hnone hfirst
    startOpens := by
      intro front hfront
      rw [hcursor front hfront]
      exact grid.opens_next hlatest hnext
    start_le := by
      intro front hfront t ht
      rw [hcursor front hfront]
      have hafter := ht.last _ rfl
      exact grid.next_le hlatest hnext ht.opens ((le_max_right _ _).trans_lt hafter)
    pollOpens := fun front stop hsome => absurd (hpoll.symm.trans hsome) (by simp)
    poll_le := fun front stop hsome => absurd (hpoll.symm.trans hsome) (by simp)
    pollSettled := fun front stop hsome => absurd (hpoll.symm.trans hsome) (by simp)
    covered := by
      intro t ht hnew
      rcases within_or_ahead_of_closed (s := s) ht hnew rfl rfl with hold | ⟨hahead, hle⟩
      · rcases h.covered t ht hold with hs | ⟨front, -, -, hstop⟩
        · exact Or.inl hs
        rcases Nat.lt_or_ge t start with hlt | hge
        · exact Or.inl (hbefore t ht hold hlt)
        rcases Nat.lt_or_ge t cursor with hlt | hpast
        · exact Or.inl (hsettled t ht hge hlt)
        · exact Or.inr ⟨cursor, if_pos (hpast.trans hstop), hpast, hstop⟩
      · have hlt := grid.lt_next hlatest hnext
        exact Or.inl (hsettled t ht (hstart t hahead) (by omega)) }

theorem Repaired.answer (h : Repaired (klineGrid interval utc8 phase) s) (valid : Bool)
    (rows : List KlineRow) (receiveMs : Nat) :
    Repaired (klineGrid interval utc8 phase) (s.answer interval utc8 valid rows receiveMs) := by
  rw [KlineSource.answer]
  cases hpoll : s.poll with
  | none => exact h
  | some page =>
    obtain ⟨start, stop⟩ := page
    simp only
    split
    · have hstored := h.store (closedRows receiveMs rows)
      cases haccepted : acceptRows interval utc8 receiveMs start start rows with
      | none => exact hstored
      | some accepted =>
        obtain ⟨cursor, latestOpen⟩ := accepted
        simp only
        split
        · next hmoved =>
          obtain ⟨hrows, hlast⟩ := acceptRows_spec (h.pollOpens start stop hpoll) haccepted
          rcases hlast with ⟨rfl, -⟩ | ⟨-, hlatest, hnext⟩
          · exact absurd hmoved (lt_irrefl _)
          have hfirst : s.firstKlineOpenTimeMs ≠ none := by
            intro hnone
            rw [(h.unseen hnone).2.2] at hpoll
            cases hpoll
          have hgrows : Grows s (s.store (closedRows receiveMs rows)) := .of_eq rfl rfl
          refine hstored.advance hfirst rfl
            (fun t ht => h.poll_le start stop hpoll t (hgrows.ahead ht))
            (fun t ht hwithin hlt => (h.pollSettled start stop hpoll t ht hwithin hlt).store _)
            (fun t ht hle hlt => ?_) hlatest hnext
          exact Or.inr (List.mem_append_right _ (hrows t ht hle hlt))
        · exact hstored
    · exact h.store []

/-! ## Runs -/

/-- The bars of the frames open on the grid. -/
def OnGrid (grid : BarGrid) : KlineStep → Prop
  | .forming openTime => grid.opens openTime
  | .closed openTime => grid.opens openTime
  | _ => True

theorem Repaired.step (h : Repaired (klineGrid interval utc8 phase) s) {step : KlineStep}
    (hstep : OnGrid (klineGrid interval utc8 phase) step) :
    Repaired (klineGrid interval utc8 phase) (s.step interval utc8 step) := by
  cases step with
  | malformed => exact h
  | forming openTime => exact h.observeFirst hstep
  | closed openTime => exact h.captureClosed hstep
  | reconnect nowMs => exact h.checkReconnect nowMs
  | poll => exact h.startPoll
  | answer valid rows receiveMs => exact h.answer valid rows receiveMs
  | fails => exact h.withPoll fun start stop hsome => by cases hsome

theorem repaired_create (grid : BarGrid) : Repaired grid {} where
  firstOpens := by rintro first ⟨⟩
  lastOpens := by rintro last ⟨⟩
  unseen _ := ⟨rfl, rfl, rfl⟩
  startOpens := by rintro start ⟨⟩
  start_le := by rintro start ⟨⟩
  pollOpens := by rintro start stop ⟨⟩
  poll_le := by rintro start stop ⟨⟩
  pollSettled := by rintro start stop ⟨⟩
  covered := by rintro t - ⟨first, last, ⟨⟩, -⟩

theorem Repaired.run : ∀ {steps : List KlineStep} {s : KlineSource},
    Repaired (klineGrid interval utc8 phase) s →
    (∀ step ∈ steps, OnGrid (klineGrid interval utc8 phase) step) →
    Repaired (klineGrid interval utc8 phase) (s.run interval utc8 steps)
  | [], _, h, _ => h
  | step :: steps, s, h, hsteps => by
    have hstep := h.step (hsteps step List.mem_cons_self)
    exact hstep.run fun other hother => hsteps other (List.mem_cons_of_mem _ hother)

/-- **No closed bar is lost**, whatever the order of frames, reconnects, requests and answers,
on every grid. -/
theorem kline_covered (interval : KlineInterval) (utc8 : Bool) (phase : Nat)
    (steps : List KlineStep)
    (hsteps : ∀ step ∈ steps, OnGrid (klineGrid interval utc8 phase) step) :
    Covered (klineGrid interval utc8 phase) (run interval utc8 {} steps) :=
  ((repaired_create _).run hsteps).covered

/-- Three months, of which the second is still to be repaired. -/
def monthSteps : List KlineStep :=
  [.forming 0, .closed (59 * dayMs), .poll,
    .answer true [⟨0, 31 * dayMs - 1⟩] (60 * dayMs), .malformed, .reconnect (100 * dayMs)]

theorem kline_covered_monthSteps :
    Covered (klineGrid .month1 false 0) (run .month1 false {} monthSteps) :=
  kline_covered .month1 false 0 monthSteps (by
    intro step hstep
    simp only [monthSteps, List.mem_cons, List.not_mem_nil, or_false] at hstep
    rcases hstep with rfl | rfl | rfl | rfl | rfl | rfl
    · exact ⟨0, by decide⟩
    · exact ⟨2, by decide⟩
    all_goals trivial)

/-- A frame that opens off the grid shifts the bar that is expected, and the bar of the second
minute is neither captured nor pending. -/
theorem shifted_frame_loses :
    ¬ ∀ (interval : KlineInterval) (utc8 : Bool) (phase : Nat) (steps : List KlineStep),
      Covered (klineGrid interval utc8 phase) (run interval utc8 {} steps) := by
  intro h
  have hminute : (klineGrid .m1 false 0).opens 60000 := by
    show 60000 % KlineInterval.m1.periodMs = 0 % KlineInterval.m1.periodMs
    decide
  rcases h .m1 false 0 [.closed 0, .closed 1, .closed 120000] 60000 hminute
      ⟨0, 120000, by decide, by decide, by decide, by decide⟩ with hsettled | hpending
  · rcases hsettled with hcaptured | hrow
    · revert hcaptured
      decide
    · revert hrow
      decide
  · obtain ⟨start, hstart, hle, -⟩ := hpending
    have hfront : (run .m1 false {} [.closed 0, .closed 1, .closed 120000]).backfillStartMs =
        some 60001 := by
      decide
    rw [hfront] at hstart
    cases hstart
    omega

end KlineSource

end MarketDataRecorder
