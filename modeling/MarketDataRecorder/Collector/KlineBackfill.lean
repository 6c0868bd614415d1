import MarketDataRecorder.Collector.KlineGrid

/-!
# The repair of closed bars

The part of a `SourceState` of `collector/coverage.py` that a kline source repairs its bars with. A
closed frame, or a reconnect, that finds bars missing puts them into a pending range; a request asks
for a page of that range, and its answer takes the bars off the front of it that it has.

What was captured and which rows were stored is kept beside the state.

* `KlineSource.step` — frames, reconnects, requests and their answers
* `KlineSource.Covered` — no bar is lost
-/

namespace MarketDataRecorder

/-- The first and the seventh field of a row of a response: when its bar opens and closes. -/
structure KlineRow where
  openTime : Nat
  closeTime : Nat
  deriving DecidableEq, Repr

/-- The repair state of a source within one session. -/
structure KlineSource where
  firstKlineOpenTimeMs : Option Nat := none
  lastClosedOpenTimeMs : Option Nat := none
  backfillStartMs : Option Nat := none
  backfillEndMs : Nat := 0
  /-- The request in flight: where its page starts and ends. -/
  poll : Option (Nat × Nat) := none
  /-- The open times of the closed frames that were captured. -/
  captured : List Nat := []
  /-- The open times of the bars that are closed in a valid response that was stored. -/
  restRows : List Nat := []
  deriving DecidableEq, Repr

inductive KlineStep where
  /-- A frame that `capture_group_frame` flags. -/
  | malformed
  | forming (openTime : Nat)
  | closed (openTime : Nat)
  | reconnect (nowMs : Nat)
  | poll
  | answer (valid : Bool) (rows : List KlineRow) (receiveMs : Nat)
  /-- The request raises, or its response cannot be stored. -/
  | fails
  deriving DecidableEq, Repr

namespace KlineSource

section

variable (interval : KlineInterval) (utc8 : Bool)

/-! ## Frames -/

/-- The first bar observed. -/
def observeFirst (openTime : Nat) (s : KlineSource) : KlineSource :=
  { s with firstKlineOpenTimeMs := some (s.firstKlineOpenTimeMs.getD openTime) }

/-- `_schedule_kline_backfill`. -/
def scheduleKlineBackfill (startTimeMs endTimeMs : Nat) (s : KlineSource) : KlineSource :=
  if startTimeMs > endTimeMs then s
  else { s with
    backfillStartMs := some (min (s.backfillStartMs.getD startTimeMs) startTimeMs)
    backfillEndMs := max s.backfillEndMs endTimeMs }

@[simp] theorem firstKlineOpenTimeMs_schedule (startTimeMs endTimeMs : Nat) (s : KlineSource) :
    (s.scheduleKlineBackfill startTimeMs endTimeMs).firstKlineOpenTimeMs =
      s.firstKlineOpenTimeMs := by
  rw [scheduleKlineBackfill]
  split <;> rfl

@[simp] theorem lastClosedOpenTimeMs_schedule (startTimeMs endTimeMs : Nat) (s : KlineSource) :
    (s.scheduleKlineBackfill startTimeMs endTimeMs).lastClosedOpenTimeMs =
      s.lastClosedOpenTimeMs := by
  rw [scheduleKlineBackfill]
  split <;> rfl

/-- The bar behind the last closed one, or the first observed; `none` where the step raises. -/
def expectedOpenTime (s : KlineSource) : Option Nat :=
  match s.lastClosedOpenTimeMs with
  | none => s.firstKlineOpenTimeMs
  | some last => nextKlineOpenTimeMs interval utc8 last

/-- A closed frame that was captured. -/
def closeBar (openTime : Nat) (s : KlineSource) : KlineSource :=
  { s with
    lastClosedOpenTimeMs := some (max (s.lastClosedOpenTimeMs.getD 0) openTime)
    captured := s.captured ++ [openTime] }

/-- `capture`, on a closed frame. -/
def captureClosed (openTime : Nat) (s : KlineSource) : KlineSource :=
  let s := s.observeFirst openTime
  match s.expectedOpenTime interval utc8 with
  | none => s
  | some expected =>
    closeBar openTime
      (if openTime > expected then s.scheduleKlineBackfill expected (openTime - 1) else s)

/-! ## Reconnects -/

/-- The last bar that opens by now, from a bar on; the months one by one. -/
def lastMonthOpenTime (nowMs : Nat) : Nat → Nat → Option Nat
  | 0, stop => some stop
  | fuel + 1, stop => match nextKlineOpenTimeMs interval utc8 stop with
    | none => none
    | some following =>
      if following ≤ nowMs then lastMonthOpenTime nowMs fuel following else some stop

def reconnectEnd (nowMs start : Nat) : Option Nat :=
  if interval ≠ .month1 then some (start + (nowMs - start) / interval.periodMs * interval.periodMs)
  else lastMonthOpenTime interval utc8 nowMs (nowMs + 1) start

/-- `_check_reconnect_kline_backfill`. -/
def checkReconnectKlineBackfill (nowMs : Nat) (s : KlineSource) : KlineSource :=
  match s.expectedOpenTime interval utc8 with
  | none => s
  | some start => match reconnectEnd interval utc8 nowMs start with
    | none => s
    | some stop => if stop > start then s.scheduleKlineBackfill start (stop - 1) else s

/-! ## Requests -/

/-- How many bars a page has. -/
def pageSize : Nat :=
  if interval = .month1 then 5 else min 100 (200 * 86400 / interval.barPeriodSeconds)

/-- The last bar of a page of so many more bars that opens within the pending range. -/
def pageEnd (backfillEndMs : Nat) : Nat → Nat → Option Nat
  | 0, stop => some stop
  | more + 1, stop => match nextKlineOpenTimeMs interval utc8 stop with
    | none => none
    | some following =>
      if following > backfillEndMs then some stop else pageEnd backfillEndMs more following

/-- The page that `_run_kline_backfill` asks for. -/
def backfillPage (backfillEndMs start : Nat) : Option (Nat × Nat) :=
  (pageEnd interval utc8 backfillEndMs (pageSize interval - 1) start).bind fun stop =>
    (nextKlineOpenTimeMs interval utc8 stop).map fun following =>
      (start, min (following - 1) backfillEndMs)

/-- A request is made for the pending range, while there is none in flight. -/
def startPoll (s : KlineSource) : KlineSource :=
  match s.poll, s.backfillStartMs with
  | none, some start => { s with poll := backfillPage interval utc8 s.backfillEndMs start }
  | _, _ => s

/-! ## Answers -/

/-- The rows of an answer that follow the pending bars and are closed: the cursor behind them, and
the last of them. -/
def acceptRows (receiveMs : Nat) : Nat → Nat → List KlineRow → Option (Nat × Nat)
  | cursor, latest, [] => some (cursor, latest)
  | cursor, latest, row :: rows =>
    if row.openTime ≠ cursor ∨ row.closeTime ≥ receiveMs then some (cursor, latest)
    else match nextKlineOpenTimeMs interval utc8 cursor with
      | none => none
      | some following => acceptRows receiveMs following cursor rows

/-- The bars that are closed in a response. -/
def closedRows (receiveMs : Nat) (rows : List KlineRow) : List Nat :=
  (rows.filter fun row => row.closeTime < receiveMs).map KlineRow.openTime

/-- A response is stored. -/
def store (rows : List Nat) (s : KlineSource) : KlineSource :=
  { s with
    poll := none
    restRows := s.restRows ++ rows }

/-- The cursor of an answer goes to the front of the pending range, or the range is done. -/
def advance (latestOpen cursor : Nat) (s : KlineSource) : KlineSource :=
  { s with
    lastClosedOpenTimeMs := some (max (s.lastClosedOpenTimeMs.getD 0) latestOpen)
    backfillStartMs := if cursor ≤ s.backfillEndMs then some cursor else none }

/-- `_run_kline_backfill`, from its response on. -/
def answer (valid : Bool) (rows : List KlineRow) (receiveMs : Nat) (s : KlineSource) :
    KlineSource :=
  match s.poll with
  | none => s
  | some (start, _) =>
    if valid then
      let s := s.store (closedRows receiveMs rows)
      match acceptRows interval utc8 receiveMs start start rows with
      | none => s
      | some (cursor, latestOpen) => if cursor > start then s.advance latestOpen cursor else s
    else s.store []

/-! ## Runs -/

def step (s : KlineSource) : KlineStep → KlineSource
  | .malformed => s
  | .forming openTime => s.observeFirst openTime
  | .closed openTime => s.captureClosed interval utc8 openTime
  | .reconnect nowMs => s.checkReconnectKlineBackfill interval utc8 nowMs
  | .poll => s.startPoll interval utc8
  | .answer valid rows receiveMs => s.answer interval utc8 valid rows receiveMs
  | .fails => { s with poll := none }

def run (s : KlineSource) (steps : List KlineStep) : KlineSource :=
  steps.foldl (step interval utc8) s

end

/-! ## Coverage -/

/-- A bar was captured, or is in a stored row. -/
def Settled (s : KlineSource) (openTime : Nat) : Prop :=
  openTime ∈ s.captured ∨ openTime ∈ s.restRows

/-- A bar is inside the pending range. -/
def Pending (s : KlineSource) (openTime : Nat) : Prop :=
  ∃ start, s.backfillStartMs = some start ∧ start ≤ openTime ∧ openTime ≤ s.backfillEndMs

/-- A bar from the first observed to the last closed. -/
def Within (s : KlineSource) (openTime : Nat) : Prop :=
  ∃ first last, s.firstKlineOpenTimeMs = some first ∧ s.lastClosedOpenTimeMs = some last ∧
    first ≤ openTime ∧ openTime ≤ last

/-- **No bar is lost.** -/
def Covered (grid : BarGrid) (s : KlineSource) : Prop :=
  ∀ openTime, grid.opens openTime → s.Within openTime → s.Settled openTime ∨ s.Pending openTime

end KlineSource

end MarketDataRecorder
