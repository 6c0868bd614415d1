import Mathlib.Data.Int.Notation
import Mathlib.Data.List.Basic
import Mathlib.Order.Lattice
import Mathlib.Tactic.Common

/-!
# The cursor of the five-minute side data

`collector/coverage.py` and `storage/catalog/availability.py`: a source of five-minute statistics
asks for its closed periods page by page, and a cursor in the catalog says how far it has come. A
start behind the retention of the venue records the periods that are lost; a request never starts
before the retention floor. Times are milliseconds, the clock counts nanoseconds.

* `SideDataRun.step` — the steps of a source with its starts and crashes
* `SideDataRun.Filled` — what holds while no request starts past the next period
* `SideDataRun.no_silent_hole` — the runs that leave no hole
-/

namespace MarketDataRecorder

/-- The families of five-minute sources that the code tells apart: open interest, taker volume and
the others. -/
inductive PeriodFamily where
  | D15
  | D16
  | other
  deriving DecidableEq, Repr

/-- A source whose stream ends with `_5m`, in a configuration that lists its symbols. -/
structure PeriodSource where
  family : PeriodFamily
  stream : String
  symbol : String
  deriving DecidableEq, Repr

def PeriodSource.sourceRetentionWindow (source : PeriodSource) : String :=
  if source.family = .D15 then "latest_1_month" else "latest_30_days"

/-- A row of `side_data_cursors`. -/
structure SideDataCursor where
  lastPersistedPeriodTimestamp : Int
  updatedAtUtcNs : Int
  sourceRetentionWindow : String
  retentionWindowMs : Int
  deriving DecidableEq, Repr

/-- The evidence of a `SIDE_DATA_UNRECOVERABLE_GAP`. -/
structure RetentionGap where
  gapStartTimestamp : Int
  gapEndTimestamp : Int
  sourceRetentionWindow : String
  retentionWindowMs : Int
  deriving DecidableEq, Repr

/-- What the catalog holds of one source: its cursor, its gaps, and the starts of the requests with
an empty response. -/
structure SideDataCatalog where
  cursor : Option SideDataCursor
  gaps : List RetentionGap
  emptyStarts : List Int
  deriving DecidableEq, Repr

/-- `advance_side_data_cursor` on the row of one source. -/
def advanceSideDataCursor (source : PeriodSource) (existing : Option SideDataCursor)
    (row : SideDataCursor) : Except String (Bool × Option SideDataCursor) :=
  if source.stream = "" ∨ source.symbol = "" ∨ row.lastPersistedPeriodTimestamp < 0 ∨
      row.updatedAtUtcNs < 0 ∨ row.sourceRetentionWindow = "" ∨ row.retentionWindowMs ≤ 0 then
    .error "invalid side-data cursor"
  else match existing with
    | some current =>
      if row.lastPersistedPeriodTimestamp < current.lastPersistedPeriodTimestamp then
        .error "side-data cursor cannot move backward"
      else if row.lastPersistedPeriodTimestamp = current.lastPersistedPeriodTimestamp then
        .ok (false, existing)
      else .ok (true, some row)
    | none => .ok (true, some row)

/-! ## Starts -/

/-- The last period that is closed. -/
def lastClosed (nowNs : Int) : Int := nowNs / 1000000 / 300000 * 300000 - 300000

/-- The first period that a start asks for. -/
def earliestPeriod (nowNs : Int) : Int := max 0 (lastClosed nowNs - 30 * 86400000 + 600000)

/-- The start of the first period that a request may ask for. -/
def retentionFloor (nowNs : Int) : Int :=
  nowNs / 1000000 / 300000 * 300000 - 1 - 30 * 86400000 + 600001

/-- The fields of `SourceState` that the requests read. -/
structure PeriodState where
  nextPeriodMs : Option Int
  periodLimit : Nat
  deriving DecidableEq, Repr

/-- `_empty_stats_starts` of the source. -/
def SideDataCatalog.emptyStatsStart (catalog : SideDataCatalog) : Option Int :=
  catalog.emptyStarts.min?

/-- The period from which the catalog says to go on. The open interest asks again for the period of
its cursor. -/
def SideDataCatalog.savedPeriod (catalog : SideDataCatalog) (family : PeriodFamily) : Option Int :=
  match catalog.cursor with
  | some row =>
    some (if family ≠ .D15 then row.lastPersistedPeriodTimestamp + 300000
      else row.lastPersistedPeriodTimestamp)
  | none => catalog.emptyStatsStart

/-- `add_source` in a new process. -/
def addSource (source : PeriodSource) (catalog : SideDataCatalog) (nowNs : Int) :
    SideDataCatalog × PeriodState :=
  let earliest := earliestPeriod nowNs
  match catalog.savedPeriod source.family with
  | none => (catalog, { nextPeriodMs := some earliest, periodLimit := 499 })
  | some savedPeriod =>
    if savedPeriod < earliest then
      ({ catalog with
          gaps := catalog.gaps ++ [{
            gapStartTimestamp := savedPeriod
            gapEndTimestamp := earliest - 300000
            sourceRetentionWindow := source.sourceRetentionWindow
            retentionWindowMs := 30 * 86400000 }] },
        { nextPeriodMs := some earliest, periodLimit := 499 })
    else (catalog, { nextPeriodMs := some savedPeriod, periodLimit := 499 })

/-! ## Requests -/

/-- The parameters of a request that name its window. -/
structure PeriodParameters where
  startTime : Int
  endTime : Int
  limit : Nat
  deriving DecidableEq, Repr

/-- `_parameters`. -/
def requestParameters (source : PeriodSource) (state : PeriodState) (nowNs : Int) :
    PeriodParameters × PeriodState :=
  let last := nowNs / 1000000 / 300000 * 300000 - 1
  let start := max (state.nextPeriodMs.getD (last - 299999)) (retentionFloor nowNs)
  let endTime := min last (start + state.periodLimit * 300000 - 1)
  ({ startTime := start
     endTime := if source.family = .D16 then endTime + 300000 else endTime
     limit := 500 },
    { state with nextPeriodMs := some start })

/-- `period_end`. -/
def PeriodParameters.periodEnd (p : PeriodParameters) (family : PeriodFamily) : Int :=
  if family = .D16 then p.endTime - 300000 else p.endTime

/-- The document of a valid response: the timestamps of its rows, where `none` is not an integer. -/
inductive PeriodDocument where
  | notList
  | rows (timestamps : List (Option Int))
  deriving DecidableEq, Repr

/-- A response as `persist_rest` keeps it, without a document where the request has failed. -/
structure PeriodObservation where
  parameters : PeriodParameters
  document : Option PeriodDocument
  receiveTimeUtcNs : Int
  deriving DecidableEq, Repr

/-- The check of one timestamp. -/
def PeriodParameters.admits (p : PeriodParameters) (family : PeriodFamily) : Option Int → Bool
  | none => false
  | some value =>
    (p.startTime ≤ value && value ≤ p.periodEnd family) ||
      (family = .D16 && value = p.startTime - 300000)

/-- `list(range(period_start, period_end + 1, 300_000))`. -/
def periodRange (periodStart periodEnd : Int) : List Int :=
  (List.range ((periodEnd + 300000 - periodStart) / 300000).toNat).map
    fun index : Nat => periodStart + 300000 * (index : Int)

/-- The timestamps of the requested window. -/
def PeriodParameters.evaluated (p : PeriodParameters) (family : PeriodFamily)
    (timestamps : List (Option Int)) : List Int :=
  (timestamps.filterMap id).filter fun t => p.startTime ≤ t && t ≤ p.periodEnd family

/-- The evaluation of a valid response: its error, or the period through which it is complete. -/
def evaluatePeriods (family : PeriodFamily) (p : PeriodParameters) :
    PeriodDocument → Except String Int
  | .notList => .error "DataPeriodShapeUnknown"
  | .rows timestamps =>
    let evaluated := p.evaluated family timestamps
    if timestamps.any fun value => !p.admits family value then
      .error "DataOutsideRequestedPeriod"
    else if timestamps ≠ [] ∧ evaluated = [] then .error "DataPublicationStale"
    else if family = .D15 ∧ p.limit ≤ timestamps.length then .error "DataResponseLimitReached"
    else if family ≠ .D15 ∧ evaluated = [] then .error "DataPublicationPending"
    else if family ≠ .D15 ∧
        evaluated.mergeSort (· ≤ ·) ≠ periodRange p.startTime (p.periodEnd family) then
      .error "DataPeriodGap"
    else .ok (p.periodEnd family - 299999)

/-! ## Runs -/

/-- How far a poll of the source has come. -/
inductive PollPhase where
  | idle
  | requested (parameters : PeriodParameters)
  | persisted (observation : PeriodObservation)
  | evaluated (observation : PeriodObservation)
  deriving DecidableEq, Repr

/-- The process that owns the source. -/
structure SourceProcess where
  state : PeriodState
  phase : PollPhase
  deriving DecidableEq, Repr

/-- A source with the catalog, the responses that were persisted, and where it started to ask: the
start of the last request before the catalog held anything of it. -/
structure SideDataRun where
  nowNs : Int
  catalog : SideDataCatalog
  responses : List PeriodObservation
  process : Option SourceProcess
  initialStart : Option Int
  deriving DecidableEq, Repr

/-- What happens to a source: the clock goes on, a process starts or ends, a request is made, its
response is persisted, evaluated, and noted where it is empty. -/
inductive SideDataAction where
  | advance (ns : Nat)
  | start
  | stop
  | request
  | answer (document : Option PeriodDocument)
  | evaluate
  | record
  deriving DecidableEq, Repr

/-- The catalog holds nothing of the source. -/
def SideDataCatalog.Blank (catalog : SideDataCatalog) : Prop :=
  catalog.cursor = none ∧ catalog.emptyStarts = []

instance (catalog : SideDataCatalog) : Decidable catalog.Blank :=
  inferInstanceAs (Decidable (_ ∧ _))

namespace SideDataRun

/-- A source that nobody has asked for yet. -/
def create (nowNs : Int) : SideDataRun where
  nowNs := nowNs
  catalog := { cursor := none, gaps := [], emptyStarts := [] }
  responses := []
  process := none
  initialStart := none

variable (source : PeriodSource)

/-- The evaluation of a response that was persisted. A cursor that is refused ends the process. -/
def evaluate (s : SideDataRun) (state : PeriodState) (observation : PeriodObservation) :
    SideDataRun :=
  match observation.document with
  | none => { s with process := some { state, phase := .idle } }
  | some document =>
    match evaluatePeriods source.family observation.parameters document with
    | .error error =>
      let periodLimit := if error = "DataResponseLimitReached" then max 1 (state.periodLimit / 2)
        else state.periodLimit
      { s with
        process := some { state := { state with periodLimit }, phase := .evaluated observation } }
    | .ok evaluatedThrough =>
      match advanceSideDataCursor source s.catalog.cursor {
          lastPersistedPeriodTimestamp := evaluatedThrough
          updatedAtUtcNs := observation.receiveTimeUtcNs
          sourceRetentionWindow := source.sourceRetentionWindow
          retentionWindowMs := 30 * 86400000 } with
      | .error _ => { s with process := none }
      | .ok (_, cursor) =>
        { s with
          catalog := { s.catalog with cursor }
          process := some {
            state := { state with nextPeriodMs := some (evaluatedThrough + 300000) }
            phase := .evaluated observation } }

/-- A step. What cannot happen changes nothing. -/
def step (s : SideDataRun) : SideDataAction → SideDataRun
  | .advance ns => { s with nowNs := s.nowNs + ns }
  | .start =>
    let added := addSource source s.catalog s.nowNs
    { s with catalog := added.1, process := some { state := added.2, phase := .idle } }
  | .stop => { s with process := none }
  | .request =>
    match s.process with
    | some { state, phase := .idle } =>
      let request := requestParameters source state s.nowNs
      { s with
        process := some { state := request.2, phase := .requested request.1 }
        initialStart := if s.catalog.Blank then some request.1.startTime else s.initialStart }
    | _ => s
  | .answer document =>
    match s.process with
    | some { state, phase := .requested parameters } =>
      let observation := { parameters, document, receiveTimeUtcNs := s.nowNs }
      { s with
        responses := s.responses ++ [observation]
        process := some { state, phase := .persisted observation } }
    | _ => s
  | .evaluate =>
    match s.process with
    | some { state, phase := .persisted observation } => s.evaluate source state observation
    | _ => s
  | .record =>
    match s.process with
    | some { state, phase := .evaluated observation } =>
      { s with
        catalog := { s.catalog with
          emptyStarts := if observation.document = some (.rows []) then
              s.catalog.emptyStarts ++ [observation.parameters.startTime]
            else s.catalog.emptyStarts }
        process := some { state, phase := .idle } }
    | _ => s

/-- The state after some actions. -/
def run (s : SideDataRun) (actions : List SideDataAction) : SideDataRun :=
  actions.foldl (fun s action => s.step source action) s

end SideDataRun

/-! ## What the periods are covered by -/

/-- The document of a response that holds a period. The open interest is sparse: there a complete
response to a request for the period holds it. -/
def PeriodDocument.contains (family : PeriodFamily) (p : PeriodParameters) (period : Int) :
    PeriodDocument → Bool
  | .notList => false
  | .rows timestamps =>
    if family = .D15 then
      p.startTime ≤ period && period ≤ p.periodEnd family && timestamps.length < p.limit
    else some period ∈ timestamps

def PeriodObservation.contains (o : PeriodObservation) (family : PeriodFamily) (period : Int) :
    Bool :=
  o.document.any fun document => document.contains family o.parameters period

/-- The range between two periods has every period on the grid. -/
theorem mem_periodRange {first last period : Int} (hfirst : first ≤ period) (hlast : period ≤ last)
    (haligned : (period - first) % 300000 = 0) : period ∈ periodRange first last := by
  rw [periodRange, List.mem_map]
  refine ⟨((period - first) / 300000).toNat, ?_, by omega⟩
  rw [List.mem_range]
  omega

/-- **What is complete**: an evaluation that goes through covers its whole window. -/
theorem contains_of_evaluatePeriods {family : PeriodFamily} {p : PeriodParameters}
    {document : PeriodDocument} {through : Int}
    (h : evaluatePeriods family p document = .ok through) :
    through = p.periodEnd family - 299999 ∧
      ∀ period, p.startTime ≤ period → period ≤ p.periodEnd family →
        (period - p.startTime) % 300000 = 0 → document.contains family p period = true := by
  cases document with
  | notList => cases h
  | rows timestamps =>
    simp only [evaluatePeriods] at h
    split at h
    · cases h
    split at h
    · cases h
    split at h
    · cases h
    split at h
    · cases h
    split at h
    · cases h
    next hlimit _ hrange =>
    obtain rfl := Except.ok.inj h
    refine ⟨rfl, fun period hfirst hlast haligned => ?_⟩
    by_cases hfamily : family = .D15
    · have hfew : timestamps.length < p.limit := by
        by_contra hmany
        exact hlimit ⟨hfamily, not_lt.mp hmany⟩
      rw [PeriodDocument.contains, if_pos hfamily]
      simp [hfirst, hlast, hfew]
    · have hsorted : (p.evaluated family timestamps).mergeSort (· ≤ ·) =
          periodRange p.startTime (p.periodEnd family) := by
        by_contra hne
        exact hrange ⟨hfamily, hne⟩
      have hmem : period ∈ (p.evaluated family timestamps).mergeSort (· ≤ ·) := by
        rw [hsorted]
        exact mem_periodRange hfirst hlast haligned
      rw [List.mem_mergeSort, PeriodParameters.evaluated, List.mem_filter,
        List.mem_filterMap] at hmem
      obtain ⟨⟨timestamp, hin, rfl⟩, -⟩ := hmem
      rw [PeriodDocument.contains, if_neg hfamily]
      exact decide_eq_true hin

/-- What an accepted cursor is. -/
theorem advanceSideDataCursor_ok {source : PeriodSource} {existing cursor : Option SideDataCursor}
    {row : SideDataCursor} {moved : Bool}
    (h : advanceSideDataCursor source existing row = .ok (moved, cursor)) :
    ∃ later, cursor = some later ∧
      later.lastPersistedPeriodTimestamp = row.lastPersistedPeriodTimestamp ∧
      ∀ current, existing = some current →
        current.lastPersistedPeriodTimestamp ≤ later.lastPersistedPeriodTimestamp := by
  unfold advanceSideDataCursor at h
  split at h
  · cases h
  cases existing with
  | none =>
    obtain ⟨-, rfl⟩ := Prod.mk.inj (Except.ok.inj h)
    exact ⟨row, rfl, rfl, by simp⟩
  | some current =>
    dsimp only at h
    split at h
    · cases h
    next hback =>
    split at h
    · next hsame =>
      obtain ⟨-, rfl⟩ := Prod.mk.inj (Except.ok.inj h)
      exact ⟨current, rfl, hsame.symm, by simp⟩
    · obtain ⟨-, rfl⟩ := Prod.mk.inj (Except.ok.inj h)
      refine ⟨row, rfl, rfl, fun other hother => ?_⟩
      obtain rfl := Option.some.inj hother
      exact not_lt.mp hback

namespace SideDataRun

variable (source : PeriodSource)

/-- A period that a persisted response contains or a recorded gap names. -/
def Covered (s : SideDataRun) (period : Int) : Prop :=
  (∃ o ∈ s.responses, o.contains source.family period = true) ∨
    ∃ gap ∈ s.catalog.gaps, gap.gapStartTimestamp ≤ period ∧ period ≤ gap.gapEndTimestamp

instance (s : SideDataRun) (period : Int) : Decidable (s.Covered source period) :=
  inferInstanceAs (Decidable (_ ∨ _))

/-- The periods from the initial start to `next`, without it, are covered. -/
def FilledTo (s : SideDataRun) (next : Int) : Prop :=
  ∀ first, s.initialStart = some first → ∀ period, period % 300000 = 0 → first ≤ period →
    period < next → s.Covered source period

/-- **No silent hole** up to the stored cursor. -/
def NoSilentHole (s : SideDataRun) : Prop :=
  ∀ first row, s.initialStart = some first → s.catalog.cursor = some row →
    ∀ period, period % 300000 = 0 → first ≤ period →
      period ≤ row.lastPersistedPeriodTimestamp → s.Covered source period

/-- The cursor of the later state is not behind. -/
def CursorForward (s t : SideDataRun) : Prop :=
  ∀ row, s.catalog.cursor = some row → ∃ later, t.catalog.cursor = some later ∧
    row.lastPersistedPeriodTimestamp ≤ later.lastPersistedPeriodTimestamp

/-- A request of a source that the catalog knows starts at its next period: the retention floor has
not passed it. -/
def inRetention (s : SideDataRun) : SideDataAction → Bool
  | .request =>
    match s.process with
    | some { state := { nextPeriodMs := some next, .. }, phase := .idle } =>
      s.catalog.Blank || retentionFloor s.nowNs ≤ next
    | _ => true
  | _ => true

/-- A run whose requests all do. -/
def keepsRetention : SideDataRun → List SideDataAction → Bool
  | _, [] => true
  | s, action :: rest => s.inRetention action && keepsRetention (s.step source action) rest

variable {source} {s t : SideDataRun} {next : Int}

/-! ## What a step keeps -/

/-- What covers periods in one state covers them in the other. -/
structure Grows (s t : SideDataRun) : Prop where
  initialStart : t.initialStart = s.initialStart
  responses : ∀ o ∈ s.responses, o ∈ t.responses
  gaps : ∀ gap ∈ s.catalog.gaps, gap ∈ t.catalog.gaps

/-- A covered period stays covered. -/
theorem Covered.grows {period : Int} (h : s.Covered source period) (hst : Grows s t) :
    t.Covered source period := by
  rcases h with ⟨o, ho, hcontains⟩ | ⟨gap, hgap, hin⟩
  · exact Or.inl ⟨o, hst.responses o ho, hcontains⟩
  · exact Or.inr ⟨gap, hst.gaps gap hgap, hin⟩

/-- What is filled stays filled. -/
theorem FilledTo.grows (h : s.FilledTo source next) (hst : Grows s t) : t.FilledTo source next := by
  intro first hfirst period haligned hle hlt
  rw [hst.initialStart] at hfirst
  exact (h first hfirst period haligned hle hlt).grows hst

/-- What is filled is filled up to every earlier period. -/
theorem FilledTo.mono (h : s.FilledTo source next) {earlier : Int} (hle : earlier ≤ next) :
    s.FilledTo source earlier :=
  fun first hfirst period haligned hfrom hlt =>
    h first hfirst period haligned hfrom (lt_of_lt_of_le hlt hle)

/-- A window that starts at the next period and ends with a period. -/
structure WindowFits (source : PeriodSource) (next : Int) (p : PeriodParameters) : Prop where
  startTime : p.startTime = next
  periodEnd : (p.periodEnd source.family + 1) % 300000 = 0

/-- What holds while a poll goes on. -/
inductive PhaseFilled (source : PeriodSource) (s : SideDataRun) (next : Int) : PollPhase → Prop
  | idle (h : s.catalog.Blank ∨ s.FilledTo source next) : PhaseFilled source s next .idle
  | requested {p : PeriodParameters} (h : s.FilledTo source next)
    (hfits : WindowFits source next p) :
    PhaseFilled source s next (.requested p)
  | persisted {o : PeriodObservation} (h : s.FilledTo source next)
    (hfits : WindowFits source next o.parameters) (hmem : o ∈ s.responses) :
    PhaseFilled source s next (.persisted o)
  | evaluated {o : PeriodObservation} (h : s.FilledTo source next)
    (haligned : o.parameters.startTime % 300000 = 0)
    (hstart : s.FilledTo source o.parameters.startTime) :
    PhaseFilled source s next (.evaluated o)

/-- What holds between the steps: up to the cursor, up to each start that is kept for the next
process, and up to the next period all periods are covered. -/
structure Filled (source : PeriodSource) (s : SideDataRun) : Prop where
  cursor : ∀ row, s.catalog.cursor = some row → row.lastPersistedPeriodTimestamp % 300000 = 0 ∧
    s.FilledTo source (row.lastPersistedPeriodTimestamp + 300000)
  empties : ∀ start ∈ s.catalog.emptyStarts, start % 300000 = 0 ∧ s.FilledTo source start
  process : ∀ process, s.process = some process → ∃ next, next % 300000 = 0 ∧
    process.state.nextPeriodMs = some next ∧ PhaseFilled source s next process.phase

/-- A new cursor has nothing to fill. -/
theorem filled_create (nowNs : Int) : Filled source (create nowNs) where
  cursor := by simp [create]
  empties := by simp [create]
  process := by simp [create]

/-- **Where all is filled there is no silent hole.** -/
theorem Filled.noSilentHole (h : Filled source s) : s.NoSilentHole source := by
  intro first row hfirst hrow period haligned hfrom hto
  exact (h.cursor row hrow).2 first hfirst period haligned hfrom (by omega)

/-- The period that a start goes on from is one up to which all is covered. -/
theorem Filled.savedPeriod (h : Filled source s) {saved : Int}
    (hsaved : s.catalog.savedPeriod source.family = some saved) :
    saved % 300000 = 0 ∧ s.FilledTo source saved := by
  rw [SideDataCatalog.savedPeriod] at hsaved
  cases hcursor : s.catalog.cursor with
  | none =>
    rw [hcursor] at hsaved
    exact h.empties saved (List.min?_mem hsaved)
  | some row =>
    rw [hcursor] at hsaved
    obtain ⟨haligned, hfilled⟩ := h.cursor row hcursor
    obtain rfl := Option.some.inj hsaved
    split
    · exact ⟨by omega, hfilled⟩
    · exact ⟨haligned, hfilled.mono (by omega)⟩

/-- Without such a period the catalog holds nothing. -/
theorem blank_of_savedPeriod_eq_none {catalog : SideDataCatalog} {family : PeriodFamily}
    (h : catalog.savedPeriod family = none) : catalog.Blank := by
  rw [SideDataCatalog.savedPeriod] at h
  cases hcursor : catalog.cursor with
  | none =>
    rw [hcursor] at h
    exact ⟨hcursor, List.min?_eq_none_iff.mp h⟩
  | some row =>
    rw [hcursor] at h
    cases h

/-- The retention floor lies on the grid. -/
theorem earliestPeriod_aligned (nowNs : Int) : earliestPeriod nowNs % 300000 = 0 := by
  rw [earliestPeriod, lastClosed]
  omega

/-- A restart resumes behind what is filled. -/
theorem Filled.start (h : Filled source s) : Filled source (s.step source .start) := by
  rw [step, addSource]
  cases hsaved : s.catalog.savedPeriod source.family with
  | none =>
    have hblank := blank_of_savedPeriod_eq_none hsaved
    refine ⟨h.cursor, h.empties, fun process hprocess => ?_⟩
    obtain rfl := Option.some.inj hprocess
    exact ⟨_, earliestPeriod_aligned s.nowNs, rfl, .idle (Or.inl hblank)⟩
  | some saved =>
    obtain ⟨haligned, hfilled⟩ := h.savedPeriod hsaved
    dsimp only
    by_cases hlost : saved < earliestPeriod s.nowNs
    · -- The periods before the earliest one go to the gap.
      rw [if_pos hlost]
      have hearliest := earliestPeriod_aligned s.nowNs
      have hgrows : ∀ gap process, Grows s { s with
          catalog := { s.catalog with gaps := s.catalog.gaps ++ [gap] }, process := process } :=
        fun gap process => ⟨rfl, fun _ ho => ho, fun _ hgap => List.mem_append_left _ hgap⟩
      refine ⟨fun row hrow => ?_, fun start hstart => ?_, fun process hprocess => ?_⟩
      · obtain ⟨hrowAligned, hrowFilled⟩ := h.cursor row hrow
        exact ⟨hrowAligned, hrowFilled.grows (hgrows _ _)⟩
      · obtain ⟨hstartAligned, hstartFilled⟩ := h.empties start hstart
        exact ⟨hstartAligned, hstartFilled.grows (hgrows _ _)⟩
      · obtain rfl := Option.some.inj hprocess
        refine ⟨_, hearliest, rfl, .idle (Or.inr ?_)⟩
        intro first hfirst period hperiod hfrom hlt
        by_cases hbefore : period < saved
        · exact (hfilled first hfirst period hperiod hfrom hbefore).grows (hgrows _ _)
        · exact Or.inr ⟨_, List.mem_append_right _ List.mem_cons_self, by dsimp only; omega,
            by dsimp only; omega⟩
    · rw [if_neg hlost]
      refine ⟨h.cursor, h.empties, fun process hprocess => ?_⟩
      obtain rfl := Option.some.inj hprocess
      exact ⟨saved, haligned, rfl, .idle (Or.inr hfilled)⟩

/-- The window of a request begins at its start and ends with a period. -/
theorem fits_requestParameters (source : PeriodSource) {state : PeriodState}
    (hnext : state.nextPeriodMs = some next) (haligned : next % 300000 = 0) (nowNs : Int) :
    max next (retentionFloor nowNs) % 300000 = 0 ∧
      (requestParameters source state nowNs).2.nextPeriodMs =
        some (max next (retentionFloor nowNs)) ∧
      WindowFits source (max next (retentionFloor nowNs))
        (requestParameters source state nowNs).1 := by
  have hfloor : retentionFloor nowNs % 300000 = 0 := by
    rw [retentionFloor]
    omega
  refine ⟨by omega, by simp [requestParameters, hnext], by simp [requestParameters, hnext], ?_⟩
  rw [PeriodParameters.periodEnd, requestParameters, hnext]
  dsimp only [Option.getD_some]
  split
  · omega
  · omega

/-- **A request that the retention floor has not passed starts where the filled periods end.** -/
theorem Filled.request (h : Filled source s) (hin : s.inRetention .request = true) :
    Filled source (s.step source .request) := by
  rw [step]
  split
  · next state hprocess =>
    obtain ⟨next, haligned, hnext, hphase⟩ := h.process _ hprocess
    obtain ⟨hstart, hstate, hfits⟩ := fits_requestParameters source hnext haligned s.nowNs
    dsimp only at hnext ⊢
    cases hphase with
    | idle hphase =>
    by_cases hblank : s.catalog.Blank
    · -- Nothing is stored: the request moves the initial start with it.
      rw [if_pos hblank]
      refine ⟨fun row hrow => ?_, fun start hmem => ?_, fun process hnew => ?_⟩
      · have hsome : s.catalog.cursor = some row := hrow
        rw [hblank.1] at hsome
        cases hsome
      · have hstarts : start ∈ s.catalog.emptyStarts := hmem
        rw [hblank.2] at hstarts
        cases hstarts
      · obtain rfl := Option.some.inj hnew
        refine ⟨_, hstart, hstate, .requested ?_ hfits⟩
        intro first hfirst period _ hfrom hlt
        have hsame : (requestParameters source state s.nowNs).1.startTime = first :=
          Option.some.inj hfirst
        rw [hfits.startTime] at hsame
        omega
    · rw [if_neg hblank]
      have hfloor : retentionFloor s.nowNs ≤ next := by
        simp only [inRetention, hprocess] at hin
        rw [show state = { nextPeriodMs := some next, periodLimit := state.periodLimit } by
          cases state; cases hnext; rfl] at hin
        simpa [hblank] using hin
      have hfilled := hphase.resolve_left hblank
      refine ⟨h.cursor, h.empties, fun process hnew => ?_⟩
      obtain rfl := Option.some.inj hnew
      refine ⟨_, hstart, hstate, .requested ?_ hfits⟩
      rw [max_eq_left hfloor]
      exact hfilled
  · exact h

/-- An answer is kept with the responses; it moves nothing yet. -/
theorem Filled.answer (h : Filled source s) (document : Option PeriodDocument) :
    Filled source (s.step source (.answer document)) := by
  rw [step]
  split
  · next state parameters hprocess =>
    obtain ⟨next, haligned, hnext, hphase⟩ := h.process _ hprocess
    have hgrows : ∀ o process, Grows s { s with
        responses := s.responses ++ [o], process := process } :=
      fun o process => ⟨rfl, fun _ ho => List.mem_append_left _ ho, fun _ hgap => hgap⟩
    cases hphase with
    | requested hfilled hfits =>
    refine ⟨fun row hrow => ?_, fun start hstart => ?_, fun process hnew => ?_⟩
    · obtain ⟨hrowAligned, hrowFilled⟩ := h.cursor row hrow
      exact ⟨hrowAligned, hrowFilled.grows (hgrows _ _)⟩
    · obtain ⟨hstartAligned, hstartFilled⟩ := h.empties start hstart
      exact ⟨hstartAligned, hstartFilled.grows (hgrows _ _)⟩
    · obtain rfl := Option.some.inj hnew
      exact ⟨next, haligned, hnext, .persisted (hfilled.grows (hgrows _ _)) hfits
        (List.mem_append_right _ List.mem_cons_self)⟩
  · exact h

/-- **An evaluation moves the cursor over periods that the response covers**, or not at all. -/
theorem Filled.evaluate (h : Filled source s) : Filled source (s.step source .evaluate) := by
  rw [step]
  split
  · next state o hprocess =>
    obtain ⟨next, haligned, hnext, hphase⟩ := h.process _ hprocess
    dsimp only at hnext
    cases hphase with
    | persisted hfilled hfits hmem =>
    rw [SideDataRun.evaluate]
    split
    · refine ⟨h.cursor, h.empties, fun process hnew => ?_⟩
      obtain rfl := Option.some.inj hnew
      exact ⟨next, haligned, hnext, .idle (Or.inr hfilled)⟩
    next document hdocument =>
    split
    · refine ⟨h.cursor, h.empties, fun process hnew => ?_⟩
      obtain rfl := Option.some.inj hnew
      have hstart := hfits.startTime
      exact ⟨next, haligned, hnext, .evaluated hfilled (hstart ▸ haligned) (hstart ▸ hfilled)⟩
    next through hthrough =>
    split
    · exact ⟨h.cursor, h.empties, by simp⟩
    next moved cursor hcursor =>
    obtain ⟨later, rfl, hlater, -⟩ := advanceSideDataCursor_ok hcursor
    obtain ⟨hend, hcontains⟩ := contains_of_evaluatePeriods hthrough
    have hstart := hfits.startTime
    have hperiod := hfits.periodEnd
    have hgrows : ∀ cursor process, Grows s { s with
        catalog := { s.catalog with cursor := cursor }, process := process } :=
      fun cursor process => ⟨rfl, fun _ ho => ho, fun _ hgap => hgap⟩
    -- The response covers what lies between its start and the new cursor.
    have hwhole : s.FilledTo source (through + 300000) := by
      intro first hfirst period hperiod' hfrom hlt
      by_cases hbefore : period < next
      · exact hfilled first hfirst period hperiod' hfrom hbefore
      · have hin := hcontains period (by omega) (by omega) (by omega)
        exact Or.inl ⟨o, hmem, by simpa [PeriodObservation.contains, hdocument] using hin⟩
    refine ⟨fun row hrow => ?_, fun start hmem' => ?_, fun process hnew => ?_⟩
    · obtain rfl : later = row := Option.some.inj hrow
      dsimp only at hlater
      rw [hlater]
      exact ⟨by omega, hwhole.grows (hgrows _ _)⟩
    · obtain ⟨hstartAligned, hstartFilled⟩ := h.empties start hmem'
      exact ⟨hstartAligned, hstartFilled.grows (hgrows _ _)⟩
    · obtain rfl := Option.some.inj hnew
      exact ⟨through + 300000, by omega, rfl, .evaluated (hwhole.grows (hgrows _ _))
        (hstart ▸ haligned) (hstart ▸ hfilled.grows (hgrows _ _))⟩
  · exact h

/-- All is filled up to the start that an empty answer leaves to the next process. -/
theorem Filled.record (h : Filled source s) : Filled source (s.step source .record) := by
  rw [step]
  split
  · next state o hprocess =>
    obtain ⟨next, haligned, hnext, hphase⟩ := h.process _ hprocess
    have hgrows : ∀ empties process, Grows s { s with
        catalog := { s.catalog with emptyStarts := empties }, process := process } :=
      fun empties process => ⟨rfl, fun _ ho => ho, fun _ hgap => hgap⟩
    cases hphase with
    | evaluated hfilled hstartAligned hstartFilled =>
    refine ⟨fun row hrow => ?_, fun start hstart => ?_, fun process hnew => ?_⟩
    · obtain ⟨hrowAligned, hrowFilled⟩ := h.cursor row hrow
      exact ⟨hrowAligned, hrowFilled.grows (hgrows _ _)⟩
    · have hcases : start ∈ s.catalog.emptyStarts ∨ start = o.parameters.startTime := by
        dsimp only at hstart
        split at hstart
        · simpa using hstart
        · exact Or.inl hstart
      rcases hcases with hold | rfl
      · obtain ⟨holdAligned, holdFilled⟩ := h.empties start hold
        exact ⟨holdAligned, holdFilled.grows (hgrows _ _)⟩
      · exact ⟨hstartAligned, hstartFilled.grows (hgrows _ _)⟩
    · obtain rfl := Option.some.inj hnew
      exact ⟨next, haligned, hnext, .idle (Or.inr (hfilled.grows (hgrows _ _)))⟩
  · exact h

/-- The clock changes nothing that is covered. -/
theorem Filled.advance (h : Filled source s) (ns : Nat) :
    Filled source (s.step source (.advance ns)) := by
  refine ⟨h.cursor, h.empties, ?_⟩
  rintro ⟨state, phase⟩ hprocess
  obtain ⟨next, haligned, hnext, hphase⟩ := h.process _ hprocess
  refine ⟨next, haligned, hnext, ?_⟩
  cases hphase with
  | idle hfilled => exact .idle hfilled
  | requested hfilled hfits => exact .requested hfilled hfits
  | persisted hfilled hfits hmem => exact .persisted hfilled hfits hmem
  | evaluated hfilled hstart hstartFilled => exact .evaluated hfilled hstart hstartFilled

/-- **The step**: a request in time leaves no period out. -/
theorem Filled.step (h : Filled source s) {action : SideDataAction}
    (hin : s.inRetention action = true) : Filled source (s.step source action) := by
  cases action with
  | advance ns => exact h.advance ns
  | start => exact h.start
  | stop => exact ⟨h.cursor, h.empties, by simp [SideDataRun.step]⟩
  | request => exact h.request hin
  | answer document => exact h.answer document
  | evaluate => exact h.evaluate
  | record => exact h.record

/-! ## Runs -/

theorem CursorForward.refl (s : SideDataRun) : CursorForward s s :=
  fun row hrow => ⟨row, hrow, le_refl _⟩

theorem CursorForward.trans {u : SideDataRun} (hst : CursorForward s t) (htu : CursorForward t u) :
    CursorForward s u := by
  intro row hrow
  obtain ⟨later, hlater, hle⟩ := hst row hrow
  obtain ⟨last, hlast, hle'⟩ := htu later hlater
  exact ⟨last, hlast, hle.trans hle'⟩

/-- **No step backwards**, whatever the action is. -/
theorem cursorForward_step (s : SideDataRun) (action : SideDataAction) :
    CursorForward s (s.step source action) := by
  have hsame : ∀ t : SideDataRun, t.catalog.cursor = s.catalog.cursor → CursorForward s t :=
    fun t ht row hrow => ⟨row, by rw [ht, hrow], le_refl _⟩
  cases action with
  | advance ns => exact hsame _ rfl
  | start =>
    refine hsame _ ?_
    rw [step, addSource]
    dsimp only
    split
    · rfl
    · split <;> rfl
  | stop => exact hsame _ rfl
  | request =>
    refine hsame _ ?_
    rw [step]
    split <;> rfl
  | answer document =>
    refine hsame _ ?_
    rw [step]
    split <;> rfl
  | record =>
    refine hsame _ ?_
    rw [step]
    split <;> rfl
  | evaluate =>
    rw [step]
    split
    · rw [SideDataRun.evaluate]
      split
      · exact hsame _ rfl
      split
      · exact hsame _ rfl
      split
      · exact hsame _ rfl
      next moved cursor hcursor =>
      obtain ⟨later, rfl, -, hforward⟩ := advanceSideDataCursor_ok hcursor
      exact fun row hrow => ⟨later, rfl, hforward row hrow⟩
    · exact hsame _ rfl

/-- **The cursor never goes back**, whatever the actions. -/
theorem cursorForward_run : ∀ (actions : List SideDataAction) (s : SideDataRun),
    CursorForward s (s.run source actions)
  | [], s => CursorForward.refl s
  | action :: rest, s => (cursorForward_step s action).trans (cursorForward_run rest _)

/-- A run goes on from where the run before it stopped. -/
theorem run_append (s : SideDataRun) (before after : List SideDataAction) :
    s.run source (before ++ after) = (s.run source before).run source after :=
  List.foldl_append

/-- Every run within the retention keeps all filled. -/
theorem Filled.run : ∀ {before after : List SideDataAction} {s : SideDataRun}, Filled source s →
    s.keepsRetention source (before ++ after) = true → Filled source (s.run source before)
  | [], _, _, h, _ => h
  | action :: before, after, s, h, hin => by
    rw [List.cons_append, keepsRetention, Bool.and_eq_true] at hin
    have hrest := Filled.run (h.step hin.1) hin.2
    exact hrest

/-- **No silent hole**: while no request of a known source is pushed past its next period by the
retention floor, each state of a run has its periods covered up to the cursor, which never moves
backwards. -/
theorem no_silent_hole (source : PeriodSource) (nowNs : Int) (actions : List SideDataAction)
    (h : (create nowNs).keepsRetention source actions = true) (before after : List SideDataAction)
    (hsplit : actions = before ++ after) :
    ((create nowNs).run source before).NoSilentHole source ∧
      CursorForward ((create nowNs).run source before) ((create nowNs).run source actions) := by
  subst hsplit
  refine ⟨((filled_create nowNs).run h).noSilentHole, ?_⟩
  rw [run_append]
  exact cursorForward_run after _

/-- Open interest of one symbol. -/
def sampleOpenInterest : PeriodSource where
  family := .D15
  stream := "open_interest_statistics_5m"
  symbol := "BTCUSDT"

/-- One page, a restart after an hour, and the next page. -/
def sampleRestart : List SideDataAction :=
  [.start, .request, .answer (some (.rows [])), .evaluate, .record, .stop,
    .advance 3600000000000, .start, .request, .answer (some (.rows [])), .evaluate, .record]

theorem no_silent_hole_sampleRestart :
    ((create 1700000000000000000).run sampleOpenInterest sampleRestart).NoSilentHole
        sampleOpenInterest ∧
      CursorForward ((create 1700000000000000000).run sampleOpenInterest sampleRestart)
        ((create 1700000000000000000).run sampleOpenInterest sampleRestart) :=
  no_silent_hole sampleOpenInterest 1700000000000000000 sampleRestart (by decide)
    sampleRestart [] (List.append_nil _).symm

/-- The first page is stored, then the venue is out of reach for thirty-one days while the service
runs on, and the next page is stored. -/
def sampleOutage : List SideDataAction :=
  [.start, .request, .answer (some (.rows [])), .evaluate, .record,
    .advance 2678400000000000, .request, .answer none, .evaluate,
    .request, .answer (some (.rows [])), .evaluate]

/-- **The silent hole**: the period after the first page is before the cursor, no response contains
it, and no gap is recorded. -/
theorem outage_leaves_silent_hole :
    ¬ ((create 1700000000000000000).run sampleOpenInterest sampleOutage).NoSilentHole
        sampleOpenInterest := by
  intro h
  have hcovered := h 1697408400000
    { lastPersistedPeriodTimestamp := 1700236200000
      updatedAtUtcNs := 1702678400000000000
      sourceRetentionWindow := "latest_1_month"
      retentionWindowMs := 30 * 86400000 }
    (by decide) (by decide) 1697558100000 (by decide) (by decide) (by decide)
  revert hcovered
  decide

end SideDataRun

end MarketDataRecorder
