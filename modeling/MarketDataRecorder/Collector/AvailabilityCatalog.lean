import MarketDataRecorder.Collector.Availability
import MarketDataRecorder.Lib.Intervals

/-!
# The durable availability

The availability tables of `storage/catalog/availability.py`, and the account that
`metrics/continuity.py` gives of them.

The rows of lifecycle intervals and of gaps are kept source by source: their ids are given once, so
no two sources share one.

* `covered_clip_eligible`, `covered_clip_gaps` — the instants that the intervals of the account have
* `credits_iff` — the instants that the account counts as available
-/

namespace MarketDataRecorder

/-! ## Tables -/

/-- A row with a beginning and an end, and what is kept beside them. -/
structure AvailabilityRow (ε : Type) where
  started : Nat
  ended : Option Nat
  evidence : ε
  deriving DecidableEq

/-- A row of `source_availability_lifecycle`. -/
abbrev AvailabilityInterval := AvailabilityRow Unit

/-- A row of `source_availability_gaps`. Its evidence is the JSON of the change written last, which
is the change itself. -/
abbrev AvailabilityGap := AvailabilityRow GapChange

/-- The rows of a source. -/
structure SourceTables where
  state : AvailabilityState
  lifecycle : SortedDict Nat AvailabilityInterval
  gaps : SortedDict Nat AvailabilityGap

structure AvailabilityCatalog where
  sources : SortedDict String SourceTables := .empty
  watermarks : SortedDict Nat Nat := .empty

/-- `INSERT … ON CONFLICT DO UPDATE SET ended_at_utc_ns`, and `evidence_json` where there is one. -/
def upsertRow {ε : Type} (rows : SortedDict Nat (AvailabilityRow ε)) (id started : Nat)
    (ended : Option Nat) (evidence : ε) : SortedDict Nat (AvailabilityRow ε) :=
  match rows.get? id with
  | some row => rows.insert id { row with ended := ended, evidence := evidence }
  | none => rows.insert id ⟨started, ended, evidence⟩

theorem get?_upsertRow {ε : Type} (rows : SortedDict Nat (AvailabilityRow ε)) (id started : Nat)
    (ended : Option Nat) (evidence : ε) (other : Nat) :
    (upsertRow rows id started ended evidence).get? other =
      if other = id then some ⟨((rows.get? id).map AvailabilityRow.started).getD started,
        ended, evidence⟩
      else rows.get? other := by
  unfold upsertRow
  split
  · next row hrow =>
    rw [SortedDict.get?_insert, hrow]
    rfl
  · next hnone =>
    rw [SortedDict.get?_insert, hnone]
    rfl

def upsertGap (rows : SortedDict Nat AvailabilityGap) :
    Option GapChange → SortedDict Nat AvailabilityGap
  | none => rows
  | some gap => upsertRow rows gap.gapId gap.started gap.ended gap

/-- The rows of a source after an entry. -/
def writeEntry (tables : Option SourceTables) (entry : JournalEntry) : SourceTables where
  state := entry.state
  lifecycle := upsertRow ((tables.map SourceTables.lifecycle).getD .empty) entry.intervalId
    entry.intervalStarted entry.intervalEnded ()
  gaps := upsertGap ((tables.map SourceTables.gaps).getD .empty) entry.gap

/-- `persist_source_availability`: one transaction. -/
def AvailabilityCatalog.persist (catalog : AvailabilityCatalog) (batch : List JournalEntry)
    (watermark : Option (Nat × Nat)) : AvailabilityCatalog where
  sources := batch.foldl (fun sources entry => sources.insert entry.state.sourceId
    (writeEntry (sources.get? entry.state.sourceId) entry)) catalog.sources
  watermarks := match watermark with
    | none => catalog.watermarks
    | some (selectionId, evaluatedThrough) => catalog.watermarks.insert selectionId evaluatedThrough

/-- Up to when a source was observed: for a healthy source the watermark of its selection counts. -/
def observedThrough (watermarks : SortedDict Nat Nat) (state : AvailabilityState) : Nat :=
  if state.unavailableSince = none ∧ state.dormant = false then
    match watermarks.get? state.selectionId with
    | some watermark => max state.observedAt watermark
    | none => state.observedAt
  else state.observedAt

/-- `source_availability`. -/
def AvailabilityCatalog.sourceAvailability (catalog : AvailabilityCatalog) :
    SortedDict String AvailabilityState :=
  catalog.sources.mapValues fun _ tables =>
    { tables.state with observedAt := observedThrough catalog.watermarks tables.state }

/-! ## The account -/

/-- `row["ended_at_utc_ns"] or end`. -/
def endedOr (ended : Option Nat) (last : Nat) : Nat :=
  match ended with
  | none => last
  | some 0 => last
  | some e => e

structure SourceReport where
  eligible : List (Nat × Nat)
  unavailable : List (Nat × Nat)
  latestState : AvailabilityState

namespace SourceReport

def duration (intervals : List (Nat × Nat)) : Nat := (intervals.map fun p => p.2 - p.1).sum

def eligibleNs (report : SourceReport) : Nat := duration report.eligible

def unavailableOrUnknownNs (report : SourceReport) : Nat := duration report.unavailable

end SourceReport

/-- The part of a row that lies in a window. -/
def clipInterval {ε : Type} (first last : Nat) (row : AvailabilityRow ε) : Nat × Nat :=
  (max first row.started, min last (endedOr row.ended last))

/-- `source_availability_intervals`. -/
def gapsWithin (tables : SourceTables) (first last : Nat) : List AvailabilityGap :=
  (tables.gaps.items.map Prod.snd).filter fun row =>
    decide (row.started < last) && row.ended.all fun ended => decide (first < ended)

/-- `continuity_report`, of one source; nothing for a source that the catalog does not know. -/
def continuityReport (catalog : AvailabilityCatalog) (first last : Nat) (sourceId : String) :
    Except String (Option SourceReport) :=
  if last ≤ first then .error "continuity start must precede end"
  else .ok do
    let state ← catalog.sourceAvailability.get? sourceId
    let tables ← catalog.sources.get? sourceId
    let eligible := Intervals.union
      ((tables.lifecycle.items.map Prod.snd).map (clipInterval first last))
    -- what was not observed is never counted as healthy
    let gaps := (gapsWithin tables first last).map (clipInterval first last) ++
      [(max first state.observedAt, last)]
    let unavailable := Intervals.union (eligible.flatMap fun p =>
      gaps.map fun q => (max p.1 q.1, min p.2 q.2))
    return { eligible := eligible, unavailable := unavailable, latestState := state }

/-! ## What the rows reach -/

namespace AvailabilityRow

variable {ε : Type}

/-- An eligibility interval has an instant; an end at the epoch is read as no end. -/
def Eligible (row : AvailabilityRow ε) (t : Nat) : Prop :=
  row.started ≤ t ∧ ∀ ended, row.ended = some ended → ended = 0 ∨ t < ended

/-- A gap has an instant. -/
def Covers (row : AvailabilityRow ε) (t : Nat) : Prop :=
  row.started ≤ t ∧ ∀ ended, row.ended = some ended → t < ended

end AvailabilityRow

theorem covered_clip_eligible {rows : SortedDict Nat AvailabilityInterval} {first last t : Nat} :
    Intervals.Covered ((rows.items.map Prod.snd).map (clipInterval first last)) t ↔
      (first ≤ t ∧ t < last) ∧ ∃ id row, rows.get? id = some row ∧ row.Eligible t := by
  have hclip : ∀ row : AvailabilityInterval,
      (max first row.started ≤ t ∧ t < min last (endedOr row.ended last)) ↔
        (first ≤ t ∧ t < last) ∧ row.Eligible t := by
    intro row
    obtain ⟨started, ended, -⟩ := row
    rw [max_le_iff, lt_min_iff, AvailabilityRow.Eligible]
    match ended with
    | none => simp [endedOr]; omega
    | some 0 => simp [endedOr]; omega
    | some (e + 1) => simp [endedOr]; omega
  constructor
  · rintro ⟨p, hp, hin⟩
    obtain ⟨row, hrow, rfl⟩ := List.mem_map.mp hp
    obtain ⟨item, hitem, rfl⟩ := List.mem_map.mp hrow
    obtain ⟨hwindow, heligible⟩ := (hclip item.2).mp hin
    exact ⟨hwindow, item.1, item.2, SortedDict.get?_eq_some_iff.mpr hitem, heligible⟩
  · rintro ⟨hwindow, id, row, hrow, heligible⟩
    refine ⟨clipInterval first last row, List.mem_map_of_mem (List.mem_map.mpr ?_),
      (hclip row).mpr ⟨hwindow, heligible⟩⟩
    exact ⟨(id, row), SortedDict.get?_eq_some_iff.mp hrow, rfl⟩

theorem covered_clip_gaps {tables : SourceTables} {first last t : Nat} (hfirst : first ≤ t)
    (hlast : t < last) :
    Intervals.Covered ((gapsWithin tables first last).map (clipInterval first last)) t ↔
      ∃ id row, tables.gaps.get? id = some row ∧ row.Covers t := by
  have hclip : ∀ row : AvailabilityGap,
      ((row.started < last ∧ ∀ ended, row.ended = some ended → first < ended) ∧
        max first row.started ≤ t ∧ t < min last (endedOr row.ended last)) ↔ row.Covers t := by
    intro row
    obtain ⟨started, ended, evidence⟩ := row
    rw [max_le_iff, lt_min_iff, AvailabilityRow.Covers]
    match ended with
    | none => simp [endedOr]; omega
    | some 0 => simp [endedOr]
    | some (e + 1) => simp [endedOr]; omega
  have hmem : ∀ row, row ∈ gapsWithin tables first last ↔ (∃ id, tables.gaps.get? id = some row) ∧
      row.started < last ∧ ∀ ended, row.ended = some ended → first < ended := by
    intro row
    rw [gapsWithin, List.mem_filter, Bool.and_eq_true, decide_eq_true_eq]
    have hall : (row.ended.all fun ended => decide (first < ended)) = true ↔
        ∀ ended, row.ended = some ended → first < ended := by
      cases row.ended <;> simp
    have hrow : row ∈ tables.gaps.items.map Prod.snd ↔ ∃ id, tables.gaps.get? id = some row := by
      constructor
      · intro hrow
        obtain ⟨item, hitem, rfl⟩ := List.mem_map.mp hrow
        exact ⟨item.1, SortedDict.get?_eq_some_iff.mpr hitem⟩
      · rintro ⟨id, hid⟩
        exact List.mem_map.mpr ⟨(id, row), SortedDict.get?_eq_some_iff.mp hid, rfl⟩
    rw [hall, hrow]
  constructor
  · rintro ⟨p, hp, hin⟩
    obtain ⟨row, hrow, rfl⟩ := List.mem_map.mp hp
    obtain ⟨⟨id, hid⟩, hwithin⟩ := (hmem row).mp hrow
    exact ⟨id, row, hid, (hclip row).mp ⟨hwithin, hin⟩⟩
  · rintro ⟨id, row, hid, hcovers⟩
    obtain ⟨hwithin, hin⟩ := (hclip row).mpr hcovers
    exact ⟨clipInterval first last row, List.mem_map_of_mem ((hmem row).mpr ⟨⟨id, hid⟩, hwithin⟩),
      hin⟩

theorem covered_append (a b : List (Nat × Nat)) (t : Nat) :
    Intervals.Covered (a ++ b) t ↔ Intervals.Covered a t ∨ Intervals.Covered b t := by
  simp only [Intervals.Covered, List.mem_append, or_and_right, exists_or]

theorem covered_meet (a b : List (Nat × Nat)) (t : Nat) :
    Intervals.Covered (a.flatMap fun p => b.map fun q => (max p.1 q.1, min p.2 q.2)) t ↔
      Intervals.Covered a t ∧ Intervals.Covered b t := by
  constructor
  · rintro ⟨r, hr, hin⟩
    obtain ⟨p, hp, hr⟩ := List.mem_flatMap.mp hr
    obtain ⟨q, hq, rfl⟩ := List.mem_map.mp hr
    have hin' : max p.1 q.1 ≤ t ∧ t < min p.2 q.2 := hin
    rw [max_le_iff, lt_min_iff] at hin'
    exact ⟨⟨p, hp, hin'.1.1, hin'.2.1⟩, q, hq, hin'.1.2, hin'.2.2⟩
  · rintro ⟨⟨p, hp, hp1, hp2⟩, q, hq, hq1, hq2⟩
    exact ⟨(max p.1 q.1, min p.2 q.2), List.mem_flatMap.mpr ⟨p, hp, List.mem_map_of_mem hq⟩,
      max_le hp1 hq1, lt_min hp2 hq2⟩

/-! ## What is credited -/

/-- The account counts an instant as available: eligible, and neither unavailable nor unknown. -/
def Credits (catalog : AvailabilityCatalog) (first last : Nat) (sourceId : String) (t : Nat) :
    Prop :=
  ∃ report, continuityReport catalog first last sourceId = .ok (some report) ∧
    Intervals.Covered report.eligible t ∧ ¬ Intervals.Covered report.unavailable t

/-- The rows of a source credit an instant. -/
structure Credited (watermarks : SortedDict Nat Nat) (tables : SourceTables) (t : Nat) : Prop where
  observed : t < observedThrough watermarks tables.state
  eligible : ∃ id row, tables.lifecycle.get? id = some row ∧ row.Eligible t
  noGap : ∀ id row, tables.gaps.get? id = some row → ¬ row.Covers t

/-- The account credits the instants of the window that the rows credit. -/
theorem credits_iff (catalog : AvailabilityCatalog) (first last : Nat) (sourceId : String)
    (t : Nat) : Credits catalog first last sourceId t ↔ (first ≤ t ∧ t < last) ∧
      ∃ tables, catalog.sources.get? sourceId = some tables ∧
        Credited catalog.watermarks tables t := by
  rw [Credits, continuityReport]
  by_cases hwindow : last ≤ first
  · rw [if_pos hwindow]
    constructor
    · rintro ⟨report, hreport, -⟩
      cases hreport
    · rintro ⟨⟨hfirst, hlast⟩, -⟩
      omega
  rw [if_neg hwindow]
  cases htables : catalog.sources.get? sourceId with
  | none =>
    constructor
    · rintro ⟨report, hreport, -⟩
      have hnone := Except.ok.inj hreport
      rw [AvailabilityCatalog.sourceAvailability, SortedDict.get?_mapValues, htables] at hnone
      cases hnone
    · rintro ⟨-, tables, hsome, -⟩
      cases hsome
  | some tables =>
    have hstate : catalog.sourceAvailability.get? sourceId = some { tables.state with
        observedAt := observedThrough catalog.watermarks tables.state } := by
      rw [AvailabilityCatalog.sourceAvailability, SortedDict.get?_mapValues, htables]
      rfl
    simp only [hstate, Option.bind_eq_bind, Option.bind_some, Option.pure_def, Except.ok.injEq,
      Option.some.injEq, exists_eq_left', Intervals.covered_union, covered_meet, covered_append,
      covered_clip_eligible]
    constructor
    · rintro ⟨⟨⟨hfirst, hlast⟩, heligible⟩, hnot⟩
      refine ⟨⟨hfirst, hlast⟩, ?_, heligible, ?_⟩
      · by_contra hobserved
        refine hnot ⟨⟨⟨hfirst, hlast⟩, heligible⟩, Or.inr ?_⟩
        simp only [Intervals.covered_cons, Intervals.covered_nil, or_false, max_le_iff]
        exact ⟨⟨hfirst, not_lt.mp hobserved⟩, hlast⟩
      · intro id row hrow hcovers
        exact hnot ⟨⟨⟨hfirst, hlast⟩, heligible⟩,
          Or.inl ((covered_clip_gaps hfirst hlast).mpr ⟨id, row, hrow, hcovers⟩)⟩
    · rintro ⟨⟨hfirst, hlast⟩, hcredited⟩
      refine ⟨⟨⟨hfirst, hlast⟩, hcredited.eligible⟩, ?_⟩
      rintro ⟨-, hgap | hunknown⟩
      · obtain ⟨id, row, hrow, hcovers⟩ := (covered_clip_gaps hfirst hlast).mp hgap
        exact hcredited.noGap id row hrow hcovers
      · simp only [Intervals.covered_cons, Intervals.covered_nil, or_false, max_le_iff] at hunknown
        exact absurd hcredited.observed (not_lt.mpr hunknown.1.2)

instance {ε : Type} (row : AvailabilityRow ε) (t : Nat) : Decidable (row.Eligible t) :=
  inferInstanceAs (Decidable (row.started ≤ t ∧ ∀ ended ∈ row.ended, ended = 0 ∨ t < ended))

instance {ε : Type} (row : AvailabilityRow ε) (t : Nat) : Decidable (row.Covers t) :=
  inferInstanceAs (Decidable (row.started ≤ t ∧ ∀ ended ∈ row.ended, t < ended))

/-- What the rows credit can be read off their items. -/
theorem credited_iff (watermarks : SortedDict Nat Nat) (tables : SourceTables) (t : Nat) :
    (t < observedThrough watermarks tables.state ∧
      (∃ item ∈ tables.lifecycle.items, item.2.Eligible t) ∧
      ∀ item ∈ tables.gaps.items, ¬ item.2.Covers t) ↔ Credited watermarks tables t := by
  constructor
  · rintro ⟨hobserved, ⟨item, hitem, heligible⟩, hgaps⟩
    refine ⟨hobserved, ⟨item.1, item.2, SortedDict.get?_eq_some_iff.mpr hitem, heligible⟩, ?_⟩
    intro id row hrow
    exact hgaps (id, row) (SortedDict.get?_eq_some_iff.mp hrow)
  · rintro ⟨hobserved, ⟨id, row, hrow, heligible⟩, hgaps⟩
    refine ⟨hobserved, ⟨(id, row), SortedDict.get?_eq_some_iff.mp hrow, heligible⟩, ?_⟩
    intro item hitem
    exact hgaps item.1 item.2 (SortedDict.get?_eq_some_iff.mpr hitem)

instance (watermarks : SortedDict Nat Nat) (tables : SourceTables) (t : Nat) :
    Decidable (Credited watermarks tables t) :=
  decidable_of_iff _ (credited_iff watermarks tables t)

instance (catalog : AvailabilityCatalog) (first last : Nat) (sourceId : String) (t : Nat) :
    Decidable (Credits catalog first last sourceId t) :=
  decidable_of_iff ((first ≤ t ∧ t < last) ∧ ∃ tables ∈ catalog.sources.get? sourceId,
    Credited catalog.watermarks tables t) (credits_iff catalog first last sourceId t).symm

end MarketDataRecorder
