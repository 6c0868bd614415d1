import Mathlib.Algebra.Order.Field.Rat
import Mathlib.Tactic.GCongr
import MarketDataRecorder.Collector.AvailabilityCatalog

/-!
# The arithmetic of the continuity report

`metrics/continuity.py`: what a report of a source counts as eligible and as unavailable, compared
with the sets of instants that the rows of the source stand for.

* `ReportExact` — the intervals of a report are those sets, and its two sums their sizes
* `continuityReport_exact_iff` — a report is exact unless a row that ends at the epoch, which is
  read as a row without an end, reaches an instant that no other row does
-/

namespace MarketDataRecorder

/-! ## What the rows stand for -/

namespace AvailabilityCatalog

/-- A lifecycle row of the source has the instant. -/
def EligibleAt (catalog : AvailabilityCatalog) (sourceId : String) (t : Nat) : Prop :=
  ∃ tables, catalog.sources.get? sourceId = some tables ∧
    ∃ id row, tables.lifecycle.get? id = some row ∧ row.Covers t

/-- A gap of the source has the instant. -/
def GapAt (catalog : AvailabilityCatalog) (sourceId : String) (t : Nat) : Prop :=
  ∃ tables, catalog.sources.get? sourceId = some tables ∧
    ∃ id row, tables.gaps.get? id = some row ∧ row.Covers t

/-- The source was not observed up to the instant. -/
def UnobservedAt (catalog : AvailabilityCatalog) (sourceId : String) (t : Nat) : Prop :=
  ∃ tables, catalog.sources.get? sourceId = some tables ∧
    observedThrough catalog.watermarks tables.state ≤ t

/-- The eligible instants of a window. -/
def eligibleSet (catalog : AvailabilityCatalog) (first last : Nat) (sourceId : String) : Set Nat :=
  {t | (first ≤ t ∧ t < last) ∧ catalog.EligibleAt sourceId t}

/-- Those of them that lie in a gap or in the remainder that was not observed. -/
def lostSet (catalog : AvailabilityCatalog) (first last : Nat) (sourceId : String) : Set Nat :=
  {t | t ∈ catalog.eligibleSet first last sourceId ∧
    (catalog.GapAt sourceId t ∨ catalog.UnobservedAt sourceId t)}

/-- The catalog with one more gap of a source. -/
def withGap (catalog : AvailabilityCatalog) (sourceId : String) (gapId : Nat)
    (row : AvailabilityGap) : AvailabilityCatalog :=
  match catalog.sources.get? sourceId with
  | none => catalog
  | some tables =>
    let tables := { tables with gaps := tables.gaps.insert gapId row }
    { catalog with sources := catalog.sources.insert sourceId tables }

/-- The gap is not registered. -/
def NewGap (catalog : AvailabilityCatalog) (sourceId : String) (gapId : Nat) : Prop :=
  ∀ tables, catalog.sources.get? sourceId = some tables → tables.gaps.get? gapId = none

/-- What a lifecycle row that ends at the epoch is read to reach in a window is eligible by another
row. -/
def EpochEndsCovered (catalog : AvailabilityCatalog) (first last : Nat) (sourceId : String) :
    Prop :=
  ∀ tables, catalog.sources.get? sourceId = some tables →
    ∀ id row, tables.lifecycle.get? id = some row → row.ended = some 0 →
      ∀ t, first ≤ t → t < last → row.started ≤ t → catalog.EligibleAt sourceId t

end AvailabilityCatalog

/-! ## Coverage -/

/-- `1 - lost / duration if duration else None`; `round` is the rounding of a float operation. -/
def SourceReport.coverage (round : ℚ → ℚ) (report : SourceReport) : Option ℚ :=
  if report.eligibleNs = 0 then none
  else some (round (1 - round (report.unavailableOrUnknownNs / report.eligibleNs)))

/-- A coverage is not above another one; where nothing is eligible, neither has a value. -/
def NotRaised : Option ℚ → Option ℚ → Prop
  | none, none => True
  | some a, some b => a ≤ b
  | _, _ => False

/-- **A report is exact.** -/
structure ReportExact (round : ℚ → ℚ) (catalog : AvailabilityCatalog) (first last : Nat)
    (sourceId : String) (report : SourceReport) : Prop where
  eligibleSeparated : Intervals.Separated report.eligible
  eligible : {t | Intervals.Covered report.eligible t} = catalog.eligibleSet first last sourceId
  unavailableSeparated : Intervals.Separated report.unavailable
  unavailable : {t | Intervals.Covered report.unavailable t} = catalog.lostSet first last sourceId
  eligibleMeasured : report.eligibleNs = (catalog.eligibleSet first last sourceId).ncard
  lostMeasured : report.unavailableOrUnknownNs = (catalog.lostSet first last sourceId).ncard
  bounded : report.unavailableOrUnknownNs ≤ report.eligibleNs
  gapsLower : ∀ gapId row other, catalog.NewGap sourceId gapId →
    continuityReport (catalog.withGap sourceId gapId row) first last sourceId = .ok (some other) →
      NotRaised (other.coverage round) (report.coverage round)

/-! ## What a report covers -/

section

variable {catalog : AvailabilityCatalog} {first last : Nat} {sourceId : String}
  {report : SourceReport}

/-- The intervals of a report, as they are computed. -/
theorem continuityReport_eq_ok
    (h : continuityReport catalog first last sourceId = .ok (some report)) :
    ∃ tables, catalog.sources.get? sourceId = some tables ∧
      report.eligible = Intervals.union
        ((tables.lifecycle.items.map Prod.snd).map (clipInterval first last)) ∧
      report.unavailable = Intervals.union (report.eligible.flatMap fun p =>
        ((gapsWithin tables first last).map (clipInterval first last) ++
          [(max first (observedThrough catalog.watermarks tables.state), last)]).map fun q =>
            (max p.1 q.1, min p.2 q.2)) := by
  rw [continuityReport] at h
  split at h
  · cases h
  have hsome := Except.ok.inj h
  cases htables : catalog.sources.get? sourceId with
  | none =>
    rw [AvailabilityCatalog.sourceAvailability, SortedDict.get?_mapValues, htables] at hsome
    cases hsome
  | some tables =>
    rw [AvailabilityCatalog.sourceAvailability, SortedDict.get?_mapValues, htables] at hsome
    cases hsome
    exact ⟨tables, rfl, rfl, rfl⟩

theorem separated_report (h : continuityReport catalog first last sourceId = .ok (some report)) :
    Intervals.Separated report.eligible ∧ Intervals.Separated report.unavailable := by
  obtain ⟨tables, -, heligible, hunavailable⟩ := continuityReport_eq_ok h
  rw [hunavailable, heligible]
  exact ⟨Intervals.separated_union _, Intervals.separated_union _⟩

theorem covered_eligible {tables : SourceTables}
    (h : continuityReport catalog first last sourceId = .ok (some report))
    (htables : catalog.sources.get? sourceId = some tables) (t : Nat) :
    Intervals.Covered report.eligible t ↔ (first ≤ t ∧ t < last) ∧
      ∃ id row, tables.lifecycle.get? id = some row ∧ row.Eligible t := by
  obtain ⟨tables', htables', heligible, -⟩ := continuityReport_eq_ok h
  rw [htables] at htables'
  obtain rfl := Option.some.inj htables'
  rw [heligible, Intervals.covered_union, covered_clip_eligible]

/-- Unavailable is what is eligible, and in a gap or not observed. -/
theorem covered_unavailable
    (h : continuityReport catalog first last sourceId = .ok (some report)) (t : Nat) :
    Intervals.Covered report.unavailable t ↔ Intervals.Covered report.eligible t ∧
      (catalog.GapAt sourceId t ∨ catalog.UnobservedAt sourceId t) := by
  obtain ⟨tables, htables, -, hunavailable⟩ := continuityReport_eq_ok h
  have hgap : catalog.GapAt sourceId t ↔ ∃ id row, tables.gaps.get? id = some row ∧
    row.Covers t := by
    simp only [AvailabilityCatalog.GapAt, htables, Option.some.injEq, exists_eq_left']
  have hunobserved : catalog.UnobservedAt sourceId t ↔
      observedThrough catalog.watermarks tables.state ≤ t := by
    simp only [AvailabilityCatalog.UnobservedAt, htables, Option.some.injEq, exists_eq_left']
  rw [hunavailable, Intervals.covered_union, covered_meet, covered_append, hgap, hunobserved]
  refine and_congr_right fun heligible => ?_
  obtain ⟨⟨hfirst, hlast⟩, -⟩ := (covered_eligible h htables t).mp heligible
  rw [covered_clip_gaps hfirst hlast, Intervals.covered_cons]
  have hrest : (max first (observedThrough catalog.watermarks tables.state) ≤ t ∧ t < last) ↔
      observedThrough catalog.watermarks tables.state ≤ t := by
    rw [max_le_iff]
    exact ⟨fun hin => hin.1.2, fun hin => ⟨⟨hfirst, hin⟩, hlast⟩⟩
  simp only [hrest, Intervals.covered_nil, or_false]

/-- A report is read off its rows, or counts the rows that end at the epoch for more. -/
theorem eligible_eq_iff (h : continuityReport catalog first last sourceId = .ok (some report)) :
    {t | Intervals.Covered report.eligible t} = catalog.eligibleSet first last sourceId ↔
      catalog.EpochEndsCovered first last sourceId := by
  obtain ⟨tables, htables, -, -⟩ := continuityReport_eq_ok h
  constructor
  · intro hexact tables' htables' id row hrow hended t hfirst hlast hstarted
    rw [htables] at htables'
    obtain rfl := Option.some.inj htables'
    have hread : Intervals.Covered report.eligible t := by
      refine (covered_eligible h htables t).mpr ⟨⟨hfirst, hlast⟩, id, row, hrow, hstarted, ?_⟩
      intro ended hsome
      rw [hended] at hsome
      exact Or.inl (Option.some.inj hsome).symm
    exact (hexact ▸ hread : t ∈ catalog.eligibleSet first last sourceId).2
  · intro hcovered
    ext t
    rw [Set.mem_ofPred_eq, covered_eligible h htables]
    refine and_congr_right fun hwindow => ⟨?_, ?_⟩
    · rintro ⟨id, row, hrow, hstarted, hbefore⟩
      cases hended : row.ended with
      | none => exact ⟨tables, htables, id, row, hrow, hstarted, fun e he => by simp [hended] at he⟩
      | some ended =>
        rcases hbefore ended hended with hzero | hlt
        · rw [hzero] at hended
          exact hcovered tables htables id row hrow hended t hwindow.1 hwindow.2 hstarted
        · refine ⟨tables, htables, id, row, hrow, hstarted, fun e he => ?_⟩
          rw [hended] at he
          exact Option.some.inj he ▸ hlt
    · rintro ⟨tables', htables', id, row, hrow, hstarted, hbefore⟩
      rw [htables] at htables'
      obtain rfl := Option.some.inj htables'
      exact ⟨id, row, hrow, hstarted, fun ended hended => Or.inr (hbefore ended hended)⟩

/-! ## Another gap -/

theorem get?_withGap {tables : SourceTables} (htables : catalog.sources.get? sourceId = some tables)
    (gapId : Nat) (row : AvailabilityGap) :
    (catalog.withGap sourceId gapId row).sources.get? sourceId =
      some { tables with gaps := tables.gaps.insert gapId row } := by
  simp only [AvailabilityCatalog.withGap, htables, SortedDict.get?_insert, if_true]

/-- With another gap the same is eligible, and no less is lost. -/
theorem withGap_loses {other : SourceReport} {gapId : Nat} {row : AvailabilityGap}
    (hnew : catalog.NewGap sourceId gapId)
    (h : continuityReport catalog first last sourceId = .ok (some report))
    (hother : continuityReport (catalog.withGap sourceId gapId row) first last sourceId =
      .ok (some other)) :
    other.eligibleNs = report.eligibleNs ∧
      report.unavailableOrUnknownNs ≤ other.unavailableOrUnknownNs := by
  obtain ⟨tables, htables, heligible, -⟩ := continuityReport_eq_ok h
  have hget := get?_withGap htables gapId row
  obtain ⟨tables', htables', heligible', -⟩ := continuityReport_eq_ok hother
  rw [hget] at htables'
  obtain rfl := Option.some.inj htables'
  have hsame : other.eligible = report.eligible := heligible'.trans heligible.symm
  have hwatermarks : (catalog.withGap sourceId gapId row).watermarks = catalog.watermarks := by
    simp only [AvailabilityCatalog.withGap, htables]
  refine ⟨congrArg SourceReport.duration hsame, ?_⟩
  refine Intervals.length_le_length (separated_report h).2
    (separated_report hother).2 fun t ht => ?_
  rw [covered_unavailable h] at ht
  rw [covered_unavailable hother, hsame]
  refine ⟨ht.1, ht.2.imp ?_ ?_⟩
  · rintro ⟨tables', htables', id, old, hold, hcovers⟩
    rw [htables] at htables'
    obtain rfl := Option.some.inj htables'
    refine ⟨_, hget, id, old, ?_, hcovers⟩
    rw [SortedDict.get?_insert, if_neg, hold]
    rintro rfl
    rw [hnew tables htables] at hold
    cases hold
  · rintro ⟨tables', htables', hobserved⟩
    rw [htables] at htables'
    obtain rfl := Option.some.inj htables'
    exact ⟨_, hget, by rw [hwatermarks]; exact hobserved⟩

/-- Where more of the same is lost, the coverage is not above. -/
theorem notRaised_of_loses {round : ℚ → ℚ} (hround : Monotone round) {other : SourceReport}
    (heligible : other.eligibleNs = report.eligibleNs)
    (hlost : report.unavailableOrUnknownNs ≤ other.unavailableOrUnknownNs) :
    NotRaised (other.coverage round) (report.coverage round) := by
  rw [SourceReport.coverage, SourceReport.coverage, heligible]
  by_cases hnone : report.eligibleNs = 0
  · rw [if_pos hnone, if_pos hnone]
    trivial
  · rw [if_neg hnone, if_neg hnone]
    have hshare : (report.unavailableOrUnknownNs / report.eligibleNs : ℚ) ≤
        other.unavailableOrUnknownNs / report.eligibleNs := by
      gcongr
    exact hround (sub_le_sub_left (hround hshare) 1)

end

deriving instance DecidableEq for SourceReport

/-! ## Reports -/

/-- **A report is exact if and only if what rows that end at the epoch are read to reach is eligible
by other rows.** -/
theorem continuityReport_exact_iff {round : ℚ → ℚ} (hround : Monotone round)
    {catalog : AvailabilityCatalog} {first last : Nat} {sourceId : String} {report : SourceReport}
    (h : continuityReport catalog first last sourceId = .ok (some report)) :
    ReportExact round catalog first last sourceId report ↔
      catalog.EpochEndsCovered first last sourceId := by
  refine ⟨fun hexact => (eligible_eq_iff h).mp hexact.eligible, fun hcovered => ?_⟩
  have heligible := (eligible_eq_iff h).mpr hcovered
  have hlost : {t | Intervals.Covered report.unavailable t} =
      catalog.lostSet first last sourceId := by
    ext t
    rw [Set.mem_ofPred_eq, covered_unavailable h, AvailabilityCatalog.lostSet, ← heligible]
    rfl
  have hseparated := separated_report h
  refine ⟨hseparated.1, heligible, hseparated.2, hlost, ?_, ?_, ?_, ?_⟩
  · rw [← heligible]
    exact Intervals.length_eq_ncard hseparated.1
  · rw [← hlost]
    exact Intervals.length_eq_ncard hseparated.2
  · exact Intervals.length_le_length hseparated.2 hseparated.1 fun t ht =>
      ((covered_unavailable h t).mp ht).1
  · intro gapId row other hnew hother
    obtain ⟨hsame, hmore⟩ := withGap_loses hnew h hother
    exact notRaised_of_loses hround hsame hmore

/-- A source that was eligible twice, had a gap of one instant, and was not observed at the end. -/
def sampleObserved : SourceTables where
  state := {
    sourceId := "a"
    selectionId := 0
    observedAt := 15
    eligibleSince := 10
    eligibilityId := 2 }
  lifecycle := .ofItems [(1, ⟨0, some 4, ()⟩), (2, ⟨10, none, ()⟩)]
  gaps := .ofItems [(3, ⟨11, some 12, ⟨3, some "TimeoutError", 11, some 12⟩⟩)]

def sampleAvailability : AvailabilityCatalog where
  sources := .ofItems [("a", sampleObserved)]

def sampleReport : SourceReport where
  eligible := [(0, 4), (10, 20)]
  unavailable := [(11, 12), (15, 20)]
  latestState := sampleObserved.state

theorem continuityReport_exact_iff_sample :
    ReportExact id sampleAvailability 0 20 "a" sampleReport := by
  refine (continuityReport_exact_iff monotone_id (by decide_cbv)).mpr ?_
  -- no row ends at the epoch
  intro tables htables id row hrow hended
  obtain rfl : sampleObserved = tables := by
    have hget : sampleAvailability.sources.get? "a" = some sampleObserved := by rfl
    exact Option.some.inj (hget.symm.trans htables)
  have hrows : ∀ item ∈ sampleObserved.lifecycle.items, item.2.ended ≠ some 0 := by decide
  exact absurd hended (hrows (id, row) (SortedDict.get?_eq_some_iff.mp hrow))

/-- A source that was eligible for no time at all, at the epoch. -/
def epochObserved : SourceTables where
  state := {
    sourceId := "a"
    selectionId := 0
    observedAt := 20
    eligibleSince := 0
    eligibilityId := 1 }
  lifecycle := .ofItems [(1, ⟨0, some 0, ()⟩)]
  gaps := .empty

def epochAvailability : AvailabilityCatalog where
  sources := .ofItems [("a", epochObserved)]

/-- **It is counted as eligible up to the end of the window.** -/
theorem epoch_end_is_open :
    ∃ report, continuityReport epochAvailability 0 20 "a" = .ok (some report) ∧
      report.eligibleNs = 20 ∧ ¬ ReportExact id epochAvailability 0 20 "a" report := by
  have hreport : continuityReport epochAvailability 0 20 "a" = .ok (some
      { eligible := [(0, 20)], unavailable := [], latestState := epochObserved.state }) := by
    decide_cbv
  refine ⟨_, hreport, rfl, fun hexact => ?_⟩
  have hcovered := (eligible_eq_iff hreport).mp hexact.eligible epochObserved rfl 1
    ⟨0, some 0, ()⟩ (by decide) rfl 5 (by decide) (by decide) (by decide)
  obtain ⟨tables, htables, id, row, hrow, -, hbefore⟩ := hcovered
  obtain rfl : epochObserved = tables := by
    have hget : epochAvailability.sources.get? "a" = some epochObserved := by rfl
    exact Option.some.inj (hget.symm.trans htables)
  have hrows : ∀ item ∈ epochObserved.lifecycle.items, item.2.ended = some 0 := by decide
  exact absurd (hbefore 0 (hrows (id, row) (SortedDict.get?_eq_some_iff.mp hrow)))
    (Nat.not_lt_zero 5)

end MarketDataRecorder
