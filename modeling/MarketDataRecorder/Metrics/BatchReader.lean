import MarketDataRecorder.Lib.KeysetPages
import MarketDataRecorder.Metrics.ExactlyOnce

/-!
# What a daily report reads

`iter_metric_batches_through` of the Catalog reads rows in pages of 512, in the order of
day, market, stream and batch identity. `DailyReporter.build` merges the rows of its day
stream by stream.

* `iterMetricBatchesThrough` — the rows, page by page
* `mergedRows` — the aggregate of each stream
-/

namespace MarketDataRecorder

open MetricAggregate MetricsRecorder

/-! ## Rows in order -/

abbrev MetricRowKey := Lex (MetricKey × String)

def MetricRow.rowKey (row : MetricRow) : MetricRowKey := toLex (row.key, row.batchId)

/-- The rows up to a day, and from one on. -/
def iterMetricBatchesThrough (table : List MetricRow) (utcDate : Int) (startDate : Option Int) :
    List MetricRow :=
  let through := table.filter fun row => row.key.day ≤ utcDate
  KeysetPages.pages MetricRow.rowKey 512 through (table.length + 1)
    (startDate.map fun day => toLex (metricKey day "" "", ""))

/-- `PRIMARY KEY(batch_id, utc_date, market, stream)`. -/
def UniqueRows (table : List MetricRow) : Prop := (table.map MetricRow.rowKey).Nodup

theorem iterMetricBatchesThrough_eq {table : List MetricRow} (h : UniqueRows table) (utcDate : Int)
    (startDate : Option Int) : iterMetricBatchesThrough table utcDate startDate =
      KeysetPages.inKeyOrder MetricRow.rowKey (KeysetPages.behind MetricRow.rowKey
        (startDate.map fun day => toLex (metricKey day "" "", ""))
        (table.filter fun row => row.key.day ≤ utcDate)) := by
  refine KeysetPages.pages_eq (by decide) (h.sublist (List.filter_sublist.map _)) ?_
  have hbehind := (KeysetPages.behind_sublist MetricRow.rowKey
    (startDate.map fun day => toLex (metricKey day "" "", ""))
    (table.filter fun row => row.key.day ≤ utcDate)).length_le
  have hthrough := List.length_filter_le (fun row => row.key.day ≤ utcDate) table
  omega

/-- A row of a day is behind the start of the day. -/
theorem lt_rowKey_of_day {row : MetricRow} (hname : row.key.market ≠ "") :
    toLex (metricKey row.key.day "" "", "") < row.rowKey := by
  have hmarket : "" < row.key.market := by
    refine lt_of_le_of_ne ?_ (Ne.symm hname)
    exact String.le_iff_toList_le.mpr (not_lt.mp (List.not_lt_nil _))
  refine Prod.Lex.toLex_lt_toLex.mpr (Or.inl ?_)
  refine Prod.Lex.lt_iff.mpr (Or.inr ⟨rfl, ?_⟩)
  exact Prod.Lex.lt_iff.mpr (Or.inl hmarket)

/-! ## Merging -/

section

variable {ν : Type} [LinearOrder ν] (numbers : GaugeNumbers ν)

/-- A stream of a report: its market and its name. -/
abbrev StreamKey := Lex (String × String)

def MetricKey.streamKey (key : MetricKey) : StreamKey := toLex (key.market, key.stream)

/-- `aggregates.setdefault(key, MetricAggregate()).merge(aggregate)`. -/
def mergeInto (current : Option (MetricAggregate ν)) (a : MetricAggregate ν) :
    Option (MetricAggregate ν) :=
  some ((current.getD {}).merge a)

/-- A row merged into the aggregates of a report. -/
def mergeRow (aggregates : SortedDict StreamKey (MetricAggregate ν)) (row : MetricRow) :
    Except String (SortedDict StreamKey (MetricAggregate ν)) :=
  match Json.decode row.aggregateJson with
  | none => .error "aggregate is not JSON"
  | some document => (fromDocument numbers document).map fun a =>
    aggregates.insert row.key.streamKey (((aggregates.get? row.key.streamKey).getD {}).merge a)

/-- The aggregates that `build` merges from the batches of a day. -/
def mergedRows (table : List MetricRow) (utcDate : Int) :
    Except String (SortedDict StreamKey (MetricAggregate ν)) :=
  (iterMetricBatchesThrough table utcDate (some utcDate)).foldlM (mergeRow numbers) .empty

/-- What is merged for a stream. -/
def mergedFor (rows : List MetricRow) (stream : StreamKey) (current : Option (MetricAggregate ν)) :
    Option (MetricAggregate ν) :=
  ((rows.filter fun row => row.key.streamKey = stream).filterMap (rowAggregate numbers)).foldl
    mergeInto
    current

variable {numbers}

theorem mergeRow_eq {row : MetricRow} {a : MetricAggregate ν}
    (ha : rowAggregate numbers row = some a)
    (aggregates : SortedDict StreamKey (MetricAggregate ν)) :
    mergeRow numbers aggregates row = .ok (aggregates.insert row.key.streamKey
      (((aggregates.get? row.key.streamKey).getD {}).merge a)) := by
  rw [rowAggregate, Option.bind_eq_some_iff] at ha
  obtain ⟨document, hdecode, ha⟩ := ha
  cases hparsed : fromDocument numbers document with
  | error message =>
    rw [hparsed] at ha
    cases ha
  | ok parsed =>
    rw [hparsed] at ha
    cases ha
    simp only [mergeRow, hdecode, hparsed]
    rfl

/-- **The rows of each stream are merged in the order they are read in.** -/
theorem foldlM_mergeRow : ∀ {rows : List MetricRow},
    (∀ row ∈ rows, ∃ a, rowAggregate numbers row = some a) →
    ∀ aggregates : SortedDict StreamKey (MetricAggregate ν),
      ∃ merged, rows.foldlM (mergeRow numbers) aggregates = .ok merged ∧
        ∀ stream, merged.get? stream = mergedFor numbers rows stream (aggregates.get? stream)
  | [], _, aggregates => ⟨aggregates, rfl, fun _ => rfl⟩
  | row :: rows, hrows, aggregates => by
    obtain ⟨a, ha⟩ := hrows row List.mem_cons_self
    obtain ⟨merged, hmerged, hget⟩ := foldlM_mergeRow
      (fun other hother => hrows other (List.mem_cons_of_mem _ hother))
      (aggregates.insert row.key.streamKey
        (((aggregates.get? row.key.streamKey).getD {}).merge a))
    refine ⟨merged, ?_, fun stream => ?_⟩
    · rw [List.foldlM_cons, mergeRow_eq ha]
      exact hmerged
    · rw [hget, SortedDict.get?_insert, mergedFor, mergedFor]
      by_cases hstream : row.key.streamKey = stream
      · have hkeep : decide (row.key.streamKey = stream) = true := by simpa using hstream
        rw [if_pos hstream.symm, List.filter_cons, if_pos hkeep, List.filterMap_cons_some ha,
          List.foldl_cons, hstream]
        rfl
      · have hskip : ¬ decide (row.key.streamKey = stream) = true := by simpa using hstream
        rw [if_neg (Ne.symm hstream), List.filter_cons, if_neg hskip]

end

end MarketDataRecorder
