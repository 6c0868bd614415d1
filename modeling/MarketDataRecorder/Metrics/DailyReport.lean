import MarketDataRecorder.Metrics.ReportDocument
import MarketDataRecorder.Metrics.ReportInputs

/-!
# The daily report

`DailyReporter.build`: what a report of a day says of its streams, made from the rows that its loops
read.

* `ReportBuild.report` — a build, while rows may be committed
* `report_eq_build` — it is one over the Catalog it started with where its inputs do not change
-/

namespace MarketDataRecorder

open MetricAggregate

def RemoteAuthorization.streamKey (row : RemoteAuthorization) : StreamKey :=
  toLex (row.market, row.stream)

section

variable {ν : Type}

def archived (a : MetricAggregate ν) (row : RemoteAuthorization) :
    Except String (MetricAggregate ν) := do
  let a ← a.increment "archived_files" 1
  a.increment "archived_bytes" row.storedBytes

/-- An authorization counted for its day: its time is an event time of the stream. -/
def archivedOfDay (aggregates : SortedDict StreamKey (MetricAggregate ν))
    (row : RemoteAuthorization) : Except String (SortedDict StreamKey (MetricAggregate ν)) :=
  (archived ((aggregates.get? row.streamKey).getD {}) row).map fun a =>
    aggregates.insert row.streamKey (a.observeEventTime row.createdAtUtcNs)

def archivedEver (historical : SortedDict StreamKey (MetricAggregate ν))
    (row : RemoteAuthorization) : Except String (SortedDict StreamKey (MetricAggregate ν)) :=
  (archived ((historical.get? row.streamKey).getD {}) row).map (historical.insert row.streamKey)

variable [LinearOrder ν] (numbers : GaugeNumbers ν)

omit [LinearOrder ν] in
/-- The document of a stream, with what of it is not archived yet. -/
def streamReport (generatedAt : Int) (historical : SortedDict StreamKey (MetricAggregate ν))
    (item : StreamKey × MetricAggregate ν) : Except String Value :=
  match historical.get? item.1 with
  | none => .error "KeyError"
  | some lifetime =>
    let backlog := max 0 ((lifetime.counters.get? "archive_backlog_bytes").getD 0 -
      (lifetime.counters.get? "archived_bytes").getD 0)
    dailyStreamDocument numbers item.2 (ofLex item.1).1 (ofLex item.1).2 generatedAt backlog
      (if backlog ≠ 0 then lifetime.firstEventTimeUtcNs else none)

/-- What `build` makes of the rows it reads. -/
def reportOf (reading : ReportReading) (day generatedAt : Int) : Except String DailyReport := do
  let aggregates ← reading.dayMetrics.foldlM (mergeRow numbers) .empty
  let historical ← reading.throughMetrics.foldlM (mergeRow numbers) .empty
  let aggregates ← reading.dayRemote.foldlM archivedOfDay aggregates
  let historical ← reading.throughRemote.foldlM archivedEver historical
  let streams ← aggregates.items.mapM (streamReport numbers generatedAt historical)
  return {
    utcDate := day
    generatedAtUtcNs := generatedAt
    status := if streams.isEmpty then "NO_DATA" else "OK"
    batchCount := (reading.dayMetrics.map MetricRow.batchId).dedup.length
    streamCount := streams.length
    streams := streams }

/-- Enough pages for every row of a Catalog. -/
def ReportCatalog.pages (c : ReportCatalog) : Nat := c.metrics.length + c.remote.length + 1

/-- What happens while a report is built: rows are committed, or a file behind an authorization is
not what it should be. -/
structure ReportBuild where
  generatedAt : Int
  fails : Option String
  catalogAt : Nat → Nat → ReportCatalog
  /-- The Catalog when it is built. -/
  after : ReportCatalog

/-- `DailyReporter.build`. -/
def ReportBuild.report (build : ReportBuild) (day : Int) : Except String DailyReport :=
  match build.fails with
  | some message => .error message
  | none => reportOf numbers (readReport build.catalogAt build.after.pages day) day
    build.generatedAt

/-- A build over a Catalog that stays as it is. -/
def ReportCatalog.build (c : ReportCatalog) (generatedAt : Int) : ReportBuild where
  generatedAt := generatedAt
  fails := none
  catalogAt _ _ := c
  after := c

/-- Rows are only added during a build. -/
structure ReportBuild.Follows (build : ReportBuild) (c : ReportCatalog) : Prop where
  start : ∀ loop n, c.Extends (build.catalogAt loop n)
  finish : ∀ loop n, (build.catalogAt loop n).Extends build.after
  all : c.Extends build.after

variable {numbers}

theorem readReport_pages (catalogAt : Nat → Nat → ReportCatalog) {c after : ReportCatalog}
    {day : Int} (hextends : c.Extends after)
    (h : ∀ loop n, (catalogAt loop n).inputs day = c.inputs day) :
    readReport catalogAt after.pages day = (c.inputs day).reading day := by
  have hmetrics := hextends.metrics.length_le
  have hremote := hextends.remote.length_le
  refine readReport_eq h ?_ ?_
  · rw [ReportCatalog.pages]
    omega
  · rw [ReportCatalog.pages]
    omega

theorem report_build (c : ReportCatalog) (day generatedAt : Int) :
    (c.build generatedAt).report numbers day =
      reportOf numbers ((c.inputs day).reading day) day generatedAt := by
  have hreading := readReport_pages (fun _ _ => c) (ReportCatalog.Extends.refl c)
    fun _ _ => Eq.refl (c.inputs day)
  rw [ReportBuild.report, ReportCatalog.build]
  simp only
  rw [hreading]

/-- **A build whose inputs do not change is one over the Catalog it started with.** -/
theorem report_eq_build {build : ReportBuild} {c : ReportCatalog} {day : Int}
    {report : DailyReport} (hfollows : build.Follows c)
    (hinputs : c.inputs day = build.after.inputs day)
    (hreport : build.report numbers day = .ok report) :
    (c.build build.generatedAt).report numbers day = .ok report := by
  have hreading := readReport_pages build.catalogAt hfollows.all fun loop n =>
    ReportCatalog.inputs_between (hfollows.start loop n) (hfollows.finish loop n) hinputs
  rw [ReportBuild.report] at hreport
  cases hfails : build.fails with
  | some message =>
    rw [hfails] at hreport
    cases hreport
  | none =>
    rw [hfails] at hreport
    simp only at hreport
    rw [hreading] at hreport
    rw [report_build]
    exact hreport

/-- Builds over Catalogs with the same inputs say the same. -/
theorem report_build_congr {c c' : ReportCatalog} {day : Int} (h : c.inputs day = c'.inputs day)
    (generatedAt : Int) :
    (c.build generatedAt).report numbers day = (c'.build generatedAt).report numbers day := by
  rw [report_build, report_build, h]

end

end MarketDataRecorder
