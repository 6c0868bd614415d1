import MarketDataRecorder.Metrics.BatchReader

/-!
# What a daily report is made from

The tables of the Catalog that a daily report is made from only grow. A report of a day reads the
metric batches up to the day and the remote authorizations that were created before its end, page by
page, while rows may be committed. `daily_report_input_token` counts them: where the token has not
changed, neither has what a report is made from.

* `ReportCatalog.inputs` — what a report of a day is made from
* `ReportCatalog.inputs_eq_of_token` — the token decides whether it changed
* `readReport_eq` — what a build reads where it did not change
-/

namespace MarketDataRecorder

/-! ## Tables -/

/-- The fields of `remote_archive_transactions` that a report reads. -/
structure RemoteAuthorization where
  receiptId : String
  createdAtUtcNs : Int
  market : String
  stream : String
  storedBytes : Nat
  deriving DecidableEq, Repr

def RemoteAuthorization.rowKey (row : RemoteAuthorization) : Lex (Int × String) :=
  toLex (row.createdAtUtcNs, row.receiptId)

/-- The tables that reports are made from, in the order their rows were committed. -/
structure ReportCatalog where
  metrics : List MetricRow
  remote : List RemoteAuthorization
  /-- The receipts that the rows of `remote_archive_events` are of. -/
  remoteEvents : List String
  uniqueMetrics : UniqueRows metrics
  uniqueRemote : (remote.map RemoteAuthorization.rowKey).Nodup

/-- `_utc_date_bounds`. -/
def dayStartNs (day : Int) : Int := day * 86400000000000

def dayEndNs (day : Int) : Int := (day + 1) * 86400000000000

/-- The count and the highest rowid of the rows that are asked for. -/
def revision {α : Type} (p : α → Bool) (rows : List α) : Nat × Nat :=
  ((rows.filter p).length,
    (((rows.zipIdx 1).filter fun row => p row.1).map Prod.snd).max?.getD 0)

structure InputToken where
  metrics : Nat × Nat
  remote : Nat × Nat
  remoteEvents : Nat × Nat
  deriving DecidableEq, Repr

/-- What a report of a day is made from. -/
structure ReportInputs where
  metrics : List MetricRow
  remote : List RemoteAuthorization
  deriving DecidableEq

namespace ReportCatalog

/-- `report_dates_before`. -/
def reportDatesBefore (c : ReportCatalog) (today : Int) : List Int :=
  ((c.metrics.map (fun row => row.key.day) ++
    c.remote.map fun row => utcDayFromNs row.createdAtUtcNs).filter
      fun day => day < today).dedup.insertionSort fun a b => b ≤ a

/-- `daily_report_input_token`. -/
def dailyReportInputToken (c : ReportCatalog) (day : Int) : InputToken where
  metrics := revision (fun row => row.key.day ≤ day) c.metrics
  remote := revision (fun row => row.createdAtUtcNs < dayEndNs day) c.remote
  remoteEvents := revision (fun receiptId => c.remote.any fun row =>
    row.receiptId = receiptId ∧ row.createdAtUtcNs < dayEndNs day) c.remoteEvents

def inputs (c : ReportCatalog) (day : Int) : ReportInputs where
  metrics := c.metrics.filter fun row => row.key.day ≤ day
  remote := c.remote.filter fun row => row.createdAtUtcNs < dayEndNs day

/-- Rows are committed, and none is lost. -/
structure Extends (c c' : ReportCatalog) : Prop where
  metrics : c.metrics <+: c'.metrics
  remote : c.remote <+: c'.remote
  remoteEvents : c.remoteEvents <+: c'.remoteEvents

theorem Extends.refl (c : ReportCatalog) : c.Extends c :=
  ⟨List.prefix_rfl, List.prefix_rfl, List.prefix_rfl⟩

theorem Extends.trans {c c' c'' : ReportCatalog} (h : c.Extends c') (h' : c'.Extends c'') :
    c.Extends c'' :=
  ⟨h.metrics.trans h'.metrics, h.remote.trans h'.remote, h.remoteEvents.trans h'.remoteEvents⟩

/-! ## Growth -/

variable {c c' c'' : ReportCatalog} {day : Int}

/-- Rows that grow by none that are asked for. -/
theorem filter_eq_of_length {α : Type} {p : α → Bool} {rows rows' : List α} (h : rows <+: rows')
    (hlength : (rows.filter p).length = (rows'.filter p).length) : rows.filter p = rows'.filter p :=
  (h.filter p).eq_of_length hlength

/-- **The token decides whether the inputs changed.** -/
theorem inputs_eq_of_token (h : c.Extends c')
    (htoken : c.dailyReportInputToken day = c'.dailyReportInputToken day) :
    c.inputs day = c'.inputs day := by
  have hmetrics := congrArg (fun token => token.metrics.1) htoken
  have hremote := congrArg (fun token => token.remote.1) htoken
  rw [inputs, inputs, filter_eq_of_length h.metrics hmetrics, filter_eq_of_length h.remote hremote]

/-- Between inputs that are the same, they do not change. -/
theorem inputs_between (h : c.Extends c') (h' : c'.Extends c'')
    (heq : c.inputs day = c''.inputs day) :
    c'.inputs day = c.inputs day := by
  have hmetrics := congrArg ReportInputs.metrics heq
  have hremote := congrArg ReportInputs.remote heq
  have hbetween : ∀ {α : Type} {p : α → Bool} {xs ys zs : List α}, xs <+: ys → ys <+: zs →
      xs.filter p = zs.filter p → ys.filter p = xs.filter p := by
    intro α p xs ys zs hxy hyz hxz
    refine (filter_eq_of_length hxy (le_antisymm (hxy.filter p).length_le ?_)).symm
    rw [hxz]
    exact (hyz.filter p).length_le
  rw [inputs, inputs, hbetween h.metrics h'.metrics hmetrics, hbetween h.remote h'.remote hremote]

end ReportCatalog

/-! ## Reading -/

/-- The rows that the loops of a build read. -/
structure ReportReading where
  dayMetrics : List MetricRow
  throughMetrics : List MetricRow
  dayRemote : List RemoteAuthorization
  throughRemote : List RemoteAuthorization
  deriving DecidableEq

/-- `iter_metric_batches_through`, over tables that may grow. -/
def readMetrics (catalogAt : Nat → ReportCatalog) (pages : Nat) (day : Int)
    (startDate : Option Int) :
    List MetricRow :=
  KeysetPages.pagesOver MetricRow.rowKey 512
    (fun n => (catalogAt n).metrics.filter fun row => row.key.day ≤ day) pages
    (startDate.map fun day => toLex (metricKey day "" "", ""))

/-- `iter_remote_authorizations_between`. -/
def readRemote (catalogAt : Nat → ReportCatalog) (pages : Nat) (startNs endNs : Int) :
    List RemoteAuthorization :=
  KeysetPages.pagesOver RemoteAuthorization.rowKey 128
    (fun n => (catalogAt n).remote.filter fun row =>
      startNs ≤ row.createdAtUtcNs ∧ row.createdAtUtcNs < endNs) pages none

/-- What `build` reads, from the Catalog as it is at each page of each of its loops. -/
def readReport (catalogAt : Nat → Nat → ReportCatalog) (pages : Nat) (day : Int) :
    ReportReading where
  dayMetrics := readMetrics (catalogAt 0) pages day (some day)
  throughMetrics := readMetrics (catalogAt 1) pages day none
  dayRemote := readRemote (catalogAt 2) pages (dayStartNs day) (dayEndNs day)
  throughRemote := readRemote (catalogAt 3) pages 0 (dayEndNs day)

/-- The rows of inputs in the order they are read in. -/
def ReportInputs.reading (i : ReportInputs) (day : Int) : ReportReading where
  dayMetrics := KeysetPages.inKeyOrder MetricRow.rowKey (KeysetPages.behind MetricRow.rowKey
    (some (toLex (metricKey day "" "", ""))) i.metrics)
  throughMetrics := KeysetPages.inKeyOrder MetricRow.rowKey i.metrics
  dayRemote := KeysetPages.inKeyOrder RemoteAuthorization.rowKey
    (i.remote.filter fun row => dayStartNs day ≤ row.createdAtUtcNs)
  throughRemote := KeysetPages.inKeyOrder RemoteAuthorization.rowKey
    (i.remote.filter fun row => 0 ≤ row.createdAtUtcNs)

theorem readMetrics_eq {catalogAt : Nat → ReportCatalog} {c : ReportCatalog} {day : Int}
    (h : ∀ n, (catalogAt n).inputs day = c.inputs day) {pages : Nat}
    (hpages : c.metrics.length < pages)
    (startDate : Option Int) : readMetrics catalogAt pages day startDate =
      KeysetPages.inKeyOrder MetricRow.rowKey (KeysetPages.behind MetricRow.rowKey
        (startDate.map fun day => toLex (metricKey day "" "", "")) (c.inputs day).metrics) := by
  have hrows : ∀ n, ((catalogAt n).metrics.filter fun row => row.key.day ≤ day) =
      (c.inputs day).metrics := fun n => congrArg ReportInputs.metrics (h n)
  rw [readMetrics, KeysetPages.pagesOver_of_constant hrows]
  refine KeysetPages.pages_eq (by decide) (c.uniqueMetrics.sublist (List.filter_sublist.map _)) ?_
  have hbehind := (KeysetPages.behind_sublist MetricRow.rowKey
    (startDate.map fun day => toLex (metricKey day "" "", "")) (c.inputs day).metrics).length_le
  have hfilter := List.length_filter_le (fun row : MetricRow => row.key.day ≤ day) c.metrics
  exact (hbehind.trans hfilter).trans_lt hpages

theorem readRemote_eq {catalogAt : Nat → ReportCatalog} {c : ReportCatalog} {day : Int}
    (h : ∀ n, (catalogAt n).inputs day = c.inputs day) {pages : Nat}
    (hpages : c.remote.length < pages)
    (startNs : Int) : readRemote catalogAt pages startNs (dayEndNs day) =
      KeysetPages.inKeyOrder RemoteAuthorization.rowKey
        ((c.inputs day).remote.filter fun row => startNs ≤ row.createdAtUtcNs) := by
  have hrows : ∀ n, ((catalogAt n).remote.filter fun row =>
      startNs ≤ row.createdAtUtcNs ∧ row.createdAtUtcNs < dayEndNs day) =
        (c.inputs day).remote.filter fun row => startNs ≤ row.createdAtUtcNs := by
    intro n
    rw [← h n, ReportCatalog.inputs, List.filter_filter]
    refine List.filter_congr fun row _ => ?_
    rw [Bool.decide_and]
  rw [readRemote, KeysetPages.pagesOver_of_constant hrows]
  refine KeysetPages.pages_eq (by decide) ?_ ?_
  · exact c.uniqueRemote.sublist ((List.filter_sublist.trans List.filter_sublist).map _)
  · have hfilter := (List.filter_sublist.trans List.filter_sublist :
      ((c.inputs day).remote.filter fun row => startNs ≤ row.createdAtUtcNs).Sublist
        c.remote).length_le
    exact hfilter.trans_lt hpages

/-- **What a build reads** where the inputs of the day do not change under it. -/
theorem readReport_eq {catalogAt : Nat → Nat → ReportCatalog} {c : ReportCatalog} {day : Int}
    (h : ∀ loop n, (catalogAt loop n).inputs day = c.inputs day) {pages : Nat}
    (hmetrics : c.metrics.length < pages) (hremote : c.remote.length < pages) :
    readReport catalogAt pages day = (c.inputs day).reading day := by
  rw [readReport, readMetrics_eq (h 0) hmetrics, readMetrics_eq (h 1) hmetrics,
    readRemote_eq (h 2) hremote,
    readRemote_eq (h 3) hremote]
  rfl

end MarketDataRecorder
