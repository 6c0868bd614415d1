import MarketDataRecorder.Lib.JsonText
import MarketDataRecorder.Lib.MonthCalendar
import MarketDataRecorder.Lib.Number
import MarketDataRecorder.Metrics.Aggregate

/-!
# Report documents

What a daily report says of a stream, `_stream_document` of `metrics/report.py`, and the two texts
that a report is written as: the JSON of the document, and a CSV with a row for each stream.

Percentiles are bounds of histogram buckets. Which bucket is asked for is computed with binary64
numbers, as the source does it.
-/

namespace MarketDataRecorder

/-! ## Percentiles -/

/-- The binary64 number nearest to one that is not negative. -/
def toFloat (x : ℚ) : Option ℚ := Value.binary64 x.num.toNat x.den

/-- `int(total * percentile + 0.999999999)`, for a share given as a decimal literal. -/
def percentileTarget (total : Int) (percentile : ℚ) : Option Int := do
  let total ← toFloat total
  let percentile ← toFloat percentile
  let share ← toFloat (total * percentile)
  let nines ← toFloat 0.999999999
  let raised ← toFloat (share + nines)
  some ⌊raised⌋

/-- The buckets of a histogram in their order, and the bounds they stand for. -/
def histogramBuckets : List (String × Int) :=
  histogramBoundsNs.map (fun bound => (toString bound, bound)) ++ [("overflow", 60000000000)]

/-- The bound of the bucket by which a target has been counted. -/
def reachedBound (buckets : SortedDict String Int) (target : Int) :
    Int → List (String × Int) → Except String Int
  | _, [] => .error "histogram counts are inconsistent"
  | cumulative, (bucket, bound) :: ordered =>
    let cumulative := cumulative + (buckets.get? bucket).getD 0
    if target ≤ cumulative then .ok bound else reachedBound buckets target cumulative ordered

/-- `histogram_percentile`. -/
def histogramPercentile (buckets : SortedDict String Int) (percentile : ℚ) :
    Except String (Option Int) :=
  if ¬ (0 < percentile ∧ percentile ≤ 1) then .error "percentile must be in (0, 1]"
  else
    let total := (buckets.items.map Prod.snd).sum
    if total = 0 then .ok none
    else match percentileTarget total percentile with
      | none => .error "int too large to convert to float"
      | some target => (reachedBound buckets (max 1 target) 0 histogramBuckets).map some

/-! ## The document of a stream -/

section

variable {ν : Type} (numbers : GaugeNumbers ν) (aggregate : MetricAggregate ν)

/-- `_percentiles`. -/
def percentiles (name : String) : Except String Value :=
  let buckets := (aggregate.histograms.get? name).getD .empty
  if buckets.items.isEmpty then
    .ok (JsonText.document
      [("p50", .null), ("p95", .null), ("p99", .null), ("status", .str "INSUFFICIENT_DATA")])
  else do
    let p50 ← histogramPercentile buckets 0.50
    let p95 ← histogramPercentile buckets 0.95
    let p99 ← histogramPercentile buckets 0.99
    return JsonText.document [("p50", MetricAggregate.timeValue p50),
      ("p95", MetricAggregate.timeValue p95), ("p99", MetricAggregate.timeValue p99),
      ("status", .str "AVAILABLE")]

/-- A value with its status. -/
def statedValue : Option Value → Value
  | none => JsonText.document [("value", .null), ("status", .str "INSUFFICIENT_DATA")]
  | some value => JsonText.document [("value", value), ("status", .str "AVAILABLE")]

/-- `_gauge`, of the field that is asked for. -/
def gaugeReport (name : String) (field : GaugeValue ν → ν) : Value :=
  statedValue ((aggregate.gauges.get? name).map fun gauge => numbers.toValue (field gauge))

/-- The counters of a group; one that nothing was counted for is 0. -/
def countersOf (names : List String) : List (String × Value) :=
  names.map fun name => (name, .int ((aggregate.counters.get? name).getD 0))

/-- The age of a time that may be unknown. -/
def ageNs (generatedAt : Int) (t : Option Int) : Option Int :=
  t.map fun t => max 0 (generatedAt - t)

/-- `_stream_document`. -/
def dailyStreamDocument (market stream : String) (generatedAt archiveBacklogBytes : Int)
    (oldestUnarchivedTimeUtcNs : Option Int) : Except String Value := do
  let restResponses := (aggregate.counters.get? "rest_responses").getD 0
  let (restBytes, restBytesStatus) : Value × String :=
    if restResponses ≠ 0 then (.null, "UNAVAILABLE_SDK_RAW_BODY") else (.int 0, "NOT_APPLICABLE")
  let receiveLag ← percentiles aggregate "receive_lag_ns"
  let writeLatency ← percentiles aggregate "write_latency_ns"
  let fsyncLatency ← percentiles aggregate "fsync_latency_ns"
  let performance := JsonText.document [
    ("receive_lag_ns", receiveLag),
    ("queue_depth_max", gaugeReport numbers aggregate "queue_depth" GaugeValue.max),
    ("write_latency_ns", writeLatency),
    ("fsync_latency_ns", fsyncLatency),
    ("cpu_percent", gaugeReport numbers aggregate "cpu_percent" GaugeValue.last),
    ("current_rss_bytes", gaugeReport numbers aggregate "current_rss_bytes" GaugeValue.last),
    ("peak_rss_bytes", gaugeReport numbers aggregate "peak_rss_bytes" GaugeValue.last),
    ("internal_free_bytes", gaugeReport numbers aggregate "internal_free_bytes" GaugeValue.last),
    ("external_free_bytes", JsonText.document
      [("value", .null), ("status", .str "NO_REGISTERED_TARGET_SAMPLE")]),
    ("oldest_unarchived_age_ns",
      statedValue ((ageNs generatedAt oldestUnarchivedTimeUtcNs).map Value.int)),
    ("last_event_age_ns",
      statedValue ((ageNs generatedAt aggregate.lastEventTimeUtcNs).map Value.int))]
  return JsonText.document [
    ("market", .str market),
    ("stream", .str stream),
    ("input", JsonText.document (countersOf aggregate inputCounters ++
      [("rest_bytes", restBytes)])),
    ("quality", JsonText.document (countersOf aggregate qualityCounters)),
    ("output", JsonText.document (countersOf aggregate outputCounters ++
      [("archive_backlog_bytes", .int archiveBacklogBytes)])),
    ("performance", performance),
    ("availability", JsonText.document [("input.rest_bytes", .str restBytesStatus)])]

end

/-! ## The report -/

/-- What `build` returns. -/
structure DailyReport where
  utcDate : Int
  generatedAtUtcNs : Int
  status : String
  batchCount : Nat
  streamCount : Nat
  streams : List Value

/-- A number with at least as many digits as given. -/
def padded (width n : Nat) : String :=
  let digits := Nat.toDigits 10 n
  String.ofList (List.replicate (width - digits.length) '0' ++ digits)

/-- `YYYY-MM-DD`, of a day from 1970 on. -/
def utcDateText (day : Int) : String :=
  let month := MonthCalendar.monthOf day.toNat
  padded 4 (1970 + month / 12) ++ "-" ++ padded 2 (month % 12 + 1) ++ "-" ++
    padded 2 (day.toNat - MonthCalendar.start month + 1)

/-- A value as `csv` writes it, with quotation marks where it needs some. -/
def csvField (value : Option Value) : List Char :=
  let text := match value with
    | none | some .null => []
    | some (.str text) => text.toList
    | some value => JsonText.renderValue value
  if text.any fun c => c = ',' ∨ c = '\x22' ∨ c = '\n' ∨ c = '\r' then
    '\x22' :: (text.flatMap fun c => if c = '\x22' then [c, c] else [c]) ++ ['\x22']
  else text

def csvLine (fields : List (List Char)) : List Char :=
  [','].intercalate fields ++ ['\n']

namespace DailyReport

mutual

/-- `_flatten`: the values of a document, by the names that lead to them. -/
def flatten (path : String) : Value → List (String × Value)
  | .dict items => flattenItems path items
  | value => [(path, value)]

def flattenItems (path : String) : List (String × Value) → List (String × Value)
  | [] => []
  | (key, value) :: items =>
    flatten (if path = "" then key else path ++ "." ++ key) value ++ flattenItems path items

end

variable (report : DailyReport)

/-- What stands at the head of the document, and in each row. -/
def header : List (String × Value) := [
  ("schema_version", .str "daily-operational-report.v1"),
  ("utc_date", .str (utcDateText report.utcDate)),
  ("generated_at_utc_ns", .int report.generatedAtUtcNs)]

def document : Value :=
  JsonText.document (report.header ++ [
    ("status", .str report.status),
    ("batch_count", .int report.batchCount),
    ("stream_count", .int report.streamCount),
    ("streams", .list report.streams)])

/-- The JSON file. -/
def json : String := String.ofList (JsonText.renderValue report.document ++ ['\n'])

/-- The row of each stream: a name of the document takes the place of one of the header. -/
def rows : List (SortedDict String Value) :=
  report.streams.map fun stream => .ofItems (report.header ++ flatten "" stream)

/-- The CSV file. -/
def csv : String :=
  let fieldnames := (SortedDict.ofItems (report.rows.flatMap SortedDict.items)).keys
  if fieldnames.isEmpty then ""
  else String.ofList (
    csvLine (fieldnames.map fun name => csvField (some (.str name))) ++
      report.rows.flatMap fun row => csvLine (fieldnames.map fun name => csvField (row.get? name)))

end DailyReport

end MarketDataRecorder
