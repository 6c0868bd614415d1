import Mathlib.Data.Prod.Lex
import MarketDataRecorder.Metrics.AggregateMerge

/-!
# The metrics recorder

`metrics/recorder.py`: aggregates in memory, one for each day, market and stream, which a flush
commits to the Catalog as one batch (`record_metric_batch`). A call that raises leaves a recorder
behind all the same, so a call is an `Except` with a recorder on both sides.

What a clock, the operating system or SQLite does in a call is an argument. A batch identity is
`uuid4`: the identities are a sequence given from outside.
-/

namespace MarketDataRecorder

/-! ## The table -/

/-- `MetricKey`, the day counted from the epoch. -/
abbrev MetricKey := Lex (Int × Lex (String × String))

def metricKey (day : Int) (market stream : String) : MetricKey :=
  toLex (day, toLex (market, stream))

namespace MetricKey

def day (key : MetricKey) : Int := (ofLex key).1

def market (key : MetricKey) : String := (ofLex (ofLex key).2).1

def stream (key : MetricKey) : String := (ofLex (ofLex key).2).2

end MetricKey

/-- A row of `metric_batches`. -/
structure MetricRow where
  batchId : String
  key : MetricKey
  aggregateJson : List Char
  deriving DecidableEq

/-- How a transaction ends: it may be stored although the caller sees an exception. -/
inductive CommitOutcome where
  | commits
  | failsBefore
  | failsAfter
  deriving DecidableEq, Repr

/-- `record_metric_batch` of the Catalog: what the caller sees, and the table. -/
def commitMetricBatch (outcome : CommitOutcome) (table : List MetricRow) (batchId : String)
    (rows : List (MetricKey × Value)) : Except (String × List MetricRow) (Bool × List MetricRow) :=
  if batchId = "" ∨ rows = [] then
    .error ("metric batch requires an identity and at least one row", table)
  else if rows.any fun row => row.1.market = "" ∨ row.1.stream = "" then
    .error ("metric batch row identity must be non-empty", table)
  else
    let existing := table.any fun row => row.batchId = batchId
    let committed := if existing then table
      else table ++ rows.map fun row => ⟨batchId, row.1, Json.encodeValue row.2⟩
    match outcome with
    | .failsBefore => .error ("transaction failed", table)
    | .failsAfter => .error ("transaction failed", committed)
    | .commits => .ok (!existing, committed)

/-! ## Observations -/

/-- `_sample_runtime`: whether a sample is due, and what it finds. -/
inductive RuntimeSample (ν : Type) where
  | notDue
  | failed
  | taken (rss free : ν) (cpu : Option ν)

/-- What a call observes: operations on the aggregate of a key, then a runtime sample. -/
structure MetricObservation (ν : Type) where
  day : Int
  market : String
  stream : String
  ops : List (MetricOp ν)
  sample : RuntimeSample ν := .notDue

namespace MetricObservation

variable {ν : Type}

def key (o : MetricObservation ν) : MetricKey := metricKey o.day o.market o.stream

end MetricObservation

/-- `value // 86_400_000_000_000`. -/
def utcDayFromNs (t : Int) : Int := t / 86400000000000

/-- The counter of a connection event. -/
def lifecycleCounter (event : String) : Option String :=
  [("planned_rotation", "planned_reconnect"), ("unexpected_disconnect", "unexpected_disconnect"),
    ("server_shutdown", "server_shutdown")].lookup event

/-- The counter of a quality event. -/
def qualityCounter (event : String) : Option String :=
  [("duplicate_or_stale_depth", "duplicate"), ("out_of_order", "out_of_order"),
    ("sequence_gap", "sequence_gap"), ("orderbook_resync", "orderbook_resync"),
    ("checksum_failure", "checksum_failure")].lookup event

/-- The observing methods of `MetricsRecorder`. -/
inductive MetricCall (ν : Type) where
  | written (e : EventEnvelope) (rawFrameBytes queueDepth : Int) (sample : RuntimeSample ν)
  | operation (market stream name : String) (durationNs : Int) (occurredAt : Int)
  | seal (manifest : Value)
  | lifecycle (market stream event : String) (occurredAt : Int)
  | quality (market stream event : String) (occurredAt : Int)

/-- What a method observes; it may raise first, or observe nothing. -/
def MetricCall.observation {ν : Type} (numbers : GaugeNumbers ν) :
    MetricCall ν → Except String (Option (MetricObservation ν))
  | .written e rawFrameBytes queueDepth sample =>
    .ok (some {
      day := utcDayFromNs e.receiveTimeUtcNs
      market := e.market.text
      stream := e.stream.val
      ops := MetricAggregate.envelopeOps numbers e rawFrameBytes ++
        [.gauge "queue_depth" (numbers.ofInt queueDepth)]
      sample := sample })
  | .operation market stream name durationNs occurredAt =>
    .ok (some ⟨utcDayFromNs occurredAt, market, stream, [.histogram name durationNs], .notDue⟩)
  | .seal manifest =>
    match (manifest.get? "sealed_at_utc_ns").bind MetricAggregate.asInt, manifest.get? "market",
        manifest.get? "stream" with
    | some sealedAt, some (.str market), some (.str stream) =>
      match manifest.get? "stored_bytes" with
      | some (.int storedBytes) =>
        .ok (some ⟨utcDayFromNs sealedAt, market, stream,
          [.increment "sealed_chunks" 1, .increment "compressed_bytes" storedBytes,
            .increment "archive_backlog_bytes" storedBytes], .notDue⟩)
      | _ => .error "manifest stored bytes are invalid"
    | _, _, _ => .error "manifest lacks metrics identity"
  | .lifecycle market stream event occurredAt =>
    match lifecycleCounter event with
    | none => .error "unsupported connection lifecycle metric"
    | some counter =>
      .ok (some ⟨utcDayFromNs occurredAt, market, stream, [.increment counter 1], .notDue⟩)
  | .quality market stream event occurredAt =>
    match qualityCounter event with
    -- A quality event without a counter is not counted and raises nothing.
    | none => .ok none
    | some counter =>
      .ok (some ⟨utcDayFromNs occurredAt, market, stream, [.increment counter 1], .notDue⟩)

/-! ## Aggregates in memory -/

abbrev MetricAggregates (ν : Type) := SortedDict MetricKey (MetricAggregate ν)

section

variable {ν : Type}

namespace MetricAggregates

/-- The aggregate of a key, empty where there is none. -/
def aggregateOf (aggregates : MetricAggregates ν) (key : MetricKey) : MetricAggregate ν :=
  (aggregates.get? key).getD {}

def sampleOps (rss free : ν) (cpu : Option ν) : List (MetricOp ν) :=
  [.gauge "rss_memory_bytes" rss, .gauge "internal_free_bytes" free] ++
    cpu.toList.map (.gauge "cpu_percent")

variable [LinearOrder ν]

/-- Operations up to the first that raises, with what it raises. -/
def performAll : List (MetricOp ν) → MetricAggregate ν → Option String × MetricAggregate ν
  | [], a => (none, a)
  | op :: ops, a => match a.perform op with
    | .error message => (some message, a)
    | .ok a => performAll ops a

/-- A runtime sample goes into every aggregate of the day. -/
def takeSample (day : Int) (aggregates : MetricAggregates ν) :
    RuntimeSample ν → Option String × MetricAggregates ν
  | .notDue => (none, aggregates)
  | .failed => (some "runtime sample failed", aggregates)
  | .taken rss free cpu => (none, aggregates.mapValues fun key a =>
      if key.day = day then (performAll (sampleOps rss free cpu) a).2 else a)

/-- An observation, with what it raises. -/
def observe (aggregates : MetricAggregates ν) (o : MetricObservation ν) :
    Option String × MetricAggregates ν :=
  let performed := performAll o.ops (aggregateOf aggregates o.key)
  let aggregates := aggregates.insert o.key performed.2
  match performed.1 with
  | some message => (some message, aggregates)
  | none => takeSample o.day aggregates o.sample

end MetricAggregates

end

/-! ## The recorder -/

/-- `MetricsRecorder`, with the rows it has committed. -/
structure MetricsRecorder (ν : Type) where
  aggregates : MetricAggregates ν := .empty
  /-- How many batch identities were given up before the one in use. -/
  batch : Nat := 0
  latestUtcDay : Option Int := none
  table : List MetricRow := []

abbrev MetricsRun (ν : Type) := Except (String × MetricsRecorder ν) (MetricsRecorder ν)

namespace MetricsRecorder

section

variable {ν : Type} (numbers : GaugeNumbers ν) (batchIds : Nat → String)

/-- The rows of a batch. -/
def batchRows (aggregates : MetricAggregates ν) : List (MetricKey × Value) :=
  aggregates.items.map fun item => (item.1, item.2.document numbers)

/-- `_flush_locked`. -/
def flush (outcome : CommitOutcome) (r : MetricsRecorder ν) : MetricsRun ν :=
  if r.aggregates.items = [] then .ok r
  else match commitMetricBatch outcome r.table (batchIds r.batch)
    (batchRows numbers r.aggregates) with
    | .error (message, table) => .error (message, { r with table := table })
    | .ok (_, table) =>
      .ok { r with aggregates := .empty, batch := r.batch + 1, table := table }

/-- `_rollover_if_needed`. -/
def rolloverIfNeeded (outcome : CommitOutcome) (day : Int) (r : MetricsRecorder ν) : MetricsRun ν :=
  match r.latestUtcDay with
  | none => .ok { r with latestUtcDay := some day }
  | some latest =>
    if day ≤ latest then .ok r
    else (r.flush numbers batchIds outcome).map fun r => { r with latestUtcDay := some day }

/-- An observation behind the rollover of its day. -/
def observe [LinearOrder ν] (outcome : CommitOutcome) (o : MetricObservation ν)
    (r : MetricsRecorder ν) :
    MetricsRun ν :=
  match r.rolloverIfNeeded numbers batchIds outcome o.day with
  | .error raised => .error raised
  | .ok r =>
    let observed := MetricAggregates.observe r.aggregates o
    let r := { r with aggregates := observed.2 }
    match observed.1 with
    | some message => .error (message, r)
    | none => .ok r

/-- A call of the recorder, and how the commit in it ends, if there is one. -/
inductive Step (ν : Type) where
  | call (call : MetricCall ν) (outcome : CommitOutcome)
  | flush (outcome : CommitOutcome)

def Step.outcome {ν : Type} : Step ν → CommitOutcome
  | .call _ outcome => outcome
  | .flush outcome => outcome

def step [LinearOrder ν] (r : MetricsRecorder ν) : Step ν → MetricsRun ν
  | .flush outcome => r.flush numbers batchIds outcome
  | .call call outcome => match call.observation numbers with
    | .error message => .error (message, r)
    | .ok none => .ok r
    | .ok (some o) => r.observe numbers batchIds outcome o

/-- The recorder that a call leaves behind, whether it raised or not. -/
def after {ν : Type} : MetricsRun ν → MetricsRecorder ν
  | .error (_, r) => r
  | .ok r => r

def run [LinearOrder ν] (r : MetricsRecorder ν) (steps : List (Step ν)) : MetricsRecorder ν :=
  steps.foldl (fun r s => after (r.step numbers batchIds s)) r

end

end MetricsRecorder

end MarketDataRecorder
