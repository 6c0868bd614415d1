import Mathlib.Data.List.Nodup
import Mathlib.Data.Prod.Lex
import MarketDataRecorder.Lib.Value

/-!
# Replay: data

`replay/model.py`, `replay/clock.py` and the builds that `replay/catalog.py` opens: a query, the
rows of a build with the columns the reader looks at, and the clock that gives a row its time.
-/

namespace MarketDataRecorder

inductive ReplayClock where
  | receiveTime
  | exchangeTime
  deriving DecidableEq, Repr

inductive GapPolicy where
  | error
  | include
  | exclude
  deriving DecidableEq, Repr

inductive MissingExchangeTimePolicy where
  | error
  | exclude
  | fallbackReceive
  deriving DecidableEq, Repr

/-- `ReplayQuery`, with what `__post_init__` checks of it. -/
structure ReplayQuery where
  clock : ReplayClock := .receiveTime
  markets : List String := []
  streams : List String := []
  symbol : String := "BTCUSDT"
  startTimeNs : Option Nat := none
  endTimeNs : Option Nat := none
  gapPolicy : GapPolicy := .error
  missingExchangeTime : MissingExchangeTimePolicy := .error
  checkpointId : Option String := none
  filters_ne : ∀ value ∈ markets ++ streams, value ≠ "" := by decide
  markets_nodup : markets.Nodup := by decide
  streams_nodup : streams.Nodup := by decide
  symbol_ne : symbol ≠ "" := by decide
  range : ∀ first ∈ startTimeNs, ∀ last ∈ endTimeNs, first < last := by decide
  checkpointId_ne : checkpointId ≠ some "" := by decide

/-- A row of a build. The columns that the reader looks at have their types; of the nullable integer
columns those with a value are listed. -/
structure ReplayRow where
  datasetVersion : String
  market : String
  stream : String
  symbol : String
  collectorInstanceId : String
  connectionId : String
  receiveTimeUtcNs : Nat
  receiveMonotonicNs : Nat
  sourceSequenceJson : String
  sourceChunkSha256 : String
  sourceRecordOrdinal : Nat
  sourceSubrecordOrdinal : Nat
  logicalRecordSha256 : String
  sourceGap : Bool
  sourceComplete : Bool
  integers : List (String × Nat)
  columns : Value
  deriving DecidableEq

namespace ReplayRow

variable (row : ReplayRow)

def integer (name : String) : Option Nat := row.integers.lookup name

def finalUpdateId : Option Nat := row.integer "final_update_id"

/-- Where the row comes from: source chunk, record, subrecord. -/
def place : String × Nat × Nat :=
  (row.sourceChunkSha256, row.sourceRecordOrdinal, row.sourceSubrecordOrdinal)

/-- The source of the row has a gap or is incomplete. -/
def unreliable : Bool := row.sourceGap || !row.sourceComplete

end ReplayRow

structure BuildSummary where
  buildId : String
  datasetVersion : String

/-- A partition: what its descriptor says, and its rows. -/
structure Partition where
  market : String
  stream : String
  rows : List ReplayRow

structure CheckpointDescriptor where
  checkpointId : String
  market : String
  symbol : String
  updateId : Nat

/-- A build that was opened. A row lies in the partition of its market and stream, and no two rows
come from one place. -/
structure OpenedBuild where
  summary : BuildSummary
  partitions : List Partition
  checkpoints : List CheckpointDescriptor
  placed : ∀ p ∈ partitions, ∀ row ∈ p.rows, row.market = p.market ∧ row.stream = p.stream
  places_nodup : ((partitions.flatMap Partition.rows).map ReplayRow.place).Nodup

def OpenedBuild.rows (build : OpenedBuild) : List ReplayRow :=
  build.partitions.flatMap Partition.rows

theorem OpenedBuild.row_inj {build : OpenedBuild} {row row' : ReplayRow} (h : row ∈ build.rows)
    (h' : row' ∈ build.rows) (hplace : row.place = row'.place) : row = row' :=
  List.inj_on_of_nodup_map build.places_nodup h h' hplace

structure ReplayEvent where
  datasetVersion : String
  buildId : String
  orderVersion : String
  clock : ReplayClock
  eventTimeNs : Nat
  usedReceiveTimeFallback : Bool
  isUnreliable : Bool
  row : ReplayRow
  deriving DecidableEq

/-! ## The event clock -/

/-- `_EXCHANGE_FIELDS`. -/
def exchangeFields : List (String × List String) := [
  ("diff_depth", ["exchange_transaction_time_ms", "exchange_event_time_ms"]),
  ("agg_trade", ["exchange_trade_time_ms", "exchange_event_time_ms"]),
  ("book_ticker", ["exchange_transaction_time_ms", "exchange_event_time_ms"]),
  ("depth_snapshot", []),
  ("mark_price", ["exchange_event_time_ms"]),
  ("liquidation", ["exchange_event_time_ms", "order_trade_time_ms"]),
  ("premium_index_snapshot", ["observation_time_ms"]),
  ("funding_history", ["funding_time_ms"]),
  ("funding_info", []),
  ("open_interest", ["observation_time_ms"]),
  ("exchange_info", ["server_time_ms"])]

structure ClockReading where
  eventTimeNs : Nat
  usedReceiveTimeFallback : Bool
  deriving DecidableEq

/-- `EventClock.resolve`; nothing where the row is left out. -/
def resolveClock (clock : ReplayClock) (missing : MissingExchangeTimePolicy) (row : ReplayRow) :
    Except String (Option ClockReading) :=
  match clock with
  | .receiveTime => .ok (some ⟨row.receiveTimeUtcNs, false⟩)
  | .exchangeTime =>
    match exchangeFields.lookup row.stream with
    | none => .error "unsupported stream event clock"
    | some fields =>
      match fields.findSome? row.integer with
      | some milliseconds => .ok (some ⟨milliseconds * 1000000, false⟩)
      | none =>
        match missing with
        | .exclude => .ok none
        | .fallbackReceive => .ok (some ⟨row.receiveTimeUtcNs, true⟩)
        | .error => .error (row.market ++ "/" ++ row.stream ++ " has no documented exchange time")

/-- The exchange time of a row, where its stream has a clock and the row a value for it. -/
def ReplayRow.exchangeClock (row : ReplayRow) : Option Nat :=
  ((exchangeFields.lookup row.stream).getD []).findSome? row.integer |>.map (· * 1000000)

end MarketDataRecorder
