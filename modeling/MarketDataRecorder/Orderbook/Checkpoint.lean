import MarketDataRecorder.Lib.JsonText
import MarketDataRecorder.Orderbook.Parser
import MarketDataRecorder.Orderbook.Reconstructor
import MarketDataRecorder.Storage.Digest

/-!
# Checkpoints of a book

`orderbook/checkpoint.py`, with the documents of `orderbook/model.py`: the book of a checkpoint, its
hash, and what `restore` demands of a checkpoint document.
-/

namespace MarketDataRecorder

/-! ## Hashes of documents -/

def canonicalJsonText (value : Value) : String := String.ofList (JsonText.renderValue value)

/-- The SHA-256 of the canonical JSON of a document. -/
def documentHash (value : Value) : String :=
  Checksum.sha256Hex (Cbor.utf8 (canonicalJsonText value))

theorem isDigest_documentHash (value : Value) : isDigest (documentHash value) = true :=
  isDigest_sha256Hex _

/-- `dict(document)` without a key. -/
def withoutKey : Value → String → Value
  | .dict items, key => .dict (items.filter fun item => item.1 ≠ key)
  | value, _ => value

/-! ## Books -/

/-- The least number of decimal places, up to a bound, that a number is written with. -/
def decimalPlaces (number : ℚ) : Nat → Nat → Nat
  | 0, places => places
  | fuel + 1, places =>
    if (number * 10 ^ places).den = 1 then places else decimalPlaces number fuel (places + 1)

/-- `canonical_decimal`, of a number that is not negative. -/
def canonicalDecimal (number : ℚ) : String :=
  let places := decimalPlaces number number.den 0
  let digits := (number * 10 ^ places).num.natAbs
  let whole := Nat.toDigits 10 (digits / 10 ^ places)
  if places = 0 then String.ofList whole
  else
    let fraction := Nat.toDigits 10 (digits % 10 ^ places)
    String.ofList (whole ++ '.' :: (List.replicate (places - fraction.length) '0' ++ fraction))

example : canonicalDecimal (125 / 1000) = "0.125" := by decide_cbv

def levelValue (level : ℚ × ℚ) : Value :=
  .list [.str (canonicalDecimal level.1), .str (canonicalDecimal level.2)]

/-- `canonical_mapping`. -/
def OrderBook.canonicalMapping (book : OrderBook) : Value := .dict [
  ("asks", .list (book.asks.items.map levelValue)),
  ("bids", .list (book.bids.items.reverse.map levelValue)),
  ("market", .str book.market.text),
  ("schema_version", .str "logical-orderbook.v1"),
  ("symbol", .str book.symbol),
  ("update_id", .int book.updateId)]

/-- `logical_hash`. -/
def OrderBook.logicalHash (book : OrderBook) : String :=
  Checksum.sha256Hex (Json.asciiBytes (Json.encodeValue book.canonicalMapping))

/-- `_mapping_level`. -/
def mappingLevel : Value → Option (String × String)
  | .list [.str price, .str quantity] => some (price, quantity)
  | _ => none

/-- The fields of a book document. A boolean id passes for an integer in the language; none is
written, and none is read here. -/
def bookFields (value : Value) :
    Option (Market × String × Nat × List (String × String) × List (String × String)) := do
  guard (value.get? "schema_version" = some (.str "logical-orderbook.v1"))
  match value.get? "market", value.get? "symbol", value.get? "update_id", value.get? "bids",
      value.get? "asks" with
  | some (.str marketText), some (.str symbol), some (.int (.ofNat updateId)), some (.list bids),
      some (.list asks) => do
    let market ← Market.ofText? marketText
    let bids ← bids.mapM mappingLevel
    let asks ← asks.mapM mappingLevel
    return (market, symbol, updateId, bids, asks)
  | _, _, _, _, _ => none

/-- `from_mapping`. -/
def OrderBook.fromMapping (value : Value) : Except String OrderBook :=
  match bookFields value with
  | none => .error "invalid logical order-book mapping"
  | some (market, symbol, updateId, bids, asks) => do
    let snapshot ← BookSnapshot.make market symbol updateId bids asks
    return OrderBook.ofSnapshot snapshot

/-! ## Restoring -/

def checkpointSchema : String := "orderbook-checkpoint.v1"

def reconstructorVersion : String := "binance-local-orderbook.v2"

/-- `_non_negative_int`. -/
def nonNegativeInt : Option Value → Option Nat
  | some (.int (.ofNat n)) => some n
  | _ => none

/-- `_interval`. -/
def checkpointInterval (value : Value) : Option UnreliableInterval :=
  match value.get? "market", value.get? "reason" with
  | some (.str marketText), some (.str reason) => do
    let market ← Market.ofText? marketText
    guard (market ∈ bookMarkets ∧ reason ≠ "")
    let lastReliableUpdateId ← nonNegativeInt (value.get? "last_reliable_update_id")
    let offendingFirstUpdateId ← nonNegativeInt (value.get? "offending_first_update_id")
    let offendingFinalUpdateId ← nonNegativeInt (value.get? "offending_final_update_id")
    let startedAtReceiveTimeUtcNs ← nonNegativeInt (value.get? "started_at_receive_time_utc_ns")
    let endedAtUpdateId ← match value.get? "ended_at_update_id" with
      | none | some .null => some none
      | some ended => (nonNegativeInt (some ended)).map some
    return {
      market := market
      reason := reason
      lastReliableUpdateId := lastReliableUpdateId
      offendingFirstUpdateId := offendingFirstUpdateId
      offendingFinalUpdateId := offendingFinalUpdateId
      startedAtReceiveTimeUtcNs := startedAtReceiveTimeUtcNs
      endedAtUpdateId := endedAtUpdateId }
  | _, _ => none

/-- `_intervals`; a document without the key has none. -/
def checkpointIntervals : Option Value → Option (List UnreliableInterval)
  | none => some []
  | some (.list items) => items.mapM checkpointInterval
  | some _ => none

def textOfValue : Value → Option String
  | .str text => some text
  | _ => none

/-- The source hashes of a checkpoint document. -/
def sourceHashes (document : Value) : Option (List String) :=
  match document.get? "source_chunk_hashes" with
  | some (.list items) => items.mapM textOfValue
  | _ => none

/-- The provenance that `restore` demands. -/
def validProvenance (document : Value) : Bool :=
  match document.get? "checkpoint_id", document.get? "collector_version",
      document.get? "created_at_utc_ns", sourceHashes document with
  | some (.str checkpointId), some (.str collectorVersion), some (.int (.ofNat _)), some hashes =>
    checkpointId ≠ "" && collectorVersion ≠ "" && !hashes.isEmpty && hashes.all isDigest
  | _, _, _, _ => false

/-- `restore`: the book and the intervals of a document, `none` for a text that is not JSON. -/
def restoreCheckpoint (file : Option Value) : Except String (OrderBook × List UnreliableInterval) :=
  let invalid := "invalid order-book checkpoint"
  match file with
  | none => .error invalid
  | some document =>
    if document.isDict = false then .error invalid
    else if document.get? "schema_version" ≠ some (.str checkpointSchema) then
      .error "unsupported checkpoint schema"
    else if document.get? "algorithm_version" ≠ some (.str reconstructorVersion) then
      .error "unsupported reconstruction algorithm"
    else if validProvenance document = false then .error "invalid checkpoint provenance"
    else if document.get? "checkpoint_sha256" ≠
        some (.str (documentHash (withoutKey document "checkpoint_sha256"))) then
      .error "checkpoint document hash mismatch"
    else match document.get? "book" with
      | some (.dict items) =>
        match OrderBook.fromMapping (.dict items) with
        | .error _ => .error invalid
        | .ok book =>
          if document.get? "book_hash" ≠ some (.str book.logicalHash) then
            .error "checkpoint book hash mismatch"
          else match checkpointIntervals (document.get? "unreliable_intervals") with
            | none => .error invalid
            | some intervals => .ok (book, intervals)
      | _ => .error invalid

end MarketDataRecorder
