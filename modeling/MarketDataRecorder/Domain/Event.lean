import Mathlib.Data.String.Basic
import Mathlib.Order.Basic
import MarketDataRecorder.Lib.SortedDict
import MarketDataRecorder.Lib.Value

/-!
# The event envelope

`domain/event.py`: the metadata and exact payload bytes captured at a receive boundary. The model
class is frozen and validated, so an envelope of this type satisfies its field constraints:
texts are `NonEmptyText`, times are natural numbers, the market is one of seven.

`schema_version` and `venue` have one legal value each and are not fields here; the mapping writes
them and `modelValidate` checks them.
-/

namespace MarketDataRecorder

abbrev Bytes := List UInt8

/-! ## Field types -/

/-- `Market`. -/
inductive Market where
  | spot
  | umPerpetual
  | umDelivery
  | cmPerpetual
  | cmDelivery
  | umShared
  | cmShared
  deriving DecidableEq, Repr

namespace Market

def text : Market → String
  | spot => "spot"
  | umPerpetual => "um_perpetual"
  | umDelivery => "um_delivery"
  | cmPerpetual => "cm_perpetual"
  | cmDelivery => "cm_delivery"
  | umShared => "um_shared"
  | cmShared => "cm_shared"

def ofText? (s : String) : Option Market :=
  [spot, umPerpetual, umDelivery, cmPerpetual, cmDelivery, umShared, cmShared].find?
    (fun m => m.text = s)

@[simp] theorem ofText?_text (m : Market) : ofText? m.text = some m := by
  cases m <;> decide

end Market

/-- `StringConstraints(min_length=1, max_length=256)`. -/
abbrev NonEmptyText := { s : String // 1 ≤ s.length ∧ s.length ≤ 256 }

namespace NonEmptyText

def ofText? (s : String) : Option NonEmptyText :=
  if h : 1 ≤ s.length ∧ s.length ≤ 256 then some ⟨s, h⟩ else none

@[simp] theorem ofText?_val (t : NonEmptyText) : ofText? t.val = some t := by
  simp [ofText?, t.property]

/-- A strict text field. -/
def ofValue? : Value → Option NonEmptyText
  | .str s => ofText? s
  | _ => none

@[simp] theorem ofValue?_str (t : NonEmptyText) : ofValue? (.str t.val) = some t := ofText?_val t

end NonEmptyText

/-- `int | str`. -/
inductive SequenceValue where
  | int (i : Int)
  | str (s : String)
  deriving DecidableEq, Repr

namespace SequenceValue

def toValue : SequenceValue → Value
  | int i => .int i
  | str s => .str s

def ofValue? : Value → Option SequenceValue
  | .int i => some (int i)
  | .str s => some (str s)
  | _ => none

@[simp] theorem ofValue?_toValue (v : SequenceValue) : ofValue? v.toValue = some v := by
  cases v <;> rfl

end SequenceValue

/-- `EventEnvelope`. -/
structure EventEnvelope where
  market : Market
  symbol : NonEmptyText
  stream : NonEmptyText
  module : NonEmptyText
  connectionId : NonEmptyText
  collectorInstanceId : NonEmptyText
  collectorVersion : NonEmptyText
  receiveTimeUtcNs : Nat
  receiveMonotonicNs : Nat
  exchangeEventTime : Option Nat
  exchangeTransactionTime : Option Nat
  exchangeTradeTime : Option Nat
  sourceSequence : SortedDict NonEmptyText SequenceValue
  payloadEncoding : NonEmptyText
  rawPayload : Bytes
  captureFlags : List NonEmptyText
  deriving DecidableEq

namespace EventEnvelope

def schemaVersion : String := "event-envelope.v1"

def venue : String := "binance"

/-! ## The mapping of a frame -/

def optionalInt : Option Nat → Value
  | none => .null
  | some n => .int n

def sequenceItem (p : NonEmptyText × SequenceValue) : String × Value := (p.1.val, p.2.toValue)

/-- `canonical_mapping`, its items in key order. -/
def canonicalMapping (e : EventEnvelope) : Value :=
  .dict [
    ("capture_flags", .list (e.captureFlags.map fun f => .str f.val)),
    ("collector_instance_id", .str e.collectorInstanceId.val),
    ("collector_version", .str e.collectorVersion.val),
    ("connection_id", .str e.connectionId.val),
    ("exchange_event_time", optionalInt e.exchangeEventTime),
    ("exchange_trade_time", optionalInt e.exchangeTradeTime),
    ("exchange_transaction_time", optionalInt e.exchangeTransactionTime),
    ("market", .str e.market.text),
    ("module", .str e.module.val),
    ("payload_encoding", .str e.payloadEncoding.val),
    ("raw_payload", .bytes e.rawPayload),
    ("receive_monotonic_ns", .int e.receiveMonotonicNs),
    ("receive_time_utc_ns", .int e.receiveTimeUtcNs),
    ("schema_version", .str schemaVersion),
    ("source_sequence", .dict (e.sourceSequence.items.map sequenceItem)),
    ("stream", .str e.stream.val),
    ("symbol", .str e.symbol.val),
    ("venue", .str venue)]

/-! ## Validation -/

/-- The model's fields; `extra="forbid"`. -/
def fieldNames : List String :=
  ["capture_flags", "collector_instance_id", "collector_version", "connection_id",
   "exchange_event_time", "exchange_trade_time", "exchange_transaction_time", "market", "module",
   "payload_encoding", "raw_payload", "receive_monotonic_ns", "receive_time_utc_ns",
   "schema_version", "source_sequence", "stream", "symbol", "venue"]

def noExtraFields : Value → Bool
  | .dict items => items.all fun p => p.1 ∈ fieldNames
  | _ => false

/-- A field with a default and one legal text. -/
def literalField (v : Value) (name literal : String) : Option Unit :=
  match v.get? name with
  | none => some ()
  | some (.str s) => if s = literal then some () else none
  | some _ => none

def textField (v : Value) (name : String) : Option NonEmptyText :=
  (v.get? name).bind NonEmptyText.ofValue?

def textFieldD (v : Value) (name : String) (default : NonEmptyText) : Option NonEmptyText :=
  match v.get? name with
  | none => some default
  | some x => NonEmptyText.ofValue? x

/-- `Field(ge=0)`; a strict integer is no boolean. -/
def naturalValue? : Value → Option Nat
  | .int (.ofNat n) => some n
  | _ => none

def naturalField (v : Value) (name : String) : Option Nat := (v.get? name).bind naturalValue?

def optionalNaturalField (v : Value) (name : String) : Option (Option Nat) :=
  match v.get? name with
  | none => some none
  | some .null => some none
  | some x => (naturalValue? x).map some

def marketField (v : Value) : Option Market :=
  match v.get? "market" with
  | some (.str s) => Market.ofText? s
  | _ => none

def bytesField (v : Value) (name : String) : Option Bytes :=
  match v.get? name with
  | some (.bytes b) => some b
  | _ => none

def sequenceItem? (p : String × Value) : Option (NonEmptyText × SequenceValue) := do
  let k ← NonEmptyText.ofText? p.1
  let v ← SequenceValue.ofValue? p.2
  return (k, v)

def sourceSequenceField (v : Value) : Option (SortedDict NonEmptyText SequenceValue) :=
  match v.get? "source_sequence" with
  | none => some .empty
  | some (.dict items) => (items.mapM sequenceItem?).map SortedDict.ofItems
  | some _ => none

def captureFlagsField (v : Value) : Option (List NonEmptyText) :=
  match v.get? "capture_flags" with
  | none => some []
  | some (.list xs) => xs.mapM NonEmptyText.ofValue?
  | some _ => none

theorem utf8Json_fits : 1 ≤ "utf-8-json".length ∧ "utf-8-json".length ≤ 256 := by decide

def defaultPayloadEncoding : NonEmptyText := ⟨"utf-8-json", utf8Json_fits⟩

/-- `EventEnvelope.model_validate`, `none` for a `ValidationError`. -/
def modelValidate (v : Value) : Option EventEnvelope := do
  guard (noExtraFields v = true)
  let _ ← literalField v "schema_version" schemaVersion
  let _ ← literalField v "venue" venue
  let market ← marketField v
  let symbol ← textField v "symbol"
  let stream ← textField v "stream"
  let module ← textField v "module"
  let connectionId ← textField v "connection_id"
  let collectorInstanceId ← textField v "collector_instance_id"
  let collectorVersion ← textField v "collector_version"
  let receiveTimeUtcNs ← naturalField v "receive_time_utc_ns"
  let receiveMonotonicNs ← naturalField v "receive_monotonic_ns"
  let exchangeEventTime ← optionalNaturalField v "exchange_event_time"
  let exchangeTransactionTime ← optionalNaturalField v "exchange_transaction_time"
  let exchangeTradeTime ← optionalNaturalField v "exchange_trade_time"
  let sourceSequence ← sourceSequenceField v
  let payloadEncoding ← textFieldD v "payload_encoding" defaultPayloadEncoding
  let rawPayload ← bytesField v "raw_payload"
  let captureFlags ← captureFlagsField v
  return {
    market, symbol, stream, module, connectionId, collectorInstanceId, collectorVersion,
    receiveTimeUtcNs, receiveMonotonicNs, exchangeEventTime, exchangeTransactionTime,
    exchangeTradeTime, sourceSequence, payloadEncoding, rawPayload, captureFlags }

/-! ## Reading a mapping back -/

theorem mapM_some_of_forall {α β : Type} {f : α → Option β} {g : β → α}
    (h : ∀ b, f (g b) = some b) : ∀ l : List β, (l.map g).mapM f = some l
  | [] => rfl
  | b :: rest => by
    rw [List.map_cons, List.mapM_cons, h b, mapM_some_of_forall h rest]
    rfl

@[simp] theorem sequenceItem?_sequenceItem (p : NonEmptyText × SequenceValue) :
    sequenceItem? (sequenceItem p) = some p := by
  simp [sequenceItem?, sequenceItem]

theorem optionalNaturalField_of_get? {v : Value} {name : String} {o : Option Nat}
    (h : v.get? name = some (optionalInt o)) : optionalNaturalField v name = some o := by
  rw [optionalNaturalField, h]
  cases o <;> rfl

theorem textField_of_get? {v : Value} {name : String} {t : NonEmptyText}
    (h : v.get? name = some (.str t.val)) : textField v name = some t := by
  rw [textField, h, Option.bind_some, NonEmptyText.ofValue?_str]

theorem sourceSequenceField_canonicalMapping (e : EventEnvelope) :
    sourceSequenceField e.canonicalMapping = some e.sourceSequence := by
  show ((e.sourceSequence.items.map sequenceItem).mapM sequenceItem?).map SortedDict.ofItems = _
  rw [mapM_some_of_forall sequenceItem?_sequenceItem, Option.map_some, SortedDict.ofItems_items]

theorem captureFlagsField_canonicalMapping (e : EventEnvelope) :
    captureFlagsField e.canonicalMapping = some e.captureFlags := by
  show (e.captureFlags.map fun f => Value.str f.val).mapM NonEmptyText.ofValue? = _
  exact mapM_some_of_forall NonEmptyText.ofValue?_str e.captureFlags

/-- **The mapping of an envelope validates to the envelope.** -/
theorem modelValidate_canonicalMapping (e : EventEnvelope) :
    modelValidate e.canonicalMapping = some e := by
  have hmarket : marketField e.canonicalMapping = some e.market := Market.ofText?_text e.market
  have hencoding : textFieldD e.canonicalMapping "payload_encoding" defaultPayloadEncoding =
      some e.payloadEncoding := NonEmptyText.ofValue?_str e.payloadEncoding
  have hextra : noExtraFields e.canonicalMapping = true := rfl
  have hschema : literalField e.canonicalMapping "schema_version" schemaVersion = some () := rfl
  have hvenue : literalField e.canonicalMapping "venue" venue = some () := rfl
  have hutc : naturalField e.canonicalMapping "receive_time_utc_ns" = some e.receiveTimeUtcNs := rfl
  have hmono : naturalField e.canonicalMapping "receive_monotonic_ns" =
      some e.receiveMonotonicNs := rfl
  have hpayload : bytesField e.canonicalMapping "raw_payload" = some e.rawPayload := rfl
  have hsymbol : textField e.canonicalMapping "symbol" = some e.symbol := textField_of_get? rfl
  have hstream : textField e.canonicalMapping "stream" = some e.stream := textField_of_get? rfl
  have hmodule : textField e.canonicalMapping "module" = some e.module := textField_of_get? rfl
  have hconn : textField e.canonicalMapping "connection_id" = some e.connectionId :=
    textField_of_get? rfl
  have hinst : textField e.canonicalMapping "collector_instance_id" =
      some e.collectorInstanceId := textField_of_get? rfl
  have hversion : textField e.canonicalMapping "collector_version" = some e.collectorVersion :=
    textField_of_get? rfl
  have hevent : optionalNaturalField e.canonicalMapping "exchange_event_time" =
      some e.exchangeEventTime := optionalNaturalField_of_get? rfl
  have htransaction : optionalNaturalField e.canonicalMapping "exchange_transaction_time" =
      some e.exchangeTransactionTime := optionalNaturalField_of_get? rfl
  have htrade : optionalNaturalField e.canonicalMapping "exchange_trade_time" =
      some e.exchangeTradeTime := optionalNaturalField_of_get? rfl
  simp only [modelValidate, hextra, hschema, hvenue, hmarket, hsymbol, hstream, hmodule, hconn,
    hinst, hversion, hutc, hmono, hevent, htransaction, htrade, hencoding, hpayload,
    sourceSequenceField_canonicalMapping, captureFlagsField_canonicalMapping, guard_true,
    Option.pure_def, Option.bind_eq_bind, Option.bind_some]

end EventEnvelope

end MarketDataRecorder
