import MarketDataRecorder.Lib.Base64
import MarketDataRecorder.Lib.Fallible
import MarketDataRecorder.Lib.JsonText
import MarketDataRecorder.Normalize.Raw

/-!
# Events from envelopes

`normalize/parser.py`, with the field names of `normalize/model.py`: what the payload of an envelope
says, as events with an identity and a content of their own. A payload that does not have the form
of its stream becomes one malformed event.

* `parseEnvelope` — the events of an envelope
* `parseEnvelope_numbers` — no two of them have one ordinal
-/

namespace MarketDataRecorder

/-- `canonical_json`. -/
def canonicalJson (value : Value) : String := String.ofList (JsonText.renderValue value)

/-- `sha256_json`. -/
def sha256Json (codec : Codec) (value : Value) : String :=
  codec.sha256Hex (Cbor.utf8 (canonicalJson value))

namespace Normalize

/-- `ParsedEvent`. -/
structure ParsedEvent where
  fields : List (String × Value)
  semanticIdentity : Value
  logicalContent : Value
  subrecordOrdinal : Nat := 0
  valid : Bool := true
  errorCode : Option String := none
  exchangeTimes : Option (List (String × Option Nat)) := none
  eventKind : String := "market_event"

/-- An event of fields that are its content. -/
def ParsedEvent.ofFields (fields identity : List (String × Value)) (eventKind : String) :
    ParsedEvent where
  fields := fields
  semanticIdentity := JsonText.document identity
  logicalContent := JsonText.document fields
  eventKind := eventKind

/-! ## Streams -/

/-- `SUPPORTED_STREAMS`. -/
def supportedStreams : Market → List String
  | .spot => ["diff_depth", "agg_trade", "book_ticker", "depth_snapshot", "exchange_info"]
  | .umPerpetual => ["diff_depth", "agg_trade", "book_ticker", "depth_snapshot", "mark_price",
      "liquidation", "premium_index_snapshot", "funding_history", "funding_info", "open_interest",
      "exchange_info", "open_interest_statistics_5m", "taker_buy_sell_volume_5m",
      "global_long_short_ratio_5m", "top_long_short_account_ratio_5m",
      "top_long_short_position_ratio_5m", "basis_5m"]
  | _ => []

/-- `FIVE_MINUTE_STREAMS`. -/
def fiveMinuteStreams : List String :=
  ["open_interest_statistics_5m", "taker_buy_sell_volume_5m", "global_long_short_ratio_5m",
   "top_long_short_account_ratio_5m", "top_long_short_position_ratio_5m", "basis_5m"]

def ratioStreams : List String :=
  ["global_long_short_ratio_5m", "top_long_short_account_ratio_5m",
   "top_long_short_position_ratio_5m"]

def startsWith (start text : String) : Bool := start.toList.isPrefixOf text.toList

/-- `public_observation_stream`. -/
def publicObservationStream (stream : String) : Bool :=
  stream = "rest_observations" || startsWith "ws_public_" stream || startsWith "ws_market_" stream

def ratioFieldNames : List String :=
  ["observation_empty", "timestamp_ms", "long_short_ratio", "long_account", "short_account"]

/-- `STREAM_FIELDS`, the names. -/
def streamFields : List (String × List String) := [
  ("diff_depth", ["first_update_id", "final_update_id", "previous_final_update_id", "bids_json",
    "asks_json"]),
  ("agg_trade", ["aggregate_trade_id", "first_trade_id", "last_trade_id", "price", "quantity",
    "buyer_is_maker", "best_match"]),
  ("book_ticker", ["update_id", "bid_price", "bid_quantity", "ask_price", "ask_quantity"]),
  ("depth_snapshot", ["last_update_id", "bids_json", "asks_json", "response_status",
    "request_time_utc_ns", "response_model_sha256"]),
  ("mark_price", ["mark_price", "index_price", "estimated_settle_price", "funding_rate",
    "next_funding_time_ms"]),
  ("liquidation", ["side", "order_type", "time_in_force", "original_quantity", "price",
    "average_price", "order_status", "last_filled_quantity", "accumulated_filled_quantity",
    "order_trade_time_ms"]),
  ("premium_index_snapshot", ["mark_price", "index_price", "estimated_settle_price",
    "last_funding_rate", "interest_rate", "next_funding_time_ms", "observation_time_ms"]),
  ("funding_history", ["observation_empty", "funding_time_ms", "funding_rate", "mark_price"]),
  ("funding_info", ["symbol_present", "observation_record_count", "adjusted_funding_rate_cap",
    "adjusted_funding_rate_floor", "funding_interval_hours", "disclaimer"]),
  ("open_interest", ["open_interest", "observation_time_ms"]),
  ("exchange_info", ["symbol_present", "server_time_ms", "contract_type", "trading_status",
    "filters_json", "rate_limits_json"]),
  ("open_interest_statistics_5m", ["observation_empty", "timestamp_ms", "sum_open_interest",
    "sum_open_interest_value"]),
  ("taker_buy_sell_volume_5m", ["observation_empty", "timestamp_ms", "buy_sell_ratio",
    "buy_volume", "sell_volume"]),
  ("global_long_short_ratio_5m", ratioFieldNames),
  ("top_long_short_account_ratio_5m", ratioFieldNames),
  ("top_long_short_position_ratio_5m", ratioFieldNames),
  ("basis_5m", ["observation_empty", "timestamp_ms", "pair", "contract_type", "index_price",
    "futures_price", "basis", "basis_rate", "annualized_basis_rate"])]

/-- `SPOT_EXCHANGE_INFO_FIELDS`, the names. -/
def spotExchangeInfoFields : List String :=
  ["symbol_present", "server_time_ms", "trading_status", "filters_json", "order_types_json",
   "rate_limits_json", "permissions_json", "permission_sets_json", "response_model_sha256"]

/-- `_stream_field_names`, of a stream that is supported. -/
def streamFieldNames (market : Market) (stream : String) : List String :=
  if market = .spot ∧ stream = "exchange_info" then spotExchangeInfoFields
  else (streamFields.lookup stream).getD []

/-- No value for any field of a stream. -/
def noFields (market : Market) (stream : String) : List (String × Value) :=
  (streamFieldNames market stream).map fun name => (name, .null)

/-! ## Errors -/

/-- A `NormalizedSchemaError`, or an error of another class. -/
inductive ParseError where
  | schema (text : String)
  | other (text : String)
  deriving DecidableEq, Repr

def ParseError.text : ParseError → String
  | schema text => text
  | other text => text

abbrev Parse (α : Type) := Except ParseError α

def schemaError {α : Type} (text : String) : Parse α := .error (.schema text)

/-- A list of one event. -/
def one (event : Parse ParsedEvent) : Parse (List ParsedEvent) := event.map fun event => [event]

def require (p : Prop) [Decidable p] (text : String) : Parse Unit :=
  if p then .ok () else schemaError text

/-- What `json.loads` does with bytes. -/
inductive Decoded where
  | value (v : Value)
  /-- A `JSONDecodeError` or a `UnicodeDecodeError`. -/
  | malformed
  /-- Another `ValueError`, over the digits of an integer. -/
  | valueError
  | recursionError

/-- `json.loads`, and `json.loads` with `parse_float=str`. Nothing is assumed of them: which bytes
they read, and where the limits of the interpreter are, is left open. -/
structure PayloadReader where
  loads : Bytes → Decoded
  loadsFloatText : Bytes → Decoded

/-! ## Fields -/

/-- `value.get(name)`. -/
def fieldOf (value : Value) (name : String) : Value := (value.get? name).getD .null

/-- `_object`. -/
def object (value : Value) (name : String) : Parse Value :=
  match value with
  | .dict items => .ok (.dict items)
  | _ => schemaError s!"{name} must be an object"

/-- `_array`. -/
def array (value : Value) (name : String) : Parse (List Value) :=
  match value with
  | .list items => .ok items
  | _ => schemaError s!"{name} must be an array"

/-- `_text`. -/
def textField (value : Value) (name : String) : Parse Value :=
  match fieldOf value name with
  | .str text =>
    if text = "" then schemaError s!"{name} must be non-empty text" else .ok (.str text)
  | _ => schemaError s!"{name} must be non-empty text"

/-- `_string`. -/
def stringField (value : Value) (name : String) : Parse Value :=
  match fieldOf value name with
  | .str text => .ok (.str text)
  | _ => schemaError s!"{name} must be text"

/-- `_integer`. -/
def integerField (value : Value) (name : String) : Parse Nat :=
  match fieldOf value name with
  | .int (.ofNat n) => .ok n
  | _ => schemaError s!"{name} must be a non-negative integer"

/-- `_boolean`. -/
def booleanField (value : Value) (name : String) : Parse Value :=
  match fieldOf value name with
  | .bool b => .ok (.bool b)
  | _ => schemaError s!"{name} must be boolean"

/-- A price and a quantity, both texts. -/
def isLevel : Value → Bool
  | .list [.str _, .str _] => true
  | _ => false

/-- `_levels`. -/
def levelsField (value : Value) (name : String) : Parse (List Value) := do
  let levels ← array (fieldOf value name) name
  require (levels.all isLevel) s!"{name} contains invalid price levels"
  return levels

/-- A field that is read only where it is there. -/
def optionalField (value : Value) (name : String) (read : Value → String → Parse Value) :
    Parse Value :=
  match value.get? name with
  | none => .ok .null
  | some _ => read value name

/-- A field of something that may be missing. -/
def fieldOfOption (value : Option Value) (name : String) (read : Value → String → Parse Value) :
    Parse Value :=
  match value with
  | none => .ok .null
  | some value => read value name

def natField (value : Value) (name : String) : Parse Value :=
  (integerField value name).map fun n => .int n

/-- `canonical_json` of an array. -/
def arrayJson (value : Value) (name : String) : Parse Value :=
  (array (fieldOf value name) name).map fun items => .str (canonicalJson (.list items))

section

variable (codec : Codec) (reader : PayloadReader) (envelope : EventEnvelope)

def symbolValue : Value := .str envelope.symbol.val

def streamValue : Value := .str envelope.stream.val

def marketValue : Value := .str envelope.market.text

/-- `_decode`. -/
def decodePayload : Parse Value :=
  match reader.loads envelope.rawPayload with
  | .value v => .ok v
  | .malformed => schemaError "payload is not valid UTF-8 JSON"
  | .valueError => .error (.other "ValueError")
  | .recursionError => .error (.other "RecursionError")

/-- `_deployment_id`. -/
def deploymentId : Option String :=
  ((envelope.captureFlags.map Subtype.val).find? (startsWith "deployment_id=")).map fun flag =>
    String.ofList (flag.toList.drop "deployment_id=".length)

/-- `_poll_identity`. -/
def pollIdentity (model : Value) : List (String × Value) :=
  match deploymentId envelope with
  | some id =>
    if "blue_green_overlap" ∈ envelope.captureFlags.map Subtype.val then
      [("kind", .str "blue_green_poll"), ("deployment_id", .str id),
        ("model_sha256", .str (sha256Json codec model))]
    else observation
  | none => observation
where
  observation : List (String × Value) := [
    ("kind", .str "poll_observation"),
    ("receive_time_utc_ns", .int envelope.receiveTimeUtcNs),
    ("collector_instance_id", .str envelope.collectorInstanceId.val),
    ("connection_id", .str envelope.connectionId.val)]

/-! ## WebSocket streams

The source returns an event in a list of one. -/

def serverShutdown (payload : Value) : Parse ParsedEvent := do
  let eventTime ← integerField payload "E"
  return {
    fields := noFields envelope.market envelope.stream.val
    semanticIdentity := JsonText.document
      [("kind", .str "server_shutdown"), ("event_time", .int eventTime)]
    logicalContent := JsonText.document
      [("event_kind", .str "server_shutdown"), ("event_time", .int eventTime)]
    eventKind := "server_shutdown" }

def diffDepth (payload : Value) : Parse ParsedEvent := do
  let first ← integerField payload "U"
  let final ← integerField payload "u"
  require (first ≤ final) "depth U exceeds u"
  let previous ← if envelope.market = .umPerpetual then (integerField payload "pu").map some
    else .ok none
  let bids ← levelsField payload "b"
  let asks ← levelsField payload "a"
  let fields := [
    ("first_update_id", .int first),
    ("final_update_id", .int final),
    ("previous_final_update_id", EventEnvelope.optionalInt previous),
    ("bids_json", .str (canonicalJson (.list bids))),
    ("asks_json", .str (canonicalJson (.list asks)))]
  let identity := [("kind", streamValue envelope), ("market", marketValue envelope),
    ("symbol", symbolValue envelope), ("U", .int first), ("u", .int final)]
  let pu := match previous with
    | none => []
    | some previous => [("pu", Value.int previous)]
  return .ofFields fields (identity ++ pu) "market_event"

def aggTrade (payload : Value) : Parse ParsedEvent := do
  let aggregate ← integerField payload "a"
  let first ← integerField payload "f"
  let last ← integerField payload "l"
  require (first ≤ last) "aggregate trade f exceeds l"
  let price ← textField payload "p"
  let quantity ← textField payload "q"
  let buyerIsMaker ← booleanField payload "m"
  let bestMatch ← if envelope.market = .spot then booleanField payload "M" else .ok .null
  let fields := [
    ("aggregate_trade_id", .int aggregate), ("first_trade_id", .int first),
    ("last_trade_id", .int last), ("price", price), ("quantity", quantity),
    ("buyer_is_maker", buyerIsMaker), ("best_match", bestMatch)]
  return .ofFields fields [("kind", streamValue envelope), ("market", marketValue envelope),
    ("symbol", symbolValue envelope), ("aggregate_trade_id", .int aggregate)] "market_event"

def bookTicker (payload : Value) : Parse ParsedEvent := do
  let updateId ← integerField payload "u"
  let bidPrice ← textField payload "b"
  let bidQuantity ← textField payload "B"
  let askPrice ← textField payload "a"
  let askQuantity ← textField payload "A"
  let fields := [("update_id", .int updateId), ("bid_price", bidPrice),
    ("bid_quantity", bidQuantity), ("ask_price", askPrice), ("ask_quantity", askQuantity)]
  return .ofFields fields [("kind", streamValue envelope), ("market", marketValue envelope),
    ("symbol", symbolValue envelope), ("update_id", .int updateId)] "market_event"

/-- `_core_websocket`. -/
def coreWebsocket (payload : Value) : Parse ParsedEvent := do
  if fieldOf payload "e" = .str "serverShutdown" then serverShutdown envelope payload
  else
    let symbol ← textField payload "s"
    require (symbol = symbolValue envelope) "payload symbol differs from envelope"
    if envelope.stream.val = "diff_depth" then diffDepth envelope payload
    else if envelope.stream.val = "agg_trade" then aggTrade envelope payload
    else bookTicker envelope payload

/-- `_mark_price`. -/
def markPrice (payload : Value) : Parse ParsedEvent := do
  let eventTime ← integerField payload "E"
  let fundingTime ← integerField payload "T"
  let mark ← textField payload "p"
  let index ← textField payload "i"
  let settle ← textField payload "P"
  let rate ← textField payload "r"
  let fields := [("mark_price", mark), ("index_price", index), ("estimated_settle_price", settle),
    ("funding_rate", rate), ("next_funding_time_ms", .int fundingTime)]
  return .ofFields fields [("kind", .str "mark_price"), ("symbol", symbolValue envelope),
    ("event_time", .int eventTime), ("next_funding_time", .int fundingTime)] "market_event"

/-- `_liquidation`. -/
def liquidation (payload : Value) : Parse ParsedEvent := do
  let eventTime ← integerField payload "E"
  let order ← object (fieldOf payload "o") "o"
  let symbol ← textField order "s"
  require (symbol = symbolValue envelope) "liquidation symbol differs from envelope"
  let tradeTime ← integerField order "T"
  let side ← textField order "S"
  let orderType ← textField order "o"
  let timeInForce ← textField order "f"
  let originalQuantity ← textField order "q"
  let price ← textField order "p"
  let averagePrice ← textField order "ap"
  let orderStatus ← textField order "X"
  let lastFilled ← textField order "l"
  let accumulated ← textField order "z"
  let fields := [("side", side), ("order_type", orderType), ("time_in_force", timeInForce),
    ("original_quantity", originalQuantity), ("price", price), ("average_price", averagePrice),
    ("order_status", orderStatus), ("last_filled_quantity", lastFilled),
    ("accumulated_filled_quantity", accumulated), ("order_trade_time_ms", .int tradeTime)]
  return .ofFields fields [("kind", .str "liquidation"), ("symbol", symbolValue envelope),
    ("event_time", .int eventTime), ("trade_time", .int tradeTime), ("side", side)] "market_event"

/-! ## REST records -/

/-- `response_document`, of a record that has a response; nothing where it raises an error that
`_depth_snapshot` takes for a schema error. -/
def responseDocument (response : Value) : Except ParseError (Option Value) :=
  match response.get? "model", response.get? "raw_body_base64" with
  | some model, _ => .ok (some model)
  | none, some (.str text) =>
    match Base64.decode text.toList with
    | none => .ok none
    | some body =>
      match reader.loadsFloatText body with
      | .value v => .ok (some v)
      | .malformed | .valueError => .ok none
      | .recursionError => .error (.other "RecursionError")
  | none, _ => .ok none

/-- `_depth_snapshot`. -/
def depthSnapshot (provenance : Value) : Parse ParsedEvent := do
  let response ← object (fieldOf provenance "response") "response"
  let request ← object (fieldOf provenance "request") "request"
  let found ← responseDocument reader response
  let model := found.getD .null
  require model.isDict "invalid snapshot representation"
  let lastUpdateId ← integerField model "lastUpdateId"
  let bids ← levelsField model "bids"
  let asks ← levelsField model "asks"
  let modelHash := Value.str (sha256Json codec model)
  let status ← natField response "status"
  let requestTime ← natField request "request_time_utc_ns"
  let fields := [
    ("last_update_id", .int lastUpdateId),
    ("bids_json", .str (canonicalJson (.list bids))),
    ("asks_json", .str (canonicalJson (.list asks))),
    ("response_status", status),
    ("request_time_utc_ns", requestTime),
    ("response_model_sha256", modelHash)]
  return .ofFields fields [("kind", .str "depth_snapshot"), ("market", marketValue envelope),
    ("last_update_id", .int lastUpdateId), ("model_sha256", modelHash)] "rest_snapshot"

/-- The entries that name the symbol of the envelope. -/
def matchesOf (items : List Value) : List Value :=
  items.filter fun item => item.isDict && fieldOf item "symbol" = symbolValue envelope

/-- `_spot_exchange_info`. -/
def spotExchangeInfo (model : Value) : Parse ParsedEvent := do
  let item ← object model "response.model"
  let symbols ← array (fieldOf item "symbols") "symbols"
  let found := matchesOf envelope symbols
  require (found.length ≤ 1) "Spot exchange info identifies BTCUSDT more than once"
  let symbol := found.head?
  let modelHash := Value.str (sha256Json codec item)
  let serverTime ← optionalField item "serverTime" natField
  let status ← fieldOfOption symbol "status" textField
  let filters ← fieldOfOption symbol "filters" arrayJson
  let orderTypes ← fieldOfOption symbol "orderTypes" arrayJson
  let rateLimits ← optionalField item "rateLimits" arrayJson
  let permissions ← fieldOfOption symbol "permissions" fun value name =>
    optionalField value name arrayJson
  let permissionSets ← fieldOfOption symbol "permissionSets" fun value name =>
    optionalField value name arrayJson
  let fields := [
    ("symbol_present", .bool symbol.isSome), ("server_time_ms", serverTime),
    ("trading_status", status), ("filters_json", filters), ("order_types_json", orderTypes),
    ("rate_limits_json", rateLimits), ("permissions_json", permissions),
    ("permission_sets_json", permissionSets), ("response_model_sha256", modelHash)]
  return .ofFields fields [("kind", .str "exchange_info"), ("market", marketValue envelope),
    ("symbol", symbolValue envelope), ("model_sha256", modelHash)] "rest_snapshot"

/-- `_usdm_exchange_info`. -/
def usdmExchangeInfo (model : Value) : Parse ParsedEvent := do
  let item ← object model "response.model"
  let symbols ← array (fieldOf item "symbols") "symbols"
  let rateLimits ← array (fieldOf item "rateLimits") "rateLimits"
  let found := matchesOf envelope symbols
  require (found.length = 1) "exchange info does not identify BTCUSDT once"
  let symbol := found.headD .null
  let serverTime ← optionalField item "serverTime" natField
  let contractType ← textField symbol "contractType"
  let status ← textField symbol "status"
  let filters ← arrayJson symbol "filters"
  let fields := [
    ("symbol_present", .bool true), ("server_time_ms", serverTime),
    ("contract_type", contractType), ("trading_status", status), ("filters_json", filters),
    ("rate_limits_json", .str (canonicalJson (.list rateLimits)))]
  -- the kind of the poll takes the place of the stream
  return .ofFields fields (("kind", streamValue envelope) :: pollIdentity codec envelope item)
    "rest_snapshot"

/-- `_request_period_range`. -/
def requestPeriodRange (provenance : Value) : Parse (Nat × Nat) := do
  let request ← object (fieldOf provenance "request") "request"
  let parameters ← object (fieldOf request "parameters") "request.parameters"
  let nameOf (requested name : String) :=
    if (parameters.get? requested).isSome then requested else name
  let start ← integerField parameters (nameOf "requestedStartTime" "startTime")
  let stop ← integerField parameters (nameOf "requestedEndTime" "endTime")
  return (start, stop)

/-- The fields of an item of a five-minute stream, behind the first two. -/
def fiveMinuteFields (item : Value) : Parse (List (String × Value)) := do
  let stream := envelope.stream.val
  if stream = "open_interest_statistics_5m" then
    let symbol ← textField item "symbol"
    require (symbol = symbolValue envelope) "open-interest symbol differs"
    let interest ← textField item "sumOpenInterest"
    let value ← textField item "sumOpenInterestValue"
    return [("sum_open_interest", interest), ("sum_open_interest_value", value)]
  else if stream = "taker_buy_sell_volume_5m" then
    let ratio ← textField item "buySellRatio"
    let bought ← textField item "buyVol"
    let sold ← textField item "sellVol"
    return [("buy_sell_ratio", ratio), ("buy_volume", bought), ("sell_volume", sold)]
  else if stream ∈ ratioStreams then
    let symbol ← textField item "symbol"
    require (symbol = symbolValue envelope) "long-short ratio symbol differs"
    let ratio ← textField item "longShortRatio"
    let long ← textField item "longAccount"
    let short ← textField item "shortAccount"
    return [("long_short_ratio", ratio), ("long_account", long), ("short_account", short)]
  else
    let pair ← textField item "pair"
    require (pair = symbolValue envelope) "basis pair differs from envelope"
    let contractType ← textField item "contractType"
    let indexPrice ← textField item "indexPrice"
    let futuresPrice ← textField item "futuresPrice"
    let basis ← textField item "basis"
    let basisRate ← textField item "basisRate"
    let annualized ← stringField item "annualizedBasisRate"
    return [("pair", pair), ("contract_type", contractType), ("index_price", indexPrice),
      ("futures_price", futuresPrice), ("basis", basis), ("basis_rate", basisRate),
      ("annualized_basis_rate", annualized)]

def fiveMinuteItem (item : Value × Nat) : Parse ParsedEvent := do
  let (item, ordinal) := item
  let item ← object item (envelope.stream.val ++ " item")
  let timestamp ← integerField item "timestamp"
  let others ← fiveMinuteFields envelope item
  let fields := [("observation_empty", .bool false), ("timestamp_ms", .int timestamp)] ++ others
  return { ParsedEvent.ofFields fields [("kind", streamValue envelope),
    ("market", marketValue envelope), ("symbol", symbolValue envelope),
    ("timestamp_ms", .int timestamp)] "rest_period" with subrecordOrdinal := ordinal }

/-- A field map with one value replaced. -/
def withField (fields : List (String × Value)) (name : String) (value : Value) :
    List (String × Value) :=
  fields.map fun field => if field.1 = name then (name, value) else field

/-- `_five_minute_rest`. -/
def fiveMinuteRest (provenance model : Value) : Parse (List ParsedEvent) := do
  let items ← array model "response.model"
  if items.isEmpty then
    let (start, stop) ← requestPeriodRange provenance
    let fields := withField (noFields envelope.market envelope.stream.val) "observation_empty"
      (.bool true)
    return [.ofFields fields [("kind", streamValue envelope), ("market", marketValue envelope),
      ("symbol", symbolValue envelope), ("requested_start_ms", .int start),
      ("requested_end_ms", .int stop), ("model_sha256", .str (sha256Json codec (.list items)))]
      "empty_observation"]
  else items.zipIdx.mapM (fiveMinuteItem envelope)

def premiumIndexSnapshot (model : Value) : Parse ParsedEvent := do
  let item ← object model "response.model"
  let mark ← textField item "markPrice"
  let index ← textField item "indexPrice"
  let settle ← textField item "estimatedSettlePrice"
  let rate ← textField item "lastFundingRate"
  let interest ← textField item "interestRate"
  let next ← natField item "nextFundingTime"
  let time ← natField item "time"
  let fields := [("mark_price", mark), ("index_price", index), ("estimated_settle_price", settle),
    ("last_funding_rate", rate), ("interest_rate", interest), ("next_funding_time_ms", next),
    ("observation_time_ms", time)]
  return .ofFields fields [("kind", streamValue envelope), ("symbol", symbolValue envelope),
    ("observation_time", time)] "rest_snapshot"

def openInterest (model : Value) : Parse ParsedEvent := do
  let item ← object model "response.model"
  let interest ← textField item "openInterest"
  let time ← natField item "time"
  return .ofFields [("open_interest", interest), ("observation_time_ms", time)]
    [("kind", streamValue envelope), ("symbol", symbolValue envelope), ("observation_time", time)]
    "rest_snapshot"

def fundingHistoryItem (item : Value × Nat) : Parse ParsedEvent := do
  let (item, ordinal) := item
  let item ← object item "funding history item"
  let symbol ← textField item "symbol"
  require (symbol = symbolValue envelope) "funding-history symbol differs"
  let fundingTime ← integerField item "fundingTime"
  let rate ← textField item "fundingRate"
  let mark ← optionalField item "markPrice" textField
  let fields := [("observation_empty", .bool false), ("funding_time_ms", .int fundingTime),
    ("funding_rate", rate), ("mark_price", mark)]
  return { ParsedEvent.ofFields fields [("kind", streamValue envelope),
    ("symbol", symbolValue envelope), ("funding_time", .int fundingTime)] "market_event" with
    subrecordOrdinal := ordinal }

def fundingHistory (model : Value) : Parse (List ParsedEvent) := do
  let items ← array model "response.model"
  if items.isEmpty then
    return [.ofFields
      [("observation_empty", .bool true), ("funding_time_ms", .null), ("funding_rate", .null),
        ("mark_price", .null)]
      (("kind", streamValue envelope) :: pollIdentity codec envelope (.list items))
      "empty_observation"]
  else items.zipIdx.mapM (fundingHistoryItem envelope)

def fundingInfo (model : Value) : Parse ParsedEvent := do
  let items ← array model "response.model"
  let found := matchesOf envelope items
  require (found.length ≤ 1) "multiple BTCUSDT funding-info records"
  let item := found.head?
  let cap ← fieldOfOption item "adjustedFundingRateCap" textField
  let floor ← fieldOfOption item "adjustedFundingRateFloor" textField
  let interval ← fieldOfOption item "fundingIntervalHours" natField
  let disclaimer ← fieldOfOption item "disclaimer" fun value name =>
    optionalField value name booleanField
  let fields := [("symbol_present", .bool item.isSome),
    ("observation_record_count", .int items.length), ("adjusted_funding_rate_cap", cap),
    ("adjusted_funding_rate_floor", floor), ("funding_interval_hours", interval),
    ("disclaimer", disclaimer)]
  return .ofFields fields
    (("kind", streamValue envelope) :: pollIdentity codec envelope (.list items)) "rest_snapshot"

/-- `_side_rest`. -/
def sideRest (provenance : Value) : Parse (List ParsedEvent) := do
  let response ← object (fieldOf provenance "response") "response"
  let model := fieldOf response "model"
  let stream := envelope.stream.val
  if stream = "exchange_info" then
    if envelope.market = .spot then one (spotExchangeInfo codec envelope model)
    else one (usdmExchangeInfo codec envelope model)
  else if stream ∈ fiveMinuteStreams then fiveMinuteRest codec envelope provenance model
  else if stream = "premium_index_snapshot" then one (premiumIndexSnapshot envelope model)
  else if stream = "open_interest" then one (openInterest envelope model)
  else if stream = "funding_history" then fundingHistory codec envelope model
  else if stream = "funding_info" then one (fundingInfo codec envelope model)
  else schemaError s!"unhandled REST side-data stream {stream}"

/-! ## Envelopes -/

/-- The streams whose exchange times are read from the payload on the USD-M market. -/
def coreStreams : List String := ["diff_depth", "agg_trade", "book_ticker"]

/-- `_invalid`. -/
def invalidEvent (error : String) : ParsedEvent :=
  let identity := [("kind", .str "malformed"),
    ("raw_payload_sha256", .str (codec.sha256Hex envelope.rawPayload))]
  let fields := noFields envelope.market envelope.stream.val
  let fields := withField fields "observation_empty" (.bool false)
  let fields := withField fields "symbol_present" (.bool false)
  let fields := withField fields "observation_record_count" (.int 0)
  { fields := fields
    semanticIdentity := JsonText.document identity
    logicalContent := JsonText.document (("error_code", .str error) :: identity)
    valid := false
    errorCode := some error
    eventKind := "malformed"
    exchangeTimes :=
      if envelope.market = .umPerpetual ∧ envelope.stream.val ∈ coreStreams then
        some [("exchange_event_time_ms", none), ("exchange_transaction_time_ms", none),
          ("exchange_trade_time_ms", none)]
      else none }

/-- The times of a USD-M payload: what Raw keeps in the trade slot is a transaction time, but for
trades. -/
def usdmTimes (payload : Value) : Parse (List (String × Option Nat)) := do
  let eventTime ← integerField payload "E"
  let other ← if fieldOf payload "e" = .str "serverShutdown" then .ok none
    else (integerField payload "T").map some
  require (eventTime ≤ 2 ^ 63 - 1 ∧ other.all (· ≤ 2 ^ 63 - 1))
    "exchange timestamp exceeds int64 milliseconds"
  let isTrade := envelope.stream.val = "agg_trade"
  return [("exchange_event_time_ms", some eventTime),
    ("exchange_transaction_time_ms", if isTrade then none else other),
    ("exchange_trade_time_ms", if isTrade then other else none)]

/-- The events of a payload that is an object. -/
def payloadEvents (payload : Value) : Parse (List ParsedEvent) := do
  let stream := envelope.stream.val
  if stream ∈ coreStreams then
    let event ← coreWebsocket envelope payload
    if envelope.market = .umPerpetual then
      let times ← usdmTimes envelope payload
      return [{ event with exchangeTimes := some times }]
    else return [event]
  else if stream = "depth_snapshot" then one (depthSnapshot codec reader envelope payload)
  else if stream = "mark_price" then one (markPrice envelope payload)
  else if stream = "liquidation" then one (liquidation envelope payload)
  else sideRest codec envelope payload

/-- `source_sequence.get(name)`. -/
def sequenceField (name : String) : Value :=
  ((envelope.sourceSequence.items.find? fun item => item.1.val = name).map
    fun item => item.2.toValue).getD .null

def restRepresentations : List String :=
  ["sdk-parsed-json.v1", "recent-trades-compact.v1", "http-body-base64.v1"]

/-- Whether the representation of a valid observation is one that is known. -/
def checkRepresentation (decoded : Value) : Parse Unit := do
  let stream := envelope.stream.val
  require (startsWith "ws_" stream = true →
    envelope.payloadEncoding.val = "utf-8-json-combined.v1") "unsupported public WS representation"
  if stream = "rest_observations" then
    require (decoded.isDict ∧
      fieldOf decoded "schema_version" = .str "binance-public-rest-provenance.v1")
      "unsupported public REST representation"
    match fieldOf decoded "representation" with
    | .str representation =>
      require (representation ∈ restRepresentations) "unsupported public REST representation"
    -- a list or a dictionary has no hash
    | .list _ | .dict _ | .oddDict _ => .error (.other "TypeError")
    | _ => schemaError "unsupported public REST representation"

/-- The event of a public observation. -/
def publicObservation : Parse ParsedEvent := do
  let flagged := "malformed" ∈ envelope.captureFlags.map Subtype.val
  let unparseable := JsonText.document
    [("unparseable_payload_base64", .str (Base64.encode envelope.rawPayload))]
  let (valid, decoded) ← match reader.loads envelope.rawPayload with
    | .value v => (.ok (!flagged, v) : Parse (Bool × Value))
    | .malformed | .recursionError => .ok (false, unparseable)
    | .valueError => .error (.other "ValueError")
  if valid then checkRepresentation envelope decoded
  let logicalStream := sequenceField envelope "sourceStream"
  let encoding := Value.str envelope.payloadEncoding.val
  let fields := [
    ("source_stream", logicalStream),
    ("source_family", sequenceField envelope "sourceFamily"),
    ("representation", (decoded.get? "representation").getD encoding),
    ("observation_json", .str (canonicalJson decoded))]
  return { ParsedEvent.ofFields fields [
      ("connection_id", .str envelope.connectionId.val),
      ("receive_monotonic_ns", .int envelope.receiveMonotonicNs),
      ("stream", logicalStream)] "source_observation" with
    valid := valid
    errorCode := if valid then none else some "UPSTREAM_MALFORMED" }

/-- `parse_envelope`. -/
def parseEnvelope : Parse (List ParsedEvent) :=
  let stream := envelope.stream.val
  if publicObservationStream stream then one (publicObservation reader envelope)
  else if stream ∉ supportedStreams envelope.market then
    schemaError s!"unsupported Raw stream {envelope.market.text}/{stream}"
  else if "malformed" ∈ envelope.captureFlags.map Subtype.val then
    .ok [invalidEvent codec envelope "UPSTREAM_MALFORMED"]
  else
    match (do
      let decoded ← decodePayload reader envelope
      let payload ← object decoded "payload"
      payloadEvents codec reader envelope payload) with
    | .error (.schema text) => .ok [invalidEvent codec envelope ("SCHEMA_ERROR:" ++ text)]
    | result => result

end

/-! ## Ordinals -/

/-- No two of the events that are returned have one ordinal. -/
def Numbers (result : Parse (List ParsedEvent)) : Prop :=
  ∀ events, result = .ok events → (events.map ParsedEvent.subrecordOrdinal).Nodup

theorem numbers_singleton (event : ParsedEvent) : Numbers (.ok [event]) := by
  intro events h
  rw [← Except.ok.inj h]
  exact List.nodup_singleton _

theorem numbers_one (event : Parse ParsedEvent) : Numbers (one event) := by
  cases event with
  | error e =>
    intro events h
    cases h
  | ok event => exact numbers_singleton event

theorem numbers_error (e : ParseError) : Numbers (.error e) := by
  intro events h
  cases h

theorem numbers_bind {α : Type} {x : Parse α} {f : α → Parse (List ParsedEvent)}
    (h : ∀ a, Numbers (f a)) : Numbers (x >>= f) := by
  intro events hevents
  obtain ⟨a, -, hf⟩ := except_bind_eq_ok hevents
  exact h a events hf

/-- The items of an array are numbered one after another. -/
theorem numbers_items {item : Value × Nat → Parse ParsedEvent}
    (h : ∀ i event, item i = .ok event → event.subrecordOrdinal = i.2) (items : List Value) :
    Numbers (items.zipIdx.mapM item) := by
  intro events hevents
  have hordinals := Fallible.map_of_mapM_ok (k := Prod.snd) (fun i _ event => h i event) hevents
  rw [hordinals, List.zipIdx_map_snd]
  exact List.nodup_range'

variable {codec : Codec} {reader : PayloadReader} {envelope : EventEnvelope}

theorem ordinal_fiveMinuteItem (i : Value × Nat) (event : ParsedEvent)
    (h : fiveMinuteItem envelope i = .ok event) : event.subrecordOrdinal = i.2 := by
  obtain ⟨item, -, h⟩ := except_bind_eq_ok h
  obtain ⟨timestamp, -, h⟩ := except_bind_eq_ok h
  obtain ⟨others, -, h⟩ := except_bind_eq_ok h
  rw [← Except.ok.inj h]

theorem ordinal_fundingHistoryItem (i : Value × Nat) (event : ParsedEvent)
    (h : fundingHistoryItem envelope i = .ok event) : event.subrecordOrdinal = i.2 := by
  obtain ⟨item, -, h⟩ := except_bind_eq_ok h
  obtain ⟨symbol, -, h⟩ := except_bind_eq_ok h
  obtain ⟨-, -, h⟩ := except_bind_eq_ok h
  obtain ⟨fundingTime, -, h⟩ := except_bind_eq_ok h
  obtain ⟨rate, -, h⟩ := except_bind_eq_ok h
  obtain ⟨mark, -, h⟩ := except_bind_eq_ok h
  rw [← Except.ok.inj h]

theorem numbers_fiveMinuteRest (provenance model : Value) :
    Numbers (fiveMinuteRest codec envelope provenance model) := by
  refine numbers_bind fun items => ?_
  by_cases hempty : items.isEmpty = true
  · rw [if_pos hempty]
    exact numbers_bind fun range => numbers_singleton _
  · rw [if_neg hempty]
    exact numbers_items ordinal_fiveMinuteItem items

theorem numbers_fundingHistory (model : Value) : Numbers (fundingHistory codec envelope model) := by
  refine numbers_bind fun items => ?_
  by_cases hempty : items.isEmpty = true
  · rw [if_pos hempty]
    exact numbers_singleton _
  · rw [if_neg hempty]
    exact numbers_items ordinal_fundingHistoryItem items

theorem numbers_sideRest (provenance : Value) : Numbers (sideRest codec envelope provenance) := by
  refine numbers_bind fun response => ?_
  dsimp only
  -- one case for each stream, in the order of the source
  split
  · split
    · exact numbers_one _
    · exact numbers_one _
  split
  · exact numbers_fiveMinuteRest _ _
  split
  · exact numbers_one _
  split
  · exact numbers_one _
  split
  · exact numbers_fundingHistory _
  split
  · exact numbers_one _
  · exact numbers_error _

theorem numbers_payloadEvents (payload : Value) :
    Numbers (payloadEvents codec reader envelope payload) := by
  unfold payloadEvents
  dsimp only
  split
  · refine numbers_bind fun event => ?_
    split
    · exact numbers_bind fun times => numbers_singleton _
    · exact numbers_singleton _
  split
  · exact numbers_one _
  split
  · exact numbers_one _
  split
  · exact numbers_one _
  · exact numbers_sideRest payload

/-- **No two events of an envelope have one ordinal.** -/
theorem parseEnvelope_numbers (codec : Codec) (reader : PayloadReader) (envelope : EventEnvelope) :
    Numbers (parseEnvelope codec reader envelope) := by
  unfold parseEnvelope
  dsimp only
  split
  · exact numbers_one _
  split
  · exact numbers_error _
  split
  · exact numbers_singleton _
  split
  · exact numbers_singleton _
  · exact numbers_bind fun decoded => numbers_bind fun payload => numbers_payloadEvents payload

end Normalize

end MarketDataRecorder
