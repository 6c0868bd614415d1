import MarketDataRecorder.Lib.Base64
import MarketDataRecorder.Orderbook.Model
import MarketDataRecorder.Spool.Format

/-!
# Inputs from envelopes

`orderbook/parser.py`, with `wire_document` of `binance/public_websocket.py` and `response_document`
of `binance/rest_representation.py`: the update of a depth envelope, and the snapshot of a REST
record.
-/

namespace MarketDataRecorder

/-! ## Constructors -/

/-- `DepthUpdate`, with the checks of `__post_init__`. -/
def DepthUpdate.make (market : Market) (symbol : String) (firstUpdateId finalUpdateId : Nat)
    (previousFinalUpdateId : Option Nat) (bids asks : List (String × String))
    (receiveTimeUtcNs : Nat) : Except String DepthUpdate :=
  if hmarket : market ∉ bookMarkets ∨ symbol = "" then .error "unexpected depth symbol"
  else if hrange : finalUpdateId < firstUpdateId then .error "invalid depth update ID range"
  else if hspot : market = .spot ∧ previousFinalUpdateId.isSome then
    .error "Spot updates must not carry USD-M pu"
  else if hfutures : market ≠ .spot ∧ previousFinalUpdateId = none then
    .error "USD-M updates require non-negative pu"
  else do
    let bids ← levelsOf bids
    let asks ← levelsOf asks
    return {
      market := market
      symbol := symbol
      firstUpdateId := firstUpdateId
      finalUpdateId := finalUpdateId
      previousFinalUpdateId := previousFinalUpdateId
      bids := bids
      asks := asks
      receiveTimeUtcNs := receiveTimeUtcNs
      market_mem := by_contra fun h => hmarket (Or.inl h)
      symbol_ne := fun h => hmarket (Or.inr h)
      first_le_final := not_lt.mp hrange
      previous_spot := fun h => by
        cases hprevious : previousFinalUpdateId with
        | none => rfl
        | some previous => exact absurd ⟨h, by rw [hprevious]; rfl⟩ hspot
      previous_futures := fun h => by
        cases hprevious : previousFinalUpdateId with
        | none => exact absurd ⟨h, hprevious⟩ hfutures
        | some previous => rfl }

/-- `BookSnapshot`, with the checks of `__post_init__`. -/
def BookSnapshot.make (market : Market) (symbol : String) (lastUpdateId : Nat)
    (bids asks : List (String × String)) : Except String BookSnapshot :=
  if h : market ∉ bookMarkets ∨ symbol = "" then .error "invalid snapshot identity or update ID"
  else do
    let bids ← levelsOf bids
    let asks ← levelsOf asks
    return {
      market := market
      symbol := symbol
      lastUpdateId := lastUpdateId
      bids := bids
      asks := asks
      market_mem := by_contra fun hmarket => h (Or.inl hmarket)
      symbol_ne := fun hsymbol => h (Or.inr hsymbol) }

/-! ## Fields -/

/-- `_integer`. -/
def orderbookInteger (value : Value) (name : String) : Except String Nat :=
  match value.get? name with
  | some (.int (.ofNat n)) => .ok n
  | _ => .error s!"{name} must be a non-negative integer"

/-- `_text`. -/
def orderbookText (value : Value) (name : String) : Except String String :=
  match value.get? name with
  | some (.str text) => if text = "" then .error s!"{name} must be non-empty text" else .ok text
  | _ => .error s!"{name} must be non-empty text"

/-- `_levels`. -/
def orderbookLevels : Option Value → Except String (List (String × String))
  | some (.list levels) => levels.mapM fun level =>
    match level with
    | .list [.str price, .str quantity] => .ok (price, quantity)
    | _ => .error "invalid price level"
  | _ => .error "price levels must be an array"

/-! ## Updates -/

/-- What is raised while an input is read: an `OrderBookDataError`, or an error of another class,
over a payload that is no JSON document or that has no fields. -/
inductive BookError where
  | data (text : String)
  | other (text : String)

def BookError.text : BookError → String
  | data text => text
  | other text => text

/-- `wire_document`. -/
def wireDocument (envelope : EventEnvelope) : Except String Value :=
  match Json.loads envelope.rawPayload with
  | none => .error "payload is not JSON"
  | some decoded =>
    if envelope.payloadEncoding.val = "utf-8-json-combined.v1" then
      match decoded.get? "data" with
      | none => .error "payload has no data"
      | some data => .ok data
    else .ok decoded

/-- `source_sequence.get(name)`. -/
def EventEnvelope.sequenceValue (envelope : EventEnvelope) (name : NonEmptyText) :
    Option SequenceValue := envelope.sourceSequence.get? name

def sourceStreamName : NonEmptyText := ⟨"sourceStream", by decide⟩

/-- `logical_envelope`. -/
def logicalEnvelope (envelope : EventEnvelope) : EventEnvelope :=
  match envelope.sequenceValue sourceStreamName with
  | some (.str stream) =>
    if h : 1 ≤ stream.length ∧ stream.length ≤ 256 then { envelope with stream := ⟨stream, h⟩ }
    else envelope
  | _ => envelope

/-- The id before an update, on a market that says it. -/
def futuresPrevious (market : Market) (payload : Value) : Except String (Option Nat) :=
  if market = .spot then .ok none else (orderbookInteger payload "pu").map some

/-- The update of a document. -/
def depthUpdateOfDocument (envelope : EventEnvelope) (payload : Value) :
    Except String DepthUpdate := do
  let previous ← futuresPrevious envelope.market payload
  let symbol ← orderbookText payload "s"
  let firstUpdateId ← orderbookInteger payload "U"
  let finalUpdateId ← orderbookInteger payload "u"
  let bids ← orderbookLevels (payload.get? "b")
  let asks ← orderbookLevels (payload.get? "a")
  DepthUpdate.make envelope.market symbol firstUpdateId finalUpdateId previous bids asks
    envelope.receiveTimeUtcNs

/-- `depth_update_from_envelope`. -/
def depthUpdateFromEnvelope (envelope : EventEnvelope) : Except BookError DepthUpdate :=
  if envelope.stream.val ≠ "diff_depth" then .error (.data "envelope is not a diff-depth event")
  else do
    let payload ← (wireDocument envelope).mapError .other
    if payload.isDict = false then throw (.other "payload has no fields")
    else (depthUpdateOfDocument envelope payload).mapError .data

/-! ## Snapshots -/

mutual

/-- `json.loads` with `parse_float=str`. -/
def floatsAsText : Value → Value
  | .other text => .str text
  | .list values => .list (floatsAsTextAll values)
  | .dict items => .dict (floatsAsTextItems items)
  | value => value

def floatsAsTextAll : List Value → List Value
  | [] => []
  | value :: values => floatsAsText value :: floatsAsTextAll values

def floatsAsTextItems : List (String × Value) → List (String × Value)
  | [] => []
  | (name, value) :: items => (name, floatsAsText value) :: floatsAsTextItems items

end

/-- `response_document`. -/
def responseDocument (response : Value) : Option Value :=
  match response.get? "model" with
  | some model => some model
  | none =>
    match response.get? "raw_body_base64" with
    | some (.str text) => do
      let body ← Base64.decode text.toList
      return floatsAsText (← Json.loads body)
    | _ => none

/-- `snapshot_from_envelope`. -/
def snapshotFromEnvelope (envelope : EventEnvelope) : Except String BookSnapshot :=
  if envelope.stream.val ≠ "depth_snapshot" then .error "envelope is not a depth snapshot"
  else match Json.loads envelope.rawPayload with
    | none => .error "invalid JSON payload"
    | some provenance =>
      if provenance.isDict = false then .error "payload must be a JSON object"
      else match (provenance.get? "response").bind fun response =>
          if response.isDict then responseDocument response else none with
        | none => .error "invalid snapshot provenance"
        | some model =>
          if model.isDict = false then .error "invalid snapshot provenance"
          else do
            let lastUpdateId ← orderbookInteger model "lastUpdateId"
            let bids ← orderbookLevels (model.get? "bids")
            let asks ← orderbookLevels (model.get? "asks")
            BookSnapshot.make envelope.market envelope.symbol.val lastUpdateId bids asks

/-! ## What is kept of an envelope -/

section

variable {envelope : EventEnvelope} {update : DepthUpdate}

theorem DepthUpdate.make_eq_ok {market : Market} {symbol : String}
    {firstUpdateId finalUpdateId : Nat}
    {previous : Option Nat} {bids asks : List (String × String)} {receiveTime : Nat}
    (h : DepthUpdate.make market symbol firstUpdateId finalUpdateId previous bids asks receiveTime =
      .ok update) :
    update.market = market ∧ update.receiveTimeUtcNs = receiveTime := by
  unfold DepthUpdate.make at h
  split at h
  · cases h
  · split at h
    · cases h
    · split at h
      · cases h
      · split at h
        · cases h
        · simp only [bind, Except.bind, pure, Except.pure] at h
          split at h
          · cases h
          · split at h
            · cases h
            · obtain rfl := Except.ok.inj h
              exact ⟨rfl, rfl⟩

theorem depthUpdateOfDocument_eq_ok {payload : Value}
    (h : depthUpdateOfDocument envelope payload = .ok update) :
    update.market = envelope.market ∧ update.receiveTimeUtcNs = envelope.receiveTimeUtcNs := by
  unfold depthUpdateOfDocument at h
  obtain ⟨previous, -, h⟩ := except_bind_eq_ok h
  obtain ⟨symbol, -, h⟩ := except_bind_eq_ok h
  obtain ⟨firstUpdateId, -, h⟩ := except_bind_eq_ok h
  obtain ⟨finalUpdateId, -, h⟩ := except_bind_eq_ok h
  obtain ⟨bids, -, h⟩ := except_bind_eq_ok h
  obtain ⟨asks, -, h⟩ := except_bind_eq_ok h
  exact DepthUpdate.make_eq_ok h

theorem depthUpdateFromEnvelope_eq_ok (h : depthUpdateFromEnvelope envelope = .ok update) :
    update.market = envelope.market ∧ update.receiveTimeUtcNs = envelope.receiveTimeUtcNs := by
  unfold depthUpdateFromEnvelope at h
  split at h
  · cases h
  · obtain ⟨payload, -, h⟩ := except_bind_eq_ok h
    split at h
    · cases h
    · exact depthUpdateOfDocument_eq_ok (except_mapError_eq_ok h)

end

end MarketDataRecorder
