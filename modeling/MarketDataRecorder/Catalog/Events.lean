import MarketDataRecorder.Catalog.Chunks

/-!
# Operational events

`storage/catalog/availability.py`: the operational events of the Catalog, in a table keyed by event
id, and what identifies a stream discontinuity. A discontinuity is the pair of its STARTED and its
COMPLETED event, matched by market, symbol, stream and gap id.
-/

namespace MarketDataRecorder

/-! ## Rows and identities -/

/-- A row of `operational_events` under its `event_id`. -/
structure OperationalEvent where
  eventType : String
  occurredAtUtcNs : Int
  evidence : Value
  deriving DecidableEq

abbrev EventTable := SortedDict String OperationalEvent

def startedType : String := "STREAM_DISCONTINUITY_STARTED"
def completedType : String := "STREAM_DISCONTINUITY_COMPLETED"

/-- `_DISCONTINUITY_EVENT_TYPES`. -/
def discontinuityEventTypes : List String := [startedType, completedType]

/-- `_SYMBOL_SPECIFIC_SIDE_DATA_EVENT_TYPES`. -/
def symbolSpecificSideDataEventTypes : List String :=
  ["SIDE_DATA_EMPTY_RESPONSE", "SIDE_DATA_UNRECOVERABLE_GAP", "SIDE_DATA_RANGE_EVALUATED"]

/-- The stream that a discontinuity is about. -/
structure StreamIdentity where
  market : String
  symbol : String
  stream : String
  deriving DecidableEq

/-- The complete key of a discontinuity. -/
structure GapIdentity where
  stream : StreamIdentity
  gapId : String
  deriving DecidableEq

/-- A text of an evidence document that is not empty. -/
def evidenceText (evidence : Value) (name : String) : Option String :=
  match evidence.get? name with
  | some (.str s) => if s = "" then none else some s
  | _ => none

/-- An integer of an evidence document that is no boolean. -/
def evidenceInt (evidence : Value) (name : String) : Option Int :=
  match evidence.get? name with
  | some (.int i) => some i
  | _ => none

/-! ## Recording -/

/-- The evidence with the symbol of the call, where the type of the event asks for one. -/
def normalizedEvidence (eventType : String) (evidence : Value) (symbol : Option String) :
    Except String Value :=
  if eventType ∈ discontinuityEventTypes ∨ eventType ∈ symbolSpecificSideDataEventTypes then
    match symbol with
    | none => .error "symbol must be explicit for symbol-specific events"
    | some symbol =>
      if symbol = "" then .error "symbol must be explicit for symbol-specific events"
      else match evidence.get? "symbol" with
        | some .null => .ok (evidence.set "symbol" (.str symbol))
        | none => .ok (evidence.set "symbol" (.str symbol))
        | some value =>
          if value ≠ .str symbol then .error "symbol-specific event evidence symbol is invalid"
          else .ok (evidence.set "symbol" (.str symbol))
  else .ok evidence

/-- `record_operational_event`: the table after it, and whether the event was inserted. -/
def recordOperationalEvent (events : EventTable) (eventId eventType : String)
    (occurredAtUtcNs : Int) (evidence : Value) (symbol : Option String := none) :
    Except String (EventTable × Bool) :=
  if eventId = "" ∨ eventType = "" ∨ occurredAtUtcNs < 0 then .error "invalid operational event"
  else match normalizedEvidence eventType evidence symbol with
    | .error e => .error e
    | .ok body =>
      let row : OperationalEvent := ⟨eventType, occurredAtUtcNs, body⟩
      match events.get? eventId with
      | none => .ok (events.insert eventId row, true)
      | some existing =>
        if existing ≠ row then .error s!"operational event identity conflict: {eventId}"
        else .ok (events, false)

/-! ## Discontinuities -/

/-- What `stream_discontinuity_lifecycle` returns. -/
inductive GapLifecycle where
  | absent
  | opened
  | closed
  deriving DecidableEq, Repr

/-! ## The Catalog -/

structure Catalog extends ChunkTables where
  operationalEvents : EventTable := .empty
  deriving DecidableEq

end MarketDataRecorder
