import MarketDataRecorder.Catalog.Events
import MarketDataRecorder.Lib.Json

/-!
# Reading discontinuities

The readers of `storage/catalog/availability.py` over the rows of `operational_events` as they are
stored: the evidence is a text, and whoever reads it parses it. Each reader keys the rows by the
identity in their evidence and pairs STARTED with COMPLETED on its own; the snapshot does all of it
in one pass. A reader catches a `JSONDecodeError` at most, so a text over which `json.loads` raises
another error ends it.

The identity schema is a mode of the Catalog. Under the legacy schema an evidence without a symbol
belongs to the one symbol that was recorded then.

* `exists_pair_iff` — every gap with both rows is a closed interval or a degraded pair
* `degradedPairs_eq_iff` — when two readers have the same degraded pairs
-/

namespace MarketDataRecorder

/-! ## Orders of identities -/

/-- The fields of a stream in the order in which a tuple of them is compared. -/
def StreamIdentity.key (stream : StreamIdentity) : List String :=
  [stream.market, stream.symbol, stream.stream]

def GapIdentity.key (gap : GapIdentity) : List String := gap.stream.key ++ [gap.gapId]

theorem StreamIdentity.key_injective : Function.Injective StreamIdentity.key := by
  rintro ⟨m, s, t⟩ ⟨m', s', t'⟩ h
  simpa [StreamIdentity.key] using h

theorem GapIdentity.key_injective : Function.Injective GapIdentity.key := by
  rintro ⟨⟨m, s, t⟩, g⟩ ⟨⟨m', s', t'⟩, g'⟩ h
  simpa [GapIdentity.key, StreamIdentity.key, and_assoc] using h

instance : LinearOrder StreamIdentity := LinearOrder.lift' _ StreamIdentity.key_injective

instance : LinearOrder GapIdentity := LinearOrder.lift' _ GapIdentity.key_injective

/-! ## Stored rows -/

/-- A stored row of `operational_events`. -/
structure EventRow where
  eventId : String
  eventType : String
  occurredAtUtcNs : Int
  evidenceJson : String
  /-- `market`, `symbol`, `stream` and `gap_id` where the schema has them. -/
  columns : List (Option String) := []
  deriving DecidableEq

namespace EventRow

section

variable [Json.Reader]

/-- `json.loads` of the stored evidence. -/
def loads (row : EventRow) : Json.Loads := Json.Reader.loads row.evidenceJson

/-- The evidence, where it is JSON. -/
def evidence (row : EventRow) : Option Value := row.loads.value?

/-- The evidence is a text over which every reader raises. -/
def raises (row : EventRow) : Bool := row.loads = .raised

end

def isLifecycle (row : EventRow) : Bool := row.eventType ∈ discontinuityEventTypes

def isCompletion (row : EventRow) : Bool := row.eventType = completedType

/-- `ORDER BY occurred_at_utc_ns, event_id`. -/
def before (a b : EventRow) : Prop :=
  a.occurredAtUtcNs < b.occurredAtUtcNs ∨
    a.occurredAtUtcNs = b.occurredAtUtcNs ∧ a.eventId ≤ b.eventId

instance : DecidableRel before := fun _ _ => inferInstanceAs (Decidable (_ ∨ _))

end EventRow

/-- The content of `operational_events`, in the order in which a query without `ORDER BY` visits the
rows. -/
structure EventLog where
  rows : List EventRow
  nodup : (rows.map EventRow.eventId).Nodup

/-! ## What a row says -/

/-- `LEGACY_SINGLE_SYMBOL`. -/
def legacySingleSymbol : String := "BTCUSDT"

/-- The symbol of an evidence, which the legacy schema supplies where it is absent. -/
def symbolUnder (allowLegacySymbol : Bool) (evidence : Value) : Option String :=
  if evidence.get? "symbol" = none then
    if allowLegacySymbol then some legacySingleSymbol else none
  else evidenceText evidence "symbol"

/-- `_discontinuity_identity`. -/
def identityUnder (allowLegacySymbol : Bool) (evidence : Value) : Option GapIdentity := do
  let market ← evidenceText evidence "market"
  let symbol ← symbolUnder allowLegacySymbol evidence
  let stream ← evidenceText evidence "stream"
  let gapId ← evidenceText evidence "gap_id"
  return ⟨⟨market, symbol, stream⟩, gapId⟩

/-- Why a lifecycle row cannot be keyed. -/
def malformedReason [Json.Reader] (legacyIdentitySchema : Bool) (row : EventRow) : Option String :=
  match row.evidence with
  | none => some "evidence_not_json"
  | some evidence =>
    if evidence.isDict = false then some "evidence_not_object"
    else if evidenceText evidence "market" = none then some "missing_market"
    else if evidenceText evidence "symbol" = none then
      -- under the legacy schema an absent symbol ends the checks
      if legacyIdentitySchema = true ∧ evidence.get? "symbol" = none then none
      else some "missing_symbol"
    else if evidenceText evidence "stream" = none then some "missing_stream"
    else if evidenceText evidence "gap_id" = none then some "missing_gap_id"
    else none

/-- An integer of the evidence that is a generation. -/
def evidenceGeneration (evidence : Value) (name : String) : Option Int :=
  (evidenceInt evidence name).filter fun generation => 0 ≤ generation

/-- `_closed_lifecycle_identity_valid`. -/
def closedLifecycleIdentityValid (started completed : Value) : Bool :=
  (evidenceInt started "gap_started_at_utc_ns").isSome &&
    (evidenceInt completed "gap_ended_at_utc_ns").isSome &&
    (evidenceText started "original_connection_id").isSome &&
    (evidenceGeneration started "original_generation").isSome &&
    (evidenceText completed "new_connection_id").isSome &&
    (evidenceGeneration completed "new_generation").isSome

/-! ## What the readers return -/

/-- A row with its evidence parsed. -/
structure EventDocument where
  eventId : String
  eventType : String
  occurredAtUtcNs : Int
  columns : List (Option String)
  evidence : Value
  deriving DecidableEq

def EventRow.document (row : EventRow) (evidence : Value) : EventDocument :=
  ⟨row.eventId, row.eventType, row.occurredAtUtcNs, row.columns, evidence⟩

structure MalformedEvent where
  eventId : String
  eventType : String
  reason : String
  deriving DecidableEq

structure DegradedPair where
  gap : GapIdentity
  reason : String
  deriving DecidableEq

structure ClosedInterval where
  gap : GapIdentity
  startedAtUtcNs : Int
  endedAtUtcNs : Int
  wallTimeOrder : String
  originalConnectionId : String
  originalGeneration : Int
  newConnectionId : String
  newGeneration : Int
  deriving DecidableEq

/-- The interval of a pair with a valid identity. -/
def closedInterval (gap : GapIdentity) (started completed : Value) : ClosedInterval :=
  let startedAt := (evidenceInt started "gap_started_at_utc_ns").getD 0
  let endedAt := (evidenceInt completed "gap_ended_at_utc_ns").getD 0
  { gap := gap
    startedAtUtcNs := startedAt
    endedAtUtcNs := endedAt
    wallTimeOrder := if startedAt < endedAt then "NORMAL" else "NON_MONOTONIC"
    originalConnectionId := (evidenceText started "original_connection_id").getD ""
    originalGeneration := (evidenceGeneration started "original_generation").getD 0
    newConnectionId := (evidenceText completed "new_connection_id").getD ""
    newGeneration := (evidenceGeneration completed "new_generation").getD 0 }

/-- An event with what its evidence parses to, if it does. -/
structure ParsedEvent where
  eventId : String
  eventType : String
  occurredAtUtcNs : Int
  evidence : Option Value
  deriving DecidableEq

structure DiscontinuityAuthority where
  operationalEvents : List ParsedEvent
  terminalEvents : List ParsedEvent
  malformedEvents : List MalformedEvent
  degradedPairs : List DegradedPair
  unclosed : SortedDict StreamIdentity (List EventDocument)
  closed : SortedDict StreamIdentity (List ClosedInterval)

/-! ## Pairing -/

/-- A lifecycle row whose evidence has a complete identity. -/
structure KeyedRow where
  row : EventRow
  evidence : Value
  gap : GapIdentity
  deriving DecidableEq

/-- The evidence of the last row of each gap, of the STARTED rows or of the COMPLETED ones. -/
def lastByGap (completion : Bool) (rows : List KeyedRow) : SortedDict GapIdentity Value :=
  SortedDict.ofItems ((rows.filter fun keyed => keyed.row.isCompletion = completion).map
    fun keyed => (keyed.gap, keyed.evidence))

/-- The pairs without a valid identity, in the order of their keys. -/
def degradedPairs (rows : List KeyedRow) : List DegradedPair :=
  (lastByGap false rows).items.filterMap fun p =>
    match (lastByGap true rows).get? p.1 with
    | none => none
    | some completed =>
      if closedLifecycleIdentityValid p.2 completed then none
      else some ⟨p.1, "malformed_lifecycle_identity"⟩

/-- The intervals of the pairs with a valid identity, by stream. -/
def closedIntervals (rows : List KeyedRow) : SortedDict StreamIdentity (List ClosedInterval) :=
  SortedDict.groupItems ((lastByGap false rows).items.filterMap fun p =>
    match (lastByGap true rows).get? p.1 with
    | none => none
    | some completed =>
      if closedLifecycleIdentityValid p.2 completed then
        some (p.1.stream, closedInterval p.1 p.2 completed)
      else none)

/-- The STARTED rows without a COMPLETED one, by stream. -/
def unclosedDocuments (rows : List KeyedRow) : SortedDict StreamIdentity (List EventDocument) :=
  let completed := (rows.filter fun keyed => keyed.row.isCompletion).map KeyedRow.gap
  SortedDict.groupItems
    ((rows.filter fun keyed => !keyed.row.isCompletion && keyed.gap ∉ completed).map
    fun keyed => (keyed.gap.stream, keyed.row.document keyed.evidence))

/-! ## What pairing finds -/

/-- The evidence of the last row of a gap, of the STARTED rows or of the COMPLETED ones. -/
def lastEvidence (completion : Bool) (rows : List KeyedRow) (gap : GapIdentity) : Option Value :=
  ((rows.filter fun keyed => keyed.row.isCompletion = completion ∧ keyed.gap = gap).getLast?).map
    KeyedRow.evidence

/-- Whether the last rows of a gap that has both are a pair with a valid identity. -/
def pairValid (rows : List KeyedRow) (gap : GapIdentity) : Option Bool :=
  match lastEvidence false rows gap, lastEvidence true rows gap with
  | some started, some completed => some (closedLifecycleIdentityValid started completed)
  | _, _ => none

theorem get?_lastByGap (completion : Bool) (rows : List KeyedRow) (gap : GapIdentity) :
    (lastByGap completion rows).get? gap = lastEvidence completion rows gap := by
  rw [lastByGap, SortedDict.get?_ofItems, List.filter_map, List.getLast?_map, List.filter_filter,
    Option.map_map, lastEvidence]
  refine congrArg (fun rows => (List.getLast? rows).map KeyedRow.evidence)
    (List.filter_congr fun keyed _ => ?_)
  rw [Bool.eq_iff_iff]
  simp [and_comm]

theorem isSome_lastEvidence {completion : Bool} {rows : List KeyedRow} {gap : GapIdentity} :
    (lastEvidence completion rows gap).isSome = true ↔
      ∃ keyed ∈ rows, keyed.row.isCompletion = completion ∧ keyed.gap = gap := by
  rw [lastEvidence, Option.isSome_map, List.getLast?_isSome, Ne, List.filter_eq_nil_iff]
  simp

theorem isSome_pairValid {rows : List KeyedRow} {gap : GapIdentity} :
    (pairValid rows gap).isSome = true ↔
      (lastEvidence false rows gap).isSome = true ∧ (lastEvidence true rows gap).isSome = true := by
  unfold pairValid
  split
  · next hstarted hcompleted => simp [hstarted, hcompleted]
  · next hnone =>
    constructor
    · intro h
      cases h
    · rintro ⟨hstarted, hcompleted⟩
      obtain ⟨started, hstarted⟩ := Option.isSome_iff_exists.mp hstarted
      obtain ⟨completed, hcompleted⟩ := Option.isSome_iff_exists.mp hcompleted
      exact absurd hcompleted (hnone started completed hstarted)

theorem pairValid_eq_some {rows : List KeyedRow} {gap : GapIdentity} {valid : Bool} :
    pairValid rows gap = some valid ↔
      ∃ started completed, (gap, started) ∈ (lastByGap false rows).items ∧
        (lastByGap true rows).get? gap = some completed ∧
        closedLifecycleIdentityValid started completed = valid := by
  simp only [← SortedDict.get?_eq_some_iff, get?_lastByGap, pairValid]
  cases lastEvidence false rows gap with
  | none => simp
  | some started =>
    cases lastEvidence true rows gap with
    | none => simp
    | some completed => simp

/-- The degraded pairs are the pairs that are not valid. -/
theorem mem_degradedPairs {rows : List KeyedRow} {pair : DegradedPair} :
    pair ∈ degradedPairs rows ↔
      pairValid rows pair.gap = some false ∧ pair.reason = "malformed_lifecycle_identity" := by
  obtain ⟨gap, reason⟩ := pair
  rw [degradedPairs, List.mem_filterMap, pairValid_eq_some]
  constructor
  · rintro ⟨⟨gap', started⟩, hmem, h⟩
    cases hcompleted : (lastByGap true rows).get? gap' with
    | none => simp [hcompleted] at h
    | some completed =>
      simp only [hcompleted] at h
      split at h
      · cases h
      · next hvalid =>
        obtain ⟨rfl, rfl⟩ := by simpa using h
        exact ⟨⟨started, completed, hmem, hcompleted, by simpa using hvalid⟩, rfl⟩
  · rintro ⟨⟨started, completed, hmem, hcompleted, hvalid⟩, hreason⟩
    exact ⟨(gap, started), hmem, by simp [hcompleted, hvalid, ← hreason]⟩

/-- The closed intervals of a stream are those of its valid pairs. -/
theorem exists_closedInterval_iff {rows : List KeyedRow} {gap : GapIdentity} :
    (∃ interval ∈ ((closedIntervals rows).get? gap.stream).getD [], interval.gap = gap) ↔
      pairValid rows gap = some true := by
  rw [closedIntervals, SortedDict.getD_groupItems, pairValid_eq_some]
  simp only [List.mem_map, List.mem_filter, List.mem_filterMap, decide_eq_true_eq]
  constructor
  · rintro ⟨interval, ⟨⟨stream, interval'⟩, ⟨⟨⟨gap', started⟩, hmem, h⟩, hstream⟩, rfl⟩, rfl⟩
    cases hcompleted : (lastByGap true rows).get? gap' with
    | none => simp [hcompleted] at h
    | some completed =>
      simp only [hcompleted] at h
      split at h
      · next hvalid =>
        obtain ⟨rfl, rfl⟩ := by simpa using h
        exact ⟨started, completed, hmem, hcompleted, hvalid⟩
      · cases h
  · rintro ⟨started, completed, hmem, hcompleted, hvalid⟩
    exact ⟨closedInterval gap started completed,
      ⟨(gap.stream, closedInterval gap started completed),
      ⟨⟨(gap, started), hmem, by simp [hcompleted, hvalid]⟩, rfl⟩, rfl⟩, rfl⟩

/-- The unclosed documents of a stream are of the gaps with a STARTED row only. -/
theorem exists_unclosed_iff {rows : List KeyedRow} {gap : GapIdentity}
    {identity : Value → Option GapIdentity}
    (hidentity : ∀ keyed ∈ rows, identity keyed.evidence = some keyed.gap) :
    (∃ document ∈ ((unclosedDocuments rows).get? gap.stream).getD [],
        identity document.evidence = some gap) ↔
      (lastEvidence false rows gap).isSome = true ∧
        (lastEvidence true rows gap).isSome = false := by
  rw [unclosedDocuments, SortedDict.getD_groupItems, isSome_lastEvidence, ← Bool.not_eq_true,
    isSome_lastEvidence]
  simp only [List.mem_map, List.mem_filter, decide_eq_true_eq, Bool.and_eq_true,
    Bool.not_eq_true', not_exists, not_and]
  constructor
  · rintro ⟨document, ⟨-, ⟨⟨keyed, ⟨hmem, hstarted, hopen⟩, rfl⟩, -⟩, rfl⟩, hgap⟩
    have hkeyed : keyed.gap = gap := Option.some.inj ((hidentity keyed hmem).symm.trans hgap)
    refine ⟨⟨keyed, hmem, hstarted, hkeyed⟩, fun other hother hcompletion heq => ?_⟩
    exact hopen other ⟨hother, hcompletion⟩ (heq.trans hkeyed.symm)
  · rintro ⟨⟨keyed, hmem, hstarted, rfl⟩, hopen⟩
    refine ⟨keyed.row.document keyed.evidence, ⟨_, ⟨⟨keyed, ⟨hmem, hstarted, ?_⟩, rfl⟩, rfl⟩, rfl⟩,
      hidentity keyed hmem⟩
    rintro other ⟨hother, hcompletion⟩ heq
    exact hopen other hother hcompletion heq

/-- Every gap with both rows is in a closed interval or in a degraded pair. -/
theorem exists_pair_iff {rows : List KeyedRow} {gap : GapIdentity} :
    ((∃ interval ∈ ((closedIntervals rows).get? gap.stream).getD [], interval.gap = gap) ∨
        ∃ pair ∈ degradedPairs rows, pair.gap = gap) ↔
      (lastEvidence false rows gap).isSome = true ∧ (lastEvidence true rows gap).isSome = true := by
  have hdegraded : (∃ pair ∈ degradedPairs rows, pair.gap = gap) ↔
      pairValid rows gap = some false := by
    constructor
    · rintro ⟨pair, hpair, rfl⟩
      exact (mem_degradedPairs.mp hpair).1
    · intro h
      exact ⟨⟨gap, _⟩, mem_degradedPairs.mpr ⟨h, rfl⟩, rfl⟩
  rw [exists_closedInterval_iff, hdegraded, ← isSome_pairValid]
  cases pairValid rows gap with
  | none => simp
  | some valid => cases valid <;> simp

theorem pairwise_degradedPairs (rows : List KeyedRow) :
    (degradedPairs rows).Pairwise fun a b => a.gap < b.gap := by
  rw [degradedPairs, List.pairwise_filterMap]
  refine (lastByGap false rows).sorted.imp fun {p q} hlt a ha b hb => ?_
  have hgap : ∀ {r : GapIdentity × Value} {pair : DegradedPair},
      (match (lastByGap true rows).get? r.1 with
        | none => none
        | some completed =>
          if closedLifecycleIdentityValid r.2 completed then none
          else some (⟨r.1, "malformed_lifecycle_identity"⟩ : DegradedPair)) = some pair →
      pair.gap = r.1 := by
    intro r pair h
    split at h
    · cases h
    · split at h
      · cases h
      · cases h
        rfl
  rw [hgap ha, hgap hb]
  exact hlt

/-- Two readers have the same degraded pairs where the same pairs are not valid. -/
theorem degradedPairs_eq_iff {rows rows' : List KeyedRow} :
    degradedPairs rows = degradedPairs rows' ↔
      ∀ gap, pairValid rows gap = some false ↔ pairValid rows' gap = some false := by
  constructor
  · intro h gap
    have hmem := @mem_degradedPairs rows ⟨gap, "malformed_lifecycle_identity"⟩
    have hmem' := @mem_degradedPairs rows' ⟨gap, "malformed_lifecycle_identity"⟩
    rw [h] at hmem
    simpa using hmem.symm.trans hmem'
  · intro h
    have : Std.Irrefl fun a b : DegradedPair => a.gap < b.gap := ⟨fun a => lt_irrefl a.gap⟩
    have : IsTrans DegradedPair fun a b => a.gap < b.gap := ⟨fun _ _ _ => lt_trans⟩
    have : Std.Antisymm fun a b : DegradedPair => a.gap < b.gap :=
      ⟨fun _ _ hab hba => absurd hab (lt_asymm hba)⟩
    refine List.Pairwise.eq_of_mem_iff (pairwise_degradedPairs rows) (pairwise_degradedPairs rows')
      fun pair => ?_
    rw [mem_degradedPairs, mem_degradedPairs, h]

namespace EventLog

variable [Json.Reader]

/-! ## The readers -/

/-- What a reader returns that has parsed these rows and catches a `JSONDecodeError` only. -/
def overRows {α : Type} (rows : List EventRow) (result : α) : Except String α :=
  if rows.any EventRow.raises then .error "json.loads" else .ok result

/-- It returns where none of the rows raises. -/
theorem overRows_eq_ok_iff {α : Type} {rows : List EventRow} {result result' : α} :
    overRows rows result = .ok result' ↔
      (∀ row ∈ rows, row.raises = false) ∧ result = result' := by
  unfold overRows
  split
  · next h =>
    obtain ⟨row, hrow, hraises⟩ := List.any_eq_true.mp h
    simp only [reduceCtorEq, false_iff, not_and]
    exact fun hnone => absurd (hnone row hrow) (by simp [hraises])
  · next h =>
    rw [Except.ok.injEq, iff_and_self]
    intro _ row hrow
    rw [Bool.eq_false_iff]
    exact fun hraises => h (List.any_eq_true.mpr ⟨row, hrow, hraises⟩)

theorem overRows_eq_ok {α : Type} {rows : List EventRow} (h : ∀ row ∈ rows, row.raises = false)
    (result : α) : overRows rows result = .ok result :=
  overRows_eq_ok_iff.mpr ⟨h, rfl⟩

variable (legacyIdentitySchema : Bool)

/-- A row with its key, where it has one. -/
def keyed (row : EventRow) : Option KeyedRow :=
  match row.evidence with
  | none => none
  | some evidence => (identityUnder legacyIdentitySchema evidence).map (⟨row, evidence, ·⟩)

/-- A reader that parses every row, and raises where it cannot. -/
def keyedOrRaise : List EventRow → Except String (List KeyedRow)
  | [] => .ok []
  | row :: rows =>
    match row.loads with
    | .invalid => .error "JSONDecodeError"
    | .raised => .error "json.loads"
    | .value evidence => do
      let rest ← keyedOrRaise rows
      match identityUnder legacyIdentitySchema evidence with
      | none => return rest
      | some gap => return ⟨row, evidence, gap⟩ :: rest

/-- The rows of the single pass: keyed, and not listed as malformed. -/
def validRow (row : EventRow) : Option KeyedRow :=
  if malformedReason legacyIdentitySchema row = none then keyed legacyIdentitySchema row else none

def malformedEvent (row : EventRow) : Option MalformedEvent :=
  (malformedReason legacyIdentitySchema row).map (⟨row.eventId, row.eventType, ·⟩)

def terminalTypes : List String :=
  ["SERVICE_FAILED", "SERVICE_STOPPED", "CORE_MARKET_TERMINAL_FAILURE"]

/-- `_discontinuity_authority_from_rows`. -/
def discontinuityAuthorityFromRows (rows : List EventRow) : DiscontinuityAuthority :=
  let events := rows.map fun row =>
    (⟨row.eventId, row.eventType, row.occurredAtUtcNs, row.evidence⟩ : ParsedEvent)
  let lifecycleRows := rows.filter EventRow.isLifecycle
  let validRows := lifecycleRows.filterMap (validRow legacyIdentitySchema)
  { operationalEvents := events
    terminalEvents := events.filter fun event => event.eventType ∈ terminalTypes
    malformedEvents := (lifecycleRows.filterMap (malformedEvent legacyIdentitySchema)).insertionSort
      fun a b => a.eventId ≤ b.eventId
    degradedPairs := degradedPairs validRows
    unclosed := unclosedDocuments validRows
    closed := closedIntervals validRows }

variable (log : EventLog)

/-- `discontinuity_authority_snapshot`. -/
def discontinuityAuthoritySnapshot (asOfUtcNs : Int) : Except String DiscontinuityAuthority :=
  if asOfUtcNs < 0 then .error "as_of_utc_ns must be a non-negative integer"
  else
    let rows :=
      (log.rows.filter fun row => row.occurredAtUtcNs ≤ asOfUtcNs).insertionSort EventRow.before
    overRows rows (discontinuityAuthorityFromRows legacyIdentitySchema rows)

/-- The lifecycle rows, `ORDER BY occurred_at_utc_ns, event_id`. -/
def orderedRows : List EventRow :=
  (log.rows.filter EventRow.isLifecycle).insertionSort EventRow.before

/-- The STARTED rows without a COMPLETED one. -/
def unclosed : SortedDict StreamIdentity (List EventDocument) :=
  unclosedDocuments (log.orderedRows.filterMap (keyed legacyIdentitySchema))

/-- `unclosed_stream_discontinuities_by_stream`. -/
def unclosedStreamDiscontinuitiesByStream :
    Except String (SortedDict StreamIdentity (List EventDocument)) :=
  overRows log.orderedRows (log.unclosed legacyIdentitySchema)

/-- `closed_stream_discontinuity_intervals_by_stream`. -/
def closedStreamDiscontinuityIntervalsByStream :
    Except String (SortedDict StreamIdentity (List ClosedInterval)) := do
  let rows ← keyedOrRaise legacyIdentitySchema log.orderedRows
  return closedIntervals rows

/-- `degraded_closed_discontinuity_pairs`: its query has no `ORDER BY`. -/
def degradedClosedDiscontinuityPairs : Except String (List DegradedPair) := do
  let rows ← keyedOrRaise legacyIdentitySchema (log.rows.filter EventRow.isLifecycle)
  return degradedPairs rows

/-- The rows with a reason to be listed, `ORDER BY event_id`. -/
def malformed : List MalformedEvent :=
  ((log.rows.filter EventRow.isLifecycle).insertionSort
    fun a b => a.eventId ≤ b.eventId).filterMap (malformedEvent legacyIdentitySchema)

/-- `malformed_discontinuity_events`. -/
def malformedDiscontinuityEvents : Except String (List MalformedEvent) :=
  overRows (log.rows.filter EventRow.isLifecycle) (log.malformed legacyIdentitySchema)

/-- `stream_discontinuity_lifecycle`. -/
def streamDiscontinuityLifecycle (gap : GapIdentity) : Except String GapLifecycle :=
  if "" ∈ gap.key then .error "market, symbol, stream and gap_id must be non-empty"
  else
    let rows := log.rows.filter EventRow.isLifecycle
    let own := (rows.filterMap (keyed legacyIdentitySchema)).filter fun keyed => keyed.gap = gap
    overRows rows
      (if own.any fun keyed => keyed.row.isCompletion then .closed
      else if own.any fun keyed => !keyed.row.isCompletion then .opened
      else .absent)

end EventLog

end MarketDataRecorder
