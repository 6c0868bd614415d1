import MarketDataRecorder.Catalog.Discontinuities
import MarketDataRecorder.Catalog.Receipt
import MarketDataRecorder.Lib.Checksum

/-!
# Legacy reconnect recovery

`spool/legacy_reconnect.py`: what startup recovery makes of the seal intents of reconnects. Every
intent of a SEALING transition is a candidate. The candidates are decided in the order of their
transitions, against the discontinuities in the Catalog, the ones that earlier candidates will
materialize, and the classifications of an operator.

* `inventory` — the candidates
* `LegacyClassificationAuthority.load` — the classifications
* `evaluateLegacyReconnectDecisions` — the decisions, and what blocks the startup
-/

namespace MarketDataRecorder

/-! ## Candidates -/

/-- `RECONNECT_INTENT_SCHEMA_V2`. -/
def reconnectIntentSchemaV2 : String := "reconnect-seal-intent.v2"

/-- What the decisions read of the Catalog: the SEALING transitions in the order of their ids, and
the operational events. A chunk has one SEALING transition, under the key
`sealing:{chunk_id}`. -/
structure ReconnectCatalog where
  sealing : List (String × Value)
  sealedOnce : (sealing.map Prod.fst).Nodup
  events : EventLog

/-- `classification_evidence_sha256`. -/
def classificationEvidenceSha256 (chunkId : String) (intent verifiedFrames : Value) : String :=
  Checksum.sha256Hex (Json.asciiBytes (Json.encodeValue (.dict
    [("chunk_id", .str chunkId), ("seal_intent", intent), ("verified_frames", verifiedFrames)])))

/-- `legacy_seal_intent_for_read`. -/
def legacySealIntentForRead (intent : Value) : Value :=
  if intent.get? "symbol" = none then intent.set "symbol" (.str legacySingleSymbol) else intent

def requiredIntentNames : List String :=
  ["required_forced_flags", "gap_id", "reason", "market", "symbol", "stream",
   "original_connection_id", "original_generation", "gap_started_at_utc_ns"]

/-- A list of texts that are not empty. -/
def isFlagList : Value → Bool
  | .list flags => flags.all fun
    | .str flag => flag ≠ ""
    | _ => false
  | _ => false

/-- An integer that is not negative. -/
def evidenceNat (evidence : Value) (name : String) : Option Int :=
  (evidenceInt evidence name).filter fun value => 0 ≤ value

/-- `validate_seal_intent`. -/
def validateSealIntent (intent : Value) (chunkId : String) : Except String Unit :=
  if (intent.get? "intent_schema").any (· ≠ .str reconnectIntentSchemaV2) then
    .error s!"RECOVERY_SEAL_INTENT_UNSUPPORTED_SCHEMA chunk={chunkId}"
  else match requiredIntentNames.find? fun name => intent.get? name = none with
    | some name => .error s!"RECOVERY_SEAL_INTENT_MISSING_FIELD {name} chunk={chunkId}"
    | none =>
      if !(intent.get? "required_forced_flags").any isFlagList then
        .error s!"RECOVERY_SEAL_INTENT_INVALID_FLAGS chunk={chunkId}"
      else if ["gap_id", "reason", "market", "symbol", "stream", "original_connection_id"].any
          fun name => evidenceText intent name = none then
        .error s!"RECOVERY_SEAL_INTENT_INVALID_IDENTITY chunk={chunkId}"
      else if evidenceNat intent "original_generation" = none then
        .error s!"RECOVERY_SEAL_INTENT_INVALID_GENERATION chunk={chunkId}"
      else if evidenceNat intent "gap_started_at_utc_ns" = none then
        .error s!"RECOVERY_SEAL_INTENT_INVALID_STARTED_AT chunk={chunkId}"
      else .ok ()

/-- `LegacyReconnectCandidate`. -/
structure LegacyReconnectCandidate where
  chunkId : String
  gap : GapIdentity
  reason : String
  originalConnectionId : String
  originalGeneration : Int
  gapStartedAtUtcNs : Int
  classificationEvidenceSha256 : String
  verifiedFrames : Value
  intentSchema : Option String
  intent : Value
  deriving DecidableEq

/-- `trusted_frames`. -/
def LegacyReconnectCandidate.trustedFrames (candidate : LegacyReconnectCandidate) : Option Int :=
  match candidate.verifiedFrames with
  | .int frames => if frames < 0 then none else some frames
  | _ => none

/-- The candidate of a validated intent. -/
def candidateOf (chunkId : String) (evidence persisted : Value) : LegacyReconnectCandidate :=
  let intent := legacySealIntentForRead persisted
  let text := fun name => (evidenceText intent name).getD ""
  let frames := (evidence.get? "verified_frames").getD .null
  { chunkId := chunkId
    gap := ⟨⟨text "market", text "symbol", text "stream"⟩, text "gap_id"⟩
    reason := text "reason"
    originalConnectionId := text "original_connection_id"
    originalGeneration := (evidenceInt intent "original_generation").getD 0
    gapStartedAtUtcNs := (evidenceInt intent "gap_started_at_utc_ns").getD 0
    classificationEvidenceSha256 := classificationEvidenceSha256 chunkId persisted frames
    verifiedFrames := frames
    intentSchema := evidenceText intent "intent_schema"
    intent := intent }

/-- `_inventory`: the candidates in the order of the transitions. -/
def inventory : List (String × Value) → Except String (List LegacyReconnectCandidate)
  | [] => .ok []
  | (chunkId, evidence) :: rows =>
    match evidence.get? "seal_intent" with
    | none | some .null => inventory rows
    | some persisted =>
      if persisted.isDict = false then .error s!"RECOVERY_SEAL_INTENT_MALFORMED chunk={chunkId}"
      else do
        validateSealIntent (legacySealIntentForRead persisted) chunkId
        let rest ← inventory rows
        return candidateOf chunkId evidence persisted :: rest

/-! ## Classifications -/

/-- `LEGACY_CLASSIFICATION_KINDS`. -/
inductive ClassificationKind where
  | extensionOrphan
  | legitimateReq103
  deriving DecidableEq, Repr

structure LegacyClassificationEntry where
  gap : GapIdentity
  chunkId : String
  classificationEvidenceSha256 : String
  classification : ClassificationKind
  note : Option String
  deriving DecidableEq

/-- The entries of an operator, one for each identity. -/
structure LegacyClassificationAuthority where
  entries : List LegacyClassificationEntry
  nodup : (entries.map LegacyClassificationEntry.gap).Nodup

namespace LegacyClassificationAuthority

def entryKeys : List String :=
  ["gap_id", "market", "symbol", "stream", "chunk_id", "classification_evidence_sha256",
   "classification", "note"]

def kindOf : Value → Option ClassificationKind
  | .str "extension_orphan" => some .extensionOrphan
  | .str "legitimate_req103" => some .legitimateReq103
  | _ => none

/-- The identity and the chunk of an entry, the symbol defaulting to the legacy one. -/
def entryIdentity (entry : Value) : Option (GapIdentity × String) := do
  let gapId ← evidenceText entry "gap_id"
  let market ← evidenceText entry "market"
  let symbol ← symbolUnder true entry
  let stream ← evidenceText entry "stream"
  let chunkId ← evidenceText entry "chunk_id"
  return (⟨⟨market, symbol, stream⟩, gapId⟩, chunkId)

def malformed (path text : String) : String :=
  s!"RECOVERY_LEGACY_CLASSIFICATION_MALFORMED path={path}: {text}"

/-- One entry of an authority document. -/
def loadEntry (path : String) (index : Nat) (entry : Value) :
    Except String LegacyClassificationEntry :=
  match entry with
  | .dict items =>
    if items.any fun item => item.1 ∉ entryKeys then
      .error (malformed path s!"entry {index} carries unknown keys")
    else match entryIdentity entry with
      | none => .error (malformed path s!"entry {index} has invalid identity")
      | some (gap, chunkId) =>
        match entry.get? "classification_evidence_sha256" with
        | some (.str digest) =>
          if isLowerSha256 digest = false then
            .error (malformed path s!"entry {index} has an invalid classification_evidence_sha256")
          else match kindOf ((entry.get? "classification").getD .null) with
            | none => .error (malformed path s!"entry {index} has unknown classification")
            | some kind =>
              match (entry.get? "note").getD .null with
              | .null => .ok ⟨gap, chunkId, digest, kind, none⟩
              | .str note => .ok ⟨gap, chunkId, digest, kind, some note⟩
              | _ => .error (malformed path s!"entry {index} note must be text")
        | _ =>
          .error (malformed path s!"entry {index} has an invalid classification_evidence_sha256")
  | _ => .error (malformed path s!"entry {index} must be an object")

/-- Add an entry, unless its identity has one. -/
def add (path : String) (authority : LegacyClassificationAuthority)
    (entry : LegacyClassificationEntry) : Except String LegacyClassificationAuthority :=
  if h : entry.gap ∈ authority.entries.map LegacyClassificationEntry.gap then
    .error (malformed path s!"duplicate classification for {entry.gap.gapId}")
  else
    .ok ⟨authority.entries ++ [entry], by
      rw [List.map_append, List.map_singleton]
      exact List.Nodup.append authority.nodup (List.nodup_singleton _)
        (List.disjoint_singleton.mpr h)⟩

def loadEntries (path : String) :
    Nat → List Value → LegacyClassificationAuthority → Except String LegacyClassificationAuthority
  | _, [], authority => .ok authority
  | index, value :: values, authority => do
    let entry ← loadEntry path index value
    let authority ← add path authority entry
    loadEntries path (index + 1) values authority

/-- `LEGACY_CLASSIFICATION_SCHEMA_V3`. -/
def schemaV3 : String := "legacy-reconnect-classification.v3"

/-- `load`; `text` is the content of the file, if there is one. -/
def load [Json.Reader] (path : String) (text : Option String) :
    Except String LegacyClassificationAuthority :=
  match text with
  | none => .ok ⟨[], List.nodup_nil⟩
  | some text =>
    match Json.Reader.loads text with
    | .invalid => .error (malformed path "cannot parse authority document")
    | .raised => .error "json.loads"
    | .value (.dict items) =>
      if items.map Prod.fst ≠ ["classifications", "schema"] then
        .error (malformed path "authority must contain exactly schema and classifications")
      else if (Value.dict items).get? "schema" ≠ some (.str schemaV3) then
        .error (malformed path "unsupported authority schema")
      else match (Value.dict items).get? "classifications" with
        | some (.list entries) => loadEntries path 0 entries ⟨[], List.nodup_nil⟩
        | _ => .error (malformed path "classifications must be a list")
    | .value _ => .error (malformed path "authority must be a JSON object")

/-- `lookup`. -/
def lookup (authority : LegacyClassificationAuthority) (gap : GapIdentity) :
    Option LegacyClassificationEntry :=
  authority.entries.find? fun entry => entry.gap = gap

end LegacyClassificationAuthority

/-! ## Deciding one candidate -/

/-- `OpenGapRecord`. -/
structure OpenGapRecord where
  gapId : String
  originalConnectionId : Option String
  originalGeneration : Option Int
  identityValid : Bool
  deriving DecidableEq

/-- The record of a STARTED event without a COMPLETED one. -/
def openGapRecord (evidence : Value) : OpenGapRecord :=
  if evidence.isDict = false then ⟨"", none, none, false⟩
  else
    let identityValid := (evidenceText evidence "gap_id").isSome &&
      (evidenceText evidence "original_connection_id").isSome &&
      (evidenceGeneration evidence "original_generation").isSome
    { gapId := match evidence.get? "gap_id" with
        | some (.str gapId) => gapId
        | _ => ""
      originalConnectionId := match evidence.get? "original_connection_id" with
        | some (.str connection) => some connection
        | _ => none
      originalGeneration :=
        if identityValid then evidenceGeneration evidence "original_generation" else none
      identityValid := identityValid }

/-- The fields in which an intent agrees with a STARTED event. -/
def agreementNames : List String :=
  ["gap_id", "market", "symbol", "stream", "reason", "original_connection_id",
   "original_generation"]

/-- `_intent_agreement_conflict`: `actual` in the order of the names. -/
def intentAgreementConflict (intent : Value) (actual : List Value) (chunkId : String) :
    Option String :=
  ((agreementNames.zip actual).find? fun p => p.2 ≠ (intent.get? p.1).getD .null).map fun p =>
    s!"RECOVERY_SEAL_INTENT_STARTED_CONFLICT chunk={chunkId} field={p.1}"

inductive AutomaticDecision where
  | historicalClosed
  | openValidated
  | conflict
  | provenExtension
  | provenLegitimate
  | ambiguous
  deriving DecidableEq, Repr

/-- `final`: the automatic decision, or that of an entry. -/
inductive FinalDecision where
  | automatic (decision : AutomaticDecision)
  | classified (kind : ClassificationKind)
  deriving DecidableEq, Repr

/-- A decision that materializes a discontinuity. -/
def FinalDecision.materializes (decision : FinalDecision) : Bool :=
  decision = .automatic .provenLegitimate ∨ decision = .classified .legitimateReq103

inductive AuthorityState where
  | missing
  | matched
  | stale
  deriving DecidableEq, Repr

structure LegacyCandidateDecision where
  candidate : LegacyReconnectCandidate
  automatic : AutomaticDecision
  lifecycleState : GapLifecycle
  authorityState : AuthorityState
  classification : Option ClassificationKind
  final : FinalDecision
  detail : String
  deriving DecidableEq

/-- What the decisions are taken against: read once, before the first one. -/
structure ReconnectEvidence where
  lifecycle : GapIdentity → Except String GapLifecycle
  openGrouped : SortedDict StreamIdentity (List EventDocument)
  closed : SortedDict StreamIdentity (List ClosedInterval)
  authority : LegacyClassificationAuthority

/-- The open gaps, and those that earlier candidates will have materialized. -/
structure ReconnectState where
  openSets : SortedDict StreamIdentity (List OpenGapRecord)
  simulatedStarted : SortedDict GapIdentity LegacyReconnectCandidate := .empty

namespace ReconnectState

variable (state : ReconnectState)

def openRecords (stream : StreamIdentity) : List OpenGapRecord :=
  (state.openSets.get? stream).getD []

/-- `ClosedLifecycle.from_row` takes an interval. -/
def isClosedLifecycle (interval : ClosedInterval) : Bool :=
  interval.gap.gapId ≠ "" ∧ interval.originalConnectionId ≠ "" ∧ 0 ≤ interval.originalGeneration ∧
    interval.newConnectionId ≠ "" ∧ 0 ≤ interval.newGeneration

/-- `_classify_absent_candidate`. -/
def classifyAbsentCandidate (evidence : ReconnectEvidence) (candidate : LegacyReconnectCandidate) :
    AutomaticDecision :=
  if candidate.trustedFrames.any (0 < ·) then .provenLegitimate
  else if candidate.intentSchema = some reconnectIntentSchemaV2 then .provenLegitimate
  else if (((evidence.closed.get? candidate.gap.stream).getD []).filter isClosedLifecycle).any
      fun interval => interval.newGeneration = candidate.originalGeneration ∧
        interval.newConnectionId = candidate.originalConnectionId then .provenLegitimate
  else .ambiguous

/-- A candidate whose gap has neither a valid STARTED record nor a COMPLETED one. -/
def decideAbsent (evidence : ReconnectEvidence) (candidate : LegacyReconnectCandidate) :
    AutomaticDecision :=
  match (state.openRecords candidate.gap.stream).filter
      fun record => record.gapId ≠ candidate.gap.gapId with
  | [] => classifyAbsentCandidate evidence candidate
  | [record] =>
    if candidate.trustedFrames = some 0 ∧ record.identityValid = true ∧
        record.originalGeneration.map (· + 1) = some candidate.originalGeneration then
      .provenExtension
    else .conflict
  | _ :: _ :: _ => .conflict

/-- The first valid record of a gap. -/
def validRecord (gap : GapIdentity) : Option OpenGapRecord :=
  (state.openRecords gap.stream).find? fun record =>
    record.identityValid && record.gapId = gap.gapId

/-- `_open_event_for_gap`. -/
def openEventForGap (evidence : ReconnectEvidence) (gap : GapIdentity) : Option EventDocument :=
  ((evidence.openGrouped.get? gap.stream).getD []).find? fun event =>
    event.evidence.get? "gap_id" = some (.str gap.gapId)

/-- The disagreement of a candidate with an earlier one that will have started its gap. -/
def simulatedConflict (previous candidate : LegacyReconnectCandidate) : Option String :=
  let gap := candidate.gap
  intentAgreementConflict previous.intent
    [.str gap.gapId, .str gap.stream.market, .str gap.stream.symbol, .str gap.stream.stream,
     .str candidate.reason, .str candidate.originalConnectionId, .int candidate.originalGeneration]
    candidate.chunkId

/-- The disagreement of a candidate with the STARTED event of its gap. -/
def startedConflict (record : OpenGapRecord) (event : EventDocument)
    (candidate : LegacyReconnectCandidate) : Option String :=
  let gap := candidate.gap
  intentAgreementConflict candidate.intent
    [.str record.gapId, .str gap.stream.market, .str gap.stream.symbol, .str gap.stream.stream,
     (event.evidence.get? "reason").getD .null,
     (record.originalConnectionId.map Value.str).getD .null,
     (record.originalGeneration.map Value.int).getD .null]
    candidate.chunkId

/-- The decision on an open gap. -/
def validated (conflict : Option String) : AutomaticDecision × GapLifecycle × String :=
  (if conflict = none then .openValidated else .conflict, .opened, conflict.getD "")

/-- `automatic`, `lifecycle_state` and `detail` of a candidate. -/
def decideAutomatic (evidence : ReconnectEvidence) (candidate : LegacyReconnectCandidate) :
    Except String (AutomaticDecision × GapLifecycle × String) :=
  match evidence.lifecycle candidate.gap with
  | .error e => .error e
  | .ok .closed => .ok (.historicalClosed, .closed, "")
  | .ok _ =>
    match state.simulatedStarted.get? candidate.gap with
    | some previous => .ok (validated (simulatedConflict previous candidate))
    | none =>
      match state.validRecord candidate.gap with
      | some record =>
        match openEventForGap evidence candidate.gap with
        | none =>
          .error (s!"RECOVERY_SEAL_INTENT_STARTED_CONFLICT chunk={candidate.chunkId} " ++
            "malformed STARTED evidence")
        | some event => .ok (validated (startedConflict record event candidate))
      | none =>
        let automatic := state.decideAbsent evidence candidate
        .ok (automatic, .absent,
          if automatic = .conflict then "competing unmatched discontinuity exists" else "")

end ReconnectState

/-! ## Deciding all of them -/

/-- The record of a discontinuity that is going to be materialized. -/
def LegacyReconnectCandidate.openRecord (candidate : LegacyReconnectCandidate) : OpenGapRecord :=
  ⟨candidate.gap.gapId, some candidate.originalConnectionId, some candidate.originalGeneration,
    true⟩

/-- An entry names the chunk and the evidence of a candidate. -/
def LegacyClassificationEntry.binds (entry : LegacyClassificationEntry)
    (candidate : LegacyReconnectCandidate) : Bool :=
  entry.chunkId = candidate.chunkId &&
    entry.classificationEvidenceSha256 = candidate.classificationEvidenceSha256

namespace ReconnectState

/-- The decision on one candidate: the operator is asked about an ambiguous one only. -/
def decideCandidate (state : ReconnectState) (evidence : ReconnectEvidence)
    (candidate : LegacyReconnectCandidate) : Except String LegacyCandidateDecision := do
  let (automatic, lifecycleState, detail) ← state.decideAutomatic evidence candidate
  let decision : LegacyCandidateDecision :=
    { candidate := candidate
      automatic := automatic
      lifecycleState := lifecycleState
      authorityState := .missing
      classification := none
      final := .automatic automatic
      detail := detail }
  -- The operator's authority is asked about ambiguous candidates only.
  if automatic ≠ .ambiguous then return decision
  else match evidence.authority.lookup candidate.gap with
    | none => return decision
    | some entry =>
      if entry.binds candidate then
        return { decision with
          authorityState := .matched
          classification := some entry.classification
          final := .classified entry.classification }
      else return { decision with authorityState := .stale }

/-- The state behind a decision. -/
def after (state : ReconnectState) (decision : LegacyCandidateDecision) : ReconnectState :=
  if decision.final.materializes then
    let candidate := decision.candidate
    { openSets := state.openSets.insert candidate.gap.stream
        (state.openRecords candidate.gap.stream ++ [candidate.openRecord])
      simulatedStarted := state.simulatedStarted.insert candidate.gap candidate }
  else state

/-- The decisions in the order of the candidates. -/
def decideAll (evidence : ReconnectEvidence) :
    ReconnectState → List LegacyReconnectCandidate → Except String (List LegacyCandidateDecision)
  | _, [] => .ok []
  | state, candidate :: candidates => do
    let decision ← state.decideCandidate evidence candidate
    let decisions ← decideAll evidence (state.after decision) candidates
    return decision :: decisions

end ReconnectState

/-! ## The report -/

/-- What is wrong with an entry, and with which candidate. -/
inductive AuthorityComplaint where
  | unmatched
  | stale (chunkId : String)
  | contradictory (chunkId : String) (decision : AutomaticDecision)
  deriving DecidableEq, Repr

/-- `decision_by_identity`: the last decision on an identity. -/
def decisionByIdentity (decisions : List LegacyCandidateDecision) :
    SortedDict GapIdentity LegacyCandidateDecision :=
  SortedDict.ofItems (decisions.map fun decision => (decision.candidate.gap, decision))

/-- The check of one entry against the decision on its identity. -/
def authorityComplaint (decisions : List LegacyCandidateDecision)
    (entry : LegacyClassificationEntry) : Option AuthorityComplaint :=
  match (decisionByIdentity decisions).get? entry.gap with
  | none => some .unmatched
  | some decision =>
    if entry.binds decision.candidate = false then some (.stale decision.candidate.chunkId)
    else match decision.automatic with
      | .ambiguous => none
      -- an entry that was applied by an earlier startup
      | .openValidated | .historicalClosed => none
      | automatic => some (.contradictory decision.candidate.chunkId automatic)

/-- An entry of `degraded_authority`. -/
inductive DegradedAuthority where
  | pair (pair : DegradedPair)
  | event (event : MalformedEvent)
  deriving DecidableEq

/-- `LegacyDecisionReport`, the lists that its counts and its lines are made from. -/
structure LegacyDecisionReport where
  decisions : List LegacyCandidateDecision
  complaints : List (LegacyClassificationEntry × AuthorityComplaint)
  degradedAuthority : List DegradedAuthority

section

/-- The records of the open gaps before the first decision. -/
def initialReconnectState (openGrouped : SortedDict StreamIdentity (List EventDocument)) :
    ReconnectState where
  openSets := openGrouped.mapValues fun _ events => events.map fun event =>
    openGapRecord event.evidence

variable [Json.Reader] (legacyIdentitySchema : Bool) (catalog : ReconnectCatalog)
  (authority : LegacyClassificationAuthority)

/-- The discontinuities that the decisions are taken against. -/
def reconnectEvidence (openGrouped : SortedDict StreamIdentity (List EventDocument))
    (closed : SortedDict StreamIdentity (List ClosedInterval)) : ReconnectEvidence where
  lifecycle := catalog.events.streamDiscontinuityLifecycle legacyIdentitySchema
  openGrouped := openGrouped
  closed := closed
  authority := authority

/-- `_inventory`, over `sealing_transition_evidence`. -/
def ReconnectCatalog.candidates : Except String (List LegacyReconnectCandidate) :=
  inventory (catalog.sealing.filter fun row => row.2.isDict)

/-- `evaluate_legacy_reconnect_decisions`. -/
def evaluateLegacyReconnectDecisions : Except String LegacyDecisionReport := do
  let candidates ← catalog.candidates
  let openGrouped ← catalog.events.unclosedStreamDiscontinuitiesByStream legacyIdentitySchema
  let closed ← catalog.events.closedStreamDiscontinuityIntervalsByStream legacyIdentitySchema
  let decisions ← ReconnectState.decideAll
    (reconnectEvidence legacyIdentitySchema catalog authority openGrouped closed)
    (initialReconnectState openGrouped) candidates
  let degraded ← catalog.events.degradedClosedDiscontinuityPairs legacyIdentitySchema
  let malformed ← catalog.events.malformedDiscontinuityEvents legacyIdentitySchema
  return {
    decisions := decisions
    complaints := authority.entries.filterMap fun entry =>
      (authorityComplaint decisions entry).map (entry, ·)
    degradedAuthority := degraded.map .pair ++ malformed.map .event }

end

end MarketDataRecorder
