import MarketDataRecorder.Catalog.Discontinuities
import MarketDataRecorder.Lib.KeyedFold
import MarketDataRecorder.Lib.Number
import MarketDataRecorder.Spool.ManifestDocument

/-!
# Reconnect boundaries

`audit/reconnect_boundaries.py`: the audit that looks for connection changes in sealed chunks,
inside a chunk and from one chunk to the next of its stream, and says of each what documents it: a
marker or an overlap of the frames at the boundary, the manifest of the old chunk, a frame-less
marker between the chunks, or an interval of the Catalog.

The seconds of a report are nanoseconds here.
-/

namespace MarketDataRecorder

/-! ## Classes -/

/-- `EXPLICIT_SEQUENCE_GAP`, `BLUE_GREEN_OVERLAP`, `UNMARKED_RECONNECT` and `UNKNOWN`. -/
inductive TransitionKind where
  | explicitSequenceGap
  | blueGreenOverlap
  | unmarkedReconnect
  | unknown
  deriving DecidableEq, Repr

/-- How an interval of the Catalog fits a boundary. -/
inductive IdentityMatch where
  | exactPair
  | partialOld
  | partialNew
  | timeOnly
  | ambiguous
  | none
  deriving DecidableEq, Repr

inductive GapMatch where
  | pending
  | matched
  | ambiguous
  | unmatched
  deriving DecidableEq, Repr

/-- Where a transition is. -/
inductive BoundaryKind where
  | interChunk
  | intraChunk
  | intraChunkUnordered
  deriving DecidableEq, Repr

def BoundaryKind.text : BoundaryKind → String
  | interChunk => "inter_chunk"
  | intraChunk => "intra_chunk"
  | intraChunkUnordered => "intra_chunk_unordered"

/-- `WEBSOCKET_STREAMS`. -/
def websocketStreams (market : String) : List String :=
  if market = "spot" then ["diff_depth", "book_ticker", "agg_trade"]
  else if market = "um_perpetual" then
    ["diff_depth", "book_ticker", "agg_trade", "mark_price", "liquidation"]
  else []

/-! ## Data -/

/-- `FrameIdentity`. -/
structure FrameIdentity where
  chunkId : String
  frameIndex : Int
  connectionId : String
  receiveTimeUtcNs : Int
  captureFlags : List String
  sourceSequence : List (String × SequenceValue)
  payloadSha256 : String
  exchangeEventTimeNs : Option Int
  deriving DecidableEq

/-- `ChunkScan`. -/
structure ChunkScan where
  manifest : Value
  frames : Option (List FrameIdentity) := none
  issue : Option String := none
  deepScanAllowed : Bool := true
  deriving DecidableEq

/-- `CatalogGapInterval`. -/
structure CatalogGapInterval where
  gap : GapIdentity
  startedAtUtcNs : Int
  endedAtUtcNs : Option Int
  reason : Option String
  originalConnectionId : Option String
  newConnectionId : Option String
  originalGeneration : Option Int
  newGeneration : Option Int
  deriving DecidableEq

/-- What `_frame_info` reports of a frame. -/
structure FrameInfo where
  chunkId : String
  frameIndex : Int
  connectionId : String
  receiveTimeUtcNs : Int
  captureFlags : List String
  sourceSequence : List (String × SequenceValue)
  payloadSha256 : String
  persisted : Bool
  deriving DecidableEq

/-- What `_intervening_manifest_info` reports of a chunk. -/
structure InterveningManifest where
  chunkId : Option Value
  recordCount : Option Value
  gap : Option Value
  complete : Option Value
  captureFlags : Option Value
  frameDetailUnavailable : Bool
  deriving DecidableEq

/-- What `_catalog_gap_match` returns. -/
structure CatalogMatch where
  gapMatch : GapMatch
  identity : IdentityMatch
  matchedGapId : Option String
  deriving DecidableEq

/-- `Transition`. -/
structure Transition where
  kind : TransitionKind
  boundaryKind : BoundaryKind
  oldChunkId : String
  newChunkId : String
  oldConnectionId : Option String
  newConnectionId : Option String
  lastOldFrame : Option FrameInfo
  firstNewFrame : Option FrameInfo
  receiveGapNs : Option Int
  exchangeEventGapNs : Option Int
  oldManifest : Value
  newManifest : Value
  catalogMatch : CatalogMatch
  occurredAtUtcNs : Int
  collectorInstanceId : Option String
  interveningManifests : List InterveningManifest
  frameDetailUnavailable : Bool
  connectionIds : Option (List String)
  deriving DecidableEq

/-! ## Manifests -/

/-- `str(manifest[name])` of a text field. -/
def manifestText (manifest : Value) (name : String) : String :=
  match manifest.get? name with
  | some (.str s) => s
  | _ => ""

/-- The texts of an array field. -/
def manifestTexts (manifest : Value) (name : String) : List String :=
  match manifest.get? name with
  | some (.list xs) => xs.filterMap fun x =>
    match x with
    | .str s => some s
    | _ => none
  | _ => []

/-- `_manifest_flags`. -/
def auditFlags (manifest : Value) : List String := manifestTexts manifest "capture_flags"

def manifestConnections (manifest : Value) : List String := manifestTexts manifest "connection_ids"

/-- `int(manifest.get("created_at_utc_ns", 0))`. -/
def manifestCreatedAt (manifest : Value) : Int :=
  match manifest.get? "created_at_utc_ns" with
  | some (.int i) => i
  | _ => 0

/-- `_stream_key` of a manifest. -/
def manifestStream (manifest : Value) : StreamIdentity :=
  ⟨manifestText manifest "market", manifestText manifest "symbol", manifestText manifest "stream"⟩

/-- `_collector_id`. -/
def collectorId (manifest : Value) : Option String :=
  (manifestTexts manifest "collector_instance_ids").head?

/-- `GAP_FLAGS`. -/
def auditGapFlags : List String := ["sequence_gap", "reconnect_gap"]

/-- `_manifest_gap_evidence`. -/
def manifestGapEvidence (manifest : Value) : Bool :=
  manifest.get? "gap" = some (.bool true) || (auditFlags manifest).any (· ∈ auditGapFlags)

/-- `_manifest_overlap_evidence`. -/
def manifestOverlapEvidence (manifest : Value) : Bool := "blue_green_overlap" ∈ auditFlags manifest

/-- `_adjacent_unattributable_evidence`. -/
def adjacentUnattributableEvidence (manifests : List Value) : Bool :=
  manifests.any manifestGapEvidence || manifests.any manifestOverlapEvidence

/-- `_manifest_level_intra_kind`. -/
def manifestLevelIntraKind (manifest : Value) : TransitionKind :=
  if manifestGapEvidence manifest then .unknown
  else if manifestOverlapEvidence manifest then .unknown
  else .unmarkedReconnect

/-! ## Frames -/

/-- `_frame_identity`. -/
def frameIdentity (chunkId : String) (frameIndex : Nat) (envelope : EventEnvelope) :
    FrameIdentity where
  chunkId := chunkId
  frameIndex := frameIndex
  connectionId := envelope.connectionId.val
  receiveTimeUtcNs := envelope.receiveTimeUtcNs
  captureFlags := envelope.captureFlags.map Subtype.val
  sourceSequence := envelope.sourceSequence.items.map fun item => (item.1.val, item.2)
  payloadSha256 := Checksum.sha256Hex envelope.rawPayload
  exchangeEventTimeNs := envelope.exchangeEventTime.map Int.ofNat

/-- `_frame_has_gap`. -/
def frameHasGap (frame : Option FrameIdentity) : Bool :=
  frame.any fun frame => "sequence_gap" ∈ frame.captureFlags

/-- `_is_first_frame_of_connection`. -/
def isFirstFrameOfConnection (frames : List FrameIdentity) (index : Nat) : Bool :=
  if index = 0 then true
  else (frames[index - 1]?).map FrameIdentity.connectionId ≠
    (frames[index]?).map FrameIdentity.connectionId

/-- `_marker_is_end_evidence`. -/
def markerIsEndEvidence (frames : List FrameIdentity) (index : Nat) : Bool :=
  !isFirstFrameOfConnection frames index

/-- `_frame_deployments`. -/
def frameDeployments (frame : FrameIdentity) : List String :=
  frame.captureFlags.filter fun flag => flag.startsWith "deployment_id="

/-- `_overlap_pair`. -/
def overlapPair : Option FrameIdentity → Option FrameIdentity → Bool
  | some lastOld, some firstNew =>
    if "blue_green_overlap" ∉ lastOld.captureFlags ∨ "blue_green_overlap" ∉ firstNew.captureFlags
    then false
    else if frameDeployments lastOld = [] ∧ frameDeployments firstNew = [] then true
    else (frameDeployments lastOld).any (· ∈ frameDeployments firstNew)
  | _, _ => false

/-- `_frame_info`. -/
def frameInfo (persisted : Bool) (frame : FrameIdentity) : FrameInfo where
  chunkId := frame.chunkId
  frameIndex := frame.frameIndex
  connectionId := frame.connectionId
  receiveTimeUtcNs := frame.receiveTimeUtcNs
  captureFlags := frame.captureFlags.insertionSort (· ≤ ·)
  sourceSequence := frame.sourceSequence.insertionSort fun a b => a.1 ≤ b.1
  payloadSha256 := frame.payloadSha256
  persisted := persisted

/-- `_exchange_gap`. -/
def exchangeGap (lastOld firstNew : FrameIdentity) : Option Int := do
  let old ← lastOld.exchangeEventTimeNs
  let new ← firstNew.exchangeEventTimeNs
  return new - old

/-! ## Chunks -/

/-- `_zero_record_chunk`. -/
def zeroRecordChunk (chunk : ChunkScan) : Bool :=
  chunk.manifest.get? "record_count" = some (.int 0) && (chunk.frames.getD []).isEmpty

/-- The only connection of a manifest, where it has just one. -/
def onlyConnection (manifest : Value) : Option String :=
  match manifestConnections manifest with
  | [connection] => some connection
  | _ => none

/-- `_last_connection`. -/
def lastConnection (chunk : ChunkScan) : Option String × Option FrameIdentity :=
  match chunk.frames with
  | some frames => (frames.getLast?.map FrameIdentity.connectionId, frames.getLast?)
  | none => (onlyConnection chunk.manifest, none)

/-- `_first_connection`. -/
def firstConnection (chunk : ChunkScan) : Option String × Option FrameIdentity :=
  match chunk.frames with
  | some frames => (frames.head?.map FrameIdentity.connectionId, frames.head?)
  | none => (onlyConnection chunk.manifest, none)

/-- `_intervening_manifest_info`. -/
def interveningManifestInfo (chunk : ChunkScan) : InterveningManifest where
  chunkId := chunk.manifest.get? "chunk_id"
  recordCount := chunk.manifest.get? "record_count"
  gap := chunk.manifest.get? "gap"
  complete := chunk.manifest.get? "complete"
  captureFlags := chunk.manifest.get? "capture_flags"
  frameDetailUnavailable := chunk.frames.isNone

/-- The Raw files under the data root: the envelopes of a file, or why they cannot be read. -/
structure RawFiles where
  read : String → Option (Except String (List EventEnvelope))

/-- `scan_chunk_frames`. -/
def scanChunkFrames (manifest : Value) (envelopes : List EventEnvelope) : List FrameIdentity :=
  envelopes.mapIdx (frameIdentity (manifestText manifest "chunk_id"))

/-- `_load_frames` of one chunk. -/
def loadFrames (files : RawFiles) (chunk : ChunkScan) : ChunkScan :=
  if chunk.frames.isSome || !chunk.deepScanAllowed then chunk
  else if manifestText chunk.manifest "relative_path" = "" then
    { chunk with issue := some "scan_failed: manifest lacks relative_path" }
  else match files.read (manifestText chunk.manifest "relative_path") with
    | none => { chunk with issue := some "sealed_file_missing_after_archival" }
    | some (.error e) => { chunk with issue := some s!"scan_failed: {e}" }
    | some (.ok envelopes) =>
      { chunk with frames := some (scanChunkFrames chunk.manifest envelopes) }

/-! ## The Catalog -/

/-- A text of an evidence, as `str(evidence[name])` where it is a text. -/
def optionalText (evidence : Value) (name : String) : Option String :=
  match evidence.get? name with
  | some (.str s) => some s
  | _ => none

/-- `int(evidence.get(name, 0))`. -/
def evidenceTime (evidence : Value) (name : String) : Option Int :=
  match evidence.get? name with
  | none => some 0
  | some value => value.toInt?

/-- `isinstance(evidence.get(name), int)`, which a boolean is too. -/
def completedGeneration (evidence : Value) (name : String) : Option Int :=
  match evidence.get? name with
  | some (.int i) => some i
  | some (.bool b) => some (if b then 1 else 0)
  | _ => none

/-- The symbol of an evidence; here an absent one and a null are the same. -/
def auditSymbol (allowLegacySymbol : Bool) (evidence : Value) : Option String :=
  match evidence.get? "symbol" with
  | none | some .null => if allowLegacySymbol then some legacySingleSymbol else none
  | some _ => evidenceText evidence "symbol"

/-- The identity of an evidence that takes part in the audit. -/
def auditIdentity (allowLegacySymbol : Bool) (evidence : Value) : Option GapIdentity := do
  let gapId ← evidenceText evidence "gap_id"
  let market ← evidenceText evidence "market"
  let symbol ← auditSymbol allowLegacySymbol evidence
  let stream ← evidenceText evidence "stream"
  return ⟨⟨market, symbol, stream⟩, gapId⟩

/-- The interval of a STARTED event. -/
def startedInterval (gap : GapIdentity) (evidence : Value) : Option CatalogGapInterval := do
  let startedAt ← evidenceTime evidence "gap_started_at_utc_ns"
  return {
    gap := gap
    startedAtUtcNs := startedAt
    endedAtUtcNs := none
    reason := optionalText evidence "reason"
    originalConnectionId := optionalText evidence "original_connection_id"
    newConnectionId := optionalText evidence "new_connection_id"
    originalGeneration := evidenceInt evidence "original_generation"
    newGeneration := evidenceInt evidence "new_generation" }

/-- A COMPLETED event on the interval that it completes. -/
def completeInterval (evidence : Value) (interval : CatalogGapInterval) :
    Option CatalogGapInterval := do
  let endedAt ← evidenceTime evidence "gap_ended_at_utc_ns"
  return { interval with
    endedAtUtcNs := some endedAt
    newConnectionId := (optionalText evidence "new_connection_id").or interval.newConnectionId
    newGeneration := (completedGeneration evidence "new_generation").or interval.newGeneration }

/-- A COMPLETED event on the intervals, the newest first: it completes the last one that was
started under its identity, and none where there is none. -/
def completeNewest (gap : GapIdentity) (evidence : Value) :
    List CatalogGapInterval → Option (List CatalogGapInterval)
  | [] => some []
  | interval :: rest =>
    if interval.gap = gap then (completeInterval evidence interval).map (· :: rest)
    else (completeNewest gap evidence rest).map (interval :: ·)

/-- One event on the intervals, the newest first; `none` where a time is no integer. -/
def addEvent (allowLegacySymbol : Bool) (intervals : List CatalogGapInterval)
    (event : EventDocument) : Option (List CatalogGapInterval) :=
  match auditIdentity allowLegacySymbol event.evidence with
  | none => some intervals
  | some gap =>
    if event.eventType = startedType then
      (startedInterval gap event.evidence).map (· :: intervals)
    else if event.eventType = completedType then completeNewest gap event.evidence intervals
    else some intervals

/-- `_catalog_intervals`. -/
def catalogIntervals (allowLegacySymbol : Bool) (events : List EventDocument) :
    Option (List CatalogGapInterval) :=
  (events.foldlM (addEvent allowLegacySymbol) []).map fun newestFirst =>
    newestFirst.reverse.insertionSort fun a b =>
      a.startedAtUtcNs < b.startedAtUtcNs ∨
        a.startedAtUtcNs = b.startedAtUtcNs ∧ a.gap.gapId ≤ b.gap.gapId

/-- `operational_events`: every row parsed, `none` where `json.loads` raises for one of them. -/
def EventLog.operationalEvents [Json.Reader] (log : EventLog) : Option (List EventDocument) :=
  (log.rows.insertionSort EventRow.before).mapM fun row => row.evidence.map row.document

/-- The Catalog that an audit reads. -/
structure AuditCatalog where
  legacyIdentitySchema : Bool
  events : EventLog

/-- The intervals of the Catalog, none without one. -/
def auditIntervals [Json.Reader] : Option AuditCatalog → Except String (List CatalogGapInterval)
  | none => .ok []
  | some catalog =>
    match catalog.events.operationalEvents with
    | none => .error "json.loads"
    | some events =>
      match catalogIntervals catalog.legacyIdentitySchema events with
      | none => .error "int() argument is no integer"
      | some intervals => .ok intervals

/-! ## Matching a boundary with the Catalog -/

/-- Whether both identities are known and the same. -/
def sameConnection : Option String → Option String → Bool
  | some a, some b => a = b
  | _, _ => false

def CatalogGapInterval.within (interval : CatalogGapInterval) (occurredAtUtcNs : Int) : Bool :=
  interval.startedAtUtcNs ≤ occurredAtUtcNs &&
    interval.endedAtUtcNs.all fun endedAt => occurredAtUtcNs ≤ endedAt

/-- How an interval of the stream fits a boundary. -/
def CatalogGapInterval.fit (interval : CatalogGapInterval) (occurredAtUtcNs : Int)
    (oldConnectionId newConnectionId : Option String) : IdentityMatch :=
  let oldEq := sameConnection interval.originalConnectionId oldConnectionId
  let newEq := sameConnection interval.newConnectionId newConnectionId
  if oldEq && newEq then .exactPair
  else if oldEq then .partialOld
  else if newEq then .partialNew
  else if interval.within occurredAtUtcNs then .timeOnly
  else .none

/-- The match with one interval. -/
def CatalogGapInterval.match (interval : CatalogGapInterval) (identity : IdentityMatch) :
    CatalogMatch :=
  ⟨if interval.endedAtUtcNs.isNone then .pending else .matched, identity, some interval.gap.gapId⟩

/-- `_catalog_gap_match`. -/
def catalogGapMatch (intervals : List CatalogGapInterval) (stream : StreamIdentity)
    (occurredAtUtcNs : Int) (oldConnectionId newConnectionId : Option String) : CatalogMatch :=
  let fitted := (intervals.filter fun interval => interval.gap.stream = stream).map fun interval =>
    (interval, interval.fit occurredAtUtcNs oldConnectionId newConnectionId)
  let exact := fitted.filter fun f => f.2 = .exactPair
  let partials := fitted.filter fun f => f.2 = .partialOld ∨ f.2 = .partialNew
  let timeOnly := fitted.filter fun f => f.2 = .timeOnly
  let ambiguous : CatalogMatch := ⟨.ambiguous, .ambiguous, none⟩
  match exact, partials, timeOnly with
  | [(interval, identity)], _, _ => interval.match identity
  | _ :: _ :: _, _, _ => ambiguous
  -- one weaker candidate is taken without a look at the times of the others
  | [], [(interval, identity)], _ => interval.match identity
  | [], _ :: _ :: _, _ => ambiguous
  | [], [], [(interval, identity)] => interval.match identity
  | [], [], _ :: _ :: _ => ambiguous
  | [], [], [] => ⟨.unmatched, .none, none⟩

/-! ## Classification -/

/-- The kind of a connection change between two frames of a chunk. -/
def classifyIntraChunk (frames : List FrameIdentity) (index : Nat)
    (previousFrame frame : FrameIdentity) : TransitionKind :=
  if frameHasGap (some frame) then .explicitSequenceGap
  else if frameHasGap (some previousFrame) && markerIsEndEvidence frames (index - 1) then
    .explicitSequenceGap
  else if frameHasGap (some previousFrame) then .unknown
  else if overlapPair (some previousFrame) (some frame) then .blueGreenOverlap
  else .unmarkedReconnect

/-- `_classify_inter_chunk`. -/
def classifyInterChunk (oldChunk newChunk : ChunkScan) (lastOld firstNew : Option FrameIdentity)
    (identity : IdentityMatch) (intervening : List ChunkScan) : TransitionKind :=
  if frameHasGap firstNew then .explicitSequenceGap
  else if newChunk.manifest.get? "process_boundary_before_first_frame" = some (.bool true) then
    .explicitSequenceGap
  else if frameHasGap lastOld && oldChunk.frames.any (fun frames =>
      markerIsEndEvidence frames (frames.length - 1)) then
    .explicitSequenceGap
  -- A gap mark on the old side alone proves nothing about the change.
  else if frameHasGap lastOld then .unknown
  else if overlapPair lastOld firstNew then .blueGreenOverlap
  else if (onlyConnection oldChunk.manifest).isSome &&
      "reconnect_gap" ∈ auditFlags oldChunk.manifest then
    .explicitSequenceGap
  else if intervening.any fun item => "reconnect_gap" ∈ auditFlags item.manifest then
    .explicitSequenceGap
  else if identity = .exactPair then .explicitSequenceGap
  else if identity ∈ [.partialOld, .partialNew, .timeOnly, .ambiguous] then .unknown
  else if adjacentUnattributableEvidence
      (oldChunk.manifest :: newChunk.manifest :: intervening.map ChunkScan.manifest) then
    .unknown
  else .unmarkedReconnect

/-! ## Transitions -/

/-- The transition between two frames of a chunk, none where the connection stays. -/
def intraTransition (intervals : List CatalogGapInterval) (manifest : Value)
    (frames : List FrameIdentity) (index : Nat) (previousFrame frame : FrameIdentity) :
    Option Transition :=
  if previousFrame.connectionId = frame.connectionId then none
  else some {
    kind := classifyIntraChunk frames index previousFrame frame
    boundaryKind := .intraChunk
    oldChunkId := manifestText manifest "chunk_id"
    newChunkId := manifestText manifest "chunk_id"
    oldConnectionId := some previousFrame.connectionId
    newConnectionId := some frame.connectionId
    lastOldFrame := some (frameInfo true previousFrame)
    firstNewFrame := some (frameInfo true frame)
    receiveGapNs := some (frame.receiveTimeUtcNs - previousFrame.receiveTimeUtcNs)
    exchangeEventGapNs := exchangeGap previousFrame frame
    oldManifest := manifest
    newManifest := manifest
    catalogMatch := catalogGapMatch intervals (manifestStream manifest) frame.receiveTimeUtcNs
      (some previousFrame.connectionId) (some frame.connectionId)
    occurredAtUtcNs := frame.receiveTimeUtcNs
    collectorInstanceId := collectorId manifest
    interveningManifests := []
    frameDetailUnavailable := false
    connectionIds := none }

/-- The transitions inside a chunk with its frames, `index` the position of the second frame. -/
def framesTransitions (intervals : List CatalogGapInterval) (manifest : Value)
    (frames : List FrameIdentity) : Nat → List FrameIdentity → List Transition
  | index, previousFrame :: frame :: rest =>
    (intraTransition intervals manifest frames index previousFrame frame).toList ++
      framesTransitions intervals manifest frames (index + 1) (frame :: rest)
  | _, _ => []

/-- The transition of a chunk whose manifest has several connections and whose frames are not
there. -/
def unorderedTransition (intervals : List CatalogGapInterval) (manifest : Value) :
    Option Transition :=
  if (manifestConnections manifest).length ≤ 1 then none
  else some {
    kind := manifestLevelIntraKind manifest
    boundaryKind := .intraChunkUnordered
    oldChunkId := manifestText manifest "chunk_id"
    newChunkId := manifestText manifest "chunk_id"
    oldConnectionId := none
    newConnectionId := none
    lastOldFrame := none
    firstNewFrame := none
    receiveGapNs := none
    exchangeEventGapNs := none
    oldManifest := manifest
    newManifest := manifest
    catalogMatch := catalogGapMatch intervals (manifestStream manifest)
      (manifestCreatedAt manifest) none none
    occurredAtUtcNs := manifestCreatedAt manifest
    collectorInstanceId := collectorId manifest
    interveningManifests := []
    frameDetailUnavailable := true
    connectionIds := some ((manifestConnections manifest).insertionSort (· ≤ ·)) }

/-- The transitions inside a chunk. -/
def intraTransitions (intervals : List CatalogGapInterval) (chunk : ChunkScan) : List Transition :=
  match chunk.frames with
  | some frames => framesTransitions intervals chunk.manifest frames 1 frames
  | none => (unorderedTransition intervals chunk.manifest).toList

/-- The transition from a chunk to the next one of its stream that has records. -/
def interTransition (intervals : List CatalogGapInterval) (previous : ChunkScan)
    (intervening : List ChunkScan) (chunk : ChunkScan) : Option Transition :=
  let (oldConnection, lastOld) := lastConnection previous
  let (newConnection, firstNew) := firstConnection chunk
  match oldConnection, newConnection with
  | some old, some new =>
    -- One connection on both sides is no change.
    if old = new then none
    else
      let occurredAt := (firstNew.map FrameIdentity.receiveTimeUtcNs).getD
        (manifestCreatedAt chunk.manifest)
      let catalogMatch := catalogGapMatch intervals (manifestStream chunk.manifest) occurredAt
        (some old) (some new)
      some {
        kind := classifyInterChunk previous chunk lastOld firstNew catalogMatch.identity intervening
        boundaryKind := .interChunk
        oldChunkId := manifestText previous.manifest "chunk_id"
        newChunkId := manifestText chunk.manifest "chunk_id"
        oldConnectionId := some old
        newConnectionId := some new
        lastOldFrame := lastOld.map (frameInfo previous.frames.isSome)
        firstNewFrame := firstNew.map (frameInfo chunk.frames.isSome)
        receiveGapNs := do
          let a ← lastOld
          let b ← firstNew
          return b.receiveTimeUtcNs - a.receiveTimeUtcNs
        exchangeEventGapNs := do
          let a ← lastOld
          let b ← firstNew
          exchangeGap a b
        oldManifest := previous.manifest
        newManifest := chunk.manifest
        catalogMatch := catalogMatch
        occurredAtUtcNs := occurredAt
        collectorInstanceId := collectorId chunk.manifest
        interveningManifests := intervening.map interveningManifestInfo
        frameDetailUnavailable := previous.frames.isNone || chunk.frames.isNone ||
          intervening.any fun item => item.frames.isNone
        connectionIds := none }
  | _, _ => none

/-! ## The audit -/

/-- The counts of a stream. -/
structure StreamSummary where
  chunksScanned : Nat := 0
  transitionsTotal : Nat := 0
  explicitGap : Nat := 0
  blueGreenOverlap : Nat := 0
  unmarkedReconnect : Nat := 0
  unknown : Nat := 0
  chunksWithScanIssues : Nat := 0
  deriving DecidableEq

/-- `_tally`. -/
def StreamSummary.tally (summary : StreamSummary) (kind : TransitionKind) : StreamSummary :=
  let summary := { summary with transitionsTotal := summary.transitionsTotal + 1 }
  match kind with
  | .explicitSequenceGap => { summary with explicitGap := summary.explicitGap + 1 }
  | .blueGreenOverlap => { summary with blueGreenOverlap := summary.blueGreenOverlap + 1 }
  | .unmarkedReconnect => { summary with unmarkedReconnect := summary.unmarkedReconnect + 1 }
  | .unknown => { summary with unknown := summary.unknown + 1 }

/-- The audit of one stream: its counts, its last chunk with records, and the markers behind it. -/
structure StreamAudit where
  summary : StreamSummary := {}
  previous : Option ChunkScan := none
  intervening : List ChunkScan := []
  deriving DecidableEq

/-- A chunk is of those whose transitions are reported. -/
def emits (emitChunkIds : Option (List String)) (chunk : ChunkScan) : Bool :=
  emitChunkIds.all fun ids => manifestText chunk.manifest "chunk_id" ∈ ids

/-- The stream of a chunk in a market that is audited. -/
def auditedStream (chunk : ChunkScan) : Option StreamIdentity :=
  if manifestText chunk.manifest "market" ∈ ["spot", "um_perpetual"] then
    some (manifestStream chunk.manifest)
  else none

/-- The chunk is of a stream whose connections are looked at. -/
def isWebsocketChunk (chunk : ChunkScan) : Bool :=
  manifestText chunk.manifest "stream" ∈ websocketStreams (manifestText chunk.manifest "market")

namespace StreamAudit

variable (emitChunkIds : Option (List String)) (intervals : List CatalogGapInterval)

/-- The transitions that a chunk of the stream brings. -/
def transitions (audit : StreamAudit) (chunk : ChunkScan) : List Transition :=
  -- REST-polled streams: a connection for each request
  if !isWebsocketChunk chunk then []
  else
    (if emits emitChunkIds chunk then intraTransitions intervals chunk else []) ++
      (if zeroRecordChunk chunk then []
      else (audit.previous.bind fun previous =>
        interTransition intervals previous audit.intervening chunk).toList)

/-- The counts after a chunk. -/
def counted (audit : StreamAudit) (chunk : ChunkScan) : StreamSummary :=
  let scanned := if emits emitChunkIds chunk then
      { audit.summary with chunksScanned := audit.summary.chunksScanned + 1 }
    else audit.summary
  ((audit.transitions emitChunkIds intervals chunk).map Transition.kind).foldl
    StreamSummary.tally scanned

/-- The audit after a chunk. -/
def next (audit : StreamAudit) (chunk : ChunkScan) : StreamAudit :=
  let summary := audit.counted emitChunkIds intervals chunk
  if !isWebsocketChunk chunk then { audit with summary := summary }
  else if zeroRecordChunk chunk then
    -- a marker stays in the chain of the boundary, and does not replace the last chunk
    if audit.previous.isSome then
      { audit with summary := summary, intervening := audit.intervening ++ [chunk] }
    else { audit with summary := summary }
  else ⟨summary, some chunk, []⟩

end StreamAudit

/-- The loop over the chunks. -/
def auditPass (emitChunkIds : Option (List String)) (intervals : List CatalogGapInterval) :
    KeyedFold.Pass StreamIdentity ChunkScan StreamAudit Transition where
  key := auditedStream
  init := {}
  next := StreamAudit.next emitChunkIds intervals
  out := StreamAudit.transitions emitChunkIds intervals

/-- A chunk whose scan failed, and that no transition tells about. -/
def hasScanIssue (emitChunkIds : Option (List String)) (chunk : ChunkScan) : Bool :=
  chunk.frames.isNone &&
    chunk.issue.any (fun issue => !issue.startsWith "sealed_file_missing_after_archival") &&
    emits emitChunkIds chunk && (manifestConnections chunk.manifest).length ≤ 1

/-- The loop over the chunks with an issue. -/
def issuesOf (emitChunkIds : Option (List String)) (stream : StreamIdentity)
    (chunks : List ChunkScan) : Nat :=
  chunks.countP fun chunk =>
    hasScanIssue emitChunkIds chunk && manifestStream chunk.manifest = stream

/-- The order of the transitions of a report. -/
def Transition.reportedBefore (a b : Transition) : Prop :=
  a.occurredAtUtcNs < b.occurredAtUtcNs ∨ a.occurredAtUtcNs = b.occurredAtUtcNs ∧
    [a.oldChunkId, a.newChunkId, a.oldConnectionId.getD "", a.newConnectionId.getD "",
        a.boundaryKind.text] ≤
      [b.oldChunkId, b.newChunkId, b.oldConnectionId.getD "", b.newConnectionId.getD "",
        b.boundaryKind.text]

instance : DecidableRel Transition.reportedBefore := fun _ _ => inferInstanceAs (Decidable (_ ∨ _))

/-- What `collect_transitions` returns. -/
structure TransitionReport where
  transitions : List Transition
  summaries : SortedDict StreamIdentity StreamSummary
  intervals : List CatalogGapInterval

/-- `collect_transitions`. -/
def collectTransitions [Json.Reader] (chunks : List ChunkScan) (files : RawFiles)
    (catalog : Option AuditCatalog) (emitChunkIds : Option (List String)) :
    Except String TransitionReport := do
  let loaded := chunks.map (loadFrames files)
  let intervals ← auditIntervals catalog
  let (streams, transitions) := (auditPass emitChunkIds intervals).run (.empty, []) loaded
  return {
    transitions := transitions.insertionSort Transition.reportedBefore
    summaries := streams.mapValues fun stream audit =>
      { audit.summary with chunksWithScanIssues := issuesOf emitChunkIds stream loaded }
    intervals := intervals }

end MarketDataRecorder
