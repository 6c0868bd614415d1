import MarketDataRecorder.Audit.ReconnectBoundaries
import MarketDataRecorder.Catalog.Archive
import MarketDataRecorder.Catalog.DiscontinuityReaders
import MarketDataRecorder.Storage.Digest

/-!
# Resuming the reconnect audit

The incremental audit of `audit/reconnect_boundaries.py`: an observation reads the manifests that
are there, takes those that the rows of the Catalog name, scans the Raw of those that no earlier one
has seen, and leaves a document from which the next one continues. Of each stream the document keeps
the last chunk with records, with its last two frames, and the markers behind it.

A manifest that no row names yet is left to a later observation. A row whose manifest is not there
is reported as lost Raw, and the observation raises where its loss cannot be classified.
-/

namespace MarketDataRecorder

/-! ## Frames -/

def optionalIntValue : Option Int → Value
  | none => .null
  | some i => .int i

/-- `_frame_document`. -/
def frameDocument (frame : FrameIdentity) : Value := .dict [
  ("capture_flags", .list (frame.captureFlags.map .str)),
  ("chunk_id", .str frame.chunkId),
  ("connection_id", .str frame.connectionId),
  ("exchange_event_time_ns", optionalIntValue frame.exchangeEventTimeNs),
  ("frame_index", .int frame.frameIndex),
  ("payload_sha256", .str frame.payloadSha256),
  ("receive_time_utc_ns", .int frame.receiveTimeUtcNs),
  ("source_sequence", .dict (frame.sourceSequence.map fun item => (item.1, item.2.toValue)))]

/-- An array of texts. -/
def textArray : Value → Option (List String)
  | .list xs => xs.mapM fun x =>
    match x with
    | .str s => some s
    | _ => none
  | _ => none

/-- A dictionary of integers and texts. -/
def sequenceDict : Value → Option (List (String × SequenceValue))
  | .dict items => items.mapM fun item => (SequenceValue.ofValue? item.2).map (item.1, ·)
  | _ => none

/-- An integer or nothing; a boolean is neither. -/
def optionalIntField : Option Value → Option (Option Int)
  | none | some .null => some none
  | some (.int i) => some (some i)
  | some _ => none

def digestField (document : Value) (name : String) : Option String :=
  match document.get? name with
  | some (.str s) => if isDigest s then some s else none
  | _ => none

/-- `_frame_from_document`, `none` where it raises. -/
def frameFromDocument (document : Value) : Option FrameIdentity := do
  let chunkId ← evidenceText document "chunk_id"
  let connectionId ← evidenceText document "connection_id"
  let payloadSha256 ← digestField document "payload_sha256"
  let captureFlags ← (document.get? "capture_flags").bind textArray
  let sourceSequence ← (document.get? "source_sequence").bind sequenceDict
  let frameIndex ← evidenceInt document "frame_index"
  let receiveTimeUtcNs ← evidenceInt document "receive_time_utc_ns"
  let exchangeEventTimeNs ← optionalIntField (document.get? "exchange_event_time_ns")
  return { chunkId, frameIndex, connectionId, receiveTimeUtcNs, captureFlags, sourceSequence,
           payloadSha256, exchangeEventTimeNs }

/-! ## Chunks -/

/-- `frames[-2:]`. -/
def lastTwo (frames : List FrameIdentity) : List FrameIdentity := frames.drop (frames.length - 2)

/-- `_chunk_context_document`. -/
def chunkContextDocument (chunk : ChunkScan) : Value := .dict [
  ("frames", match chunk.frames with
    | some frames => .list ((lastTwo frames).map frameDocument)
    | none => .null),
  ("issue", match chunk.issue with
    | some issue => .str issue
    | none => .null),
  ("manifest", chunk.manifest)]

/-- The fields of a manifest that a continuation checks. -/
def contextManifestValid (manifest : Value) : Bool :=
  ["chunk_id", "market", "symbol", "stream"].all
    (fun name => (evidenceText manifest name).isSome) &&
  (evidenceInt manifest "created_at_utc_ns").isSome &&
  (evidenceInt manifest "record_count").isSome &&
  ((manifest.get? "connection_ids").bind textArray).isSome

/-- The frames of a chunk document; an array with something else than objects is passed over. -/
def contextFrames : Option Value → Except String (Option (List FrameIdentity))
  | none | some .null => .ok none
  | some (.list xs) =>
    if xs.all Value.isDict then
      match xs.mapM frameFromDocument with
      | none => .error "reconnect continuation frame is malformed"
      | some frames => .ok (some frames)
    else .ok none
  | some _ => .error "reconnect continuation chunk is malformed"

/-- `_chunk_from_context`. -/
def chunkFromContext (document : Value) : Except String ChunkScan :=
  match document.get? "manifest" with
  | some (.dict items) =>
    if contextManifestValid (.dict items) = false then
      .error "reconnect continuation manifest is malformed"
    else
      match contextFrames (document.get? "frames") with
      | .error e => .error e
      | .ok frames =>
        if (frames.getD []).any fun frame =>
            frame.chunkId ≠ manifestText (.dict items) "chunk_id" then
          .error "reconnect continuation frame identity is mixed"
        else .ok {
          manifest := .dict items
          frames := frames
          issue := optionalText document "issue"
          deepScanAllowed := false }
  | _ => .error "reconnect continuation chunk is malformed"

/-! ## Streams -/

/-- `INCREMENTAL_SCHEMA_VERSION`. -/
def incrementalSchemaVersion : String := "m22.9-reconnect-audit-continuation.v1"

def streamName (stream : StreamIdentity) : String :=
  s!"{stream.market}:{stream.symbol}:{stream.stream}"

/-- The stream of an entry. A name without a symbol is the one symbol that was recorded then. -/
def entryStream (name : String) (value : Value) : Option StreamIdentity := do
  let market ← optionalText value "market"
  let stream ← optionalText value "stream"
  let symbol ← match value.get? "symbol" with
    | none | some .null =>
      if name = s!"{market}:{stream}" then some legacySingleSymbol else none
    | some (.str symbol) => if name = streamName ⟨market, symbol, stream⟩ then some symbol else none
    | some _ => none
  if market = "" ∨ symbol = "" ∨ stream = "" then none
  else return ⟨market, symbol, stream⟩

/-- The chunks of an entry. -/
def entryChunks (stream : StreamIdentity) (xs : List Value) : Except String (List ChunkScan) := do
  let chunks ← (xs.filter Value.isDict).mapM chunkFromContext
  if chunks.length ≠ xs.length ∨ chunks.any fun chunk => manifestStream chunk.manifest ≠ stream then
    throw "reconnect continuation chunk list is malformed"
  return chunks

/-- One entry of the streams. -/
def streamEntry (name : String) (value : Value) :
    Except String (StreamIdentity × List ChunkScan) :=
  if value.isDict = false then .error "reconnect continuation stream is malformed"
  else
    match entryStream name value, value.get? "chunks" with
    | some stream, some (.list xs) => (entryChunks stream xs).map (stream, ·)
    | _, _ => .error "reconnect continuation stream identity is malformed"

/-- The manifest members of a continuation: digests under paths. -/
def validMembers : Option Value → Bool
  | some (.dict items) => items.all fun item =>
    item.1 ≠ "" && match item.2 with
      | .str digest => isDigest digest
      | _ => false
  | _ => false

/-- `_continuation_contexts`. -/
def continuationContexts :
    Option Value → Except String (SortedDict StreamIdentity (List ChunkScan))
  | none => .ok .empty
  | some continuation =>
    if continuation.get? "schema_version" ≠ some (.str incrementalSchemaVersion) then
      .error "reconnect continuation schema is invalid"
    else if validMembers (continuation.get? "manifest_members") = false then
      .error "reconnect continuation manifest inventory is malformed"
    else match continuation.get? "streams" with
      | some (.dict items) =>
        (items.mapM fun item => streamEntry item.1 item.2).map SortedDict.ofItems
      | _ => .error "reconnect continuation streams are malformed"

/-- `validate_incremental_continuation`. -/
def validateIncrementalContinuation (continuation : Value) : Except String Unit :=
  (continuationContexts (some continuation)).map fun _ => ()

/-- A new chunk in the contexts. -/
def addContext (contexts : SortedDict StreamIdentity (List ChunkScan)) (chunk : ChunkScan) :
    SortedDict StreamIdentity (List ChunkScan) :=
  let stream := manifestStream chunk.manifest
  let current := (contexts.get? stream).getD []
  contexts.insert stream
    (if zeroRecordChunk chunk then if current = [] then [] else current ++ [chunk] else [chunk])

/-- `_updated_contexts`. -/
def updatedContexts (prior : SortedDict StreamIdentity (List ChunkScan))
    (newChunks : List ChunkScan) : SortedDict StreamIdentity (List ChunkScan) :=
  newChunks.foldl addContext prior

/-- The entry of a stream. -/
def streamDocument (stream : StreamIdentity) (context : List ChunkScan) : Value := .dict [
  ("chunks", .list (context.map chunkContextDocument)),
  ("market", .str stream.market),
  ("stream", .str stream.stream),
  ("symbol", .str stream.symbol)]

/-- The continuation document. -/
def continuationDocument (members : SortedDict String String)
    (contexts : SortedDict StreamIdentity (List ChunkScan)) : Value := .dict [
  ("manifest_members", .dict (members.mapValues fun _ digest => Value.str digest).items),
  ("schema_version", .str incrementalSchemaVersion),
  ("streams", .dict (SortedDict.ofItems (contexts.items.map fun entry =>
    (streamName entry.1, streamDocument entry.1 entry.2))).items)]

/-! ## The boundary -/

/-- A row of the chunks, frozen in front of the scan: its chunk, its manifest once there is one, and
the other columns. -/
structure BoundaryRow where
  chunkId : String
  manifestPath : Option String
  columns : List (String × Value)

/-- `row.get(name)`. -/
def BoundaryRow.column (row : BoundaryRow) (name : String) : Value :=
  ((Value.dict row.columns).get? name).getD .null

/-- The Catalog of an observation. What its archive transactions and the copies outside say of a
missing source is a parameter. -/
structure BoundaryCatalog extends AuditCatalog where
  rows : List BoundaryRow
  sourceLifecycle : String → String → Except String String

/-- A manifest that an observation reads: its path, the digest of its bytes, its document. -/
structure ManifestRow where
  path : String
  sha256 : String
  manifest : Value

def ManifestRow.chunkId (row : ManifestRow) : String := manifestText row.manifest "chunk_id"

/-- The order of the inventory: by creation, then by chunk id. -/
def ManifestRow.before (a b : ManifestRow) : Prop :=
  manifestCreatedAt a.manifest < manifestCreatedAt b.manifest ∨
    manifestCreatedAt a.manifest = manifestCreatedAt b.manifest ∧ a.chunkId ≤ b.chunkId

instance : DecidableRel ManifestRow.before := fun _ _ => inferInstanceAs (Decidable (_ ∨ _))

/-- `strict_manifest_inventory` without the Raw, of manifests that are read strictly. -/
def strictManifestInventory (disk : List ManifestRow) : Except String (List ManifestRow) :=
  if (disk.map ManifestRow.chunkId).Nodup then .ok (disk.insertionSort ManifestRow.before)
  else .error "duplicate Raw manifest chunk_id"

/-- Whether a manifest takes part: one that a row names, any without a Catalog. -/
def observedPath : Option BoundaryCatalog → String → Bool
  | none, _ => true
  | some catalog, path => some path ∈ catalog.rows.map BoundaryRow.manifestPath

/-! ## Findings and losses -/

section

variable [Json.Reader] (catalog : BoundaryCatalog)

/-- The columns of a row that are compared, each with the field of the manifest. -/
def comparedColumns : List (String × String) := [
  ("record_count", "record_count"),
  ("sealed_path", "relative_path"),
  ("stored_bytes", "stored_bytes"),
  ("stored_sha256", "stored_sha256"),
  ("uncompressed_bytes", "uncompressed_bytes"),
  ("uncompressed_sha256", "uncompressed_sha256")]

/-- Whether a row disagrees with the manifests; a row without one has nothing to disagree with. -/
def BoundaryRow.disagrees (known : List String) (chunks : List ManifestRow) (row : BoundaryRow) :
    Bool :=
  match row.manifestPath with
  | none => false
  | some path =>
    if path ∉ known then true
    else match chunks.find? fun chunk => chunk.chunkId = row.chunkId with
      | none => false
      | some chunk => comparedColumns.any fun names =>
        row.column names.1 ≠ (chunk.manifest.get? names.2).getD .null

/-- The findings about the Catalog. Both queries read the events, and can raise. -/
def catalogFindings (known : List String) (chunks : List ManifestRow) :
    Except String (List String) := do
  let malformed ← catalog.events.malformedDiscontinuityEvents catalog.legacyIdentitySchema
  let degraded ← catalog.events.degradedClosedDiscontinuityPairs catalog.legacyIdentitySchema
  let findings :=
    (if malformed = [] then [] else ["malformed_discontinuity_authority"]) ++
      (if degraded = [] then [] else ["degraded_discontinuity_authority"]) ++
      (catalog.rows.filter (BoundaryRow.disagrees known chunks)).map fun row =>
        s!"catalog_manifest_disagreement:{row.chunkId}"
  return findings.dedup.insertionSort (· ≤ ·)

/-- A missing Raw file, and what is said of it. -/
structure RawLoss where
  chunkId : String
  manifestPath : String
  classification : String

/-- `_boundary_local_delete_authorized`. -/
def boundaryLocalDeleteAuthorized (row : BoundaryRow) (chunk : ManifestRow) : Bool :=
  row.column "archive_state" = .str ArchiveState.localDeleted.text &&
    row.column "state" = .str ChunkState.localDeleted.text &&
    (optionalText (.dict row.columns) "archive_transaction_id").isSome &&
    (row.column "archive_storage_id" ≠ .null && row.column "archive_storage_id" ≠ .str "") &&
    row.column "archive_chunk_id" = .str chunk.chunkId &&
    row.column "archive_source_relative_path" = (chunk.manifest.get? "relative_path").getD .null &&
    row.column "archive_source_manifest_relative_path" = .str chunk.path &&
    row.column "archive_source_manifest_sha256" = .str chunk.sha256 &&
    row.column "archive_stored_bytes" = (chunk.manifest.get? "stored_bytes").getD .null &&
    row.column "archive_stored_sha256" = (chunk.manifest.get? "stored_sha256").getD .null

/-- `_classify_missing_local_source`: with an invalid authority it raises. -/
def classifyMissingLocalSource (chunkId manifestPath : String) : Except String String := do
  let malformed ← catalog.events.malformedDiscontinuityEvents catalog.legacyIdentitySchema
  if malformed ≠ [] then throw "Catalog discontinuity authority is invalid"
  let degraded ← catalog.events.degradedClosedDiscontinuityPairs catalog.legacyIdentitySchema
  if degraded ≠ [] then throw "Catalog discontinuity authority is invalid"
  catalog.sourceLifecycle chunkId manifestPath

/-- The loss of a chunk of the boundary whose manifest is there and whose Raw is not. -/
def absenceLoss (chunk : ManifestRow) : Except String RawLoss := do
  -- the table has one row of a chunk; of several the last one would be taken
  let row := catalog.rows.reverse.find? fun row => row.chunkId = chunk.chunkId
  let classification ←
    if row.any fun row => boundaryLocalDeleteAuthorized row chunk then
      pure "AUTHORIZED_LOCAL_DELETE"
    else classifyMissingLocalSource catalog chunk.chunkId chunk.path
  return ⟨chunk.chunkId, chunk.path, classification⟩

/-- The chunks of the boundary whose Raw is missing, in the order of their manifests. -/
def absences (files : RawFiles) (disk : List ManifestRow) : List ManifestRow :=
  (disk.insertionSort fun a b => a.path ≤ b.path).filter fun chunk =>
    (files.read (manifestText chunk.manifest "relative_path")).isNone ∧
      chunk.chunkId ∈ catalog.rows.map BoundaryRow.chunkId

/-- The rows whose manifest is not there. -/
def lostRows (disk : List ManifestRow) : List (String × String) :=
  ((catalog.rows.filterMap fun row => row.manifestPath.map (row.chunkId, ·)).filter fun key =>
    key.2 ∉ disk.map ManifestRow.path).eraseDups

/-- The losses of an observation. -/
def rawLosses (files : RawFiles) (disk : List ManifestRow) : Except String (List RawLoss) := do
  let absent ← (absences catalog files disk).mapM (absenceLoss catalog)
  let lost ← (lostRows catalog disk).mapM fun key => do
    let classification ← classifyMissingLocalSource catalog key.1 key.2
    return RawLoss.mk key.1 key.2 classification
  return absent ++ lost

/-- The findings and the losses, none without a Catalog. -/
def boundaryChecks (catalog : Option BoundaryCatalog) (files : RawFiles) (known : List String)
    (chunks disk : List ManifestRow) : Except String (List String × List RawLoss) :=
  match catalog with
  | none => .ok ([], [])
  | some catalog => do
    let findings ← catalogFindings catalog known chunks
    let losses ← rawLosses catalog files disk
    return (findings, losses)

end

/-! ## An observation -/

def memberText (item : String × Value) : Option (String × String) :=
  match item.2 with
  | .str digest => some (item.1, digest)
  | _ => none

/-- The members that an earlier observation has seen. -/
def knownMembers : Option Value → Except String (List (String × String))
  | none => .ok []
  | some continuation =>
    match continuation.get? "manifest_members" with
    | some (.dict items) =>
      match items.mapM memberText with
      | none => .error "reconnect continuation manifest inventory is malformed"
      | some members => .ok members
    | _ => .error "reconnect continuation manifest inventory is malformed"

/-- The strict scan of a new chunk. -/
def scanNewChunk (files : RawFiles) (manifest : Value) : Except String ChunkScan :=
  let path := manifestText manifest "relative_path"
  if path = "" then .error "manifest lacks relative_path"
  else match files.read path with
    | none => .ok {
        manifest := manifest
        issue := some "sealed_file_missing_after_archival"
        deepScanAllowed := false }
    | some (.error _) => .error s!"strict Raw verification failed for {path}"
    | some (.ok envelopes) => .ok {
        manifest := manifest
        frames := some (scanChunkFrames manifest envelopes)
        deepScanAllowed := false }

/-- What an observation returns. -/
structure IncrementalReport where
  transitions : List Transition
  summaries : SortedDict StreamIdentity StreamSummary
  integrityFindings : List String
  catalogFindings : List String
  rawLoss : List RawLoss
  continuation : Value

/-- `incremental_audit_data_root`. -/
def incrementalAudit [Json.Reader] (files : RawFiles) (catalog : Option BoundaryCatalog)
    (continuation : Option Value) (disk : List ManifestRow) :
    Except String IncrementalReport := do
  let chunks ← strictManifestInventory disk
  -- rows that are committed behind the boundary are left to the next observation
  let observed := chunks.filter fun row => observedPath catalog row.path
  let members := SortedDict.ofItems (observed.map fun row => (row.path, row.sha256))
  let known ← knownMembers continuation
  let newRows := observed.filter fun row => row.path ∉ known.map Prod.fst
  let newChunks ← newRows.mapM fun row => scanNewChunk files row.manifest
  let prior ← continuationContexts continuation
  let newByStream := SortedDict.groupItems
    (newChunks.map fun chunk => (manifestStream chunk.manifest, chunk))
  -- each stream goes on from its context
  let auditChunks := newByStream.items.flatMap fun entry =>
    (prior.get? entry.1).getD [] ++ entry.2
  let (findings, losses) ← boundaryChecks catalog files members.keys chunks disk
  let report ← collectTransitions auditChunks files (catalog.map BoundaryCatalog.toAuditCatalog)
    (some (newChunks.map fun chunk => manifestText chunk.manifest "chunk_id"))
  return {
    transitions := report.transitions
    summaries := report.summaries
    integrityFindings := ((known.filter fun member =>
      members.get? member.1 ≠ some member.2).map Prod.fst).insertionSort (· ≤ ·)
    catalogFindings := findings
    rawLoss := losses
    continuation := continuationDocument members (updatedContexts prior newChunks) }

/-- A document, written and read back. -/
def readBack (document : Value) : Except String Value :=
  match Json.decode (Json.encodeValue document) with
  | none => .error "JSONDecodeError"
  | some document => .ok document

/-- What is there at an observation: the manifests, the rows of the Catalog, and what is known of
missing sources. -/
structure Observation where
  disk : List ManifestRow
  rows : List BoundaryRow
  sourceLifecycle : String → String → Except String String

/-- The Catalog, with the rows that it has at the observation. -/
def Observation.boundary (o : Observation) (catalog : Option AuditCatalog) :
    Option BoundaryCatalog :=
  catalog.map fun catalog =>
    { catalog with rows := o.rows, sourceLifecycle := o.sourceLifecycle }

/-- Observations one after another, each resumed from the document of the one before. -/
def observations [Json.Reader] (files : RawFiles) (catalog : Option AuditCatalog) :
    Option Value → List Observation → Except String (List IncrementalReport)
  | _, [] => .ok []
  | continuation, o :: os => do
    let report ← incrementalAudit files (o.boundary catalog) continuation o.disk
    let document ← readBack report.continuation
    let rest ← observations files catalog (some document) os
    return report :: rest

end MarketDataRecorder
