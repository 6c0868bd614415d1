import MarketDataRecorder.Lib.Fallible
import MarketDataRecorder.Normalize.Publish
import MarketDataRecorder.Replay.Model

/-!
# The replay catalog

`replay/catalog.py`: `open_build` reads a published manifest, computes its identity anew and
verifies its partitions and its checkpoints, with rules of its own.
-/

namespace MarketDataRecorder

/-! ## Fields -/

/-- `_object`. -/
def catalogObject (value : Value) (name : String) : Except String Value :=
  if value.isDict then .ok value else .error (name ++ " must be an object")

/-- `_array`. -/
def catalogArray (value : Option Value) (name : String) : Except String (List Value) :=
  match value with
  | some (.list items) => .ok items
  | _ => .error (name ++ " must be an array")

/-- `_text`. -/
def catalogText (value : Value) (name : String) : Except String String :=
  match value.get? name with
  | some (.str text) => if text = "" then .error (name ++ " must be non-empty text") else .ok text
  | _ => .error (name ++ " must be non-empty text")

/-- `_integer`. -/
def catalogInteger (value : Value) (name : String) : Except String Nat :=
  match value.get? name with
  | some (.int (.ofNat n)) => .ok n
  | _ => .error (name ++ " must be a non-negative integer")

/-- `_sha256`. -/
def catalogSha256 (value : Value) (name : String) : Except String String := do
  let text ← catalogText value name
  if isDigest text then return text else throw (name ++ " must be lowercase SHA-256")

/-- An item of `_sha_list`. -/
def shaItem (name : String) : Value → Except String String
  | .str text => catalogSha256 (.dict [(name, .str text)]) name
  | _ => .error (name ++ " must contain strings")

/-- `_sha_list`. -/
def catalogShaList (value : Option Value) (name : String) : Except String (List String) := do
  let items ← catalogArray value name
  let output ← items.mapM (shaItem name)
  if output ≠ sortedSet output then throw (name ++ " must be sorted and unique") else return output

/-- `_safe_path`. -/
def safePath (value : Option Value) : Except String String :=
  match value with
  | some (.str relative) =>
    if relative = "" then .error "manifest relative path is invalid"
    else match RelativePath.locate relative with
      | some location => .ok location
      | none => .error "manifest path escapes Recorder data root"
  | _ => .error "manifest relative path is invalid"

/-- `_decode`. -/
def decodeManifest (root : DataRoot) (path schema : String) : Except String Value :=
  match (root.documents.get? path).bind JsonFile.document with
  | none => .error ("cannot read manifest " ++ path)
  | some document =>
    if document.isDict = false then .error (path ++ " must be an object")
    else if document.get? "schema_version" ≠ some (.str schema) then
      .error ("unsupported manifest schema in " ++ path)
    else .ok document

/-! ## Identity -/

/-- A raw source, as the identity takes it. -/
def identityOfSource (item : Value) : Except String Value := do
  let item ← catalogObject item "raw source"
  let chunkId ← catalogText item "chunk_id"
  let manifestSha256 ← catalogSha256 item "manifest_sha256"
  let storedSha256 ← catalogSha256 item "stored_sha256"
  let uncompressedSha256 ← catalogSha256 item "uncompressed_sha256"
  return .dict [
    ("chunk_id", .str chunkId),
    ("manifest_sha256", .str manifestSha256),
    ("stored_sha256", .str storedSha256),
    ("uncompressed_sha256", .str uncompressedSha256)]

/-- A checkpoint entry, as the identity takes it. -/
def identityOfCheckpoint (item : Value) : Except String Value := do
  let item ← catalogObject item "checkpoint entry"
  let checkpointId ← catalogText item "checkpoint_id"
  let fileSha256 ← catalogSha256 item "file_sha256"
  return .dict [("checkpoint_id", .str checkpointId), ("file_sha256", .str fileSha256)]

/-- The version of the deduplication, which identities of the first version do not contain. -/
def identityVersion (document : Value) : Except String (List (String × Value)) :=
  if document.get? "dedup_version" = some (.str "normalized-dedup.v2") then
    .ok [("dedup_version", .str "normalized-dedup.v2")]
  else if document.get? "dedup_version" = some (.str "normalized-dedup.v1") then .ok []
  else .error "unsupported normalized dedup version"

def selectionKeys : List String :=
  ["checkpoint_scope", "end_utc_ns", "products", "schema_version", "start_utc_ns"]

/-- A time bound of a selection. -/
def selectionBound (selection : Value) (name : String) : Except String (Option Int) :=
  match selection.get? name with
  | some .null => .ok none
  | some (.int i) => .ok (some i)
  | _ => .error "normalization time bound must be an integer"

def productPair : Value → Option (String × String)
  | .list [.str market, .str symbol] =>
    if market = "" ∨ symbol = "" then none else some (market, symbol)
  | _ => none

/-- The products of a selection are pairs of texts in ascending order. -/
def validProducts : Option Value → Bool
  | some .null => true
  | some (.list items) =>
    match items.mapM productPair with
    | none => false
    | some pairs => decide ((pairs.map toLex).Pairwise (· ≤ ·))
  | _ => false

/-- The keys of a document. -/
def documentKeys : Value → List String
  | .dict items => items.map Prod.fst
  | _ => []

/-- The checks of an input selection. -/
def checkSelection (selection : Value) (checkpoints : List Value) : Except String Unit :=
  if documentKeys selection ≠ selectionKeys ∨
      selection.get? "schema_version" ≠ some (.str "normalization-input-selection.v1") ∨
      selection.get? "checkpoint_scope" ≠ some (.str "none") ∨ checkpoints ≠ [] then
    .error "unsupported normalization input selection"
  else do
    let first ← selectionBound selection "start_utc_ns"
    let last ← selectionBound selection "end_utc_ns"
    if first.any fun a => last.any fun b => b ≤ a then
      throw "normalization input range is reversed"
    else if validProducts (selection.get? "products") = false then
      throw "normalization product selection is malformed"
    else return ()

/-- `_build_identity`. -/
def buildIdentity (document : Value) : Except String String := do
  let rawSources ← catalogArray (document.get? "raw_sources") "raw_sources"
  let checkpoints ← catalogArray (document.get? "checkpoints") "checkpoints"
  let sources ← rawSources.mapM identityOfSource
  let entries ← checkpoints.mapM identityOfCheckpoint
  let version ← identityVersion document
  let source := documentHash (.dict ([
    ("checkpoints", .list entries),
    ("dataset_version", fieldOrNull document "dataset_version")] ++ version ++ [
    ("raw_sources", .list sources)]))
  match document.get? "input_selection" with
  | none => return source
  | some selection =>
    let selection ← catalogObject selection "input_selection"
    checkSelection selection checkpoints
    return documentHash (.dict [("input_selection", selection), ("source_build_id", .str source)])

/-- What `_summary` collects. -/
structure CatalogSummary where
  buildId : String
  datasetVersion : String
  dedupVersion : String
  parquetProfile : String
  partitionCount : Nat
  normalizedRows : Nat
  sourceChunkCount : Nat
  checkpointCount : Nat

/-- `_summary`. -/
def catalogSummary (document : Value) (version : String) : Except String CatalogSummary :=
  if document.get? "dataset_version" ≠ some (.str version) then
    .error "unsupported normalized dataset version"
  else do
    let buildId ← catalogSha256 document "build_id"
    let identity ← buildIdentity document
    if identity ≠ buildId then throw "normalized build identity mismatch"
    else
      let partitions ← catalogArray (document.get? "partitions") "partitions"
      let rawSources ← catalogArray (document.get? "raw_sources") "raw_sources"
      let checkpoints ← catalogArray (document.get? "checkpoints") "checkpoints"
      let partitionCount ← catalogInteger document "partition_count"
      if partitionCount ≠ partitions.length then throw "normalized partition count mismatch"
      else
        let dedup ← catalogText document "dedup_version"
        let profile ← catalogText document "parquet_profile"
        let normalizedRows ← catalogInteger document "normalized_rows"
        return {
          buildId := buildId
          datasetVersion := version
          dedupVersion := dedup
          parquetProfile := profile
          partitionCount := partitionCount
          normalizedRows := normalizedRows
          sourceChunkCount := rawSources.length
          checkpointCount := checkpoints.length }

/-! ## Partitions and checkpoints -/

/-- `PartitionDescriptor`. -/
structure PartitionDescriptor where
  market : String
  stream : String
  date : String
  hour : String
  schemaVersion : String
  logicalSha256 : String
  storedSha256 : String
  storedBytes : Nat
  rowCount : Nat
  receiveTimeUtcMinNs : Nat
  receiveTimeUtcMaxNs : Nat
  sourceChunkHashes : List String

/-- The fields that a build entry repeats from the manifest of its partition. -/
def repeatedFields : List String :=
  ["market", "stream", "date", "hour", "relative_path", "logical_sha256", "stored_sha256",
    "stored_bytes", "row_count", "source_chunk_hashes"]

/-- The checks of a partition manifest against the entry and the build. -/
def checkPartition (build : CatalogSummary) (entry manifest : Value) : Except String Unit :=
  match repeatedFields.find? fun field => entry.get? field ≠ manifest.get? field with
  | some field => .error ("partition build/manifest mismatch: " ++ field)
  | none =>
    if manifest.get? "dataset_version" ≠ some (.str build.datasetVersion) then
      .error "partition dataset version mismatch"
    else if manifest.get? "dedup_version" ≠ some (.str build.dedupVersion) then
      .error "partition dedup version mismatch"
    else if manifest.get? "parquet_profile" ≠ some (.str build.parquetProfile) then
      .error "partition writer profile mismatch"
    else .ok ()

/-- `_partition`. -/
def catalogPartition (root : DataRoot) (build : CatalogSummary) (value : Value) :
    Except String PartitionDescriptor := do
  let entry ← catalogObject value "partition entry"
  let artifactPath ← safePath (entry.get? "relative_path")
  let manifestPath ← safePath (entry.get? "manifest_relative_path")
  let manifest ← decodeManifest root manifestPath partitionManifestSchema
  checkPartition build entry manifest
  match root.artifacts.get? artifactPath with
  | none => throw "normalized partition artifact is unavailable"
  | some content =>
    let storedBytes ← catalogInteger manifest "stored_bytes"
    if content.length ≠ storedBytes then throw "normalized partition size mismatch"
    else
      let storedSha256 ← catalogSha256 manifest "stored_sha256"
      if Checksum.sha256Hex content ≠ storedSha256 then
        throw "normalized partition SHA-256 mismatch"
      else
        let market ← catalogText manifest "market"
        let stream ← catalogText manifest "stream"
        let date ← catalogText manifest "date"
        let hour ← catalogText manifest "hour"
        let schemaVersion ← catalogText manifest "stream_schema_version"
        let logicalSha256 ← catalogSha256 manifest "logical_sha256"
        let rowCount ← catalogInteger manifest "row_count"
        let receiveTimeUtcMinNs ← catalogInteger manifest "receive_time_utc_min_ns"
        let receiveTimeUtcMaxNs ← catalogInteger manifest "receive_time_utc_max_ns"
        let hashes ← catalogShaList (manifest.get? "source_chunk_hashes") "source_chunk_hashes"
        return {
          market := market
          stream := stream
          date := date
          hour := hour
          schemaVersion := schemaVersion
          logicalSha256 := logicalSha256
          storedSha256 := storedSha256
          storedBytes := storedBytes
          rowCount := rowCount
          receiveTimeUtcMinNs := receiveTimeUtcMinNs
          receiveTimeUtcMaxNs := receiveTimeUtcMaxNs
          sourceChunkHashes := hashes }

/-- The book of a checkpoint document, with its hash. -/
def checkpointBook (document entry : Value) : Except String OrderBook :=
  match document.get? "book" with
  | some (.dict items) =>
    match OrderBook.fromMapping (.dict items) with
    | .error _ => .error "checkpoint book is invalid"
    | .ok book => do
      let bookHash ← catalogSha256 document "book_hash"
      if book.logicalHash ≠ bookHash ∨ entry.get? "book_hash" ≠ some (.str bookHash) then
        throw "checkpoint book hash mismatch"
      else return book
  | _ => .error "checkpoint book must be an object"

/-- The provenance of a checkpoint document: its sources, within the build, and its intervals. -/
def checkpointLineage (document entry : Value) (buildSourceHashes : List String) :
    Except String Unit := do
  let hashes ← catalogShaList (document.get? "source_chunk_hashes") "source_chunk_hashes"
  if ¬ hashes ⊆ buildSourceHashes then throw "checkpoint source is outside selected build"
  else if entry.get? "source_chunk_hashes" ≠ some (.list (hashes.map .str)) then
    throw "checkpoint source lineage differs from build"
  else
    let intervals ← catalogArray (document.get? "unreliable_intervals") "unreliable_intervals"
    let _ ← intervals.mapM fun interval => catalogObject interval "gap interval"
    let _ ← catalogText document "algorithm_version"
    let _ ← catalogInteger document "created_at_utc_ns"
    return ()

/-- The identity of a checkpoint document, against its entry. -/
def checkpointIdentity (document entry : Value) : Except String String := do
  let checkpointId ← catalogText document "checkpoint_id"
  let entryId ← catalogText entry "checkpoint_id"
  if checkpointId ≠ entryId then throw "checkpoint identity differs from build"
  else
    let expected ← catalogSha256 document "checkpoint_sha256"
    if documentHash (withoutKey document "checkpoint_sha256") ≠ expected then
      throw "checkpoint document hash mismatch"
    else if entry.get? "checkpoint_sha256" ≠ some (.str expected) then
      throw "checkpoint hash differs from build"
    else return checkpointId

/-- The document of a checkpoint entry. -/
def checkpointDocument (root : DataRoot) (entry : Value) : Except String Value := do
  let path ← safePath (entry.get? "relative_path")
  match root.documents.get? path with
  | none => throw "checkpoint artifact is unavailable"
  | some file =>
    let fileSha256 ← catalogSha256 entry "file_sha256"
    if Checksum.sha256Hex file.content ≠ fileSha256 then throw "checkpoint file SHA-256 mismatch"
    else match file.document with
      | none => throw "checkpoint document is invalid"
      | some document =>
        if document.isDict = false then throw "checkpoint must be an object"
        else if document.get? "schema_version" ≠ some (.str checkpointSchema) then
          throw "unsupported checkpoint schema"
        else if document.get? "algorithm_version" ≠ some (.str reconstructorVersion) then
          throw "unsupported checkpoint algorithm"
        else return document

/-- `_checkpoint`. -/
def catalogCheckpoint (root : DataRoot) (buildSourceHashes : List String) (value : Value) :
    Except String CheckpointDescriptor := do
  let entry ← catalogObject value "checkpoint entry"
  let document ← checkpointDocument root entry
  let checkpointId ← checkpointIdentity document entry
  let book ← checkpointBook document entry
  checkpointLineage document entry buildSourceHashes
  return {
    checkpointId := checkpointId
    market := book.market.text
    symbol := book.symbol
    updateId := book.updateId }

/-! ## Opening -/

structure CatalogBuild where
  summary : CatalogSummary
  partitions : List PartitionDescriptor
  checkpoints : List CheckpointDescriptor

/-- `open_build`. -/
def openBuild (root : DataRoot) (buildId : String) : Except String CatalogBuild :=
  if isDigest buildId = false then .error "build_id must be lowercase SHA-256"
  else if root.documents.get? (buildManifestPath buildId) = none then
    .error ("normalized build is unavailable: " ++ buildId)
  else do
    let document ← decodeManifest root (buildManifestPath buildId) buildManifestSchema
    let summary ← catalogSummary document datasetVersion
    if summary.buildId ≠ buildId then throw "selected build identity mismatch"
    else
      let entries ← catalogArray (document.get? "partitions") "partitions"
      let partitions ← entries.mapM (catalogPartition root summary)
      if (partitions.map PartitionDescriptor.rowCount).sum ≠ summary.normalizedRows then
        throw "build normalized row count mismatch"
      else
        let rawSources ← catalogArray (document.get? "raw_sources") "raw_sources"
        let hashes ← rawSources.mapM fun item => do
          let item ← catalogObject item "raw source"
          catalogSha256 item "uncompressed_sha256"
        let listed ← catalogArray (document.get? "checkpoints") "checkpoints"
        let checkpoints ← listed.mapM (catalogCheckpoint root hashes)
        return { summary := summary, partitions := partitions, checkpoints := checkpoints }

end MarketDataRecorder
