import MarketDataRecorder.Lib.RelativePath
import MarketDataRecorder.Normalize.Candidate
import MarketDataRecorder.Orderbook.Checkpoint

/-!
# Publishing a build

The last part of `normalize/pipeline.py`: every partition is committed under its content hash, the
checkpoints of the data root are listed, and a manifest binds them and the raw
sources to a build id.
-/

namespace MarketDataRecorder

/-! ## Files -/

/-- A JSON file: its bytes, and the document that they are the text of, if they are one. -/
structure JsonFile where
  content : Bytes
  document : Option Value
  deriving DecidableEq

/-- The files of a data root, under their paths relative to it. -/
structure DataRoot where
  documents : SortedDict String JsonFile
  artifacts : SortedDict String Bytes

/-- `layout.relative`. -/
def relativePath (path : String) : Except String String :=
  match RelativePath.locate path with
  | some location => .ok location
  | none => .error (path ++ " is not in the subpath of the data root")

/-- The file that a document is written to. -/
def jsonFile (document : Value) : JsonFile :=
  ⟨Cbor.utf8 (canonicalJsonText document ++ "\n"), some document⟩

/-- `_atomic_json`. -/
def Normalize.atomicJson (root : DataRoot) (path : String) (document : Value) :
    Except String DataRoot :=
  match root.documents.get? path with
  | some file =>
    if file = jsonFile document then .ok root
    else .error ("existing immutable manifest differs: " ++ path)
  | none => .ok { root with documents := root.documents.insert path (jsonFile document) }

/-! ## Inputs -/

/-- A source chunk that was loaded: its header names it, and its hashes were computed anew. -/
structure RawSource where
  chunkId : String
  manifestRelativePath : String
  manifestSha256 : String
  storedSha256 : String
  uncompressedSha256 : String
  chunkId_ne : chunkId ≠ ""
  manifestSha256_digest : isDigest manifestSha256 = true
  storedSha256_digest : isDigest storedSha256 = true
  uncompressedSha256_digest : isDigest uncompressedSha256 = true

/-- What a restricted build is restricted to. -/
structure BuildSelection where
  products : Option (Finset (String ×ₗ String)) := none
  startUtcNs : Option Int := none
  endUtcNs : Option Int := none
  manifestPaths : Bool := false
  range : ∀ first ∈ startUtcNs, ∀ last ∈ endUtcNs, first < last := by decide

def BuildSelection.restricts (selection : BuildSelection) : Bool :=
  selection.products.isSome || selection.startUtcNs.isSome || selection.endUtcNs.isSome ||
    selection.manifestPaths

/-- A line of a partition spool: the row, with the columns that the statistics look at. -/
structure SpoolRow where
  document : Value
  duplicateCount : Nat
  identityConflict : Bool
  receiveTimeUtcNs : Nat
  sourceChunkSha256 : String
  /-- The source hashes of `duplicate_sources_json`. -/
  sources : List String

structure PartitionSpool where
  market : String
  stream : String
  date : String
  hour : Nat
  first : SpoolRow
  rest : List SpoolRow
  market_ne : market ≠ ""
  stream_ne : stream ≠ ""
  date_ne : date ≠ ""

namespace PartitionSpool

variable (spool : PartitionSpool)

def rows : List SpoolRow := spool.first :: spool.rest

def hourText : String := zeroPadded 2 spool.hour

def rowHashes : List String :=
  spool.rows.flatMap fun row => row.sourceChunkSha256 :: row.sources

end PartitionSpool

/-- What a build is made from: the chunks, and the spools with the rows of their records. -/
structure BuildInput where
  chunks : List RawSource
  spools : List PartitionSpool
  hashes_mem : ∀ spool ∈ spools, ∀ hash ∈ spool.rowHashes,
    ∃ chunk ∈ chunks, chunk.uncompressedSha256 = hash

/-- The writer and the reader of Parquet files. -/
structure Parquet where
  write : String → String → List Value → Bytes
  read : Bytes → List Value

/-! ## Partitions -/

/-- The hash of rows, a line for each. -/
def logicalRowsHash (rows : List Value) : String :=
  Checksum.sha256Hex (rows.flatMap fun row => Cbor.utf8 (canonicalJsonText row ++ "\n"))

structure PartitionStatistics where
  logicalSha256 : String
  rowCount : Nat
  inputCandidateCount : Nat
  identityConflicts : Nat
  sourceChunkHashes : List String
  receiveTimeUtcMinNs : Nat
  receiveTimeUtcMaxNs : Nat

/-- `_partition_statistics`. -/
def partitionStatistics (spool : PartitionSpool) : Except String PartitionStatistics :=
  if spool.rows.any fun row => row.duplicateCount < 1 then
    .error "partition work row has invalid statistics"
  else .ok {
    logicalSha256 := logicalRowsHash (spool.rows.map SpoolRow.document)
    rowCount := spool.rows.length
    inputCandidateCount := (spool.rows.map SpoolRow.duplicateCount).sum
    identityConflicts := spool.rows.countP SpoolRow.identityConflict
    sourceChunkHashes := sortedSet spool.rowHashes
    receiveTimeUtcMinNs :=
      (spool.rest.map SpoolRow.receiveTimeUtcNs).foldl min spool.first.receiveTimeUtcNs
    receiveTimeUtcMaxNs :=
      (spool.rest.map SpoolRow.receiveTimeUtcNs).foldl max spool.first.receiveTimeUtcNs }

/-- `_PartitionResult`. -/
structure PartitionResult where
  market : String
  stream : String
  date : String
  hour : String
  relativePath : String
  manifestRelativePath : String
  logicalSha256 : String
  storedSha256 : String
  storedBytes : Nat
  rowCount : Nat
  inputCandidateCount : Nat
  duplicateRowsRemoved : Int
  identityConflicts : Nat
  sourceChunkHashes : List String

/-- `build_entry`. -/
def PartitionResult.buildEntry (result : PartitionResult) : Value := .dict [
  ("date", .str result.date),
  ("duplicate_rows_removed", .int result.duplicateRowsRemoved),
  ("hour", .str result.hour),
  ("identity_conflicts", .int result.identityConflicts),
  ("input_candidate_count", .int result.inputCandidateCount),
  ("logical_sha256", .str result.logicalSha256),
  ("manifest_relative_path", .str result.manifestRelativePath),
  ("market", .str result.market),
  ("relative_path", .str result.relativePath),
  ("row_count", .int result.rowCount),
  ("source_chunk_hashes", .list (result.sourceChunkHashes.map .str)),
  ("stored_bytes", .int result.storedBytes),
  ("stored_sha256", .str result.storedSha256),
  ("stream", .str result.stream)]

def parquetProfile : String := "bmdr-parquet.v1"

def partitionManifestSchema : String := "normalized-partition-manifest.v1"

def buildManifestSchema : String := "normalized-build-manifest.v1"

/-- The manifest of a committed partition. -/
def partitionManifest (result : PartitionResult) (statistics : PartitionStatistics) :
    Value := .dict [
  ("dataset_version", .str datasetVersion),
  ("date", .str result.date),
  ("dedup_version", .str dedupVersion),
  ("duplicate_rows_removed", .int result.duplicateRowsRemoved),
  ("hour", .str result.hour),
  ("identity_conflicts", .int result.identityConflicts),
  ("input_candidate_count", .int result.inputCandidateCount),
  ("logical_sha256", .str result.logicalSha256),
  ("market", .str result.market),
  ("parquet_profile", .str parquetProfile),
  ("receive_time_utc_max_ns", .int statistics.receiveTimeUtcMaxNs),
  ("receive_time_utc_min_ns", .int statistics.receiveTimeUtcMinNs),
  ("relative_path", .str result.relativePath),
  ("row_count", .int result.rowCount),
  ("schema_version", .str partitionManifestSchema),
  ("source_chunk_hashes", .list (result.sourceChunkHashes.map .str)),
  ("stored_bytes", .int result.storedBytes),
  ("stored_sha256", .str result.storedSha256),
  ("stream", .str result.stream),
  ("stream_schema_version", .str (normalizedSchemaVersion result.market result.stream))]

/-- `SUPPORTED_STREAMS`. -/
def supportedStreams : List (String × List String) := [
  ("spot", ["diff_depth", "agg_trade", "book_ticker", "depth_snapshot", "exchange_info"]),
  ("um_perpetual", ["diff_depth", "agg_trade", "book_ticker", "depth_snapshot", "mark_price",
    "liquidation", "premium_index_snapshot", "funding_history", "funding_info", "open_interest",
    "exchange_info", "open_interest_statistics_5m", "taker_buy_sell_volume_5m",
    "global_long_short_ratio_5m", "top_long_short_account_ratio_5m",
    "top_long_short_position_ratio_5m", "basis_5m"])]

/-- `public_observation_stream`. -/
def publicObservationStream (stream : String) : Bool :=
  stream = "rest_observations" ||
    ["ws_public_", "ws_market_"].any fun start => start.toList.isPrefixOf stream.toList

/-- What `schema_for` accepts. -/
def hasSchema (market stream : String) : Bool :=
  ((supportedStreams.lookup market).getD []).contains stream || publicObservationStream stream

def normalizedRoot : String := "data/normalized/" ++ datasetVersion

/-- The directory of a partition. -/
def PartitionSpool.directory (spool : PartitionSpool) : String :=
  normalizedRoot ++ "/artifacts/market=" ++ spool.market ++ "/stream=" ++ spool.stream ++
    "/date=" ++ spool.date ++ "/hour=" ++ spool.hourText

/-- The Parquet file of a partition: the one that is there, or a new one that reads back. -/
def partitionArtifact (parquet : Parquet) (root : DataRoot) (spool : PartitionSpool)
    (logicalSha256 location : String) : Except String (DataRoot × Bytes) :=
  match root.artifacts.get? location with
  | some content => .ok (root, content)
  | none =>
    if hasSchema spool.market spool.stream = false then
      .error ("unsupported normalized stream " ++ spool.market ++ "/" ++ spool.stream)
    else
      let content := parquet.write spool.market spool.stream (spool.rows.map SpoolRow.document)
      if logicalRowsHash (parquet.read content) ≠ logicalSha256 then
        .error "Parquet logical readback hash mismatch"
      else .ok ({ root with artifacts := root.artifacts.insert location content }, content)

/-- `_commit_partition`. -/
def commitPartition (parquet : Parquet) (root : DataRoot) (spool : PartitionSpool) :
    Except String (DataRoot × PartitionResult) := do
  let statistics ← partitionStatistics spool
  let target ← relativePath (spool.directory ++ "/part-" ++ statistics.logicalSha256 ++ ".parquet")
  let manifestPath ←
    relativePath (spool.directory ++ "/part-" ++ statistics.logicalSha256 ++ ".manifest.json")
  let (root, content) ← partitionArtifact parquet root spool statistics.logicalSha256 target
  -- The artifact is read back, also where it was there already.
  if logicalRowsHash (parquet.read content) ≠ statistics.logicalSha256 ∨
      (parquet.read content).length ≠ statistics.rowCount then
    throw "existing Parquet artifact has different logical rows"
  else
    let result : PartitionResult := {
      market := spool.market
      stream := spool.stream
      date := spool.date
      hour := spool.hourText
      relativePath := target
      manifestRelativePath := manifestPath
      logicalSha256 := statistics.logicalSha256
      storedSha256 := Checksum.sha256Hex content
      storedBytes := content.length
      rowCount := statistics.rowCount
      inputCandidateCount := statistics.inputCandidateCount
      duplicateRowsRemoved := statistics.inputCandidateCount - statistics.rowCount
      identityConflicts := statistics.identityConflicts
      sourceChunkHashes := statistics.sourceChunkHashes }
    let root ← Normalize.atomicJson root manifestPath (partitionManifest result statistics)
    return (root, result)

def commitPartitions (parquet : Parquet) :
    DataRoot → List PartitionSpool → Except String (DataRoot × List PartitionResult)
  | root, [] => .ok (root, [])
  | root, spool :: spools => do
    let (root, result) ← commitPartition parquet root spool
    let (root, results) ← commitPartitions parquet root spools
    return (root, result :: results)

/-! ## Checkpoints -/

/-- `glob("*.orderbook.json")` in the directory of the checkpoints. -/
def isCheckpointPath (path : String) : Bool :=
  "data/checkpoints/".toList.isPrefixOf path.toList &&
    (let name := path.toList.drop "data/checkpoints/".length
     ".orderbook.json".toList.isSuffixOf name && !name.contains '/')

def checkpointFiles (root : DataRoot) : List (String × JsonFile) :=
  root.documents.items.filter fun item => isCheckpointPath item.1

/-- `document.get(key)`, as JSON writes it. -/
def fieldOrNull (document : Value) (key : String) : Value := (document.get? key).getD .null

/-- The entry of a checkpoint in the manifest. -/
def checkpointEntry (path : String) (content : Bytes) (document : Value) : Value := .dict [
  ("algorithm_version", fieldOrNull document "algorithm_version"),
  ("book_hash", fieldOrNull document "book_hash"),
  ("checkpoint_id", fieldOrNull document "checkpoint_id"),
  ("checkpoint_sha256", fieldOrNull document "checkpoint_sha256"),
  ("file_sha256", .str (Checksum.sha256Hex content)),
  ("relative_path", .str path),
  ("schema_version", fieldOrNull document "schema_version"),
  ("source_chunk_hashes", fieldOrNull document "source_chunk_hashes"),
  ("unreliable_intervals", fieldOrNull document "unreliable_intervals")]

/-- A round of the loop of `_checkpoint_entries`. -/
def checkpointEntryOf (item : String × JsonFile) : Except String Value :=
  match restoreCheckpoint item.2.document with
  | .error e => .error ("checkpoint verification failed for " ++ item.1 ++ ": " ++ e)
  | .ok _ => .ok (checkpointEntry item.1 item.2.content (item.2.document.getD .null))

/-- `_checkpoint_entries`. -/
def checkpointEntries (root : DataRoot) : Except String (List Value) :=
  (checkpointFiles root).mapM checkpointEntryOf

/-! ## The build -/

def identitySource (chunk : RawSource) : Value := .dict [
  ("chunk_id", .str chunk.chunkId),
  ("manifest_sha256", .str chunk.manifestSha256),
  ("stored_sha256", .str chunk.storedSha256),
  ("uncompressed_sha256", .str chunk.uncompressedSha256)]

def identityCheckpoint (entry : Value) : Value := .dict [
  ("checkpoint_id", fieldOrNull entry "checkpoint_id"),
  ("file_sha256", fieldOrNull entry "file_sha256")]

/-- `_build_id`. -/
def sourceBuildId (chunks : List RawSource) (checkpoints : List Value) : String :=
  documentHash (.dict [
    ("checkpoints", .list (checkpoints.map identityCheckpoint)),
    ("dataset_version", .str datasetVersion),
    ("dedup_version", .str dedupVersion),
    ("raw_sources", .list (chunks.map identitySource))])

def optionalBound : Option Int → Value
  | none => .null
  | some i => .int i

/-- The sorted products of a selection. -/
def productsValue : Option (Finset (String ×ₗ String)) → Value
  | none => .null
  | some products => .list ((products.sort (· ≤ ·)).map fun product =>
      .list [.str (ofLex product).1, .str (ofLex product).2])

def selectionDocument (selection : BuildSelection) : Value := .dict [
  ("checkpoint_scope", .str "none"),
  ("end_utc_ns", optionalBound selection.endUtcNs),
  ("products", productsValue selection.products),
  ("schema_version", .str "normalization-input-selection.v1"),
  ("start_utc_ns", optionalBound selection.startUtcNs)]

/-- The id of a build: a restricted one binds its selection as well. -/
def buildIdOf (selection : BuildSelection) (chunks : List RawSource) (checkpoints : List Value) :
    String :=
  let source := sourceBuildId chunks checkpoints
  if selection.restricts then
    documentHash (.dict [("input_selection", selectionDocument selection),
      ("source_build_id", .str source)])
  else source

def sourceEntry (chunk : RawSource) : Value := .dict [
  ("chunk_id", .str chunk.chunkId),
  ("manifest_relative_path", .str chunk.manifestRelativePath),
  ("manifest_sha256", .str chunk.manifestSha256),
  ("stored_sha256", .str chunk.storedSha256),
  ("uncompressed_sha256", .str chunk.uncompressedSha256)]

/-- The manifest of a build. -/
def buildManifest (selection : BuildSelection) (chunks : List RawSource) (checkpoints : List Value)
    (results : List PartitionResult) : Value := .dict ([
  ("build_id", .str (buildIdOf selection chunks checkpoints)),
  ("checkpoints", .list checkpoints),
  ("dataset_version", .str datasetVersion),
  ("dedup_version", .str dedupVersion),
  ("duplicate_rows_removed", .int (results.map PartitionResult.duplicateRowsRemoved).sum),
  ("identity_conflicts", .int (results.map PartitionResult.identityConflicts).sum),
  ("input_candidate_count", .int (results.map PartitionResult.inputCandidateCount).sum)] ++
  (if selection.restricts then [("input_selection", selectionDocument selection)] else []) ++ [
  ("normalized_rows", .int (results.map PartitionResult.rowCount).sum),
  ("parquet_profile", .str parquetProfile),
  ("partition_count", .int results.length),
  ("partitions", .list (results.map PartitionResult.buildEntry)),
  ("raw_sources", .list (chunks.map sourceEntry)),
  ("schema_version", .str buildManifestSchema)])

def buildManifestPath (buildId : String) : String :=
  normalizedRoot ++ "/builds/" ++ buildId ++ ".manifest.json"

/-- `_run_locked`, from the loaded chunks and the spools on: the data root and the id of the build,
nothing where there is no chunk. -/
def publishBuild (parquet : Parquet) (root : DataRoot) (selection : BuildSelection)
    (input : BuildInput) : Except String (Option (DataRoot × String)) :=
  if input.chunks = [] then .ok none
  else do
    let checkpoints ← if selection.restricts then .ok [] else checkpointEntries root
    let buildId := buildIdOf selection input.chunks checkpoints
    let (root, results) ← commitPartitions parquet root input.spools
    let root ← Normalize.atomicJson root (buildManifestPath buildId)
      (buildManifest selection input.chunks checkpoints results)
    return some (root, buildId)

end MarketDataRecorder
