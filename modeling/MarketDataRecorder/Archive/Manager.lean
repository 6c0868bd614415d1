import MarketDataRecorder.Archive.Volume

/-!
# The archive manager

`archive/manager.py`: the transaction of one sealed chunk. Its bytes are copied to the registered
target, read back and renamed, an external manifest is published next to them, and only behind the
Catalog's `VERIFIED` is the internal source deleted. Every step can be taken up again after a stop.

Syncs on the target change nothing that is visible and are left out; the sync behind the deletion
of the source is a write of its own.
-/

namespace MarketDataRecorder

/-- `uuid`, `hashlib`, `json`, `base64` and `zstandard`, and the pieces in which files
are written. -/
structure ArchiveLibrary where
  /-- `uuid.uuid5` of the namespace of URLs. -/
  uuid5 : String → String
  sha256Hex : Bytes → String
  /-- `json.dumps` with sorted keys, and the end of the line. -/
  dumps : Value → Bytes
  /-- `json.loads`: dictionaries come with ascending keys, since their equality sees no order. -/
  loads : Bytes → Option Value
  b64encode : Bytes → String
  b64decode : String → Option Bytes
  decompress : Bytes → Option Bytes
  pieces : Bytes → List Bytes

structure ArchiveTarget where
  storageId : String
  volumeUuid : String
  registeredRelativePath : String
  deriving DecidableEq

structure ArchiveResult where
  transactionId : String
  chunkId : String
  state : ArchiveState
  archivedBytes : Int
  deletedLocalBytes : Int
  deriving DecidableEq

/-- What the clock reads along an attempt. -/
structure ArchiveClock where
  verifiedAt : Int
  deletedAt : Int
  now : Int
  deriving DecidableEq

def archiveManifestSchema : String := "external-archive-manifest.v1"
def rawManifestSchema : String := "raw-chunk-manifest.v1"

/-! ## Checks -/

/-- The names of the expected fields that a document does not have so. -/
def mismatches (document : Value) (expected : List (String × Value)) : List String :=
  (expected.filter fun field => document.get? field.1 ≠ some field.2).map Prod.fst

/-- `_validate_target_identity`. -/
def validateTargetIdentity (disk : ArchiveDisk) : Except String Unit :=
  if disk.targetValid then .ok () else .error "registered target identity unavailable"

section

variable (lib : ArchiveLibrary)

/-- `_load_json_bytes` of a file with these bytes. -/
def loadJsonBytes (path : String) (file : Option Bytes) : Except String (Bytes × Value) :=
  match file with
  | none => .error s!"cannot read manifest {path}"
  | some body =>
    match lib.loads body with
    | none => .error s!"cannot read manifest {path}"
    | some decoded =>
      if decoded.isDict then .ok (body, decoded) else .error s!"manifest is not an object: {path}"

/-- `_validate_raw_manifest`. -/
def validateRawManifest (manifest : Value) (chunkId : String) (storedBytes storedSha256 : Value) :
    Except String Unit :=
  let wrong := mismatches manifest [
    ("chunk_id", .str chunkId),
    ("manifest_schema_version", .str rawManifestSchema),
    ("stored_bytes", storedBytes),
    ("stored_sha256", storedSha256)]
  if wrong ≠ [] then .error ("source Raw manifest/Catalog mismatch: " ++ ", ".intercalate wrong)
  else .ok ()

/-- `validate_sealed_artifact` of `spool/seal.py`. -/
def validateSealedArtifact (sealed : Option Bytes) (manifest : Value) : Except String Unit :=
  match sealed with
  | none => .error "source Raw validation failed: No such file or directory"
  | some stored =>
    if manifest.get? "stored_bytes" ≠ some (.int stored.length) then
      .error "source Raw validation failed: sealed size mismatch"
    else if manifest.get? "stored_sha256" ≠ some (.str (lib.sha256Hex stored)) then
      .error "source Raw validation failed: sealed SHA-256 mismatch"
    else match lib.decompress stored with
      | none => .error "source Raw validation failed: cannot validate compressed artifact"
      | some uncompressed =>
        if manifest.get? "uncompressed_bytes" ≠ some (.int uncompressed.length) then
          .error "source Raw validation failed: sealed decompressed size mismatch"
        else if manifest.get? "uncompressed_sha256" ≠ some (.str (lib.sha256Hex uncompressed)) then
          .error "source Raw validation failed: sealed decompressed SHA-256 mismatch"
        else .ok ()

/-- `_validate_source_bundle`. -/
def validateSourceBundle (identity : ArchiveIdentity) (disk : ArchiveDisk) :
    Except String Unit := do
  let path := identity.sourceManifestRelativePath
  let (body, manifest) ← loadJsonBytes lib path (disk.internal.get? path)
  if lib.sha256Hex body ≠ identity.sourceManifestSha256 then
    .error "source manifest SHA-256 mismatch"
  else
    validateRawManifest manifest identity.chunkId (.int identity.storedBytes)
      (.str identity.storedSha256)
    validateSealedArtifact lib (disk.internal.get? identity.sourceRelativePath) manifest

/-- `_validate_external_artifact` of a file with these bytes. -/
def validateExternalArtifact (identity : ArchiveIdentity) (path : String) (file : Option Bytes) :
    Except String Unit :=
  match file with
  | none => .error s!"external artifact is missing: {path}"
  | some bytes =>
    if (bytes.length : Int) ≠ identity.storedBytes then .error "external artifact size mismatch"
    else if lib.sha256Hex bytes ≠ identity.storedSha256 then
      .error "external artifact SHA-256 mismatch"
    else .ok ()

/-- `_validate_source_stored_identity`. -/
def validateSourceStoredIdentity (identity : ArchiveIdentity) (file : Option Bytes) :
    Except String Unit :=
  match file with
  | none => .error "internal source is missing before authorized deletion"
  | some bytes =>
    if (bytes.length : Int) ≠ identity.storedBytes then
      .error "internal source size changed before deletion"
    else if lib.sha256Hex bytes ≠ identity.storedSha256 then
      .error "internal source hash changed before deletion"
    else .ok ()

/-- The fields of an external manifest that name the archive: `stable_fields`. -/
def stableFields (target : ArchiveTarget) (identity : ArchiveIdentity) : List (String × Value) :=
  [("archive_manifest_schema_version", .str archiveManifestSchema),
   ("artifact_relative_path", .str identity.targetRelativePath),
   ("chunk_id", .str identity.chunkId),
   ("registered_relative_path", .str target.registeredRelativePath),
   ("source_manifest_sha256", .str identity.sourceManifestSha256),
   ("storage_id", .str target.storageId),
   ("stored_bytes", .int identity.storedBytes),
   ("stored_sha256", .str identity.storedSha256),
   ("transaction_id", .str identity.transactionId),
   ("volume_uuid", .str target.volumeUuid)]

def verificationEvidence : Value :=
  .dict [("full_readback", .bool true), ("sha256_match", .bool true), ("size_match", .bool true)]

/-- The external manifest of a Raw manifest that was read at this time. -/
def externalDocument (target : ArchiveTarget) (identity : ArchiveIdentity) (rawBytes : Bytes)
    (raw : Value) (verifiedAt : Int) : Value :=
  .dict [
    ("archive_manifest_schema_version", .str archiveManifestSchema),
    ("artifact_relative_path", .str identity.targetRelativePath),
    ("chunk_id", .str identity.chunkId),
    ("raw_manifest", raw),
    ("raw_manifest_bytes_base64", .str (lib.b64encode rawBytes)),
    ("registered_relative_path", .str target.registeredRelativePath),
    ("source_manifest_sha256", .str identity.sourceManifestSha256),
    ("storage_id", .str target.storageId),
    ("stored_bytes", .int identity.storedBytes),
    ("stored_sha256", .str identity.storedSha256),
    ("transaction_id", .str identity.transactionId),
    ("verification", verificationEvidence),
    ("verified_at_utc_ns", .int verifiedAt),
    ("volume_uuid", .str target.volumeUuid)]

/-- The embedded Raw manifest of an external one. -/
def validateEmbeddedManifest (document : Value) : Except String Unit :=
  match document.get? "raw_manifest_bytes_base64", document.get? "raw_manifest" with
  | some (.str encoded), some embedded =>
    if ! embedded.isDict then .error "external manifest lacks embedded Raw manifest evidence"
    else match lib.b64decode encoded with
      | none => .error "external manifest Raw evidence is invalid"
      | some rawBytes =>
        match lib.loads rawBytes with
        | none => .error "external manifest Raw evidence is invalid"
        | some decoded =>
          if decoded ≠ embedded then .error "external manifest Raw document/bytes mismatch"
          else if document.get? "source_manifest_sha256" ≠
              some (.str (lib.sha256Hex rawBytes)) then
            .error "external manifest Raw SHA-256 mismatch"
          else .ok ()
  | _, _ => .error "external manifest lacks embedded Raw manifest evidence"

/-- The time of an external manifest. -/
def validateVerificationTime (document : Value) : Except String Unit :=
  match document.get? "verified_at_utc_ns" with
  | some (.int verifiedAt) =>
    if verifiedAt < 0 then .error "external manifest lacks a valid verification time" else .ok ()
  | _ => .error "external manifest lacks a valid verification time"

/-- `_validate_external_manifest`. -/
def validateExternalManifest (target : ArchiveTarget) (identity : ArchiveIdentity)
    (document : Value) : Except String Unit := do
  let wrong := mismatches document (stableFields target identity)
  if wrong ≠ [] then
    .error ("external manifest identity mismatch: " ++ ", ".intercalate wrong)
  else
    validateEmbeddedManifest lib document
    if document.get? "verification" ≠ some verificationEvidence then
      .error "external manifest lacks complete verification evidence"
    else validateVerificationTime document

/-- The files of `_validate_external_commit`. -/
def validateExternalFiles (target : ArchiveTarget) (identity : ArchiveIdentity)
    (disk : ArchiveDisk) : Except String Unit := do
  validateExternalArtifact lib identity identity.targetRelativePath
    (disk.external.get? identity.targetRelativePath)
  let path := identity.externalManifestRelativePath
  let (_, manifest) ← loadJsonBytes lib path (disk.external.get? path)
  validateExternalManifest lib target identity manifest

/-- `_validate_external_commit`. -/
def validateExternalCommit (target : ArchiveTarget) (identity : ArchiveIdentity)
    (disk : ArchiveDisk) : Except String Unit := do
  validateTargetIdentity disk
  validateExternalFiles lib target identity disk

/-! ## Reservation -/

/-- `path.name`. -/
def fileName (path : String) : String :=
  String.ofList (path.toList.reverse.takeWhile fun c => c ≠ '/').reverse

/-- The path up to its name. -/
def parentPath (path : String) : String :=
  String.ofList (path.toList.reverse.dropWhile fun c => c ≠ '/').reverse

/-- `_internal_path` of a path in the Catalog. -/
def internalPath (path : Option String) (key parent : String) : Except String String :=
  match path with
  | none => .error s!"Catalog chunk lacks {key}"
  | some path =>
    if path = "" then .error s!"Catalog chunk lacks {key}"
    else if parentPath path ≠ parent then .error s!"Catalog {key} escapes its internal directory"
    else .ok path

/-- `_required_text`. -/
def requiredText (document : Value) (key : String) : Except String String :=
  match document.get? key with
  | some (.str text) => if text = "" then .error s!"manifest lacks {key}" else .ok text
  | _ => .error s!"manifest lacks {key}"

/-- `_required_int`. -/
def requiredInt (document : Value) (key : String) : Except String Int :=
  match document.get? key with
  | some (.int value) =>
    if value < 0 then .error s!"manifest lacks valid {key}" else .ok value
  | _ => .error s!"manifest lacks valid {key}"

/-- What `_reserve` reserves for a chunk of the Catalog. -/
def reservedIdentity (target : ArchiveTarget) (chunkId : String) (chunk : ChunkRow)
    (disk : ArchiveDisk) : Except String ArchiveIdentity := do
  let source ← internalPath chunk.sealedPath "sealed_path" "data/sealed/"
  let manifestPath ← internalPath chunk.manifestPath "manifest_path" "data/manifests/"
  let (manifestBytes, manifest) ← loadJsonBytes lib manifestPath (disk.internal.get? manifestPath)
  validateRawManifest manifest chunkId (chunk.storedBytes.elim .null fun n => .int n)
    (chunk.storedSha256.elim .null .str)
  validateSealedArtifact lib (disk.internal.get? source) manifest
  let transactionId := lib.uuid5 s!"bmdr-archive-v1:{target.storageId}:{chunkId}"
  let name := fileName source
  let market ← requiredText manifest "market"
  let stream ← requiredText manifest "stream"
  let storedBytes ← requiredInt manifest "stored_bytes"
  let storedSha256 ← requiredText manifest "stored_sha256"
  return {
    transactionId := transactionId
    chunkId := chunkId
    storageId := target.storageId
    market := market
    stream := stream
    sourceRelativePath := source
    sourceManifestRelativePath := manifestPath
    sourceManifestSha256 := lib.sha256Hex manifestBytes
    targetRelativePath := "raw/" ++ name
    targetTempRelativePath := "raw/." ++ name ++ "." ++ transactionId ++ ".copying"
    externalManifestRelativePath := "manifests/" ++ chunkId ++ ".archive-manifest.json"
    storedBytes := storedBytes
    storedSha256 := storedSha256 }

/-- `_reserve`. -/
def reserve (target : ArchiveTarget) (chunkId : String) (chunk : ChunkRow) (now : Int) :
    ArchiveProgram ArchiveTransaction := do
  let identity ← archiveCheck (reservedIdentity lib target chunkId chunk)
  .read fun disk =>
    match disk.catalog.tables.reserveArchiveTransaction identity now with
    | .error e => .raise e
    | .ok (row, tables) => do
      .perform (.commit { disk.catalog with tables := tables } false)
      return row

/-! ## Copy -/

/-- `_copy`. -/
def copyArtifact (identity : ArchiveIdentity) : ArchiveProgram Unit := do
  archiveCheck validateTargetIdentity
  archiveCheck (validateSourceBundle lib identity)
  let disk ← .look
  match disk.external.get? identity.targetRelativePath with
  | some bytes =>
    archiveCheck fun _ =>
      validateExternalArtifact lib identity identity.targetRelativePath (some bytes)
    unlinkIfThere identity.targetTempRelativePath
  | none =>
    unlinkIfThere identity.targetTempRelativePath
    .perform (.createExternal identity.targetTempRelativePath)
    appendPieces identity.targetTempRelativePath
      (lib.pieces ((disk.internal.get? identity.sourceRelativePath).getD []))

/-- The readback of the temporary copy; a copy that is not exact is removed. -/
def verifyTemporary (identity : ArchiveIdentity) : ArchiveProgram Unit :=
  .read fun disk =>
    match validateExternalArtifact lib identity identity.targetTempRelativePath
        (disk.external.get? identity.targetTempRelativePath) with
    | .ok () => .ret ()
    | .error e => do
      unlinkIfThere identity.targetTempRelativePath
      .raise e

/-- The artifact's part of `_verify_and_commit_external`. -/
def commitArtifact (identity : ArchiveIdentity) : ArchiveProgram Unit := do
  let disk ← .look
  match disk.external.get? identity.targetRelativePath with
  | some bytes =>
    archiveCheck fun _ =>
      validateExternalArtifact lib identity identity.targetRelativePath (some bytes)
    unlinkIfThere identity.targetTempRelativePath
  | none =>
    if (disk.external.get? identity.targetTempRelativePath).isNone then copyArtifact lib identity
    verifyTemporary lib identity
    .perform (.renameExternal identity.targetTempRelativePath identity.targetRelativePath)

/-- `external_manifest.with_name` of the partial manifest. -/
def manifestPartialPath (identity : ArchiveIdentity) : String :=
  let path := identity.externalManifestRelativePath
  parentPath path ++ "." ++ fileName path ++ "." ++ identity.transactionId ++ ".partial"

/-- `_atomic_json`. -/
def atomicJson (path partialPath : String) (document : Value) : ArchiveProgram Unit := do
  .perform (.createExternal partialPath)
  appendPieces partialPath (lib.pieces (lib.dumps document))
  .perform (.renameExternal partialPath path)

/-- The manifest's part of `_verify_and_commit_external`: a published one is kept. -/
def commitManifest (target : ArchiveTarget) (identity : ArchiveIdentity) (verifiedAt : Int) :
    ArchiveProgram Value := do
  let rawPath := identity.sourceManifestRelativePath
  let (rawBytes, raw) ← archiveCheck fun disk =>
    loadJsonBytes lib rawPath (disk.internal.get? rawPath)
  if lib.sha256Hex rawBytes ≠ identity.sourceManifestSha256 then
    .raise "source manifest changed after reservation"
  else
    let document := externalDocument lib target identity rawBytes raw verifiedAt
    let path := identity.externalManifestRelativePath
    let disk ← .look
    match disk.external.get? path with
    | some body =>
      let (_, existing) ← archiveCheck fun _ => loadJsonBytes lib path (some body)
      archiveCheck fun _ => validateExternalManifest lib target identity existing
      return existing
    | none =>
      unlinkIfThere (manifestPartialPath identity)
      atomicJson lib path (manifestPartialPath identity) document
      return document

/-- `_verify_and_commit_external`. -/
def verifyAndCommitExternal (target : ArchiveTarget) (identity : ArchiveIdentity)
    (verifiedAt : Int) : ArchiveProgram Value := do
  archiveCheck validateTargetIdentity
  archiveCheck (validateSourceBundle lib identity)
  commitArtifact lib identity
  commitManifest lib target identity verifiedAt

/-! ## Metrics -/

def nanosecondsPerDay : Int := 86400000000000

/-- `_record_archived_metric`. -/
def archivedMetric (row : ArchiveTransaction) (verifiedAt : Int) : MetricBatchRow where
  batchId := "archive-verified:" ++ row.transactionId
  utcDay := verifiedAt / nanosecondsPerDay
  market := row.market
  stream := row.stream
  counters := [("archived_bytes", row.storedBytes), ("archived_files", 1)]
  committedAtUtcNs := verifiedAt

/-- `_record_deleted_metric`. -/
def deletedMetric (row : ArchiveTransaction) (deletedAt : Int) : MetricBatchRow where
  batchId := "archive-local-delete:" ++ row.transactionId
  utcDay := deletedAt / nanosecondsPerDay
  market := row.market
  stream := row.stream
  counters := [("deleted_local_bytes", row.storedBytes)]
  committedAtUtcNs := deletedAt

theorem archivedMetric_batchId_ne (row : ArchiveTransaction) (verifiedAt : Int) :
    (archivedMetric row verifiedAt).batchId ≠ "" := by
  intro h
  exact absurd (String.append_eq_empty_iff.mp h).1 (by decide)

theorem deletedMetric_batchId_ne (row : ArchiveTransaction) (deletedAt : Int) :
    (deletedMetric row deletedAt).batchId ≠ "" := by
  intro h
  exact absurd (String.append_eq_empty_iff.mp h).1 (by decide)

/-! ## The transaction -/

variable (target : ArchiveTarget) (transactionId : String) (clock : ArchiveClock)

/-- `_required_transaction`. -/
def requiredTransaction (disk : ArchiveDisk) : Except String ArchiveTransaction :=
  match disk.catalog.tables.archiveTransactions.get? transactionId with
  | none => .error s!"archive transaction disappeared: {transactionId}"
  | some row => .ok row

def verifyingKey : String := "archive-verifying:" ++ transactionId
def verifiedKey : String := "archive-verified:" ++ transactionId
def deletePendingKey : String := "local-delete-pending:" ++ transactionId
def deletedKey : String := "local-deleted:" ++ transactionId

/-- The end of `_advance`. -/
def archiveResult (deletedBytes : Int) : ArchiveProgram ArchiveResult := do
  let final ← archiveCheck (requiredTransaction transactionId)
  return ⟨transactionId, final.chunkId, final.state, final.storedBytes, deletedBytes⟩

/-- The deletion of the source; an absent source is left at that. -/
def deleteSource (row : ArchiveTransaction) : ArchiveProgram Int := do
  let disk ← .look
  match disk.internal.get? row.sourceRelativePath with
  | none => return 0
  | some bytes =>
    archiveCheck fun _ => validateSourceStoredIdentity lib row.toArchiveIdentity (some bytes)
    .perform (.unlinkInternal row.sourceRelativePath)
    .perform .syncSealed
    return row.storedBytes

/-- The branch `LOCAL_DELETE_PENDING`. -/
def advanceDeletePending : ArchiveProgram ArchiveResult := do
  let row ← archiveCheck (requiredTransaction transactionId)
  archiveCheck (validateExternalCommit lib target row.toArchiveIdentity)
  let deletedBytes ← deleteSource lib row
  recordMetricBatch (deletedMetric row clock.deletedAt)
  commitArchive true fun tables =>
    tables.transitionArchive transactionId .localDeleted (deletedKey transactionId)
      (.dict [("source_absent", .bool true)]) none (some clock.deletedAt) clock.now
  archiveResult transactionId deletedBytes

/-- `_row_int(transaction, "verified_at_utc_ns")`. -/
def rowVerifiedAt (row : ArchiveTransaction) : Except String Int :=
  match row.verifiedAtUtcNs with
  | none => .error "Catalog archive row lacks valid verified_at_utc_ns"
  | some verifiedAt =>
    if verifiedAt < 0 then .error "Catalog archive row lacks valid verified_at_utc_ns"
    else .ok verifiedAt

/-- From the branch `VERIFIED` on. -/
def advanceVerified : ArchiveProgram ArchiveResult := do
  let row ← archiveCheck (requiredTransaction transactionId)
  let verifiedAt ← archiveCheck fun _ => rowVerifiedAt row
  recordMetricBatch (archivedMetric row verifiedAt)
  commitArchive true fun tables =>
    tables.transitionArchive transactionId .localDeletePending (deletePendingKey transactionId)
      (.dict [("external_commit_revalidated_before_delete", .bool true)]) none none clock.now
  advanceDeletePending lib target transactionId clock

/-- From the branch `VERIFYING` on. -/
def advanceVerifying : ArchiveProgram ArchiveResult := do
  let row ← archiveCheck (requiredTransaction transactionId)
  let document ← verifyAndCommitExternal lib target row.toArchiveIdentity clock.verifiedAt
  let verifiedAt ← archiveCheck fun _ => requiredInt document "verified_at_utc_ns"
  commitArchive false fun tables =>
    tables.transitionArchive transactionId .verified (verifiedKey transactionId)
      (.dict [
        ("external_manifest_schema", .str archiveManifestSchema),
        ("stored_sha256", .str row.storedSha256)])
      (some verifiedAt) none clock.now
  advanceVerified lib target transactionId clock

/-- From the branch `COPYING` on. -/
def advanceCopying : ArchiveProgram ArchiveResult := do
  let row ← archiveCheck (requiredTransaction transactionId)
  copyArtifact lib row.toArchiveIdentity
  commitArchive false fun tables =>
    tables.transitionArchive transactionId .verifying (verifyingKey transactionId)
      (.dict [("copy_fsync", .bool true)]) none none clock.now
  advanceVerifying lib target transactionId clock

/-- `_advance`. -/
def advance : ArchiveProgram ArchiveResult := do
  let row ← archiveCheck (requiredTransaction transactionId)
  match row.state with
  | .copying => advanceCopying lib target transactionId clock
  | .verifying => advanceVerifying lib target transactionId clock
  | .verified => advanceVerified lib target transactionId clock
  | .localDeletePending => advanceDeletePending lib target transactionId clock
  | .localDeleted => archiveResult transactionId 0

end

/-! ## The copy leaves everything but the target alone -/

namespace OffTarget

variable {I : Option ArchiveWrite → ArchiveDisk → Prop} (hI : OffTarget I) (lib : ArchiveLibrary)
  (target : ArchiveTarget) (identity : ArchiveIdentity)
include hI

theorem copyArtifact : Durable.Keeps ArchiveWrite.apply I (copyArtifact lib identity) := by
  refine (keeps_archiveCheck _).bind fun _ => (keeps_archiveCheck _).bind fun _ => ?_
  refine Durable.keeps_look.bind fun disk => ?_
  split
  · exact (keeps_archiveCheck _).bind fun _ => hI.unlinkIfThere _
  · refine (hI.unlinkIfThere _).bind fun _ => ?_
    exact (hI.perform (.createExternal _) rfl).bind fun _ => hI.appendPieces _ _

theorem verifyTemporary : Durable.Keeps ArchiveWrite.apply I (verifyTemporary lib identity) := by
  refine Durable.Keeps.read fun disk => ?_
  split
  · exact Durable.keeps_pure ()
  · exact (hI.unlinkIfThere _).bind fun _ => Durable.keeps_raise _

theorem commitArtifact : Durable.Keeps ArchiveWrite.apply I (commitArtifact lib identity) := by
  refine Durable.keeps_look.bind fun disk => ?_
  split
  · exact (keeps_archiveCheck _).bind fun _ => hI.unlinkIfThere _
  · have hrename := (hI.verifyTemporary lib identity).bind fun _ =>
      hI.perform (.renameExternal identity.targetTempRelativePath identity.targetRelativePath) rfl
    dsimp only
    split
    · exact (hI.copyArtifact lib identity).bind fun _ => hrename
    · exact hrename

theorem atomicJson (path partialPath : String) (document : Value) :
    Durable.Keeps ArchiveWrite.apply I (atomicJson lib path partialPath document) :=
  (hI.perform (.createExternal _) rfl).bind fun _ => (hI.appendPieces _ _).bind fun _ =>
    hI.perform (.renameExternal _ _) rfl

theorem commitManifest (verifiedAt : Int) :
    Durable.Keeps ArchiveWrite.apply I (commitManifest lib target identity verifiedAt) := by
  refine (keeps_archiveCheck _).bind ?_
  rintro ⟨rawBytes, raw⟩
  show Durable.Keeps _ _ (ite _ _ _)
  split
  · exact Durable.keeps_raise _
  · refine Durable.keeps_look.bind fun disk => ?_
    split
    · refine (keeps_archiveCheck _).bind fun _ => (keeps_archiveCheck _).bind fun _ => ?_
      exact Durable.keeps_pure _
    · refine (hI.unlinkIfThere _).bind fun _ => (hI.atomicJson lib _ _ _).bind fun _ => ?_
      exact Durable.keeps_pure _

theorem verifyAndCommitExternal (verifiedAt : Int) :
    Durable.Keeps ArchiveWrite.apply I
      (verifyAndCommitExternal lib target identity verifiedAt) := by
  refine (keeps_archiveCheck _).bind fun _ => (keeps_archiveCheck _).bind fun _ => ?_
  exact (hI.commitArtifact lib identity).bind fun _ =>
    hI.commitManifest lib target identity verifiedAt

end OffTarget

end MarketDataRecorder
