import MarketDataRecorder.Spool.Disk
import MarketDataRecorder.Spool.ScanTruncate

/-!
# Recovery of partial chunks

`spool/recovery.py`, `recover_partials`: at startup every partial is scanned. A clean one is
registered, a torn tail is cut off and recorded, and a corrupt file goes to the quarantine whole.
-/

namespace MarketDataRecorder

/-! ## Names and texts -/

/-- The value of the enumeration. -/
def ScanIssue.text : ScanIssue → String
  | .none => "none"
  | .truncatedTail => "truncated_tail"
  | .invalidHeader => "invalid_header"
  | .invalidFrameLength => "invalid_frame_length"
  | .unsupportedFlags => "unsupported_flags"
  | .checksumFailure => "checksum_failure"
  | .invalidEnvelope => "invalid_envelope"

/-- The names that the pattern `*.bmdr.partial` finds. -/
def isPartialName (name : String) : Bool := name.endsWith ".bmdr.partial"

/-- `layout.relative(path)` of an active file. -/
def activePath (name : String) : String := "data/active/" ++ name

/-- The name of a file in the quarantine. -/
def quarantineName (name digest : String) : String :=
  s!"{name}.{String.ofList (digest.toList.take 12)}.quarantine"

/-- `f"{scan.issue}:{scan.detail}"`. -/
def quarantineReason (scan : ScanResult) : String :=
  scan.issue.text ++ ":" ++ scan.detail.getD "None"

/-- The evidence of a removed tail. -/
def tailEvidence (fileSize validEnd : Nat) : Value :=
  .dict [
    ("issue", .str ScanIssue.truncatedTail.text),
    ("truncated_bytes", .int (fileSize - validEnd)),
    ("valid_end", .int validEnd)]

/-- The evidence of a quarantined chunk. -/
def quarantineEvidence (scan : ScanResult) : Value :=
  .dict [
    ("detail", match scan.detail with
      | none => .null
      | some detail => .str detail),
    ("issue", .str scan.issue.text)]

structure RecoveryAction where
  source : String
  action : String
  detail : String
  deriving DecidableEq

section

variable (codec : Codec)

/-! ## One partial -/

/-- The move of a file whose content has this digest; nothing where the content is there already. -/
def moveAside (name destination digest : String) : DiskProgram Unit :=
  .read fun disk =>
    match disk.quarantine.get? destination with
    | some existing =>
      if codec.sha256Hex existing ≠ digest then
        .raise "quarantine name collision with different content"
      else .perform (.unlinkActive name)
    | none => .perform (.moveToQuarantine name destination)

/-- `_quarantine` of a file with these bytes. -/
def quarantine (name : String) (bytes : Bytes) (reason : String) : DiskProgram RecoveryAction := do
  let digest := codec.sha256Hex bytes
  let destination := quarantineName name digest
  moveAside codec name destination digest
  commitTables fun tables =>
    .ok (tables.registerQuarantinedArtifact digest ("data/quarantine/" ++ destination) reason
      digest)
  return ⟨activePath name, "quarantined", reason⟩

/-- The check behind a truncation. -/
def verifyTruncated (name : String) : DiskProgram Unit :=
  .read fun disk =>
    if (scanChunk codec ((disk.active.get? name).getD [])).isClean then return ()
    else .raise "tail truncation did not produce a clean partial"

/-- What follows the truncation: the rescan, and the transition that tells the Catalog. -/
def recoverTailRecorded (name : String) (header : ChunkHeader) (scan : ScanResult) :
    DiskProgram RecoveryAction := do
  verifyTruncated codec name
  commitTables fun tables =>
    tables.transition header.chunkId .recovered
      (.recover header.chunkId scan.fileSize scan.validEnd)
      (tailEvidence scan.fileSize scan.validEnd)
  return ⟨activePath name, "tail_truncated", s!"removed {scan.fileSize - scan.validEnd} bytes"⟩

/-- The branch of a torn tail. -/
def recoverTail (name : String) (header : ChunkHeader) (scan : ScanResult) :
    DiskProgram RecoveryAction := do
  .perform (.truncateActive name scan.validEnd)
  recoverTailRecorded codec name header scan

/-- The branch of a corrupt file. -/
def recoverCorrupt (name : String) (bytes : Bytes) (header : ChunkHeader) (scan : ScanResult) :
    DiskProgram RecoveryAction := do
  commitTables fun tables =>
    tables.transition header.chunkId .quarantined
      (.quarantine header.chunkId scan.fileSize scan.issue) (quarantineEvidence scan)
  quarantine codec name bytes (quarantineReason scan)

/-- The branches behind a header that decodes. -/
def recoverChunk (name : String) (bytes : Bytes) (header : ChunkHeader) (scan : ScanResult) :
    DiskProgram RecoveryAction := do
  commitTables fun tables =>
    .ok (tables.registerActive header.chunkId (activePath name) header.createdAtUtcNs)
  if scan.issue = .none then return ⟨activePath name, "unchanged", "clean"⟩
  else if scan.isTailTruncatable then recoverTail codec name header scan
  else recoverCorrupt codec name bytes header scan

/-- One round of the loop of `recover_partials`, for a file with these bytes. -/
def recoverPartial (name : String) (bytes : Bytes) : DiskProgram RecoveryAction :=
  match (scanChunk codec bytes).header with
  | none => quarantine codec name bytes (quarantineReason (scanChunk codec bytes))
  | some header => recoverChunk codec name bytes header (scanChunk codec bytes)

/-! ## The loop -/

/-- The loop over the names found; `stop` answers before each of them. -/
def recoverNames (stop : Nat → Bool) : Nat → List String → DiskProgram (List RecoveryAction)
  | _, [] => return []
  | round, name :: rest =>
    if stop round then return []
    else
      .read fun disk =>
        match disk.active.get? name with
        | none => .raise s!"No such file or directory: {activePath name}"
        | some bytes => do
          let action ← recoverPartial codec name bytes
          let actions ← recoverNames stop (round + 1) rest
          return action :: actions

/-- `recover_partials`. -/
def recoverPartials (stop : Nat → Bool) : DiskProgram (List RecoveryAction) :=
  .read fun disk => recoverNames codec stop 0 (disk.active.keys.filter isPartialName)

end

end MarketDataRecorder
