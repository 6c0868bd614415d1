import MarketDataRecorder.Catalog.Archive

/-!
# Remote authorities in the Catalog

The other half of `storage/catalog/archive_ops.py`: a receipt of a remote archive becomes the one
authority to delete the chunk here, and the authority ends when the deletion is a durable fact. The
chunk stays sealed all along.
-/

namespace MarketDataRecorder

/-- The columns of a chunk that a receipt speaks about; `none` is `NULL`, or a value that no
chunk has. -/
structure ChunkSource where
  chunkId : Option String
  state : Option ChunkState
  sealedPath : Option String
  manifestPath : Option String
  storedBytes : Option Int
  storedSha256 : Option String
  deriving DecidableEq

def ChunkRow.source (chunkId : String) (row : ChunkRow) : ChunkSource where
  chunkId := some chunkId
  state := some row.state
  sealedPath := row.sealedPath
  manifestPath := row.manifestPath
  storedBytes := row.storedBytes.map Int.ofNat
  storedSha256 := row.storedSha256

/-- `required_chunk`, `current_source`: the sealed chunk of a receipt. -/
def RemoteArchiveReceipt.requiredChunk (receipt : RemoteArchiveReceipt) : ChunkSource where
  chunkId := some receipt.chunkId
  state := some .sealed
  sealedPath := some receipt.sourceRelativePath
  manifestPath := some receipt.sourceManifestRelativePath
  storedBytes := some receipt.storedBytes
  storedSha256 := some receipt.storedSha256

/-- What `commit_remote_deleted` expects of the authority that ends. -/
structure RemoteDeletion where
  receiptId : String
  chunkId : String
  sourceDescriptorSha256 : String
  sourceRelativePath : String
  sourceManifestSha256 : String
  storedBytes : Int
  storedSha256 : String
  deriving DecidableEq

/-- The deletion that a receipt authorizes. -/
def RemoteArchiveReceipt.deletion (receipt : RemoteArchiveReceipt) : RemoteDeletion where
  receiptId := receipt.receiptId
  chunkId := receipt.chunkId
  sourceDescriptorSha256 := receipt.sourceDescriptorSha256
  sourceRelativePath := receipt.sourceRelativePath
  sourceManifestSha256 := receipt.sourceManifestSha256
  storedBytes := receipt.storedBytes
  storedSha256 := receipt.storedSha256

namespace ArchiveTables

/-! ## Events -/

def remoteAuthorizeKey (receiptId : String) : String := "remote-authorize:" ++ receiptId
def remoteDeletedKey (receiptId : String) : String := "remote-deleted:" ++ receiptId

def authorizationEvent (receipt : RemoteArchiveReceipt) (now : Int) :
    LifecycleEvent RemoteArchiveState where
  owner := receipt.receiptId
  fromState := none
  toState := .remoteDeletePending
  occurredAtUtcNs := now
  evidence := .dict [("chunk_id", .str receipt.chunkId), ("receipt_id", .str receipt.receiptId)]
  idempotencyKey := remoteAuthorizeKey receipt.receiptId

def deletionEvidence (deletion : RemoteDeletion) : Value :=
  .dict [
    ("chunk_id", .str deletion.chunkId),
    ("receipt_id", .str deletion.receiptId),
    ("source_absent", .bool true),
    ("source_descriptor_sha256", .str deletion.sourceDescriptorSha256),
    ("source_manifest_sha256", .str deletion.sourceManifestSha256),
    ("source_parent_fsync", .bool true),
    ("source_relative_path", .str deletion.sourceRelativePath),
    ("stored_bytes", .int deletion.storedBytes),
    ("stored_sha256", .str deletion.storedSha256)]

def deletionEvent (deletion : RemoteDeletion) (now : Int) : LifecycleEvent RemoteArchiveState where
  owner := deletion.receiptId
  fromState := some .remoteDeletePending
  toState := .remoteDeleted
  occurredAtUtcNs := now
  evidence := deletionEvidence deletion
  idempotencyKey := remoteDeletedKey deletion.receiptId

/-- The events that a row should have, in their order. -/
def expectedRemoteEvents (row : RemoteArchiveTransaction) :
    List (LifecycleEvent RemoteArchiveState) :=
  match row.remoteDeletedAtUtcNs with
  | none => [authorizationEvent row.receipt row.createdAtUtcNs]
  | some deletedAt =>
    [authorizationEvent row.receipt row.createdAtUtcNs,
      deletionEvent row.receipt.deletion deletedAt]

/-! ## The calls -/

section

variable (identitySha256 : RemoteArchiveReceipt → String) (tables : ArchiveTables)

/-- The state and the times of a row fit together. -/
def remoteTimesValid (row : RemoteArchiveTransaction) : Bool :=
  match row.state, row.remoteDeletedAtUtcNs with
  | .remoteDeletePending, none => 0 ≤ row.createdAtUtcNs ∧ row.updatedAtUtcNs = row.createdAtUtcNs
  | .remoteDeleted, some deletedAt =>
    0 ≤ row.createdAtUtcNs ∧ 0 ≤ deletedAt ∧ row.updatedAtUtcNs = deletedAt
  | _, _ => false

/-- `_validated_remote_row`: whether it lets a row pass. -/
def remoteRowValid (row : RemoteArchiveTransaction) : Bool :=
  remoteTimesValid row ∧
    row.receipt.isValid identitySha256 ∧
    row.market ≠ "" ∧ row.stream ≠ "" ∧
    isRelativePath row.receipt.sourceRelativePath ∧
    isRelativePath row.receipt.sourceManifestRelativePath ∧
    isRelativePath row.receipt.artifactRelativePath ∧
    (tables.chunks.get? row.receipt.chunkId).map (ChunkRow.source row.receipt.chunkId) =
      some row.receipt.requiredChunk ∧
    tables.remoteEvents.filter (fun event => event.owner = row.receipt.receiptId) =
      expectedRemoteEvents row

def validatedRemoteRow (row : RemoteArchiveTransaction) : Except String RemoteArchiveTransaction :=
  if remoteRowValid identitySha256 tables row then .ok row
  else .error "malformed persisted remote authorization"

/-- The rows that `receipt_id = ? OR chunk_id = ?` selects. -/
def remoteRowsFor (receipt : RemoteArchiveReceipt) : List RemoteArchiveTransaction :=
  (tables.remoteTransactions.items.filter fun item =>
    item.1 = receipt.receiptId ∨ item.2.receipt.chunkId = receipt.chunkId).map Prod.snd

/-- The transaction of `reserve_remote_archive_transaction`; `receiptBytes` is what they hold. -/
def reserveRemoteArchiveTransaction (receiptBytes : Option RemoteArchiveReceipt)
    (market stream : String) (expectedChunk : ChunkSource) (now : Int) :
    Except String (RemoteArchiveReceipt × ArchiveTables) :=
  match receiptBytes.filter (RemoteArchiveReceipt.isValid identitySha256) with
  | none => .error "invalid persisted remote archive receipt"
  | some receipt =>
    if market = "" ∨ stream = "" then .error "remote source market/stream identity is invalid"
    else if now < 0 then .error "remote authorization timestamp is invalid"
    else if expectedChunk ≠ receipt.requiredChunk then
      .error "remote authorization source snapshot mismatch"
    else if tables.state receipt.chunkId ≠ some .sealed then
      .error "only a SEALED chunk may be remotely authorized"
    else if (tables.chunks.get? receipt.chunkId).map (ChunkRow.source receipt.chunkId) ≠
        some receipt.requiredChunk then
      .error "remote authorization source changed"
    else if (tables.archiveTransactionForChunk receipt.chunkId).isSome then
      .error "same-host archive ownership already exists"
    else match tables.remoteRowsFor receipt with
      | [] => do
        let events ← insertEvent tables.remoteEvents (authorizationEvent receipt now)
        let row : RemoteArchiveTransaction :=
          { receipt := receipt
            state := .remoteDeletePending
            market := market
            stream := stream
            createdAtUtcNs := now
            updatedAtUtcNs := now }
        return (receipt, {
          tables with
          remoteTransactions := tables.remoteTransactions.insert receipt.receiptId row
          remoteEvents := events })
      -- The same authorization again is answered without a write.
      | [existing] => do
        let row ← validatedRemoteRow identitySha256 tables existing
        if row.receipt ≠ receipt ∨ row.state ≠ .remoteDeletePending ∨ row.market ≠ market ∨
            row.stream ≠ stream then
          .error "conflicting remote archive ownership"
        else return (receipt, tables)
      | _ => .error "conflicting remote archive ownership"

/-- The guards of `commit_remote_deleted` on what it is given. -/
def deletionGuard (deletion : RemoteDeletion) (now : Int) : Except String Unit :=
  if ! isLowerSha256 deletion.receiptId then .error "remote deletion receipt_id is invalid"
  else if deletion.chunkId = "" then .error "remote deletion chunk_id is invalid"
  else if ! isLowerSha256 deletion.sourceDescriptorSha256 then
    .error "remote deletion source descriptor digest is invalid"
  else if ! isLowerSha256 deletion.sourceManifestSha256 then
    .error "remote deletion source manifest digest is invalid"
  else if ! isLowerSha256 deletion.storedSha256 then
    .error "remote deletion stored digest is invalid"
  else if ! isRelativePath deletion.sourceRelativePath then
    .error s!"unsafe relative path: '{deletion.sourceRelativePath}'"
  else if deletion.storedBytes < 0 then .error "remote deletion stored byte count is invalid"
  else if now < 0 then .error "remote deletion terminal timestamp is invalid"
  else .ok ()

/-- The transaction of `commit_remote_deleted`. -/
def commitRemoteDeleted (deletion : RemoteDeletion) (now : Int) : Except String ArchiveTables := do
  deletionGuard deletion now
  match tables.remoteTransactions.get? deletion.receiptId with
  | none => .error "remote deletion authority is missing"
  | some row =>
    let current ← validatedRemoteRow identitySha256 tables row
    if current.state ≠ .remoteDeletePending ∨ current.receipt.deletion ≠ deletion then
      .error "remote deletion pending authority does not match expected source"
    else if (tables.chunks.get? deletion.chunkId).map (ChunkRow.source deletion.chunkId) ≠
        some current.receipt.requiredChunk then
      .error "remote deletion chunk/source authority changed"
    else if (tables.archiveTransactionForChunk deletion.chunkId).isSome then
      .error "same-host and remote deletion ownership overlap"
    else
      let events ← insertEvent tables.remoteEvents (deletionEvent deletion now)
      return {
        tables with
        remoteTransactions := tables.remoteTransactions.insert deletion.receiptId
          { row with
            state := .remoteDeleted
            updatedAtUtcNs := now
            remoteDeletedAtUtcNs := some now }
        remoteEvents := events }

/-- `remote_archive_transaction`, the readback behind both calls. -/
def remoteArchiveTransaction (receiptId : String) :
    Except String (Option RemoteArchiveTransaction) :=
  match tables.remoteTransactions.get? receiptId with
  | none => .ok none
  | some row => (validatedRemoteRow identitySha256 tables row).map some

end

/-! ## What the calls do -/

section

variable {identitySha256 : RemoteArchiveReceipt → String} {tables tables' : ArchiveTables}
  {now : Int}

theorem validatedRemoteRow_eq_ok {row current : RemoteArchiveTransaction}
    (h : validatedRemoteRow identitySha256 tables row = .ok current) :
    remoteRowValid identitySha256 tables row = true ∧ current = row := by
  unfold validatedRemoteRow at h
  split at h
  · next hvalid => exact ⟨hvalid, (Except.ok.inj h).symm⟩
  · cases h

/-- The row of an authority that is new. -/
def pendingRow (receipt : RemoteArchiveReceipt) (market stream : String) (now : Int) :
    RemoteArchiveTransaction :=
  { receipt := receipt
    state := .remoteDeletePending
    market := market
    stream := stream
    createdAtUtcNs := now
    updatedAtUtcNs := now }

/-- **An authority** is there already and pending, or a sealed chunk without an owner gets one. -/
theorem reserveRemoteArchiveTransaction_eq_ok {receiptBytes : Option RemoteArchiveReceipt}
    {market stream : String} {expectedChunk : ChunkSource} {receipt : RemoteArchiveReceipt}
    (h : reserveRemoteArchiveTransaction identitySha256 tables receiptBytes market stream
      expectedChunk now = .ok (receipt, tables')) :
    receiptBytes = some receipt ∧ receipt.isValid identitySha256 = true ∧
      tables.state receipt.chunkId = some .sealed ∧
      ((tables' = tables ∧ ∃ id row, tables.remoteTransactions.get? id = some row ∧
          row.receipt = receipt ∧ row.state = .remoteDeletePending) ∨
        (market ≠ "" ∧ stream ≠ "" ∧ 0 ≤ now ∧
          (tables.chunks.get? receipt.chunkId).map (ChunkRow.source receipt.chunkId) =
            some receipt.requiredChunk ∧
          tables.archiveTransactionForChunk receipt.chunkId = none ∧
          tables.remoteRowsFor receipt = [] ∧
          hasEvent tables.remoteEvents (remoteAuthorizeKey receipt.receiptId) = false ∧
          tables' = {
            tables with
            remoteTransactions := tables.remoteTransactions.insert receipt.receiptId
              (pendingRow receipt market stream now)
            remoteEvents := tables.remoteEvents ++ [authorizationEvent receipt now] })) := by
  unfold reserveRemoteArchiveTransaction at h
  split at h
  · cases h
  next receipt' hreceipt =>
  split at h
  · cases h
  next htexts =>
  split at h
  · cases h
  next hnow =>
  split at h
  · cases h
  split at h
  · cases h
  next hsealed =>
  split at h
  · cases h
  next hsource =>
  split at h
  · cases h
  next harchive =>
  obtain ⟨hbytes, hvalid⟩ := Option.filter_eq_some_iff.mp hreceipt
  split at h
  -- No row yet: this call inserts it.
  · next hrows =>
    obtain ⟨events, hevents, h⟩ := except_bind_eq_ok h
    obtain ⟨hkey, rfl⟩ := insertEvent_eq_ok hevents
    cases Except.ok.inj h
    refine ⟨hbytes, hvalid, not_not.mp hsealed, Or.inr ⟨?_, ?_, ?_, not_not.mp hsource, ?_, hrows,
      hkey, rfl⟩⟩
    · exact fun hm => htexts (Or.inl hm)
    · exact fun hs => htexts (Or.inr hs)
    · omega
    · simpa using harchive
  -- One row: it must say the same, and nothing is written.
  · next existing hrows =>
    obtain ⟨row, hrow, hrest⟩ := except_bind_eq_ok h
    obtain ⟨-, rfl⟩ := validatedRemoteRow_eq_ok hrow
    split at hrest
    · cases hrest
    · next hexact =>
      simp only [not_or, not_not] at hexact
      have hmem : row ∈ tables.remoteRowsFor receipt' := by
        rw [hrows]
        exact List.mem_singleton_self row
      obtain ⟨item, hitem, hitemRow⟩ := List.mem_map.mp hmem
      cases Except.ok.inj hrest
      refine ⟨hbytes, hvalid, not_not.mp hsealed,
        Or.inl ⟨rfl, item.1, row, ?_, hexact.1, hexact.2.1⟩⟩
      rw [SortedDict.get?_eq_some_iff, ← hitemRow]
      exact (List.mem_filter.mp hitem).1
  · cases h

/-- **A deletion is committed** against a pending authority of exactly this source. -/
theorem commitRemoteDeleted_eq_ok {deletion : RemoteDeletion}
    (h : commitRemoteDeleted identitySha256 tables deletion now = .ok tables') :
    0 ≤ now ∧ ∃ row, tables.remoteTransactions.get? deletion.receiptId = some row ∧
      remoteRowValid identitySha256 tables row = true ∧ row.state = .remoteDeletePending ∧
      row.receipt.deletion = deletion ∧
      hasEvent tables.remoteEvents (remoteDeletedKey deletion.receiptId) = false ∧
      tables' = {
        tables with
        remoteTransactions := tables.remoteTransactions.insert deletion.receiptId
          { row with
            state := .remoteDeleted
            updatedAtUtcNs := now
            remoteDeletedAtUtcNs := some now }
        remoteEvents := tables.remoteEvents ++ [deletionEvent deletion now] } := by
  unfold commitRemoteDeleted at h
  obtain ⟨_, hguard, h⟩ := except_bind_eq_ok h
  have hnow : 0 ≤ now := by
    unfold deletionGuard at hguard
    by_contra hneg
    have hlt : now < 0 := by omega
    simp only [hlt, if_true] at hguard
    -- every branch of the guard ends in an error now
    split_ifs at hguard
  split at h
  · cases h
  next row hrow =>
  obtain ⟨current, hcurrent, h⟩ := except_bind_eq_ok h
  obtain ⟨hvalid, rfl⟩ := validatedRemoteRow_eq_ok hcurrent
  split at h
  · cases h
  next hexact =>
  split at h
  · cases h
  split at h
  · cases h
  obtain ⟨events, hevents, h⟩ := except_bind_eq_ok h
  obtain ⟨hkey, rfl⟩ := insertEvent_eq_ok hevents
  simp only [not_or, not_not] at hexact
  exact ⟨hnow, current, hrow, hvalid, hexact.1, hexact.2, hkey, (Except.ok.inj h).symm⟩

end

end ArchiveTables

end MarketDataRecorder
