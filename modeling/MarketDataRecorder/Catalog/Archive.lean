import MarketDataRecorder.Catalog.Chunks
import MarketDataRecorder.Catalog.Receipt

/-!
# Archive ownership in the Catalog

`storage/catalog/archive_ops.py`: a chunk that is sealed may be reserved for one archive on this
host, or for one remote authority, and its lifecycle goes on under that owner. Ids and idempotency
keys are the texts that the tables hold. `now` is what the clock reads. As in the chunk lifecycle,
a call is one transaction and an error leaves the tables as they were.
-/

namespace MarketDataRecorder

/-! ## States -/

/-- `ArchiveState`. -/
inductive ArchiveState where
  | copying
  | verifying
  | verified
  | localDeletePending
  | localDeleted
  deriving DecidableEq, Repr

def ArchiveState.text : ArchiveState → String
  | .copying => "COPYING"
  | .verifying => "VERIFYING"
  | .verified => "VERIFIED"
  | .localDeletePending => "LOCAL_DELETE_PENDING"
  | .localDeleted => "LOCAL_DELETED"

/-- `RemoteArchiveState`. -/
inductive RemoteArchiveState where
  | remoteDeletePending
  | remoteDeleted
  deriving DecidableEq, Repr

/-- `StorageControlState`. -/
inductive StorageControlState where
  | active
  | ejectPending
  | safeToRemove
  deriving DecidableEq, Repr

def StorageControlState.text : StorageControlState → String
  | .active => "ACTIVE"
  | .ejectPending => "EJECT_PENDING"
  | .safeToRemove => "SAFE_TO_REMOVE"

/-- `ARCHIVE_TRANSITIONS`. -/
def archiveTransitions : ArchiveState → List ArchiveState
  | .copying => [.verifying]
  | .verifying => [.verified]
  | .verified => [.localDeletePending]
  | .localDeletePending => [.localDeleted]
  | .localDeleted => []

/-- `ARCHIVE_CHUNK_STATES`. -/
def archiveChunkStates : ArchiveState → ChunkState
  | .copying => .archiveCopying
  | .verifying => .archiveVerifying
  | .verified => .archivedVerified
  | .localDeletePending => .localDeletePending
  | .localDeleted => .localDeleted

/-- The two tables agree: an archive transition is a transition of its chunk. -/
theorem archiveChunkStates_mem {fromState toState : ArchiveState}
    (h : toState ∈ archiveTransitions fromState) :
    archiveChunkStates toState ∈ allowedTransitions (archiveChunkStates fromState) := by
  cases fromState <;> cases toState <;> simp_all [archiveTransitions, archiveChunkStates,
    allowedTransitions]

/-! ## Rows -/

/-- A row of `chunk_transitions`, `archive_transaction_events` or `remote_archive_events`: the owner
is the chunk, the transaction or the receipt. -/
structure LifecycleEvent (σ : Type) where
  owner : String
  fromState : Option σ
  toState : σ
  occurredAtUtcNs : Int
  evidence : Value
  idempotencyKey : String
  deriving DecidableEq

/-- What a caller gives for a reservation, and the row keeps. -/
structure ArchiveIdentity where
  transactionId : String
  chunkId : String
  storageId : String
  market : String
  stream : String
  sourceRelativePath : String
  sourceManifestRelativePath : String
  sourceManifestSha256 : String
  targetRelativePath : String
  targetTempRelativePath : String
  externalManifestRelativePath : String
  storedBytes : Int
  storedSha256 : String
  deriving DecidableEq

/-- A row of `archive_transactions`. -/
structure ArchiveTransaction extends ArchiveIdentity where
  state : ArchiveState
  createdAtUtcNs : Int
  updatedAtUtcNs : Int
  verifiedAtUtcNs : Option Int := none
  localDeletedAtUtcNs : Option Int := none
  deriving DecidableEq

/-- A row of `remote_archive_transactions`; its other columns repeat the receipt. -/
structure RemoteArchiveTransaction where
  receipt : RemoteArchiveReceipt
  state : RemoteArchiveState
  market : String
  stream : String
  createdAtUtcNs : Int
  updatedAtUtcNs : Int
  remoteDeletedAtUtcNs : Option Int := none
  deriving DecidableEq

/-- A row of `storage_control`. -/
structure StorageControl where
  state : StorageControlState
  requestId : Option String
  updatedAtUtcNs : Int
  evidence : Value
  deriving DecidableEq

/-- The tables of the chunk and archive lifecycle; events in the order of their ids. -/
structure ArchiveTables where
  chunks : SortedDict String ChunkRow := .empty
  chunkTransitions : List (LifecycleEvent ChunkState) := []
  archiveTransactions : SortedDict String ArchiveTransaction := .empty
  archiveEvents : List (LifecycleEvent ArchiveState) := []
  remoteTransactions : SortedDict String RemoteArchiveTransaction := .empty
  remoteEvents : List (LifecycleEvent RemoteArchiveState) := []
  storageTargets : List String := []
  storageControl : SortedDict String StorageControl := .empty
  deriving DecidableEq

/-! ## Events -/

def hasEvent {σ : Type} (events : List (LifecycleEvent σ)) (key : String) : Bool :=
  events.any fun event => event.idempotencyKey = key

/-- `INSERT` of an event: its key is unique. -/
def insertEvent {σ : Type} (events : List (LifecycleEvent σ)) (event : LifecycleEvent σ) :
    Except String (List (LifecycleEvent σ)) :=
  if hasEvent events event.idempotencyKey then
    .error "UNIQUE constraint failed: idempotency_key"
  else .ok (events ++ [event])

section

variable {σ : Type} {events : List (LifecycleEvent σ)} {event : LifecycleEvent σ} {key : String}

@[simp] theorem hasEvent_append (more : List (LifecycleEvent σ)) :
    hasEvent (events ++ more) key = (hasEvent events key || hasEvent more key) := by
  simp [hasEvent]

theorem insertEvent_eq_ok {events' : List (LifecycleEvent σ)}
    (h : insertEvent events event = .ok events') :
    hasEvent events event.idempotencyKey = false ∧ events' = events ++ [event] := by
  unfold insertEvent at h
  split at h
  · cases h
  · next hkey => exact ⟨by simpa using hkey, (Except.ok.inj h).symm⟩

end

/-! ## Chunk calls -/

namespace ArchiveTables

variable (tables : ArchiveTables)

/-- `Catalog.state`. -/
def state (chunkId : String) : Option ChunkState := (tables.chunks.get? chunkId).map ChunkRow.state

def createKey (chunkId : String) : String := "create:" ++ chunkId
def sealingKey (chunkId : String) : String := "sealing:" ++ chunkId

def creation (chunkId : String) (now : Int) : LifecycleEvent ChunkState :=
  { owner := chunkId
    fromState := none
    toState := .active
    occurredAtUtcNs := now
    evidence := .dict []
    idempotencyKey := createKey chunkId }

/-- `register_active`: two `INSERT OR IGNORE`. -/
def registerActive (chunkId partialPath : String) (createdAtUtcNs now : Int) : ArchiveTables :=
  { tables with
    chunks :=
      if (tables.chunks.get? chunkId).isSome then tables.chunks
      else tables.chunks.insert chunkId
        { state := .active, partialPath := some partialPath, createdAtUtcNs := createdAtUtcNs }
    chunkTransitions :=
      if hasEvent tables.chunkTransitions (createKey chunkId) then tables.chunkTransitions
      else tables.chunkTransitions ++ [creation chunkId now] }

/-- The evidence of a boundary marker's seal. -/
def boundaryMarkerEvidence (sealIntent : Value) : Value :=
  .dict [("seal_intent", sealIntent), ("verified_frames", .int 0)]

/-- `register_boundary_marker_sealing`. -/
def registerBoundaryMarkerSealing (chunkId partialPath : String) (createdAtUtcNs : Int)
    (sealIntent : Value) (now : Int) : Except String ArchiveTables :=
  if chunkId = "" ∨ partialPath = "" ∨ createdAtUtcNs < 0 then
    .error "invalid boundary marker identity"
  else match tables.chunks.get? chunkId with
    | none => do
      let created ← insertEvent tables.chunkTransitions (creation chunkId now)
      let sealing ← insertEvent created
        { owner := chunkId
          fromState := some .active
          toState := .sealing
          occurredAtUtcNs := now
          evidence := boundaryMarkerEvidence sealIntent
          idempotencyKey := sealingKey chunkId }
      return {
        tables with
        chunks := tables.chunks.insert chunkId
          { state := .sealing, partialPath := some partialPath, createdAtUtcNs := createdAtUtcNs }
        chunkTransitions := sealing }
    -- Known already: the row and the recorded intent must be the same.
    | some existing =>
      if existing.state ≠ .sealing ∨ existing.partialPath ≠ some partialPath ∨
          existing.createdAtUtcNs ≠ createdAtUtcNs then
        .error s!"boundary marker identity conflict: {chunkId}"
      else match tables.chunkTransitions.find? fun e => e.idempotencyKey = sealingKey chunkId with
        | none => .error s!"boundary marker seal intent conflict: {chunkId}"
        | some recorded =>
          if recorded.evidence ≠ boundaryMarkerEvidence sealIntent then
            .error s!"boundary marker seal intent conflict: {chunkId}"
          else .ok tables

/-- `transition`: `update` are the `fields` that change with the state. -/
def transition (chunkId : String) (toState : ChunkState) (idempotencyKey : String)
    (evidence : Value) (update : ChunkRow → ChunkRow) (now : Int) : Except String ArchiveTables :=
  if hasEvent tables.chunkTransitions idempotencyKey then .ok tables
  else match tables.chunks.get? chunkId with
    | none => .error s!"unknown chunk {chunkId}"
    | some row =>
      let recorded : LifecycleEvent ChunkState :=
        { owner := chunkId
          fromState := some row.state
          toState := toState
          occurredAtUtcNs := now
          evidence := evidence
          idempotencyKey := idempotencyKey }
      if row.state = toState then
        .ok { tables with chunkTransitions := tables.chunkTransitions ++ [recorded] }
      else if toState ∉ allowedTransitions row.state then
        .error s!"invalid transition {row.state.text} -> {toState.text}"
      else
        .ok {
          tables with
          chunks := tables.chunks.insert chunkId { update row with state := toState }
          chunkTransitions := tables.chunkTransitions ++ [recorded] }

/-! ## Archives on this host -/

/-- The state in `storage_control`; a target without a row is active. -/
def storageControlState (storageId : String) : StorageControlState :=
  ((tables.storageControl.get? storageId).map StorageControl.state).getD .active

/-- `archive_transaction_for_chunk`. -/
def archiveTransactionForChunk (chunkId : String) : Option ArchiveTransaction :=
  (tables.archiveTransactions.items.find? fun item => item.2.chunkId = chunkId).map Prod.snd

/-- `remote_archive_transaction_for_chunk`, before the row is validated. -/
def remoteTransactionForChunk (chunkId : String) : Option RemoteArchiveTransaction :=
  (tables.remoteTransactions.items.find? fun item => item.2.receipt.chunkId = chunkId).map Prod.snd

/-- The chunk goes on in a state that its owner gives it. -/
def setChunkState (chunkId : String) (toState : ChunkState) : SortedDict String ChunkRow :=
  match tables.chunks.get? chunkId with
  | none => tables.chunks
  | some row => tables.chunks.insert chunkId { row with state := toState }

/-- The texts that make an identity, none of them empty. -/
def identityValues (identity : ArchiveIdentity) : List String :=
  [identity.transactionId, identity.chunkId, identity.storageId, identity.market, identity.stream,
   identity.sourceRelativePath, identity.sourceManifestRelativePath, identity.sourceManifestSha256,
   identity.targetRelativePath, identity.targetTempRelativePath,
   identity.externalManifestRelativePath, identity.storedSha256]

def identityPaths (identity : ArchiveIdentity) : List String :=
  [identity.sourceRelativePath, identity.sourceManifestRelativePath, identity.targetRelativePath,
   identity.targetTempRelativePath, identity.externalManifestRelativePath]

def archiveReserveKey (transactionId : String) : String := "archive-reserve:" ++ transactionId
def reserveKey (transactionId : String) : String := "reserve:" ++ transactionId

def reservationEvidence (identity : ArchiveIdentity) : Value :=
  .dict [("storage_id", .str identity.storageId), ("transaction_id", .str identity.transactionId)]

/-- `reserve_archive_transaction`: the row, and the tables. -/
def reserveArchiveTransaction (identity : ArchiveIdentity) (now : Int) :
    Except String (ArchiveTransaction × ArchiveTables) :=
  if "" ∈ identityValues identity ∨ identity.storedBytes < 0 then
    .error "archive transaction identity is invalid"
  else match (identityPaths identity).find? fun path => ! isRelativePath path with
    | some path => .error s!"unsafe relative path: '{path}'"
    | none =>
      if tables.storageControlState identity.storageId ≠ .active then
        let control := tables.storageControlState identity.storageId
        .error s!"storage target blocks new archive allocation: {control.text}"
      else if (tables.remoteTransactionForChunk identity.chunkId).isSome then
        .error "remote archive ownership already exists"
      -- A chunk that is reserved already is answered before its state is looked at.
      else match tables.archiveTransactionForChunk identity.chunkId with
        | some existing =>
          if existing.toArchiveIdentity ≠ identity then
            .error "chunk already has a different archive transaction"
          else .ok (existing, tables)
        | none =>
          if tables.state identity.chunkId ≠ some .sealed then
            .error "only a SEALED chunk may reserve archival"
          -- The primary key of the table.
          else if (tables.archiveTransactions.get? identity.transactionId).isSome then
            .error "UNIQUE constraint failed: archive_transactions.transaction_id"
          else do
            let transitions ← insertEvent tables.chunkTransitions
              { owner := identity.chunkId
                fromState := some .sealed
                toState := .archiveCopying
                occurredAtUtcNs := now
                evidence := reservationEvidence identity
                idempotencyKey := archiveReserveKey identity.transactionId }
            let events ← insertEvent tables.archiveEvents
              { owner := identity.transactionId
                fromState := none
                toState := .copying
                occurredAtUtcNs := now
                evidence := reservationEvidence identity
                idempotencyKey := reserveKey identity.transactionId }
            let row : ArchiveTransaction :=
              { identity with
                state := .copying
                createdAtUtcNs := now
                updatedAtUtcNs := now }
            return (row, {
              tables with
              chunks := tables.setChunkState identity.chunkId .archiveCopying
              chunkTransitions := transitions
              archiveTransactions :=
                tables.archiveTransactions.insert identity.transactionId row
              archiveEvents := events })

def chunkKey (idempotencyKey : String) : String := "chunk:" ++ idempotencyKey

/-- `transition_archive`. -/
def transitionArchive (transactionId : String) (toState : ArchiveState) (idempotencyKey : String)
    (evidence : Value) (verifiedAtUtcNs localDeletedAtUtcNs : Option Int) (now : Int) :
    Except String ArchiveTables :=
  -- A repeated key returns before the evidence is compared.
  if hasEvent tables.archiveEvents idempotencyKey then .ok tables
  else match tables.archiveTransactions.get? transactionId with
    | none => .error s!"unknown archive transaction {transactionId}"
    | some row =>
      -- The state itself is let through: under a new key it is written again.
      if row.state ≠ toState ∧ toState ∉ archiveTransitions row.state then
        .error s!"invalid archive transition {row.state.text} -> {toState.text}"
      else if tables.state row.chunkId ≠ some (archiveChunkStates row.state) then
        .error "archive transaction and chunk state disagree"
      else do
        let events ← insertEvent tables.archiveEvents
          { owner := transactionId
            fromState := some row.state
            toState := toState
            occurredAtUtcNs := now
            evidence := evidence
            idempotencyKey := idempotencyKey }
        let transitions ← insertEvent tables.chunkTransitions
          { owner := row.chunkId
            fromState := some (archiveChunkStates row.state)
            toState := archiveChunkStates toState
            occurredAtUtcNs := now
            evidence := evidence
            idempotencyKey := chunkKey idempotencyKey }
        return {
          tables with
          chunks := tables.setChunkState row.chunkId (archiveChunkStates toState)
          chunkTransitions := transitions
          archiveTransactions := tables.archiveTransactions.insert transactionId
            { row with
              state := toState
              updatedAtUtcNs := now
              verifiedAtUtcNs := verifiedAtUtcNs.or row.verifiedAtUtcNs
              localDeletedAtUtcNs := localDeletedAtUtcNs.or row.localDeletedAtUtcNs }
          archiveEvents := events }

/-! ## What the calls do -/

variable {tables} {tables' : ArchiveTables} {chunkId : String} {now : Int}

theorem archiveTransactionForChunk_eq_none :
    tables.archiveTransactionForChunk chunkId = none ↔
      ∀ id row, tables.archiveTransactions.get? id = some row → row.chunkId ≠ chunkId := by
  simp only [archiveTransactionForChunk, Option.map_eq_none_iff, List.find?_eq_none,
    decide_eq_true_eq, SortedDict.get?_eq_some_iff, Prod.forall]

theorem remoteTransactionForChunk_eq_none :
    tables.remoteTransactionForChunk chunkId = none ↔
      ∀ id row, tables.remoteTransactions.get? id = some row → row.receipt.chunkId ≠ chunkId := by
  simp only [remoteTransactionForChunk, Option.map_eq_none_iff, List.find?_eq_none,
    decide_eq_true_eq, SortedDict.get?_eq_some_iff, Prod.forall]

theorem setChunkState_get? (toState : ChunkState) (other : String) :
    (tables.setChunkState chunkId toState).get? other =
      if other = chunkId then (tables.chunks.get? chunkId).map fun row =>
        { row with state := toState }
      else tables.chunks.get? other := by
  unfold setChunkState
  cases hrow : tables.chunks.get? chunkId with
  | none =>
    by_cases ho : other = chunkId
    · rw [if_pos ho, ho, hrow]
      rfl
    · rw [if_neg ho]
  | some row => rw [SortedDict.get?_insert, Option.map_some]

/-- **A transition** does nothing where its key is there, else it adds one event and the state. -/
theorem transition_eq_ok {toState : ChunkState} {key : String} {evidence : Value}
    {update : ChunkRow → ChunkRow}
    (h : tables.transition chunkId toState key evidence update now = .ok tables') :
    (hasEvent tables.chunkTransitions key = true ∧ tables' = tables) ∨
      (hasEvent tables.chunkTransitions key = false ∧
        ∃ row, tables.chunks.get? chunkId = some row ∧
          (row.state = toState ∨ toState ∈ allowedTransitions row.state) ∧
          tables' = {
            tables with
            chunks :=
              if row.state = toState then tables.chunks
              else tables.chunks.insert chunkId { update row with state := toState }
            chunkTransitions := tables.chunkTransitions ++
              [⟨chunkId, some row.state, toState, now, evidence, key⟩] }) := by
  unfold transition at h
  split at h
  · next hkey => exact Or.inl ⟨hkey, (Except.ok.inj h).symm⟩
  · next hkey =>
    refine Or.inr ⟨by simpa using hkey, ?_⟩
    split at h
    · cases h
    · next row hrow =>
      simp only at h
      split at h
      · next hsame =>
        refine ⟨row, hrow, Or.inl hsame, ?_⟩
        rw [if_pos hsame]
        exact (Except.ok.inj h).symm
      · next hne =>
        split at h
        · cases h
        · next hallowed =>
          refine ⟨row, hrow, Or.inr (not_not.mp hallowed), ?_⟩
          rw [if_neg hne]
          exact (Except.ok.inj h).symm

/-- **A boundary marker** is new, with its creation and its seal intent, or it is there already. -/
theorem registerBoundaryMarkerSealing_eq_ok {partialPath : String} {createdAtUtcNs : Int}
    {sealIntent : Value}
    (h : tables.registerBoundaryMarkerSealing chunkId partialPath createdAtUtcNs sealIntent now =
      .ok tables') :
    tables' = tables ∨
      (tables.chunks.get? chunkId = none ∧
        hasEvent tables.chunkTransitions (createKey chunkId) = false ∧
        hasEvent tables.chunkTransitions (sealingKey chunkId) = false ∧
        tables' = {
          tables with
          chunks := tables.chunks.insert chunkId
            { state := .sealing, partialPath := some partialPath, createdAtUtcNs := createdAtUtcNs }
          chunkTransitions := tables.chunkTransitions ++ [creation chunkId now,
            ⟨chunkId, some .active, .sealing, now, boundaryMarkerEvidence sealIntent,
              sealingKey chunkId⟩] }) := by
  unfold registerBoundaryMarkerSealing at h
  split at h
  · cases h
  split at h
  · next hnone =>
    obtain ⟨created, hcreated, h⟩ := except_bind_eq_ok h
    obtain ⟨sealing, hsealing, h⟩ := except_bind_eq_ok h
    obtain ⟨hcreate, rfl⟩ := insertEvent_eq_ok hcreated
    obtain ⟨hseal, rfl⟩ := insertEvent_eq_ok hsealing
    refine Or.inr ⟨hnone, hcreate, ?_, ?_⟩
    · rw [hasEvent_append, Bool.or_eq_false_iff] at hseal
      exact hseal.1
    · rw [← Except.ok.inj h, List.append_assoc]
      rfl
  · split at h
    · cases h
    · split at h
      · cases h
      · split at h
        · cases h
        · exact Or.inl (Except.ok.inj h).symm

/-- The row that a reservation inserts. -/
def reservedRow (identity : ArchiveIdentity) (now : Int) : ArchiveTransaction :=
  { identity with state := .copying, createdAtUtcNs := now, updatedAtUtcNs := now }

/-- **A reservation** is there already, or a sealed chunk without an owner gets one. -/
theorem reserveArchiveTransaction_eq_ok {identity : ArchiveIdentity} {row : ArchiveTransaction}
    (h : tables.reserveArchiveTransaction identity now = .ok (row, tables')) :
    (tables.archiveTransactionForChunk identity.chunkId = some row ∧
        row.toArchiveIdentity = identity ∧ tables' = tables) ∨
      (row = reservedRow identity now ∧
        tables.storageControlState identity.storageId = .active ∧
        tables.remoteTransactionForChunk identity.chunkId = none ∧
        tables.archiveTransactionForChunk identity.chunkId = none ∧
        tables.state identity.chunkId = some .sealed ∧
        tables.archiveTransactions.get? identity.transactionId = none ∧
        hasEvent tables.chunkTransitions (archiveReserveKey identity.transactionId) = false ∧
        hasEvent tables.archiveEvents (reserveKey identity.transactionId) = false ∧
        tables' = {
          tables with
          chunks := tables.setChunkState identity.chunkId .archiveCopying
          chunkTransitions := tables.chunkTransitions ++
            [⟨identity.chunkId, some .sealed, .archiveCopying, now, reservationEvidence identity,
              archiveReserveKey identity.transactionId⟩]
          archiveTransactions :=
            tables.archiveTransactions.insert identity.transactionId (reservedRow identity now)
          archiveEvents := tables.archiveEvents ++
            [⟨identity.transactionId, none, .copying, now, reservationEvidence identity,
              reserveKey identity.transactionId⟩] }) := by
  unfold reserveArchiveTransaction at h
  split at h
  · cases h
  split at h
  · cases h
  split at h
  · cases h
  next hactive =>
  split at h
  · cases h
  next hremote =>
  split at h
  · next existing hexisting =>
    split at h
    · cases h
    · next heq =>
      cases Except.ok.inj h
      exact Or.inl ⟨hexisting, not_not.mp heq, rfl⟩
  · next hnone =>
    split at h
    · cases h
    next hsealed =>
    split at h
    · cases h
    next hid =>
    obtain ⟨transitions, htransitions, h⟩ := except_bind_eq_ok h
    obtain ⟨events, hevents, h⟩ := except_bind_eq_ok h
    obtain ⟨hkey, rfl⟩ := insertEvent_eq_ok htransitions
    obtain ⟨hevent, rfl⟩ := insertEvent_eq_ok hevents
    cases Except.ok.inj h
    exact Or.inr ⟨rfl, not_not.mp hactive, by simpa using hremote, hnone,
      not_not.mp hsealed, by simpa using hid, hkey,
      hevent, rfl⟩

/-- The row behind an archive transition. -/
def advancedRow (row : ArchiveTransaction) (toState : ArchiveState)
    (verifiedAtUtcNs localDeletedAtUtcNs : Option Int) (now : Int) : ArchiveTransaction :=
  { row with
    state := toState
    updatedAtUtcNs := now
    verifiedAtUtcNs := verifiedAtUtcNs.or row.verifiedAtUtcNs
    localDeletedAtUtcNs := localDeletedAtUtcNs.or row.localDeletedAtUtcNs }

/-- **An archive transition** takes the transaction and its chunk along together. -/
theorem transitionArchive_eq_ok {transactionId : String} {toState : ArchiveState} {key : String}
    {evidence : Value} {verifiedAtUtcNs localDeletedAtUtcNs : Option Int}
    (h : tables.transitionArchive transactionId toState key evidence verifiedAtUtcNs
      localDeletedAtUtcNs now = .ok tables') :
    (hasEvent tables.archiveEvents key = true ∧ tables' = tables) ∨
      (hasEvent tables.archiveEvents key = false ∧
        hasEvent tables.chunkTransitions (chunkKey key) = false ∧
        ∃ row, tables.archiveTransactions.get? transactionId = some row ∧
          (row.state = toState ∨ toState ∈ archiveTransitions row.state) ∧
          tables.state row.chunkId = some (archiveChunkStates row.state) ∧
          tables' = {
            tables with
            chunks := tables.setChunkState row.chunkId (archiveChunkStates toState)
            chunkTransitions := tables.chunkTransitions ++
              [⟨row.chunkId, some (archiveChunkStates row.state), archiveChunkStates toState, now,
                evidence, chunkKey key⟩]
            archiveTransactions := tables.archiveTransactions.insert transactionId
              (advancedRow row toState verifiedAtUtcNs localDeletedAtUtcNs now)
            archiveEvents := tables.archiveEvents ++
              [⟨transactionId, some row.state, toState, now, evidence, key⟩] }) := by
  unfold transitionArchive at h
  split at h
  · next hkey => exact Or.inl ⟨hkey, (Except.ok.inj h).symm⟩
  next hkey =>
  split at h
  · cases h
  next row hrow =>
  split at h
  · cases h
  next hallowed =>
  split at h
  · cases h
  next hagree =>
  obtain ⟨events, hevents, h⟩ := except_bind_eq_ok h
  obtain ⟨transitions, htransitions, h⟩ := except_bind_eq_ok h
  obtain ⟨hevent, rfl⟩ := insertEvent_eq_ok hevents
  obtain ⟨hchunk, rfl⟩ := insertEvent_eq_ok htransitions
  refine Or.inr ⟨hevent, hchunk, row, hrow, ?_, not_not.mp hagree, (Except.ok.inj h).symm⟩
  by_cases hsame : row.state = toState
  · exact Or.inl hsame
  · exact Or.inr (not_not.mp fun hc => hallowed ⟨hsame, hc⟩)

theorem insertEvent_of_hasEvent {σ : Type} {events : List (LifecycleEvent σ)}
    {event : LifecycleEvent σ} (h : hasEvent events event.idempotencyKey = false) :
    insertEvent events event = .ok (events ++ [event]) := by
  simp [insertEvent, h]

/-- An allowed transition under keys that are new goes through. -/
theorem transitionArchive_of_allowed {transactionId : String} {row : ArchiveTransaction}
    {toState : ArchiveState} {key : String} {evidence : Value}
    {verifiedAtUtcNs localDeletedAtUtcNs : Option Int}
    (hkey : hasEvent tables.archiveEvents key = false)
    (hchunk : hasEvent tables.chunkTransitions (chunkKey key) = false)
    (hrow : tables.archiveTransactions.get? transactionId = some row)
    (hallowed : toState ∈ archiveTransitions row.state)
    (hagree : tables.state row.chunkId = some (archiveChunkStates row.state)) :
    tables.transitionArchive transactionId toState key evidence verifiedAtUtcNs localDeletedAtUtcNs
      now = .ok {
        tables with
        chunks := tables.setChunkState row.chunkId (archiveChunkStates toState)
        chunkTransitions := tables.chunkTransitions ++
          [⟨row.chunkId, some (archiveChunkStates row.state), archiveChunkStates toState, now,
            evidence, chunkKey key⟩]
        archiveTransactions := tables.archiveTransactions.insert transactionId
          (advancedRow row toState verifiedAtUtcNs localDeletedAtUtcNs now)
        archiveEvents := tables.archiveEvents ++
          [⟨transactionId, some row.state, toState, now, evidence, key⟩] } := by
  unfold transitionArchive
  rw [if_neg (by rw [hkey]; decide), hrow]
  simp only
  rw [if_neg (fun h => h.2 hallowed), if_neg (not_not.mpr hagree), insertEvent_of_hasEvent hkey]
  show (insertEvent tables.chunkTransitions _ >>= _) = _
  rw [insertEvent_of_hasEvent hchunk]
  rfl

end ArchiveTables

end MarketDataRecorder
