import MarketDataRecorder.Catalog.Lifecycle
import MarketDataRecorder.Lib.Transition

/-!
# The lifecycles under their calls

The calls come in any order, with any arguments and with keys that repeat, and the lifecycles agree
all along. One call has to be kept from another's key: `register_active` ignores the two rows that
it inserts one by one, so a transition under the key `create:…` of a chunk that is not registered
yet takes the place of its creation.
-/

namespace MarketDataRecorder

/-! ## The calls -/

/-- The calls on the lifecycles, with the arguments that callers give. -/
inductive LifecycleCall where
  | registerActive (chunkId partialPath : String) (createdAtUtcNs : Int)
  | registerBoundaryMarkerSealing (chunkId partialPath : String) (createdAtUtcNs : Int)
      (sealIntent : Value)
  | transition (chunkId : String) (toState : ChunkState) (idempotencyKey : String)
      (evidence : Value) (update : ChunkRow → ChunkRow)
  | reserveArchiveTransaction (identity : ArchiveIdentity)
  | transitionArchive (transactionId : String) (toState : ArchiveState) (idempotencyKey : String)
      (evidence : Value) (verifiedAtUtcNs localDeletedAtUtcNs : Option Int)
  | reserveRemoteArchiveTransaction (receiptBytes : Option RemoteArchiveReceipt)
      (market stream : String) (expectedChunk : ChunkSource)
  | commitRemoteDeleted (deletion : RemoteDeletion)

namespace LifecycleCall

open ArchiveTables

/-- The chunk states that the callers of `transition` request. -/
def spoolStates : List ChunkState := [.recovered, .sealing, .sealed, .quarantined]

/-- A transition goes to a spool state. -/
def OfSpool : LifecycleCall → Prop
  | transition _ toState _ _ _ => toState ∈ spoolStates
  | _ => True

/-- A transition does not take the creation key of a chunk that is not registered. -/
def LeavesCreation (tables : ArchiveTables) : LifecycleCall → Prop
  | transition _ _ key _ _ => ∀ other, key = createKey other → (tables.state other).isSome = true
  | _ => True

/-- The call has a key that is recorded. -/
def repeatsKey (tables : ArchiveTables) : LifecycleCall → Bool
  | registerActive chunkId _ _ => hasEvent tables.chunkTransitions (createKey chunkId)
  | registerBoundaryMarkerSealing chunkId _ _ _ =>
    hasEvent tables.chunkTransitions (createKey chunkId) ||
      hasEvent tables.chunkTransitions (sealingKey chunkId)
  | transition _ _ key _ _ => hasEvent tables.chunkTransitions key
  | reserveArchiveTransaction identity =>
    hasEvent tables.chunkTransitions (archiveReserveKey identity.transactionId) ||
      hasEvent tables.archiveEvents (reserveKey identity.transactionId)
  | transitionArchive _ _ key _ _ _ =>
    hasEvent tables.archiveEvents key || hasEvent tables.chunkTransitions (chunkKey key)
  | reserveRemoteArchiveTransaction receiptBytes _ _ _ =>
    receiptBytes.any fun receipt =>
      hasEvent tables.remoteEvents (remoteAuthorizeKey receipt.receiptId)
  | commitRemoteDeleted deletion =>
    hasEvent tables.remoteEvents (remoteDeletedKey deletion.receiptId)

variable (identitySha256 : RemoteArchiveReceipt → String)

/-- The tables after a transaction, with the error of it. -/
def committed (tables : ArchiveTables) :
    Except String ArchiveTables → Except String Unit × ArchiveTables
  | .error e => (.error e, tables)
  | .ok tables' => (.ok (), tables')

/-- A transaction on the authorities, and the readback of the row behind it. -/
def readBack (tables : ArchiveTables) :
    Except String (String × ArchiveTables) → Except String Unit × ArchiveTables
  | .error e => (.error e, tables)
  | .ok (receiptId, tables') =>
    match remoteArchiveTransaction identitySha256 tables' receiptId with
    | .error e => (.error e, tables')
    | .ok none => (.error "remote authorization readback failed", tables')
    | .ok (some _) => (.ok (), tables')

/-- A readback changes nothing. -/
theorem readBack_snd (tables tables' : ArchiveTables) (receiptId : String) :
    (readBack identitySha256 tables (.ok (receiptId, tables'))).2 = tables' := by
  unfold readBack
  simp only
  split <;> rfl

/-- What a call returns or raises, and what it leaves. -/
def perform (tables : ArchiveTables) (now : Int) :
    LifecycleCall → Except String Unit × ArchiveTables
  | registerActive chunkId partialPath createdAt =>
    (.ok (), tables.registerActive chunkId partialPath createdAt now)
  | registerBoundaryMarkerSealing chunkId partialPath createdAt sealIntent =>
    committed tables
      (tables.registerBoundaryMarkerSealing chunkId partialPath createdAt sealIntent now)
  | transition chunkId toState key evidence update =>
    committed tables (tables.transition chunkId toState key evidence update now)
  | reserveArchiveTransaction identity =>
    committed tables ((tables.reserveArchiveTransaction identity now).map Prod.snd)
  | transitionArchive transactionId toState key evidence verifiedAt localDeletedAt =>
    committed tables
      (tables.transitionArchive transactionId toState key evidence verifiedAt localDeletedAt now)
  | reserveRemoteArchiveTransaction receiptBytes market stream expectedChunk =>
    readBack identitySha256 tables
      ((ArchiveTables.reserveRemoteArchiveTransaction identitySha256 tables receiptBytes market
        stream expectedChunk now).map fun done => (done.1.receiptId, done.2))
  | commitRemoteDeleted deletion =>
    readBack identitySha256 tables
      ((ArchiveTables.commitRemoteDeleted identitySha256 tables deletion now).map fun tables' =>
        (deletion.receiptId, tables'))

/-- The Catalog under its calls, each at its time; storage control may be anything at first. -/
def lifecycle : TransitionSystem ArchiveTables (LifecycleCall × Int) where
  initial tables := ∃ storageTargets storageControl,
    tables = { storageTargets := storageTargets, storageControl := storageControl }
  step tables call := some (call.1.perform identitySha256 tables call.2).2

/-! ## Keys -/

variable {identitySha256} {tables tables' : ArchiveTables} {now : Int}

theorem createKey_injective {a b : String} (h : createKey a = createKey b) : a = b := by
  simpa [createKey] using h

/-- No key that the Catalog makes for another purpose is a creation key. -/
theorem ne_createKey (a b : String) :
    sealingKey a ≠ createKey b ∧ archiveReserveKey a ≠ createKey b ∧ chunkKey a ≠ createKey b := by
  refine ⟨?_, ?_, ?_⟩
  · intro h
    have htext := congrArg String.toList h
    simp [sealingKey, createKey] at htext
  · intro h
    have htext := congrArg String.toList h
    simp [archiveReserveKey, createKey] at htext
  · intro h
    have htext := congrArg String.toList h
    simp [chunkKey, createKey] at htext

@[simp] theorem hasEvent_singleton {σ : Type} (event : LifecycleEvent σ) (key : String) :
    hasEvent [event] key = decide (event.idempotencyKey = key) := by
  simp [hasEvent]

/-! ## What the calls keep -/

section

variable (h : LifecycleInvariant identitySha256 tables)
include h

theorem registerActive_eq_self {chunkId partialPath : String} {createdAt : Int}
    (hregistered : (tables.state chunkId).isSome = true) :
    tables.registerActive chunkId partialPath createdAt now = tables := by
  have hkey := h.created chunkId
  rw [hregistered] at hkey
  have hrow : (tables.chunks.get? chunkId).isSome = true := by simpa [state] using hregistered
  simp [ArchiveTables.registerActive, ← hkey, hrow]

theorem registerActive_invariant (chunkId partialPath : String) (createdAt : Int) :
    LifecycleInvariant identitySha256
      (tables.registerActive chunkId partialPath createdAt now) := by
  cases hstate : tables.state chunkId with
  | some old =>
    rw [registerActive_eq_self h (by rw [hstate]; rfl)]
    exact h
  | none =>
    have hrow : tables.chunks.get? chunkId = none := by simpa [state] using hstate
    have hkey : hasEvent tables.chunkTransitions (createKey chunkId) = false := by
      rw [← h.created chunkId, hstate]
      rfl
    have hm : Moves tables (tables.registerActive chunkId partialPath createdAt now) chunkId
        [creation chunkId now] := by
      constructor
      · simp [ArchiveTables.registerActive, hkey]
      · intro event hevent
        rw [List.mem_singleton.mp hevent]
        rfl
      · rw [hstate]
        refine ⟨rfl, rfl, ?_⟩
        simp [LifecyclePath, creation, state, ArchiveTables.registerActive, hrow]
      · intro other ho
        simp [ArchiveTables.registerActive, hrow, ho]
      · intro _ _
        simp [creation]
      · intro other hother
        refine Or.inr (createKey_injective ?_)
        simpa [creation, eq_comm] using hother
    refine h.of_early chunkId hm (Or.inr ?_) rfl rfl rfl
    rw [hstate]
    decide

theorem registerBoundaryMarkerSealing_invariant {chunkId partialPath : String} {createdAt : Int}
    {sealIntent : Value}
    (hcall : tables.registerBoundaryMarkerSealing chunkId partialPath createdAt sealIntent now =
      .ok tables') : LifecycleInvariant identitySha256 tables' := by
  rcases registerBoundaryMarkerSealing_eq_ok hcall with rfl | ⟨hnone, -, -, rfl⟩
  · exact h
  · have hstate : tables.state chunkId = none := by rw [state, hnone]; rfl
    refine h.of_early chunkId ⟨rfl, ?_, ?_, ?_, ?_, ?_⟩ (Or.inr ?_) rfl rfl rfl
    · intro event hevent
      rcases List.mem_pair.mp hevent with rfl | rfl <;> rfl
    · rw [hstate]
      refine ⟨rfl, rfl, rfl, ?_, ?_⟩
      · exact Or.inr (by simp [creation, allowedTransitions])
      · simp [LifecyclePath, state]
    · intro other ho
      simp [ho]
    · intro _ _
      simp [hasEvent, creation]
    · intro other hother
      refine Or.inr (createKey_injective ?_)
      simpa [hasEvent, creation, (ne_createKey chunkId other).1, eq_comm] using hother
    · rw [hstate]
      decide

theorem transition_invariant {chunkId : String} {toState : ChunkState} {key : String}
    {evidence : Value} {update : ChunkRow → ChunkRow}
    (hspool : toState ∈ spoolStates)
    (hleaves : ∀ other, key = createKey other → (tables.state other).isSome = true)
    (hcall : tables.transition chunkId toState key evidence update now = .ok tables') :
    LifecycleInvariant identitySha256 tables' := by
  rcases transition_eq_ok hcall with ⟨-, rfl⟩ | ⟨-, row, hrow, hallowed, rfl⟩
  · exact h
  · have hstate : tables.state chunkId = some row.state := by rw [state, hrow]; rfl
    refine h.of_early chunkId ⟨rfl, ?_, ?_, ?_, ?_, ?_⟩ ?_ rfl rfl rfl
    · intro event hevent
      rw [List.mem_singleton.mp hevent]
    · rw [hstate]
      refine ⟨rfl, hallowed, ?_⟩
      by_cases hsame : row.state = toState
      · simp [LifecyclePath, state, hrow, hsame]
      · simp [LifecyclePath, state, hsame]
    · intro other ho
      by_cases hsame : row.state = toState
      · simp [hsame]
      · simp [hsame, ho]
    · intro hnone
      rw [hstate] at hnone
      cases hnone
    · intro other hother
      exact Or.inl (hleaves other (by simpa using hother))
    · -- a row that changes is in front of the archives: no spool state follows them
      by_cases hsame : row.state = toState
      · exact Or.inl (by simp [hsame])
      · refine Or.inr ?_
        have hto := hallowed.resolve_left hsame
        rw [hstate]
        revert hspool hto
        cases row.state <;> cases toState <;> decide

theorem reserveArchiveTransaction_invariant {identity : ArchiveIdentity} {row : ArchiveTransaction}
    (hcall : tables.reserveArchiveTransaction identity now = .ok (row, tables')) :
    LifecycleInvariant identitySha256 tables' := by
  rcases reserveArchiveTransaction_eq_ok hcall with
    ⟨-, -, rfl⟩ | ⟨rfl, -, hremote, harchive, hsealed, -, -, -, rfl⟩
  · exact h
  · have hchunk : tables.chunks.get? identity.chunkId ≠ none := by
      intro hnone
      rw [state, hnone] at hsealed
      cases hsealed
    obtain ⟨chunk, hrow⟩ := Option.ne_none_iff_exists'.mp hchunk
    have hnew : (tables.setChunkState identity.chunkId .archiveCopying).get? identity.chunkId =
        some { chunk with state := .archiveCopying } := by
      rw [setChunkState_get?, if_pos rfl, hrow]
      rfl
    rw [archiveTransactionForChunk_eq_none] at harchive
    refine h.of_archive ⟨rfl, ?_, ?_, ?_, ?_, ?_⟩ ?_ hremote ?_ rfl rfl rfl
    · intro event hevent
      rw [List.mem_singleton.mp hevent]
      rfl
    · show LifecyclePath (tables.state identity.chunkId) _ _
      rw [hsealed]
      refine ⟨rfl, Or.inr (by simp [allowedTransitions]), ?_⟩
      simp only [LifecyclePath, state, reservedRow]
      rw [hnew]
      rfl
    · intro other ho
      exact (setChunkState_get? _ _).trans (if_neg ho)
    · intro hnone
      have hstate : tables.state identity.chunkId = none := hnone
      rw [hsealed] at hstate
      cases hstate
    · intro other hother
      rw [hasEvent_singleton, decide_eq_true_eq] at hother
      exact absurd hother (ne_createKey _ other).2.1
    · simp only [state, reservedRow]
      rw [hnew]
      rfl
    · intro id old hold hsame
      exact absurd hsame (harchive id old hold)

theorem transitionArchive_invariant {transactionId : String} {toState : ArchiveState}
    {key : String} {evidence : Value} {verifiedAt localDeletedAt : Option Int}
    (hcall : tables.transitionArchive transactionId toState key evidence verifiedAt localDeletedAt
      now = .ok tables') : LifecycleInvariant identitySha256 tables' := by
  rcases transitionArchive_eq_ok hcall with
    ⟨-, rfl⟩ | ⟨-, -, row, hrow, hallowed, hagree, rfl⟩
  · exact h
  · have hchunk : tables.chunks.get? row.chunkId ≠ none := by
      intro hnone
      rw [state, hnone] at hagree
      cases hagree
    obtain ⟨chunk, hchunkRow⟩ := Option.ne_none_iff_exists'.mp hchunk
    have hnew : (tables.setChunkState row.chunkId (archiveChunkStates toState)).get? row.chunkId =
        some { chunk with state := archiveChunkStates toState } := by
      rw [setChunkState_get?, if_pos rfl, hchunkRow]
      rfl
    have hstep : archiveChunkStates row.state = archiveChunkStates toState ∨
        archiveChunkStates toState ∈ allowedTransitions (archiveChunkStates row.state) := by
      rcases hallowed with hsame | hto
      · exact Or.inl (by rw [hsame])
      · exact Or.inr (archiveChunkStates_mem hto)
    refine h.of_archive ⟨rfl, ?_, ?_, ?_, ?_, ?_⟩ ?_ ?_ ?_ rfl rfl rfl
    · intro event hevent
      rw [List.mem_singleton.mp hevent]
      rfl
    · show LifecyclePath (tables.state row.chunkId) _ _
      rw [hagree]
      refine ⟨rfl, hstep, ?_⟩
      simp only [LifecyclePath, state, advancedRow]
      rw [hnew]
      rfl
    · intro other ho
      exact (setChunkState_get? _ _).trans (if_neg ho)
    · intro hnone
      have hstate : tables.state row.chunkId = none := hnone
      rw [hagree] at hstate
      cases hstate
    · intro other hother
      rw [hasEvent_singleton, decide_eq_true_eq] at hother
      exact absurd hother (ne_createKey _ other).2.2
    · simp only [state, advancedRow]
      rw [hnew]
      rfl
    · rw [remoteTransactionForChunk_eq_none]
      exact fun id remote hremote => Ne.symm (h.oneOwner transactionId row id remote hrow hremote)
    · intro id old hold hsame
      exact h.oneArchive id old transactionId row hold hrow hsame

theorem filter_remoteEvents_eq_nil {receiptId : String}
    (hnone : tables.remoteTransactions.get? receiptId = none) :
    tables.remoteEvents.filter (fun event => event.owner = receiptId) = [] := by
  rw [List.filter_eq_nil_iff]
  intro event hevent
  have howned := h.remoteOwned event hevent
  intro howner
  rw [of_decide_eq_true howner, hnone] at howned
  cases howned

/-- Behind an authority, its row reads back. -/
theorem reserveRemoteArchiveTransaction_invariant {receiptBytes : Option RemoteArchiveReceipt}
    {market stream : String} {expectedChunk : ChunkSource} {receipt : RemoteArchiveReceipt}
    (hcall : ArchiveTables.reserveRemoteArchiveTransaction identitySha256 tables receiptBytes market
      stream expectedChunk now = .ok (receipt, tables')) :
    LifecycleInvariant identitySha256 tables' ∧
      (tables'.remoteTransactions.get? receipt.receiptId).isSome = true := by
  obtain ⟨-, hreceipt, -, hcases⟩ := reserveRemoteArchiveTransaction_eq_ok hcall
  rcases hcases with
    ⟨rfl, id, row, hrow, rfl, -⟩ |
    ⟨hmarket, hstream, hnow, hsource, harchive, hrows, -, rfl⟩
  · refine ⟨h, ?_⟩
    rw [(h.remoteValid id row hrow).1, hrow]
    rfl
  · have hnone : tables.remoteTransactions.get? receipt.receiptId = none := by
      refine Option.eq_none_iff_forall_ne_some.mpr ?_
      intro row hrow
      have hmem : row ∈ tables.remoteRowsFor receipt :=
        List.mem_map.mpr ⟨(receipt.receiptId, row), List.mem_filter.mpr
          ⟨SortedDict.get?_eq_some_iff.mp hrow, by simp⟩, rfl⟩
      rw [hrows] at hmem
      cases hmem
    have hpaths : isCanonicalRelativePath receipt.sourceRelativePath = true ∧
        isCanonicalRelativePath receipt.sourceManifestRelativePath = true ∧
        isCanonicalRelativePath receipt.artifactRelativePath = true := by
      simp only [RemoteArchiveReceipt.isValid, decide_eq_true_eq] at hreceipt
      exact ⟨hreceipt.2.2.2.2.2.2.1, hreceipt.2.2.2.2.2.2.2.1, hreceipt.2.2.2.2.2.2.2.2.1⟩
    refine ⟨h.of_remote rfl rfl harchive ?_, by simp⟩
    simp only [remoteRowValid, decide_eq_true_eq]
    refine ⟨?_, hreceipt, hmarket, hstream, isRelativePath_of_canonical hpaths.1,
      isRelativePath_of_canonical hpaths.2.1, isRelativePath_of_canonical hpaths.2.2, hsource, ?_⟩
    · simpa [remoteTimesValid, pendingRow] using hnow
    · rw [List.filter_append]
      show tables.remoteEvents.filter (fun event => event.owner = receipt.receiptId) ++ _ = _
      rw [filter_remoteEvents_eq_nil h hnone]
      simp [pendingRow, expectedRemoteEvents, authorizationEvent]

theorem commitRemoteDeleted_invariant {deletion : RemoteDeletion}
    (hcall : ArchiveTables.commitRemoteDeleted identitySha256 tables deletion now = .ok tables') :
    LifecycleInvariant identitySha256 tables' ∧
      (tables'.remoteTransactions.get? deletion.receiptId).isSome = true := by
  obtain ⟨hnow, row, hrow, hvalid, hpending, rfl, -, rfl⟩ := commitRemoteDeleted_eq_ok hcall
  have hfree : tables.archiveTransactionForChunk row.receipt.chunkId = none := by
    rw [archiveTransactionForChunk_eq_none]
    exact fun id archive harchive => h.oneOwner id archive _ row harchive hrow
  simp only [remoteRowValid, decide_eq_true_eq] at hvalid
  obtain ⟨htimes, hreceipt, hmarket, hstream, hpath, hmanifest, hartifact, hsource, hevents⟩ :=
    hvalid
  -- a pending row has no time of deletion, and its authorization is its only event
  have hundeleted : row.remoteDeletedAtUtcNs = none ∧ 0 ≤ row.createdAtUtcNs := by
    unfold remoteTimesValid at htimes
    rw [hpending] at htimes
    cases hdeleted : row.remoteDeletedAtUtcNs with
    | none =>
      rw [hdeleted] at htimes
      exact ⟨rfl, (of_decide_eq_true htimes).1⟩
    | some deletedAt =>
      rw [hdeleted] at htimes
      cases htimes
  refine ⟨h.of_remote rfl rfl hfree ?_, by simp⟩
  simp only [remoteRowValid, decide_eq_true_eq]
  refine ⟨?_, hreceipt, hmarket, hstream, hpath, hmanifest, hartifact, hsource, ?_⟩
  · simpa [remoteTimesValid] using ⟨hundeleted.2, hnow⟩
  · rw [List.filter_append, hevents]
    simp [expectedRemoteEvents, hundeleted.1, deletionEvent, RemoteArchiveReceipt.deletion]

/-- The readback succeeds. -/
theorem remoteArchiveTransaction_eq_ok {receiptId : String}
    (hsome : (tables.remoteTransactions.get? receiptId).isSome = true) :
    ∃ row, remoteArchiveTransaction identitySha256 tables receiptId = .ok (some row) := by
  obtain ⟨row, hrow⟩ := Option.isSome_iff_exists.mp hsome
  refine ⟨row, ?_⟩
  rw [remoteArchiveTransaction, hrow]
  simp [validatedRemoteRow, (h.remoteValid receiptId row hrow).2, Except.map]

/-- **One call** keeps the invariant. -/
theorem perform_invariant {call : LifecycleCall} (hspool : call.OfSpool)
    (hleaves : call.LeavesCreation tables) :
    LifecycleInvariant identitySha256 (call.perform identitySha256 tables now).2 := by
  cases call with
  | registerActive chunkId partialPath createdAt =>
    exact registerActive_invariant h chunkId partialPath createdAt
  | registerBoundaryMarkerSealing chunkId partialPath createdAt sealIntent =>
    simp only [perform]
    cases hcall : tables.registerBoundaryMarkerSealing chunkId partialPath createdAt
      sealIntent now with
    | error e => exact h
    | ok tables' => exact registerBoundaryMarkerSealing_invariant h hcall
  | transition chunkId toState key evidence update =>
    simp only [perform]
    cases hcall : tables.transition chunkId toState key evidence update now with
    | error e => exact h
    | ok tables' => exact transition_invariant h hspool hleaves hcall
  | reserveArchiveTransaction identity =>
    simp only [perform]
    cases hcall : tables.reserveArchiveTransaction identity now with
    | error e => exact h
    | ok done => exact reserveArchiveTransaction_invariant h hcall
  | transitionArchive transactionId toState key evidence verifiedAt localDeletedAt =>
    simp only [perform]
    cases hcall : tables.transitionArchive transactionId toState key evidence verifiedAt
        localDeletedAt now with
    | error e => exact h
    | ok tables' => exact transitionArchive_invariant h hcall
  | reserveRemoteArchiveTransaction receiptBytes market stream expectedChunk =>
    simp only [perform]
    cases hcall : ArchiveTables.reserveRemoteArchiveTransaction identitySha256 tables receiptBytes
        market stream expectedChunk now with
    | error e => exact h
    | ok done =>
      obtain ⟨hinv, hsome⟩ := reserveRemoteArchiveTransaction_invariant h hcall
      obtain ⟨row, hread⟩ := remoteArchiveTransaction_eq_ok hinv hsome
      simp only [Except.map, readBack, hread]
      exact hinv
  | commitRemoteDeleted deletion =>
    simp only [perform]
    cases hcall : ArchiveTables.commitRemoteDeleted identitySha256 tables deletion now with
    | error e => exact h
    | ok tables' =>
      obtain ⟨hinv, hsome⟩ := commitRemoteDeleted_invariant h hcall
      obtain ⟨row, hread⟩ := remoteArchiveTransaction_eq_ok hinv hsome
      simp only [Except.map, readBack, hread]
      exact hinv

/-- A call that repeats a key leaves the tables as they are, whether it returns or raises. -/
theorem perform_of_repeatsKey {call : LifecycleCall} (hkey : call.repeatsKey tables = true) :
    (call.perform identitySha256 tables now).2 = tables := by
  cases call with
  | registerActive chunkId partialPath createdAt =>
    refine registerActive_eq_self h ?_
    rw [h.created chunkId]
    exact hkey
  | registerBoundaryMarkerSealing chunkId partialPath createdAt sealIntent =>
    simp only [perform]
    cases hcall : tables.registerBoundaryMarkerSealing chunkId partialPath createdAt
      sealIntent now with
    | error e => rfl
    | ok tables' =>
      rcases registerBoundaryMarkerSealing_eq_ok hcall with hsame | ⟨-, hcreate, hseal, -⟩
      · exact hsame
      · rw [repeatsKey, hcreate, hseal] at hkey
        cases hkey
  | transition chunkId toState key evidence update =>
    -- A transition whose key is there returns before it checks the state.
    have hkey : hasEvent tables.chunkTransitions key = true := hkey
    simp [perform, ArchiveTables.transition, hkey, committed]
  | reserveArchiveTransaction identity =>
    simp only [perform]
    cases hcall : tables.reserveArchiveTransaction identity now with
    | error e => rfl
    | ok done =>
      rcases reserveArchiveTransaction_eq_ok hcall with ⟨-, -, hsame⟩ |
        ⟨-, -, -, -, -, -, hchunk, hevent, -⟩
      · exact hsame
      · rw [repeatsKey, hchunk, hevent] at hkey
        cases hkey
  | transitionArchive transactionId toState key evidence verifiedAt localDeletedAt =>
    simp only [perform]
    cases hcall : tables.transitionArchive transactionId toState key evidence verifiedAt
        localDeletedAt now with
    | error e => rfl
    | ok tables' =>
      rcases transitionArchive_eq_ok hcall with ⟨-, hsame⟩ | ⟨hevent, hchunk, -⟩
      · exact hsame
      · rw [repeatsKey, hevent, hchunk] at hkey
        cases hkey
  | reserveRemoteArchiveTransaction receiptBytes market stream expectedChunk =>
    simp only [perform]
    cases hcall : ArchiveTables.reserveRemoteArchiveTransaction identitySha256 tables receiptBytes
        market stream expectedChunk now with
    | error e => rfl
    | ok done =>
      obtain ⟨hinv, hsome⟩ := reserveRemoteArchiveTransaction_invariant h hcall
      obtain ⟨row, hread⟩ := remoteArchiveTransaction_eq_ok hinv hsome
      simp only [Except.map, readBack, hread]
      obtain ⟨hbytes, -, -, hcases⟩ := reserveRemoteArchiveTransaction_eq_ok hcall
      rcases hcases with ⟨hsame, -⟩ | ⟨-, -, -, -, -, -, hevent, -⟩
      · exact hsame
      · rw [repeatsKey, hbytes, Option.any_some, hevent] at hkey
        cases hkey
  | commitRemoteDeleted deletion =>
    simp only [perform]
    cases hcall : ArchiveTables.commitRemoteDeleted identitySha256 tables deletion now with
    | error e => rfl
    | ok tables' =>
      obtain ⟨-, -, -, -, -, -, hevent, -⟩ := commitRemoteDeleted_eq_ok hcall
      rw [repeatsKey, hevent] at hkey
      cases hkey

/-- A call that raises leaves the tables as they are: the readbacks behind a commit succeed. -/
theorem perform_of_error {call : LifecycleCall} {e : String}
    (herror : (call.perform identitySha256 tables now).1 = .error e) :
    (call.perform identitySha256 tables now).2 = tables := by
  have hcommitted : ∀ result : Except String ArchiveTables,
      (committed tables result).1 = .error e → (committed tables result).2 = tables := by
    intro result hresult
    cases result with
    | error e' => rfl
    | ok tables' => cases hresult
  cases call with
  | registerActive chunkId partialPath createdAt => cases herror
  | registerBoundaryMarkerSealing chunkId partialPath createdAt sealIntent =>
    exact hcommitted _ herror
  | transition chunkId toState key evidence update => exact hcommitted _ herror
  | reserveArchiveTransaction identity => exact hcommitted _ herror
  | transitionArchive transactionId toState key evidence verifiedAt localDeletedAt =>
    exact hcommitted _ herror
  | reserveRemoteArchiveTransaction receiptBytes market stream expectedChunk =>
    simp only [perform] at herror ⊢
    cases hcall : ArchiveTables.reserveRemoteArchiveTransaction identitySha256 tables receiptBytes
        market stream expectedChunk now with
    | error e' => rfl
    | ok done =>
      obtain ⟨hinv, hsome⟩ := reserveRemoteArchiveTransaction_invariant h hcall
      obtain ⟨row, hread⟩ := remoteArchiveTransaction_eq_ok hinv hsome
      simp only [hcall, Except.map, readBack, hread] at herror
      cases herror
  | commitRemoteDeleted deletion =>
    simp only [perform] at herror ⊢
    cases hcall : ArchiveTables.commitRemoteDeleted identitySha256 tables deletion now with
    | error e' => rfl
    | ok tables' =>
      obtain ⟨hinv, hsome⟩ := commitRemoteDeleted_invariant h hcall
      obtain ⟨row, hread⟩ := remoteArchiveTransaction_eq_ok hinv hsome
      simp only [hcall, Except.map, readBack, hread] at herror
      cases herror

end

/-! ## Every run -/

theorem lifecycle_initial (h : (lifecycle identitySha256).initial tables) :
    LifecycleInvariant identitySha256 tables := by
  obtain ⟨targets, control, rfl⟩ := h
  constructor
  · constructor
    · intro id row hrow
      cases hrow
    · intro id row hrow
      cases hrow
    · intro id row id' row' hrow
      cases hrow
    · intro chunkId
      rfl
  · intro chunkId
    rfl
  · intro id row id' row' hrow
    cases hrow
  · intro id row hrow
    cases hrow
  · intro event hevent
    cases hevent

/-- The calls of the claimants: spool transitions only, and every creation key left to its chunk. -/
def Genuine (tables : ArchiveTables) (call : LifecycleCall × Int) : Prop :=
  call.1.OfSpool ∧ call.1.LeavesCreation tables

theorem lifecycleInvariant_of_reachable
    (h : (lifecycle identitySha256).Reachable Genuine tables) :
    LifecycleInvariant identitySha256 tables := by
  refine h.invariant (fun _ => lifecycle_initial) ?_
  intro s call t hs hcall hstep
  cases Option.some.inj hstep
  exact perform_invariant hs hcall.1 hcall.2

/-- **Agreement of the lifecycles**, in every state that the calls reach; and there a call that
repeats a recorded key, or raises, changes nothing. -/
theorem agreement_of_reachable (h : (lifecycle identitySha256).Reachable Genuine tables) :
    LifecycleAgreement tables ∧ ∀ (call : LifecycleCall) (now : Int),
      (call.repeatsKey tables = true ∨
        ∃ e, (call.perform identitySha256 tables now).1 = .error e) →
      (call.perform identitySha256 tables now).2 = tables := by
  have hinv := lifecycleInvariant_of_reachable h
  refine ⟨hinv.toLifecycleAgreement, ?_⟩
  rintro call now (hkey | ⟨e, herror⟩)
  · exact perform_of_repeatsKey hinv hkey
  · exact perform_of_error hinv herror

/-- The tables after calls from empty ones. -/
def performAll (calls : List LifecycleCall) : ArchiveTables :=
  calls.foldl (fun tables call => (call.perform (fun _ => "") tables 0).2) {}

theorem reachable_performAll {allowed : ArchiveTables → LifecycleCall × Int → Prop}
    {calls : List LifecycleCall} {call : LifecycleCall}
    (h : (lifecycle fun _ => "").Reachable allowed (performAll calls))
    (hcall : allowed (performAll calls) (call, 0)) :
    (lifecycle fun _ => "").Reachable allowed (performAll (calls ++ [call])) := by
  refine h.tail hcall ?_
  simp [lifecycle, performAll]

theorem reachable_performAll_nil {allowed : ArchiveTables → LifecycleCall × Int → Prop} :
    (lifecycle fun _ => "").Reachable allowed (performAll []) :=
  TransitionSystem.Reachable.of_initial ⟨[], .empty, rfl⟩

def sampleIdentity : ArchiveIdentity where
  transactionId := "t"
  chunkId := "a"
  storageId := "disk"
  market := "spot"
  stream := "aggTrade"
  sourceRelativePath := "data/sealed/a.bmdr"
  sourceManifestRelativePath := "data/manifests/a.json"
  sourceManifestSha256 := "0"
  targetRelativePath := "raw/a.bmdr"
  targetTempRelativePath := "raw/a.bmdr.tmp"
  externalManifestRelativePath := "manifests/a.json"
  storedBytes := 3
  storedSha256 := "1"

/-- A chunk from its creation into an archive. -/
def archivingCalls : List LifecycleCall :=
  [registerActive "a" "a.partial" 0,
   transition "a" .sealing (sealingKey "a") (.dict []) id,
   transition "a" .sealed (chunkKey "sealed") (.dict []) id,
   reserveArchiveTransaction sampleIdentity,
   transitionArchive "t" .verifying "verify:t" (.dict []) none none]

theorem agreement_of_reachable_sample :
    (performAll archivingCalls).state "a" = some .archiveVerifying ∧
      LifecycleAgreement (performAll archivingCalls) := by
  have h₁ : (lifecycle fun _ => "").Reachable Genuine (performAll (archivingCalls.take 1)) :=
    reachable_performAll reachable_performAll_nil ⟨trivial, trivial⟩
  have h₂ : (lifecycle fun _ => "").Reachable Genuine (performAll (archivingCalls.take 2)) :=
    reachable_performAll h₁
      ⟨by simp [OfSpool, spoolStates], fun other hc => absurd hc (ne_createKey _ _).1⟩
  have h₃ : (lifecycle fun _ => "").Reachable Genuine (performAll (archivingCalls.take 3)) :=
    reachable_performAll h₂
      ⟨by simp [OfSpool, spoolStates], fun other hc => absurd hc (ne_createKey _ _).2.2⟩
  have h₄ : (lifecycle fun _ => "").Reachable Genuine (performAll (archivingCalls.take 4)) :=
    reachable_performAll h₃ ⟨trivial, trivial⟩
  have h₅ : (lifecycle fun _ => "").Reachable Genuine (performAll archivingCalls) :=
    reachable_performAll h₄ ⟨trivial, trivial⟩
  exact ⟨by decide, (agreement_of_reachable h₅).1⟩

/-- A transition under the creation key of another chunk, in front of its creation. -/
def forgingCalls : List LifecycleCall :=
  [registerActive "a" "a.partial" 0,
   transition "a" .recovered (createKey "b") (.dict []) id,
   registerActive "b" "b.partial" 0]

/-- There a chunk is active without a recorded transition: that key was taken. -/
theorem not_agreement_of_spool :
    ¬ ∀ tables, (lifecycle fun _ => "").Reachable (fun _ call => call.1.OfSpool) tables →
      LifecycleAgreement tables ∧ ∀ (call : LifecycleCall) (now : Int),
        (call.repeatsKey tables = true ∨
          ∃ e, (call.perform (fun _ => "") tables now).1 = .error e) →
        (call.perform (fun _ => "") tables now).2 = tables := by
  intro hclaim
  have h₁ : (lifecycle fun _ => "").Reachable (fun _ call => call.1.OfSpool)
      (performAll (forgingCalls.take 1)) := reachable_performAll reachable_performAll_nil trivial
  have h₂ : (lifecycle fun _ => "").Reachable (fun _ call => call.1.OfSpool)
      (performAll (forgingCalls.take 2)) :=
    reachable_performAll h₁ (by simp [OfSpool, spoolStates])
  have h₃ : (lifecycle fun _ => "").Reachable (fun _ call => call.1.OfSpool)
      (performAll forgingCalls) := reachable_performAll h₂ trivial
  have hpath := (hclaim _ h₃).1.connected "b"
  have hstate : (performAll forgingCalls).state "b" = some .active := by decide
  have hnone : (performAll forgingCalls).transitionsOf "b" = [] := by decide
  rw [hstate, hnone] at hpath
  cases hpath

end LifecycleCall

end MarketDataRecorder
