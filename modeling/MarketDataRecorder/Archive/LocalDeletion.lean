import MarketDataRecorder.Archive.Manager

/-!
# The deletion of the internal source

Archive transactions are run over and over, each attempt cut off anywhere, while the power fails,
the target changes and other callers use the Catalog. `LOCAL_DELETED` is to say that the source is
gone for good: unlinked, and its directory synced behind that.

An attempt that finds the source absent does not sync the directory again. Where the attempt before
it stopped between the two, the deletion is recorded and can still come undone.
-/

namespace MarketDataRecorder

/-! ## Runs -/

/-- What happens to the volumes and the Catalog. -/
inductive ArchiveAction where
  /-- `_advance` of a transaction, cut off after this many writes. -/
  | attempt (transactionId : String) (clock : ArchiveClock) (writes : Nat)
  /-- The sealed directory, the Catalog and the target come back as an earlier state has them. -/
  | powerLoss (restored : List String) (lost : Nat) (external : SortedDict String Bytes)
  /-- The spool seals a file and syncs the sealed directory. -/
  | sealed (path : String) (bytes : Bytes)
  | targetChanged (external : SortedDict String Bytes) (targetValid : Bool)
  /-- A call on the Catalog outside of the archive manager. -/
  | catalogCall (call : LifecycleCall) (now : Int)

namespace ArchiveDisk

/-- The Catalogs that the disk can come back with. -/
def catalogs (disk : ArchiveDisk) : List ArchiveCatalog := disk.catalog :: disk.superseded

/-- The unlinked files of which the power loss brings these back. -/
def restore (disk : ArchiveDisk) : List String → ArchiveDisk
  | [] => disk
  | path :: rest =>
    match disk.unlinked.get? path with
    | none => disk.restore rest
    | some bytes =>
      restore {
        disk with
        internal := disk.internal.insert path bytes
        unlinked := disk.unlinked.erase path } rest

/-- No transaction has this source. -/
def Unowned (disk : ArchiveDisk) (path : String) : Prop :=
  ∀ catalog ∈ disk.catalogs, ∀ item ∈ catalog.tables.archiveTransactions.items,
    item.2.sourceRelativePath ≠ path

instance (disk : ArchiveDisk) (path : String) : Decidable (disk.Unowned path) :=
  inferInstanceAs (Decidable (∀ _ ∈ _, ∀ _ ∈ _, _))

/-- A file is not there, and its directory was synced since it was. -/
def RemovalDurable (disk : ArchiveDisk) (path : String) : Prop :=
  disk.internal.get? path = none ∧ disk.unlinked.get? path = none

end ArchiveDisk

/-- The calls that others than the archive manager make. -/
def LifecycleCall.ofOthers : LifecycleCall → Bool
  | transition _ toState key _ _ =>
    toState ∈ spoolStates && ! "create:".toList.isPrefixOf key.toList
  | transitionArchive .. => false
  | _ => true

section

variable (identitySha256 : RemoteArchiveReceipt → String) (lib : ArchiveLibrary)
  (target : ArchiveTarget)

def ArchiveAction.step (disk : ArchiveDisk) : ArchiveAction → Option ArchiveDisk
  | attempt transactionId clock writes =>
    some ((advance lib target transactionId clock).crashAt ArchiveWrite.apply writes
      none disk).state
  | powerLoss restored lost external =>
    match disk.catalogs[lost]? with
    | none => none
    | some catalog =>
      some { disk.restore restored with
        external := external
        catalog := catalog
        superseded := [] }
  | sealed path bytes =>
    if disk.Unowned path then
      some { disk with internal := disk.internal.insert path bytes, unlinked := .empty }
    else none
  | targetChanged external targetValid =>
    some { disk with external := external, targetValid := targetValid }
  | catalogCall call now =>
    if call.ofOthers then
      let tables := (call.perform identitySha256 disk.catalog.tables now).2
      some ((ArchiveWrite.commit { disk.catalog with tables := tables } false).apply disk)
    else none

/-- The two volumes of one host, from an empty Catalog on. -/
def archiveSystem : TransitionSystem ArchiveDisk ArchiveAction where
  initial disk :=
    (LifecycleCall.lifecycle identitySha256).initial disk.catalog.tables ∧
      disk.superseded = [] ∧ disk.unlinked = .empty
  step := ArchiveAction.step identitySha256 lib target

end

/-- **`LOCAL_DELETED` says that the removal is durable**, in the transaction as in the chunk. -/
def LocalDeletedDurable (disk : ArchiveDisk) : Prop :=
  ∀ id row, disk.catalog.tables.archiveTransactions.get? id = some row →
    row.state = .localDeleted ∨ disk.catalog.tables.state row.chunkId = some .localDeleted →
      disk.RemovalDurable row.sourceRelativePath

/-- An attempt does not begin behind an unlink of its source that was not synced. -/
def ResumesSynced (disk : ArchiveDisk) : ArchiveAction → Prop
  | .attempt transactionId _ _ =>
    ∀ row, disk.catalog.tables.archiveTransactions.get? transactionId = some row →
      disk.unlinked.get? row.sourceRelativePath = none
  | _ => True

/-! ## Calls of others -/

namespace LifecycleCall

open ArchiveTables

variable {identitySha256 : RemoteArchiveReceipt → String} {tables : ArchiveTables}
  {call : LifecycleCall} {now : Int}

/-- **The others** reserve archives at most. -/
theorem perform_archiveTransactions (hothers : call.ofOthers = true) :
    (call.perform identitySha256 tables now).2.archiveTransactions = tables.archiveTransactions ∨
      ∃ identity : ArchiveIdentity,
        tables.archiveTransactions.get? identity.transactionId = none ∧
        (call.perform identitySha256 tables now).2.archiveTransactions =
          tables.archiveTransactions.insert identity.transactionId (reservedRow identity now) := by
  cases call with
  | registerActive chunkId partialPath createdAt => exact Or.inl rfl
  | registerBoundaryMarkerSealing chunkId partialPath createdAt sealIntent =>
    refine Or.inl ?_
    simp only [perform]
    cases hcall : tables.registerBoundaryMarkerSealing chunkId partialPath createdAt
      sealIntent now with
    | error e => rfl
    | ok tables' =>
      rcases registerBoundaryMarkerSealing_eq_ok hcall with rfl | ⟨-, -, -, rfl⟩
      · rfl
      · rfl
  | transition chunkId toState key evidence update =>
    refine Or.inl ?_
    simp only [perform]
    cases hcall : tables.transition chunkId toState key evidence update now with
    | error e => rfl
    | ok tables' =>
      rcases transition_eq_ok hcall with ⟨-, rfl⟩ | ⟨-, row, -, -, rfl⟩
      · rfl
      · rfl
  -- The only call of the others that touches the transactions: it adds a row.
  | reserveArchiveTransaction identity =>
    simp only [perform]
    cases hcall : tables.reserveArchiveTransaction identity now with
    | error e => exact Or.inl rfl
    | ok done =>
      rcases reserveArchiveTransaction_eq_ok hcall with
        ⟨-, -, hsame⟩ | ⟨-, -, -, -, -, hnone, -, -, hnew⟩
      · refine Or.inl ?_
        have htable := congrArg archiveTransactions hsame
        exact htable
      · refine Or.inr ⟨identity, hnone, ?_⟩
        have htable := congrArg archiveTransactions hnew
        exact htable
  | transitionArchive transactionId toState key evidence verifiedAt localDeletedAt => cases hothers
  | reserveRemoteArchiveTransaction receiptBytes market stream expectedChunk =>
    refine Or.inl ?_
    simp only [perform]
    cases hcall : ArchiveTables.reserveRemoteArchiveTransaction identitySha256 tables receiptBytes
        market stream expectedChunk now with
    | error e => rfl
    | ok done =>
      rw [Except.map, readBack_snd]
      obtain ⟨-, -, -, hcases⟩ := reserveRemoteArchiveTransaction_eq_ok hcall
      rcases hcases with ⟨hsame, -⟩ | ⟨-, -, -, -, -, -, -, hsame⟩
      · rw [hsame]
      · rw [hsame]
  | commitRemoteDeleted deletion =>
    refine Or.inl ?_
    simp only [perform]
    cases hcall : ArchiveTables.commitRemoteDeleted identitySha256 tables deletion now with
    | error e => rfl
    | ok tables' =>
      rw [Except.map, readBack_snd]
      obtain ⟨-, row, -, -, -, -, -, rfl⟩ := commitRemoteDeleted_eq_ok hcall
      rfl

theorem ofSpool_of_ofOthers (hothers : call.ofOthers = true) : call.OfSpool := by
  cases call with
  | transition chunkId toState key evidence update =>
    simp only [ofOthers, Bool.and_eq_true, decide_eq_true_eq] at hothers
    exact hothers.1
  | registerActive | registerBoundaryMarkerSealing | reserveArchiveTransaction | transitionArchive
  | reserveRemoteArchiveTransaction | commitRemoteDeleted => trivial

theorem leavesCreation_of_ofOthers (hothers : call.ofOthers = true) :
    call.LeavesCreation tables := by
  cases call with
  | transition chunkId toState key evidence update =>
    intro other hkey
    simp [ofOthers, hkey, createKey] at hothers
  | registerActive | registerBoundaryMarkerSealing | reserveArchiveTransaction | transitionArchive
  | reserveRemoteArchiveTransaction | commitRemoteDeleted => trivial

end LifecycleCall

/-! ## The invariant -/

namespace ArchiveDisk

/-- The removals that these tables record are durable. -/
def Records (disk : ArchiveDisk) (tables : ArchiveTables) : Prop :=
  ∀ id row, tables.archiveTransactions.get? id = some row → row.state = .localDeleted →
    disk.RemovalDurable row.sourceRelativePath

/-- What holds of every Catalog that the disk can come back with. -/
def DeletionInvariant (identitySha256 : RemoteArchiveReceipt → String) (disk : ArchiveDisk) :
    Prop :=
  ∀ catalog ∈ disk.catalogs,
    ArchiveTables.LifecycleInvariant identitySha256 catalog.tables ∧ disk.Records catalog.tables

variable {identitySha256 : RemoteArchiveReceipt → String} {disk : ArchiveDisk} {path : String}
  {bytes : Bytes}

/-- A durable removal is not undone by a loss of power. -/
theorem RemovalDurable.restore {paths : List String} (h : disk.RemovalDurable path) :
    (disk.restore paths).RemovalDurable path := by
  induction paths generalizing disk with
  | nil => exact h
  | cons other rest ih =>
    rw [ArchiveDisk.restore]
    split
    · exact ih h
    · next bytes hother =>
      -- the other file is unlinked, this one is not
      have hne : path ≠ other := by
        rintro rfl
        rw [h.2] at hother
        cases hother
      refine ih ⟨?_, ?_⟩
      · simpa [hne] using h.1
      · simpa [hne] using h.2

namespace DeletionInvariant

variable (h : disk.DeletionInvariant identitySha256)
include h

/-- A commit of tables for which the invariant holds. -/
theorem commit {catalog : ArchiveCatalog} (forceSync : Bool)
    (hlifecycle : ArchiveTables.LifecycleInvariant identitySha256 catalog.tables)
    (hrecords : disk.Records catalog.tables) :
    ((ArchiveWrite.commit catalog forceSync).apply disk).DeletionInvariant identitySha256 := by
  intro other hother
  rcases List.mem_cons.mp hother with rfl | hother
  · exact ⟨hlifecycle, hrecords⟩
  · refine h other ?_
    simp only [ArchiveWrite.apply_commit] at hother
    split at hother
    · cases hother
    · exact hother

/-- A file that is there has no recorded removal, so its unlink touches none. -/
theorem unlinkInternal (hpath : disk.internal.get? path = some bytes) :
    ((ArchiveWrite.unlinkInternal path).apply disk).DeletionInvariant identitySha256 := by
  rw [ArchiveWrite.apply_unlinkInternal hpath]
  intro catalog hcatalog
  obtain ⟨hlifecycle, hrecords⟩ := h catalog hcatalog
  refine ⟨hlifecycle, fun id row hrow hdeleted => ?_⟩
  obtain ⟨hinternal, hunlinked⟩ := hrecords id row hrow hdeleted
  have hne : row.sourceRelativePath ≠ path := by
    intro heq
    rw [heq, hpath] at hinternal
    cases hinternal
  refine ⟨?_, ?_⟩
  · simp [hinternal]
  · simpa [hne] using hunlinked

/-- A synced directory leaves no removal undone. -/
theorem syncSealed : (ArchiveWrite.syncSealed.apply disk).DeletionInvariant identitySha256 := by
  intro catalog hcatalog
  obtain ⟨hlifecycle, hrecords⟩ := h catalog hcatalog
  exact ⟨hlifecycle, fun id row hrow hdeleted => ⟨(hrecords id row hrow hdeleted).1, rfl⟩⟩

/-- A power loss goes back to a Catalog for which it holds, and restores no recorded removal. -/
theorem powerLoss {catalog : ArchiveCatalog} (paths : List String)
    (external : SortedDict String Bytes) (hcatalog : catalog ∈ disk.catalogs) :
    DeletionInvariant identitySha256
      { disk.restore paths with external := external, catalog := catalog, superseded := [] } := by
  intro other hother
  cases List.mem_singleton.mp hother
  obtain ⟨hlifecycle, hrecords⟩ := h catalog hcatalog
  exact ⟨hlifecycle, fun id row hrow hdeleted => (hrecords id row hrow hdeleted).restore⟩

theorem sealed (hunowned : disk.Unowned path) :
    DeletionInvariant identitySha256
      { disk with internal := disk.internal.insert path bytes, unlinked := .empty } := by
  intro catalog hcatalog
  obtain ⟨hlifecycle, hrecords⟩ := h catalog hcatalog
  refine ⟨hlifecycle, fun id row hrow hdeleted => ⟨?_, rfl⟩⟩
  have hne : row.sourceRelativePath ≠ path :=
    hunowned catalog hcatalog (id, row) (SortedDict.get?_eq_some_iff.mp hrow)
  simpa [hne] using (hrecords id row hrow hdeleted).1

/-- Calls of the other components leave the deletions as they are. -/
theorem catalogCall {call : LifecycleCall} {now : Int} (hothers : call.ofOthers = true) :
    DeletionInvariant identitySha256 ((ArchiveWrite.commit
      { disk.catalog with
        tables := (call.perform identitySha256 disk.catalog.tables now).2 } false).apply disk) := by
  obtain ⟨hlifecycle, hrecords⟩ := h disk.catalog (List.mem_cons_self ..)
  refine h.commit false ?_ ?_
  · exact LifecycleCall.perform_invariant hlifecycle (LifecycleCall.ofSpool_of_ofOthers hothers)
      (LifecycleCall.leavesCreation_of_ofOthers hothers)
  · intro id row hrow hdeleted
    have htransactions := @LifecycleCall.perform_archiveTransactions identitySha256
      disk.catalog.tables call now hothers
    rcases htransactions with hsame | ⟨identity, -, hnew⟩
    · rw [hsame] at hrow
      exact hrecords id row hrow hdeleted
    · rw [hnew, SortedDict.get?_insert] at hrow
      split at hrow
      · cases hrow
        cases hdeleted
      · exact hrecords id row hrow hdeleted

end DeletionInvariant

/-! ## Archive transitions -/

section

variable {tables tables' : ArchiveTables} {transactionId : String} {toState : ArchiveState}
  {key : String} {evidence : Value} {verifiedAt localDeletedAt : Option Int} {now : Int}

/-- An archive transition moves one transaction and leaves what the rows archive. -/
theorem row_of_transitionArchive
    (hcall : tables.transitionArchive transactionId toState key evidence verifiedAt localDeletedAt
      now = .ok tables') {id : String} {row' : ArchiveTransaction}
    (hrow' : tables'.archiveTransactions.get? id = some row') :
    ∃ row, tables.archiveTransactions.get? id = some row ∧
      row'.toArchiveIdentity = row.toArchiveIdentity ∧
      (row'.state = row.state ∨ id = transactionId ∧ row'.state = toState) := by
  rcases ArchiveTables.transitionArchive_eq_ok hcall with ⟨-, rfl⟩ | ⟨-, -, row, hrow, -, -, rfl⟩
  · exact ⟨row', hrow', rfl, Or.inl rfl⟩
  · simp only [SortedDict.get?_insert] at hrow'
    by_cases hid : id = transactionId
    · rw [if_pos hid] at hrow'
      cases hrow'
      exact ⟨row, hid ▸ hrow, rfl, Or.inr ⟨hid, rfl⟩⟩
    · rw [if_neg hid] at hrow'
      exact ⟨row', hrow', rfl, Or.inl rfl⟩

/-- A transition to `LOCAL_DELETED` needs a durable removal; the others need nothing. -/
theorem Records.transitionArchive (h : disk.Records tables)
    (hcall : tables.transitionArchive transactionId toState key evidence verifiedAt localDeletedAt
      now = .ok tables')
    (hremoved : toState = .localDeleted → ∀ row,
      tables.archiveTransactions.get? transactionId = some row →
        disk.RemovalDurable row.sourceRelativePath) : disk.Records tables' := by
  intro id row' hrow' hdeleted
  obtain ⟨row, hrow, hidentity, hstate⟩ := row_of_transitionArchive hcall hrow'
  rw [congrArg ArchiveIdentity.sourceRelativePath hidentity]
  rcases hstate with hstate | ⟨rfl, hstate⟩
  · exact h id row hrow (hstate.symm.trans hdeleted)
  · exact hremoved (hstate.symm.trans hdeleted) row hrow

end

/-! ## One attempt -/

/-- Every row of the transaction has a source for which this holds. -/
def SourceOf (disk : ArchiveDisk) (transactionId : String) (P : String → Prop) : Prop :=
  ∀ row, disk.catalog.tables.archiveTransactions.get? transactionId = some row →
    P row.sourceRelativePath

variable (identitySha256) (transactionId : String)

/-- In front of the deletion: no unlink of the source is without a sync. -/
def Synced (disk : ArchiveDisk) : Prop :=
  disk.DeletionInvariant identitySha256 ∧
    disk.SourceOf transactionId fun source => disk.unlinked.get? source = none

/-- Behind the deletion. -/
def Removed (disk : ArchiveDisk) : Prop :=
  disk.DeletionInvariant identitySha256 ∧ disk.SourceOf transactionId disk.RemovalDurable

/-- A program that begins with the source synced keeps the invariant. -/
def Deletes {α : Type} (p : ArchiveProgram α) : Prop :=
  ∀ last disk, Synced identitySha256 transactionId disk →
    Durable.wp ArchiveWrite.apply (fun _ _ disk => disk.DeletionInvariant identitySha256)
      (fun _ _ disk => disk.DeletionInvariant identitySha256)
      (fun _ disk => disk.DeletionInvariant identitySha256) p last disk

variable {identitySha256 transactionId}

theorem offTarget_synced : OffTarget fun _ => Synced identitySha256 transactionId :=
  OffTarget.of_disk fun _ _ h => h

/-- A program that leaves the removal synced keeps the invariant. -/
theorem Deletes.of_keeps {α : Type} {p : ArchiveProgram α}
    (hp : Durable.Keeps ArchiveWrite.apply (fun _ => Synced identitySha256 transactionId) p) :
    Deletes identitySha256 transactionId p := fun last disk h =>
  Durable.wp_mono (hp last disk h) (fun _ _ _ h => h.1) (fun _ _ _ h => h.1) fun _ _ h => h.1

/-- A program that leaves the removal synced may come first. -/
theorem Deletes.bind {α β : Type} {p : ArchiveProgram α} {f : α → ArchiveProgram β}
    (hp : Durable.Keeps ArchiveWrite.apply (fun _ => Synced identitySha256 transactionId) p)
    (hf : ∀ a, Deletes identitySha256 transactionId (f a)) :
    Deletes identitySha256 transactionId (p >>= f) := by
  intro last disk h
  rw [Durable.wp_bind]
  exact Durable.wp_mono (hp last disk h) (fun a last disk h => hf a last disk h)
    (fun _ _ _ h => h.1) fun _ _ h => h.1

/-- Metric batches touch no transaction. -/
theorem DeletionInvariant.recordMetricBatch (h : disk.DeletionInvariant identitySha256)
    (batches : List MetricBatchRow) :
    ((ArchiveWrite.commit { disk.catalog with metricBatches := batches } false).apply
      disk).DeletionInvariant identitySha256 := by
  obtain ⟨hlifecycle, hrecords⟩ := h disk.catalog (List.mem_cons_self ..)
  exact h.commit false hlifecycle hrecords

/-- **`LOCAL_DELETED` is recorded of a synced removal.** -/
theorem DeletionInvariant.transitionArchive (h : disk.DeletionInvariant identitySha256)
    (forceSync : Bool) {tables : ArchiveTables} {toState : ArchiveState} {key : String}
    {evidence : Value} {verifiedAt localDeletedAt : Option Int} {now : Int}
    (hcall : disk.catalog.tables.transitionArchive transactionId toState key evidence verifiedAt
      localDeletedAt now = .ok tables)
    (hremoved : toState = .localDeleted → disk.SourceOf transactionId disk.RemovalDurable) :
    ((ArchiveWrite.commit { disk.catalog with tables := tables } forceSync).apply
      disk).DeletionInvariant identitySha256 := by
  obtain ⟨hlifecycle, hrecords⟩ := h disk.catalog (List.mem_cons_self ..)
  exact h.commit forceSync (LifecycleCall.transitionArchive_invariant hlifecycle hcall)
    (hrecords.transitionArchive hcall hremoved)

/-- The other states are recorded without a removal. -/
theorem keeps_transitionArchive (forceSync : Bool) {toState : ArchiveState} {key : String}
    {evidence : Value} {verifiedAt localDeletedAt : Option Int} {now : Int}
    (hstate : toState ≠ .localDeleted) :
    Durable.Keeps ArchiveWrite.apply (fun _ => Synced identitySha256 transactionId)
      (commitArchive forceSync fun tables =>
        tables.transitionArchive transactionId toState key evidence verifiedAt localDeletedAt
          now) := by
  intro last disk h
  rw [wp_commitArchive]
  split
  · exact h
  · next tables hcall =>
    refine ⟨h, h.1.transitionArchive forceSync hcall fun hc => absurd hc hstate, ?_⟩
    intro row' hrow'
    obtain ⟨row, hrow, hidentity, -⟩ := row_of_transitionArchive hcall hrow'
    rw [congrArg ArchiveIdentity.sourceRelativePath hidentity]
    exact h.2 row hrow

variable (lib : ArchiveLibrary) (target : ArchiveTarget) (clock : ArchiveClock)

/-- A required transaction is in the Catalog. -/
theorem requiredTransaction_eq_ok {row : ArchiveTransaction}
    (h : requiredTransaction transactionId disk = .ok row) :
    disk.catalog.tables.archiveTransactions.get? transactionId = some row := by
  unfold requiredTransaction at h
  split at h
  · cases h
  · next hrow => exact hrow.trans (congrArg some (Except.ok.inj h))

/-- **The deletion** unlinks the source and syncs its directory, or finds it removed. -/
theorem wp_deleteSource {row : ArchiveTransaction} {last : Option ArchiveWrite}
    (h : Synced identitySha256 transactionId disk)
    (hrow : disk.catalog.tables.archiveTransactions.get? transactionId = some row) :
    Durable.wp ArchiveWrite.apply (fun _ _ disk => Removed identitySha256 transactionId disk)
      (fun _ _ disk => disk.DeletionInvariant identitySha256)
      (fun _ disk => disk.DeletionInvariant identitySha256) (deleteSource lib row) last disk := by
  obtain ⟨hinv, hsynced⟩ := h
  unfold deleteSource
  simp only [Durable.wp_bind, Durable.wp_look]
  split
  · next habsent =>
    refine ⟨hinv, fun other hother => ?_⟩
    cases hrow.symm.trans hother
    exact ⟨habsent, hsynced row hrow⟩
  · next bytes hbytes =>
    simp only [Durable.wp_bind, wp_archiveCheck]
    split
    · exact hinv
    · have hunlink := hinv.unlinkInternal hbytes
      refine ⟨hinv, hunlink, hunlink.syncSealed, fun other hother => ⟨?_, rfl⟩⟩
      rw [ArchiveWrite.apply_unlinkInternal hbytes] at hother ⊢
      cases hrow.symm.trans hother
      simp

/-- **The source is unlinked, its directory synced, and only then is the deletion recorded.** -/
theorem deletes_advanceDeletePending :
    Deletes identitySha256 transactionId (advanceDeletePending lib target transactionId clock) := by
  intro last disk h
  unfold advanceDeletePending
  simp only [Durable.wp_bind, wp_archiveCheck]
  cases hread : requiredTransaction transactionId disk with
  | error e => exact h.1
  | ok row =>
    simp only
    split
    · exact h.1
    refine Durable.wp_mono (wp_deleteSource lib h (requiredTransaction_eq_ok hread)) ?_
      (fun _ _ _ h => h) fun _ _ h => h
    intro deletedBytes last disk hremoved
    have hmetric := keeps_recordMetricBatch (deletedMetric row clock.deletedAt)
      (fun _ disk batches (h : Removed identitySha256 transactionId disk) =>
        (⟨h.1.recordMetricBatch batches, h.2⟩ : Removed identitySha256 transactionId _))
    refine Durable.wp_mono (hmetric last disk hremoved) ?_ (fun _ _ _ h => h.1) fun _ _ h => h.1
    intro _ last disk hremoved
    rw [wp_commitArchive]
    split
    · exact hremoved.1
    · next tables hcall =>
      have hdone := hremoved.1.transitionArchive true hcall fun _ => hremoved.2
      refine ⟨hremoved.1, ?_⟩
      exact (keeps_archiveCheck _).bind (fun _ => Durable.keeps_pure _) _ _ hdone

/-- **A verified transaction goes on to a deletion that is durable.** -/
theorem deletes_advanceVerified :
    Deletes identitySha256 transactionId (advanceVerified lib target transactionId clock) := by
  refine Deletes.bind (keeps_archiveCheck _) fun row => ?_
  refine Deletes.bind (keeps_archiveCheck _) fun verifiedAt => ?_
  refine Deletes.bind (keeps_recordMetricBatch _ fun _ disk batches h => ?_) fun _ => ?_
  · exact ⟨h.1.recordMetricBatch batches, h.2⟩
  refine Deletes.bind (keeps_transitionArchive true (by decide)) fun _ => ?_
  exact deletes_advanceDeletePending lib target clock

/-- So does a verifying one. -/
theorem deletes_advanceVerifying :
    Deletes identitySha256 transactionId (advanceVerifying lib target transactionId clock) := by
  refine Deletes.bind (keeps_archiveCheck _) fun row => ?_
  refine Deletes.bind (offTarget_synced.verifyAndCommitExternal lib target _ _) fun document => ?_
  refine Deletes.bind (keeps_archiveCheck _) fun verifiedAt => ?_
  refine Deletes.bind (keeps_transitionArchive false (by decide)) fun _ => ?_
  exact deletes_advanceVerified lib target clock

/-- So does a copying one. -/
theorem deletes_advanceCopying :
    Deletes identitySha256 transactionId (advanceCopying lib target transactionId clock) := by
  refine Deletes.bind (keeps_archiveCheck _) fun row => ?_
  refine Deletes.bind (offTarget_synced.copyArtifact lib _) fun _ => ?_
  refine Deletes.bind (keeps_transitionArchive false (by decide)) fun _ => ?_
  exact deletes_advanceVerifying lib target clock

/-- **An attempt** keeps the invariant wherever it stops. -/
theorem deletes_advance :
    Deletes identitySha256 transactionId (advance lib target transactionId clock) := by
  refine Deletes.bind (keeps_archiveCheck _) fun row => ?_
  split
  · exact deletes_advanceCopying lib target clock
  · exact deletes_advanceVerifying lib target clock
  · exact deletes_advanceVerified lib target clock
  · exact deletes_advanceDeletePending lib target clock
  · exact Deletes.of_keeps ((keeps_archiveCheck _).bind fun _ => Durable.keeps_pure _)

end ArchiveDisk

/-! ## Runs -/

variable {identitySha256 : RemoteArchiveReceipt → String} {lib : ArchiveLibrary}
  {target : ArchiveTarget} {disk disk' : ArchiveDisk}

/-- Nothing is deleted at the start. -/
theorem deletionInvariant_initial (h : (archiveSystem identitySha256 lib target).initial disk) :
    disk.DeletionInvariant identitySha256 := by
  obtain ⟨htables, hsuperseded, -⟩ := h
  intro catalog hcatalog
  rw [ArchiveDisk.catalogs, hsuperseded, List.mem_singleton] at hcatalog
  subst hcatalog
  refine ⟨LifecycleCall.lifecycle_initial htables, ?_⟩
  obtain ⟨storageTargets, storageControl, htables⟩ := htables
  intro id row hrow
  rw [htables] at hrow
  cases hrow

/-- **Every step keeps the deletions durable** where a resumed deletion finds a synced directory. -/
theorem deletionInvariant_step {action : ArchiveAction} (h : disk.DeletionInvariant identitySha256)
    (hresumes : ResumesSynced disk action)
    (hstep : action.step identitySha256 lib target disk = some disk') :
    disk'.DeletionInvariant identitySha256 := by
  cases action with
  | attempt transactionId clock writes =>
    cases Option.some.inj hstep
    exact Durable.crashAt_invariant
      (ArchiveDisk.deletes_advance lib target clock none disk ⟨h, hresumes⟩) writes
  | powerLoss restored lost external =>
    simp only [ArchiveAction.step] at hstep
    split at hstep
    · cases hstep
    · next catalog hcatalog =>
      cases Option.some.inj hstep
      exact h.powerLoss restored external (List.mem_of_getElem? hcatalog)
  | sealed path bytes =>
    simp only [ArchiveAction.step] at hstep
    split at hstep
    · next hunowned =>
      cases Option.some.inj hstep
      exact h.sealed hunowned
    · cases hstep
  | targetChanged external targetValid =>
    cases Option.some.inj hstep
    exact h
  | catalogCall call now =>
    simp only [ArchiveAction.step] at hstep
    split at hstep
    · next hothers =>
      cases Option.some.inj hstep
      exact h.catalogCall hothers
    · cases hstep

/--
**Where every attempt begins with the unlinks of its source synced, `LOCAL_DELETED` says that the
removal is durable**, in every state that is reached.
-/
theorem localDeletedDurable_of_reachable
    (h : (archiveSystem identitySha256 lib target).Reachable ResumesSynced disk) :
    LocalDeletedDurable disk := by
  have hinv : disk.DeletionInvariant identitySha256 :=
    h.invariant (fun _ => deletionInvariant_initial) fun _ _ _ => deletionInvariant_step
  obtain ⟨hlifecycle, hrecords⟩ := hinv disk.catalog (List.mem_cons_self ..)
  intro id row hrow hdeleted
  refine hrecords id row hrow ?_
  rcases hdeleted with hdeleted | hchunk
  · exact hdeleted
  · -- the chunk has the state of its transaction
    rw [hlifecycle.archived id row hrow] at hchunk
    cases hstate : row.state <;> simp_all [archiveChunkStates]

/-- Behind an unlink that was not synced, an attempt records the deletion where the
copy is valid. -/
theorem not_localDeletedDurable_of_resume {transactionId : String} {clock : ArchiveClock}
    {row : ArchiveTransaction} {bytes : Bytes}
    (hrow : disk.catalog.tables.archiveTransactions.get? transactionId = some row)
    (hstate : row.state = .localDeletePending)
    (habsent : disk.internal.get? row.sourceRelativePath = none)
    (hunlinked : disk.unlinked.get? row.sourceRelativePath = some bytes)
    (hexternal : validateExternalCommit lib target row.toArchiveIdentity disk = .ok ())
    (hchunk : disk.catalog.tables.state row.chunkId = some .localDeletePending)
    (hkey : hasEvent disk.catalog.tables.archiveEvents (deletedKey transactionId) = false)
    (hchunkKey : hasEvent disk.catalog.tables.chunkTransitions
      (ArchiveTables.chunkKey (deletedKey transactionId)) = false)
    (hmarket : row.market ≠ "") (hstream : row.stream ≠ "") (hclock : 0 ≤ clock.deletedAt) :
    ¬ LocalDeletedDurable
      ((advance lib target transactionId clock).run ArchiveWrite.apply disk).2 := by
  have hread : requiredTransaction transactionId disk = .ok row := by
    simp [requiredTransaction, hrow]
  -- the metric goes ahead of the transition, and both leave the files alone
  have hrecord : ∀ last disk',
      disk'.catalog.tables = disk.catalog.tables → disk'.unlinked = disk.unlinked →
        Durable.wp ArchiveWrite.apply (fun _ _ disk => ¬ LocalDeletedDurable disk)
          (fun _ _ _ => False) (fun _ _ => True)
          (commitArchive true (fun tables =>
            tables.transitionArchive transactionId .localDeleted (deletedKey transactionId)
              (.dict [("source_absent", .bool true)]) none (some clock.deletedAt) clock.now) >>=
            fun _ => archiveResult transactionId 0) last disk' := by
    intro last disk' htables hfiles
    have hgo := @ArchiveTables.transitionArchive_of_allowed disk.catalog.tables clock.now
      transactionId row .localDeleted (deletedKey transactionId)
      (.dict [("source_absent", .bool true)]) none (some clock.deletedAt) hkey hchunkKey hrow
      (by rw [hstate]; decide) (by rw [hstate]; exact hchunk)
    rw [Durable.wp_bind, wp_commitArchive, htables, hgo]
    refine ⟨trivial, ?_⟩
    simp only [archiveResult, Durable.wp_bind, wp_archiveCheck, requiredTransaction,
      ArchiveWrite.apply_commit, SortedDict.get?_insert, if_true, Durable.wp_pure]
    intro hdurable
    have hremoved := (hdurable transactionId
      (ArchiveTables.advancedRow row .localDeleted none (some clock.deletedAt) clock.now)
      (by simp) (Or.inl rfl)).2
    have hthere := hfiles ▸ hunlinked
    cases hremoved.symm.trans hthere
  have hrun : Durable.wp ArchiveWrite.apply (fun _ _ disk => ¬ LocalDeletedDurable disk)
      (fun _ _ _ => False) (fun _ _ => True)
        (advance lib target transactionId clock) none disk := by
    simp only [advance, Durable.wp_bind, wp_archiveCheck, hread, hstate]
    simp only [advanceDeletePending, Durable.wp_bind, wp_archiveCheck, hread,
      hexternal, deleteSource,
      Durable.wp_look, habsent, Durable.wp_pure]
    rw [wp_recordMetricBatch (deletedMetric_batchId_ne row clock.deletedAt) hclock hmarket hstream]
    split
    · exact (Durable.wp_bind _ _).mp (hrecord _ _ rfl rfl)
    · exact ⟨trivial, (Durable.wp_bind _ _).mp (hrecord _ _ rfl rfl)⟩
  have hend := Durable.run_of_wp hrun
  cases hresult : ((advance lib target transactionId clock).run ArchiveWrite.apply disk).1 with
  | ok a =>
    obtain ⟨-, hdone⟩ := hend.1 a hresult
    exact hdone
  | error e =>
    obtain ⟨-, hnone⟩ := hend.2 e hresult
    exact hnone.elim

/-! ## Two runs -/

def utf8 (text : List String) : Bytes := text.flatMap fun piece => piece.toByteArray.data.toList

/-- A `zstd` frame of the text `abc`. -/
def sampleStored : Bytes := [0x28, 0xb5, 0x2f, 0xfd, 0x20, 3, 0x19, 0, 0, 0x61, 0x62, 0x63]

def sampleStoredSha256 : String :=
  "f5ceb32e306a4d81fdbb745f591f71f3792f1fb48a456aad59df2f3d46afe58d"

def sampleUncompressedSha256 : String :=
  "ba7816bf8f01cfea414140de5dae2223b00361a396177a9cb410ff61f20015ad"

def sampleManifestSha256 : String :=
  "d9cec838ff2ed92420a42fa0f398b6249724119043f68548d021ca8cae42838e"

/-- The Raw manifest in compact JSON. -/
def sampleManifestText : List String :=
  ["\x7b\"chunk_id\":\"0123456789abcdef0123456789abcdef\",",
   "\"manifest_schema_version\":\"raw-chunk-manifest.v1\",\"market\":\"spot\",\"stored_bytes\":12,",
   "\"stored_sha256\":\"f5ceb32e306a4d81fdbb745f591f71f3792f1fb48a456aad59df2f3d46afe58d\",",
   "\"stream\":\"trade\",\"uncompressed_bytes\":3,",
   "\"uncompressed_sha256\":\"ba7816bf8f01cfea414140de5dae2223b00361a396177a9cb410ff61f20015ad\"\x7d"]

def sampleManifestBytes : Bytes := utf8 (sampleManifestText ++ ["\n"])

def sampleManifestBase64 : List String :=
  ["eyJjaHVua19pZCI6IjAxMjM0NTY3ODlhYmNkZWYwMTIzNDU2Nzg5YWJjZGVmIiwibWFuaWZlc3Rfc2No",
   "ZW1hX3ZlcnNpb24iOiJyYXctY2h1bmstbWFuaWZlc3QudjEiLCJtYXJrZXQiOiJzcG90Iiwic3RvcmVk",
   "X2J5dGVzIjoxMiwic3RvcmVkX3NoYTI1NiI6ImY1Y2ViMzJlMzA2YTRkODFmZGJiNzQ1ZjU5MWY3MWYz",
   "NzkyZjFmYjQ4YTQ1NmFhZDU5ZGYyZjNkNDZhZmU1OGQiLCJzdHJlYW0iOiJ0cmFkZSIsInVuY29tcHJl",
   "c3NlZF9ieXRlcyI6MywidW5jb21wcmVzc2VkX3NoYTI1NiI6ImJhNzgxNmJmOGYwMWNmZWE0MTQxNDBk",
   "ZTVkYWUyMjIzYjAwMzYxYTM5NjE3N2E5Y2I0MTBmZjYxZjIwMDE1YWQifQo="]

/-- The external manifest in compact JSON, in front of its time and behind it. -/
def sampleExternalHead : Bytes := utf8
  (["\x7b\"archive_manifest_schema_version\":\"external-archive-manifest.v1\",",
    "\"artifact_relative_path\":\"raw/0123456789abcdef0123456789abcdef.bmdr.zst\",",
    "\"chunk_id\":\"0123456789abcdef0123456789abcdef\",\"raw_manifest\":"] ++
   sampleManifestText ++ [",\"raw_manifest_bytes_base64\":\""] ++ sampleManifestBase64 ++
   ["\",\"registered_relative_path\":\"archive\",",
    "\"source_manifest_sha256\":\"d9cec838ff2ed92420a42fa0f398b6249724119043f68548d021ca8cae42838e\",",
    "\"storage_id\":\"disk\",\"stored_bytes\":12,",
    "\"stored_sha256\":\"f5ceb32e306a4d81fdbb745f591f71f3792f1fb48a456aad59df2f3d46afe58d\",",
    "\"transaction_id\":\"ee16c379-1f68-551b-8ccd-1a15177b3406\",",
    "\"verification\":\x7b\"full_readback\":true,\"sha256_match\":true,\"size_match\":true\x7d,",
    "\"verified_at_utc_ns\":"])

def sampleExternalTail : Bytes := utf8 [",\"volume_uuid\":\"volume\"\x7d\n"]

/-- The digits of a number with fewer digits than the first one. -/
def decimal : Nat → Nat → Bytes → Bytes
  | 0, _, digits => digits
  | fuel + 1, n, digits =>
    if n < 10 then UInt8.ofNat (48 + n) :: digits
    else decimal fuel (n / 10) (UInt8.ofNat (48 + n % 10) :: digits)

def ofDecimal (n : Nat) (digits : Bytes) : Nat :=
  digits.foldl (fun n d => n * 10 + (d.toNat - 48)) n

def isDigit (d : UInt8) : Bool := 48 ≤ d.toNat && d.toNat < 58

def sampleManifest : Value :=
  .dict [
    ("chunk_id", .str "0123456789abcdef0123456789abcdef"),
    ("manifest_schema_version", .str rawManifestSchema),
    ("market", .str "spot"),
    ("stored_bytes", .int 12),
    ("stored_sha256", .str sampleStoredSha256),
    ("stream", .str "trade"),
    ("uncompressed_bytes", .int 3),
    ("uncompressed_sha256", .str sampleUncompressedSha256)]

def sampleTarget : ArchiveTarget := ⟨"disk", "volume", "archive"⟩

def sampleArchive : ArchiveIdentity where
  transactionId := "ee16c379-1f68-551b-8ccd-1a15177b3406"
  chunkId := "0123456789abcdef0123456789abcdef"
  storageId := "disk"
  market := "spot"
  stream := "trade"
  sourceRelativePath := "data/sealed/0123456789abcdef0123456789abcdef.bmdr.zst"
  sourceManifestRelativePath := "data/manifests/0123456789abcdef0123456789abcdef.manifest.json"
  sourceManifestSha256 := sampleManifestSha256
  targetRelativePath := "raw/0123456789abcdef0123456789abcdef.bmdr.zst"
  targetTempRelativePath :=
    "raw/.0123456789abcdef0123456789abcdef.bmdr.zst.ee16c379-1f68-551b-8ccd-1a15177b3406.copying"
  externalManifestRelativePath := "manifests/0123456789abcdef0123456789abcdef.archive-manifest.json"
  storedBytes := 12
  storedSha256 := sampleStoredSha256

/-- The libraries on what the runs give them, but for the documents. -/
def sampleDigests : ArchiveLibrary where
  uuid5 _ := sampleArchive.transactionId
  sha256Hex bytes :=
    if bytes = sampleStored then sampleStoredSha256
    else if bytes = [0x61, 0x62, 0x63] then sampleUncompressedSha256
    else sampleManifestSha256
  dumps _ := []
  loads _ := none
  b64encode _ := String.join sampleManifestBase64
  b64decode _ := some sampleManifestBytes
  decompress bytes := if bytes = sampleStored then some [0x61, 0x62, 0x63] else none
  pieces bytes := [bytes]

def sampleExternal (verifiedAt : Int) : Value :=
  externalDocument sampleDigests sampleTarget sampleArchive sampleManifestBytes sampleManifest
    verifiedAt

def sampleLibrary : ArchiveLibrary :=
  { sampleDigests with
    dumps := fun document =>
      match document.get? "verified_at_utc_ns" with
      | some (.int verifiedAt) =>
        sampleExternalHead ++
          (decimal (verifiedAt.toNat + 1) verifiedAt.toNat [] ++ sampleExternalTail)
      | _ => []
    loads := fun bytes =>
      if bytes = sampleManifestBytes then some sampleManifest
      else if bytes.take sampleExternalHead.length = sampleExternalHead then
        let rest := bytes.drop sampleExternalHead.length
        if rest.dropWhile isDigit = sampleExternalTail then
          some (sampleExternal (ofDecimal 0 (rest.takeWhile isDigit)))
        else none
      else none }

/-- The chunk is sealed and reserved. -/
def reservingActions : List ArchiveAction :=
  [.catalogCall (.registerActive sampleArchive.chunkId "data/active/0.partial" 0) 0,
   .catalogCall (.transition sampleArchive.chunkId .sealing "sealing:0" (.dict []) id) 0,
   .sealed sampleArchive.sourceRelativePath sampleStored,
   .sealed sampleArchive.sourceManifestRelativePath sampleManifestBytes,
   .catalogCall (.transition sampleArchive.chunkId .sealed "sealed:0" (.dict []) id) 0,
   .catalogCall (.reserveArchiveTransaction sampleArchive) 0]

def sampleSystem : TransitionSystem ArchiveDisk ArchiveAction :=
  archiveSystem (fun _ => "") sampleLibrary sampleTarget

def sampleClock : ArchiveClock := ⟨5, 6, 0⟩

/-- The state of the transaction, and whether the source is unlinked without a sync. -/
def deletionOf (disk : ArchiveDisk) : Option (ArchiveState × Bool) :=
  (disk.catalog.tables.archiveTransactions.get? sampleArchive.transactionId).map fun row =>
    (row.state, (disk.unlinked.get? row.sourceRelativePath).isSome)

def resumesSynced (disk : ArchiveDisk) : ArchiveAction → Bool
  | .attempt transactionId _ _ =>
    (disk.catalog.tables.archiveTransactions.get? transactionId).all fun row =>
      (disk.unlinked.get? row.sourceRelativePath).isNone
  | _ => true

theorem resumesSynced_of_test {action : ArchiveAction} (h : resumesSynced disk action = true) :
    ResumesSynced disk action := by
  cases action with
  | attempt transactionId clock writes =>
    intro row hrow
    simpa [resumesSynced, hrow] using h
  | powerLoss | sealed | targetChanged | catalogCall => trivial

theorem sampleSystem_initial : sampleSystem.initial {} := ⟨⟨[], .empty, rfl⟩, rfl, rfl⟩

/-- An attempt that stops behind its sync, and the next one. -/
def syncedRun : Option ArchiveDisk :=
  sampleSystem.performAllowed resumesSynced {}
    (reservingActions ++
      [.attempt sampleArchive.transactionId sampleClock 12,
       .attempt sampleArchive.transactionId sampleClock 99])

theorem localDeletedDurable_of_reachable_sample :
    ∃ disk, syncedRun = some disk ∧ deletionOf disk = some (.localDeleted, false) ∧
      LocalDeletedDurable disk := by
  have hend : syncedRun.map deletionOf = some (some (.localDeleted, false)) := by decide +kernel
  obtain ⟨disk, hdisk, hdeleted⟩ := Option.map_eq_some_iff.mp hend
  have hrun : sampleSystem.Reachable ResumesSynced disk :=
    ⟨_, sampleSystem_initial,
      TransitionSystem.run_of_performAllowed (fun _ _ => resumesSynced_of_test) hdisk⟩
  exact ⟨disk, hdisk, hdeleted, localDeletedDurable_of_reachable hrun⟩

/-- An attempt that stops behind its unlink, in front of the sync, and the next one. -/
def resumingRun : Option ArchiveDisk :=
  sampleSystem.perform {}
    (reservingActions ++
      [.attempt sampleArchive.transactionId sampleClock 11,
       .attempt sampleArchive.transactionId sampleClock 99])

/-- There `LOCAL_DELETED` is recorded, and the sealed directory was not synced. -/
theorem not_localDeletedDurable_of_stop :
    ¬ ∀ disk, sampleSystem.Reachable (fun _ _ => True) disk → LocalDeletedDurable disk := by
  intro hclaim
  have hend : resumingRun.map deletionOf = some (some (.localDeleted, true)) := by decide +kernel
  obtain ⟨disk, hdisk, hdeleted⟩ := Option.map_eq_some_iff.mp hend
  obtain ⟨row, hrow, hlocal⟩ := Option.map_eq_some_iff.mp hdeleted
  obtain ⟨hstate, hunlinked⟩ := Prod.mk.inj hlocal
  have hremoved := hclaim disk
    ⟨_, sampleSystem_initial, TransitionSystem.run_of_perform hdisk⟩ _ row hrow (Or.inl hstate)
  rw [hremoved.2] at hunlinked
  cases hunlinked

end MarketDataRecorder
