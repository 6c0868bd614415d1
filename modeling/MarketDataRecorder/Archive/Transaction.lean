import MarketDataRecorder.Archive.Manager

/-!
# The Catalog along a transaction

The steps of a transaction are taken in one order, each under a key of its own, and two of them come
with a metric batch. What the Catalog says of a transaction therefore says how far it came: its
chunk is in the state of the row, no later key is recorded, and each batch is counted once from its
step on.
-/

namespace MarketDataRecorder

/-! ## Keys and batches -/

def ArchiveState.rank : ArchiveState → Nat
  | .copying => 0
  | .verifying => 1
  | .verified => 2
  | .localDeletePending => 3
  | .localDeleted => 4

/-- The key under which a transaction gets to a state. -/
def stateKey (transactionId : String) : ArchiveState → String
  | .copying => ArchiveTables.reserveKey transactionId
  | .verifying => verifyingKey transactionId
  | .verified => verifiedKey transactionId
  | .localDeletePending => deletePendingKey transactionId
  | .localDeleted => deletedKey transactionId

theorem stateKey_injective {transactionId : String} {s t : ArchiveState}
    (h : stateKey transactionId s = stateKey transactionId t) : s = t := by
  cases s <;> cases t <;>
    first | rfl | exact absurd (String.append_left_inj _ |>.mp h) (by decide)

theorem chunkKey_injective {a b : String}
    (h : ArchiveTables.chunkKey a = ArchiveTables.chunkKey b) : a = b := by
  simpa [ArchiveTables.chunkKey] using h

/-- How often a metric batch is counted. -/
def batchCount (disk : ArchiveDisk) (batchId : String) : Nat :=
  disk.catalog.metricBatches.countP fun batch => batch.batchId = batchId

def archivedBatch (transactionId : String) : String := "archive-verified:" ++ transactionId
def deletedBatch (transactionId : String) : String := "archive-local-delete:" ++ transactionId

theorem archivedBatch_ne_deletedBatch (transactionId : String) :
    archivedBatch transactionId ≠ deletedBatch transactionId := by
  intro h
  exact absurd ((String.append_left_inj _).mp h) (by decide)

/-! ## How far a transaction came -/

/-- What the Catalog holds of a transaction with this row. -/
structure ArchiveTracks (identity : ArchiveIdentity) (disk : ArchiveDisk)
    (row : ArchiveTransaction) : Prop where
  row_eq : disk.catalog.tables.archiveTransactions.get? identity.transactionId = some row
  same : row.toArchiveIdentity = identity
  chunk : disk.catalog.tables.state identity.chunkId = some (archiveChunkStates row.state)
  fresh : ∀ toState : ArchiveState, row.state.rank < toState.rank →
    hasEvent disk.catalog.tables.archiveEvents (stateKey identity.transactionId toState) = false ∧
      hasEvent disk.catalog.tables.chunkTransitions
        (ArchiveTables.chunkKey (stateKey identity.transactionId toState)) = false
  verified : ArchiveState.verified.rank ≤ row.state.rank →
    ∃ verifiedAt, row.verifiedAtUtcNs = some verifiedAt ∧ 0 ≤ verifiedAt
  archivedOnce : batchCount disk (archivedBatch identity.transactionId) ≤ 1 ∧
    (row.state.rank < ArchiveState.verified.rank →
      batchCount disk (archivedBatch identity.transactionId) = 0) ∧
    (ArchiveState.localDeletePending.rank ≤ row.state.rank →
      batchCount disk (archivedBatch identity.transactionId) = 1)
  deletedOnce : batchCount disk (deletedBatch identity.transactionId) ≤ 1 ∧
    (row.state.rank < ArchiveState.localDeletePending.rank →
      batchCount disk (deletedBatch identity.transactionId) = 0) ∧
    (row.state = .localDeleted → batchCount disk (deletedBatch identity.transactionId) = 1)

/-- The files are the same, and so is what the target's marker says. -/
structure SameFiles (disk disk' : ArchiveDisk) : Prop where
  internal : disk'.internal = disk.internal
  external : disk'.external = disk.external
  targetValid : disk'.targetValid = disk.targetValid

namespace ArchiveTracks

variable {identity : ArchiveIdentity} {disk disk' : ArchiveDisk} {row : ArchiveTransaction}
  {Q : Unit → Option ArchiveWrite → ArchiveDisk → Prop}
  {R : String → Option ArchiveWrite → ArchiveDisk → Prop}
  {C : Option ArchiveWrite → ArchiveDisk → Prop} {last : Option ArchiveWrite}

theorem of_catalog (h : ArchiveTracks identity disk row) (heq : disk'.catalog = disk.catalog) :
    ArchiveTracks identity disk' row := by
  constructor
  · rw [heq]
    exact h.row_eq
  · exact h.same
  · rw [heq]
    exact h.chunk
  · rw [heq]
    exact h.fresh
  · exact h.verified
  · unfold batchCount
    rw [heq]
    exact h.archivedOnce
  · unfold batchCount
    rw [heq]
    exact h.deletedOnce

theorem required (h : ArchiveTracks identity disk row) :
    requiredTransaction identity.transactionId disk = .ok row := by
  simp [requiredTransaction, h.row_eq]

theorem identity_eq (h : ArchiveTracks identity disk row) :
    row.transactionId = identity.transactionId :=
  congrArg ArchiveIdentity.transactionId h.same

/-! ## Metrics -/

theorem batchCount_commit (batches : List MetricBatchRow) (batchId : String) :
    batchCount ((ArchiveWrite.commit { disk.catalog with metricBatches := batches } false).apply
      disk)
      batchId = batches.countP fun batch => batch.batchId = batchId := rfl

/-- A batch that is recorded is counted once more where it was not counted. -/
theorem batchCount_append (batch : MetricBatchRow) (batchId : String) :
    (disk.catalog.metricBatches ++ [batch]).countP (fun b => b.batchId = batchId) =
      batchCount disk batchId + if batch.batchId = batchId then 1 else 0 := by
  rw [batchCount, List.countP_append, List.countP_singleton]
  by_cases hid : batch.batchId = batchId
  · simp [hid]
  · simp [hid]

theorem batchCount_eq_zero {batchId : String}
    (h : ¬ (disk.catalog.metricBatches.any fun batch => batch.batchId = batchId) = true) :
    batchCount disk batchId = 0 := by
  rw [batchCount, List.countP_eq_zero]
  intro batch hbatch hid
  exact h (List.any_eq_true.mpr ⟨batch, hbatch, hid⟩)

theorem batchCount_pos {batchId : String}
    (h : (disk.catalog.metricBatches.any fun batch => batch.batchId = batchId) = true) :
    0 < batchCount disk batchId := by
  obtain ⟨batch, hbatch, hid⟩ := List.any_eq_true.mp h
  exact List.countP_pos_iff.mpr ⟨batch, hbatch, hid⟩

/-- Behind a batch that was counted once at most, it is counted once, and the others as before. -/
theorem wp_recordBatch {batch : MetricBatchRow} (hbatch : batch.batchId ≠ "")
    (htime : 0 ≤ batch.committedAtUtcNs) (hmarket : batch.market ≠ "") (hstream : batch.stream ≠ "")
    (hle : batchCount disk batch.batchId ≤ 1) (hC : C last disk)
    (hQ : ∀ last' disk', SameFiles disk disk' → disk'.catalog.tables = disk.catalog.tables →
      batchCount disk' batch.batchId = 1 →
      (∀ other, other ≠ batch.batchId → batchCount disk' other = batchCount disk other) →
      (last' = last ∨ ∃ catalog, last' = some (.commit catalog false)) → Q () last' disk') :
    Durable.wp ArchiveWrite.apply Q R C (recordMetricBatch batch) last disk := by
  rw [wp_recordMetricBatch hbatch htime hmarket hstream]
  split
  · next hany =>
    have hpos := batchCount_pos hany
    exact hQ last disk ⟨rfl, rfl, rfl⟩ rfl (by omega) (fun _ _ => rfl) (Or.inl rfl)
  · next hany =>
    refine ⟨hC, hQ _ _ ⟨rfl, rfl, rfl⟩ rfl ?_ ?_ (Or.inr ⟨_, rfl⟩)⟩
    · rw [batchCount_commit, batchCount_append, if_pos rfl, batchCount_eq_zero hany]
    · intro other hne
      rw [batchCount_commit, batchCount_append, if_neg hne.symm, Nat.add_zero]

/-- Behind `_record_archived_metric`, its batch is counted once. -/
theorem wp_archivedMetric (h : ArchiveTracks identity disk row) (hstate : row.state = .verified)
    (hmarket : identity.market ≠ "") (hstream : identity.stream ≠ "") {verifiedAt : Int}
    (htime : 0 ≤ verifiedAt) (hC : C last disk)
    (hQ : ∀ last' disk', SameFiles disk disk' → ArchiveTracks identity disk' row →
      batchCount disk' (archivedBatch identity.transactionId) = 1 →
      (last' = last ∨ ∃ catalog, last' = some (.commit catalog false)) → Q () last' disk') :
    Durable.wp ArchiveWrite.apply Q R C (recordMetricBatch (archivedMetric row verifiedAt)) last
      disk := by
  have hbatch : (archivedMetric row verifiedAt).batchId = archivedBatch identity.transactionId :=
    congrArg archivedBatch h.identity_eq
  refine wp_recordBatch (archivedMetric_batchId_ne row verifiedAt) htime ?_ ?_ ?_ hC ?_
  · rwa [show (archivedMetric row verifiedAt).market = row.market from rfl,
      congrArg ArchiveIdentity.market h.same]
  · rwa [show (archivedMetric row verifiedAt).stream = row.stream from rfl,
      congrArg ArchiveIdentity.stream h.same]
  · rw [hbatch]
    exact h.archivedOnce.1
  · rw [hbatch]
    intro last' disk' hfiles htables hone hothers hlast
    refine hQ last' disk' hfiles ?_ hone hlast
    constructor
    · rw [htables]
      exact h.row_eq
    · exact h.same
    · rw [htables]
      exact h.chunk
    · rw [htables]
      exact h.fresh
    · exact h.verified
    · refine ⟨hone.le, fun hearly => ?_, fun _ => hone⟩
      rw [hstate] at hearly
      exact absurd hearly (by decide)
    · rw [hothers _ (archivedBatch_ne_deletedBatch identity.transactionId).symm]
      exact h.deletedOnce

/-- Behind `_record_deleted_metric`, its batch is counted once. -/
theorem wp_deletedMetric (h : ArchiveTracks identity disk row)
    (hstate : row.state = .localDeletePending)
    (hmarket : identity.market ≠ "") (hstream : identity.stream ≠ "") {deletedAt : Int}
    (htime : 0 ≤ deletedAt) (hC : C last disk)
    (hQ : ∀ last' disk', SameFiles disk disk' → ArchiveTracks identity disk' row →
      batchCount disk' (deletedBatch identity.transactionId) = 1 →
      (last' = last ∨ ∃ catalog, last' = some (.commit catalog false)) → Q () last' disk') :
    Durable.wp ArchiveWrite.apply Q R C (recordMetricBatch (deletedMetric row deletedAt)) last
      disk := by
  have hbatch : (deletedMetric row deletedAt).batchId = deletedBatch identity.transactionId :=
    congrArg deletedBatch h.identity_eq
  refine wp_recordBatch (deletedMetric_batchId_ne row deletedAt) htime ?_ ?_ ?_ hC ?_
  · rwa [show (deletedMetric row deletedAt).market = row.market from rfl,
      congrArg ArchiveIdentity.market h.same]
  · rwa [show (deletedMetric row deletedAt).stream = row.stream from rfl,
      congrArg ArchiveIdentity.stream h.same]
  · rw [hbatch]
    exact h.deletedOnce.1
  · rw [hbatch]
    intro last' disk' hfiles htables hone hothers hlast
    refine hQ last' disk' hfiles ?_ hone hlast
    constructor
    · rw [htables]
      exact h.row_eq
    · exact h.same
    · rw [htables]
      exact h.chunk
    · rw [htables]
      exact h.fresh
    · exact h.verified
    · rw [hothers _ (archivedBatch_ne_deletedBatch identity.transactionId)]
      exact h.archivedOnce
    · refine ⟨hone.le, fun hearly => ?_, fun _ => hone⟩
      rw [hstate] at hearly
      exact absurd hearly (by decide)

/-! ## Transitions -/

/-- **A step of the transaction** goes through, and the Catalog tracks the row behind it. -/
theorem wp_transition (h : ArchiveTracks identity disk row) {toState : ArchiveState}
    {evidence : Value} {verifiedAt localDeletedAt : Option Int} {now : Int} (forceSync : Bool)
    (hallowed : toState ∈ archiveTransitions row.state)
    (hverified : if toState = .verified then ∃ time, verifiedAt = some time ∧ 0 ≤ time
      else verifiedAt = none)
    (harchived : toState = .localDeletePending →
      batchCount disk (archivedBatch identity.transactionId) = 1)
    (hdeleted : toState = .localDeleted →
      batchCount disk (deletedBatch identity.transactionId) = 1) (hC : C last disk)
    (hQ : ∀ catalog disk', SameFiles disk disk' →
      ArchiveTracks identity disk'
        (ArchiveTables.advancedRow row toState verifiedAt localDeletedAt now) →
      Q () (some (.commit catalog forceSync)) disk') :
    Durable.wp ArchiveWrite.apply Q R C
      (commitArchive forceSync fun tables =>
        tables.transitionArchive identity.transactionId toState
          (stateKey identity.transactionId toState) evidence verifiedAt localDeletedAt now)
      last disk := by
  have hnext : toState.rank = row.state.rank + 1 := by
    cases hstate : row.state <;> rw [hstate] at hallowed <;> cases toState <;>
      simp_all [archiveTransitions, ArchiveState.rank]
  obtain ⟨hkey, hchunkKey⟩ := h.fresh toState (by omega)
  have hchunk := h.chunk
  rw [← congrArg ArchiveIdentity.chunkId h.same] at hchunk
  rw [wp_commitArchive, ArchiveTables.transitionArchive_of_allowed hkey hchunkKey h.row_eq hallowed
    hchunk]
  refine ⟨hC, hQ _ _ ⟨rfl, rfl, rfl⟩ ?_⟩
  constructor
  · simp
  · exact h.same
  · obtain ⟨old, hold, -⟩ := Option.map_eq_some_iff.mp hchunk
    simp only [ArchiveWrite.apply_commit, ArchiveTables.state, ArchiveTables.setChunkState_get?]
    rw [← congrArg ArchiveIdentity.chunkId h.same, if_pos rfl, hold]
    rfl
  · intro state hstate
    have hstate : toState.rank < state.rank := hstate
    -- the key that is recorded belongs to an earlier state
    have hne : stateKey identity.transactionId toState ≠ stateKey identity.transactionId state := by
      intro hc
      rw [stateKey_injective hc] at hstate
      omega
    obtain ⟨hevent, htransition⟩ := h.fresh state (by omega)
    have hchunkNe := mt chunkKey_injective hne
    constructor
    · simpa [hasEvent, hne] using hevent
    · simpa [hasEvent, hchunkNe] using htransition
  · intro hrank
    have hrank : ArchiveState.verified.rank ≤ toState.rank := hrank
    show ∃ time, (verifiedAt.or row.verifiedAtUtcNs) = some time ∧ 0 ≤ time
    split at hverified
    · obtain ⟨time, htime, hpos⟩ := hverified
      exact ⟨time, by rw [htime, Option.some_or], hpos⟩
    · next hne =>
      rw [hverified, Option.none_or]
      refine h.verified ?_
      have hlt : toState.rank ≠ ArchiveState.verified.rank := by
        intro hc
        cases toState <;> simp_all [ArchiveState.rank]
      omega
  · show batchCount disk _ ≤ 1 ∧ (toState.rank < _ → batchCount disk _ = 0) ∧
      (_ ≤ toState.rank → batchCount disk _ = 1)
    refine ⟨h.archivedOnce.1, fun hearly => h.archivedOnce.2.1 (by omega), fun hlate => ?_⟩
    by_cases hpending : toState = .localDeletePending
    · exact harchived hpending
    · refine h.archivedOnce.2.2 ?_
      have hlt : toState.rank ≠ ArchiveState.localDeletePending.rank := by
        intro hc
        cases toState <;> simp_all [ArchiveState.rank]
      omega
  · exact ⟨h.deletedOnce.1, fun hearly => h.deletedOnce.2.1 (by
      have hearly : toState.rank < ArchiveState.localDeletePending.rank := hearly
      omega), hdeleted⟩

end ArchiveTracks

end MarketDataRecorder
