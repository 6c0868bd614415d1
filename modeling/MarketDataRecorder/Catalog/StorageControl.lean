import Mathlib.Data.List.Sort
import MarketDataRecorder.Catalog.LifecycleCalls

/-!
# Storage control

The eject latch of a storage target in `storage/catalog/archive_ops.py`. An eject request turns it
against new archives, its outcome makes the target safe to remove or active again, and a status
refresh activates a target that is ready.
-/

namespace MarketDataRecorder.ArchiveTables

variable (tables : ArchiveTables)

/-- A transaction of the target that has not come to its end. -/
def Unfinished (storageId : String) : Prop :=
  ∃ id row, tables.archiveTransactions.get? id = some row ∧ row.storageId = storageId ∧
    row.state ≠ .localDeleted

/-- The rows that `begin_storage_eject` selects, oldest first. -/
def unfinishedTransactions (storageId : String) : List ArchiveTransaction :=
  ((tables.archiveTransactions.items.map Prod.snd).filter fun row =>
    row.storageId = storageId ∧ row.state ≠ .localDeleted).insertionSort
      fun a b => a.createdAtUtcNs ≤ b.createdAtUtcNs

/-- `begin_storage_eject`: the work that is in the way, or none and the latch. -/
def beginStorageEject (storageId requestId : String) (now : Int) :
    Except String (List ArchiveTransaction × ArchiveTables) :=
  if storageId = "" ∨ requestId = "" ∨ now < 0 then .error "invalid storage eject request"
  else if storageId ∉ tables.storageTargets then .error s!"unknown storage_id: {storageId}"
  else if tables.unfinishedTransactions storageId ≠ [] then
    .ok (tables.unfinishedTransactions storageId, tables)
  else
    .ok ([], {
      tables with
      storageControl := tables.storageControl.insert storageId
        { state := .ejectPending
          requestId := some requestId
          updatedAtUtcNs := now
          evidence := .dict [("request_id", .str requestId)] } })

/-- `finish_storage_eject`: whatever the state is, the request has to be the one in the row. -/
def finishStorageEject (storageId requestId : String) (succeeded : Bool) (evidence : Value)
    (now : Int) : Except String ArchiveTables :=
  if storageId = "" ∨ requestId = "" ∨ now < 0 then .error "invalid storage eject completion"
  else match tables.storageControl.get? storageId with
    | none => .error "storage eject request is not pending"
    | some row =>
      if row.requestId ≠ some requestId then .error "storage eject request identity changed"
      else
        .ok {
          tables with
          storageControl := tables.storageControl.insert storageId
            { row with
              state := if succeeded then .safeToRemove else .active
              updatedAtUtcNs := now
              evidence := evidence } }

/-- `retain_storage_eject_pending`. -/
def retainStorageEjectPending (storageId requestId : String) (evidence : Value) (now : Int) :
    Except String ArchiveTables :=
  match tables.storageControl.get? storageId with
  | none => .error "storage eject request is not pending"
  | some row =>
    if row.state ≠ .ejectPending ∨ row.requestId ≠ some requestId then
      .error "storage eject request is not pending"
    else
      .ok {
        tables with
        storageControl := tables.storageControl.insert storageId
          { row with updatedAtUtcNs := now, evidence := evidence } }

/-- `activate_storage_target`: it does not look at who holds the latch. -/
def activateStorageTarget (storageId : String) (now : Int) : ArchiveTables :=
  match tables.storageControl.get? storageId with
  | none => tables
  | some row =>
    if row.state = .active then tables
    else
      { tables with
        storageControl := tables.storageControl.insert storageId
          { state := .active
            requestId := none
            updatedAtUtcNs := now
            evidence := .dict [("reason", .str "ready_after_reinsertion")] } }

/-! ## What the calls do -/

variable {tables} {tables' : ArchiveTables} {storageId requestId : String} {now : Int}

theorem unfinishedTransactions_eq_nil :
    tables.unfinishedTransactions storageId = [] ↔ ¬ tables.Unfinished storageId := by
  have hsort : tables.unfinishedTransactions storageId = [] ↔
      (tables.archiveTransactions.items.map Prod.snd).filter (fun row =>
        row.storageId = storageId ∧ row.state ≠ .localDeleted) = [] := by
    rw [← List.length_eq_zero_iff, ← List.length_eq_zero_iff, unfinishedTransactions,
      List.length_insertionSort]
  rw [hsort, List.filter_eq_nil_iff]
  constructor
  · rintro hall ⟨id, row, hrow, hstorage, hstate⟩
    refine hall row (List.mem_map.mpr ⟨(id, row), SortedDict.get?_eq_some_iff.mp hrow, rfl⟩) ?_
    exact decide_eq_true ⟨hstorage, hstate⟩
  · intro hnone row hmem hrow
    obtain ⟨item, hitem, rfl⟩ := List.mem_map.mp hmem
    obtain ⟨hstorage, hstate⟩ := of_decide_eq_true hrow
    exact hnone ⟨item.1, item.2, SortedDict.get?_eq_some_iff.mpr hitem, hstorage, hstate⟩

/-- A request finds no work in the way, and then the latch is its own. -/
theorem beginStorageEject_eq_ok_nil
    (h : tables.beginStorageEject storageId requestId now = .ok ([], tables')) :
    ¬ tables.Unfinished storageId ∧ ∃ row, row.state = .ejectPending ∧
      row.requestId = some requestId ∧
      tables' = { tables with storageControl := tables.storageControl.insert storageId row } := by
  unfold beginStorageEject at h
  split at h
  · cases h
  split at h
  · cases h
  split at h
  · next hbusy => exact absurd (congrArg Prod.fst (Except.ok.inj h)) hbusy
  · next hfree =>
    have hrow := (congrArg Prod.snd (Except.ok.inj h)).symm
    exact ⟨unfinishedTransactions_eq_nil.mp (not_not.mp hfree),
      ⟨.ejectPending, some requestId, now, _⟩, rfl, rfl, hrow⟩

theorem finishStorageEject_eq_ok {succeeded : Bool} {evidence : Value}
    (h : tables.finishStorageEject storageId requestId succeeded evidence now = .ok tables') :
    ∃ row, row.state = (if succeeded then .safeToRemove else .active) ∧
      tables' = { tables with storageControl := tables.storageControl.insert storageId row } := by
  unfold finishStorageEject at h
  split at h
  · cases h
  split at h
  · cases h
  split at h
  · cases h
  · exact ⟨_, rfl, (Except.ok.inj h).symm⟩

theorem retainStorageEjectPending_eq_ok {evidence : Value}
    (h : tables.retainStorageEjectPending storageId requestId evidence now = .ok tables') :
    ∃ row, row.state = .ejectPending ∧ row.requestId = some requestId ∧
      tables' = { tables with storageControl := tables.storageControl.insert storageId row } := by
  unfold retainStorageEjectPending at h
  split at h
  · cases h
  split at h
  · cases h
  · next row _ hrow =>
    simp only [not_or, not_not] at hrow
    exact ⟨{ row with updatedAtUtcNs := now, evidence := evidence }, hrow.1, hrow.2,
      (Except.ok.inj h).symm⟩

theorem storageControlState_insert (row : StorageControl) (other : String) :
    ({ tables with storageControl := tables.storageControl.insert storageId row } :
        ArchiveTables).storageControlState other =
      if other = storageId then row.state else tables.storageControlState other := by
  by_cases ho : other = storageId
  · simp [storageControlState, ho]
  · simp [storageControlState, ho]

/-! ## The lifecycles next to the latch -/

/-- A reservation against the latch finds at most a row that is there already. -/
theorem Unfinished.of_reserve {identity : ArchiveIdentity} {row : ArchiveTransaction}
    (hcall : tables.reserveArchiveTransaction identity now = .ok (row, tables'))
    (hlatch : tables.storageControlState storageId ≠ .active)
    (h : tables'.Unfinished storageId) : tables.Unfinished storageId := by
  rcases reserveArchiveTransaction_eq_ok hcall with
    ⟨-, -, rfl⟩ | ⟨rfl, hactive, -, -, -, -, -, -, rfl⟩
  · exact h
  · obtain ⟨id, row, hrow, hstorage, hstate⟩ := h
    simp only [SortedDict.get?_insert] at hrow
    by_cases hid : id = identity.transactionId
    · rw [if_pos hid] at hrow
      cases hrow
      exact absurd (hstorage ▸ hactive) hlatch
    · rw [if_neg hid] at hrow
      exact ⟨id, row, hrow, hstorage, hstate⟩

/-- A drain takes no transaction back from its end. -/
theorem Unfinished.of_transitionArchive {transactionId : String} {toState : ArchiveState}
    {key : String} {evidence : Value} {verifiedAt localDeletedAt : Option Int}
    (hcall : tables.transitionArchive transactionId toState key evidence verifiedAt localDeletedAt
      now = .ok tables')
    (h : tables'.Unfinished storageId) : tables.Unfinished storageId := by
  rcases transitionArchive_eq_ok hcall with ⟨-, rfl⟩ | ⟨-, -, old, hold, hallowed, -, rfl⟩
  · exact h
  · obtain ⟨id, row, hrow, hstorage, hstate⟩ := h
    simp only [SortedDict.get?_insert] at hrow
    by_cases hid : id = transactionId
    · rw [if_pos hid] at hrow
      cases hrow
      refine ⟨transactionId, old, hold, hstorage, ?_⟩
      intro hdeleted
      rcases hallowed with hsame | hto
      · exact hstate (hsame.symm.trans hdeleted)
      · rw [hdeleted] at hto
        cases hto
    · rw [if_neg hid] at hrow
      exact ⟨id, row, hrow, hstorage, hstate⟩

/-- **The calls on the lifecycles** leave the latch alone, and behind a latch no work begins. -/
theorem perform_latch (identitySha256 : RemoteArchiveReceipt → String) (tables : ArchiveTables)
    (storageId : String) (call : LifecycleCall) (now : Int) :
    (call.perform identitySha256 tables now).2.storageControl = tables.storageControl ∧
      (tables.storageControlState storageId ≠ .active →
        (call.perform identitySha256 tables now).2.Unfinished storageId →
          tables.Unfinished storageId) := by
  cases call with
  | registerActive chunkId partialPath createdAt => exact ⟨rfl, fun _ h => h⟩
  | registerBoundaryMarkerSealing chunkId partialPath createdAt sealIntent =>
    simp only [LifecycleCall.perform]
    cases hcall : tables.registerBoundaryMarkerSealing chunkId partialPath createdAt
      sealIntent now with
    | error e => exact ⟨rfl, fun _ h => h⟩
    | ok tables' =>
      rcases registerBoundaryMarkerSealing_eq_ok hcall with rfl | ⟨-, -, -, rfl⟩
      · exact ⟨rfl, fun _ h => h⟩
      · exact ⟨rfl, fun _ h => h⟩
  | transition chunkId toState key evidence update =>
    simp only [LifecycleCall.perform]
    cases hcall : tables.transition chunkId toState key evidence update now with
    | error e => exact ⟨rfl, fun _ h => h⟩
    | ok tables' =>
      rcases transition_eq_ok hcall with ⟨-, rfl⟩ | ⟨-, row, -, -, rfl⟩
      · exact ⟨rfl, fun _ h => h⟩
      · exact ⟨rfl, fun _ h => h⟩
  | reserveArchiveTransaction identity =>
    simp only [LifecycleCall.perform]
    cases hcall : tables.reserveArchiveTransaction identity now with
    | error e => exact ⟨rfl, fun _ h => h⟩
    | ok done =>
      refine ⟨?_, fun hlatch h => h.of_reserve hcall hlatch⟩
      rcases reserveArchiveTransaction_eq_ok hcall with ⟨-, -, hsame⟩ |
        ⟨-, -, -, -, -, -, -, -, hsame⟩
      · have hcontrol := congrArg storageControl hsame
        exact hcontrol
      · have hcontrol := congrArg storageControl hsame
        exact hcontrol
  | transitionArchive transactionId toState key evidence verifiedAt localDeletedAt =>
    simp only [LifecycleCall.perform]
    cases hcall : tables.transitionArchive transactionId toState key evidence verifiedAt
        localDeletedAt now with
    | error e => exact ⟨rfl, fun _ h => h⟩
    | ok tables' =>
      refine ⟨?_, fun _ h => h.of_transitionArchive hcall⟩
      rcases transitionArchive_eq_ok hcall with ⟨-, hsame⟩ | ⟨-, -, row, -, -, -, hsame⟩
      · have hcontrol := congrArg storageControl hsame
        exact hcontrol
      · have hcontrol := congrArg storageControl hsame
        exact hcontrol
  | reserveRemoteArchiveTransaction receiptBytes market stream expectedChunk =>
    simp only [LifecycleCall.perform]
    cases hcall : reserveRemoteArchiveTransaction identitySha256 tables receiptBytes market stream
        expectedChunk now with
    | error e => exact ⟨rfl, fun _ h => h⟩
    | ok done =>
      rw [Except.map, LifecycleCall.readBack_snd]
      obtain ⟨-, -, -, hcases⟩ := reserveRemoteArchiveTransaction_eq_ok hcall
      rcases hcases with ⟨hsame, -⟩ | ⟨-, -, -, -, -, -, -, hsame⟩
      · rw [hsame]
        exact ⟨rfl, fun _ h => h⟩
      · rw [hsame]
        exact ⟨rfl, fun _ h => h⟩
  | commitRemoteDeleted deletion =>
    simp only [LifecycleCall.perform]
    cases hcall : commitRemoteDeleted identitySha256 tables deletion now with
    | error e => exact ⟨rfl, fun _ h => h⟩
    | ok tables' =>
      rw [Except.map, LifecycleCall.readBack_snd]
      obtain ⟨-, row, -, -, -, -, -, rfl⟩ := commitRemoteDeleted_eq_ok hcall
      exact ⟨rfl, fun _ h => h⟩

end MarketDataRecorder.ArchiveTables
