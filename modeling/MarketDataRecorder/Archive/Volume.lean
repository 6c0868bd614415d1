import MarketDataRecorder.Catalog.LifecycleCalls
import MarketDataRecorder.Lib.Durable

/-!
# The archive's two volumes

What an archive run sees and writes: the internal files, the registered volume and the Catalog. A
write is visible at once. An unlinked internal file is gone for good when its directory is synced,
and a Catalog commit when it is a forced one; before that a power loss can bring both back.
-/

namespace MarketDataRecorder

/-- A row of `metric_batches`: the date as the number of its day, and the counters that are set. -/
structure MetricBatchRow where
  batchId : String
  utcDay : Int
  market : String
  stream : String
  counters : List (String × Int)
  committedAtUtcNs : Int
  deriving DecidableEq

structure ArchiveCatalog where
  tables : ArchiveTables := {}
  metricBatches : List MetricBatchRow := []
  deriving DecidableEq

structure ArchiveDisk where
  /-- The files below the layout root, by their relative paths. -/
  internal : SortedDict String Bytes := .empty
  /-- The unlinked ones, with what they held, whose directory was not synced since. -/
  unlinked : SortedDict String Bytes := .empty
  /-- The files below the root of the registered target. -/
  external : SortedDict String Bytes := .empty
  /-- The marker of the target is the registered one. -/
  targetValid : Bool := true
  catalog : ArchiveCatalog := {}
  /-- The Catalogs since the last forced commit. -/
  superseded : List ArchiveCatalog := []
  deriving DecidableEq

inductive ArchiveWrite where
  | commit (catalog : ArchiveCatalog) (forceSync : Bool)
  | unlinkInternal (path : String)
  /-- `fsync_directory(layout.sealed)`. -/
  | syncSealed
  | createExternal (path : String)
  | appendExternal (path : String) (piece : Bytes)
  | unlinkExternal (path : String)
  /-- `os.replace` on the target. -/
  | renameExternal (source destination : String)
  deriving DecidableEq

def ArchiveWrite.apply : ArchiveWrite → ArchiveDisk → ArchiveDisk
  | commit catalog forceSync, disk =>
    { disk with
      catalog := catalog
      superseded := if forceSync then [] else disk.catalog :: disk.superseded }
  | unlinkInternal path, disk =>
    match disk.internal.get? path with
    | none => disk
    | some bytes =>
      { disk with
        internal := disk.internal.erase path
        unlinked := disk.unlinked.insert path bytes }
  | syncSealed, disk => { disk with unlinked := .empty }
  | createExternal path, disk => { disk with external := disk.external.insert path [] }
  | appendExternal path piece, disk =>
    match disk.external.get? path with
    | none => disk
    | some bytes => { disk with external := disk.external.insert path (bytes ++ piece) }
  | unlinkExternal path, disk => { disk with external := disk.external.erase path }
  | renameExternal source destination, disk =>
    match disk.external.get? source with
    | none => disk
    | some bytes =>
      { disk with external := (disk.external.erase source).insert destination bytes }

abbrev ArchiveProgram := Durable ArchiveWrite ArchiveDisk String

/-- A check of what is on the disk. -/
def archiveCheck {α : Type} (check : ArchiveDisk → Except String α) : ArchiveProgram α :=
  .read fun disk => .ofExcept (check disk)

/-- A Catalog call, committed where it succeeds. -/
def commitArchive (forceSync : Bool) (call : ArchiveTables → Except String ArchiveTables) :
    ArchiveProgram Unit :=
  .read fun disk =>
    match call disk.catalog.tables with
    | .error e => .raise e
    | .ok tables => .perform (.commit { disk.catalog with tables := tables } forceSync)

/-- `record_metric_batch` with one row: a batch that is there is not counted again. -/
def recordMetricBatch (row : MetricBatchRow) : ArchiveProgram Unit :=
  .read fun disk =>
    if row.batchId = "" then .raise "metric batch requires an identity and at least one row"
    else if row.committedAtUtcNs < 0 then .raise "metric batch commit time must be non-negative"
    else if row.market = "" ∨ row.stream = "" then
      .raise "metric batch row identity must be non-empty"
    else if disk.catalog.metricBatches.any fun batch => batch.batchId = row.batchId then .ret ()
    else
      .perform (.commit
        { disk.catalog with metricBatches := disk.catalog.metricBatches ++ [row] } false)

/-- `path.unlink()` where the path exists. -/
def unlinkIfThere (path : String) : ArchiveProgram Unit :=
  .read fun disk =>
    if (disk.external.get? path).isSome then .perform (.unlinkExternal path) else .ret ()

/-- `_write_all`, piece by piece. -/
def appendPieces (path : String) : List Bytes → ArchiveProgram Unit
  | [] => .ret ()
  | piece :: rest => .write (.appendExternal path piece) (appendPieces path rest)

section

variable {Q : Unit → Option ArchiveWrite → ArchiveDisk → Prop}
  {R : String → Option ArchiveWrite → ArchiveDisk → Prop}
  {C : Option ArchiveWrite → ArchiveDisk → Prop} {last : Option ArchiveWrite} {disk : ArchiveDisk}

@[simp] theorem ArchiveWrite.apply_commit (catalog : ArchiveCatalog) (forceSync : Bool) :
    (ArchiveWrite.commit catalog forceSync).apply disk =
      { disk with
        catalog := catalog
        superseded := if forceSync then [] else disk.catalog :: disk.superseded } := rfl

theorem ArchiveWrite.apply_unlinkInternal {path : String} {bytes : Bytes}
    (h : disk.internal.get? path = some bytes) :
    (ArchiveWrite.unlinkInternal path).apply disk =
      { disk with
        internal := disk.internal.erase path
        unlinked := disk.unlinked.insert path bytes } := by
  simp [ArchiveWrite.apply, h]

@[simp] theorem ArchiveWrite.apply_syncSealed :
    ArchiveWrite.syncSealed.apply disk = { disk with unlinked := .empty } := rfl

@[simp] theorem ArchiveWrite.apply_createExternal (path : String) :
    (ArchiveWrite.createExternal path).apply disk =
      { disk with external := disk.external.insert path [] } := rfl

@[simp] theorem ArchiveWrite.apply_unlinkExternal (path : String) :
    (ArchiveWrite.unlinkExternal path).apply disk =
      { disk with external := disk.external.erase path } := rfl

theorem ArchiveWrite.apply_renameExternal {source destination : String} {bytes : Bytes}
    (h : disk.external.get? source = some bytes) :
    (ArchiveWrite.renameExternal source destination).apply disk =
      { disk with external := (disk.external.erase source).insert destination bytes } := by
  simp [ArchiveWrite.apply, h]

@[simp] theorem wp_archiveCheck {α : Type} {Q : α → Option ArchiveWrite → ArchiveDisk → Prop}
    {check : ArchiveDisk → Except String α} :
    Durable.wp ArchiveWrite.apply Q R C (archiveCheck check) last disk ↔
      match check disk with
      | .error e => R e last disk
      | .ok a => Q a last disk := by
  rw [archiveCheck, Durable.wp_read]
  cases check disk <;> exact Iff.rfl

@[simp] theorem wp_commitArchive {forceSync : Bool}
    {call : ArchiveTables → Except String ArchiveTables} :
    Durable.wp ArchiveWrite.apply Q R C (commitArchive forceSync call) last disk ↔
      match call disk.catalog.tables with
      | .error e => R e last disk
      | .ok tables =>
        C last disk ∧ Q () (some (.commit { disk.catalog with tables := tables } forceSync))
          ((ArchiveWrite.commit { disk.catalog with tables := tables } forceSync).apply disk) := by
  rw [commitArchive, Durable.wp_read]
  cases call disk.catalog.tables <;> exact Iff.rfl

/-- A batch with one valid row is counted where it is not counted yet. -/
theorem wp_recordMetricBatch {row : MetricBatchRow} (hbatch : row.batchId ≠ "")
    (htime : 0 ≤ row.committedAtUtcNs) (hmarket : row.market ≠ "") (hstream : row.stream ≠ "") :
    Durable.wp ArchiveWrite.apply Q R C (recordMetricBatch row) last disk ↔
      if disk.catalog.metricBatches.any fun batch => batch.batchId = row.batchId then
        Q () last disk
      else
        let catalog := { disk.catalog with metricBatches := disk.catalog.metricBatches ++ [row] }
        C last disk ∧
          Q () (some (.commit catalog false)) ((ArchiveWrite.commit catalog false).apply disk) := by
  rw [recordMetricBatch, Durable.wp_read, if_neg hbatch, if_neg (by omega),
    if_neg (not_or.mpr ⟨hmarket, hstream⟩)]
  split <;> exact Iff.rfl

end

/-! ## Off the target -/

def ArchiveWrite.isExternal : ArchiveWrite → Bool
  | createExternal _ | appendExternal _ _ | unlinkExternal _ | renameExternal _ _ => true
  | commit _ _ | unlinkInternal _ | syncSealed => false

/-- The writes on the target keep it. -/
def OffTarget (I : Option ArchiveWrite → ArchiveDisk → Prop) : Prop :=
  ∀ op last disk, op.isExternal = true → I last disk → I (some op) (op.apply disk)

section

variable {I : Option ArchiveWrite → ArchiveDisk → Prop}

/-- A write on the target changes its files only. -/
theorem ArchiveWrite.apply_eq_of_isExternal {op : ArchiveWrite} (hop : op.isExternal = true)
    (disk : ArchiveDisk) : ∃ external, op.apply disk = { disk with external := external } := by
  cases op with
  | createExternal path => exact ⟨_, rfl⟩
  | appendExternal path piece =>
    simp only [ArchiveWrite.apply]
    split
    · exact ⟨disk.external, rfl⟩
    · exact ⟨_, rfl⟩
  | unlinkExternal path => exact ⟨_, rfl⟩
  | renameExternal source destination =>
    simp only [ArchiveWrite.apply]
    split
    · exact ⟨disk.external, rfl⟩
    · exact ⟨_, rfl⟩
  | commit | unlinkInternal | syncSealed => cases hop

theorem OffTarget.of_disk {I : ArchiveDisk → Prop}
    (hI : ∀ disk external, I disk → I { disk with external := external }) :
    OffTarget fun _ disk => I disk := by
  intro op last disk hop h
  obtain ⟨external, heq⟩ := ArchiveWrite.apply_eq_of_isExternal hop disk
  rw [heq]
  exact hI disk external h

theorem keeps_archiveCheck {α : Type} (check : ArchiveDisk → Except String α) :
    Durable.Keeps ArchiveWrite.apply I (archiveCheck check) :=
  Durable.Keeps.read fun disk => Durable.keeps_ofExcept (check disk)

/-- A metric batch is a commit that changes neither the transactions nor the files. -/
theorem keeps_recordMetricBatch (row : MetricBatchRow)
    (hI : ∀ last disk batches, I last disk →
      I (some (.commit { disk.catalog with metricBatches := batches } false)) ((ArchiveWrite.commit
        { disk.catalog with metricBatches := batches } false).apply disk)) :
    Durable.Keeps ArchiveWrite.apply I (recordMetricBatch row) := by
  intro last disk h
  rw [recordMetricBatch, Durable.wp_read]
  split
  · exact h
  split
  · exact h
  split
  · exact h
  split
  · exact h
  · exact ⟨h, hI last disk _ h⟩

theorem OffTarget.perform (hI : OffTarget I) (op : ArchiveWrite) (hop : op.isExternal = true) :
    Durable.Keeps ArchiveWrite.apply I (Durable.perform op : ArchiveProgram Unit) :=
  Durable.keeps_perform fun last disk => hI op last disk hop

theorem OffTarget.unlinkIfThere (hI : OffTarget I) (path : String) :
    Durable.Keeps ArchiveWrite.apply I (unlinkIfThere path) := by
  refine Durable.Keeps.read fun disk => ?_
  split
  · exact hI.perform (.unlinkExternal path) rfl
  · exact Durable.keeps_pure ()

theorem OffTarget.appendPieces (hI : OffTarget I) (path : String) (pieces : List Bytes) :
    Durable.Keeps ArchiveWrite.apply I (appendPieces path pieces) := by
  induction pieces with
  | nil => exact Durable.keeps_pure ()
  | cons piece rest ih =>
    exact Durable.Keeps.write (fun last disk => hI (.appendExternal path piece) last disk rfl) ih

end

end MarketDataRecorder
