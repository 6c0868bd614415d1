import MarketDataRecorder.Catalog.Events
import MarketDataRecorder.Lib.Durable

/-!
# The recorder's disk

What the recorder keeps on disk, and the writes it makes one after the other. A crash is one of the
process and stands in front of a write. A write before it stays: the code syncs a file and its
directory, and a Catalog call is one transaction. The Catalog is in WAL mode with
`synchronous=NORMAL`, so that its last commits survive the process, and not a loss of power.
-/

namespace MarketDataRecorder

/-- The files below `data/` by their names, and the Catalog. -/
structure Disk where
  active : SortedDict String Bytes := .empty
  quarantine : SortedDict String Bytes := .empty
  catalog : Catalog := {}
  deriving DecidableEq

inductive DiskWrite where
  /-- The commit of a Catalog transaction. -/
  | commit (catalog : Catalog)
  /-- `os.ftruncate` of an active file. -/
  | truncateActive (name : String) (size : Nat)
  | unlinkActive (name : String)
  /-- `os.replace` of an active file into the quarantine. -/
  | moveToQuarantine (name destination : String)
  deriving DecidableEq

/-- What a write makes of the disk. -/
def DiskWrite.apply : DiskWrite → Disk → Disk
  | commit catalog, disk => { disk with catalog := catalog }
  | truncateActive name size, disk =>
    match disk.active.get? name with
    | none => disk
    | some bytes => { disk with active := disk.active.insert name (bytes.take size) }
  | unlinkActive name, disk => { disk with active := disk.active.erase name }
  | moveToQuarantine name destination, disk =>
    match disk.active.get? name with
    | none => disk
    | some bytes =>
      { disk with
        active := disk.active.erase name
        quarantine := disk.quarantine.insert destination bytes }

abbrev DiskProgram := Durable DiskWrite Disk String

/-- Run a check or a Catalog call on the Catalog of the moment and commit what it returns. -/
def commitTables (call : ChunkTables → Except String ChunkTables) : DiskProgram Unit :=
  .read fun disk =>
    match call disk.catalog.toChunkTables with
    | .error e => .raise e
    | .ok tables => .perform (.commit { disk.catalog with toChunkTables := tables })

/-- The disk with other chunk tables. -/
def Disk.withTables (disk : Disk) (tables : ChunkTables) : Disk :=
  { disk with catalog := { disk.catalog with toChunkTables := tables } }

section

variable (disk : Disk) (tables : ChunkTables)

@[simp] theorem Disk.withTables_active : (disk.withTables tables).active = disk.active := rfl

@[simp] theorem Disk.withTables_quarantine :
    (disk.withTables tables).quarantine = disk.quarantine := rfl

@[simp] theorem Disk.withTables_tables :
    (disk.withTables tables).catalog.toChunkTables = tables := rfl

end

@[simp] theorem DiskWrite.apply_commit (disk : Disk) (catalog : Catalog) :
    (DiskWrite.commit catalog).apply disk = { disk with catalog := catalog } := rfl

theorem DiskWrite.apply_truncateActive {disk : Disk} {name : String} {bytes : Bytes}
    (h : disk.active.get? name = some bytes) (size : Nat) :
    (DiskWrite.truncateActive name size).apply disk =
      { disk with active := disk.active.insert name (bytes.take size) } := by
  simp [DiskWrite.apply, h]

@[simp] theorem DiskWrite.apply_unlinkActive (disk : Disk) (name : String) :
    (DiskWrite.unlinkActive name).apply disk =
      { disk with active := disk.active.erase name } := rfl

theorem DiskWrite.apply_moveToQuarantine {disk : Disk} {name : String} {bytes : Bytes}
    (h : disk.active.get? name = some bytes) (destination : String) :
    (DiskWrite.moveToQuarantine name destination).apply disk =
      { disk with
        active := disk.active.erase name
        quarantine := disk.quarantine.insert destination bytes } := by
  simp [DiskWrite.apply, h]

/-- A Catalog call that succeeds is one write; one that fails raises and writes nothing. -/
@[simp] theorem wp_commitTables {Q : Unit → Option DiskWrite → Disk → Prop}
    {R : String → Option DiskWrite → Disk → Prop} {C : Option DiskWrite → Disk → Prop}
    {call : ChunkTables → Except String ChunkTables} {last : Option DiskWrite} {disk : Disk} :
    Durable.wp DiskWrite.apply Q R C (commitTables call) last disk ↔
      match call disk.catalog.toChunkTables with
      | .error e => R e last disk
      | .ok tables =>
        C last disk ∧ Q () (some (.commit { disk.catalog with toChunkTables := tables }))
          (disk.withTables tables) := by
  rw [commitTables, Durable.wp_read]
  cases call disk.catalog.toChunkTables with
  | error e => exact Iff.rfl
  | ok tables => exact Iff.rfl

end MarketDataRecorder
