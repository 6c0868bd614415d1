import MarketDataRecorder.Archive.ArchiveSet
import MarketDataRecorder.Lib.Interleaving
import MarketDataRecorder.Lib.SortedDict

/-!
# Commits to an Archive Set and scans of it

`ArchiveSetStore.commit_entry` and `scan` on one registered medium, as programs of single calls to
the operating system. An entry is written to a temporary file in the directory of the entries and
renamed there; a scan lists that directory.

The medium stays registered and bound to its identity, and nothing else touches its files. A call
that reads may be taken to succeed: where it fails, its commit or scan ends there and has changed
nothing, as if it had been cut off.
-/

namespace MarketDataRecorder

/-! ## The medium -/

/-- A `uuid4().hex`. -/
structure Token where
  text : String
  length : text.toList.length = 32
  deriving DecidableEq

/-- `f".{path.name}.{uuid.uuid4().hex}.partial"`, of the file of a chunk's entry. -/
def temporaryName (chunkId : String) (token : Token) : String :=
  "." ++ chunkId ++ ".json." ++ token.text ++ ".partial"

/-- `PurePath.suffix`: what begins at the last dot, where that is neither the first character nor
the last one. -/
def nameSuffix (name : String) : List Char :=
  let ending := (name.toList.reverse.takeWhile (· ≠ '.')).reverse
  if ending ≠ [] ∧ ending.length + 1 < name.toList.length then '.' :: ending else []

/-- The Archive Set on a medium, and what its commits have done. -/
structure EntryMedium where
  /-- The directory `archive-set`. -/
  archiveSet : Bool := false
  /-- The files in `archive-set/entries`, where that is. -/
  entries : Option (SortedDict String Bytes) := none
  /-- The entries whose files were renamed to their final names. -/
  published : List ArchiveSetEntry := []
  /-- The commits that have made their temporary file and neither renamed nor removed it: the
  chunk, and the token of the commit. -/
  standing : List (String × Token) := []

namespace EntryMedium

def file? (m : EntryMedium) (name : String) : Option Bytes :=
  m.entries.bind fun files => files.get? name

def put (m : EntryMedium) (name : String) (bytes : Bytes) : EntryMedium :=
  { m with entries := m.entries.map fun files => files.insert name bytes }

def remove (m : EntryMedium) (name : String) : EntryMedium :=
  { m with entries := m.entries.map fun files => files.erase name }

end EntryMedium

/-- What stands on a medium when its directory is listed: the entries that were published, and the
commits whose temporary files stand. -/
structure InventoryView where
  published : List ArchiveSetEntry
  standing : List (String × Token)

/-- How a call to the operating system comes out; a write tells how far it came. -/
inductive EntryOutcome where
  | fails (text : String)
  | done (n : Nat)

abbrev EntryProgram (α : Type) := Interleaved EntryMedium EntryOutcome ArchiveError α

namespace ArchiveSetStore

/-! ## The operating system -/

/-- A call that raises `OSError` where the environment lets it fail. -/
def entryCall {α : Type} (f : Nat → EntryMedium → Except String α × EntryMedium) :
    EntryProgram α :=
  .call fun c m =>
    match c with
    | .fails text => (.error (.os text), m)
    | .done n => ((f n m).1.mapError .os, (f n m).2)

/-- A call that looks at the medium. -/
def look {α : Type} (f : EntryMedium → Except ArchiveError α) : EntryProgram α :=
  .call fun _ m => (f m, m)

/-- `archive_set.mkdir(mode=0o700, exist_ok=True)`. -/
def makeArchiveSet : EntryProgram Unit :=
  entryCall fun _ m => (.ok (), { m with archiveSet := true })

/-- `entries.mkdir(mode=0o700, exist_ok=True)`. -/
def makeEntries : EntryProgram Unit :=
  entryCall fun _ m =>
    if m.archiveSet then (.ok (), { m with entries := some (m.entries.getD .empty) })
    else (.error "No such file or directory", m)

/-- `fsync_directory`, and `os.fsync` of a file. -/
def sync : EntryProgram Unit := entryCall fun _ m => (.ok (), m)

/-- `os.open` with `O_CREAT | O_EXCL | O_WRONLY`. -/
def createTemporary (chunkId : String) (token : Token) : EntryProgram Unit :=
  entryCall fun _ m =>
    if m.entries.isNone then (.error "No such file or directory", m)
    else if (m.file? (temporaryName chunkId token)).isSome then (.error "File exists", m)
    else
      (.ok (), { m.put (temporaryName chunkId token) [] with
        standing := (chunkId, token) :: m.standing })

/-- `os.write` to the temporary file; a file that is gone is written all the same. -/
def writeTemporary (chunkId : String) (token : Token) (remaining : Bytes) : EntryProgram Nat :=
  entryCall fun n m =>
    (.ok (min n remaining.length),
      match m.file? (temporaryName chunkId token) with
      | some bytes => m.put (temporaryName chunkId token) (bytes ++ remaining.take n)
      | none => m)

/-- The loop of writes; each one that does not raise takes some bytes. -/
def writeAll (chunkId : String) (token : Token) : Nat → Bytes → EntryProgram Unit
  | 0, _ => pure ()
  | fuel + 1, remaining =>
    if remaining = [] then pure ()
    else do
      let written ← writeTemporary chunkId token remaining
      if written = 0 then .raise (.archiveSet "Archive Set metadata short write")
      else writeAll chunkId token fuel (remaining.drop written)

/-- `_publish_no_clobber`: whether the file is renamed, or the name was there. -/
def publishNoClobber (entry : ArchiveSetEntry) (token : Token) : EntryProgram Bool :=
  entryCall fun _ m =>
    match m.file? (temporaryName entry.chunkId token) with
    | none => (.error "No such file or directory", m)
    | some bytes =>
      if (m.file? entry.fileName).isSome then (.ok false, m)
      else
        (.ok true, { (m.remove (temporaryName entry.chunkId token)).put entry.fileName bytes with
          published := m.published ++ [entry]
          standing := m.standing.filter (· ≠ (entry.chunkId, token)) })

/-- `temporary.unlink(missing_ok=True)`. -/
def unlinkTemporary (chunkId : String) (token : Token) : EntryProgram Unit :=
  entryCall fun _ m =>
    (.ok (), { m.remove (temporaryName chunkId token) with
      standing := m.standing.filter (· ≠ (chunkId, token)) })

/-! ## Commits -/

/-- `except OSError as exc: raise ArchiveSetError(...)`. -/
def cannotCommit : ArchiveError → ArchiveError
  | .os text => .archiveSet s!"cannot commit Archive Set metadata: {text}"
  | error => error

/-- `_atomic_publish` of the bytes of an entry: whether they are under the final name now, or
something was there. -/
def atomicPublish (entry : ArchiveSetEntry) (token : Token) (payload : Bytes) :
    EntryProgram Bool := do
  let result ← Interleaved.attempt do
    createTemporary entry.chunkId token
    writeAll entry.chunkId token payload.length payload
    sync
    let published ← publishNoClobber entry token
    sync
    return published
  -- `finally`, with `suppress(OSError)`
  let _ ← (unlinkTemporary entry.chunkId token).attempt
  .ofExcept (result.mapError cannotCommit)

/-- `_ensure_inventory_directories`. -/
def ensureInventoryDirectories : EntryProgram Unit := do
  makeArchiveSet
  makeEntries
  sync
  sync
  sync

/-- `_read_entry_file`. -/
def readEntryFile (name : String) : EntryProgram ArchiveSetEntry :=
  look fun m =>
    match m.file? name with
    | none => .error (.archiveSet "invalid Archive Set entry")
    | some bytes => ArchiveSetEntry.readEntry bytes

/-- `path.exists()`, `path.is_file()`. -/
def isFile (name : String) : EntryProgram Bool := look fun m => .ok (m.file? name).isSome

/-- `commit_entry`. -/
def commitEntry (identity : ArchiveMediumIdentity) (entry : ArchiveSetEntry) (token : Token) :
    EntryProgram ArchiveSetEntry := do
  .ofExcept entry.validate
  .ofExcept (entry.validateBinding identity)
  ensureInventoryDirectories
  let entryExisted ← isFile entry.fileName
  if entryExisted then
    let existing ← readEntryFile entry.fileName
    if existing = entry then
      sync
      return existing
    else .raise (.archiveSet "existing Archive Set entry conflicts")
  else
    let payload ← .ofExcept entry.canonicalBytes
    let published ← atomicPublish entry token payload
    let existing ← if published then pure entry else readEntryFile entry.fileName
    if existing = entry then return existing
    else .raise (.archiveSet "existing Archive Set entry conflicts")

/-! ## Scans -/

/-- The names in the directory of the entries in ascending order, nothing where there is no such
directory. -/
def listEntries : EntryProgram (InventoryView × List String) :=
  look fun m => .ok (⟨m.published, m.standing⟩, (m.entries.map SortedDict.keys).getD [])

/-- The loop of `scan` over the names. -/
def readListed (identity : ArchiveMediumIdentity) : List String →
    EntryProgram (List ArchiveSetEntry)
  | [] => pure []
  | name :: rest => do
    let present ← isFile name
    if ¬ present ∨ nameSuffix name ≠ ".json".toList then
      .raise (.archiveSet "Archive Set inventory contains an unsafe file")
    else
      let entry ← readEntryFile name
      if name ≠ entry.fileName then
        .raise (.archiveSet "Archive Set entry filename does not match chunk_id")
      else
        .ofExcept (entry.validateBinding identity)
        let entries ← readListed identity rest
        return entry :: entries

/-- `scan`, with what stood on the medium when it listed the directory. -/
def scan (identity : ArchiveMediumIdentity) :
    EntryProgram (InventoryView × Except ArchiveError ArchiveSetScan) := do
  let listed ← listEntries
  let entries ← (readListed identity listed.2).attempt
  return (listed.1, entries.map fun entries => ⟨identity, entries⟩)

end ArchiveSetStore

/-! ## The calls of any number of processes -/

inductive ArchiveSetCall where
  | commit (entry : ArchiveSetEntry)
  | scan
  deriving DecidableEq

inductive ArchiveSetResult where
  | committed (result : Except ArchiveError ArchiveSetEntry)
  | scanned (view : InventoryView) (result : Except ArchiveError ArchiveSetScan)

/-- Each call has a token of its own. -/
def ArchiveSetCall.program (identity : ArchiveMediumIdentity) (token : Token) :
    ArchiveSetCall → EntryProgram ArchiveSetResult
  | .commit entry => do
    let result ← (ArchiveSetStore.commitEntry identity entry token).attempt
    return .committed result
  | .scan => do
    let seen ← ArchiveSetStore.scan identity
    return .scanned seen.1 seen.2

/-- The medium is empty at first; where the machine goes down, all calls are cut off. -/
def archiveSetCallers (identity : ArchiveMediumIdentity) :
    Callers EntryMedium EntryOutcome ArchiveError ArchiveSetResult Token ArchiveSetCall Unit where
  initial m := m = {}
  arrive _ _ m := some m
  program := ArchiveSetCall.program identity
  lose _ m := some m

end MarketDataRecorder
