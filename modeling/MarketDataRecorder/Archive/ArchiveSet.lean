import MarketDataRecorder.Catalog.Receipt
import MarketDataRecorder.Domain.Event
import MarketDataRecorder.Lib.Fallible
import MarketDataRecorder.Lib.Json

/-!
# Archive Set entries

The inventory records of `archive/archive_set.py`: which chunk a medium holds, and where. An entry
is a file of its own, in canonical JSON, and the index of a workspace is rebuilt from them.

* `ArchiveSetEntry.readEntry_canonicalBytes` — the bytes of an entry read as that entry
* `rebuild_one` — the index of one medium has exactly the entries of its scan
-/

namespace MarketDataRecorder

/-- What the calls raise; the texts of other libraries are left out. -/
inductive ArchiveError where
  /-- `ArchiveSetError`. -/
  | archiveSet (message : String)
  /-- `OSError`. -/
  | os (text : String)
  /-- `ValueError`. -/
  | value (message : String)
  deriving DecidableEq

/-- `ArchiveMediumIdentity`. -/
structure ArchiveMediumIdentity where
  archiveSetId : String
  storageId : String
  volumeUuid : String
  registeredRelativePath : String
  markerNonce : String
  deriving DecidableEq

structure ArchiveSetEntry where
  archiveSetId : String
  storageId : String
  chunkId : String
  artifactRelativePath : String
  archiveManifestRelativePath : String
  archiveManifestSha256 : String
  storedBytes : Int
  storedSha256 : String
  sourceManifestSha256 : String
  deriving DecidableEq

structure ArchiveSetScan where
  identity : ArchiveMediumIdentity
  entries : List ArchiveSetEntry
  deriving DecidableEq

/-! ## Fields -/

/-- `_require_text`, of a text. -/
def requireText (value field : String) : Except ArchiveError Unit :=
  if value = "" then .error (.archiveSet s!"{field} must be non-empty text") else .ok ()

/-- `_require_safe_segment`. -/
def requireSafeSegment (value field : String) : Except ArchiveError Unit := do
  requireText value field
  if isSafeSegment value then .ok ()
  else .error (.archiveSet s!"{field} must be a safe path segment")

/-- `_require_file_relative_path`. -/
def requireFileRelativePath (value field : String) : Except ArchiveError Unit := do
  requireText value field
  if value = "." then .error (.archiveSet s!"{field} must be a safe relative file path")
  else if isCanonicalRelativePath value then .ok ()
  else .error (.archiveSet s!"{field} must be a safe relative path")

/-- `_require_sha256`. -/
def requireSha256 (value field : String) : Except ArchiveError Unit := do
  requireText value field
  if isLowerSha256 value then .ok ()
  else .error (.archiveSet s!"{field} must be a lowercase SHA-256 hex digest")

/-- The checks of `stored_bytes`. -/
def requireStoredBytes (stored : Value) : Except ArchiveError Unit :=
  match stored with
  | .int n =>
    if n < 0 then .error (.archiveSet "stored_bytes must not be negative") else .ok ()
  | _ => .error (.archiveSet "stored_bytes must be an integer")

/-- `_required_text`. -/
def requiredMember (items : List (String × Value)) (field : String) :
    Except ArchiveError String :=
  match items.lookup field with
  | some (.str text) =>
    if text = "" then .error (.archiveSet s!"Archive Set metadata missing {field}") else .ok text
  | _ => .error (.archiveSet s!"Archive Set metadata missing {field}")

namespace ArchiveSetEntry

/-! ## Entries -/

def schema : String := "archive-set-entry.v1"

/-- `_ENTRY_FIELDS`. -/
def fields : List String :=
  ["schema", "archive_set_id", "storage_id", "chunk_id", "artifact_relative_path",
   "archive_manifest_relative_path", "archive_manifest_sha256", "stored_bytes", "stored_sha256",
   "source_manifest_sha256"]

/-- The fields in ascending order. -/
def keys : List String :=
  ["archive_manifest_relative_path", "archive_manifest_sha256", "archive_set_id",
   "artifact_relative_path", "chunk_id", "schema", "source_manifest_sha256", "storage_id",
   "stored_bytes", "stored_sha256"]

/-- `as_dict`, its keys in ascending order. -/
def asDict (e : ArchiveSetEntry) : List (String × Value) :=
  [("archive_manifest_relative_path", .str e.archiveManifestRelativePath),
   ("archive_manifest_sha256", .str e.archiveManifestSha256),
   ("archive_set_id", .str e.archiveSetId),
   ("artifact_relative_path", .str e.artifactRelativePath),
   ("chunk_id", .str e.chunkId),
   ("schema", .str schema),
   ("source_manifest_sha256", .str e.sourceManifestSha256),
   ("storage_id", .str e.storageId),
   ("stored_bytes", .int e.storedBytes),
   ("stored_sha256", .str e.storedSha256)]

/-- `validate`, of an entry whose `stored_bytes` is a value of any type. -/
def validateWith (e : ArchiveSetEntry) (stored : Value) : Except ArchiveError Unit := do
  requireText e.archiveSetId "archive_set_id"
  requireText e.storageId "storage_id"
  requireSafeSegment e.chunkId "chunk_id"
  requireFileRelativePath e.artifactRelativePath "artifact_relative_path"
  requireFileRelativePath e.archiveManifestRelativePath "archive_manifest_relative_path"
  requireSha256 e.archiveManifestSha256 "archive_manifest_sha256"
  requireSha256 e.storedSha256 "stored_sha256"
  requireSha256 e.sourceManifestSha256 "source_manifest_sha256"
  requireStoredBytes stored

def validate (e : ArchiveSetEntry) : Except ArchiveError Unit := e.validateWith (.int e.storedBytes)

/-- `canonical_bytes`; the interpreter writes no integer of more than 4300 digits. -/
def canonicalBytes (e : ArchiveSetEntry) : Except ArchiveError Bytes := do
  e.validate
  if 10 ^ 4300 ≤ e.storedBytes then
    .error (.value "Exceeds the limit (4300 digits) for integer string conversion")
  else return Json.canonical (.dict e.asDict)

def storedOf : Value → Int
  | .int n => n
  | _ => 0

/-- `from_dict`. -/
def fromDict (items : List (String × Value)) : Except ArchiveError ArchiveSetEntry := do
  if ¬ ((∀ field ∈ fields, field ∈ items.map Prod.fst) ∧
      ∀ key ∈ items.map Prod.fst, key ∈ fields) then
    .error (.archiveSet "Archive Set entry fields are not exact")
  else if items.lookup "schema" ≠ some (.str schema) then
    .error (.archiveSet "unsupported Archive Set entry schema")
  else
    let archiveSetId ← requiredMember items "archive_set_id"
    let storageId ← requiredMember items "storage_id"
    let chunkId ← requiredMember items "chunk_id"
    let artifactRelativePath ← requiredMember items "artifact_relative_path"
    let archiveManifestRelativePath ← requiredMember items "archive_manifest_relative_path"
    let archiveManifestSha256 ← requiredMember items "archive_manifest_sha256"
    let stored := (items.lookup "stored_bytes").getD .null
    let storedSha256 ← requiredMember items "stored_sha256"
    let sourceManifestSha256 ← requiredMember items "source_manifest_sha256"
    let entry : ArchiveSetEntry :=
      { archiveSetId, storageId, chunkId, artifactRelativePath, archiveManifestRelativePath,
        archiveManifestSha256, storedBytes := storedOf stored, storedSha256,
        sourceManifestSha256 }
    entry.validateWith stored
    return entry

/-- `_read_entry_file`, of the bytes in a file. -/
def readEntry (bytes : Bytes) : Except ArchiveError ArchiveSetEntry :=
  match Json.loads bytes with
  | none => .error (.archiveSet "invalid Archive Set entry")
  | some (.dict items) => fromDict items
  | some _ => .error (.archiveSet "invalid Archive Set entry: expected object")

/-- The name of an entry's file. -/
def fileName (e : ArchiveSetEntry) : String := e.chunkId ++ ".json"

/-- `_validate_entry_binding`. -/
def validateBinding (identity : ArchiveMediumIdentity) (e : ArchiveSetEntry) :
    Except ArchiveError Unit :=
  if e.archiveSetId ≠ identity.archiveSetId then
    .error (.archiveSet "entry archive_set_id does not match medium")
  else if e.storageId ≠ identity.storageId then
    .error (.archiveSet "entry storage_id does not match medium")
  else .ok ()

/-! ## Round trip -/

section

variable {e : ArchiveSetEntry} {bytes : Bytes}

theorem requireText_eq_ok {value field : String} (h : requireText value field = .ok ()) :
    value ≠ "" := by
  intro hempty
  rw [requireText, if_pos hempty] at h
  cases h

/-- No text of a valid entry is empty. -/
theorem nonempty_of_validateWith {stored : Value} (h : e.validateWith stored = .ok ()) :
    e.archiveSetId ≠ "" ∧ e.storageId ≠ "" ∧ e.chunkId ≠ "" ∧ e.artifactRelativePath ≠ "" ∧
      e.archiveManifestRelativePath ≠ "" ∧ e.archiveManifestSha256 ≠ "" ∧ e.storedSha256 ≠ "" ∧
      e.sourceManifestSha256 ≠ "" := by
  obtain ⟨_, hset, h⟩ := except_bind_eq_ok h
  obtain ⟨_, hstorage, h⟩ := except_bind_eq_ok h
  obtain ⟨_, hchunk, h⟩ := except_bind_eq_ok h
  obtain ⟨_, hartifact, h⟩ := except_bind_eq_ok h
  obtain ⟨_, hmanifest, h⟩ := except_bind_eq_ok h
  obtain ⟨_, hmanifestSha, h⟩ := except_bind_eq_ok h
  obtain ⟨_, hstoredSha, h⟩ := except_bind_eq_ok h
  obtain ⟨_, hsourceSha, -⟩ := except_bind_eq_ok h
  -- each of these checks asks first that its text is not empty
  obtain ⟨_, hchunk, -⟩ := except_bind_eq_ok hchunk
  obtain ⟨_, hartifact, -⟩ := except_bind_eq_ok hartifact
  obtain ⟨_, hmanifest, -⟩ := except_bind_eq_ok hmanifest
  obtain ⟨_, hmanifestSha, -⟩ := except_bind_eq_ok hmanifestSha
  obtain ⟨_, hstoredSha, -⟩ := except_bind_eq_ok hstoredSha
  obtain ⟨_, hsourceSha, -⟩ := except_bind_eq_ok hsourceSha
  exact ⟨requireText_eq_ok hset, requireText_eq_ok hstorage, requireText_eq_ok hchunk,
    requireText_eq_ok hartifact, requireText_eq_ok hmanifest, requireText_eq_ok hmanifestSha,
    requireText_eq_ok hstoredSha, requireText_eq_ok hsourceSha⟩

theorem canonicalBytes_eq_ok (h : e.canonicalBytes = .ok bytes) :
    e.validate = .ok () ∧ bytes = Json.canonical (.dict e.asDict) := by
  obtain ⟨_, hvalid, h⟩ := except_bind_eq_ok h
  split at h
  · cases h
  · exact ⟨hvalid, (Except.ok.inj h).symm⟩

theorem plain_asDict : Json.Plain (.dict e.asDict) := by
  refine ⟨?_, by simp [asDict, Json.PlainMembers, Json.Plain]⟩
  have hkeys : keys.Pairwise (fun a b : String => a < b) := by decide
  exact List.pairwise_map.mp hkeys

theorem requiredMember_of_lookup {items : List (String × Value)} {field text : String}
    (h : items.lookup field = some (.str text)) (hne : text ≠ "") :
    requiredMember items field = .ok text := by
  rw [requiredMember, h]
  exact if_neg hne

/-- The dictionary of a valid entry reads as the entry. -/
theorem fromDict_asDict (h : e.validate = .ok ()) : fromDict e.asDict = .ok e := by
  obtain ⟨hset, hstorage, hchunk, hartifact, hmanifest, hmanifestSha, hstoredSha, hsourceSha⟩ :=
    nonempty_of_validateWith h
  have hfields : (∀ field ∈ fields, field ∈ e.asDict.map Prod.fst) ∧
      ∀ key ∈ e.asDict.map Prod.fst, key ∈ fields := by
    show (∀ field ∈ fields, field ∈ keys) ∧ ∀ key ∈ keys, key ∈ fields
    decide
  have hschema : e.asDict.lookup "schema" = some (.str schema) := rfl
  rw [fromDict, if_neg (not_not.mpr hfields), if_neg (not_not.mpr hschema),
    requiredMember_of_lookup rfl hset, requiredMember_of_lookup rfl hstorage,
    requiredMember_of_lookup rfl hchunk, requiredMember_of_lookup rfl hartifact,
    requiredMember_of_lookup rfl hmanifest, requiredMember_of_lookup rfl hmanifestSha,
    requiredMember_of_lookup rfl hstoredSha, requiredMember_of_lookup rfl hsourceSha]
  show (e.validate >>= fun _ => .ok e) = .ok e
  rw [h]
  rfl

/-- **The canonical bytes of an entry read as that entry.** -/
theorem readEntry_canonicalBytes (h : e.canonicalBytes = .ok bytes) : readEntry bytes = .ok e := by
  obtain ⟨hvalid, rfl⟩ := canonicalBytes_eq_ok h
  rw [readEntry, Json.loads_canonical plain_asDict]
  exact fromDict_asDict hvalid

end

end ArchiveSetEntry

/-! ## The index of a workspace -/

/-- What `rebuild` gathers before it writes the index: the media under their storage, and the
artifacts under their Archive Set and chunk. -/
structure ArchiveSetIndex where
  media : List (String × ArchiveMediumIdentity) := []
  artifacts : List ((String × String) × (ArchiveMediumIdentity × ArchiveSetEntry)) := []

namespace ArchiveSetIndex

def addMedium (index : ArchiveSetIndex) (identity : ArchiveMediumIdentity) :
    Except ArchiveError ArchiveSetIndex :=
  match index.media.lookup identity.storageId with
  | some previous =>
    if previous ≠ identity then
      .error (.archiveSet "storage_id is bound to conflicting media identities")
    else .error (.archiveSet "the same physical medium was supplied twice")
  | none => .ok { index with media := index.media ++ [(identity.storageId, identity)] }

def addEntry (identity : ArchiveMediumIdentity) (index : ArchiveSetIndex)
    (entry : ArchiveSetEntry) : Except ArchiveError ArchiveSetIndex :=
  match index.artifacts.lookup (entry.archiveSetId, entry.chunkId) with
  | some previous =>
    if previous.1.storageId ≠ identity.storageId ∨
        previous.2.artifactRelativePath ≠ entry.artifactRelativePath ∨
        previous.2.archiveManifestSha256 ≠ entry.archiveManifestSha256 ∨
        previous.2.storedSha256 ≠ entry.storedSha256 ∨
        previous.2.sourceManifestSha256 ≠ entry.sourceManifestSha256 then
      .error (.archiveSet "Archive Set chunk collision has conflicting physical identity")
    else .error (.archiveSet "Archive Set chunk is claimed by multiple media")
  | none =>
    .ok { index with
      artifacts := index.artifacts ++ [((entry.archiveSetId, entry.chunkId), (identity, entry))] }

/-- `rebuild`, of the scans of the media. -/
def rebuild (scans : List ArchiveSetScan) : Except ArchiveError ArchiveSetIndex :=
  scans.foldlM (fun index scan => do
    let index ← index.addMedium scan.identity
    scan.entries.foldlM (addEntry scan.identity) index) {}

/-- The entries in the index. -/
def entries (index : ArchiveSetIndex) : List ArchiveSetEntry :=
  index.artifacts.map fun artifact => artifact.2.2

theorem lookup_eq_none_of_not_mem {κ β : Type} [BEq κ] [LawfulBEq κ] {k : κ} :
    ∀ {items : List (κ × β)}, k ∉ items.map Prod.fst → items.lookup k = none
  | [], _ => rfl
  | (k', v) :: items, h => by
    rw [List.map_cons, List.mem_cons, not_or] at h
    rw [List.lookup_cons, beq_false_of_ne h.1]
    exact lookup_eq_none_of_not_mem h.2

/-- Entries of different chunks are all added. -/
theorem foldlM_addEntry (identity : ArchiveMediumIdentity) :
    ∀ {entries : List ArchiveSetEntry} {index : ArchiveSetIndex},
      (entries.map ArchiveSetEntry.chunkId).Nodup →
      (∀ entry ∈ entries, (entry.archiveSetId, entry.chunkId) ∉ index.artifacts.map Prod.fst) →
        ∃ index', entries.foldlM (addEntry identity) index = .ok index' ∧
          index'.entries = index.entries ++ entries
  | [], index, _, _ => ⟨index, rfl, (List.append_nil _).symm⟩
  | entry :: rest, index, hnodup, hnew => by
    rw [List.map_cons, List.nodup_cons] at hnodup
    have hadd : addEntry identity index entry = .ok { index with
        artifacts :=
          index.artifacts ++ [((entry.archiveSetId, entry.chunkId), (identity, entry))] } := by
      rw [addEntry, lookup_eq_none_of_not_mem (hnew entry List.mem_cons_self)]
    obtain ⟨index', hrest, hentries⟩ := @foldlM_addEntry identity rest { index with
        artifacts :=
          index.artifacts ++ [((entry.archiveSetId, entry.chunkId), (identity, entry))] } hnodup.2
      (by
        intro other hother hmem
        rw [List.map_append, List.mem_append] at hmem
        rcases hmem with hmem | hmem
        · exact hnew other (List.mem_cons_of_mem _ hother) hmem
        · have hchunk : other.chunkId = entry.chunkId :=
            congrArg Prod.snd (List.mem_singleton.mp hmem)
          exact hnodup.1 (hchunk ▸ List.mem_map_of_mem hother))
    refine ⟨index', ?_, ?_⟩
    · rw [List.foldlM_cons, hadd]
      exact hrest
    · rw [hentries]
      simp [ArchiveSetIndex.entries]

/-- **The index of one medium** has the entries of its scan. -/
theorem rebuild_one {scan : ArchiveSetScan}
    (h : (scan.entries.map ArchiveSetEntry.chunkId).Nodup) :
    ∃ index, rebuild [scan] = .ok index ∧ index.entries = scan.entries := by
  obtain ⟨index, hindex, hentries⟩ := @foldlM_addEntry scan.identity scan.entries
    { media := [(scan.identity.storageId, scan.identity)] } h (by simp)
  refine ⟨index, ?_, hentries⟩
  rw [rebuild, List.foldlM_cons]
  show (scan.entries.foldlM (addEntry scan.identity)
    { media := [(scan.identity.storageId, scan.identity)] } >>= fun index => .ok index) = .ok index
  rw [hindex]
  rfl

end ArchiveSetIndex

end MarketDataRecorder
