import MarketDataRecorder.Archive.Convergence

/-!
# What a reservation finds

`_reserve` names the paths of an archive and validates the source and its manifest before it asks
the Catalog. Behind one that is new, the Catalog is at the beginning of the transaction.
-/

namespace MarketDataRecorder

/-! ## Paths -/

theorem parentPath_append_fileName (path : String) : parentPath path ++ fileName path = path := by
  refine String.toList_inj.mp ?_
  simp only [parentPath, fileName, String.toList_append, String.toList_ofList]
  rw [← List.reverse_append, List.takeWhile_append_dropWhile, List.reverse_reverse]

/-- A path below a directory has its parent there too. -/
theorem parentPath_manifests (rest : String) :
    ∃ more, parentPath ("manifests/" ++ rest) = "manifests/" ++ more := by
  refine ⟨String.ofList (rest.toList.reverse.dropWhile fun c => c ≠ '/').reverse, ?_⟩
  refine String.toList_inj.mp ?_
  simp only [parentPath, String.toList_append, String.toList_ofList, List.reverse_append,
    List.dropWhile_append]
  split
  · next hnone =>
    rw [List.isEmpty_iff.mp hnone]
    decide
  · rw [List.reverse_append, List.reverse_reverse]

theorem raw_ne_manifests (a b : String) : "raw/" ++ a ≠ "manifests/" ++ b := by
  intro h
  have hlist := congrArg String.toList h
  rw [String.toList_append, String.toList_append] at hlist
  have hhead := congrArg List.head? hlist
  exact absurd hhead (by simp)

section

variable (chunkId name transactionId : String)

theorem targetPath_ne_temporary :
    "raw/" ++ name ≠ "raw/." ++ name ++ "." ++ transactionId ++ ".copying" := by
  intro h
  have hlength := congrArg String.length h
  simp only [String.length_append] at hlength
  have hfirst : "raw/".length = 4 := by decide
  have hsecond : "raw/.".length = 5 := by decide
  omega

theorem manifestPath_ne_partial {path : String} :
    path ≠ parentPath path ++ "." ++ fileName path ++ "." ++ transactionId ++ ".partial" := by
  intro h
  have hlength := congrArg String.length h
  have hpath := congrArg String.length (parentPath_append_fileName path)
  have hdot : ".".length = 1 := by decide
  simp only [String.length_append] at hlength hpath
  omega

/-- The names that `_reserve` gives differ. -/
theorem nodup_targetPaths {identity : ArchiveIdentity}
    (htarget : identity.targetRelativePath = "raw/" ++ name)
    (htemp : identity.targetTempRelativePath =
      "raw/." ++ name ++ "." ++ identity.transactionId ++ ".copying")
    (hmanifest : identity.externalManifestRelativePath =
      "manifests/" ++ (chunkId ++ ".archive-manifest.json")) :
    (targetPaths identity).Nodup := by
  obtain ⟨more, hparent⟩ := parentPath_manifests (chunkId ++ ".archive-manifest.json")
  have hpartial : ∃ rest, manifestPartialPath identity = "manifests/" ++ rest := by
    refine ⟨more ++ "." ++ fileName identity.externalManifestRelativePath ++ "." ++
      identity.transactionId ++ ".partial", ?_⟩
    simp only [manifestPartialPath, hmanifest, hparent, String.append_assoc]
  obtain ⟨rest, hrest⟩ := hpartial
  have htemp' : identity.targetTempRelativePath =
      "raw/" ++ ("." ++ name ++ "." ++ identity.transactionId ++ ".copying") := by
    rw [htemp]
    simp only [← String.append_assoc]
    rfl
  simp only [targetPaths, List.nodup_cons, List.mem_cons, List.not_mem_nil, or_false, not_or,
    List.nodup_nil, and_true, not_false_eq_true]
  refine ⟨⟨?_, ?_, ?_⟩, ⟨?_, ?_⟩, ?_⟩
  · rw [htarget, htemp]
    exact targetPath_ne_temporary name identity.transactionId
  · rw [htarget, hmanifest]
    exact raw_ne_manifests _ _
  · rw [htarget, hrest]
    exact raw_ne_manifests _ _
  · rw [htemp', hmanifest]
    exact raw_ne_manifests _ _
  · rw [htemp', hrest]
    exact raw_ne_manifests _ _
  · exact manifestPath_ne_partial identity.transactionId

end

/-! ## What is validated -/

theorem mismatches_eq_nil {document : Value} {expected : List (String × Value)} :
    mismatches document expected = [] ↔
      ∀ field ∈ expected, document.get? field.1 = some field.2 := by
  simp [mismatches, List.filter_eq_nil_iff]

theorem validateRawManifest_eq_ok {manifest : Value} {chunkId : String}
    {storedBytes storedSha256 : Value} :
    validateRawManifest manifest chunkId storedBytes storedSha256 = .ok () ↔
      manifest.get? "chunk_id" = some (.str chunkId) ∧
        manifest.get? "manifest_schema_version" = some (.str rawManifestSchema) ∧
        manifest.get? "stored_bytes" = some storedBytes ∧
        manifest.get? "stored_sha256" = some storedSha256 := by
  unfold validateRawManifest
  dsimp only
  split
  · next hwrong =>
    have hnot := mt mismatches_eq_nil.mpr hwrong
    simp only [List.mem_cons, List.not_mem_nil, or_false, forall_eq_or_imp, forall_eq] at hnot
    exact ⟨by rintro ⟨⟩, fun h => absurd h hnot⟩
  · next hright =>
    have hall := mismatches_eq_nil.mp (not_not.mp hright)
    simp only [List.mem_cons, List.not_mem_nil, or_false, forall_eq_or_imp, forall_eq] at hall
    exact ⟨fun _ => hall, fun _ => rfl⟩

theorem requiredText_eq_ok {document : Value} {key text : String}
    (h : requiredText document key = .ok text) :
    document.get? key = some (.str text) ∧ text ≠ "" := by
  unfold requiredText at h
  split at h
  · next found hfound =>
    split at h
    · cases h
    · next hne =>
      cases Except.ok.inj h
      exact ⟨hfound, hne⟩
  · cases h

theorem requiredInt_eq_ok {document : Value} {key : String} {value : Int}
    (h : requiredInt document key = .ok value) :
    document.get? key = some (.int value) ∧ 0 ≤ value := by
  unfold requiredInt at h
  split at h
  · next found hfound =>
    split at h
    · cases h
    · next hnonneg =>
      cases Except.ok.inj h
      exact ⟨hfound, by omega⟩
  · cases h

theorem internalPath_eq_ok {path : Option String} {key parent found : String}
    (h : internalPath path key parent = .ok found) :
    path = some found ∧ parentPath found = parent := by
  unfold internalPath at h
  split at h
  · cases h
  · next path =>
    split at h
    · cases h
    · split at h
      · cases h
      · next hparent =>
        cases Except.ok.inj h
        exact ⟨rfl, not_not.mp hparent⟩

theorem loadJsonBytes_eq_ok {lib : ArchiveLibrary} {path : String} {file : Option Bytes}
    {body : Bytes} {document : Value} (h : loadJsonBytes lib path file = .ok (body, document)) :
    file = some body ∧ lib.loads body = some document ∧ document.isDict = true := by
  unfold loadJsonBytes at h
  split at h
  · cases h
  · next found =>
    split at h
    · cases h
    · next decoded hloads =>
      split at h
      · next hdict =>
        cases Except.ok.inj h
        exact ⟨rfl, hloads, hdict⟩
      · cases h

/-- A sealed artifact has the size and the hash of its manifest. -/
theorem validateSealedArtifact_eq_ok {lib : ArchiveLibrary} {file : Option Bytes} {manifest : Value}
    (h : validateSealedArtifact lib file manifest = .ok ()) :
    ∃ stored, file = some stored ∧
      manifest.get? "stored_bytes" = some (.int stored.length) ∧
      manifest.get? "stored_sha256" = some (.str (lib.sha256Hex stored)) := by
  unfold validateSealedArtifact at h
  split at h
  · cases h
  · next stored =>
    split at h
    · cases h
    next hsize =>
    split at h
    · cases h
    next hhash =>
    exact ⟨stored, rfl, not_not.mp hsize, not_not.mp hhash⟩

/-! ## Behind a reservation -/

section

variable {lib : ArchiveLibrary} {target : ArchiveTarget} {chunkId : String} {chunk : ChunkRow}
  {now : Int} {disk disk' : ArchiveDisk} {identity : ArchiveIdentity} {row : ArchiveTransaction}

theorem run_reserve_eq_ok
    (h : (reserve lib target chunkId chunk now).run ArchiveWrite.apply disk = (.ok row, disk')) :
    ∃ identity tables, reservedIdentity lib target chunkId chunk disk = .ok identity ∧
      disk.catalog.tables.reserveArchiveTransaction identity now = .ok (row, tables) ∧
      disk' = (ArchiveWrite.commit { disk.catalog with tables := tables } false).apply disk := by
  unfold reserve archiveCheck at h
  rw [Durable.read_bind, Durable.run_read] at h
  cases hidentity : reservedIdentity lib target chunkId chunk disk with
  | error e =>
    rw [hidentity] at h
    cases h
  | ok identity =>
    rw [hidentity, Durable.ofExcept, Durable.ret_bind, Durable.run_read] at h
    cases hcall : disk.catalog.tables.reserveArchiveTransaction identity now with
    | error e =>
      rw [hcall] at h
      cases h
    | ok done =>
      obtain ⟨row', tables⟩ := done
      rw [hcall] at h
      obtain ⟨hrow, hdisk⟩ := Prod.mk.inj h
      cases Except.ok.inj hrow
      exact ⟨identity, tables, rfl, hcall, hdisk.symm⟩

/-- **What is reserved** has been validated, and its paths differ. -/
theorem reservedIdentity_eq_ok (h : reservedIdentity lib target chunkId chunk disk = .ok identity) :
    ∃ stored rawBytes raw,
      disk.internal.get? identity.sourceRelativePath = some stored ∧
      disk.internal.get? identity.sourceManifestRelativePath = some rawBytes ∧
      lib.loads rawBytes = some raw ∧ raw.isDict = true ∧
      lib.sha256Hex rawBytes = identity.sourceManifestSha256 ∧
      validateRawManifest raw identity.chunkId (.int identity.storedBytes)
        (.str identity.storedSha256) = .ok () ∧
      validateSealedArtifact lib (some stored) raw = .ok () ∧
      Exact lib identity stored ∧ identity.market ≠ "" ∧ identity.stream ≠ "" ∧
      identity.sourceManifestRelativePath ≠ identity.sourceRelativePath ∧
      (targetPaths identity).Nodup := by
  obtain ⟨source, hsource, h⟩ := except_bind_eq_ok h
  obtain ⟨manifestPath, hmanifestPath, h⟩ := except_bind_eq_ok h
  obtain ⟨⟨rawBytes, raw⟩, hload, h⟩ := except_bind_eq_ok h
  obtain ⟨⟨⟩, hraw, h⟩ := except_bind_eq_ok h
  obtain ⟨⟨⟩, hsealed, h⟩ := except_bind_eq_ok h
  obtain ⟨market, hmarket, h⟩ := except_bind_eq_ok h
  obtain ⟨stream, hstream, h⟩ := except_bind_eq_ok h
  obtain ⟨storedBytes, hbytes, h⟩ := except_bind_eq_ok h
  obtain ⟨storedSha256, hsha, h⟩ := except_bind_eq_ok h
  cases Except.ok.inj h
  obtain ⟨hfile, hloads, hdict⟩ := loadJsonBytes_eq_ok hload
  obtain ⟨stored, hstored, hsize, hhash⟩ := validateSealedArtifact_eq_ok hsealed
  obtain ⟨hchunk, hschema, -, -⟩ := validateRawManifest_eq_ok.mp hraw
  obtain ⟨hgetBytes, -⟩ := requiredInt_eq_ok hbytes
  obtain ⟨hgetSha, -⟩ := requiredText_eq_ok hsha
  refine ⟨stored, rawBytes, raw, hstored, hfile, hloads, hdict, rfl, ?_, ?_, ⟨?_, ?_⟩,
    (requiredText_eq_ok hmarket).2, (requiredText_eq_ok hstream).2, ?_, ?_⟩
  · exact validateRawManifest_eq_ok.mpr ⟨hchunk, hschema, hgetBytes, hgetSha⟩
  · rw [← hstored]
    exact hsealed
  · exact Value.int.inj (Option.some.inj (hsize.symm.trans hgetBytes))
  · exact Value.str.inj (Option.some.inj (hhash.symm.trans hgetSha))
  · intro hsame
    have hparent := (internalPath_eq_ok hmanifestPath).2
    rw [show manifestPath = source from hsame, (internalPath_eq_ok hsource).2] at hparent
    exact absurd hparent (by decide)
  · refine nodup_targetPaths chunkId (fileName source) rfl rfl ?_
    exact String.append_assoc

/-- A new archive: the Catalog knows none of its keys and batches, and the target none
of its files. -/
structure FreshArchive (disk : ArchiveDisk) (identity : ArchiveIdentity) : Prop where
  unowned : disk.catalog.tables.archiveTransactionForChunk identity.chunkId = none
  keys : ∀ toState : ArchiveState, toState ≠ .copying →
    hasEvent disk.catalog.tables.archiveEvents (stateKey identity.transactionId toState) = false ∧
      hasEvent disk.catalog.tables.chunkTransitions
        (ArchiveTables.chunkKey (stateKey identity.transactionId toState)) = false
  archived : batchCount disk (archivedBatch identity.transactionId) = 0
  deleted : batchCount disk (deletedBatch identity.transactionId) = 0
  artifact : disk.external.get? identity.targetRelativePath = none
  manifest : disk.external.get? identity.externalManifestRelativePath = none

theorem reserveKey_ne {transactionId : String} {toState : ArchiveState} (h : toState ≠ .copying) :
    ArchiveTables.reserveKey transactionId ≠ stateKey transactionId toState := fun hc =>
  h (stateKey_injective (show stateKey transactionId .copying = _ from hc)).symm

/-- `archive-reserve:` begins with an `a`, `chunk:` does not. -/
theorem archiveReserveKey_ne (transactionId key : String) :
    ArchiveTables.archiveReserveKey transactionId ≠ ArchiveTables.chunkKey key := by
  intro h
  have hlist := congrArg String.toList h
  rw [ArchiveTables.archiveReserveKey, ArchiveTables.chunkKey, String.toList_append,
    String.toList_append] at hlist
  have hhead := congrArg List.head? hlist
  exact absurd hhead (by simp)

/-- **Behind a new reservation**, the transaction is at its beginning. -/
theorem exists_healthy_of_reserve
    (h : (reserve lib target chunkId chunk now).run ArchiveWrite.apply disk = (.ok row, disk'))
    (hfresh : FreshArchive disk row.toArchiveIdentity)
    (hreads : ∀ rawBytes raw,
      disk.internal.get? row.sourceManifestRelativePath = some rawBytes →
        lib.loads rawBytes = some raw →
          ReadsBack lib target row.toArchiveIdentity rawBytes raw) :
    ∃ source : ArchiveSource lib target row.toArchiveIdentity,
      source.Healthy none disk'.targetValid disk' row ∧
        disk'.internal.get? row.sourceRelativePath = some source.stored ∧ row.state = .copying := by
  obtain ⟨identity, tables, hidentity, hcall, rfl⟩ := run_reserve_eq_ok h
  -- The row was there already, or is the one just reserved.
  rcases ArchiveTables.reserveArchiveTransaction_eq_ok hcall with
    ⟨hrow, hsame, rfl⟩ | ⟨rfl, -, -, -, hsealed, -, -, -, rfl⟩
  · rw [← congrArg ArchiveIdentity.chunkId hsame, hfresh.unowned] at hrow
    cases hrow
  · obtain ⟨stored, rawBytes, raw, hstored, hfile, hloads, hdict, hhash, hraw, hartifact, hexact,
      hmarket, hstream, hne, hnodup⟩ := reservedIdentity_eq_ok hidentity
    let source : ArchiveSource lib target identity :=
      ⟨stored, rawBytes, raw, hloads, hdict, hhash, hraw, hartifact, hexact, hmarket, hstream, hne,
        hnodup, hreads rawBytes raw hfile hloads⟩
    refine ⟨source, ⟨⟨?_, rfl, ?_, ?_, ?_, ?_, ?_⟩, hfile, hstored,
      ⟨hfresh.artifact, hfresh.manifest⟩,
      by rintro bytes ⟨⟩, rfl⟩, hstored, rfl⟩
    · simp [ArchiveTables.reservedRow]
    · obtain ⟨old, hold, -⟩ := Option.map_eq_some_iff.mp hsealed
      simp only [ArchiveWrite.apply_commit, ArchiveTables.state, ArchiveTables.setChunkState_get?]
      rw [show (ArchiveTables.reservedRow identity now).chunkId = identity.chunkId from rfl,
        if_pos rfl, hold]
      rfl
    · intro toState hlater
      have hlater : ArchiveState.copying.rank < toState.rank := hlater
      have hnot : toState ≠ .copying := by
        rintro rfl
        exact absurd hlater (by decide)
      obtain ⟨hevent, htransition⟩ := hfresh.keys toState hnot
      have hevents := @reserveKey_ne identity.transactionId toState hnot
      have htransitions := archiveReserveKey_ne identity.transactionId
        (stateKey identity.transactionId toState)
      change hasEvent _ (stateKey identity.transactionId toState) = false at hevent
      change hasEvent _ (ArchiveTables.chunkKey (stateKey identity.transactionId toState)) = false
        at htransition
      constructor
      · show hasEvent (_ ++ _) (stateKey identity.transactionId toState) = false
        rw [hasEvent_append, hevent]
        simpa [hasEvent] using hevents
      · show hasEvent (_ ++ _) (ArchiveTables.chunkKey (stateKey identity.transactionId toState)) =
          _
        rw [hasEvent_append, htransition]
        simpa [hasEvent] using htransitions
    · intro hrank
      exact absurd (show ArchiveState.verified.rank ≤ ArchiveState.copying.rank from hrank)
        (by decide)
    · exact ⟨hfresh.archived.le.trans (by decide), fun _ => hfresh.archived, fun hrank => absurd
        (show ArchiveState.localDeletePending.rank ≤ ArchiveState.copying.rank from hrank)
        (by decide)⟩
    · exact ⟨hfresh.deleted.le.trans (by decide), fun _ => hfresh.deleted, by rintro ⟨⟩⟩

end

end MarketDataRecorder
