import MarketDataRecorder.Replay.Catalog

/-!
# Accepted partitions

What a commit leaves in the data root, and that the catalog reads it back: its checks of a partition
are those that the commit satisfies.

* `commitPartitions_spec` — every partition is there, with its manifest
* `catalogPartition_of_committed` — the catalog accepts it
-/

namespace MarketDataRecorder

/-! ## Files that stay -/

/-- Every file is still there, unchanged. -/
structure DataRoot.Extends (root root' : DataRoot) : Prop where
  documents : ∀ path file, root.documents.get? path = some file →
    root'.documents.get? path = some file
  artifacts : ∀ path content, root.artifacts.get? path = some content →
    root'.artifacts.get? path = some content

namespace DataRoot.Extends

variable {root root' root'' : DataRoot}

theorem refl (root : DataRoot) : root.Extends root := ⟨fun _ _ h => h, fun _ _ h => h⟩

theorem trans (h : root.Extends root') (h' : root'.Extends root'') : root.Extends root'' :=
  ⟨fun path file hfile => h'.documents path file (h.documents path file hfile),
    fun path content hcontent => h'.artifacts path content (h.artifacts path content hcontent)⟩

end DataRoot.Extends

variable {root root' : DataRoot}

/-- A new file hides none that was there. -/
theorem get?_insert_of_none {β : Type} {d : SortedDict String β} {path other : String} {v w : β}
    (hnone : d.get? path = none) (h : d.get? other = some w) :
    (d.insert path v).get? other = some w := by
  rw [SortedDict.get?_insert, if_neg, h]
  rintro rfl
  rw [hnone] at h
  cases h

/-- **A document is written once**: the root is extended by it. -/
theorem atomicJson_spec {path : String} {document : Value}
    (h : Normalize.atomicJson root path document = .ok root') :
    root.Extends root' ∧ root'.documents.get? path = some (jsonFile document) := by
  unfold Normalize.atomicJson at h
  cases hfile : root.documents.get? path with
  | some file =>
    simp only [hfile] at h
    split at h
    · next hsame =>
      obtain rfl := Except.ok.inj h
      exact ⟨.refl root, by rw [hfile, hsame]⟩
    · cases h
  | none =>
    simp only [hfile] at h
    obtain rfl := Except.ok.inj h
    refine ⟨⟨fun other file h => get?_insert_of_none hfile h, fun _ _ h => h⟩, ?_⟩
    rw [SortedDict.get?_insert, if_pos rfl]

/-- **An artifact is written once**: the root is extended by it. -/
theorem partitionArtifact_spec {parquet : Parquet} {spool : PartitionSpool}
    {logicalSha256 location : String} {content : Bytes}
    (h : partitionArtifact parquet root spool logicalSha256 location = .ok (root', content)) :
    root.Extends root' ∧ root'.artifacts.get? location = some content := by
  unfold partitionArtifact at h
  cases hfile : root.artifacts.get? location with
  | some stored =>
    simp only [hfile] at h
    obtain ⟨rfl, rfl⟩ := Prod.mk.inj (Except.ok.inj h)
    exact ⟨.refl root, hfile⟩
  | none =>
    simp only [hfile] at h
    split at h
    · cases h
    split at h
    · cases h
    · obtain ⟨rfl, rfl⟩ := Prod.mk.inj (Except.ok.inj h)
      refine ⟨⟨fun _ _ h => h, fun other stored h => get?_insert_of_none hfile h⟩, ?_⟩
      rw [SortedDict.get?_insert, if_pos rfl]

/-! ## Partitions -/

/-- An accepted path is located in the root. -/
theorem relativePath_eq_ok {path location : String} (h : relativePath path = .ok location) :
    RelativePath.locate path = some location := by
  unfold relativePath at h
  split at h
  · next hlocate => rw [hlocate, Except.ok.inj h]
  · cases h

/-- A file name made of a hash and an ending is a name. -/
theorem isName_of_toList {c d e : Char} {rest : List Char} (hrest : '/' ∉ c :: d :: e :: rest) :
    RelativePath.IsName (c :: d :: e :: rest) :=
  ⟨by simp, by simp, by simp, hrest⟩

theorem noSlash_of_isDigest {text : String} (h : isDigest text = true) : '/' ∉ text.toList := by
  intro hmem
  rw [isDigest, Bool.and_eq_true, List.all_eq_true] at h
  exact absurd (h.2 '/' hmem) (by decide)

/-- The path of a file that is named by a hash is located at itself. -/
theorem safePath_of_relativePath {directory hash ending location : String}
    (hhash : isDigest hash = true) (hending : '/' ∉ ending.toList)
    (h : relativePath (directory ++ "/part-" ++ hash ++ ending) = .ok location) :
    safePath (some (.str location)) = .ok location := by
  have hlocate := relativePath_eq_ok h
  have htext : (directory ++ "/part-" ++ hash ++ ending).toList =
      directory.toList ++ '/' ::
        (String.ofList ("part-".toList ++ hash.toList ++ ending.toList)).toList
      := by
    simp
  have hname : RelativePath.IsName
      (String.ofList ("part-".toList ++ hash.toList ++ ending.toList)).toList := by
    have hchars : (String.ofList ("part-".toList ++ hash.toList ++ ending.toList)).toList =
        'p' :: 'a' :: 'r' :: ('t' :: '-' :: (hash.toList ++ ending.toList)) := by simp
    rw [hchars]
    refine isName_of_toList ?_
    have hhash' := noSlash_of_isDigest hhash
    simp [hhash', hending]
  have hne := RelativePath.locate_ne_empty htext hname hlocate
  simp only [safePath, if_neg hne, RelativePath.locate_locate hlocate hne]

/-- A partition that was committed: its file, its manifest, and what the result says of them. -/
structure CommittedPartition (root : DataRoot) (spool : PartitionSpool)
    (statistics : PartitionStatistics) (result : PartitionResult) : Prop where
  statistics_eq : partitionStatistics spool = .ok statistics
  artifactPath : safePath (some (.str result.relativePath)) = .ok result.relativePath
  manifestPath : safePath (some (.str result.manifestRelativePath)) =
    .ok result.manifestRelativePath
  manifest : root.documents.get? result.manifestRelativePath =
    some (jsonFile (partitionManifest result statistics))
  artifact : ∃ content, root.artifacts.get? result.relativePath = some content ∧
    result.storedSha256 = Checksum.sha256Hex content ∧ result.storedBytes = content.length
  market : result.market = spool.market
  stream : result.stream = spool.stream
  date : result.date = spool.date
  hour : result.hour = spool.hourText
  logicalSha256 : result.logicalSha256 = statistics.logicalSha256
  rowCount : result.rowCount = statistics.rowCount
  hashes : result.sourceChunkHashes = statistics.sourceChunkHashes

/-- A committed partition stays committed when files are added. -/
theorem CommittedPartition.of_extends {spool : PartitionSpool} {statistics : PartitionStatistics}
    {result : PartitionResult} (h : CommittedPartition root spool statistics result)
    (hextends : root.Extends root') : CommittedPartition root' spool statistics result := by
  obtain ⟨content, hcontent, hsha, hbytes⟩ := h.artifact
  exact { h with
    manifest := hextends.documents _ _ h.manifest
    artifact := ⟨content, hextends.artifacts _ _ hcontent, hsha, hbytes⟩ }

/-- The logical digest of a partition is a digest. -/
theorem isDigest_logicalSha256 {spool : PartitionSpool} {statistics : PartitionStatistics}
    (h : partitionStatistics spool = .ok statistics) :
    isDigest statistics.logicalSha256 = true := by
  unfold partitionStatistics at h
  split at h
  · cases h
  · obtain rfl := Except.ok.inj h
    exact isDigest_sha256Hex _

/-- **Committing a partition** extends the root by what the reader looks for. -/
theorem commitPartition_spec {parquet : Parquet} {spool : PartitionSpool} {result : PartitionResult}
    (h : commitPartition parquet root spool = .ok (root', result)) :
    root.Extends root' ∧ ∃ statistics, CommittedPartition root' spool statistics result := by
  obtain ⟨statistics, hstatistics, h⟩ := except_bind_eq_ok h
  obtain ⟨target, htarget, h⟩ := except_bind_eq_ok h
  obtain ⟨manifestPath, hmanifestPath, h⟩ := except_bind_eq_ok h
  obtain ⟨⟨middle, content⟩, hartifact, h⟩ := except_bind_eq_ok h
  dsimp only at h
  split at h
  · cases h
  obtain ⟨last, hatomic, h⟩ := except_bind_eq_ok h
  obtain ⟨rfl, rfl⟩ := Prod.mk.inj (Except.ok.inj h)
  obtain ⟨hextends, hcontent⟩ := partitionArtifact_spec hartifact
  obtain ⟨hextends', hmanifest⟩ := atomicJson_spec hatomic
  have hdigest := isDigest_logicalSha256 hstatistics
  refine ⟨hextends.trans hextends', statistics, ?_⟩
  exact {
    statistics_eq := hstatistics
    artifactPath := safePath_of_relativePath hdigest (by decide) htarget
    manifestPath := safePath_of_relativePath hdigest (by decide) hmanifestPath
    manifest := hmanifest
    artifact := ⟨content, hextends'.artifacts _ _ hcontent, rfl, rfl⟩
    market := rfl
    stream := rfl
    date := rfl
    hour := rfl
    logicalSha256 := rfl
    rowCount := rfl
    hashes := rfl }

/-- Committing partitions one after another commits every one of them. -/
theorem commitPartitions_spec {parquet : Parquet} : ∀ {root root' : DataRoot}
    {spools : List PartitionSpool} {results : List PartitionResult},
    commitPartitions parquet root spools = .ok (root', results) →
    root.Extends root' ∧ ∀ result ∈ results, ∃ spool ∈ spools, ∃ statistics,
      CommittedPartition root' spool statistics result
  | root, root', [], results, h => by
    obtain ⟨rfl, rfl⟩ := Prod.mk.inj (Except.ok.inj h)
    exact ⟨.refl _, by simp⟩
  | root, root', spool :: spools, results, h => by
    obtain ⟨⟨middle, result⟩, hcommit, h⟩ := except_bind_eq_ok h
    obtain ⟨⟨last, rest⟩, hrest, h⟩ := except_bind_eq_ok h
    obtain ⟨rfl, rfl⟩ := Prod.mk.inj (Except.ok.inj h)
    obtain ⟨hextends, statistics, hcommitted⟩ := commitPartition_spec hcommit
    obtain ⟨hextends', hall⟩ := commitPartitions_spec hrest
    refine ⟨hextends.trans hextends', List.forall_mem_cons.mpr ⟨?_, ?_⟩⟩
    · exact ⟨spool, by simp, statistics, hcommitted.of_extends hextends'⟩
    · intro other hother
      obtain ⟨spool', hspool', hcommitted'⟩ := hall other hother
      exact ⟨spool', List.mem_cons_of_mem spool hspool', hcommitted'⟩

/-! ## What the catalog reads -/

/-- A field that holds a text is read as it. -/
theorem catalogText_of_get? {value : Value} {name text : String}
    (h : value.get? name = some (.str text)) (hne : text ≠ "") :
    catalogText value name = .ok text := by
  simp only [catalogText, h, if_neg hne]

theorem ne_empty_of_isDigest {text : String} (h : isDigest text = true) : text ≠ "" := by
  rintro rfl
  cases h

/-- A field that holds a digest is read as it. -/
theorem catalogSha256_of_get? {value : Value} {name text : String}
    (h : value.get? name = some (.str text)) (hdigest : isDigest text = true) :
    catalogSha256 value name = .ok text := by
  rw [catalogSha256, catalogText_of_get? h (ne_empty_of_isDigest hdigest)]
  simp only [bind, Except.bind, hdigest, if_true]
  rfl

/-- A field that holds a natural number is read as it. -/
theorem catalogInteger_of_get? {value : Value} {name : String} {n : Nat}
    (h : value.get? name = some (.int n)) : catalogInteger value name = .ok n := by
  rw [catalogInteger, h]

theorem shaItem_str {name text : String} : shaItem name (.str text) =
    if isDigest text then .ok text
    else if text = "" then .error (name ++ " must be non-empty text")
    else .error (name ++ " must be lowercase SHA-256") := by
  have hget : (Value.dict [(name, .str text)]).get? name = some (.str text) := by
    simp [Value.get?, Value.findItem]
  rw [shaItem]
  by_cases hdigest : isDigest text = true
  · rw [catalogSha256_of_get? hget hdigest, if_pos hdigest]
  · rw [if_neg hdigest, catalogSha256, catalogText, hget]
    by_cases hempty : text = ""
    · simp only [if_pos hempty]
      rfl
    · simp only [if_neg hempty, bind, Except.bind, hdigest]
      rfl

/-- Digests are read one by one. -/
theorem mapM_shaItem {name : String} : ∀ {hashes : List String},
    (∀ hash ∈ hashes, isDigest hash = true) →
      (hashes.map Value.str).mapM (shaItem name) = .ok hashes
  | [], _ => rfl
  | hash :: hashes, h => by
    obtain ⟨hhash, hrest⟩ := List.forall_mem_cons.mp h
    exact Fallible.mapM_cons_of_ok (by rw [shaItem_str, if_pos hhash]) (mapM_shaItem hrest)

/-- A list is its own sorted set exactly where it is strictly increasing. -/
theorem sortedSet_eq_self_iff {texts : List String} :
    texts = sortedSet texts ↔ texts.Pairwise (· < ·) := by
  have hlt : (sortedSet texts).Pairwise (· < ·) := Finset.sortedLT_sort _ |>.pairwise
  constructor
  · intro h
    rw [h]
    exact hlt
  · intro h
    have hperm : texts.Perm (sortedSet texts) :=
      (List.perm_ext_iff_of_nodup (h.imp ne_of_lt) (hlt.imp ne_of_lt)).mpr fun text => by
        simp [sortedSet]
    exact hperm.eq_of_pairwise (fun a b _ _ hab hba => (lt_asymm hab hba).elim) h hlt

/-- A list of hashes is accepted exactly where it is in ascending order. -/
theorem catalogShaList_iff {name : String} {hashes result : List String}
    (h : ∀ hash ∈ hashes, isDigest hash = true) :
    catalogShaList (some (.list (hashes.map .str))) name = .ok result ↔
      hashes.Pairwise (· < ·) ∧ result = hashes := by
  rw [← sortedSet_eq_self_iff, catalogShaList, catalogArray]
  simp only [bind, Except.bind, mapM_shaItem h]
  by_cases hsorted : hashes = sortedSet hashes
  · rw [if_neg (not_not.mpr hsorted)]
    constructor
    · intro heq
      exact ⟨hsorted, (Except.ok.inj heq).symm⟩
    · rintro ⟨-, rfl⟩
      rfl
  · rw [if_pos hsorted]
    constructor
    · rintro ⟨⟩
    · rintro ⟨hsorted', -⟩
      exact absurd hsorted' hsorted

/-- A document of the right schema is decoded. -/
theorem decodeManifest_jsonFile {path schema : String} {items : List (String × Value)}
    (hfile : root.documents.get? path = some (jsonFile (.dict items)))
    (hschema : (Value.dict items).get? "schema_version" = some (.str schema)) :
    decodeManifest root path schema = .ok (.dict items) := by
  rw [decodeManifest, hfile]
  simp [jsonFile, Value.isDict, hschema]

/-- The versions that a summary has of a build that is published now. -/
structure CurrentSummary (summary : CatalogSummary) : Prop where
  datasetVersion : summary.datasetVersion = datasetVersion
  dedupVersion : summary.dedupVersion = dedupVersion
  parquetProfile : summary.parquetProfile = parquetProfile

/-- A build repeats of a partition what its own manifest says. -/
theorem buildEntry_get? (result : PartitionResult) (statistics : PartitionStatistics) :
    ∀ field ∈ repeatedFields,
      result.buildEntry.get? field = (partitionManifest result statistics).get? field := by
  simp only [repeatedFields, List.forall_mem_cons]
  exact ⟨rfl, rfl, rfl, rfl, rfl, rfl, rfl, rfl, rfl, rfl, by simp⟩

/-- **A partition that the producer wrote passes every check of the reader.** -/
theorem checkPartition_of_current {summary : CatalogSummary} (h : CurrentSummary summary)
    (result : PartitionResult) (statistics : PartitionStatistics) :
    checkPartition summary result.buildEntry (partitionManifest result statistics) = .ok () := by
  have hfind : repeatedFields.find? (fun field => decide
      (result.buildEntry.get? field ≠ (partitionManifest result statistics).get? field)) =
        none := by
    rw [List.find?_eq_none]
    intro field hfield hne
    exact of_decide_eq_true hne (buildEntry_get? result statistics field hfield)
  rw [checkPartition, hfind, h.datasetVersion, h.dedupVersion, h.parquetProfile]
  have hversion : (partitionManifest result statistics).get? "dataset_version" =
      some (.str datasetVersion) := rfl
  have hdedup : (partitionManifest result statistics).get? "dedup_version" =
      some (.str dedupVersion) := rfl
  have hprofile : (partitionManifest result statistics).get? "parquet_profile" =
      some (.str parquetProfile) := rfl
  simp only [hversion, hdedup, hprofile, ne_eq, not_true_eq_false, if_false]

/-- The source hashes of a partition are those of its rows, sorted. -/
theorem sourceChunkHashes_eq {spool : PartitionSpool} {statistics : PartitionStatistics}
    (h : partitionStatistics spool = .ok statistics) :
    statistics.sourceChunkHashes = sortedSet spool.rowHashes := by
  unfold partitionStatistics at h
  split at h
  · cases h
  · rw [← Except.ok.inj h]

theorem append_ne_empty {a b : String} (h : a ≠ "") : a ++ b ≠ "" := by
  intro hempty
  have hlist := congrArg String.toList hempty
  rw [String.toList_append] at hlist
  exact h (String.toList_inj.mp (List.append_eq_nil_iff.mp hlist).1)

theorem normalizedSchemaVersion_ne (market stream : String) :
    normalizedSchemaVersion market stream ≠ "" := by
  exact append_ne_empty (append_ne_empty (append_ne_empty (append_ne_empty (by decide))))

theorem zeroPadded_ne (width n : Nat) : zeroPadded width n ≠ "" := by
  intro h
  have hlength := congrArg (fun text => text.toList.length) h
  have hdigits : 0 < (Nat.toDigits 10 n).length := Nat.length_toDigits_pos
  simp only [zeroPadded, String.toList_ofList, List.length_append, List.length_replicate] at hlength
  change _ = 0 at hlength
  omega

/-- What the catalog collects of a committed partition. -/
def PartitionResult.descriptor (result : PartitionResult) (statistics : PartitionStatistics) :
    PartitionDescriptor where
  market := result.market
  stream := result.stream
  date := result.date
  hour := result.hour
  schemaVersion := normalizedSchemaVersion result.market result.stream
  logicalSha256 := result.logicalSha256
  storedSha256 := result.storedSha256
  storedBytes := result.storedBytes
  rowCount := result.rowCount
  receiveTimeUtcMinNs := statistics.receiveTimeUtcMinNs
  receiveTimeUtcMaxNs := statistics.receiveTimeUtcMaxNs
  sourceChunkHashes := result.sourceChunkHashes

/-- Every committed partition is accepted. -/
theorem catalogPartition_of_committed {summary : CatalogSummary} (h : CurrentSummary summary)
    {spool : PartitionSpool} {statistics : PartitionStatistics} {result : PartitionResult}
    (hcommitted : CommittedPartition root spool statistics result)
    (hhashes : ∀ hash ∈ spool.rowHashes, isDigest hash = true) :
    catalogPartition root summary result.buildEntry = .ok (result.descriptor statistics) := by
  obtain ⟨content, hcontent, hsha, hbytes⟩ := hcommitted.artifact
  have hstored : isDigest result.storedSha256 = true := by rw [hsha]; exact isDigest_sha256Hex _
  have hlogical : isDigest result.logicalSha256 = true := by
    rw [hcommitted.logicalSha256]
    exact isDigest_logicalSha256 hcommitted.statistics_eq
  have hset : result.sourceChunkHashes = sortedSet spool.rowHashes := by
    rw [hcommitted.hashes, sourceChunkHashes_eq hcommitted.statistics_eq]
  have hall : ∀ hash ∈ result.sourceChunkHashes, isDigest hash = true := by
    intro hash hmem
    rw [hset] at hmem
    exact hhashes hash (by simpa [sortedSet] using hmem)
  have hsources : catalogShaList (some (.list (result.sourceChunkHashes.map .str)))
      "source_chunk_hashes" = .ok result.sourceChunkHashes := by
    refine (catalogShaList_iff hall).mpr ⟨?_, rfl⟩
    rw [hset]
    exact Finset.sortedLT_sort _ |>.pairwise
  obtain ⟨manifest, heq⟩ : ∃ manifest, manifest = partitionManifest result statistics := ⟨_, rfl⟩
  have hmanifest : decodeManifest root result.manifestRelativePath partitionManifestSchema =
      .ok manifest := by
    rw [heq]
    exact decodeManifest_jsonFile hcommitted.manifest rfl
  -- What follows are the fields of the manifest in the order in which the reader asks for them.
  have hmarket : catalogText manifest "market" = .ok result.market :=
    catalogText_of_get? (by rw [heq]; rfl) (by rw [hcommitted.market]; exact spool.market_ne)
  have hstream : catalogText manifest "stream" = .ok result.stream :=
    catalogText_of_get? (by rw [heq]; rfl) (by rw [hcommitted.stream]; exact spool.stream_ne)
  have hdate : catalogText manifest "date" = .ok result.date :=
    catalogText_of_get? (by rw [heq]; rfl) (by rw [hcommitted.date]; exact spool.date_ne)
  have hhour : catalogText manifest "hour" = .ok result.hour :=
    catalogText_of_get? (by rw [heq]; rfl) (by rw [hcommitted.hour]; exact zeroPadded_ne _ _)
  have hschema : catalogText manifest "stream_schema_version" =
      .ok (normalizedSchemaVersion result.market result.stream) :=
    catalogText_of_get? (by rw [heq]; rfl) (normalizedSchemaVersion_ne _ _)
  have hstoredSha : catalogSha256 manifest "stored_sha256" = .ok result.storedSha256 :=
    catalogSha256_of_get? (by rw [heq]; rfl) hstored
  have hlogicalSha : catalogSha256 manifest "logical_sha256" = .ok result.logicalSha256 :=
    catalogSha256_of_get? (by rw [heq]; rfl) hlogical
  have hstoredBytes : catalogInteger manifest "stored_bytes" = .ok result.storedBytes :=
    catalogInteger_of_get? (by rw [heq]; rfl)
  have hrowCount : catalogInteger manifest "row_count" = .ok result.rowCount :=
    catalogInteger_of_get? (by rw [heq]; rfl)
  have hmin : catalogInteger manifest "receive_time_utc_min_ns" =
      .ok statistics.receiveTimeUtcMinNs := catalogInteger_of_get? (by rw [heq]; rfl)
  have hmax : catalogInteger manifest "receive_time_utc_max_ns" =
      .ok statistics.receiveTimeUtcMaxNs := catalogInteger_of_get? (by rw [heq]; rfl)
  have hlist : catalogShaList (manifest.get? "source_chunk_hashes") "source_chunk_hashes" =
      .ok result.sourceChunkHashes := by
    rw [heq]
    exact hsources
  have hentry : catalogObject result.buildEntry "partition entry" = .ok result.buildEntry := rfl
  have hartifactPath : safePath (result.buildEntry.get? "relative_path") =
      .ok result.relativePath := hcommitted.artifactPath
  have hmanifestPath : safePath (result.buildEntry.get? "manifest_relative_path") =
      .ok result.manifestRelativePath := hcommitted.manifestPath
  have hcheck : checkPartition summary result.buildEntry manifest = .ok () :=
    heq ▸ checkPartition_of_current h result statistics
  simp only [catalogPartition, hentry, hartifactPath, hmanifestPath, hmanifest, hcheck, hcontent,
    hstoredBytes, hstoredSha, hmarket, hstream, hdate, hhour, hschema, hlogicalSha, hrowCount,
    hmin, hmax, hlist, hsha, hbytes, bind, Except.bind, ne_eq, not_true_eq_false, if_false]
  rw [PartitionResult.descriptor, hsha, hbytes]
  rfl

end MarketDataRecorder
