import MarketDataRecorder.Replay.AcceptedCheckpoints

/-!
# Published builds

The normalizer publishes and the catalog opens, by rules that were written twice. What the one
checks of a checkpoint is less than what the other demands.

* `buildIdentity_iff` — the identity that the catalog computes is the id of the build
* `openBuild_iff` — a published build is opened where its checkpoints are accepted
* `published_opens_iff` — when a published build can be opened, and its checkpoints used
-/

namespace MarketDataRecorder

variable {root root' : DataRoot}

/-! ## The identity of a build -/

/-- The entry of a source reads back as the part of it that names the build. -/
theorem identityOfSource_sourceEntry (chunk : RawSource) :
    identityOfSource (sourceEntry chunk) = .ok (identitySource chunk) := by
  have hentry : catalogObject (sourceEntry chunk) "raw source" = .ok (sourceEntry chunk) := rfl
  have hid : catalogText (sourceEntry chunk) "chunk_id" = .ok chunk.chunkId :=
    catalogText_of_get? rfl chunk.chunkId_ne
  have hmanifest : catalogSha256 (sourceEntry chunk) "manifest_sha256" = .ok chunk.manifestSha256 :=
    catalogSha256_of_get? rfl chunk.manifestSha256_digest
  have hstored : catalogSha256 (sourceEntry chunk) "stored_sha256" = .ok chunk.storedSha256 :=
    catalogSha256_of_get? rfl chunk.storedSha256_digest
  have huncompressed : catalogSha256 (sourceEntry chunk) "uncompressed_sha256" =
      .ok chunk.uncompressedSha256 := catalogSha256_of_get? rfl chunk.uncompressedSha256_digest
  simp only [identityOfSource, hentry, hid, hmanifest, hstored, huncompressed, bind, Except.bind]
  rfl

/-- So does the entry of a checkpoint. -/
theorem identityOfCheckpoint_entry {path : String} {content : Bytes} {document : Value}
    {book : OrderBook} (h : Restored document book) :
    identityOfCheckpoint (checkpointEntry path content document) =
      .ok (identityCheckpoint (checkpointEntry path content document)) := by
  obtain ⟨checkpointId, hid, hne⟩ := h.checkpointId
  have hentry : catalogObject (checkpointEntry path content document) "checkpoint entry" =
      .ok (checkpointEntry path content document) := rfl
  have hentryId : (checkpointEntry path content document).get? "checkpoint_id" =
      some (.str checkpointId) := by
    have hget : (checkpointEntry path content document).get? "checkpoint_id" =
      some (fieldOrNull document "checkpoint_id") := rfl
    rw [hget, fieldOrNull, hid, Option.getD_some]
  have hentrySha : (checkpointEntry path content document).get? "file_sha256" =
      some (.str (Checksum.sha256Hex content)) := rfl
  rw [identityOfCheckpoint, hentry]
  simp only [bind, Except.bind, catalogText_of_get? hentryId hne,
    catalogSha256_of_get? hentrySha (isDigest_sha256Hex content), identityCheckpoint, fieldOrNull,
    hentryId, hentrySha, Option.getD_some]
  rfl

variable {selection : BuildSelection} {chunks : List RawSource} {checkpoints : List Value}
  {results : List PartitionResult}

/-- The entries of a build without a restriction are those of checkpoints with their identities. -/
structure EntriesOf (selection : BuildSelection) (checkpoints : List Value) : Prop where
  restricted : selection.restricts = true → checkpoints = []
  identity : ∀ entry ∈ checkpoints, identityOfCheckpoint entry = .ok (identityCheckpoint entry)

/-- No product of a selection has an empty text. -/
def ProductsNamed (selection : BuildSelection) : Prop :=
  ∀ products ∈ selection.products, ∀ product ∈ products,
    (ofLex product).1 ≠ "" ∧ (ofLex product).2 ≠ ""

/-- A bound of the selection reads back, absent as `null`. -/
theorem selectionBound_optionalBound {value : Value} {name : String} {bound : Option Int}
    (h : value.get? name = some (optionalBound bound)) : selectionBound value name = .ok bound := by
  rw [selectionBound, h]
  cases bound <;> rfl

/-- Products read back exactly where no market and no symbol is empty. -/
theorem mapM_productPair_eq_some_iff : ∀ {products : List (String ×ₗ String)}
    {pairs : List (String × String)},
    (products.map fun product => Value.list [.str (ofLex product).1, .str (ofLex product).2]).mapM
        productPair = some pairs ↔
      (∀ product ∈ products, (ofLex product).1 ≠ "" ∧ (ofLex product).2 ≠ "") ∧
        pairs = products.map ofLex
  | [], pairs => by
    simp only [List.map_nil, List.mapM_nil, List.not_mem_nil, false_implies, implies_true, true_and]
    exact ⟨fun h => (Option.some.inj h).symm, fun h => by rw [h]; rfl⟩
  | product :: products, pairs => by
    rw [List.map_cons, List.mapM_cons, List.forall_mem_cons, List.map_cons]
    have hpair : productPair (.list [.str (ofLex product).1, .str (ofLex product).2]) =
        if (ofLex product).1 = "" ∨ (ofLex product).2 = "" then none
        else some ((ofLex product).1, (ofLex product).2) := rfl
    rw [hpair]
    by_cases hempty : (ofLex product).1 = "" ∨ (ofLex product).2 = ""
    · rw [if_pos hempty]
      constructor
      · rintro ⟨⟩
      · rintro ⟨⟨hnamed, -⟩, -⟩
        rcases hempty with h | h
        · exact absurd h hnamed.1
        · exact absurd h hnamed.2
    · rw [if_neg hempty]
      have hnamed := not_or.mp hempty
      constructor
      · intro h
        obtain ⟨pair, hpair, h⟩ := Option.bind_eq_some_iff.mp h
        obtain rfl := Option.some.inj hpair
        obtain ⟨rest, hrest, h⟩ := Option.bind_eq_some_iff.mp h
        obtain ⟨hall, rfl⟩ := mapM_productPair_eq_some_iff.mp hrest
        exact ⟨⟨hnamed, hall⟩, (Option.some.inj h).symm⟩
      · rintro ⟨⟨-, hall⟩, rfl⟩
        have hrest := mapM_productPair_eq_some_iff.mpr ⟨hall, rfl⟩
        simp only [bind, Option.bind, hrest]
        rfl

/-- The products of a selection are valid exactly where none has an empty name. -/
theorem validProducts_iff (products : Option (Finset (String ×ₗ String))) :
    validProducts (some (productsValue products)) = true ↔
      ∀ set ∈ products, ∀ product ∈ set, (ofLex product).1 ≠ "" ∧ (ofLex product).2 ≠ "" := by
  cases products with
  | none => simp [productsValue, validProducts]
  | some set =>
    simp only [productsValue, validProducts, Option.mem_some_iff, forall_eq']
    constructor
    · intro h product hproduct
      split at h
      · cases h
      · next pairs hpairs =>
        exact (mapM_productPair_eq_some_iff.mp hpairs).1 product ((Finset.mem_sort _).mpr hproduct)
    · intro h
      have hpairs := mapM_productPair_eq_some_iff.mpr
        ⟨fun product hproduct => h product ((Finset.mem_sort (· ≤ ·)).mp hproduct), rfl⟩
      rw [hpairs]
      have hsorted : ((((set.sort (· ≤ ·)).map ofLex).map toLex)).Pairwise (· ≤ ·) := by
        rw [List.map_map]
        have hid : (toLex ∘ ofLex : String ×ₗ String → String ×ₗ String) = id := rfl
        rw [hid, List.map_id]
        exact Finset.pairwise_sort set (· ≤ ·)
      exact decide_eq_true hsorted

/-- **A selection passes its check exactly where its products are named.** -/
theorem checkSelection_iff (selection : BuildSelection) :
    checkSelection (selectionDocument selection) [] = .ok () ↔ ProductsNamed selection := by
  have hkeys : documentKeys (selectionDocument selection) = selectionKeys := rfl
  have hschema : (selectionDocument selection).get? "schema_version" =
      some (.str "normalization-input-selection.v1") := rfl
  have hscope : (selectionDocument selection).get? "checkpoint_scope" = some (.str "none") := rfl
  have hfirst : selectionBound (selectionDocument selection) "start_utc_ns" =
      .ok selection.startUtcNs := selectionBound_optionalBound rfl
  have hlast : selectionBound (selectionDocument selection) "end_utc_ns" =
      .ok selection.endUtcNs := selectionBound_optionalBound rfl
  have hproducts : (selectionDocument selection).get? "products" =
      some (productsValue selection.products) := rfl
  have hrange : ¬ (selection.startUtcNs.any fun a => selection.endUtcNs.any fun b => b ≤ a) =
    true := by
    rw [Option.any_eq_true]
    rintro ⟨first, hfirst, h⟩
    rw [Option.any_eq_true] at h
    obtain ⟨last, hlast, h⟩ := h
    exact absurd (selection.range first hfirst last hlast) (not_lt.mpr (of_decide_eq_true h))
  rw [checkSelection]
  simp only [hkeys, hschema, hscope, hfirst, hlast, hproducts, bind, Except.bind, ne_eq,
    not_true_eq_false, or_self, if_false, if_neg hrange]
  rw [ProductsNamed, ← validProducts_iff]
  cases validProducts (some (productsValue selection.products)) with
  | false => simp [throw, throwThe, MonadExceptOf.throw]
  | true => simp [pure, Except.pure]

/-- The sources of a build read back one by one. -/
theorem mapM_identityOfSource (chunks : List RawSource) :
    (chunks.map sourceEntry).mapM identityOfSource = .ok (chunks.map identitySource) := by
  induction chunks with
  | nil => rfl
  | cons chunk chunks ih =>
    exact Fallible.mapM_cons_of_ok (identityOfSource_sourceEntry chunk) ih

/-- The checkpoints of a build read back one by one. -/
theorem mapM_identityOfCheckpoint : ∀ {entries : List Value},
    (∀ entry ∈ entries, identityOfCheckpoint entry = .ok (identityCheckpoint entry)) →
    entries.mapM identityOfCheckpoint = .ok (entries.map identityCheckpoint)
  | [], _ => rfl
  | entry :: entries, h => by
    obtain ⟨hentry, hrest⟩ := List.forall_mem_cons.mp h
    exact Fallible.mapM_cons_of_ok hentry (mapM_identityOfCheckpoint hrest)

/-- What the manifest of a build says of itself, as far as its identity goes. -/
structure ManifestOf (document : Value) (selection : BuildSelection) (chunks : List RawSource)
    (checkpoints : List Value) : Prop where
  rawSources : document.get? "raw_sources" = some (.list (chunks.map sourceEntry))
  checkpoints : document.get? "checkpoints" = some (.list checkpoints)
  datasetVersion : document.get? "dataset_version" = some (.str datasetVersion)
  dedupVersion : document.get? "dedup_version" = some (.str dedupVersion)
  inputSelection : document.get? "input_selection" =
    if selection.restricts then some (selectionDocument selection) else none

/-- The manifest that the producer writes is the one that names the build. -/
theorem manifestOf_buildManifest :
    ManifestOf (buildManifest selection chunks checkpoints results) selection chunks
      checkpoints := by
  constructor <;> rw [buildManifest] <;> split <;> rfl

/-- The identity of a manifest is the id that the build was given, unless a product is unnamed. -/
theorem buildIdentity_iff {document : Value} {identity : String}
    (h : ManifestOf document selection chunks checkpoints)
    (hentries : EntriesOf selection checkpoints) :
    buildIdentity document = .ok identity ↔
      (selection.restricts = true → ProductsNamed selection) ∧
        identity = buildIdOf selection chunks checkpoints := by
  have hversion : identityVersion document = .ok [("dedup_version", .str dedupVersion)] := by
    rw [identityVersion, h.dedupVersion]
    rfl
  have hfield : fieldOrNull document "dataset_version" = .str datasetVersion := by
    rw [fieldOrNull, h.datasetVersion, Option.getD_some]
  rw [buildIdentity, h.rawSources, h.checkpoints]
  simp only [catalogArray, mapM_identityOfSource, mapM_identityOfCheckpoint hentries.identity,
    hversion, hfield, h.inputSelection, bind, Except.bind]
  by_cases hrestricts : selection.restricts = true
  · have hselection : catalogObject (selectionDocument selection) "input_selection" =
        .ok (selectionDocument selection) := rfl
    rw [if_pos hrestricts]
    simp only [hselection, hentries.restricted hrestricts, buildIdOf, if_pos hrestricts]
    rw [← checkSelection_iff]
    cases checkSelection (selectionDocument selection) [] with
    | error e => simp [hrestricts]
    | ok u =>
      simp only [hrestricts, forall_const, true_and]
      constructor
      · intro heq
        exact (Except.ok.inj heq).symm
      · rintro rfl
        rfl
  · rw [if_neg hrestricts]
    simp only [buildIdOf, if_neg hrestricts]
    constructor
    · intro heq
      exact ⟨fun habsurd => absurd habsurd hrestricts, (Except.ok.inj heq).symm⟩
    · rintro ⟨-, rfl⟩
      rfl

/-- A build is named by a digest. -/
theorem isDigest_buildIdOf : isDigest (buildIdOf selection chunks checkpoints) = true := by
  rw [buildIdOf]
  split
  · exact isDigest_documentHash _
  · exact isDigest_documentHash _

/-- What the catalog collects of a build. -/
def publishedSummary (selection : BuildSelection) (chunks : List RawSource)
    (checkpoints : List Value) (results : List PartitionResult) : CatalogSummary where
  buildId := buildIdOf selection chunks checkpoints
  datasetVersion := datasetVersion
  dedupVersion := dedupVersion
  parquetProfile := parquetProfile
  partitionCount := results.length
  normalizedRows := (results.map PartitionResult.rowCount).sum
  sourceChunkCount := chunks.length
  checkpointCount := checkpoints.length

/-- A published build is of the current schemas. -/
theorem currentSummary_published :
    CurrentSummary (publishedSummary selection chunks checkpoints results) := ⟨rfl, rfl, rfl⟩

/-- **The manifest's own fields are accepted exactly where the selection is.** -/
theorem catalogSummary_iff {summary : CatalogSummary} (hentries : EntriesOf selection checkpoints) :
    catalogSummary (buildManifest selection chunks checkpoints results) datasetVersion =
      .ok summary ↔
      (selection.restricts = true → ProductsNamed selection) ∧
        summary = publishedSummary selection chunks checkpoints results := by
  obtain ⟨document, hdocument⟩ : ∃ document,
    document = buildManifest selection chunks checkpoints results := ⟨_, rfl⟩
  have hmanifest : ManifestOf document selection chunks checkpoints :=
    hdocument ▸ manifestOf_buildManifest
  have hid : catalogSha256 document "build_id" = .ok (buildIdOf selection chunks checkpoints) := by
    refine catalogSha256_of_get? ?_ isDigest_buildIdOf
    rw [hdocument, buildManifest]
    rfl
  have hpartitions : document.get? "partitions" =
      some (.list (results.map PartitionResult.buildEntry)) := by
    rw [hdocument, buildManifest]
    split <;> rfl
  have hcount : catalogInteger document "partition_count" = .ok results.length := by
    refine catalogInteger_of_get? ?_
    rw [hdocument, buildManifest]
    split <;> rfl
  have hdedup : catalogText document "dedup_version" = .ok dedupVersion :=
    catalogText_of_get? hmanifest.dedupVersion (by decide)
  have hprofile : catalogText document "parquet_profile" = .ok parquetProfile := by
    refine catalogText_of_get? ?_ (by decide)
    rw [hdocument, buildManifest]
    split <;> rfl
  have hrows : catalogInteger document "normalized_rows" =
      .ok (results.map PartitionResult.rowCount).sum := by
    refine catalogInteger_of_get? ?_
    rw [hdocument, buildManifest]
    split <;> rfl
  rw [← hdocument, catalogSummary]
  by_cases hnamed : selection.restricts = true → ProductsNamed selection
  · have hidentity := (buildIdentity_iff hmanifest hentries).mpr ⟨hnamed, rfl⟩
    simp only [hmanifest.datasetVersion, hid, hidentity, hpartitions, hmanifest.rawSources,
      hmanifest.checkpoints, hcount, hdedup, hprofile, hrows, catalogArray, List.length_map, bind,
      Except.bind, ne_eq, not_true_eq_false, if_false]
    constructor
    · intro heq
      exact ⟨hnamed, (Except.ok.inj heq).symm⟩
    · rintro ⟨-, rfl⟩
      rfl
  · constructor
    · intro heq
      rw [if_neg (not_not.mpr hmanifest.datasetVersion)] at heq
      obtain ⟨_, -, heq⟩ := except_bind_eq_ok heq
      obtain ⟨identity, hidentity, -⟩ := except_bind_eq_ok heq
      exact absurd ((buildIdentity_iff hmanifest hentries).mp hidentity).1 hnamed
    · rintro ⟨hnamed', -⟩
      exact absurd hnamed' hnamed

/-! ## Opening a published build -/

/-- A build in a data root, after it was published. -/
structure PublishedBuild (root : DataRoot) (selection : BuildSelection) (chunks : List RawSource)
    (checkpoints : List Value) (results : List PartitionResult) : Prop where
  manifest : root.documents.get? (buildManifestPath (buildIdOf selection chunks checkpoints)) =
    some (jsonFile (buildManifest selection chunks checkpoints results))
  entries : EntriesOf selection checkpoints
  partitions : ∀ result ∈ results, ∃ descriptor,
    catalogPartition root (publishedSummary selection chunks checkpoints results)
      result.buildEntry =
      .ok descriptor ∧ descriptor.rowCount = result.rowCount

def sourceHashesOf (chunks : List RawSource) : List String :=
  chunks.map RawSource.uncompressedSha256

theorem mapM_uncompressedSha256 (chunks : List RawSource) :
    ((chunks.map sourceEntry).mapM fun item => do
      let item ← catalogObject item "raw source"
      catalogSha256 item "uncompressed_sha256") = .ok (sourceHashesOf chunks) := by
  induction chunks with
  | nil => rfl
  | cons chunk chunks ih =>
    refine Fallible.mapM_cons_of_ok ?_ ih
    have hentry : catalogObject (sourceEntry chunk) "raw source" = .ok (sourceEntry chunk) := rfl
    simp only [hentry, bind, Except.bind]
    exact catalogSha256_of_get? rfl chunk.uncompressedSha256_digest

/-- **Every partition that the producer committed is accepted.** -/
theorem exists_catalogPartitions
    (h : PublishedBuild root selection chunks checkpoints results) :
    ∃ partitions, (results.map PartitionResult.buildEntry).mapM (catalogPartition root
        (publishedSummary selection chunks checkpoints results)) = .ok partitions ∧
      partitions.map PartitionDescriptor.rowCount = results.map PartitionResult.rowCount := by
  rw [List.mapM_map]
  obtain ⟨partitions, hpartitions⟩ := Fallible.exists_mapM_ok fun result hresult => by
    obtain ⟨descriptor, hdescriptor, -⟩ := h.partitions result hresult
    exact ⟨descriptor, hdescriptor⟩
  refine ⟨partitions, hpartitions, Fallible.map_of_mapM_ok ?_ hpartitions⟩
  intro result hresult descriptor hok
  obtain ⟨descriptor', hdescriptor', hcount⟩ := h.partitions result hresult
  obtain rfl := Except.ok.inj (hok.symm.trans hdescriptor')
  exact hcount

/-- A published build is opened where its checkpoints are accepted and its products are named. -/
theorem openBuild_iff (h : PublishedBuild root selection chunks checkpoints results)
    (listed : List CheckpointDescriptor) :
    (∃ build, openBuild root (buildIdOf selection chunks checkpoints) = .ok build ∧
        build.checkpoints = listed) ↔
      (selection.restricts = true → ProductsNamed selection) ∧
        checkpoints.mapM (catalogCheckpoint root (sourceHashesOf chunks)) = .ok listed := by
  have hdecode : decodeManifest root (buildManifestPath (buildIdOf selection chunks checkpoints))
      buildManifestSchema = .ok (buildManifest selection chunks checkpoints results) := by
    refine decodeManifest_jsonFile h.manifest ?_
    split <;> rfl
  have hthere : root.documents.get? (buildManifestPath (buildIdOf selection chunks checkpoints)) ≠
      none := by
    rw [h.manifest]
    exact Option.some_ne_none _
  have hpartitionEntries : (buildManifest selection chunks checkpoints results).get? "partitions" =
      some (.list (results.map PartitionResult.buildEntry)) := by
    rw [buildManifest]
    split <;> rfl
  have hmanifest : ManifestOf (buildManifest selection chunks checkpoints results) selection chunks
      checkpoints := manifestOf_buildManifest
  obtain ⟨partitions, hpartitions, hcounts⟩ := exists_catalogPartitions h
  rw [openBuild, if_neg (by rw [isDigest_buildIdOf]; decide), if_neg hthere, hdecode]
  -- With named products the summary is read, and the checkpoints decide the rest.
  by_cases hnamed : selection.restricts = true → ProductsNamed selection
  · have hsummary : catalogSummary (buildManifest selection chunks checkpoints results)
        datasetVersion = .ok (publishedSummary selection chunks checkpoints results) :=
      (catalogSummary_iff h.entries).mpr ⟨hnamed, rfl⟩
    have hrows : (partitions.map PartitionDescriptor.rowCount).sum =
        (publishedSummary selection chunks checkpoints results).normalizedRows := by
      rw [hcounts]
      rfl
    have hid : (publishedSummary selection chunks checkpoints results).buildId =
        buildIdOf selection chunks checkpoints := rfl
    have hsources := mapM_uncompressedSha256 chunks
    simp only [bind, Except.bind] at hsources
    simp only [hsummary, hid, hpartitionEntries, hpartitions, hrows, hmanifest.rawSources,
      hmanifest.checkpoints, catalogArray, hsources, bind, Except.bind, ne_eq, not_true_eq_false,
      if_false]
    cases checkpoints.mapM (catalogCheckpoint root (sourceHashesOf chunks)) with
    | error e =>
      constructor
      · rintro ⟨build, hbuild, -⟩
        cases hbuild
      · rintro ⟨-, hlisted⟩
        cases hlisted
    | ok found =>
      constructor
      · rintro ⟨build, hbuild, rfl⟩
        obtain rfl := Except.ok.inj hbuild
        exact ⟨hnamed, rfl⟩
      · rintro ⟨-, hlisted⟩
        obtain rfl := Except.ok.inj hlisted
        exact ⟨_, rfl, rfl⟩
  · constructor
    · rintro ⟨build, hbuild, -⟩
      obtain ⟨document, hdocument, hbuild⟩ := except_bind_eq_ok hbuild
      obtain rfl := Except.ok.inj hdocument
      obtain ⟨summary, hsummary, -⟩ := except_bind_eq_ok hbuild
      exact absurd ((catalogSummary_iff h.entries).mp hsummary).1 hnamed
    · rintro ⟨hnamed', -⟩
      exact absurd hnamed' hnamed

/-! ## Every published build -/

/-- The documents of the checkpoint files of a data root. -/
def checkpointDocuments (root : DataRoot) : List Value :=
  (checkpointFiles root).map fun item => item.2.document.getD .null

/-- A build can be opened, and replay can seek to each checkpoint that it lists. -/
def Opens (root : DataRoot) (buildId : String) : Prop :=
  ∃ build, openBuild root buildId = .ok build ∧
    ∀ checkpoint ∈ build.checkpoints, Usable build.checkpoints checkpoint

/-- The products of a selection have names. Without a selection, every checkpoint file of the data
root has its sources in ascending order and among those of the build, it lists its intervals, and no
two have one id. -/
structure Openable (root : DataRoot) (selection : BuildSelection) (input : BuildInput) : Prop where
  named : selection.restricts = true → ProductsNamed selection
  lineage : selection.restricts = false → ∀ document ∈ checkpointDocuments root,
    LineageAccepted (sourceHashesOf input.chunks) document
  ids : selection.restricts = false →
    ((checkpointDocuments root).map fun document => document.get? "checkpoint_id").Nodup

/-- A listed entry is that of a file that restores. -/
theorem listed_of_checkpointEntryOf {item : String × JsonFile} {entry : Value}
    (hitem : item ∈ checkpointFiles root) (h : checkpointEntryOf item = .ok entry) :
    ∃ content document book, item.2.document = some document ∧
      ListedCheckpoint root item.1 content document book ∧
      entry = checkpointEntry item.1 content document := by
  obtain ⟨path, content, file⟩ := item
  rw [checkpointEntryOf] at h
  split at h
  · cases h
  · next restored hrestored =>
    obtain ⟨document, hdocument, hfacts⟩ := restored_of_restoreCheckpoint hrestored
    dsimp only at hdocument
    obtain rfl := hdocument
    obtain ⟨hmem, hpath⟩ := List.mem_filter.mp hitem
    refine ⟨content, document, restored.1, rfl, ⟨hpath, ?_, hfacts⟩, (Except.ok.inj h).symm⟩
    exact SortedDict.get?_eq_some_iff.mpr hmem

/-- A listed checkpoint stays listed when files are added. -/
theorem ListedCheckpoint.of_extends {path : String} {content : Bytes} {document : Value}
    {book : OrderBook} (h : ListedCheckpoint root path content document book)
    (hextends : root.Extends root') : ListedCheckpoint root' path content document book :=
  { h with file := hextends.documents _ _ h.file }

/-- A restored book has a symbol. -/
theorem symbol_ne_of_fromMapping {value : Value} {book : OrderBook}
    (h : OrderBook.fromMapping value = .ok book) : book.symbol ≠ "" := by
  unfold OrderBook.fromMapping at h
  split at h
  · cases h
  · obtain ⟨snapshot, -, h⟩ := except_bind_eq_ok h
    obtain rfl := Except.ok.inj h
    exact snapshot.symbol_ne

theorem marketText_ne (market : Market) : market.text ≠ "" := by
  cases market <;> decide

/-- The entry of a checkpoint file. -/
def entryOfFile (item : String × JsonFile) : Value :=
  checkpointEntry item.1 item.2.content (item.2.document.getD .null)

/-- The entries of a build are those of all its checkpoint files. -/
theorem eq_map_entryOfFile {entries : List Value} (h : checkpointEntries root = .ok entries) :
    entries = (checkpointFiles root).map entryOfFile := by
  refine Fallible.mapM_eq_map ?_ h
  intro item _ entry hentry
  rw [checkpointEntryOf] at hentry
  split at hentry
  · cases hentry
  · exact (Except.ok.inj hentry).symm

/-- Every checkpoint file of a root with entries is listed. -/
theorem listedCheckpoint_of_mem {entries : List Value} (h : checkpointEntries root = .ok entries)
    (hextends : root.Extends root') {item : String × JsonFile}
    (hitem : item ∈ checkpointFiles root) :
    ∃ book, ListedCheckpoint root' item.1 item.2.content (item.2.document.getD .null) book := by
  obtain ⟨entry, hentry⟩ := Fallible.exists_of_mapM_ok h hitem
  obtain ⟨content, document, book, -, hlisted, -⟩ := listed_of_checkpointEntryOf hitem hentry
  have hfile : item.2 = ⟨content, some document⟩ := by
    have hmem := (List.mem_filter.mp hitem).1
    exact Option.some.inj ((SortedDict.get?_eq_some_iff.mpr hmem).symm.trans hlisted.file)
  refine ⟨book, ?_⟩
  rw [hfile]
  exact hlisted.of_extends hextends

/-- The catalog accepts the entries of the checkpoint files where it accepts their lineage. -/
theorem exists_catalogCheckpoints_iff {entries : List Value}
    (h : checkpointEntries root = .ok entries) (hextends : root.Extends root')
    (buildHashes : List String) :
    (∃ listed, entries.mapM (catalogCheckpoint root' buildHashes) = .ok listed) ↔
      ∀ document ∈ checkpointDocuments root, LineageAccepted buildHashes document := by
  rw [eq_map_entryOfFile h, List.mapM_map]
  constructor
  · rintro ⟨listed, hok⟩ document hdocument
    obtain ⟨item, hitem, rfl⟩ := List.mem_map.mp hdocument
    obtain ⟨book, hbook⟩ := listedCheckpoint_of_mem h hextends hitem
    obtain ⟨descriptor, hdescriptor⟩ := Fallible.exists_of_mapM_ok hok hitem
    exact ((catalogCheckpoint_iff hbook buildHashes descriptor).mp hdescriptor).1
  · intro hall
    refine Fallible.exists_mapM_ok ?_
    intro item hitem
    obtain ⟨book, hbook⟩ := listedCheckpoint_of_mem h hextends hitem
    obtain ⟨checkpointId, hid, -⟩ := hbook.restored.checkpointId
    exact ⟨⟨checkpointId, book.market.text, book.symbol, book.updateId⟩,
      (catalogCheckpoint_iff hbook buildHashes _).mpr
        ⟨hall _ (List.mem_map_of_mem hitem), hid, rfl, rfl, rfl⟩⟩

/-- The checkpoints that the catalog reads have the ids of the documents, and all their texts. -/
theorem checkpointIds_of_catalog {entries : List Value} (h : checkpointEntries root = .ok entries)
    (hextends : root.Extends root') {buildHashes : List String} {listed : List CheckpointDescriptor}
    (hok : entries.mapM (catalogCheckpoint root' buildHashes) = .ok listed) :
    (listed.map fun checkpoint => some (Value.str checkpoint.checkpointId)) =
        (checkpointDocuments root).map (fun document => document.get? "checkpoint_id") ∧
      ∀ checkpoint ∈ listed, Named checkpoint := by
  rw [eq_map_entryOfFile h, List.mapM_map] at hok
  have hfacts : ∀ item ∈ checkpointFiles root, ∀ descriptor,
      catalogCheckpoint root' buildHashes (entryOfFile item) = .ok descriptor →
      some (Value.str descriptor.checkpointId) =
        (item.2.document.getD .null).get? "checkpoint_id" ∧ Named descriptor := by
    intro item hitem descriptor hdescriptor
    obtain ⟨book, hbook⟩ := listedCheckpoint_of_mem h hextends hitem
    obtain ⟨-, hid, hmarket, hsymbol, -⟩ :=
      (catalogCheckpoint_iff hbook buildHashes descriptor).mp hdescriptor
    obtain ⟨checkpointId, hid', hne⟩ := hbook.restored.checkpointId
    obtain ⟨items, -, hmapping⟩ := hbook.restored.mapping
    have heq := Value.str.inj (Option.some.inj (hid'.symm.trans hid))
    exact ⟨hid.symm, heq ▸ hne, hmarket ▸ marketText_ne _,
      hsymbol ▸ symbol_ne_of_fromMapping hmapping⟩
  constructor
  · rw [checkpointDocuments, List.map_map]
    exact Fallible.map_of_mapM_ok
      (fun item hitem descriptor hdescriptor => (hfacts item hitem descriptor hdescriptor).1) hok
  · intro checkpoint hmem
    obtain ⟨item, hitem, hdescriptor⟩ := (Fallible.mem_mapM_ok hok).mp hmem
    exact (hfacts item hitem checkpoint hdescriptor).2

/-- What publishing leaves behind: the entries that it listed, and the build in the data root. -/
theorem publishBuild_spec {parquet : Parquet} {input : BuildInput} {id : String}
    (h : publishBuild parquet root selection input = .ok (some (root', id))) :
    ∃ entries results, (selection.restricts = true → entries = []) ∧
      (selection.restricts = false → checkpointEntries root = .ok entries) ∧
      root.Extends root' ∧ id = buildIdOf selection input.chunks entries ∧
      PublishedBuild root' selection input.chunks entries results := by
  unfold publishBuild at h
  split at h
  · cases h
  obtain ⟨entries, hrestricted, hlisted, hrest⟩ : ∃ entries,
      (selection.restricts = true → entries = []) ∧
      (selection.restricts = false → checkpointEntries root = .ok entries) ∧
      (commitPartitions parquet root input.spools >>= fun committed =>
        Normalize.atomicJson committed.1
            (buildManifestPath (buildIdOf selection input.chunks entries))
            (buildManifest selection input.chunks entries committed.2) >>= fun last =>
          .ok (some (last, buildIdOf selection input.chunks entries))) =
            .ok (some (root', id)) := by
    dsimp only at h
    split at h
    · next hrestricts => exact ⟨[], fun _ => rfl, fun hfalse => by simp [hfalse] at hrestricts, h⟩
    · next hrestricts =>
      obtain ⟨entries, hentries, h⟩ := except_bind_eq_ok h
      exact ⟨entries, fun htrue => absurd htrue hrestricts, fun _ => hentries, h⟩
  obtain ⟨⟨middle, results⟩, hcommit, h⟩ := except_bind_eq_ok hrest
  obtain ⟨last, hatomic, h⟩ := except_bind_eq_ok h
  obtain ⟨rfl, rfl⟩ := Prod.mk.inj (Option.some.inj (Except.ok.inj h))
  obtain ⟨hextends, hcommitted⟩ := commitPartitions_spec hcommit
  obtain ⟨hextends', hmanifest⟩ := atomicJson_spec hatomic
  refine ⟨entries, results, hrestricted, hlisted, hextends.trans hextends', rfl, hmanifest,
    ⟨hrestricted, ?_⟩, ?_⟩
  · intro entry hentry
    cases hrestricts : selection.restricts with
    | true =>
      rw [hrestricted hrestricts] at hentry
      cases hentry
    | false =>
      obtain ⟨item, hitem, hok⟩ := (Fallible.mem_mapM_ok (hlisted hrestricts)).mp hentry
      obtain ⟨content, document, book, -, hcheckpoint, rfl⟩ := listed_of_checkpointEntryOf hitem hok
      exact identityOfCheckpoint_entry hcheckpoint.restored
  · intro result hresult
    obtain ⟨spool, hspool, statistics, hfacts⟩ := hcommitted result hresult
    refine ⟨_, catalogPartition_of_committed currentSummary_published
      (hfacts.of_extends hextends') ?_, rfl⟩
    intro hash hhash
    obtain ⟨chunk, -, rfl⟩ := input.hashes_mem spool hspool hash hhash
    exact chunk.uncompressedSha256_digest

section

variable {parquet : Parquet} {input : BuildInput} {id : String}

/-- **A published build opens exactly where its selection is named and its checkpoints can be
used.** -/
theorem opens_iff_usable {entries : List Value}
    (h : PublishedBuild root selection chunks entries results) :
    Opens root (buildIdOf selection chunks entries) ↔
      (selection.restricts = true → ProductsNamed selection) ∧ ∃ listed,
        entries.mapM (catalogCheckpoint root (sourceHashesOf chunks)) = .ok listed ∧
        ∀ checkpoint ∈ listed, Usable listed checkpoint := by
  constructor
  · rintro ⟨build, hopen, husable⟩
    obtain ⟨hnamed, hok⟩ := (openBuild_iff h build.checkpoints).mp ⟨build, hopen, rfl⟩
    exact ⟨hnamed, build.checkpoints, hok, husable⟩
  · rintro ⟨hnamed, listed, hok, husable⟩
    obtain ⟨build, hopen, rfl⟩ := (openBuild_iff h listed).mpr ⟨hnamed, hok⟩
    exact ⟨build, hopen, husable⟩

/-- Checkpoint ids are distinct exactly where their texts are. -/
theorem nodup_ids_iff (listed : List CheckpointDescriptor) :
    (listed.map CheckpointDescriptor.checkpointId).Nodup ↔
      (listed.map fun checkpoint => some (Value.str checkpoint.checkpointId)).Nodup := by
  have hinj : Function.Injective fun id : String => some (Value.str id) :=
    fun a b hab => Value.str.inj (Option.some.inj hab)
  rw [← List.nodup_map_iff hinj, List.map_map]
  rfl

/-- What opens was made of an openable selection and root. -/
theorem openable_of_opens (h : publishBuild parquet root selection input = .ok (some (root', id)))
    (hopens : Opens root' id) : Openable root selection input := by
  obtain ⟨entries, results, hrestricted, hlisted, hextends, rfl, hbuild⟩ := publishBuild_spec h
  obtain ⟨hnamed, listed, hok, husable⟩ := (opens_iff_usable hbuild).mp hopens
  refine ⟨hnamed, fun hrestricts => ?_, fun hrestricts => ?_⟩
  · exact (exists_catalogCheckpoints_iff (hlisted hrestricts) hextends _).mp ⟨listed, hok⟩
  · obtain ⟨hids, hnamed⟩ := checkpointIds_of_catalog (hlisted hrestricts) hextends hok
    rw [← hids, ← nodup_ids_iff]
    exact (forall_usable_iff hnamed).mp husable

/-- What was made of an openable selection and root opens. -/
theorem opens_of_openable (h : publishBuild parquet root selection input = .ok (some (root', id)))
    (hopenable : Openable root selection input) : Opens root' id := by
  obtain ⟨entries, results, hrestricted, hlisted, hextends, rfl, hbuild⟩ := publishBuild_spec h
  refine (opens_iff_usable hbuild).mpr ⟨hopenable.named, ?_⟩
  cases hrestricts : selection.restricts with
  | true =>
    rw [hrestricted hrestricts]
    exact ⟨[], rfl, by simp⟩
  | false =>
    obtain ⟨listed, hok⟩ := (exists_catalogCheckpoints_iff (hlisted hrestricts) hextends _).mpr
      (hopenable.lineage hrestricts)
    obtain ⟨hids, hnamed⟩ := checkpointIds_of_catalog (hlisted hrestricts) hextends hok
    refine ⟨listed, hok, (forall_usable_iff hnamed).mpr ?_⟩
    rw [nodup_ids_iff, hids]
    exact hopenable.ids hrestricts

end

/-- A published build can be opened, and its checkpoints used, exactly where it is openable. -/
theorem published_opens_iff (parquet : Parquet) (root root' : DataRoot) (selection : BuildSelection)
    (input : BuildInput) (id : String)
    (h : publishBuild parquet root selection input = .ok (some (root', id))) :
    Opens root' id ↔ Openable root selection input :=
  ⟨openable_of_opens h, opens_of_openable h⟩

/-! ## A checkpoint of a chunk that is gone -/

def publishedSnapshot : BookSnapshot where
  market := .spot
  symbol := "BTCUSDT"
  lastUpdateId := 7
  bids := []
  asks := []
  market_mem := spot_mem_bookMarkets
  symbol_ne := btcusdt_ne

def publishedBook : OrderBook := .ofSnapshot publishedSnapshot

def publishedBookItems : List (String × Value) := [
  ("asks", .list []),
  ("bids", .list []),
  ("market", .str "spot"),
  ("schema_version", .str "logical-orderbook.v1"),
  ("symbol", .str "BTCUSDT"),
  ("update_id", .int 7)]

/-- A checkpoint document with one source, under its own hash. -/
def publishedCheckpoint (source : String) : Value :=
  let start := [
    ("algorithm_version", Value.str reconstructorVersion),
    ("book", .dict publishedBookItems),
    ("book_hash", .str publishedBook.logicalHash),
    ("checkpoint_id", .str "checkpoint")]
  let rest := [
    ("collector_version", .str "1"),
    ("created_at_utc_ns", .int 1),
    ("schema_version", .str checkpointSchema),
    ("source_chunk_hashes", .list [.str source]),
    ("unreliable_intervals", .list [])]
  .dict (start ++ ("checkpoint_sha256", .str (documentHash (.dict (start ++ rest)))) :: rest)

/-- The checkpoint below restores, whatever its source. -/
theorem restoreCheckpoint_sample {source : String} (h : isDigest source = true) :
    restoreCheckpoint (some (publishedCheckpoint source)) = .ok (publishedBook, []) := by
  have hprovenance : validProvenance (publishedCheckpoint source) = true := by
    have hvalid : validProvenance (publishedCheckpoint source) = [source].all isDigest := rfl
    rw [hvalid, List.all_cons, h]
    rfl
  have hdict : (publishedCheckpoint source).isDict = true := rfl
  have hschema : (publishedCheckpoint source).get? "schema_version" =
    some (.str checkpointSchema) := rfl
  have halgorithm : (publishedCheckpoint source).get? "algorithm_version" =
      some (.str reconstructorVersion) := rfl
  have hsha : (publishedCheckpoint source).get? "checkpoint_sha256" =
      some (.str (documentHash (withoutKey (publishedCheckpoint source) "checkpoint_sha256"))) :=
        rfl
  have hbook : (publishedCheckpoint source).get? "book" = some (.dict publishedBookItems) := rfl
  have hmapping : OrderBook.fromMapping (.dict publishedBookItems) = .ok publishedBook := rfl
  have hbookHash : (publishedCheckpoint source).get? "book_hash" =
      some (.str publishedBook.logicalHash) := rfl
  have hintervals : checkpointIntervals ((publishedCheckpoint source).get? "unreliable_intervals") =
      some [] := rfl
  simp only [restoreCheckpoint, hdict, hschema, halgorithm, hprovenance, hsha, hbook, hmapping,
    hbookHash, hintervals, Bool.true_eq_false, ne_eq, not_true_eq_false, if_false]

def publishedPath : String := "data/checkpoints/book.orderbook.json"

/-- A data root with one checkpoint, which has the given source. -/
def publishedRoot (source : String) : DataRoot where
  documents := ⟨[(publishedPath, jsonFile (publishedCheckpoint source))],
    List.pairwise_singleton _ _⟩
  artifacts := .empty

def publishedSource : String := String.ofList (List.replicate 64 'a')

def otherSource : String := String.ofList (List.replicate 64 'b')

/-- A partition of one row. -/
def publishedSpool : PartitionSpool where
  market := "spot"
  stream := "agg_trade"
  date := "2024-02-29"
  hour := 12
  first := {
    document := .dict []
    duplicateCount := 1
    identityConflict := false
    receiveTimeUtcNs := 1709210096000000000
    sourceChunkSha256 := publishedSource
    sources := [publishedSource] }
  rest := []
  market_ne := by decide
  stream_ne := by decide
  date_ne := by decide

/-- One chunk, with a record. -/
def publishedInput : BuildInput where
  chunks := [{
    chunkId := "chunk"
    manifestRelativePath := "data/raw/chunk.manifest.json"
    manifestSha256 := publishedSource
    storedSha256 := publishedSource
    uncompressedSha256 := publishedSource
    chunkId_ne := by decide
    manifestSha256_digest := by decide
    storedSha256_digest := by decide
    uncompressedSha256_digest := by decide }]
  spools := [publishedSpool]
  hashes_mem := by
    intro spool hspool hash hhash
    obtain rfl := List.mem_singleton.mp hspool
    refine ⟨_, List.mem_singleton.mpr rfl, ?_⟩
    simpa [PartitionSpool.rowHashes, PartitionSpool.rows, publishedSpool, eq_comm] using hhash

/-- Files of one row. -/
def publishedParquet : Parquet where
  write _ _ _ := []
  read _ := [.dict []]

theorem checkpointFiles_sample (source : String) :
    checkpointFiles (publishedRoot source) =
      [(publishedPath, jsonFile (publishedCheckpoint source))] := by
  have hpath : isCheckpointPath publishedPath = true := by decide
  simp only [checkpointFiles, publishedRoot, List.filter_cons, hpath, if_true, List.filter_nil]

theorem checkpointDocuments_sample (source : String) :
    checkpointDocuments (publishedRoot source) = [publishedCheckpoint source] := by
  rw [checkpointDocuments, checkpointFiles_sample]
  rfl

theorem buildManifestPath_ne_publishedPath (id : String) :
    publishedPath ≠ buildManifestPath id := by
  intro h
  have hchar := congrArg (fun path => (path.toList.drop 5).head?) h
  simp only [buildManifestPath, normalizedRoot, String.toList_append] at hchar
  exact absurd (Option.some.inj hchar) (by decide)

/-- The path of the partition with one of its endings. -/
def publishedPartitionPath (ending : String) : String :=
  publishedSpool.directory ++ "/part-" ++ logicalRowsHash [.dict []] ++ ending

/-- Both paths are below the artifacts of the dataset. -/
theorem relativePath_publishedPartitionPath : ∀ ending ∈ [".parquet", ".manifest.json"],
    (relativePath (publishedPartitionPath ending)).toOption.map
      (fun path => ((path.toList.drop 5).head?, (path.toList.drop 38).head?)) =
        some (some 'n', some 'a') := by
  decide +kernel

/-- The partition is committed, and leaves the names of the builds free. -/
theorem exists_commitPartitions_sample (source : String) : ∃ root result,
    commitPartitions publishedParquet (publishedRoot source) [publishedSpool] =
        .ok (root, [result]) ∧
      ∀ id, root.documents.get? (buildManifestPath id) = none := by
  have hpath : ∀ ending ∈ [".parquet", ".manifest.json"], ∃ path,
      relativePath (publishedPartitionPath ending) = .ok path ∧
        (path.toList.drop 5).head? = some 'n' ∧ (path.toList.drop 38).head? = some 'a' := by
    intro ending hending
    have hchars := relativePath_publishedPartitionPath ending hending
    cases hlocated : relativePath (publishedPartitionPath ending) with
    | error e =>
      rw [hlocated] at hchars
      cases hchars
    | ok path =>
      rw [hlocated] at hchars
      obtain ⟨hn, ha⟩ := Prod.mk.inj (Option.some.inj hchars)
      exact ⟨path, rfl, hn, ha⟩
  obtain ⟨target, htarget, -⟩ := hpath ".parquet" (by simp)
  obtain ⟨manifestPath, hmanifestPath, hn, ha⟩ := hpath ".manifest.json" (by simp)
  have hother : publishedPath ≠ manifestPath := by
    rintro rfl
    exact absurd (Option.some.inj hn) (by decide)
  have hbuild : ∀ id, buildManifestPath id ≠ manifestPath := by
    rintro id rfl
    simp only [buildManifestPath, normalizedRoot, String.toList_append] at ha
    exact absurd (Option.some.inj ha) (by decide)
  obtain ⟨statistics, hstatistics, hhash, hcount⟩ : ∃ statistics,
      partitionStatistics publishedSpool = .ok statistics ∧
        statistics.logicalSha256 = logicalRowsHash [.dict []] ∧ statistics.rowCount = 1 :=
    ⟨_, rfl, rfl, rfl⟩
  have hartifact : partitionArtifact publishedParquet (publishedRoot source) publishedSpool
      statistics.logicalSha256 target =
        .ok ({ publishedRoot source with artifacts := .insert .empty target [] }, []) := by
    have hnone : (publishedRoot source).artifacts.get? target = none := rfl
    have hschema : ¬ hasSchema publishedSpool.market publishedSpool.stream = false := by decide
    have hread : ¬ logicalRowsHash (publishedParquet.read (publishedParquet.write
        publishedSpool.market publishedSpool.stream
          (publishedSpool.rows.map SpoolRow.document))) ≠ statistics.logicalSha256 :=
      not_not.mpr hhash.symm
    rw [partitionArtifact, hnone]
    dsimp only
    rw [if_neg hschema, if_neg hread]
    rfl
  have hatomic : ∀ document, Normalize.atomicJson
      { publishedRoot source with artifacts := .insert .empty target [] } manifestPath document =
        .ok {
          documents := (publishedRoot source).documents.insert manifestPath (jsonFile document)
          artifacts := .insert .empty target [] } := by
    intro document
    have hnone : (publishedRoot source).documents.get? manifestPath = none := by
      simp only [publishedRoot, SortedDict.get?, SortedDict.find, if_neg hother.symm]
    rw [Normalize.atomicJson]
    dsimp only
    rw [hnone]
  have hrows : ¬ (logicalRowsHash (publishedParquet.read []) ≠ statistics.logicalSha256 ∨
      (publishedParquet.read []).length ≠ statistics.rowCount) := by
    rw [hhash, hcount]
    exact fun h => h.elim (fun hne => hne rfl) fun hne => hne rfl
  have htarget' : relativePath (publishedSpool.directory ++ "/part-" ++ statistics.logicalSha256 ++
      ".parquet") = .ok target := by
    rw [hhash]
    exact htarget
  have hmanifestPath' : relativePath (publishedSpool.directory ++ "/part-" ++
      statistics.logicalSha256 ++ ".manifest.json") = .ok manifestPath := by
    rw [hhash]
    exact hmanifestPath
  have hcommit := commitPartition.eq_1 publishedParquet (publishedRoot source) publishedSpool
  rw [hstatistics] at hcommit
  simp only [bind, Except.bind, htarget', hmanifestPath', hartifact, if_neg hrows, hatomic]
    at hcommit
  refine ⟨_, _, by rw [commitPartitions, hcommit]; rfl, fun id => ?_⟩
  show ((publishedRoot source).documents.insert manifestPath _).get? (buildManifestPath id) = none
  rw [SortedDict.get?_insert, if_neg (hbuild id)]
  simp only [publishedRoot, SortedDict.get?, SortedDict.find,
    if_neg (buildManifestPath_ne_publishedPath id).symm]

/-- The build of the sample is published, whatever the source of the checkpoint is. -/
theorem exists_publishBuild_sample {source : String} (h : isDigest source = true) :
    ∃ root' id, publishBuild publishedParquet (publishedRoot source) {} publishedInput =
      .ok (some (root', id)) := by
  have hentries : checkpointEntries (publishedRoot source) =
      .ok [entryOfFile (publishedPath, jsonFile (publishedCheckpoint source))] := by
    rw [checkpointEntries, checkpointFiles_sample]
    refine Fallible.mapM_cons_of_ok ?_ rfl
    have hrestore : restoreCheckpoint (jsonFile (publishedCheckpoint source)).document =
      .ok (publishedBook, []) := restoreCheckpoint_sample h
    rw [checkpointEntryOf]
    simp only [hrestore]
    rfl
  obtain ⟨root, result, hcommit, hfree⟩ := exists_commitPartitions_sample source
  have hatomic : ∀ id document, Normalize.atomicJson root (buildManifestPath id) document =
      .ok { root with
        documents := root.documents.insert (buildManifestPath id) (jsonFile document) } := by
    intro id document
    rw [Normalize.atomicJson, hfree]
  have hchunks : publishedInput.chunks ≠ [] := List.cons_ne_nil _ _
  have hrestricts : ¬ ({} : BuildSelection).restricts = true := by decide
  have hspools : commitPartitions publishedParquet (publishedRoot source) publishedInput.spools =
      .ok (root, [result]) := hcommit
  have hpublish := publishBuild.eq_1 publishedParquet (publishedRoot source) {} publishedInput
  rw [if_neg hchunks] at hpublish
  simp only [if_neg hrestricts, hentries, hspools, hatomic, bind, Except.bind] at hpublish
  exact ⟨_, _, hpublish⟩

/-- The checkpoint of a chunk that is not part of the build makes the build one that
cannot be opened. -/
theorem published_not_opened :
    ¬ ∀ (parquet : Parquet) (root root' : DataRoot) (selection : BuildSelection)
      (input : BuildInput) (id : String),
      publishBuild parquet root selection input = .ok (some (root', id)) → Opens root' id := by
  intro h
  have hdigest : isDigest otherSource = true := by decide
  obtain ⟨root', id, hpublish⟩ := exists_publishBuild_sample hdigest
  have hopenable := openable_of_opens hpublish (h _ _ _ _ _ _ hpublish)
  have hlineage := hopenable.lineage rfl (publishedCheckpoint otherSource)
    (by rw [checkpointDocuments_sample]; simp)
  have hmem := hlineage.inBuild [otherSource] rfl (List.mem_singleton.mpr rfl)
  exact absurd hmem (by decide)

/-- With a checkpoint of the chunk itself, the build is opened, its partition with it. -/
theorem published_opens_sample :
    ∃ root' id, publishBuild publishedParquet (publishedRoot publishedSource) {} publishedInput =
      .ok (some (root', id)) ∧ Opens root' id := by
  have hdigest : isDigest publishedSource = true := by decide
  obtain ⟨root', id, hpublish⟩ := exists_publishBuild_sample hdigest
  refine ⟨root', id, hpublish, (published_opens_iff _ _ _ _ _ _ hpublish).mpr ?_⟩
  have hlineage : LineageAccepted (sourceHashesOf publishedInput.chunks)
      (publishedCheckpoint publishedSource) := by
    constructor
    · rintro hashes hhashes
      obtain rfl : [publishedSource] = hashes := Option.some.inj hhashes
      exact List.pairwise_singleton _ _
    · rintro hashes hhashes
      obtain rfl : [publishedSource] = hashes := Option.some.inj hhashes
      exact List.Subset.refl _
    · rfl
  refine ⟨fun habsurd => absurd habsurd (by decide), fun _ => ?_, fun _ => ?_⟩
  · rw [checkpointDocuments_sample, List.forall_mem_singleton]
    exact hlineage
  · rw [checkpointDocuments_sample]
    exact List.nodup_singleton _

end MarketDataRecorder
