import MarketDataRecorder.Replay.AcceptedPartitions
import MarketDataRecorder.Replay.Reader

/-!
# Accepted checkpoints

A checkpoint that `restore` accepts, before the catalog: of all that the catalog checks, the lineage
alone is open.

* `checkpointLineage_iff` — what the catalog asks of the lineage
* `catalogCheckpoint_iff` — a listed checkpoint is accepted where its lineage is
* `forall_usable_iff` — replay finds every checkpoint where no two have one id
-/

namespace MarketDataRecorder

variable {root root' : DataRoot}

/-! ## Checkpoints -/

/-- What `restore` finds in a document that it accepts. -/
structure Restored (document : Value) (book : OrderBook) : Prop where
  isDict : document.isDict = true
  schema : document.get? "schema_version" = some (.str checkpointSchema)
  algorithm : document.get? "algorithm_version" = some (.str reconstructorVersion)
  checkpointId : ∃ checkpointId, document.get? "checkpoint_id" = some (.str checkpointId) ∧
    checkpointId ≠ ""
  createdAt : ∃ createdAt : Nat, document.get? "created_at_utc_ns" = some (.int createdAt)
  sources : ∃ hashes, document.get? "source_chunk_hashes" = some (.list (hashes.map .str)) ∧
    sourceHashes document = some hashes ∧ ∀ hash ∈ hashes, isDigest hash = true
  checkpointSha256 : document.get? "checkpoint_sha256" =
    some (.str (documentHash (withoutKey document "checkpoint_sha256")))
  mapping : ∃ items, document.get? "book" = some (.dict items) ∧
    OrderBook.fromMapping (.dict items) = .ok book
  bookHash : document.get? "book_hash" = some (.str book.logicalHash)
  intervals : ∃ intervals, checkpointIntervals (document.get? "unreliable_intervals") =
    some intervals

theorem eq_map_of_mapM_textOfValue : ∀ {items : List Value} {texts : List String},
    items.mapM textOfValue = some texts → items = texts.map .str
  | [], texts, h => by
    obtain rfl : [] = texts := Option.some.inj h
    rfl
  | value :: items, texts, h => by
    rw [List.mapM_cons] at h
    obtain ⟨text, htext, h⟩ := Option.bind_eq_some_iff.mp h
    obtain ⟨rest, hrest, h⟩ := Option.bind_eq_some_iff.mp h
    obtain rfl := Option.some.inj h
    have hvalue : value = .str text := by
      cases value with
      | str _ => exact congrArg Value.str (Option.some.inj htext)
      | _ => cases htext
    rw [hvalue, eq_map_of_mapM_textOfValue hrest, List.map_cons]

theorem provenance_of_valid {document : Value} (h : validProvenance document = true) :
    (∃ checkpointId, document.get? "checkpoint_id" = some (.str checkpointId) ∧ checkpointId ≠ "") ∧
    (∃ createdAt : Nat, document.get? "created_at_utc_ns" = some (.int createdAt)) ∧
    ∃ hashes, document.get? "source_chunk_hashes" = some (.list (hashes.map .str)) ∧
      sourceHashes document = some hashes ∧ ∀ hash ∈ hashes, isDigest hash = true := by
  unfold validProvenance at h
  split at h
  · next checkpointId collectorVersion createdAt hashes hid _ hcreated hhashes =>
    simp only [Bool.and_eq_true, List.all_eq_true, decide_eq_true_eq] at h
    obtain ⟨⟨⟨hne, -⟩, -⟩, hdigests⟩ := h
    refine ⟨⟨checkpointId, hid, hne⟩, ⟨createdAt, hcreated⟩, hashes, ?_, hhashes, hdigests⟩
    unfold sourceHashes at hhashes
    split at hhashes
    · next items hitems => rw [hitems, ← eq_map_of_mapM_textOfValue hhashes]
    · cases hhashes
  · cases h

theorem restored_of_restoreCheckpoint {file : Option Value} {book : OrderBook}
    {intervals : List UnreliableInterval} (h : restoreCheckpoint file = .ok (book, intervals)) :
    ∃ document, file = some document ∧ Restored document book := by
  cases file with
  | none => cases h
  | some document =>
    refine ⟨document, rfl, ?_⟩
    simp only [restoreCheckpoint] at h
    split at h
    · cases h
    next hdict =>
    split at h
    · cases h
    next hschema =>
    split at h
    · cases h
    next halgorithm =>
    split at h
    · cases h
    next hprovenance =>
    split at h
    · cases h
    next hsha =>
    split at h
    · next items hbook =>
      split at h
      · cases h
      · next book' hmapping =>
        split at h
        · cases h
        next hhash =>
        split at h
        · cases h
        · next intervals' hintervals =>
          obtain ⟨rfl, rfl⟩ := Prod.mk.inj (Except.ok.inj h)
          obtain ⟨hid, hcreated, hsources⟩ :=
            provenance_of_valid (Bool.not_eq_false _ ▸ hprovenance)
          exact {
            isDict := Bool.not_eq_false _ ▸ hdict
            schema := not_not.mp hschema
            algorithm := not_not.mp halgorithm
            checkpointId := hid
            createdAt := hcreated
            sources := hsources
            checkpointSha256 := not_not.mp hsha
            mapping := ⟨items, hbook, hmapping⟩
            bookHash := not_not.mp hhash
            intervals := ⟨intervals', hintervals⟩ }
    · cases h

/-- The sources of a checkpoint are as the catalog demands them: in ascending order and among the
sources of the build, and its intervals are there. -/
structure LineageAccepted (buildHashes : List String) (document : Value) : Prop where
  ascending : ∀ hashes ∈ sourceHashes document, hashes.Pairwise (· < ·)
  inBuild : ∀ hashes ∈ sourceHashes document, hashes ⊆ buildHashes
  intervals : (document.get? "unreliable_intervals").isSome

theorem isDict_of_checkpointInterval {value : Value} {interval : UnreliableInterval}
    (h : checkpointInterval value = some interval) : value.isDict = true := by
  cases value with
  | dict items => rfl
  | _ => cases h

theorem mapM_catalogObject {name : String} : ∀ {items : List Value}
    {intervals : List UnreliableInterval}, items.mapM checkpointInterval = some intervals →
    items.mapM (fun value => catalogObject value name) = .ok items
  | [], _, _ => rfl
  | value :: items, intervals, h => by
    rw [List.mapM_cons] at h
    obtain ⟨interval, hinterval, h⟩ := Option.bind_eq_some_iff.mp h
    obtain ⟨rest, hrest, -⟩ := Option.bind_eq_some_iff.mp h
    refine Fallible.mapM_cons_of_ok ?_ (mapM_catalogObject hrest)
    rw [catalogObject, if_pos (isDict_of_checkpointInterval hinterval)]

/-- Of a checkpoint that `restore` accepts, the catalog asks for its lineage. -/
theorem checkpointLineage_iff {document : Value} {book : OrderBook} (h : Restored document book)
    (path : String) (content : Bytes) (buildHashes : List String) :
    checkpointLineage document (checkpointEntry path content document) buildHashes = .ok () ↔
      LineageAccepted buildHashes document := by
  obtain ⟨hashes, hlist, hhashes, hdigests⟩ := h.sources
  obtain ⟨createdAt, hcreated⟩ := h.createdAt
  obtain ⟨intervals, hintervals⟩ := h.intervals
  have hentry : (checkpointEntry path content document).get? "source_chunk_hashes" =
      some (.list (hashes.map .str)) := by
    have hget : (checkpointEntry path content document).get? "source_chunk_hashes" =
      some (fieldOrNull document "source_chunk_hashes") := rfl
    rw [hget, fieldOrNull, hlist, Option.getD_some]
  have halgorithm : catalogText document "algorithm_version" = .ok reconstructorVersion :=
    catalogText_of_get? h.algorithm (by decide)
  have hcreatedAt := catalogInteger_of_get? hcreated
  rw [checkpointLineage, hlist]
  -- The checks in the reader's order: sorted digests, then their membership, then the intervals.
  by_cases hsorted : hashes.Pairwise (· < ·)
  swap
  · constructor
    · intro heq
      obtain ⟨result, hresult, -⟩ := except_bind_eq_ok heq
      exact absurd ((catalogShaList_iff hdigests).mp hresult).1 hsorted
    · intro haccepted
      exact absurd (haccepted.ascending hashes hhashes) hsorted
  have hsha := (@catalogShaList_iff "source_chunk_hashes" _ hashes hdigests).mpr ⟨hsorted, rfl⟩
  simp only [hsha, bind, Except.bind]
  by_cases hsubset : hashes ⊆ buildHashes
  swap
  · rw [if_pos hsubset]
    constructor
    · rintro ⟨⟩
    · intro haccepted
      exact absurd (haccepted.inBuild hashes hhashes) hsubset
  rw [if_neg (not_not.mpr hsubset), if_neg (not_not.mpr hentry)]
  cases hget : document.get? "unreliable_intervals" with
  | none =>
    constructor
    · rintro ⟨⟩
    · intro haccepted
      have := haccepted.intervals
      rw [hget] at this
      cases this
  | some value =>
    rw [hget] at hintervals
    have haccepted : LineageAccepted buildHashes document := {
      ascending := by
        intro hashes' hhashes'
        obtain rfl := Option.some.inj (hhashes.symm.trans hhashes')
        exact hsorted
      inBuild := by
        intro hashes' hhashes'
        obtain rfl := Option.some.inj (hhashes.symm.trans hhashes')
        exact hsubset
      intervals := by rw [hget]; rfl }
    refine iff_of_true ?_ haccepted
    cases value with
    | list items =>
      have hitems := @mapM_catalogObject "gap interval" _ _ hintervals
      simp only [catalogArray, hitems, halgorithm, hcreatedAt]
      rfl
    | _ => cases hintervals

theorem safePath_of_isCheckpointPath {path : String} (h : isCheckpointPath path = true) :
    safePath (some (.str path)) = .ok path := by
  rw [isCheckpointPath, Bool.and_eq_true] at h
  obtain ⟨hdirectory, hname⟩ := h
  simp only [Bool.and_eq_true, Bool.not_eq_true', List.contains_eq_mem, decide_eq_false_iff_not]
    at hname
  obtain ⟨hsuffix, hnoSlash⟩ := hname
  obtain ⟨name, hpath⟩ := List.isPrefixOf_iff_prefix.mp hdirectory
  have hdrop : path.toList.drop "data/checkpoints/".length = name := by
    rw [← hpath]
    rfl
  rw [hdrop] at hsuffix hnoSlash
  obtain ⟨start, hstart⟩ := List.isSuffixOf_iff_suffix.mp hsuffix
  have hlength : 15 ≤ name.length := by
    have : ".orderbook.json".toList.length = 15 := by decide
    rw [← hstart, List.length_append, this]
    omega
  have hisName : RelativePath.IsName name := {
    ne_nil := by rintro rfl; simp at hlength
    ne_dot := by rintro rfl; simp at hlength
    ne_dots := by rintro rfl; simp at hlength
    noSlash := hnoSlash }
  have hdata : RelativePath.IsName "data".toList := ⟨by decide, by decide, by decide, by decide⟩
  have hcheckpoints : RelativePath.IsName "checkpoints".toList :=
    ⟨by decide, by decide, by decide, by decide⟩
  have hnames : ∀ part ∈ ["data".toList, "checkpoints".toList, name],
      RelativePath.IsName part := by
    simp only [List.forall_mem_cons]
    exact ⟨hdata, hcheckpoints, hisName, by simp⟩
  have hjoin : path.toList = RelativePath.join ["data".toList, "checkpoints".toList, name] := by
    rw [← hpath]
    rfl
  have hlocate : RelativePath.locate path = some path := by
    rw [RelativePath.locate, hjoin, if_neg (RelativePath.head?_join hdata),
      RelativePath.split_join (by simp) fun part hpart => (hnames part hpart).noSlash,
      RelativePath.walk_of_isName hnames, ← String.ofList_toList (s := path), hjoin]
    rfl
  have hne : path ≠ "" := by
    rintro rfl
    cases hjoin
  rw [safePath, if_neg hne, hlocate]

/-- A checkpoint file that is there, with its document. -/
structure ListedCheckpoint (root : DataRoot) (path : String) (content : Bytes) (document : Value)
    (book : OrderBook) : Prop where
  isPath : isCheckpointPath path = true
  file : root.documents.get? path = some ⟨content, some document⟩
  restored : Restored document book

theorem checkpointDocument_of_listed {path : String} {content : Bytes} {document : Value}
    {book : OrderBook} (h : ListedCheckpoint root path content document book) :
    checkpointDocument root (checkpointEntry path content document) = .ok document := by
  have hpath : safePath ((checkpointEntry path content document).get? "relative_path") = .ok path :=
    safePath_of_isCheckpointPath h.isPath
  have hsha : catalogSha256 (checkpointEntry path content document) "file_sha256" =
      .ok (Checksum.sha256Hex content) := catalogSha256_of_get? rfl (isDigest_sha256Hex content)
  rw [checkpointDocument]
  simp only [hpath, h.file, hsha, h.restored.isDict, h.restored.schema, h.restored.algorithm, bind,
    Except.bind, ne_eq, not_true_eq_false, if_false, Bool.true_eq_false]
  rfl

theorem checkpointIdentity_of_restored {document : Value} {book : OrderBook}
    (h : Restored document book) {checkpointId : String}
    (hid : document.get? "checkpoint_id" = some (.str checkpointId)) (hne : checkpointId ≠ "")
    (path : String) (content : Bytes) :
    checkpointIdentity document (checkpointEntry path content document) = .ok checkpointId := by
  have hentryId : (checkpointEntry path content document).get? "checkpoint_id" =
      some (.str checkpointId) := by
    have hget : (checkpointEntry path content document).get? "checkpoint_id" =
      some (fieldOrNull document "checkpoint_id") := rfl
    rw [hget, fieldOrNull, hid, Option.getD_some]
  have hentrySha : (checkpointEntry path content document).get? "checkpoint_sha256" =
      some (.str (documentHash (withoutKey document "checkpoint_sha256"))) := by
    have hget : (checkpointEntry path content document).get? "checkpoint_sha256" =
      some (fieldOrNull document "checkpoint_sha256") := rfl
    rw [hget, fieldOrNull, h.checkpointSha256, Option.getD_some]
  rw [checkpointIdentity, catalogText_of_get? hid hne, catalogText_of_get? hentryId hne,
    catalogSha256_of_get? h.checkpointSha256 (isDigest_documentHash _)]
  simp only [bind, Except.bind, hentrySha, ne_eq, not_true_eq_false, if_false]
  rfl

theorem checkpointBook_of_restored {document : Value} {book : OrderBook}
    (h : Restored document book) (path : String) (content : Bytes) :
    checkpointBook document (checkpointEntry path content document) = .ok book := by
  obtain ⟨items, hitems, hmapping⟩ := h.mapping
  have hentry : (checkpointEntry path content document).get? "book_hash" =
      some (.str book.logicalHash) := by
    have hget : (checkpointEntry path content document).get? "book_hash" =
      some (fieldOrNull document "book_hash") := rfl
    rw [hget, fieldOrNull, h.bookHash, Option.getD_some]
  rw [checkpointBook, hitems]
  simp only [hmapping, catalogSha256_of_get? h.bookHash (isDigest_sha256Hex _), hentry, bind,
    Except.bind, ne_eq, not_true_eq_false, or_self, if_false]
  rfl

/-- A listed checkpoint is accepted where its lineage is, under its own id. -/
theorem catalogCheckpoint_iff {path : String} {content : Bytes} {document : Value}
    {book : OrderBook} (h : ListedCheckpoint root path content document book)
    (buildHashes : List String) (descriptor : CheckpointDescriptor) :
    catalogCheckpoint root buildHashes (checkpointEntry path content document) = .ok descriptor ↔
      LineageAccepted buildHashes document ∧
        document.get? "checkpoint_id" = some (.str descriptor.checkpointId) ∧
        descriptor.market = book.market.text ∧ descriptor.symbol = book.symbol ∧
        descriptor.updateId = book.updateId := by
  obtain ⟨checkpointId, hid, hne⟩ := h.restored.checkpointId
  have hentry : catalogObject (checkpointEntry path content document) "checkpoint entry" =
      .ok (checkpointEntry path content document) := rfl
  rw [catalogCheckpoint, hentry]
  simp only [checkpointDocument_of_listed h, checkpointIdentity_of_restored h.restored hid hne,
    checkpointBook_of_restored h.restored, bind, Except.bind]
  rw [← checkpointLineage_iff h.restored path content buildHashes, hid]
  cases checkpointLineage document (checkpointEntry path content document) buildHashes with
  | error e => simp
  | ok u =>
    constructor
    · intro heq
      obtain rfl := Except.ok.inj heq
      exact ⟨rfl, rfl, rfl, rfl, rfl⟩
    · rintro ⟨-, hidEq, hmarket, hsymbol, hupdate⟩
      obtain ⟨id, market, symbol, updateId⟩ := descriptor
      dsimp only at hidEq hmarket hsymbol hupdate
      obtain rfl := Value.str.inj (Option.some.inj hidEq)
      rw [hmarket, hsymbol, hupdate]
      rfl

/-! ## Using a checkpoint -/

/-- A query for the depth updates of a checkpoint's market and symbol, from it on. -/
structure Seeks (query : ReplayQuery) (checkpoint : CheckpointDescriptor) : Prop where
  checkpointId : query.checkpointId = some checkpoint.checkpointId
  markets : query.markets = [checkpoint.market]
  streams : query.streams = ["diff_depth"]
  symbol : query.symbol = checkpoint.symbol

/-- There are queries that seek a checkpoint, and replay finds it for each of them. -/
structure Usable (listed : List CheckpointDescriptor) (checkpoint : CheckpointDescriptor) :
    Prop where
  exists_seeks : ∃ query, Seeks query checkpoint
  found : ∀ query : ReplayQuery, Seeks query checkpoint →
    query.checkpointFor listed = .ok (some checkpoint)

/-- The texts of a checkpoint are there. -/
structure Named (checkpoint : CheckpointDescriptor) : Prop where
  checkpointId : checkpoint.checkpointId ≠ ""
  market : checkpoint.market ≠ ""
  symbol : checkpoint.symbol ≠ ""

theorem exists_seeks_of_named {checkpoint : CheckpointDescriptor} (h : Named checkpoint) :
    ∃ query, Seeks query checkpoint := by
  let query : ReplayQuery := {
    markets := [checkpoint.market]
    streams := ["diff_depth"]
    symbol := checkpoint.symbol
    checkpointId := some checkpoint.checkpointId
    filters_ne := by
      simp only [List.cons_append, List.nil_append, List.forall_mem_cons]
      exact ⟨h.market, by decide, by simp⟩
    markets_nodup := List.nodup_singleton _
    symbol_ne := h.symbol
    checkpointId_ne := fun hid => h.checkpointId (Option.some.inj hid) }
  exact ⟨query, rfl, rfl, rfl, rfl⟩

variable {listed : List CheckpointDescriptor} {checkpoint : CheckpointDescriptor}
  {query : ReplayQuery}

/-- A checkpoint is found exactly where no other one has its id. -/
theorem checkpointFor_iff (hquery : Seeks query checkpoint) :
    query.checkpointFor listed = .ok (some checkpoint) ↔
      (listed.filter fun other => decide (other.checkpointId = checkpoint.checkpointId)) =
        [checkpoint] := by
  rw [ReplayQuery.checkpointFor, hquery.checkpointId]
  constructor
  · intro h
    dsimp only at h
    split at h
    · next found hfound =>
      split at h
      · cases h
      · rw [hfound, Option.some.inj (Except.ok.inj h)]
    · cases h
  · intro h
    simp only [h, hquery.markets, hquery.streams, hquery.symbol, ne_eq, not_true_eq_false, or_self,
      if_false]

theorem forall_usable_iff (hnamed : ∀ checkpoint ∈ listed, Named checkpoint) :
    (∀ checkpoint ∈ listed, Usable listed checkpoint) ↔
      (listed.map CheckpointDescriptor.checkpointId).Nodup := by
  have hcount : ∀ checkpoint ∈ listed,
      (listed.map CheckpointDescriptor.checkpointId).count checkpoint.checkpointId =
        (listed.filter fun other =>
          decide (other.checkpointId = checkpoint.checkpointId)).length := by
    intro checkpoint _
    rw [List.count, List.countP_map, List.countP_eq_length_filter]
    rfl
  rw [List.nodup_iff_count_eq_one]
  constructor
  · intro h id hid
    obtain ⟨checkpoint, hmem, rfl⟩ := List.mem_map.mp hid
    obtain ⟨query, hquery⟩ := (h checkpoint hmem).exists_seeks
    rw [hcount checkpoint hmem,
      (checkpointFor_iff hquery).mp ((h checkpoint hmem).found query hquery)]
    rfl
  · intro h checkpoint hmem
    refine ⟨exists_seeks_of_named (hnamed checkpoint hmem), fun query hquery => ?_⟩
    rw [checkpointFor_iff hquery]
    have hone := h checkpoint.checkpointId (List.mem_map_of_mem hmem)
    rw [hcount checkpoint hmem] at hone
    obtain ⟨found, hfound⟩ := List.length_eq_one_iff.mp hone
    have hin : checkpoint ∈ [found] := by
      rw [← hfound]
      exact List.mem_filter.mpr ⟨hmem, decide_eq_true rfl⟩
    rw [hfound, List.mem_singleton.mp hin]

end MarketDataRecorder
