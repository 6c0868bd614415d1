import MarketDataRecorder.Audit.BoundaryView
import MarketDataRecorder.Audit.StreamReports

/-!
# The incremental audit is the full audit

Observations one after another, each resumed from the document of the one before, report together
what one audit over all chunks reports: the transitions, and for each stream the counts. A stream
does not see how the chunks of the others come in between: within it the chunks come in the order of
their creation, and what a document keeps of it is its end.

Which chunks an observation sees is up to the rows that the Catalog has then, and a chunk that no
row names is not seen. An observation comes to no end where a loss cannot be classified.

* `incrementalAudit_reports` — what one observation reports, and what it leaves to the next one
* `incremental_eq_full` — the observations of a sequence add up to the audit of it
* `unnamed_chunk_not_reported` — a chunk that no row names is audited by the full audit alone
-/

namespace MarketDataRecorder

variable {intervals : List CatalogGapInterval} {emit : Option (List String)} {files : RawFiles}

/-! ## Manifest files -/

/-- A manifest under the data root, and the chunk that it is of. -/
structure ManifestFile where
  path : String
  bytes : Bytes
  chunk : SealedChunk

/-- What an observation reads of it. -/
def ManifestFile.row (file : ManifestFile) : ManifestRow :=
  ⟨file.path, Checksum.sha256Hex file.bytes, file.chunk.manifest.document⟩

/-- Manifests of sealed chunks with all Raw there, within each stream in the order of creation. -/
structure ObservedFiles (files : RawFiles) (l : List ManifestFile) : Prop where
  nodupPaths : (l.map ManifestFile.path).Nodup
  nodupChunks : (l.map fun file => file.chunk.chunkId).Nodup
  path_ne : ∀ file ∈ l, file.path ≠ ""
  strict : ∀ file ∈ l, file.chunk.Strict
  raw : ∀ file ∈ l, file.chunk.relativePath ≠ "" ∧
    files.read file.chunk.relativePath = some (.ok file.chunk.envelopes)
  ordered : l.Pairwise fun a b => a.chunk.identity = b.chunk.identity → a.row.before b.row

/-- The chunks of a stream. -/
def streamChunks (stream : StreamIdentity) (l : List ManifestFile) : List SealedChunk :=
  (l.map ManifestFile.chunk).filter fun c => c.identity = stream

theorem streamChunks_append (stream : StreamIdentity) (l l' : List ManifestFile) :
    streamChunks stream (l ++ l') = streamChunks stream l ++ streamChunks stream l' := by
  rw [streamChunks, List.map_append, List.filter_append]
  rfl

/-- The chunks of a stream are those of its files with its identity. -/
theorem mem_streamChunks {stream : StreamIdentity} {l : List ManifestFile} {c : SealedChunk} :
    c ∈ streamChunks stream l ↔ ∃ file ∈ l, file.chunk = c ∧ c.identity = stream := by
  rw [streamChunks, List.mem_filter, List.mem_map, decide_eq_true_eq]
  constructor
  · rintro ⟨⟨file, hmem, hchunk⟩, hidentity⟩
    exact ⟨file, hmem, hchunk, hidentity⟩
  · rintro ⟨file, hmem, hchunk, hidentity⟩
    exact ⟨⟨file, hmem, hchunk⟩, hidentity⟩

namespace ObservedFiles

variable {files : RawFiles} {l l' : List ManifestFile}

/-- What is observed of all the files is observed of the first ones. -/
theorem left (h : ObservedFiles files (l ++ l')) : ObservedFiles files l where
  nodupPaths := by
    have hnodup := h.nodupPaths
    rw [List.map_append] at hnodup
    exact hnodup.of_append_left
  nodupChunks := by
    have hnodup := h.nodupChunks
    rw [List.map_append] at hnodup
    exact hnodup.of_append_left
  path_ne := fun file hfile => h.path_ne file (List.mem_append_left _ hfile)
  strict := fun file hfile => h.strict file (List.mem_append_left _ hfile)
  raw := fun file hfile => h.raw file (List.mem_append_left _ hfile)
  ordered := (List.pairwise_append.mp h.ordered).1

end ObservedFiles

/-! ## The order of an observation -/

section

variable {l done part : List ManifestFile}

/-- The manifests in the order in which an observation goes through them. -/
def sortedFiles (l : List ManifestFile) : List ManifestFile :=
  l.insertionSort fun a b => a.row.before b.row

/-- Those that no earlier observation has seen. -/
def newFiles (done part : List ManifestFile) : List ManifestFile :=
  (sortedFiles (done ++ part)).filter fun file => file.path ∉ done.map ManifestFile.path

/-- Any two manifest rows are in the manifest order. -/
theorem before_total (a b : ManifestRow) : a.before b ∨ b.before a := by
  unfold ManifestRow.before
  rcases lt_trichotomy (manifestCreatedAt a.manifest) (manifestCreatedAt b.manifest) with h | h | h
  · exact Or.inl (Or.inl h)
  · rcases le_total (manifestText a.manifest "chunk_id") (manifestText b.manifest "chunk_id")
      with hid | hid
    · exact Or.inl (Or.inr ⟨h, hid⟩)
    · exact Or.inr (Or.inr ⟨h.symm, hid⟩)
  · exact Or.inr (Or.inl h)

/-- The manifest order is transitive. -/
theorem before_trans {a b c : ManifestRow} (hab : a.before b) (hbc : b.before c) : a.before c := by
  unfold ManifestRow.before at *
  rcases hab with hab | ⟨hab, hid⟩
  · rcases hbc with hbc | ⟨hbc, -⟩
    · exact Or.inl (hab.trans hbc)
    · exact Or.inl (hbc ▸ hab)
  · rcases hbc with hbc | ⟨hbc, hid'⟩
    · exact Or.inl (hab ▸ hbc)
    · exact Or.inr ⟨hab.trans hbc, hid.trans hid'⟩

/-- Rows that are before each other have one chunk id. -/
theorem chunkId_of_before {a b : ManifestRow} (hab : a.before b) (hba : b.before a) :
    a.chunkId = b.chunkId := by
  unfold ManifestRow.before at hab hba
  rcases hab with hab | ⟨hab, hle⟩
  · rcases hba with hba | ⟨hba, -⟩ <;> omega
  · rcases hba with hba | ⟨-, hle'⟩
    · omega
    · exact le_antisymm hle hle'

theorem chunkId_row (file : ManifestFile) : file.row.chunkId = file.chunk.chunkId :=
  file.chunk.manifestText_chunkId

/-- Sorted rows are in the manifest order. -/
theorem pairwise_before (rows : List ManifestRow) :
    (rows.insertionSort ManifestRow.before).Pairwise ManifestRow.before :=
  haveI : Std.Total ManifestRow.before := ⟨before_total⟩
  haveI : IsTrans ManifestRow ManifestRow.before := ⟨fun _ _ _ hab hbc => before_trans hab hbc⟩
  List.pairwise_insertionSort _ rows

/-- Sorted files are in the manifest order of their rows. -/
theorem pairwise_sortedFiles (l : List ManifestFile) :
    (sortedFiles l).Pairwise fun a b => a.row.before b.row :=
  haveI : Std.Total fun a b : ManifestFile => a.row.before b.row :=
    ⟨fun a b => before_total a.row b.row⟩
  haveI : IsTrans ManifestFile fun a b => a.row.before b.row :=
    ⟨fun _ _ _ hab hbc => before_trans hab hbc⟩
  List.pairwise_insertionSort _ l

/-- What takes part of the sorted inventory is what is seen, sorted. -/
theorem filter_inventory {disk : List ManifestRow} {p : ManifestRow → Bool}
    (hperm : (disk.filter p).Perm (l.map ManifestFile.row))
    (hnodup : (l.map fun file => file.chunk.chunkId).Nodup) :
    (disk.insertionSort ManifestRow.before).filter p = (sortedFiles l).map ManifestFile.row := by
  have hrows : ((sortedFiles l).map ManifestFile.row).Perm (l.map ManifestFile.row) :=
    (List.perm_insertionSort _ l).map _
  have hboth : ((disk.insertionSort ManifestRow.before).filter p).Perm
      ((sortedFiles l).map ManifestFile.row) :=
    ((List.perm_insertionSort _ disk).filter p).trans (hperm.trans hrows.symm)
  have hids : ((l.map ManifestFile.row).map ManifestRow.chunkId).Nodup := by
    rw [List.map_map]
    refine (List.map_congr_left fun file _ => ?_) ▸ hnodup
    exact (chunkId_row file).symm
  refine List.Perm.eq_of_pairwise ?_ ((pairwise_before disk).filter p)
    (List.pairwise_map.mpr (pairwise_sortedFiles l)) hboth
  intro a b ha hb hab hba
  exact List.inj_on_of_nodup_map hids (hrows.mem_iff.mp (hboth.mem_iff.mp ha))
    (hrows.mem_iff.mp hb) (chunkId_of_before hab hba)

/-- **What a pass reads anew is what the passes before it have not read**, in its own order. -/
theorem perm_newFiles (hnodup : ((done ++ part).map ManifestFile.path).Nodup) :
    (newFiles done part).Perm part := by
  refine ((List.perm_insertionSort _ _).filter _).trans ?_
  rw [List.map_append, List.nodup_append'] at hnodup
  rw [List.filter_append]
  have hdone : done.filter (fun file => file.path ∉ done.map ManifestFile.path) = [] := by
    rw [List.filter_eq_nil_iff]
    intro file hfile
    simpa using ⟨file, hfile, rfl⟩
  have hpart : part.filter (fun file => file.path ∉ done.map ManifestFile.path) = part := by
    rw [List.filter_eq_self]
    intro file hfile
    exact decide_eq_true fun hmem => hnodup.2.2 hmem (List.mem_map_of_mem hfile)
  rw [hdone, hpart, List.nil_append]

/-- Within a stream the new chunks come in the order of the sequence. -/
theorem streamChunks_newFiles (h : ObservedFiles files (done ++ part)) (stream : StreamIdentity) :
    streamChunks stream (newFiles done part) = streamChunks stream part := by
  have hperm := perm_newFiles h.nodupPaths
  have hordered : (part.filter fun file => file.chunk.identity = stream).Pairwise
      fun a b => a.row.before b.row := by
    refine List.Pairwise.imp_of_mem ?_ ((List.pairwise_append.mp h.ordered).2.1.filter _)
    intro a b ha hb hbefore
    have hidentity := of_decide_eq_true (List.mem_filter.mp ha).2
    exact hbefore (hidentity.trans (of_decide_eq_true (List.mem_filter.mp hb).2).symm)
  have hsorted : ((newFiles done part).filter fun file => file.chunk.identity = stream).Pairwise
      fun a b => a.row.before b.row := ((pairwise_sortedFiles _).filter _).filter _
  have hsame : ∀ a b, a ∈ (newFiles done part).filter (fun file => file.chunk.identity = stream) →
      b ∈ part.filter (fun file => file.chunk.identity = stream) →
        a.row.before b.row → b.row.before a.row → a = b := by
    intro a b ha hb hab hba
    have ha' := hperm.mem_iff.mp (List.mem_filter.mp ha).1
    have hb' := (List.mem_filter.mp hb).1
    exact List.inj_on_of_nodup_map h.nodupChunks (List.mem_append_right _ ha')
      (List.mem_append_right _ hb') (by simpa only [chunkId_row] using chunkId_of_before hab hba)
  unfold streamChunks
  rw [List.filter_map, List.filter_map]
  exact congrArg _ (List.Perm.eq_of_pairwise hsame hsorted hordered (hperm.filter _))

end

/-! ## The chunks of a stream in an audit -/

/-- The chunks of a stream that an audit looks at: those of a market that is audited. -/
def auditedChunks (stream : StreamIdentity) (l : List ManifestFile) : List SealedChunk :=
  if stream.market ∈ ["spot", "um_perpetual"] then streamChunks stream l else []

theorem auditedChunks_append (stream : StreamIdentity) (l l' : List ManifestFile) :
    auditedChunks stream (l ++ l') = auditedChunks stream l ++ auditedChunks stream l' := by
  unfold auditedChunks
  split
  · exact streamChunks_append stream l l'
  · rfl

/-- The transitions that chunks bring to a stream behind others. -/
def newTransitions (intervals : List CatalogGapInterval) (before chunks : List SealedChunk) :
    List Transition :=
  (auditPass none intervals).outs
    ((auditPass none intervals).final {} (before.map SealedChunk.fullScan))
    (chunks.map SealedChunk.fullScan)

/-- The changes between two runs of chunks are found with the first run as what came before. -/
theorem newTransitions_append (before chunks chunks' : List SealedChunk) :
    newTransitions intervals before (chunks ++ chunks') =
      newTransitions intervals before chunks ++
        newTransitions intervals (before ++ chunks) chunks' := by
  simp only [newTransitions, List.map_append, KeyedFold.Pass.outs_append,
    KeyedFold.Pass.final_append]

/-- A pass audits the streams of two markets and no others. -/
theorem under_eq (stream : StreamIdentity) (scans : List ChunkScan) :
    (auditPass emit intervals).under stream scans =
      if stream.market ∈ ["spot", "um_perpetual"] then
        scans.filter fun scan => manifestStream scan.manifest = stream
      else [] := by
  have hkey : ∀ scan, (auditPass emit intervals).key scan = some stream ↔
      stream.market ∈ ["spot", "um_perpetual"] ∧ manifestStream scan.manifest = stream := by
    intro scan
    show auditedStream scan = some stream ↔ _
    rw [auditedStream]
    constructor
    · intro h
      split at h
      · next hmarket =>
        obtain rfl := Option.some.inj h
        exact ⟨hmarket, rfl⟩
      · cases h
    · rintro ⟨hmarket, rfl⟩
      exact if_pos hmarket
  rw [KeyedFold.Pass.under]
  split
  · next hmarket => exact List.filter_congr fun scan _ => by simp [hkey, hmarket]
  · next hmarket => exact List.filter_eq_nil_iff.mpr fun scan _ => by simp [hkey, hmarket]

/-- The chunks a pass audits under a stream are the scans of the stream's files. -/
theorem under_scans {f : SealedChunk → ChunkScan} (hf : ∀ c, (f c).manifest = c.manifest.document)
    (stream : StreamIdentity) (l : List ManifestFile) :
    (auditPass emit intervals).under stream (l.map fun file => f file.chunk) =
      (auditedChunks stream l).map f := by
  have hfilter : (l.map fun file => f file.chunk).filter
      (fun scan => manifestStream scan.manifest = stream) = (streamChunks stream l).map f := by
    have hstream : ∀ c : SealedChunk, manifestStream (f c).manifest = c.identity := by
      intro c
      rw [hf]
      exact c.manifestStream_scan
    rw [streamChunks, List.filter_map, List.filter_map, List.map_map]
    simp only [Function.comp_def, hstream]
  rw [under_eq, hfilter, auditedChunks]
  split <;> rfl

/-- A stream whose connections are not looked at has no transitions. -/
theorem outs_of_not_websocket : ∀ {scans : List ChunkScan} {a : StreamAudit},
    (∀ x ∈ scans, isWebsocketChunk x = false) → (auditPass emit intervals).outs a scans = []
  | [], _, _ => rfl
  | x :: scans, a, h => by
    rw [List.forall_mem_cons] at h
    show a.transitions emit intervals x ++ _ = []
    rw [outs_of_not_websocket h.2, List.append_nil, StreamAudit.transitions, h.1]
    rfl

/-! ## The full audit -/

/-- The frames of a scanned chunk are those of its records. -/
theorem scanChunkFrames_document (c : SealedChunk) :
    scanChunkFrames c.scan.manifest c.envelopes = c.frames := by
  rw [scanChunkFrames, SealedChunk.manifestText_chunkId]
  rfl

/-- A readable file loads as the full scan of its chunk. -/
theorem loadFrames_scan {c : SealedChunk} (hpath : c.relativePath ≠ "")
    (hraw : files.read c.relativePath = some (.ok c.envelopes)) :
    loadFrames files c.scan = c.fullScan := by
  rw [loadFrames, if_neg (by simp [SealedChunk.scan]), SealedChunk.manifestText_relativePath,
    if_neg hpath, hraw]
  show ({ c.scan with
    frames := some (scanChunkFrames c.scan.manifest c.envelopes) } : ChunkScan) = _
  rw [scanChunkFrames_document]
  rfl

/-- **The full audit reports, for every stream, the changes between all its chunks.** -/
theorem collectTransitions_full [Json.Reader] {l : List ManifestFile} (h : ObservedFiles files l)
    {catalog : Option AuditCatalog} (hintervals : auditIntervals catalog = .ok intervals) :
    ∃ report,
      collectTransitions (l.map fun file => file.chunk.scan) files catalog none = .ok report ∧
      ∀ stream, ReportsStream report.transitions report.summaries stream
          (auditedChunks stream l).length (newTransitions intervals [] (auditedChunks stream l)) ∧
        ((report.summaries.get? stream).isSome = true ↔ auditedChunks stream l ≠ []) := by
  have hloaded : (l.map fun file => file.chunk.scan).map (loadFrames files) =
      l.map fun file => file.chunk.fullScan := by
    rw [List.map_map]
    refine List.map_congr_left fun file hfile => ?_
    exact loadFrames_scan (h.raw file hfile).1 (h.raw file hfile).2
  have hframes : ∀ x ∈ (l.map fun file => file.chunk.scan).map (loadFrames files),
      x.frames.isSome = true := by
    rw [hloaded]
    intro x hx
    obtain ⟨file, -, rfl⟩ := List.mem_map.mp hx
    rfl
  obtain ⟨report, hreport, hstreams⟩ :=
    @collectTransitions_reports intervals none _ _ files catalog hintervals hframes
  refine ⟨report, hreport, fun stream => ?_⟩
  have hunder : (auditPass none intervals).under stream
      ((l.map fun file => file.chunk.scan).map (loadFrames files)) =
        (auditedChunks stream l).map SealedChunk.fullScan := by
    rw [hloaded]
    exact under_scans (fun _ => rfl) stream l
  obtain ⟨hreports, hkey⟩ := hstreams stream
  rw [hunder] at hreports hkey
  have hcount : ((auditedChunks stream l).map SealedChunk.fullScan).countP (emits none) =
      (auditedChunks stream l).length := by
    have hall : ∀ x ∈ (auditedChunks stream l).map SealedChunk.fullScan, emits none x = true :=
      fun _ _ => rfl
    rw [List.countP_eq_length.mpr hall, List.length_map]
  rw [hcount] at hreports
  exact ⟨hreports, hkey.trans (not_congr List.map_eq_nil_iff)⟩

/-! ## The Catalog of an observation -/

/-- An observation sees manifests: of those that are there, these take part. -/
structure Observation.Sees (o : Observation) (catalog : Option AuditCatalog)
    (l : List ManifestFile) : Prop where
  nodup : (o.disk.map ManifestRow.chunkId).Nodup
  observed : (o.disk.filter fun row => observedPath (o.boundary catalog) row.path).Perm
    (l.map ManifestFile.row)

namespace Observation

variable (o : Observation) (catalog : Option AuditCatalog)

theorem map_boundary :
    (o.boundary catalog).map BoundaryCatalog.toAuditCatalog = catalog := by
  cases catalog <;> rfl

variable [Json.Reader]

/-- Every loss of an observation can be classified. -/
def Classified (files : RawFiles) : Prop :=
  ∀ boundary, o.boundary catalog = some boundary →
    ∃ losses, rawLosses boundary files o.disk = .ok losses

/-- The checks of an observation. -/
def checks (files : RawFiles) (known : List String) :
    Except String (List String × List RawLoss) :=
  boundaryChecks (o.boundary catalog) files known (o.disk.insertionSort ManifestRow.before) o.disk

end Observation

section

variable [Json.Reader] {catalog : Option AuditCatalog} {o : Observation}

/-- Where every event row is loaded, no row lacks its evidence. -/
theorem mapM_evidence : ∀ {rows : List EventRow} {events : List EventDocument},
    rows.mapM (fun row => row.evidence.map row.document) = some events →
      ∀ row ∈ rows, row.evidence ≠ none
  | [], _, _ => fun row hrow => absurd hrow List.not_mem_nil
  | first :: rows, events, h => by
    rw [List.mapM_cons] at h
    obtain ⟨document, hfirst, h⟩ := Option.bind_eq_some_iff.mp h
    obtain ⟨rest, hrest, -⟩ := Option.bind_eq_some_iff.mp h
    rw [List.forall_mem_cons]
    refine ⟨fun hnone => ?_, mapM_evidence hrest⟩
    rw [hnone] at hfirst
    cases hfirst

/-- A Catalog whose intervals can be read has no evidence over which a query raises. -/
theorem evidenceIsJson_of_intervals {catalog : AuditCatalog}
    (hintervals : auditIntervals (some catalog) = .ok intervals) :
    catalog.events.EvidenceIsJson := by
  cases hevents : catalog.events.operationalEvents with
  | none =>
    simp [auditIntervals, hevents] at hintervals
  | some events =>
    intro row hrow _
    exact mapM_evidence hevents row ((List.mem_insertionSort _).mpr hrow)

/-- **The checks come to an end** where the losses can be classified. -/
theorem exists_checks_iff (hintervals : auditIntervals catalog = .ok intervals)
    {known : List String} :
    (∃ checks, o.checks catalog files known = .ok checks) ↔ o.Classified catalog files := by
  cases catalog with
  | none =>
    refine iff_of_true ⟨_, rfl⟩ fun boundary h => ?_
    cases h
  | some catalog =>
    have hjson := evidenceIsJson_of_intervals hintervals
    set boundary : BoundaryCatalog :=
      { catalog with rows := o.rows, sourceLifecycle := o.sourceLifecycle } with hboundary
    have hsome : o.boundary (some catalog) = some boundary := rfl
    have hmalformed : boundary.events.malformedDiscontinuityEvents boundary.legacyIdentitySchema =
        .ok (boundary.events.malformed boundary.legacyIdentitySchema) :=
      EventLog.overRows_eq_ok hjson.parses _
    have hdegraded := @EventLog.degraded_eq boundary.legacyIdentitySchema boundary.events _ hjson
    obtain ⟨findings, hfindings⟩ : ∃ findings, catalogFindings boundary known
        (o.disk.insertionSort ManifestRow.before) = .ok findings := by
      rw [catalogFindings, hmalformed, hdegraded]
      exact ⟨_, rfl⟩
    have hchecks : o.checks (some catalog) files known =
        (rawLosses boundary files o.disk).map fun losses => (findings, losses) := by
      rw [Observation.checks, hsome, boundaryChecks, hfindings]
      cases rawLosses boundary files o.disk <;> rfl
    rw [hchecks]
    constructor
    · rintro ⟨checks, h⟩ other hother
      obtain rfl := Option.some.inj (hsome.symm.trans hother)
      cases hlosses : rawLosses boundary files o.disk with
      | error e =>
        rw [hlosses] at h
        cases h
      | ok losses => exact ⟨losses, rfl⟩
    · intro h
      obtain ⟨losses, hlosses⟩ := h boundary hsome
      rw [hlosses]
      exact ⟨_, rfl⟩

end

/-! ## An observation -/

/-- An observation can go on from a document: its members are the manifests seen so far, and of each
stream it has the end. -/
structure Resumed (continuation : Option Value) (done : List ManifestFile) : Prop where
  known : ∃ known, knownMembers continuation = .ok known ∧
    ∀ path, path ∈ known.map Prod.fst ↔ path ∈ done.map ManifestFile.path
  contexts : ∃ prior, continuationContexts continuation = .ok prior ∧ GoodContexts prior ∧
    ∀ stream, ((prior.get? stream).getD []).map ChunkScan.boundary =
      (streamEnd (streamChunks stream done)).map fun c => c.fullScan.boundary

/-- A first pass resumes from nothing. -/
theorem resumed_none : Resumed none [] where
  known := ⟨[], rfl, fun path => Iff.rfl⟩
  contexts := ⟨.empty, rfl, fun stream context h => by simp at h, fun stream => rfl⟩

section

variable {done part : List ManifestFile} {continuation : Option Value}

/-- The chunks that an observation audits: of each stream with new ones its context and these. -/
def observedScans (prior : SortedDict StreamIdentity (List ChunkScan))
    (newChunks : List ChunkScan) : List ChunkScan :=
  (SortedDict.groupItems (newChunks.map fun chunk =>
    (manifestStream chunk.manifest, chunk))).items.flatMap fun entry =>
      (prior.get? entry.1).getD [] ++ entry.2

/-- A readable file is scanned as its chunk. -/
theorem scanNewChunk_document {c : SealedChunk} (hpath : c.relativePath ≠ "")
    (hraw : files.read c.relativePath = some (.ok c.envelopes)) :
    scanNewChunk files c.manifest.document = .ok c.strictScan := by
  have hrelative : manifestText c.manifest.document "relative_path" = c.relativePath :=
    c.manifestText_relativePath
  have hframes : scanChunkFrames c.manifest.document c.envelopes = c.frames :=
    scanChunkFrames_document c
  rw [scanNewChunk, hrelative, if_neg hpath, hraw]
  show Except.ok (ChunkScan.mk _ (some (scanChunkFrames _ _)) _ _) = _
  rw [hframes]
  rfl

/-- The new files of a pass are scanned one by one. -/
theorem mapM_scanNewChunk : ∀ {l : List ManifestFile},
    (∀ file ∈ l, file.chunk.relativePath ≠ "" ∧
      files.read file.chunk.relativePath = some (.ok file.chunk.envelopes)) →
    (l.map ManifestFile.row).mapM (fun row => scanNewChunk files row.manifest) =
      .ok (l.map fun file => file.chunk.strictScan)
  | [], _ => rfl
  | file :: l, h => by
    rw [List.forall_mem_cons] at h
    have hfile : scanNewChunk files file.row.manifest = .ok file.chunk.strictScan :=
      scanNewChunk_document h.1.1 h.1.2
    rw [List.map_cons, List.mapM_cons, hfile, mapM_scanNewChunk h.2]
    rfl

/-- The members of a document. -/
def documentMembers (l : List ManifestFile) : SortedDict String String :=
  SortedDict.ofItems (((sortedFiles l).map ManifestFile.row).map fun row => (row.path, row.sha256))

/-- What an observation computes, behind its checks. -/
theorem incrementalAudit_eq [Json.Reader] (h : ObservedFiles files (done ++ part))
    {catalog : Option AuditCatalog} {o : Observation} (hsees : o.Sees catalog (done ++ part))
    {known : List (String × String)} {prior : SortedDict StreamIdentity (List ChunkScan)}
    (hknown : knownMembers continuation = .ok known)
    (hpaths : ∀ path, path ∈ known.map Prod.fst ↔ path ∈ done.map ManifestFile.path)
    (hprior : continuationContexts continuation = .ok prior) :
    let newChunks := (newFiles done part).map fun file => file.chunk.strictScan
    let members := documentMembers (done ++ part)
    incrementalAudit files (o.boundary catalog) continuation o.disk =
      (o.checks catalog files members.keys).bind fun checks =>
        (collectTransitions (observedScans prior newChunks) files catalog
          (some (newChunks.map fun chunk => manifestText chunk.manifest "chunk_id"))).map
            fun report =>
              { transitions := report.transitions
                summaries := report.summaries
                integrityFindings := ((known.filter fun member =>
                  members.get? member.1 ≠ some member.2).map Prod.fst).insertionSort (· ≤ ·)
                catalogFindings := checks.1
                rawLoss := checks.2
                continuation :=
                  continuationDocument members (updatedContexts prior newChunks) } := by
  intro newChunks members
  have hinventory : strictManifestInventory o.disk =
      .ok (o.disk.insertionSort ManifestRow.before) := if_pos hsees.nodup
  have hobserved := filter_inventory hsees.observed h.nodupChunks
  have hnew : (((sortedFiles (done ++ part)).map ManifestFile.row).filter fun row =>
      row.path ∉ known.map Prod.fst) = (newFiles done part).map ManifestFile.row := by
    rw [List.filter_map]
    refine congrArg _ (List.filter_congr fun file _ => decide_eq_decide.mpr ?_)
    exact not_congr (hpaths file.path)
  have hscan : ((newFiles done part).map ManifestFile.row).mapM
      (fun row => scanNewChunk files row.manifest) = .ok newChunks := by
    refine mapM_scanNewChunk fun file hfile => h.raw file ?_
    exact List.mem_append_right _ ((perm_newFiles h.nodupPaths).mem_iff.mp hfile)
  have hok : ∀ {α β : Type} (a : α) (f : α → Except String β), (Except.ok a >>= f) = f a :=
    fun _ _ => rfl
  have hcatalog := o.map_boundary catalog
  simp only [incrementalAudit, hinventory, hobserved, hknown, hok, hnew, hscan, hprior, hcatalog]
  show (o.checks catalog files members.keys >>= _) = _
  unfold observedScans
  cases o.checks catalog files members.keys with
  | error e => rfl
  | ok checks =>
    rw [hok]
    dsimp only [Except.bind]
    cases collectTransitions _ files catalog _ <;> rfl

/-- The scan of a chunk is a context of it. -/
theorem contextOf_strictScan (c : SealedChunk) : ContextOf c c.strictScan where
  manifest := rfl
  frames := by
    refine ⟨c.frames, rfl, fun frame hframe => ?_⟩
    obtain ⟨index, hindex, rfl⟩ := List.mem_mapIdx.mp hframe
    exact ⟨wellFormed_frameIdentity (uuidText_ne_empty _) _ _, rfl⟩
  issue := rfl
  deepScanAllowed := rfl

/-- The new chunks of a stream are the chunks of the part that is observed. -/
theorem filter_newChunks (h : ObservedFiles files (done ++ part)) (stream : StreamIdentity) :
    ((newFiles done part).map fun file => file.chunk.strictScan).filter
        (fun chunk => manifestStream chunk.manifest = stream) =
      (streamChunks stream part).map SealedChunk.strictScan := by
  have hstream : ∀ c : SealedChunk, manifestStream c.strictScan.manifest = c.identity :=
    fun c => c.manifestStream_scan
  rw [← streamChunks_newFiles h, streamChunks, List.filter_map, List.filter_map, List.map_map]
  simp only [Function.comp_def, hstream]

/-- Of a stream with new chunks its context and these are audited. -/
theorem filter_observedScans (h : ObservedFiles files (done ++ part))
    {prior : SortedDict StreamIdentity (List ChunkScan)} (hprior : GoodContexts prior)
    (stream : StreamIdentity) :
    (observedScans prior ((newFiles done part).map fun file => file.chunk.strictScan)).filter
        (fun chunk => manifestStream chunk.manifest = stream) =
      if streamChunks stream part = [] then []
      else
        (prior.get? stream).getD [] ++ (streamChunks stream part).map SealedChunk.strictScan := by
  set newChunks := (newFiles done part).map fun file => file.chunk.strictScan with hnew
  set groups := SortedDict.groupItems (newChunks.map fun chunk =>
    (manifestStream chunk.manifest, chunk)) with hgroups
  have hgroup : ∀ k, (groups.get? k).getD [] =
      newChunks.filter fun chunk => manifestStream chunk.manifest = k := by
    intro k
    rw [hgroups, SortedDict.getD_groupItems, List.filter_map, List.map_map]
    simp only [Function.comp_def, List.map_id']
    exact List.filter_congr fun _ _ => decide_eq_decide.mpr Iff.rfl
  have hsome : ∀ k, (groups.get? k).isSome = true ↔
      newChunks.filter (fun chunk => manifestStream chunk.manifest = k) ≠ [] := by
    intro k
    rw [hgroups, SortedDict.isSome_get?_groupItems, Ne, List.filter_eq_nil_iff]
    simp
  have htag : ∀ k v, groups.get? k = some v →
      ∀ chunk ∈ (prior.get? k).getD [] ++ v, manifestStream chunk.manifest = k := by
    intro k v hget chunk hchunk
    rcases List.mem_append.mp hchunk with hchunk | hchunk
    · cases hcontext : prior.get? k with
      | none => simp [hcontext] at hchunk
      | some context =>
        rw [hcontext, Option.getD_some] at hchunk
        obtain ⟨c, -, hidentity, hof⟩ := (hprior k context hcontext).2 chunk hchunk
        exact (manifestStream_of_contextOf hof).trans hidentity
    · have hv := hgroup k
      rw [hget, Option.getD_some] at hv
      rw [hv] at hchunk
      exact of_decide_eq_true (List.mem_filter.mp hchunk).2
  have hflat := SortedDict.filter_flatMap_items groups htag stream
  have hmine := filter_newChunks h stream
  rw [← hnew] at hmine
  rw [observedScans, ← hgroups]
  refine Eq.trans (List.filter_congr fun _ _ => decide_eq_decide.mpr Iff.rfl) (hflat.trans ?_)
  cases hget : groups.get? stream with
  | none =>
    have hnil : (streamChunks stream part).map SealedChunk.strictScan = [] := by
      rw [← hmine]
      exact not_not.mp fun hne => absurd ((hsome stream).mpr hne) (by simp [hget])
    rw [if_pos (List.map_eq_nil_iff.mp hnil)]
    rfl
  | some v =>
    have hne := (hsome stream).mp (by simp [hget])
    have hv := hgroup stream
    rw [hget, Option.getD_some, hmine] at hv
    rw [hmine, Ne, List.map_eq_nil_iff] at hne
    rw [if_neg hne, Option.map_some, Option.getD_some, hv]

/-- What a pass observes are contexts of chunks: carried over, or scanned now. -/
theorem mem_observedScans (h : ObservedFiles files (done ++ part))
    {prior : SortedDict StreamIdentity (List ChunkScan)} (hprior : GoodContexts prior)
    {x : ChunkScan} (hx : x ∈ observedScans prior
      ((newFiles done part).map fun file => file.chunk.strictScan)) :
    ∃ c, ContextOf c x := by
  have hmem : x ∈ (observedScans prior
      ((newFiles done part).map fun file => file.chunk.strictScan)).filter
        (fun chunk => manifestStream chunk.manifest = manifestStream x.manifest) :=
    List.mem_filter.mpr ⟨hx, decide_eq_true rfl⟩
  rw [filter_observedScans h hprior] at hmem
  split at hmem
  · cases hmem
  · rcases List.mem_append.mp hmem with hmem | hmem
    · cases hcontext : prior.get? (manifestStream x.manifest) with
      | none => simp [hcontext] at hmem
      | some context =>
        rw [hcontext, Option.getD_some] at hmem
        obtain ⟨c, -, -, hof⟩ := (hprior _ context hcontext).2 x hmem
        exact ⟨c, hof⟩
    · obtain ⟨c, -, rfl⟩ := List.mem_map.mp hmem
      exact ⟨c, contextOf_strictScan c⟩

/-- The chunks that an observation goes through in a stream bring what the new ones bring behind the
earlier ones. -/
theorem outs_observed {context : List ChunkScan} (stream : StreamIdentity)
    (hemit : ∀ file ∈ done, emits emit file.chunk.fullScan = false)
    (hnew : ∀ file ∈ part, emits emit file.chunk.fullScan = true)
    (hcontext : context.map ChunkScan.boundary =
      (streamEnd (streamChunks stream done)).map fun c => c.fullScan.boundary)
    (hstream : ∀ x ∈ context, manifestStream x.manifest = stream) :
    (auditPass emit intervals).outs {}
        (context ++ (streamChunks stream part).map SealedChunk.strictScan) =
      newTransitions intervals (streamChunks stream done) (streamChunks stream part) := by
  have hidentity : ∀ {l : List ManifestFile} {c}, c ∈ streamChunks stream l → c.identity = stream :=
    fun hc => by
      obtain ⟨file, -, -, hidentity⟩ := mem_streamChunks.mp hc
      exact hidentity
  by_cases haudited : stream.stream ∈ websocketStreams stream.market
  · have hall : ∀ {l : List ManifestFile}, ∀ c ∈ streamChunks stream l, c.Audited := by
      intro l c hc
      have hmine := hidentity hc
      rw [← hmine] at haudited
      exact haudited
    have hnone : ∀ c ∈ streamChunks stream done, emits emit c.fullScan = false := by
      intro c hc
      obtain ⟨file, hfile, rfl, -⟩ := mem_streamChunks.mp hc
      exact hemit file hfile
    obtain ⟨houts, hend⟩ := @context_run intervals emit _ context hall hnone hcontext
    rw [KeyedFold.Pass.outs_append, houts, List.nil_append, newTransitions]
    refine outs_congr hend fun c hc => ⟨c.sameScan, ?_⟩
    obtain ⟨file, hfile, rfl, -⟩ := mem_streamChunks.mp hc
    exact hnew file hfile
  · have hnot : ∀ x : ChunkScan, manifestStream x.manifest = stream →
        isWebsocketChunk x = false := by
      intro x hx
      rw [isWebsocketChunk, decide_eq_false_iff_not]
      rw [← hx] at haudited
      exact haudited
    have hfull : ∀ {f : SealedChunk → ChunkScan}, (∀ c, (f c).manifest = c.manifest.document) →
        ∀ {l : List ManifestFile}, ∀ x ∈ (streamChunks stream l).map f,
          isWebsocketChunk x = false := by
      intro f hf l x hx
      obtain ⟨c, hc, rfl⟩ := List.mem_map.mp hx
      refine hnot _ ?_
      rw [hf]
      exact c.manifestStream_scan.trans (hidentity hc)
    rw [newTransitions, outs_of_not_websocket (hfull fun _ => rfl), outs_of_not_websocket]
    intro x hx
    rcases List.mem_append.mp hx with hx | hx
    · exact hnot x (hstream x hx)
    · exact hfull (fun _ => rfl) x hx

/-- The end of a stream is made of its own chunks. -/
theorem mem_of_mem_streamEnd {chunks : List SealedChunk} {c : SealedChunk}
    (h : c ∈ streamEnd chunks) : c ∈ chunks := by
  rcases streamEnd_cases chunks with hnil | ⟨last, markers, hend, -, -, hmem⟩
  · simp [hnil] at h
  · exact hmem c (hend ▸ h)

/-- The new chunks are those whose transitions are reported. -/
theorem emits_newChunks (h : ObservedFiles files (done ++ part)) :
    let emit := some (((newFiles done part).map fun file => file.chunk.strictScan).map
      fun chunk => manifestText chunk.manifest "chunk_id")
    (∀ file ∈ done, emits emit file.chunk.fullScan = false) ∧
      ∀ file ∈ part, emits emit file.chunk.fullScan = true := by
  intro emit
  have hid : ∀ c : SealedChunk, manifestText c.fullScan.manifest "chunk_id" = c.chunkId :=
    fun c => c.manifestText_chunkId
  have hiff : ∀ file : ManifestFile, emits emit file.chunk.fullScan = true ↔
      file.chunk.chunkId ∈ part.map fun file => file.chunk.chunkId := by
    intro file
    have hids : ((newFiles done part).map fun file => file.chunk.strictScan).map
        (fun chunk => manifestText chunk.manifest "chunk_id") =
          (newFiles done part).map fun file => file.chunk.chunkId := by
      rw [List.map_map]
      exact List.map_congr_left fun file _ => file.chunk.manifestText_chunkId
    have hperm := (perm_newFiles h.nodupPaths).map fun file => file.chunk.chunkId
    show decide (_ ∈ List.map _ _) = true ↔ _
    rw [decide_eq_true_eq, hid, hids, hperm.mem_iff]
  have hnodup := h.nodupChunks
  rw [List.map_append, List.nodup_append'] at hnodup
  constructor
  · intro file hfile
    rw [Bool.eq_false_iff, Ne, hiff]
    exact fun hmem => hnodup.2.2 (List.mem_map_of_mem hfile) hmem
  · intro file hfile
    rw [hiff]
    exact List.mem_map_of_mem hfile

/-! ## The document of an observation -/

/-- **The contexts stay well formed from pass to pass.** -/
theorem goodContexts_updatedContexts {chunks : List SealedChunk}
    (hstrict : ∀ c ∈ chunks, c.Strict) :
    ∀ {contexts : SortedDict StreamIdentity (List ChunkScan)}, GoodContexts contexts →
      GoodContexts (updatedContexts contexts (chunks.map SealedChunk.strictScan)) := by
  induction chunks with
  | nil => exact fun h => h
  | cons c chunks ih =>
    rw [List.forall_mem_cons] at hstrict
    intro contexts hgood
    refine @ih hstrict.2 (addContext contexts c.strictScan) ?_
    intro stream context hget
    have hstream : manifestStream c.strictScan.manifest = c.identity := c.manifestStream_scan
    have hchunk : ContextChunks c.identity [c.strictScan] := by
      intro x hx
      obtain rfl := List.mem_singleton.mp hx
      exact ⟨c, hstrict.1, rfl, contextOf_strictScan c⟩
    rw [addContext, hstream, SortedDict.get?_insert] at hget
    split at hget
    · next hmine =>
      subst hmine
      obtain rfl := Option.some.inj hget
      refine ⟨hstrict.1.named, ?_⟩
      split
      · split
        · exact fun x hx => by cases hx
        · next hne =>
          intro x hx
          rcases List.mem_append.mp hx with hx | hx
          · cases hprior : contexts.get? c.identity with
            | none => simp [hprior] at hx
            | some prior =>
              rw [hprior, Option.getD_some] at hx
              exact (hgood _ prior hprior).2 x hx
          · exact hchunk x hx
      · exact hchunk
    · exact hgood stream context hget

theorem boundary_addToEnd {current : List ChunkScan} {ended : List SealedChunk}
    (h : current.map ChunkScan.boundary = ended.map fun c => c.fullScan.boundary)
    (c : SealedChunk) :
    (if zeroRecordChunk c.strictScan then
        if current = [] then [] else current ++ [c.strictScan]
      else [c.strictScan]).map ChunkScan.boundary =
      (addToEnd ended c).map fun c => c.fullScan.boundary := by
  have hzero : zeroRecordChunk c.strictScan = true ↔ c.envelopes = [] := by
    rw [zeroRecordChunk_of_boundary c.boundary_strictScan]
    exact c.zeroRecordChunk_fullScan
  have hnil : current = [] ↔ ended = [] := by
    rw [← List.map_eq_nil_iff (f := ChunkScan.boundary), h, List.map_eq_nil_iff]
  unfold addToEnd
  by_cases hrecords : c.envelopes = []
  · rw [if_pos (hzero.mpr hrecords), if_pos hrecords]
    by_cases hcurrent : current = []
    · rw [if_pos hcurrent, if_pos (hnil.mp hcurrent)]
      rfl
    · rw [if_neg hcurrent, if_neg (mt hnil.mpr hcurrent), List.map_append, List.map_append, h]
      rfl
  · rw [if_neg (mt hzero.mp hrecords), if_neg hrecords]
    rfl

/-- The end of a stream is kept from chunk to chunk. -/
theorem boundary_updatedContexts (stream : StreamIdentity) {chunks : List SealedChunk} :
    ∀ {contexts : SortedDict StreamIdentity (List ChunkScan)} {before : List SealedChunk},
      ((contexts.get? stream).getD []).map ChunkScan.boundary =
        (streamEnd before).map (fun c => c.fullScan.boundary) →
      (((updatedContexts contexts (chunks.map SealedChunk.strictScan)).get? stream).getD []).map
          ChunkScan.boundary =
        (streamEnd (before ++ chunks.filter fun c => c.identity = stream)).map
          fun c => c.fullScan.boundary := by
  induction chunks with
  | nil =>
    intro contexts before h
    rw [List.filter_nil, List.append_nil]
    exact h
  | cons c chunks ih =>
    intro contexts before h
    have hstream : manifestStream c.strictScan.manifest = c.identity := c.manifestStream_scan
    by_cases hmine : c.identity = stream
    · have hstep : (((addContext contexts c.strictScan).get? stream).getD []).map
          ChunkScan.boundary =
            (streamEnd (before ++ [c])).map fun c => c.fullScan.boundary := by
        rw [addContext, hstream, hmine, SortedDict.get?_insert, if_pos rfl, Option.getD_some,
          streamEnd_append]
        exact boundary_addToEnd h c
      rw [List.filter_cons_of_pos (by simpa using hmine), List.append_cons before c]
      exact ih hstep
    · have hstep : (((addContext contexts c.strictScan).get? stream).getD []).map
          ChunkScan.boundary = (streamEnd before).map fun c => c.fullScan.boundary := by
        rw [addContext, hstream, SortedDict.get?_insert, if_neg (Ne.symm hmine)]
        exact h
      rw [List.filter_cons_of_neg (by simpa using hmine)]
      exact ih hstep

/-- The members of a document are the manifests that were there. -/
theorem get?_documentMembers {l : List ManifestFile} (hnodup : (l.map ManifestFile.path).Nodup)
    {path digest : String} : (documentMembers l).get? path = some digest ↔
      ∃ file ∈ l, file.path = path ∧ Checksum.sha256Hex file.bytes = digest := by
  have hmem : ∀ {item}, item ∈ ((sortedFiles l).map ManifestFile.row).map
      (fun row => (row.path, row.sha256)) ↔
        ∃ file ∈ l, (file.path, Checksum.sha256Hex file.bytes) = item := by
    intro item
    rw [List.map_map, List.mem_map]
    exact exists_congr fun file => and_congr_left' (List.mem_insertionSort _)
  rw [documentMembers, SortedDict.get?_ofItems_eq_some, hmem]
  · exact exists_congr fun file => and_congr_right' Prod.mk_inj
  · rintro p hp q hq hpath
    obtain ⟨file, hfile, rfl⟩ := hmem.mp hp
    obtain ⟨file', hfile', rfl⟩ := hmem.mp hq
    rw [List.inj_on_of_nodup_map hnodup hfile hfile' hpath]

/-- The members of the continuation are distinct, and none has the empty path. -/
theorem goodMembers_documentMembers {l : List ManifestFile}
    (hnodup : (l.map ManifestFile.path).Nodup) (hpath : ∀ file ∈ l, file.path ≠ "") :
    GoodMembers (documentMembers l) := by
  intro path digest hget
  obtain ⟨file, hfile, rfl, rfl⟩ := (get?_documentMembers hnodup).mp hget
  exact ⟨hpath file hfile, isDigest_sha256Hex _⟩

/-- The continuation names the paths of the files it has read. -/
theorem mem_documentMembers {l : List ManifestFile} (hnodup : (l.map ManifestFile.path).Nodup)
    (path : String) :
    path ∈ (documentMembers l).items.map Prod.fst ↔ path ∈ l.map ManifestFile.path := by
  show path ∈ (documentMembers l).keys ↔ _
  rw [SortedDict.mem_keys, List.mem_map]
  constructor
  · rintro ⟨digest, hget⟩
    obtain ⟨file, hfile, hpath, -⟩ := (get?_documentMembers hnodup).mp hget
    exact ⟨file, hfile, hpath⟩
  · rintro ⟨file, hfile, hpath⟩
    exact ⟨_, (get?_documentMembers hnodup).mpr ⟨file, hfile, hpath, rfl⟩⟩

/-- **The next observation can go on from the document of this one**, once it is read back. -/
theorem resumed_document (h : ObservedFiles files (done ++ part))
    {prior : SortedDict StreamIdentity (List ChunkScan)} (hgood : GoodContexts prior)
    (hboundary : ∀ stream, ((prior.get? stream).getD []).map ChunkScan.boundary =
      (streamEnd (streamChunks stream done)).map fun c => c.fullScan.boundary) :
    let document := continuationDocument (documentMembers (done ++ part))
      (updatedContexts prior ((newFiles done part).map fun file => file.chunk.strictScan))
    Json.decode (Json.encodeValue document) = some document ∧
      validateIncrementalContinuation document = .ok () ∧
        Resumed (some document) (done ++ part) := by
  intro document
  have hmembers : GoodMembers (documentMembers (done ++ part)) :=
    goodMembers_documentMembers h.nodupPaths h.path_ne
  have hchunks : (newFiles done part).map (fun file => file.chunk.strictScan) =
      ((newFiles done part).map ManifestFile.chunk).map SealedChunk.strictScan := by
    rw [List.map_map]
    rfl
  have hstrict : ∀ c ∈ (newFiles done part).map ManifestFile.chunk, c.Strict := by
    intro c hc
    obtain ⟨file, hfile, rfl⟩ := List.mem_map.mp hc
    have hpart := (perm_newFiles h.nodupPaths).mem_iff.mp hfile
    exact h.strict file (List.mem_append_right _ hpart)
  have hcontexts : GoodContexts
      (updatedContexts prior ((newFiles done part).map fun file => file.chunk.strictScan)) := by
    rw [hchunks]
    exact goodContexts_updatedContexts hstrict hgood
  -- The new contexts end where the streams end.
  have hends : ∀ stream, (((updatedContexts prior
      ((newFiles done part).map fun file => file.chunk.strictScan)).get? stream).getD []).map
        ChunkScan.boundary =
      (streamEnd (streamChunks stream (done ++ part))).map fun c => c.fullScan.boundary := by
    intro stream
    rw [hchunks, boundary_updatedContexts stream (hboundary stream), streamChunks_append,
      ← streamChunks_newFiles h]
    rfl
  obtain ⟨read, hread, hget⟩ := continuationContexts_document hmembers hcontexts
  refine ⟨?_, ?_, ?_, ?_⟩
  · simpa using Json.decode_encode (plain_continuationDocument hcontexts) rfl Json.ends_nil
  · rw [validateIncrementalContinuation, hread]
    rfl
  · exact ⟨_, knownMembers_document, mem_documentMembers h.nodupPaths⟩
  · refine ⟨read, hread, ?_, fun stream => ?_⟩
    · intro stream context hstream
      rw [hget, Option.map_eq_some_iff] at hstream
      obtain ⟨context, hcontext, rfl⟩ := hstream
      obtain ⟨hnamed, hchunks⟩ := hcontexts stream context hcontext
      refine ⟨hnamed, fun x hx => ?_⟩
      obtain ⟨chunk, hchunk, rfl⟩ := List.mem_map.mp hx
      obtain ⟨c, hc, hidentity, hof⟩ := hchunks chunk hchunk
      exact ⟨c, hc, hidentity, hof.kept⟩
    · rw [← hends stream, hget]
      cases (updatedContexts prior
          ((newFiles done part).map fun file => file.chunk.strictScan)).get? stream with
      | none => rfl
      | some context =>
        rw [Option.map_some, Option.getD_some, Option.getD_some, List.map_map]
        exact List.map_congr_left fun chunk _ => boundary_kept chunk

/-! ## The report of an observation -/

/-- **What an observation reports**: of each stream what its new chunks bring behind the earlier
ones. -/
theorem incrementalAudit_reports [Json.Reader] (h : ObservedFiles files (done ++ part))
    {catalog : Option AuditCatalog} (hintervals : auditIntervals catalog = .ok intervals)
    {o : Observation} (hsees : o.Sees catalog (done ++ part))
    (hclassified : o.Classified catalog files)
    (hresumed : Resumed continuation done) :
    ∃ report, incrementalAudit files (o.boundary catalog) continuation o.disk = .ok report ∧
      (∀ stream, ReportsStream report.transitions report.summaries stream
          (auditedChunks stream part).length
          (newTransitions intervals (auditedChunks stream done) (auditedChunks stream part)) ∧
        ((report.summaries.get? stream).isSome = true ↔ auditedChunks stream part ≠ [])) ∧
      Json.decode (Json.encodeValue report.continuation) = some report.continuation ∧
      validateIncrementalContinuation report.continuation = .ok () ∧
      Resumed (some report.continuation) (done ++ part) := by
  obtain ⟨⟨known, hknown, hpaths⟩, prior, hprior, hgood, hboundary⟩ := hresumed
  have heq := incrementalAudit_eq h hsees hknown hpaths hprior
  obtain ⟨checks, hchecks⟩ := (exists_checks_iff hintervals).mpr hclassified
  have hemits := emits_newChunks h
  dsimp only at heq hemits
  rw [hchecks] at heq
  set newChunks := (newFiles done part).map fun file => file.chunk.strictScan with hnew
  set emit := some (newChunks.map fun chunk => manifestText chunk.manifest "chunk_id") with hemit
  -- Every observed scan has its frames, so the raw files are not read again.
  have hsome : ∀ x ∈ observedScans prior newChunks, x.frames.isSome = true := by
    intro x hx
    obtain ⟨c, hof⟩ := mem_observedScans h hgood hx
    obtain ⟨frames, hframes, -⟩ := hof.frames
    rw [hframes]
    rfl
  have hloaded : (observedScans prior newChunks).map (loadFrames files) =
      observedScans prior newChunks := by
    refine (List.map_congr_left fun x hx => ?_).trans (List.map_id _)
    rw [loadFrames, if_pos (by simp [hsome x hx])]
    rfl
  obtain ⟨report, hreport, hstreams⟩ := @collectTransitions_reports intervals emit _
    (observedScans prior newChunks) files catalog hintervals (by rw [hloaded]; exact hsome)
  rw [Except.bind, hreport] at heq
  refine ⟨_, heq, fun stream => ?_, resumed_document h hgood hboundary⟩
  obtain ⟨hreports, hkey⟩ := hstreams stream
  -- A context is under its own stream only.
  have hcontext : ∀ x ∈ (prior.get? stream).getD [], manifestStream x.manifest = stream := by
    intro x hx
    cases hget : prior.get? stream with
    | none => simp [hget] at hx
    | some context =>
      rw [hget, Option.getD_some] at hx
      obtain ⟨c, -, hidentity, hof⟩ := (hgood stream context hget).2 x hx
      exact (manifestStream_of_contextOf hof).trans hidentity
  have hunder : (auditPass emit intervals).under stream
      ((observedScans prior newChunks).map (loadFrames files)) =
        if auditedChunks stream part = [] then []
        else (prior.get? stream).getD [] ++
          (auditedChunks stream part).map SealedChunk.strictScan := by
    rw [hloaded, under_eq, filter_observedScans h hgood, auditedChunks]
    split <;> rfl
  rw [hunder] at hreports hkey
  by_cases hnil : auditedChunks stream part = []
  · rw [if_pos hnil] at hreports hkey
    rw [hnil]
    exact ⟨hreports, hkey.trans (by simp)⟩
  · rw [if_neg hnil] at hreports hkey
    have hmarket : stream.market ∈ ["spot", "um_perpetual"] := by
      by_contra hmarket
      exact hnil (if_neg hmarket)
    have hmine : ∀ l, auditedChunks stream l = streamChunks stream l := fun l => if_pos hmarket
    -- Of a stream's scans only the new ones emit; the carried context does not.
    have hcount : ((prior.get? stream).getD [] ++
        (streamChunks stream part).map SealedChunk.strictScan).countP (emits emit) =
          (streamChunks stream part).length := by
      have hold : ((prior.get? stream).getD []).countP (emits emit) = 0 := by
        rw [List.countP_eq_zero]
        intro x hx
        have hview : x.boundary ∈ (streamEnd (streamChunks stream done)).map
            fun c => c.fullScan.boundary := hboundary stream ▸ List.mem_map_of_mem hx
        obtain ⟨c, hc, hsame⟩ := List.mem_map.mp hview
        obtain ⟨file, hfile, rfl, -⟩ := mem_streamChunks.mp (mem_of_mem_streamEnd hc)
        rw [← emits_of_boundary hsame, hemits.1 file hfile]
        exact Bool.false_ne_true
      have hall : ∀ x ∈ (streamChunks stream part).map SealedChunk.strictScan,
          emits emit x = true := by
        intro x hx
        obtain ⟨c, hc, rfl⟩ := List.mem_map.mp hx
        obtain ⟨file, hfile, rfl, -⟩ := mem_streamChunks.mp hc
        exact hemits.2 file hfile
      rw [List.countP_append, hold, List.countP_eq_length.mpr hall, List.length_map, Nat.zero_add]
    simp only [hmine] at hreports hkey hnil ⊢
    rw [hcount, outs_observed stream hemits.1 hemits.2 (hboundary stream) hcontext] at hreports
    refine ⟨hreports, hkey.trans ?_⟩
    exact iff_of_true (by simp [hnil]) hnil

end

/-! ## Observations one after another -/

/-- A report of every observation, each with a document that is accepted. -/
def Accepted (report : IncrementalReport) : Prop :=
  validateIncrementalContinuation report.continuation = .ok () ∧
    ∃ document, Json.decode (Json.encodeValue report.continuation) = some document ∧
      validateIncrementalContinuation document = .ok ()

/-- The counts of a stream over some observations. -/
def addedSummary (reports : List IncrementalReport) (stream : StreamIdentity) : StreamSummary :=
  reports.foldr (fun report sum => ((report.summaries.get? stream).getD {}).add sum) {}

/-- Observations one after another: each sees its part behind what the ones before have seen. -/
def SeesParts (catalog : Option AuditCatalog) :
    List ManifestFile → List (List ManifestFile × Observation) → Prop
  | _, [] => True
  | done, (part, o) :: rest =>
    o.Sees catalog (done ++ part) ∧ SeesParts catalog (done ++ part) rest

section

variable [Json.Reader] {catalog : Option AuditCatalog}

/-- Observations of parts behind what has been seen. -/
theorem observations_reports (hintervals : auditIntervals catalog = .ok intervals) :
    ∀ (parts : List (List ManifestFile × Observation)) {done : List ManifestFile}
      {continuation : Option Value}, ObservedFiles files (done ++ (parts.map Prod.fst).flatten) →
      SeesParts catalog done parts → (∀ p ∈ parts, p.2.Classified catalog files) →
      Resumed continuation done →
      ∃ reports, observations files catalog continuation (parts.map Prod.snd) = .ok reports ∧
        (∀ report ∈ reports, Accepted report) ∧ ∀ stream,
          ((reports.flatMap IncrementalReport.transitions).filter
              fun t => t.stream = stream).Perm
            (newTransitions intervals (auditedChunks stream done)
              (auditedChunks stream (parts.map Prod.fst).flatten)) ∧
          addedSummary reports stream = StreamSummary.ofKinds
            (auditedChunks stream (parts.map Prod.fst).flatten).length
            ((newTransitions intervals (auditedChunks stream done)
              (auditedChunks stream (parts.map Prod.fst).flatten)).map Transition.kind) ∧
          ((∃ report ∈ reports, (report.summaries.get? stream).isSome = true) ↔
            auditedChunks stream (parts.map Prod.fst).flatten ≠ [])
  | [], done, continuation, h, _, _, _ => by
    refine ⟨[], rfl, by simp, fun stream => ?_⟩
    have hnil : auditedChunks stream [] = [] := by
      unfold auditedChunks
      split <;> rfl
    rw [List.map_nil, List.flatten_nil, hnil]
    exact ⟨List.Perm.nil, rfl, by simp⟩
  | (part, o) :: parts, done, continuation, h, ⟨hsees, hparts⟩, hclassified, hresumed => by
    rw [List.map_cons, List.flatten_cons, ← List.append_assoc] at h
    rw [List.forall_mem_cons] at hclassified
    obtain ⟨report, hreport, hstreams, hdecode, hvalid, hnext⟩ :=
      incrementalAudit_reports h.left hintervals hsees hclassified.1 hresumed
    obtain ⟨reports, hreports, haccepted, hrest⟩ :=
      observations_reports hintervals parts h hparts hclassified.2 hnext
    refine ⟨report :: reports, ?_, ?_, fun stream => ?_⟩
    · have hread : readBack report.continuation = .ok report.continuation := by
        rw [readBack, hdecode]
      rw [List.map_cons, observations, hreport]
      simp only [bind, Except.bind, hread, hreports]
      rfl
    · rw [List.forall_mem_cons]
      exact ⟨⟨hvalid, _, hdecode, hvalid⟩, haccepted⟩
    · obtain ⟨⟨htransitions, hsummary⟩, hkey⟩ := hstreams stream
      obtain ⟨hperm, hsum, hkeys⟩ := hrest stream
      rw [auditedChunks_append] at hperm hsum
      rw [List.map_cons, List.flatten_cons, auditedChunks_append, newTransitions_append]
      refine ⟨?_, ?_, ?_⟩
      · rw [List.flatMap_cons, List.filter_append]
        exact htransitions.append hperm
      · rw [addedSummary, List.foldr_cons, hsummary]
        show StreamSummary.add _ (addedSummary reports stream) = _
        rw [hsum, StreamSummary.add_ofKinds, List.length_append, List.map_append]
      · rw [List.exists_mem_cons_iff, hkey, hkeys]
        simp only [ne_eq, List.append_eq_nil_iff, not_and_or]

/-- Where a loss cannot be classified, the observations come to no end. -/
theorem observations_raise (hintervals : auditIntervals catalog = .ok intervals) :
    ∀ (parts : List (List ManifestFile × Observation)) {done : List ManifestFile}
      {continuation : Option Value}, ObservedFiles files (done ++ (parts.map Prod.fst).flatten) →
      SeesParts catalog done parts → Resumed continuation done →
      ∀ {reports}, observations files catalog continuation (parts.map Prod.snd) = .ok reports →
        ∀ p ∈ parts, p.2.Classified catalog files
  | [], _, _, _, _, _, _, _ => fun p hp => absurd hp List.not_mem_nil
  | (part, o) :: parts, done, continuation, h, ⟨hsees, hparts⟩, hresumed, reports, hreports => by
    rw [List.map_cons, List.flatten_cons, ← List.append_assoc] at h
    rw [List.map_cons, observations] at hreports
    have hhead : o.Classified catalog files := by
      obtain ⟨⟨known, hknown, hpaths⟩, prior, hprior, -⟩ := hresumed
      have heq := incrementalAudit_eq h.left hsees hknown hpaths hprior
      dsimp only at heq
      rw [← exists_checks_iff hintervals]
      cases hchecks : o.checks catalog files (documentMembers (done ++ part)).keys with
      | error e =>
        rw [hchecks] at heq
        rw [heq] at hreports
        cases hreports
      | ok checks => exact ⟨checks, rfl⟩
    obtain ⟨report, hreport, -, hdecode, -, hnext⟩ :=
      incrementalAudit_reports h.left hintervals hsees hhead hresumed
    have hread : readBack report.continuation = .ok report.continuation := by
      rw [readBack, hdecode]
    rw [hreport] at hreports
    simp only [bind, Except.bind, hread] at hreports
    rw [List.forall_mem_cons]
    refine ⟨hhead, ?_⟩
    cases hrest : observations files catalog (some report.continuation) (parts.map Prod.snd) with
    | error e =>
      rw [hrest] at hreports
      cases hreports
    | ok rest => exact observations_raise hintervals parts h hparts hnext hrest

end

/-- Manifests of sealed chunks with their Raw, observed part by part beside a Catalog. -/
structure ObservedSequence (catalog : Option AuditCatalog) where
  files : RawFiles
  parts : List (List ManifestFile × Observation)
  parts_ne : parts ≠ []
  observed : ObservedFiles files (parts.map Prod.fst).flatten
  sees : SeesParts catalog [] parts

/-- Observations add up to an audit: the same transitions, the same counts under the same streams,
and documents that are accepted. They raise where the audit does, and where a loss is not
classified. -/
inductive AddsUp (classified : Prop) :
    Except String TransitionReport → Except String (List IncrementalReport) → Prop
  | raises (e e' : String) : AddsUp classified (.error e) (.error e')
  | unclassified (full : TransitionReport) (e : String) (h : ¬ classified) :
    AddsUp classified (.ok full) (.error e)
  | adds {full : TransitionReport} {reports : List IncrementalReport} (h : classified)
    (transitions : (reports.flatMap IncrementalReport.transitions).Perm full.transitions)
    (summaries : ∀ stream,
      addedSummary reports stream = (full.summaries.get? stream).getD {})
    (streams : ∀ stream, (∃ report ∈ reports, (report.summaries.get? stream).isSome = true) ↔
      (full.summaries.get? stream).isSome = true)
    (accepted : ∀ report ∈ reports, Accepted report) :
    AddsUp classified (.ok full) (.ok reports)

/-- Beside an audit, observations with every loss classified return. -/
theorem AddsUp.of_classified {classified : Prop} {full : TransitionReport}
    {observed : Except String (List IncrementalReport)} (h : AddsUp classified (.ok full) observed)
    (hclassified : classified) :
    ∃ reports, observed = .ok reports ∧
      (reports.flatMap IncrementalReport.transitions).Perm full.transitions ∧
      (∀ stream, addedSummary reports stream = (full.summaries.get? stream).getD {}) ∧
      ∀ report ∈ reports, Accepted report := by
  cases h with
  | unclassified _ _ hnot => exact absurd hclassified hnot
  | @adds _ reports _ htransitions hsummaries _ haccepted =>
    exact ⟨reports, rfl, htransitions, hsummaries, haccepted⟩

section

variable [Json.Reader] {catalog : Option AuditCatalog}

/-- A Catalog whose intervals cannot be read stops the very first pass. -/
theorem observations_error {e : String} (hintervals : auditIntervals catalog = .error e)
    {part : List ManifestFile} {o : Observation} {os : List Observation}
    (h : ObservedFiles files part) (hsees : o.Sees catalog part) :
    ∃ e', observations files catalog none (o :: os) = .error e' := by
  obtain ⟨⟨known, hknown, hpaths⟩, prior, hprior, -⟩ := resumed_none
  have heq := @incrementalAudit_eq files [] part none _ h catalog o hsees known prior hknown hpaths
    hprior
  dsimp only at heq
  rw [collectTransitions, hintervals] at heq
  rw [observations, heq]
  cases o.checks catalog files _ <;> exact ⟨_, rfl⟩

/-- **The incremental audit is the full audit**, for every sequence of sealed chunks with their Raw,
every division of it and every Catalog, whatever rows it has at each observation: as long as these
name the chunks of the part and those before it, and every loss can be classified. -/
theorem incremental_eq_full (catalog : Option AuditCatalog) (seq : ObservedSequence catalog) :
    AddsUp (∀ p ∈ seq.parts, p.2.Classified catalog seq.files)
      (collectTransitions ((seq.parts.map Prod.fst).flatten.map fun file => file.chunk.scan)
        seq.files catalog none)
      (observations seq.files catalog none (seq.parts.map Prod.snd)) := by
  obtain ⟨files, parts, hne, hobserved, hsees⟩ := seq
  dsimp only
  cases hintervals : auditIntervals catalog with
  | error e =>
    obtain ⟨⟨part, o⟩, parts, rfl⟩ := List.exists_cons_of_ne_nil hne
    rw [List.map_cons, List.flatten_cons] at hobserved
    obtain ⟨e', herror⟩ := @observations_error files _ catalog e hintervals part o
      (parts.map Prod.snd) hobserved.left hsees.1
    show AddsUp _ _ (observations files catalog none (o :: parts.map Prod.snd))
    rw [herror, collectTransitions, hintervals]
    exact .raises e e'
  | ok intervals =>
    obtain ⟨full, hfull, hstreams⟩ := collectTransitions_full hobserved hintervals
    rw [hfull]
    by_cases hclassified : ∀ p ∈ parts, p.2.Classified catalog files
    · obtain ⟨reports, hreports, haccepted, hadded⟩ :=
        @observations_reports intervals files _ catalog hintervals parts [] none hobserved hsees
          hclassified resumed_none
      rw [hreports]
      have hnil : ∀ stream, auditedChunks stream [] = [] := by
        intro stream
        unfold auditedChunks
        split <;> rfl
      refine .adds hclassified ?_ (fun stream => ?_) (fun stream => ?_) haccepted
      · refine perm_of_streams fun stream => ?_
        obtain ⟨hperm, -⟩ := hadded stream
        rw [hnil] at hperm
        exact hperm.trans (hstreams stream).1.transitions.symm
      · obtain ⟨-, hsum, -⟩ := hadded stream
        rw [hsum, (hstreams stream).1.summary, hnil]
      · exact (hadded stream).2.2.trans (hstreams stream).2.symm
    · cases hreports : observations files catalog none (parts.map Prod.snd) with
      | error e => exact .unclassified full e hclassified
      | ok reports =>
        exact absurd (@observations_raise intervals files _ catalog hintervals parts [] none
          hobserved hsees resumed_none _ hreports) hclassified

end

/-! ## A chunk without a row -/

section

open scoped Json.Grammar

def earlierChunk : SealedChunk where
  header := sampleHeader
  envelopes := [firstSampleEnvelope]
  fileSize := 400
  uncompressedSha256 := "u"
  relativePath := "data/sealed/a.zst"
  storedBytes := 300
  storedSha256 := "s"
  recovery := none
  forcedFlags := ∅
  processBoundaryBeforeFirstFrame := false
  sealedAt := 1700000000000000009

/-- The next chunk of the stream, of another connection. -/
def laterChunk : SealedChunk where
  header := { sampleHeader with
    chunkId := ⟨[0, 1, 2, 3, 4, 5, 6, 7, 8, 9, 10, 11, 12, 13, 14, 16], rfl⟩
    createdAtUtcNs := 1700000000000000010 }
  envelopes := [sampleEnvelope secondConnection []]
  fileSize := 400
  uncompressedSha256 := "u"
  relativePath := "data/sealed/b.zst"
  storedBytes := 300
  storedSha256 := "s"
  recovery := none
  forcedFlags := ∅
  processBoundaryBeforeFirstFrame := false
  sealedAt := 1700000000000000019

def bothRaw : RawFiles where
  read path :=
    if path = "data/sealed/a.zst" then some (.ok earlierChunk.envelopes)
    else if path = "data/sealed/b.zst" then some (.ok laterChunk.envelopes) else none

def earlierFile : ManifestFile := ⟨"data/manifests/a.manifest.json", [], earlierChunk⟩

def laterFile : ManifestFile := ⟨"data/manifests/b.manifest.json", [], laterChunk⟩

/-- Both manifests are there; the Catalog has rows of some paths. A source that is missing has been
deleted from the remote archive. -/
def bothPublished (paths : List String) : Observation where
  disk := [laterFile.row, earlierFile.row]
  rows := paths.map fun path => ⟨"chunk of " ++ path, some path, []⟩
  sourceLifecycle _ _ := .ok "AUTHORIZED_REMOTE_DELETE"

def quietCatalog : AuditCatalog := ⟨false, ⟨[], List.nodup_nil⟩⟩

/-- The chunks below are of a kind that the audit reads strictly. -/
theorem strict_sampleChunk {c : SealedChunk} (hmarket : c.header.market = "spot")
    (hsymbol : c.header.symbol = "BTCUSDT") (hstream : c.header.stream = "diff_depth")
    (hrecovery : c.recovery = none) : c.Strict where
  market := ⟨.spot, hmarket⟩
  symbol := by
    rw [hsymbol]
    decide
  stream := by
    rw [hstream]
    decide
  noColon := by
    rw [hstream]
    decide
  recovery := by
    rw [hrecovery]
    exact fun _ h => by cases h

/-- Both files can be read. -/
theorem observed_bothFiles : ObservedFiles bothRaw [earlierFile, laterFile] where
  nodupPaths := by decide
  nodupChunks := by decide
  path_ne := by
    rintro file hfile
    simp only [List.mem_cons, List.not_mem_nil, or_false] at hfile
    rcases hfile with rfl | rfl <;> decide
  strict := by
    rintro file hfile
    simp only [List.mem_cons, List.not_mem_nil, or_false] at hfile
    rcases hfile with rfl | rfl <;> exact strict_sampleChunk rfl rfl rfl rfl
  raw := by
    rintro file hfile
    simp only [List.mem_cons, List.not_mem_nil, or_false] at hfile
    rcases hfile with rfl | rfl
    · exact ⟨by decide, rfl⟩
    · exact ⟨by decide, rfl⟩
  ordered := by
    have hbefore : earlierFile.row.before laterFile.row := Or.inl (by decide)
    simpa using fun _ => hbefore

theorem nodup_bothPublished (paths : List String) :
    ((bothPublished paths).disk.map ManifestRow.chunkId).Nodup := by
  show [laterFile.row.chunkId, earlierFile.row.chunkId].Nodup
  rw [chunkId_row, chunkId_row]
  decide

/-- A path is observed once its manifest is committed. -/
theorem boundary_bothPublished (paths : List String) (path : String) :
    observedPath ((bothPublished paths).boundary (some quietCatalog)) path =
      decide (path ∈ paths) := by
  show decide (some path ∈ List.map _ (List.map _ paths)) = _
  simp

/-- The rows a pass sees are those whose manifests are committed, in manifest order. -/
theorem filter_bothPublished (paths : List String) :
    (bothPublished paths).disk.filter (fun row =>
        observedPath ((bothPublished paths).boundary (some quietCatalog)) row.path) =
      [laterFile.row, earlierFile.row].filter fun row => row.path ∈ paths :=
  List.filter_congr fun row _ => boundary_bothPublished paths row.path

/-- No row below is a loss. -/
theorem classified_bothPublished (paths : List String) :
    (bothPublished paths).Classified (some quietCatalog) bothRaw := by
  intro boundary h
  obtain rfl := Option.some.inj h
  set boundary : BoundaryCatalog :=
    ⟨quietCatalog, (bothPublished paths).rows, (bothPublished paths).sourceLifecycle⟩
  have habsences : absences boundary bothRaw (bothPublished paths).disk = [] := by
    rw [absences, List.filter_eq_nil_iff]
    intro chunk hchunk
    rw [List.mem_insertionSort] at hchunk
    have hread : (bothRaw.read (manifestText chunk.manifest "relative_path")).isNone = false := by
      simp only [bothPublished, List.mem_cons, List.not_mem_nil, or_false] at hchunk
      rcases hchunk with rfl | rfl <;> rfl
    simp [hread]
  obtain ⟨lost, hlost⟩ : ∃ lost, (lostRows boundary (bothPublished paths).disk).mapM (fun key => do
      let classification ← classifyMissingLocalSource boundary key.1 key.2
      return RawLoss.mk key.1 key.2 classification) = Except.ok lost :=
    Fallible.exists_mapM_ok fun key _ => ⟨⟨key.1, key.2, "AUTHORIZED_REMOTE_DELETE"⟩, rfl⟩
  refine ⟨[] ++ lost, ?_⟩
  show rawLosses boundary bothRaw _ = _
  rw [rawLosses, habsences, hlost]
  rfl

/-- Both chunks are audited, and their boundary is a change of connections. -/
theorem full_bothFiles : ∃ full, collectTransitions
    ([earlierFile, laterFile].map fun file => file.chunk.scan) bothRaw (some quietCatalog) none =
      .ok full ∧ ∃ t ∈ full.transitions, t.kind = .unmarkedReconnect := by
  obtain ⟨full, hfull, hstreams⟩ := @collectTransitions_full [] bothRaw _ _ observed_bothFiles
    (some quietCatalog) rfl
  refine ⟨full, hfull, ?_⟩
  have hperm := (hstreams earlierChunk.identity).1.transitions
  have hbrought : (newTransitions [] [] (auditedChunks earlierChunk.identity
      [earlierFile, laterFile])).map Transition.kind = [.unmarkedReconnect] := by
    decide +kernel
  obtain ⟨t, ht, hkind⟩ := List.mem_map.mp (hbrought ▸ List.mem_singleton_self _)
  exact ⟨t, List.mem_of_mem_filter (hperm.mem_iff.mpr ht), hkind⟩

/-- **A chunk that no row of the Catalog names is not observed**: with no rows the observations
report nothing, and the audit of the sequence has its transition. -/
theorem unnamed_chunk_not_reported : ∃ full reports,
    collectTransitions ([earlierFile, laterFile].map fun file => file.chunk.scan) bothRaw
      (some quietCatalog) none = .ok full ∧
    observations bothRaw (some quietCatalog) none [bothPublished [], bothPublished []] =
      .ok reports ∧
    (∃ t ∈ full.transitions, t.kind = .unmarkedReconnect) ∧
    reports.flatMap IncrementalReport.transitions = [] := by
  obtain ⟨full, hfull, htransition⟩ := full_bothFiles
  have hnone : ObservedFiles bothRaw [] :=
    ⟨List.nodup_nil, List.nodup_nil, by simp, by simp, by simp, List.Pairwise.nil⟩
  have hsees : (bothPublished []).Sees (some quietCatalog) [] := by
    refine ⟨nodup_bothPublished _, ?_⟩
    rw [filter_bothPublished]
    simp
  have hclassified : ∀ p ∈ [([], bothPublished []), (([] : List ManifestFile), bothPublished [])],
      p.2.Classified (some quietCatalog) bothRaw := by
    intro p hp
    simp only [List.mem_cons, List.not_mem_nil, or_false, or_self] at hp
    subst hp
    exact classified_bothPublished []
  obtain ⟨reports, hreports, -, hadded⟩ :=
    @observations_reports [] bothRaw _ (some quietCatalog) rfl
      [([], bothPublished []), ([], bothPublished [])] [] none hnone ⟨hsees, hsees, trivial⟩
      hclassified resumed_none
  refine ⟨full, reports, hfull, hreports, htransition, List.eq_nil_iff_forall_not_mem.mpr ?_⟩
  intro t ht
  have hperm := (hadded t.stream).1
  have hmem := hperm.mem_iff.mp (List.mem_filter.mpr ⟨ht, decide_eq_true rfl⟩)
  have hnil : auditedChunks t.stream [] = [] := by
    unfold auditedChunks
    split <;> rfl
  simp [hnil, newTransitions, KeyedFold.Pass.outs] at hmem

/-- The rows of the first observation: the second manifest is there already, and one is gone. -/
def earlierRows : List String :=
  ["data/manifests/a.manifest.json", "data/manifests/gone.manifest.json"]

def laterRows : List String := earlierRows ++ ["data/manifests/b.manifest.json"]

def twoObservations : ObservedSequence (some quietCatalog) where
  files := bothRaw
  parts := [([earlierFile], bothPublished earlierRows), ([laterFile], bothPublished laterRows)]
  parts_ne := List.cons_ne_nil _ _
  observed := observed_bothFiles
  sees := by
    refine ⟨⟨nodup_bothPublished _, ?_⟩, ⟨nodup_bothPublished _, ?_⟩, trivial⟩
    · rw [filter_bothPublished]
      exact List.Perm.refl [earlierFile.row]
    · rw [filter_bothPublished]
      exact List.Perm.swap earlierFile.row laterFile.row []

theorem incremental_eq_full_sample : ∃ full reports,
    collectTransitions ([earlierFile, laterFile].map fun file => file.chunk.scan) bothRaw
      (some quietCatalog) none = .ok full ∧
    observations bothRaw (some quietCatalog) none
      [bothPublished earlierRows, bothPublished laterRows] = .ok reports ∧
    (∃ t ∈ reports.flatMap IncrementalReport.transitions, t.kind = .unmarkedReconnect) ∧
    (reports.flatMap IncrementalReport.transitions).Perm full.transitions ∧
    (∀ stream, addedSummary reports stream = (full.summaries.get? stream).getD {}) ∧
    ∀ report ∈ reports, Accepted report := by
  obtain ⟨full, hfull, t, ht, hkind⟩ := full_bothFiles
  have hclassified : ∀ p ∈ twoObservations.parts,
      p.2.Classified (some quietCatalog) twoObservations.files := by
    intro p hp
    have hparts : p = ([earlierFile], bothPublished earlierRows) ∨
        p = ([laterFile], bothPublished laterRows) := by simpa [twoObservations] using hp
    rcases hparts with rfl | rfl
    · exact classified_bothPublished earlierRows
    · exact classified_bothPublished laterRows
  have h := incremental_eq_full (some quietCatalog) twoObservations
  have hscans : (twoObservations.parts.map Prod.fst).flatten.map (fun file => file.chunk.scan) =
      [earlierFile, laterFile].map fun file => file.chunk.scan := rfl
  have hfiles : twoObservations.files = bothRaw := rfl
  rw [hscans, hfiles, hfull] at h
  obtain ⟨reports, hreports, hperm, hsummaries, haccepted⟩ := h.of_classified hclassified
  exact ⟨full, reports, hfull, hreports, ⟨t, hperm.mem_iff.mpr ht, hkind⟩, hperm, hsummaries,
    haccepted⟩

end

end MarketDataRecorder
