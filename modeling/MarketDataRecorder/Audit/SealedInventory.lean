import MarketDataRecorder.Audit.ReconnectBoundaries

/-!
# Sealed chunks under a data root

The chunks that an audit of reconnect boundaries reads: sealed ones, each with its manifest, some
with their Raw and some without. What the audit loads of a chunk, and what it knows of the
connections at its ends.
-/

namespace MarketDataRecorder

/-! ## Chunks -/

namespace SealedChunk

variable (c : SealedChunk)

def identity : StreamIdentity := ⟨c.header.market, c.header.symbol, c.header.stream⟩

/-- The chunk as the inventory of the manifests has it. -/
def scan : ChunkScan := { manifest := c.manifest.document }

/-- The stream is one whose connections are looked at. -/
def Audited : Prop := c.header.stream ∈ websocketStreams c.header.market

instance : Decidable c.Audited := inferInstanceAs (Decidable (_ ∈ _))

/-- The Raw of the chunk is there to be read. -/
def HasRaw (files : RawFiles) : Prop :=
  c.relativePath ≠ "" ∧ ∃ envelopes, files.read c.relativePath = some (.ok envelopes)

end SealedChunk

/-- The sealed chunks under a data root, in the order in which they are audited. -/
structure Inventory where
  chunks : List SealedChunk
  nodup : (chunks.map SealedChunk.chunkId).Nodup
  files : RawFiles
  /-- A Raw file that can be read has the frames of its chunk. -/
  content : ∀ c ∈ chunks, ∀ envelopes,
    files.read c.relativePath = some (.ok envelopes) → envelopes = c.envelopes

namespace Inventory

variable (inv : Inventory)

/-- What is audited. -/
def scans : List ChunkScan := inv.chunks.map SealedChunk.scan

/-- A chunk with its frames, where they are there. -/
def loaded (c : SealedChunk) : ChunkScan := loadFrames inv.files c.scan

end Inventory

/-! ## The manifest of a sealed chunk -/

theorem filterMap_str (names : List String) :
    (names.map Value.str).filterMap (fun x =>
      match x with
      | .str s => some s
      | _ => none) = names := by
  rw [List.filterMap_map]
  exact List.filterMap_some

/-- The statistics count every envelope. -/
theorem foldl_add_recordCount :
    ∀ (es : List EventEnvelope) (s : ChunkStatistics),
      (es.foldl ChunkStatistics.add s).recordCount = s.recordCount + es.length
  | [], _ => rfl
  | e :: rest, s => by
    have hadd : (s.add e).recordCount = s.recordCount + 1 := by
      unfold ChunkStatistics.add
      dsimp only
      have hfold : ∀ (l : List (NonEmptyText × SequenceValue)) (s : ChunkStatistics),
          (l.foldl ChunkStatistics.addSequenceValue s).recordCount = s.recordCount := by
        intro l
        induction l with
        | nil => exact fun _ => rfl
        | cons p l ih =>
          intro s
          rw [List.foldl_cons, ih]
          unfold ChunkStatistics.addSequenceValue
          dsimp only
          split <;> rfl
      rw [hfold]
    rw [List.foldl_cons, foldl_add_recordCount rest, hadd, List.length_cons]
    omega

namespace SealedChunk

variable (c : SealedChunk)

/-- The manifest counts the records. -/
theorem manifest_recordCount : c.manifest.recordCount = c.envelopes.length := by
  show (chunkStatistics c.envelopes).recordCount = _
  rw [chunkStatistics, foldl_add_recordCount, Nat.zero_add]

/-- The manifest lists the connections of the records. -/
theorem manifest_connectionIds : c.manifest.connectionIds = c.connections.toFinset := by
  show (chunkStatistics c.envelopes).connectionIds = _
  rw [chunkStatistics, foldl_add_connectionIds, Finset.empty_union]
  rfl

@[simp] theorem manifestText_chunkId : manifestText c.scan.manifest "chunk_id" = c.chunkId := by
  rw [manifestText, scan, Manifest.get?_chunkId]
  rfl

@[simp] theorem manifestText_market :
    manifestText c.scan.manifest "market" = c.header.market := by
  rw [manifestText, scan, Manifest.get?_market]
  rfl

@[simp] theorem manifestText_stream :
    manifestText c.scan.manifest "stream" = c.header.stream := by
  rw [manifestText, scan, Manifest.get?_stream]
  rfl

@[simp] theorem manifestText_relativePath :
    manifestText c.scan.manifest "relative_path" = c.relativePath := by
  rw [manifestText, scan, Manifest.get?_relativePath]
  rfl

@[simp] theorem manifestStream_scan : manifestStream c.scan.manifest = c.identity := by
  have hsymbol : manifestText c.scan.manifest "symbol" = c.header.symbol := by
    rw [manifestText, scan, Manifest.get?_symbol]
    rfl
  rw [manifestStream, manifestText_market, manifestText_stream, hsymbol, identity]

/-- The listed connections are read in order. -/
theorem manifestConnections_scan :
    manifestConnections c.scan.manifest = c.manifest.connectionIds.sort (· ≤ ·) := by
  rw [manifestConnections, manifestTexts, scan, Manifest.get?_connectionIds, sortedArray]
  exact filterMap_str _

/-- A chunk has one connection where its manifest lists one. -/
theorem onlyConnection_scan {connection : String} :
    onlyConnection c.scan.manifest = some connection ↔
      c.manifest.connectionIds = {connection} := by
  rw [onlyConnection, manifestConnections_scan]
  constructor
  · intro h
    split at h
    · next only hsort =>
      obtain rfl := Option.some.inj h
      rw [← Finset.sort_toFinset c.manifest.connectionIds (· ≤ ·), hsort]
      rfl
    · cases h
  · intro h
    rw [h, Finset.sort_singleton]

theorem onlyConnection_isSome :
    (onlyConnection c.scan.manifest).isSome = true ↔ c.manifest.connectionIds.card = 1 := by
  rw [Option.isSome_iff_exists, Finset.card_eq_one]
  simp only [onlyConnection_scan]

/-! ## What is loaded of it -/

theorem manifest_loadFrames (files : RawFiles) :
    (loadFrames files c.scan).manifest = c.scan.manifest := by
  unfold loadFrames
  split
  · rfl
  · split
    · rfl
    · split <;> rfl

/-- A file that cannot be read has no frames. -/
theorem not_loaded (files : RawFiles) (h : ¬ c.HasRaw files) :
    (loadFrames files c.scan).frames = none := by
  rw [loadFrames, if_neg (by simp [scan]), manifestText_relativePath]
  split
  · rfl
  · next hpath =>
    split
    · rfl
    · rfl
    · next envelopes hread => exact absurd ⟨hpath, envelopes, hread⟩ h

end SealedChunk

namespace Inventory

variable {inv : Inventory} {c : SealedChunk}

/-- A readable file has the frames of its records. -/
theorem frames_of_hasRaw (hc : c ∈ inv.chunks) (h : c.HasRaw inv.files) :
    (inv.loaded c).frames =
      some (c.envelopes.mapIdx (frameIdentity c.chunkId)) := by
  obtain ⟨hpath, envelopes, hread⟩ := h
  have hcontent := inv.content c hc envelopes hread
  rw [loaded, loadFrames, if_neg (by simp [SealedChunk.scan]),
    SealedChunk.manifestText_relativePath,
    if_neg hpath, hread]
  show some (scanChunkFrames c.scan.manifest envelopes) = _
  rw [scanChunkFrames, SealedChunk.manifestText_chunkId, hcontent]

/-- A frame has the connection of its record. -/
theorem connectionIds_frames (chunkId : String) (envelopes : List EventEnvelope) :
    (envelopes.mapIdx (frameIdentity chunkId)).map FrameIdentity.connectionId =
      envelopes.map fun e => e.connectionId.val :=
  List.ext_getElem (by simp) (by simp [frameIdentity])

/-- A chunk is a marker where it has no frames. -/
theorem zeroRecordChunk_iff (hc : c ∈ inv.chunks) :
    zeroRecordChunk (inv.loaded c) = true ↔ c.envelopes = [] := by
  have hcount : (inv.loaded c).manifest.get? "record_count" =
      some (.int c.envelopes.length) := by
    rw [loaded, SealedChunk.manifest_loadFrames, SealedChunk.scan, Manifest.get?_recordCount,
      SealedChunk.manifest_recordCount]
  rw [zeroRecordChunk, hcount, Bool.and_eq_true, decide_eq_true_eq]
  constructor
  · rintro ⟨h, -⟩
    have hzero : (c.envelopes.length : Int) = 0 := by simpa using h
    exact List.length_eq_zero_iff.mp (by omega)
  · intro h
    refine ⟨by simp [h], ?_⟩
    by_cases hraw : c.HasRaw inv.files
    · rw [frames_of_hasRaw hc hraw, h]
      rfl
    · rw [loaded, SealedChunk.not_loaded c _ hraw]
      rfl

/-- The connection at the end of a chunk with its Raw is that of its last frame. -/
theorem lastConnection_of_hasRaw (hc : c ∈ inv.chunks) (h : c.HasRaw inv.files) :
    (lastConnection (inv.loaded c)).1 = c.connections.getLast? := by
  rw [lastConnection, frames_of_hasRaw hc h, SealedChunk.connections,
    ← connectionIds_frames c.chunkId, List.getLast?_map]

/-- The first connection of a readable chunk is that of its first record. -/
theorem firstConnection_of_hasRaw (hc : c ∈ inv.chunks) (h : c.HasRaw inv.files) :
    (firstConnection (inv.loaded c)).1 = c.connections.head? := by
  rw [firstConnection, frames_of_hasRaw hc h, SealedChunk.connections,
    ← connectionIds_frames c.chunkId, List.head?_map]

/-- Of an unreadable chunk both ends are its only connection, if it has one. -/
theorem connection_of_not_hasRaw (h : ¬ c.HasRaw inv.files) :
    (lastConnection (inv.loaded c)).1 = onlyConnection c.scan.manifest ∧
      (firstConnection (inv.loaded c)).1 = onlyConnection c.scan.manifest := by
  rw [lastConnection, firstConnection, loaded, SealedChunk.not_loaded c _ h,
    SealedChunk.manifest_loadFrames]
  exact ⟨rfl, rfl⟩

/-- A known connection at an end of a chunk is one of its connections. -/
theorem mem_connections_of_last (hc : c ∈ inv.chunks) {x : String}
    (h : (lastConnection (inv.loaded c)).1 = some x ∨
      (firstConnection (inv.loaded c)).1 = some x) :
    x ∈ c.manifest.connectionIds := by
  by_cases hraw : c.HasRaw inv.files
  · rw [SealedChunk.manifest_connectionIds, List.mem_toFinset]
    rw [lastConnection_of_hasRaw hc hraw, firstConnection_of_hasRaw hc hraw] at h
    exact h.elim List.mem_of_getLast? List.mem_of_mem_head?
  · rw [(connection_of_not_hasRaw hraw).1, (connection_of_not_hasRaw hraw).2, or_self,
      SealedChunk.onlyConnection_scan] at h
    rw [h]
    exact Finset.mem_singleton_self x

theorem manifestText_loaded : manifestText (inv.loaded c).manifest "chunk_id" = c.chunkId := by
  rw [loaded, SealedChunk.manifest_loadFrames, SealedChunk.manifestText_chunkId]

/-- An audited chunk is under its own stream. -/
theorem auditedStream_loaded (h : c.Audited) : auditedStream (inv.loaded c) = some c.identity := by
  rw [auditedStream, loaded, SealedChunk.manifest_loadFrames, SealedChunk.manifestText_market,
    SealedChunk.manifestStream_scan]
  refine if_pos ?_
  unfold SealedChunk.Audited websocketStreams at h
  split at h
  · next hmarket => simp [hmarket]
  · split at h
    · next hmarket => simp [hmarket]
    · cases h

theorem identity_of_auditedStream {stream : StreamIdentity}
    (h : auditedStream (inv.loaded c) = some stream) : c.identity = stream := by
  rw [auditedStream, loaded, SealedChunk.manifest_loadFrames,
    SealedChunk.manifestStream_scan] at h
  split at h
  · exact Option.some.inj h
  · cases h

/-- Loading the frames decides no chunk's audit. -/
theorem isWebsocketChunk_loaded : isWebsocketChunk (inv.loaded c) = true ↔ c.Audited := by
  rw [isWebsocketChunk, loaded, SealedChunk.manifest_loadFrames, SealedChunk.manifestText_market,
    SealedChunk.manifestText_stream, decide_eq_true_eq, SealedChunk.Audited]

end Inventory

end MarketDataRecorder
