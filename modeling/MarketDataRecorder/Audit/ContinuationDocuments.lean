import MarketDataRecorder.Audit.Continuation
import MarketDataRecorder.Audit.SealedInventory
import MarketDataRecorder.Lib.Fallible

/-!
# Continuation documents

What a continuation document keeps of the contexts of an audit. It is JSON, it is accepted, and
reading it gives the contexts back with the last two frames of each chunk.

* `plain_continuationDocument` — the document is JSON that is read as itself
* `continuationContexts_document` — what is read from it
-/

namespace MarketDataRecorder

open Fallible

/-! ## Frames -/

/-- The frame of an envelope in a chunk with an id. -/
structure FrameIdentity.WellFormed (frame : FrameIdentity) : Prop where
  chunkId : frame.chunkId ≠ ""
  connectionId : frame.connectionId ≠ ""
  digest : isDigest frame.payloadSha256 = true
  sequence : frame.sourceSequence.Pairwise fun a b => a.1 < b.1

theorem ne_empty_of_nonEmptyText (text : NonEmptyText) : text.val ≠ "" := by
  intro h
  have hlength := text.property.1
  rw [h] at hlength
  exact absurd hlength (by decide)

/-- The identity of a frame of a named chunk is well formed. -/
theorem wellFormed_frameIdentity {chunkId : String} (h : chunkId ≠ "") (index : Nat)
    (envelope : EventEnvelope) : (frameIdentity chunkId index envelope).WellFormed where
  chunkId := h
  connectionId := ne_empty_of_nonEmptyText _
  digest := isDigest_sha256Hex _
  sequence := List.pairwise_map.mpr (envelope.sourceSequence.sorted.imp fun h => h)

theorem evidenceText_of_get? {document : Value} {name text : String}
    (h : document.get? name = some (.str text)) (hne : text ≠ "") :
    evidenceText document name = some text := by
  rw [evidenceText, h]
  exact if_neg hne

theorem evidenceInt_of_get? {document : Value} {name : String} {i : Int}
    (h : document.get? name = some (.int i)) : evidenceInt document name = some i := by
  rw [evidenceInt, h]

/-- A list of texts reads back. -/
theorem textArray_map (names : List String) :
    textArray (.list (names.map .str)) = some names :=
  @EventEnvelope.mapM_some_of_forall _ _ _ Value.str (fun _ => rfl) names

/-- An optional integer reads back, absent as `None`. -/
theorem optionalIntField_optionalIntValue (o : Option Int) :
    optionalIntField (some (optionalIntValue o)) = some o := by
  cases o <;> rfl

/-- The source sequences of a frame read back. -/
theorem sequenceDict_map (items : List (String × SequenceValue)) :
    sequenceDict (.dict (items.map fun item => (item.1, item.2.toValue))) = some items :=
  EventEnvelope.mapM_some_of_forall (fun item => by simp) items

/-- A frame is read back from its document. -/
theorem frameFromDocument_frameDocument {frame : FrameIdentity} (h : frame.WellFormed) :
    frameFromDocument (frameDocument frame) = some frame := by
  have hchunk : evidenceText (frameDocument frame) "chunk_id" = some frame.chunkId :=
    evidenceText_of_get? rfl h.chunkId
  have hconnection : evidenceText (frameDocument frame) "connection_id" =
      some frame.connectionId := evidenceText_of_get? rfl h.connectionId
  have hdigest : digestField (frameDocument frame) "payload_sha256" =
      some frame.payloadSha256 := if_pos h.digest
  have hflags : ((frameDocument frame).get? "capture_flags").bind textArray =
      some frame.captureFlags := textArray_map _
  have hsequence : ((frameDocument frame).get? "source_sequence").bind sequenceDict =
      some frame.sourceSequence := sequenceDict_map _
  have hindex : evidenceInt (frameDocument frame) "frame_index" = some frame.frameIndex := rfl
  have htime : evidenceInt (frameDocument frame) "receive_time_utc_ns" =
      some frame.receiveTimeUtcNs := rfl
  have hexchange : optionalIntField ((frameDocument frame).get? "exchange_event_time_ns") =
      some frame.exchangeEventTimeNs := optionalIntField_optionalIntValue _
  simp only [frameFromDocument, hchunk, hconnection, hdigest, hflags, hsequence, hindex, htime,
    hexchange, Option.bind_eq_bind, Option.bind_some, Option.pure_def]

theorem plain_sequenceValue (v : SequenceValue) : Json.Plain v.toValue := by
  cases v <;> trivial

theorem plain_texts (names : List String) : Json.Plain (.list (names.map .str)) := by
  refine Json.plainElements_iff.mpr fun x hx => ?_
  obtain ⟨name, -, rfl⟩ := List.mem_map.mp hx
  trivial

/-- The document of a well-formed frame holds JSON values only. -/
theorem plain_frameDocument {frame : FrameIdentity} (h : frame.WellFormed) :
    Json.Plain (frameDocument frame) := by
  have hkeys : ["capture_flags", "chunk_id", "connection_id", "exchange_event_time_ns",
      "frame_index", "payload_sha256", "receive_time_utc_ns", "source_sequence"].Pairwise
        (· < ·) := by decide
  refine ⟨List.pairwise_map.mp hkeys, ?_⟩
  have htime : Json.Plain (optionalIntValue frame.exchangeEventTimeNs) := by
    cases frame.exchangeEventTimeNs <;> trivial
  have hsequence : Json.Plain (.dict (frame.sourceSequence.map fun item =>
      (item.1, item.2.toValue))) := by
    refine ⟨List.pairwise_map.mpr h.sequence, Json.plainMembers_iff.mpr fun item hitem => ?_⟩
    obtain ⟨item, -, rfl⟩ := List.mem_map.mp hitem
    exact plain_sequenceValue _
  exact ⟨plain_texts _, trivial, trivial, htime, trivial, trivial, trivial, hsequence, trivial⟩

/-! ## Manifests -/

/-- What the strict reader of manifests makes sure of, and what the recorder's names are like: the
name of a stream, be it one of its own names or that of a group, has no colon. -/
structure SealedChunk.Strict (c : SealedChunk) : Prop where
  market : ∃ market : Market, c.header.market = market.text
  symbol : c.header.symbol ≠ ""
  stream : c.header.stream ≠ ""
  noColon : ':' ∉ c.header.stream.toList
  recovery : ∀ evidence, c.recovery = some evidence → Json.Plain evidence

theorem plain_sortedArray (names : Finset String) : Json.Plain (sortedArray names) := plain_texts _

theorem plain_naturalRange {low high : Value} (hlow : Json.Plain low) (hhigh : Json.Plain high) :
    Json.Plain (naturalRange low high) := by
  have hkeys : ["max", "min"].Pairwise (· < ·) := by decide
  exact ⟨List.pairwise_map.mp hkeys, hhigh, hlow, trivial⟩

theorem plain_optionalInt (o : Option Nat) : Json.Plain (EventEnvelope.optionalInt o) := by
  cases o <;> trivial

/-- The items of a manifest are in key order. -/
theorem pairwise_items (m : Manifest) : m.items.Pairwise fun p q => p.1 < q.1 := by
  have hshort : ["capture_flags", "chunk_id", "chunk_schema_version", "collector_instance_ids",
      "collector_version", "complete", "compression", "connection_ids", "created_at_utc_ns",
      "envelope_schema_version", "exchange_time_ranges", "fsync_completed_at_utc_ns", "gap",
      "manifest_schema_version", "market", "overlap", "receive_monotonic_range_ns",
      "receive_time_utc_range_ns", "record_count", "recovered", "recovery", "relative_path",
      "resync", "sealed_at_utc_ns", "sequence_ranges", "stored_bytes", "stored_sha256", "stream",
      "symbol", "uncompressed_bytes", "uncompressed_sha256"].Pairwise (· < ·) := by decide
  have hlong : ["capture_flags", "chunk_id", "chunk_schema_version", "collector_instance_ids",
      "collector_version", "complete", "compression", "connection_ids", "created_at_utc_ns",
      "envelope_schema_version", "exchange_time_ranges", "fsync_completed_at_utc_ns", "gap",
      "manifest_schema_version", "market", "overlap", "process_boundary_before_first_frame",
      "receive_monotonic_range_ns", "receive_time_utc_range_ns", "record_count", "recovered",
      "recovery", "relative_path", "resync", "sealed_at_utc_ns", "sequence_ranges",
      "stored_bytes", "stored_sha256", "stream", "symbol", "uncompressed_bytes",
      "uncompressed_sha256"].Pairwise (· < ·) := by decide
  refine List.pairwise_map.mp ?_
  unfold Manifest.items
  cases m.processBoundaryBeforeFirstFrame with
  | false => exact hshort
  | true => exact hlong

/-- The manifest of a sealed chunk is JSON. -/
theorem plain_manifest {c : SealedChunk} (h : c.Strict) : Json.Plain c.manifest.document := by
  have hcompression : Json.Plain c.manifest.compression := by
    have hkeys : ["checksum", "content_size", "dictionary_id", "level", "schema_version",
        "threads"].Pairwise (· < ·) := by decide
    exact ⟨List.pairwise_map.mp hkeys, trivial, trivial, trivial, trivial, trivial, trivial,
      trivial⟩
  have hexchange : Json.Plain (.dict (c.manifest.exchangeTimeRanges.map fun r =>
      (r.1, naturalRange (.int r.2.1) (.int r.2.2)))) := by
    refine ⟨List.pairwise_map.mpr
      ((chunkStatistics c.envelopes).exchangeTimeRanges.sorted.imp fun h => h),
      Json.plainMembers_iff.mpr fun item hitem => ?_⟩
    obtain ⟨r, -, rfl⟩ := List.mem_map.mp hitem
    exact plain_naturalRange trivial trivial
  have hsequence : Json.Plain (.dict (c.manifest.sequenceRanges.map fun r =>
      (r.1, naturalRange r.2.1.toValue r.2.2.toValue))) := by
    refine ⟨List.pairwise_map.mpr
      ((chunkStatistics c.envelopes).sequenceValues.sorted.imp fun h => h),
      Json.plainMembers_iff.mpr fun item hitem => ?_⟩
    obtain ⟨r, -, rfl⟩ := List.mem_map.mp hitem
    exact plain_naturalRange (plain_sequenceValue _) (plain_sequenceValue _)
  have hrecovery : Json.Plain (c.manifest.recovery.getD .null) := by
    show Json.Plain (c.recovery.getD .null)
    cases hr : c.recovery with
    | none => trivial
    | some evidence => exact h.recovery evidence hr
  refine ⟨pairwise_items _, Json.plainMembers_iff.mpr ?_⟩
  unfold Manifest.items
  simp only [List.forall_mem_append, List.forall_mem_cons]
  refine ⟨⟨⟨plain_sortedArray _, trivial, trivial, plain_sortedArray _, trivial, trivial,
    hcompression, plain_sortedArray _, trivial, trivial, hexchange, trivial, trivial, trivial,
    trivial, trivial, by simp⟩, ?_⟩, plain_naturalRange (plain_optionalInt _) (plain_optionalInt _),
    plain_naturalRange (plain_optionalInt _) (plain_optionalInt _), trivial, trivial, hrecovery,
    trivial, trivial, trivial, hsequence, trivial, trivial, trivial, trivial, trivial, trivial,
    by simp⟩
  intro item hitem
  split at hitem
  · obtain rfl := List.mem_singleton.mp hitem
    trivial
  · cases hitem

/-! ## Chunks -/

/-- A chunk as a continuation keeps it. -/
def ChunkScan.kept (chunk : ChunkScan) : ChunkScan :=
  { chunk with frames := chunk.frames.map lastTwo }

/-- A chunk of a context: a sealed chunk with its frames, or with the last of them. -/
structure ContextOf (c : SealedChunk) (chunk : ChunkScan) : Prop where
  manifest : chunk.manifest = c.manifest.document
  frames : ∃ frames, chunk.frames = some frames ∧
    ∀ frame ∈ frames, frame.WellFormed ∧ frame.chunkId = c.chunkId
  issue : chunk.issue = none
  deepScanAllowed : chunk.deepScanAllowed = false

/-- The last two frames are frames. -/
theorem mem_of_mem_lastTwo {frame : FrameIdentity} {frames : List FrameIdentity}
    (h : frame ∈ lastTwo frames) : frame ∈ frames := List.mem_of_mem_drop h

/-- Keeping the last two frames twice keeps the same two. -/
theorem lastTwo_lastTwo (frames : List FrameIdentity) :
    lastTwo (lastTwo frames) = lastTwo frames := by
  unfold lastTwo
  rw [List.drop_drop, List.length_drop]
  congr 1
  omega

/-- What a context keeps of a chunk, it keeps of what it kept. -/
@[simp] theorem kept_kept (chunk : ChunkScan) : chunk.kept.kept = chunk.kept := by
  unfold ChunkScan.kept
  cases chunk.frames with
  | none => rfl
  | some frames => simp [lastTwo_lastTwo]

/-- A context keeps the manifest. -/
@[simp] theorem manifest_kept (chunk : ChunkScan) : chunk.kept.manifest = chunk.manifest := rfl

theorem uuidText_ne_empty (u : UUID) : uuidText u ≠ "" := by
  intro h
  have hmem : '-' ∈ (uuidText u).toList := by
    rw [uuidText, String.toList_ofList]
    simp
  rw [h] at hmem
  cases hmem

section

variable {c : SealedChunk} {chunk : ChunkScan}

/-- What is kept of a context of a chunk is a context of that chunk. -/
theorem ContextOf.kept (h : ContextOf c chunk) : ContextOf c chunk.kept where
  manifest := h.manifest
  frames := by
    obtain ⟨frames, hframes, hgood⟩ := h.frames
    refine ⟨lastTwo frames, ?_, fun frame hframe => hgood frame (mem_of_mem_lastTwo hframe)⟩
    rw [ChunkScan.kept, hframes, Option.map_some]
  issue := h.issue
  deepScanAllowed := h.deepScanAllowed

theorem market_text_ne_empty (market : Market) : market.text ≠ "" := by
  cases market <;> decide

/-- **The manifest of a sealed chunk passes the checks on a context.** -/
theorem contextManifestValid_document (hstrict : c.Strict) :
    contextManifestValid c.manifest.document = true := by
  obtain ⟨market, hmarket⟩ := hstrict.market
  have hchunk := evidenceText_of_get? c.manifest.get?_chunkId (uuidText_ne_empty _)
  have hm : evidenceText c.manifest.document "market" = some c.header.market :=
    evidenceText_of_get? c.manifest.get?_market (hmarket ▸ market_text_ne_empty market)
  have hsymbol : evidenceText c.manifest.document "symbol" = some c.header.symbol :=
    evidenceText_of_get? c.manifest.get?_symbol hstrict.symbol
  have hstream : evidenceText c.manifest.document "stream" = some c.header.stream :=
    evidenceText_of_get? c.manifest.get?_stream hstrict.stream
  have hcreated := evidenceInt_of_get? c.manifest.get?_createdAtUtcNs
  have hcount := evidenceInt_of_get? c.manifest.get?_recordCount
  have hconnections : textArray (sortedArray c.manifest.connectionIds) =
      some (c.manifest.connectionIds.sort (· ≤ ·)) := textArray_map _
  simp [contextManifestValid, hchunk, hm, hsymbol, hstream, hcreated, hcount, hconnections]

/-- The frames of a context read back. -/
theorem contextFrames_document {frames : List FrameIdentity}
    (hgood : ∀ frame ∈ frames, frame.WellFormed) :
    contextFrames (some (.list (frames.map frameDocument))) = .ok (some frames) := by
  have hdict : (frames.map frameDocument).all Value.isDict = true := by
    rw [List.all_map, List.all_eq_true]
    exact fun frame _ => rfl
  have hread : (frames.map frameDocument).mapM frameFromDocument = some frames := by
    induction frames with
    | nil => rfl
    | cons frame frames ih =>
      rw [List.forall_mem_cons] at hgood
      rw [List.map_cons, List.mapM_cons, frameFromDocument_frameDocument hgood.1,
        ih hgood.2 (by rw [List.all_map, List.all_eq_true]; exact fun frame _ => rfl)]
      rfl
  rw [contextFrames, if_pos hdict, hread]

/-- A chunk is read back from its document with its last two frames. -/
theorem chunkFromContext_document (hstrict : c.Strict) (h : ContextOf c chunk) :
    chunkFromContext (chunkContextDocument chunk) = .ok chunk.kept := by
  obtain ⟨hmanifest, ⟨frames, hframes, hgood⟩, hissue, hdeep⟩ := h
  obtain ⟨manifest, _, _, _⟩ := chunk
  subst hmanifest hframes hissue hdeep
  have hget : (chunkContextDocument ⟨c.manifest.document, some frames, none, false⟩).get?
      "manifest" = some (.dict c.manifest.items) := rfl
  have hlast : contextFrames ((chunkContextDocument
      ⟨c.manifest.document, some frames, none, false⟩).get? "frames") =
        .ok (some (lastTwo frames)) :=
    contextFrames_document fun frame hframe => (hgood frame (mem_of_mem_lastTwo hframe)).1
  have hid : manifestText (.dict c.manifest.items) "chunk_id" = c.chunkId :=
    c.manifestText_chunkId
  have hsame : ((some (lastTwo frames)).getD []).any (fun frame =>
      frame.chunkId ≠ manifestText (.dict c.manifest.items) "chunk_id") = false := by
    rw [Option.getD_some, hid, List.any_eq_false]
    intro frame hframe
    simpa using (hgood frame (mem_of_mem_lastTwo hframe)).2
  have hvalid : ¬ contextManifestValid (.dict c.manifest.items) = false := by
    rw [Bool.not_eq_false]
    exact contextManifestValid_document hstrict
  rw [chunkFromContext, hget]
  dsimp only
  rw [if_neg hvalid, hlast]
  dsimp only
  rw [hsame]
  rfl

/-- The document of a chunk's context holds JSON values only. -/
theorem plain_chunkContextDocument (hstrict : c.Strict) (h : ContextOf c chunk) :
    Json.Plain (chunkContextDocument chunk) := by
  obtain ⟨hmanifest, ⟨frames, hframes, hgood⟩, hissue, -⟩ := h
  have hkeys : ["frames", "issue", "manifest"].Pairwise (· < ·) := by decide
  rw [chunkContextDocument, hmanifest, hframes, hissue]
  refine ⟨List.pairwise_map.mp hkeys, ?_, trivial, plain_manifest hstrict, trivial⟩
  refine Json.plainElements_iff.mpr fun x hx => ?_
  obtain ⟨frame, hframe, rfl⟩ := List.mem_map.mp hx
  exact plain_frameDocument (hgood frame (mem_of_mem_lastTwo hframe)).1

/-- A context of a chunk is under the chunk's own stream. -/
theorem manifestStream_of_contextOf (h : ContextOf c chunk) :
    manifestStream chunk.manifest = c.identity := by
  rw [h.manifest]
  exact c.manifestStream_scan

end

/-! ## Streams -/

/-- A stream of the recorder: the text before the first colon of its name is the market, and the one
behind the last colon the stream. -/
structure StreamIdentity.Named (identity : StreamIdentity) : Prop where
  market : ∃ market : Market, identity.market = market.text
  symbol : identity.symbol ≠ ""
  stream : identity.stream ≠ ""
  noColon : ':' ∉ identity.stream.toList

/-- The stream of a strictly read chunk has a name that splits back. -/
theorem SealedChunk.Strict.named {c : SealedChunk} (h : c.Strict) : c.identity.Named :=
  ⟨h.market, h.symbol, h.stream, h.noColon⟩

/-- Texts in front of the first colon. -/
theorem append_colon_inj : ∀ {xs ys : List Char} {rest rest' : List Char}, ':' ∉ xs → ':' ∉ ys →
    xs ++ ':' :: rest = ys ++ ':' :: rest' → xs = ys ∧ rest = rest'
  | [], [], _, _, _, _, h => ⟨rfl, (List.cons.inj h).2⟩
  | [], y :: ys, _, _, _, hys, h => absurd ((List.cons.inj h).1 ▸ List.mem_cons_self) hys
  | x :: xs, [], _, _, hxs, _, h => absurd ((List.cons.inj h).1 ▸ List.mem_cons_self) hxs
  | x :: xs, y :: ys, _, _, hxs, hys, h => by
    obtain ⟨rfl, htail⟩ := List.cons.inj h
    obtain ⟨rfl, hrest⟩ := append_colon_inj (fun hmem => hxs (List.mem_cons_of_mem _ hmem))
      (fun hmem => hys (List.mem_cons_of_mem _ hmem)) htail
    exact ⟨rfl, hrest⟩

/-- The name of a stream is its market, its symbol and its stream between colons. -/
theorem streamName_toList (stream : StreamIdentity) : (streamName stream).toList =
    stream.market.toList ++ ':' :: (stream.symbol.toList ++ ':' :: stream.stream.toList) := by
  simp [streamName, toString]

/-- No market has a colon in its text, so the name's first colon ends the market. -/
theorem noColon_market (market : Market) : ':' ∉ market.text.toList := by
  cases market <;> decide

/-- Two streams of the recorder have different names. -/
theorem streamName_inj {a b : StreamIdentity} (ha : a.Named) (hb : b.Named)
    (h : streamName a = streamName b) : a = b := by
  obtain ⟨market, hmarket⟩ := ha.market
  obtain ⟨market', hmarket'⟩ := hb.market
  have htext : (streamName a).toList = (streamName b).toList := by rw [h]
  rw [streamName_toList, streamName_toList] at htext
  obtain ⟨hm, hrest⟩ := append_colon_inj (hmarket ▸ noColon_market market)
    (hmarket' ▸ noColon_market market') htext
  have hreverse := congrArg List.reverse hrest
  simp only [List.reverse_append, List.reverse_cons, List.append_assoc, List.singleton_append]
    at hreverse
  obtain ⟨hs, hsymbol⟩ := append_colon_inj (by simpa using ha.noColon) (by simpa using hb.noColon)
    hreverse
  obtain ⟨m, s, t⟩ := a
  obtain ⟨m', s', t'⟩ := b
  simp only [StreamIdentity.mk.injEq]
  exact ⟨String.toList_injective hm, String.toList_injective (List.reverse_injective hsymbol),
    String.toList_injective (List.reverse_injective hs)⟩

/-- The chunks of a context are of its stream. -/
def ContextChunks (stream : StreamIdentity) (context : List ChunkScan) : Prop :=
  ∀ chunk ∈ context, ∃ c : SealedChunk, c.Strict ∧ c.identity = stream ∧ ContextOf c chunk

/-- The stream of an entry reads back from the name and the document. -/
theorem entryStream_document {stream : StreamIdentity} (hnamed : stream.Named)
    (context : List ChunkScan) :
    entryStream (streamName stream) (streamDocument stream context) = some stream := by
  obtain ⟨market, hmarket⟩ := hnamed.market
  have hne : stream.market ≠ "" := hmarket ▸ market_text_ne_empty market
  have hm : optionalText (streamDocument stream context) "market" = some stream.market := rfl
  have ht : optionalText (streamDocument stream context) "stream" = some stream.stream := rfl
  have hs : (streamDocument stream context).get? "symbol" = some (.str stream.symbol) := rfl
  simp [entryStream, hm, ht, hs, hne, hnamed.symbol, hnamed.stream]

/-- The chunks of a context read back as what was kept of them. -/
theorem mapM_chunkFromContext {stream : StreamIdentity} : ∀ {context : List ChunkScan},
    ContextChunks stream context →
      (context.map chunkContextDocument).mapM chunkFromContext = .ok (context.map ChunkScan.kept)
  | [], _ => rfl
  | chunk :: context, h => by
    obtain ⟨c, hstrict, -, hof⟩ := h chunk List.mem_cons_self
    rw [List.map_cons, List.mapM_cons, chunkFromContext_document hstrict hof,
      mapM_chunkFromContext fun chunk hchunk => h chunk (List.mem_cons_of_mem _ hchunk)]
    rfl

/-- The chunks of an entry read back and are all of its stream. -/
theorem entryChunks_document {stream : StreamIdentity} {context : List ChunkScan}
    (h : ContextChunks stream context) :
    entryChunks stream (context.map chunkContextDocument) = .ok (context.map ChunkScan.kept) := by
  have hdict : (context.map chunkContextDocument).filter Value.isDict =
      context.map chunkContextDocument := by
    refine List.filter_eq_self.mpr fun x hx => ?_
    obtain ⟨chunk, -, rfl⟩ := List.mem_map.mp hx
    rfl
  have hstream : ((context.map ChunkScan.kept).any fun chunk =>
      manifestStream chunk.manifest ≠ stream) = false := by
    rw [List.any_eq_false]
    intro x hx
    obtain ⟨chunk, hchunk, rfl⟩ := List.mem_map.mp hx
    obtain ⟨c, -, hidentity, hof⟩ := h chunk hchunk
    simpa [manifestStream_of_contextOf hof] using hidentity
  rw [entryChunks, hdict, mapM_chunkFromContext h]
  show (if _ then _ else _) = _
  rw [if_neg]
  · rfl
  · rw [hstream]
    simp

/-- **An entry of the continuation reads back**: its stream and what was kept. -/
theorem streamEntry_document {stream : StreamIdentity} (hnamed : stream.Named)
    {context : List ChunkScan} (h : ContextChunks stream context) :
    streamEntry (streamName stream) (streamDocument stream context) =
      .ok (stream, context.map ChunkScan.kept) := by
  have hdict : ¬ (streamDocument stream context).isDict = false := by
    rw [Bool.not_eq_false]
    rfl
  have hchunks : (streamDocument stream context).get? "chunks" =
      some (.list (context.map chunkContextDocument)) := rfl
  rw [streamEntry, if_neg hdict, entryStream_document hnamed, hchunks]
  dsimp only
  rw [entryChunks_document h]
  rfl

/-! ## The document -/

/-- Paths of manifests with the digests of their bytes. -/
def GoodMembers (members : SortedDict String String) : Prop :=
  ∀ path digest, members.get? path = some digest → path ≠ "" ∧ isDigest digest = true

/-- Contexts of named streams, each with chunks of its own. -/
def GoodContexts (contexts : SortedDict StreamIdentity (List ChunkScan)) : Prop :=
  ∀ stream context, contexts.get? stream = some context →
    stream.Named ∧ ContextChunks stream context

section

variable {members : SortedDict String String}
  {contexts : SortedDict StreamIdentity (List ChunkScan)}

/-- The entries of the streams: one for each context. -/
def streamEntries (contexts : SortedDict StreamIdentity (List ChunkScan)) :
    SortedDict String Value :=
  SortedDict.ofItems (contexts.items.map fun entry =>
    (streamName entry.1, streamDocument entry.1 entry.2))

/-- The entries are the contexts, each under its stream's name. -/
theorem mem_streamEntries (hgood : GoodContexts contexts) {name : String} {value : Value} :
    (name, value) ∈ (streamEntries contexts).items ↔
      ∃ stream context, contexts.get? stream = some context ∧ name = streamName stream ∧
        value = streamDocument stream context := by
  rw [← SortedDict.get?_eq_some_iff, streamEntries, SortedDict.get?_ofItems_eq_some, List.mem_map]
  · simp only [Prod.exists, Prod.mk.injEq, ← SortedDict.get?_eq_some_iff]
    constructor
    · rintro ⟨stream, context, h, rfl, rfl⟩
      exact ⟨stream, context, h, rfl, rfl⟩
    · rintro ⟨stream, context, h, rfl, rfl⟩
      exact ⟨stream, context, h, rfl, rfl⟩
  · rintro p hp q hq hname
    obtain ⟨⟨stream, context⟩, hmem, rfl⟩ := List.mem_map.mp hp
    obtain ⟨⟨stream', context'⟩, hmem', rfl⟩ := List.mem_map.mp hq
    have h := SortedDict.get?_eq_some_iff.mpr hmem
    have h' := SortedDict.get?_eq_some_iff.mpr hmem'
    obtain rfl : stream = stream' :=
      streamName_inj (hgood _ _ h).1 (hgood _ _ h').1 hname
    rw [Option.some.inj (h.symm.trans h')]

/-- The members of a continuation pass their check. -/
theorem validMembers_document (hgood : GoodMembers members) :
    validMembers (some (.dict (members.mapValues fun _ digest => Value.str digest).items)) =
      true := by
  rw [validMembers, List.all_eq_true]
  rintro ⟨path, value⟩ hitem
  have hget := SortedDict.get?_eq_some_iff.mpr hitem
  rw [SortedDict.get?_mapValues, Option.map_eq_some_iff] at hget
  obtain ⟨digest, hdigest, rfl⟩ := hget
  obtain ⟨hpath, hd⟩ := hgood path digest hdigest
  simp [hpath, hd]

/-- The members are read back. -/
theorem knownMembers_document :
    knownMembers (some (continuationDocument members contexts)) = .ok members.items := by
  have hget : (continuationDocument members contexts).get? "manifest_members" =
      some (.dict (members.items.map fun item => (item.1, Value.str item.2))) := rfl
  have hread : (members.items.map fun item => (item.1, Value.str item.2)).mapM memberText =
      some members.items :=
    @EventEnvelope.mapM_some_of_forall (String × Value) (String × String) _
      (fun item => (item.1, Value.str item.2)) (fun _ => rfl) members.items
  rw [knownMembers, hget]
  dsimp only
  rw [hread]

/-- **A continuation document is read back**: of each context its chunks, with their last two
frames. -/
theorem continuationContexts_document (hmembers : GoodMembers members)
    (hcontexts : GoodContexts contexts) :
    ∃ read, continuationContexts (some (continuationDocument members contexts)) = .ok read ∧
      ∀ stream, read.get? stream = (contexts.get? stream).map (List.map ChunkScan.kept) := by
  have hschema : ¬ (continuationDocument members contexts).get? "schema_version" ≠
      some (.str incrementalSchemaVersion) := by
    rw [not_not]
    rfl
  have hvalid : ¬ validMembers ((continuationDocument members contexts).get?
      "manifest_members") = false := by
    rw [Bool.not_eq_false]
    exact validMembers_document hmembers
  have hstreams : (continuationDocument members contexts).get? "streams" =
      some (.dict (streamEntries contexts).items) := rfl
  -- Every entry reads back as its stream and what was kept.
  have hentry : ∀ item ∈ (streamEntries contexts).items, ∀ {result},
      streamEntry item.1 item.2 = .ok result ↔ ∃ stream context,
        contexts.get? stream = some context ∧ item.1 = streamName stream ∧
          result = (stream, context.map ChunkScan.kept) := by
    rintro ⟨name, value⟩ hitem result
    obtain ⟨stream, context, hget, rfl, rfl⟩ := (mem_streamEntries hcontexts).mp hitem
    obtain ⟨hnamed, hchunks⟩ := hcontexts stream context hget
    rw [streamEntry_document hnamed hchunks, Except.ok.injEq]
    constructor
    · rintro rfl
      exact ⟨stream, context, hget, rfl, rfl⟩
    · rintro ⟨stream', context', hget', hname, rfl⟩
      obtain rfl := streamName_inj hnamed (hcontexts _ _ hget').1 hname
      rw [Option.some.inj (hget.symm.trans hget')]
  obtain ⟨results, hresults⟩ := exists_mapM_ok (f := fun item : String × Value =>
    streamEntry item.1 item.2) fun item hitem => by
      obtain ⟨stream, context, hget, hname, -⟩ := (mem_streamEntries hcontexts).mp hitem
      exact ⟨_, (hentry item hitem).mpr ⟨stream, context, hget, hname, rfl⟩⟩
  have hmem : ∀ {result}, result ∈ results ↔ ∃ stream context,
      contexts.get? stream = some context ∧
        result = (stream, context.map ChunkScan.kept) := by
    intro result
    rw [mem_mapM_ok hresults]
    constructor
    · rintro ⟨item, hitem, h⟩
      obtain ⟨stream, context, hget, -, rfl⟩ := (hentry item hitem).mp h
      exact ⟨stream, context, hget, rfl⟩
    · rintro ⟨stream, context, hget, rfl⟩
      have hitem := (mem_streamEntries hcontexts).mpr ⟨stream, context, hget, rfl, rfl⟩
      exact ⟨_, hitem, (hentry _ hitem).mpr ⟨stream, context, hget, rfl, rfl⟩⟩
  refine ⟨SortedDict.ofItems results, ?_, fun stream => ?_⟩
  · rw [continuationContexts, if_neg hschema, if_neg hvalid, hstreams]
    dsimp only
    rw [hresults]
    rfl
  · refine Option.ext fun context => ?_
    rw [SortedDict.get?_ofItems_eq_some, hmem, Option.map_eq_some_iff]
    · constructor
      · rintro ⟨stream', context', hget, h⟩
        obtain ⟨rfl, rfl⟩ := Prod.mk.inj h
        exact ⟨context', hget, rfl⟩
      · rintro ⟨context', hget, rfl⟩
        exact ⟨stream, context', hget, rfl⟩
    · rintro p hp q hq hkey
      obtain ⟨s, ctx, hget, rfl⟩ := hmem.mp hp
      obtain ⟨s', ctx', hget', rfl⟩ := hmem.mp hq
      obtain rfl : s = s' := hkey
      rw [Option.some.inj (hget.symm.trans hget')]

/-- The document of a stream holds JSON values only. -/
theorem plain_streamDocument {stream : StreamIdentity} {context : List ChunkScan}
    (h : ContextChunks stream context) : Json.Plain (streamDocument stream context) := by
  have hkeys : ["chunks", "market", "stream", "symbol"].Pairwise (· < ·) := by decide
  refine ⟨List.pairwise_map.mp hkeys, ?_, trivial, trivial, trivial, trivial⟩
  refine Json.plainElements_iff.mpr fun x hx => ?_
  obtain ⟨chunk, hchunk, rfl⟩ := List.mem_map.mp hx
  obtain ⟨c, hstrict, -, hof⟩ := h chunk hchunk
  exact plain_chunkContextDocument hstrict hof

/-- A continuation document is JSON that is read as itself. -/
theorem plain_continuationDocument (hcontexts : GoodContexts contexts) :
    Json.Plain (continuationDocument members contexts) := by
  have hkeys : ["manifest_members", "schema_version", "streams"].Pairwise (· < ·) := by decide
  refine ⟨List.pairwise_map.mp hkeys, ⟨?_, ?_⟩, trivial, ⟨?_, ?_⟩, trivial⟩
  · exact (members.mapValues fun _ digest => Value.str digest).sorted
  · refine Json.plainMembers_iff.mpr fun item hitem => ?_
    obtain ⟨member, -, rfl⟩ := List.mem_map.mp hitem
    trivial
  · exact (streamEntries contexts).sorted
  · refine Json.plainMembers_iff.mpr fun item hitem => ?_
    obtain ⟨stream, context, hget, -, hvalue⟩ := (mem_streamEntries hcontexts).mp hitem
    rw [hvalue]
    exact plain_streamDocument (hcontexts stream context hget).2

end

end MarketDataRecorder
