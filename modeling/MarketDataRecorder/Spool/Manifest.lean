import MarketDataRecorder.Spool.Evidence
import MarketDataRecorder.Spool.ScanTruncate

/-!
# Raw manifests

`spool/seal.py`: the document that a seal commits about a chunk, and its verdict. A chunk is
complete only where no flag says otherwise, and a connection transition inside it needs proof of
its own: a `sequence_gap` marker at the boundary, or a blue/green overlap of the same deployment.

The fail-closed branch is skipped where another incomplete flag is there already. Such a chunk is
not complete, but nothing in its manifest says `gap`: `manifest_gap_iff` is the exact condition.
-/

namespace MarketDataRecorder

open Framing

/-! ## Constants -/

def compressionSchemaVersion : String := "zstd-frame.v1"
def manifestSchemaVersion : String := "raw-chunk-manifest.v1"
def zstdLevel : Int := 3
def reconnectGapFlag : String := "reconnect_gap"
def overlapFlag : String := "blue_green_overlap"

/-- `INCOMPLETE_FLAGS`. -/
def incompleteFlags : Finset String :=
  {"checksum_failure", "mixed_sequence_type", "orderbook_resync", "recovered_tail",
   "sequence_gap", reconnectGapFlag}

/-- `bool(capture_flags & {"sequence_gap", RECONNECT_GAP_FLAG})`. -/
def gapFlags : Finset String := {"sequence_gap", reconnectGapFlag}

/-! ## Transitions -/

/-- `_deployment_ids`. -/
def deploymentIds (flags : Finset String) : Finset String :=
  flags.filter fun flag => flag.startsWith "deployment_id="

/-- `_overlap_covers_transition`. -/
def overlapCoversTransition (oldFlags newFlags : Finset String) : Bool :=
  if overlapFlag ∉ oldFlags ∨ overlapFlag ∉ newFlags then false
  else if deploymentIds oldFlags = ∅ ∧ deploymentIds newFlags = ∅ then true
  else deploymentIds oldFlags ∩ deploymentIds newFlags ≠ ∅

/-- `_boundary_local_evidence_safe`. -/
def boundaryLocalEvidenceSafe : List ConnectionTransition → Bool
  | [] => true
  | t :: rest =>
    if "sequence_gap" ∈ t.previousFlags ∨ "sequence_gap" ∈ t.flags then
      boundaryLocalEvidenceSafe rest
    else if overlapCoversTransition t.previousFlags t.flags then boundaryLocalEvidenceSafe rest
    else false

/-- A transition with a boundary-local marker, or an overlap that covers it. -/
def ConnectionTransition.Covered (t : ConnectionTransition) : Prop :=
  "sequence_gap" ∈ t.previousFlags ∨ "sequence_gap" ∈ t.flags ∨
    overlapCoversTransition t.previousFlags t.flags = true

instance (t : ConnectionTransition) : Decidable t.Covered := inferInstanceAs (Decidable (_ ∨ _))

theorem boundaryLocalEvidenceSafe_iff :
    ∀ {ts : List ConnectionTransition},
      boundaryLocalEvidenceSafe ts = true ↔ ∀ t ∈ ts, t.Covered
  | [] => by simp [boundaryLocalEvidenceSafe]
  | t :: rest => by
    rw [List.forall_mem_cons, ← boundaryLocalEvidenceSafe_iff]
    simp only [boundaryLocalEvidenceSafe, ConnectionTransition.Covered]
    by_cases hmark : "sequence_gap" ∈ t.previousFlags ∨ "sequence_gap" ∈ t.flags
    · rw [if_pos hmark]
      tauto
    · rw [if_neg hmark]
      split <;> simp_all

/-! ## The manifest -/

/-- The document of a seal; sets are written as sorted arrays. -/
structure Manifest where
  captureFlags : Finset String
  chunkId : UUID
  chunkSchemaVersion : String
  collectorInstanceIds : Finset String
  collectorVersion : String
  complete : Bool
  compression : Value
  connectionIds : Finset String
  createdAtUtcNs : Int
  envelopeSchemaVersion : String
  exchangeTimeRanges : List (String × (Nat × Nat))
  fsyncCompletedAtUtcNs : Nat
  gap : Bool
  manifestSchemaVersion : String
  market : String
  overlap : Bool
  receiveMonotonicRangeNs : Option Nat × Option Nat
  receiveTimeUtcRangeNs : Option Nat × Option Nat
  recordCount : Nat
  recovered : Bool
  recovery : Option Value
  relativePath : String
  resync : Bool
  sealedAtUtcNs : Nat
  sequenceRanges : List (String × (SequenceValue × SequenceValue))
  storedBytes : Nat
  storedSha256 : String
  stream : String
  symbol : String
  uncompressedBytes : Nat
  uncompressedSha256 : String
  processBoundaryBeforeFirstFrame : Bool
  deriving DecidableEq

/-- The flags that go into a seal: those of the frames, the recovery and the caller. -/
def sealFlags (evidence : VerifiedChunkEvidence) (recovery : Option Value)
    (forcedFlags : Finset String) : Finset String :=
  evidence.statistics.captureFlags ∪ (if recovery.isSome then {"recovered_tail"} else ∅) ∪
    forcedFlags

/-- The flags of the manifest: the seal's, and `reconnect_gap` where no transition proof is left. -/
def manifestFlags (evidence : VerifiedChunkEvidence) (recovery : Option Value)
    (forcedFlags : Finset String) : Finset String :=
  let captureFlags := sealFlags evidence recovery forcedFlags
  if 1 < evidence.statistics.connectionIds.card ∧ captureFlags ∩ incompleteFlags = ∅ ∧
      ¬ boundaryLocalEvidenceSafe evidence.connectionTransitions then
    insert reconnectGapFlag captureFlags
  else captureFlags

/-- `_manifest`; `sealedAt` is what the clock reads. -/
def manifest (evidence : VerifiedChunkEvidence) (relativePath : String) (storedBytes : Nat)
    (storedSha256 : String) (recovery : Option Value) (forcedFlags : Finset String)
    (processBoundaryBeforeFirstFrame : Bool) (sealedAt : Nat) : Manifest :=
  let statistics := evidence.statistics
  let captureFlags := manifestFlags evidence recovery forcedFlags
  { captureFlags := captureFlags
    chunkId := evidence.header.chunkId
    chunkSchemaVersion := evidence.header.chunkSchemaVersion
    -- a boundary marker has no frames, its header still names the collector
    collectorInstanceIds :=
      if statistics.collectorInstanceIds = ∅ then {evidence.header.collectorInstanceId}
      else statistics.collectorInstanceIds
    collectorVersion := evidence.header.collectorVersion
    complete := captureFlags ∩ incompleteFlags = ∅
    compression := .dict [
      ("checksum", .bool true), ("content_size", .bool true), ("dictionary_id", .bool false),
      ("level", .int zstdLevel), ("schema_version", .str compressionSchemaVersion),
      ("threads", .int 0)]
    connectionIds := statistics.connectionIds
    createdAtUtcNs := evidence.header.createdAtUtcNs
    envelopeSchemaVersion := evidence.header.envelopeSchemaVersion
    exchangeTimeRanges := statistics.exchangeTimeRanges
    fsyncCompletedAtUtcNs := sealedAt
    gap := captureFlags ∩ gapFlags ≠ ∅
    manifestSchemaVersion := MarketDataRecorder.manifestSchemaVersion
    market := evidence.header.market
    overlap := "overlap" ∈ captureFlags
    receiveMonotonicRangeNs :=
      (statistics.receiveMonotonicMinNs, statistics.receiveMonotonicMaxNs)
    receiveTimeUtcRangeNs := (statistics.receiveTimeUtcMinNs, statistics.receiveTimeUtcMaxNs)
    recordCount := statistics.recordCount
    recovered := recovery.isSome
    recovery := recovery
    relativePath := relativePath
    resync := "orderbook_resync" ∈ captureFlags
    sealedAtUtcNs := sealedAt
    sequenceRanges := statistics.sequenceValues
    storedBytes := storedBytes
    storedSha256 := storedSha256
    stream := evidence.header.stream
    symbol := evidence.header.symbol
    uncompressedBytes := evidence.fileSize
    uncompressedSha256 := evidence.uncompressedSha256
    processBoundaryBeforeFirstFrame := processBoundaryBeforeFirstFrame }

section

variable {evidence : VerifiedChunkEvidence} {relativePath : String} {storedBytes : Nat}
  {storedSha256 : String} {recovery : Option Value} {forcedFlags : Finset String}
  {processBoundary : Bool} {sealedAt : Nat}

/-! ## The verdict -/

theorem gapFlags_subset : gapFlags ⊆ incompleteFlags := by decide

/-- What the forced flags of a seal add to the manifest's is there. -/
theorem sealFlags_subset_manifestFlags :
    sealFlags evidence recovery forcedFlags ⊆ manifestFlags evidence recovery forcedFlags := by
  simp only [manifestFlags]
  split
  · exact Finset.subset_insert _ _
  · exact Finset.Subset.refl _

theorem manifest_complete_iff :
    (manifest evidence relativePath storedBytes storedSha256 recovery forcedFlags processBoundary
        sealedAt).complete = true ↔
      manifestFlags evidence recovery forcedFlags ∩ incompleteFlags = ∅ := by
  simp [manifest]

theorem manifest_gap_eq_true_iff :
    (manifest evidence relativePath storedBytes storedSha256 recovery forcedFlags processBoundary
        sealedAt).gap = true ↔
      manifestFlags evidence recovery forcedFlags ∩ gapFlags ≠ ∅ := by
  simp [manifest]

/-- A manifest that says `gap` does not say `complete`. -/
theorem not_complete_of_gap
    (h : (manifest evidence relativePath storedBytes storedSha256 recovery forcedFlags
      processBoundary sealedAt).gap = true) :
    (manifest evidence relativePath storedBytes storedSha256 recovery forcedFlags processBoundary
      sealedAt).complete = false := by
  rw [Bool.eq_false_iff, Ne, manifest_complete_iff]
  rw [manifest_gap_eq_true_iff] at h
  intro hempty
  apply h
  exact Finset.subset_empty.mp (hempty ▸ Finset.inter_subset_inter_left gapFlags_subset)

end

/-! ## Transitions and connections -/

theorem foldl_addSequenceValue_connectionIds :
    ∀ (l : List (NonEmptyText × SequenceValue)) (s : ChunkStatistics),
      (l.foldl ChunkStatistics.addSequenceValue s).connectionIds = s.connectionIds
  | [], _ => rfl
  | p :: rest, s => by
    rw [List.foldl_cons, foldl_addSequenceValue_connectionIds rest]
    unfold ChunkStatistics.addSequenceValue
    dsimp only
    split <;> rfl

theorem add_connectionIds (s : ChunkStatistics) (e : EventEnvelope) :
    (s.add e).connectionIds = insert e.connectionId.val s.connectionIds := by
  unfold ChunkStatistics.add
  dsimp only
  rw [foldl_addSequenceValue_connectionIds]

/-- The statistics know the connection of every envelope. -/
theorem foldl_add_connectionIds :
    ∀ (es : List EventEnvelope) (s : ChunkStatistics),
      (es.foldl ChunkStatistics.add s).connectionIds =
        s.connectionIds ∪ (es.map fun e => e.connectionId.val).toFinset
  | [], s => by simp
  | e :: rest, s => by
    rw [List.foldl_cons, foldl_add_connectionIds rest, add_connectionIds, List.map_cons,
      List.toFinset_cons, Finset.insert_union, Finset.union_insert]

/-- A transition stands between two connections of the chunk. -/
theorem mem_adjacentTransitions {t : ConnectionTransition} :
    ∀ {es : List EventEnvelope} {previous : Option String} {flags : Finset String},
      t ∈ ScanState.adjacentTransitions previous flags es →
        t.previousConnectionId ≠ t.connectionId ∧
          (t.previousConnectionId ∈ es.map (fun e => e.connectionId.val) ∨
            previous = some t.previousConnectionId) ∧
          t.connectionId ∈ es.map (fun e => e.connectionId.val)
  | [], _, _, h => by simp [ScanState.adjacentTransitions] at h
  | e :: rest, previous, flags, h => by
    rw [ScanState.adjacentTransitions, List.mem_append] at h
    rcases h with h | h
    · cases previous with
      | none => simp [connectionTransition] at h
      | some p =>
        simp only [connectionTransition] at h
        split at h
        · next hne =>
          obtain rfl := List.mem_singleton.mp h
          exact ⟨fun heq => hne heq.symm, Or.inr rfl, by simp⟩
        · cases h
    · obtain ⟨hne, hprevious, hmem⟩ := mem_adjacentTransitions h
      refine ⟨hne, Or.inl ?_, List.mem_cons_of_mem _ hmem⟩
      rcases hprevious with hprevious | hprevious
      · exact List.mem_cons_of_mem _ hprevious
      · exact List.mem_cons.mpr (Or.inl (Option.some.inj hprevious).symm)

/-- Where the connection changes, the chunk has more than one. -/
theorem one_lt_card_connectionIds {es : List EventEnvelope} {t : ConnectionTransition}
    (h : t ∈ connectionTransitions es) : 1 < (chunkStatistics es).connectionIds.card := by
  rw [← adjacentTransitions_none ∅] at h
  obtain ⟨hne, hprevious, hmem⟩ := mem_adjacentTransitions h
  have hids : (chunkStatistics es).connectionIds =
      (es.map fun e => e.connectionId.val).toFinset := by
    rw [chunkStatistics, foldl_add_connectionIds]
    exact Finset.empty_union _
  rw [hids]
  refine Finset.one_lt_card.mpr
    ⟨t.previousConnectionId, ?_, t.connectionId, List.mem_toFinset.mpr hmem, hne⟩
  exact List.mem_toFinset.mpr (hprevious.resolve_right (by simp))

/-! ## Evidence of a clean scan -/

/-- The evidence of a chunk with this header and these bytes behind it. -/
def frameEvidence (codec : Codec) (header : ChunkHeader) (headerBytes c : Bytes) :
    VerifiedChunkEvidence where
  header := header
  statistics := .fromStatistics (chunkStatistics (scannedEnvelopes codec header c))
  fileSize := (headerBytes ++ c).length
  uncompressedSha256 := codec.sha256Hex (headerBytes ++ c)
  connectionTransitions := connectionTransitions (scannedEnvelopes codec header c)

@[simp] theorem frameEvidence_connectionTransitions (codec : Codec) (header : ChunkHeader)
    (headerBytes c : Bytes) :
    (frameEvidence codec header headerBytes c).connectionTransitions =
      connectionTransitions (scannedEnvelopes codec header c) := rfl

@[simp] theorem frameEvidence_captureFlags (codec : Codec) (header : ChunkHeader)
    (headerBytes c : Bytes) :
    (frameEvidence codec header headerBytes c).statistics.captureFlags =
      (chunkStatistics (scannedEnvelopes codec header c)).captureFlags := rfl

/-- A clean scan is evidence of its frames, and no other scan is evidence. -/
theorem fromScan_of_header {codec : Codec} {header : ChunkHeader} {headerBytes : Bytes}
    (h : HeaderBytes codec headerBytes header) (c : Bytes) :
    VerifiedChunkEvidence.fromScan (scanChunk codec (headerBytes ++ c)) =
      if (frameScan codec header c).stop = .done then
        some (frameEvidence codec header headerBytes c)
      else none := by
  split
  · next hdone =>
    have hissue := (issue_eq_none_iff h c).mpr hdone
    have htrans := transitions_of_header h c
    rw [if_pos hdone] at htrans
    have hdigest : ((ScanState.start headerBytes).acceptAll
        ((frameScan codec header c).frames.map Prod.fst)).digest = headerBytes ++ c := by
      have hall : (frameScan codec header c).consumed = c.length :=
        Reader.Clean.consumed hdone
      rw [ScanState.acceptAll_digest, List.map_map]
      show headerBytes ++ ((frameScan codec header c).frames.map fun f => f.1.bytes).flatten = _
      rw [flatten_frames, hall, List.take_length]
    have hsha : (scanChunk codec (headerBytes ++ c)).uncompressedSha256 =
        some (codec.sha256Hex (headerBytes ++ c)) := by
      rw [scanChunk_of_header h, hdone]
      exact congrArg (fun d => some (codec.sha256Hex d)) hdigest
    have hsize : (scanChunk codec (headerBytes ++ c)).fileSize = (headerBytes ++ c).length := by
      rw [scanChunk_of_header h, hdone]
      rfl
    simp only [VerifiedChunkEvidence.fromScan, ScanResult.isClean, hissue, hsha, hsize, htrans,
      (statistics_of_header h c).1, (statistics_of_header h c).2, decide_true, frameEvidence]
  · next hstop =>
    have hissue : (scanChunk codec (headerBytes ++ c)).issue ≠ .none :=
      fun hnone => hstop ((issue_eq_none_iff h c).mp hnone)
    simp [VerifiedChunkEvidence.fromScan, ScanResult.isClean, hissue]

/-- **What a clean scan is evidence of.** -/
theorem fromScan_eq_some {codec : Codec} {b : Bytes} {evidence : VerifiedChunkEvidence}
    (h : VerifiedChunkEvidence.fromScan (scanChunk codec b) = some evidence) :
    ∃ header headerBytes c, HeaderBytes codec headerBytes header ∧ b = headerBytes ++ c ∧
      (frameScan codec header c).stop = .done ∧
      evidence = frameEvidence codec header headerBytes c := by
  obtain ⟨header, hheader⟩ : ∃ header, (scanChunk codec b).header = some header := by
    unfold VerifiedChunkEvidence.fromScan at h
    split at h
    · exact ⟨_, by assumption⟩
    · cases h
  obtain ⟨headerBytes, c, hbytes, rfl⟩ := exists_headerBytes_of_scanChunk hheader
  rw [fromScan_of_header hbytes] at h
  split at h
  · next hdone => exact ⟨header, headerBytes, c, hbytes, rfl, hdone, (Option.some.inj h).symm⟩
  · cases h

theorem one_lt_card_of_fromScan {codec : Codec} {b : Bytes} {evidence : VerifiedChunkEvidence}
    (h : VerifiedChunkEvidence.fromScan (scanChunk codec b) = some evidence)
    {t : ConnectionTransition} (ht : t ∈ evidence.connectionTransitions) :
    1 < evidence.statistics.connectionIds.card := by
  obtain ⟨header, headerBytes, c, -, -, -, rfl⟩ := fromScan_eq_some h
  exact one_lt_card_connectionIds ht

/-- The verdict that a manifest owes the connection transitions of its chunk. -/
structure TransitionTruth (evidence : VerifiedChunkEvidence) (m : Manifest) : Prop where
  /-- A transition that nothing covers makes the chunk incomplete with a gap. -/
  failsClosed : (∃ t ∈ evidence.connectionTransitions, ¬ t.Covered) →
    m.gap = true ∧ m.complete = false
  completeOnly : m.complete = true →
    (∀ t ∈ evidence.connectionTransitions, t.Covered) ∧ m.captureFlags ∩ incompleteFlags = ∅

/-- The flags that go into the seal are no obstacle to the fail-closed branch. -/
def FlagsLeaveTransitionsOpen (evidence : VerifiedChunkEvidence) (recovery : Option Value)
    (forcedFlags : Finset String) : Prop :=
  (∀ t ∈ evidence.connectionTransitions, t.Covered) ∨
    sealFlags evidence recovery forcedFlags ∩ incompleteFlags = ∅ ∨
    sealFlags evidence recovery forcedFlags ∩ gapFlags ≠ ∅

/-- **When the manifest tells the truth about the connection transitions.** -/
theorem manifest_gap_iff {codec : Codec} {b : Bytes} {evidence : VerifiedChunkEvidence}
    (h : VerifiedChunkEvidence.fromScan (scanChunk codec b) = some evidence)
    (relativePath : String) (storedBytes : Nat) (storedSha256 : String) (recovery : Option Value)
    (forcedFlags : Finset String) (processBoundary : Bool) (sealedAt : Nat) :
    TransitionTruth evidence
        (manifest evidence relativePath storedBytes storedSha256 recovery forcedFlags
          processBoundary sealedAt) ↔
      FlagsLeaveTransitionsOpen evidence recovery forcedFlags := by
  constructor
  · intro htruth
    by_cases hcovered : ∀ t ∈ evidence.connectionTransitions, t.Covered
    · exact Or.inl hcovered
    · by_cases hflags : sealFlags evidence recovery forcedFlags ∩ incompleteFlags = ∅
      · exact Or.inr (Or.inl hflags)
      · -- the guard is off: the manifest has the flags of the seal, so they say the gap
        have hsame : manifestFlags evidence recovery forcedFlags =
            sealFlags evidence recovery forcedFlags := by
          simp only [manifestFlags]
          rw [if_neg]
          exact fun hguard => hflags hguard.2.1
        have hgap := (htruth.failsClosed (by simpa using hcovered)).1
        rw [manifest_gap_eq_true_iff, hsame] at hgap
        exact Or.inr (Or.inr hgap)
  · intro hopen
    have hfails : (∃ t ∈ evidence.connectionTransitions, ¬ t.Covered) →
        (manifest evidence relativePath storedBytes storedSha256 recovery forcedFlags
          processBoundary sealedAt).gap = true := by
      rintro ⟨t, ht, hnot⟩
      rw [manifest_gap_eq_true_iff]
      rcases hopen with hcovered | hflags | hgap
      · exact absurd (hcovered t ht) hnot
      · have hunsafe : ¬ boundaryLocalEvidenceSafe evidence.connectionTransitions := by
          rw [boundaryLocalEvidenceSafe_iff]
          exact fun hall => hnot (hall t ht)
        simp only [manifestFlags]
        rw [if_pos ⟨one_lt_card_of_fromScan h ht, hflags, hunsafe⟩]
        apply Finset.Nonempty.ne_empty
        exact ⟨reconnectGapFlag, Finset.mem_inter.mpr ⟨Finset.mem_insert_self _ _, by decide⟩⟩
      · intro hempty
        apply hgap
        exact Finset.subset_empty.mp
          (hempty ▸ Finset.inter_subset_inter_right sealFlags_subset_manifestFlags)
    refine ⟨fun hopen' => ⟨hfails hopen', not_complete_of_gap (hfails hopen')⟩, ?_⟩
    intro hcomplete
    refine ⟨?_, manifest_complete_iff.mp hcomplete⟩
    intro t ht
    by_contra hnot
    rw [not_complete_of_gap (hfails ⟨t, ht, hnot⟩)] at hcomplete
    cases hcomplete

/-! ## A recovered tail next to an unmarked reconnect -/

/-- Two frames of different connections without a marker between them. -/
def unmarkedEnvelopes : List EventEnvelope :=
  [firstSampleEnvelope, sampleEnvelope secondConnection []]

def unmarkedChunk : Bytes :=
  encodedHeader referenceCodec sampleHeader ++ encodedFrames referenceCodec unmarkedEnvelopes

/-- What a clean scan of the chunk is evidence of. -/
def unmarkedEvidence : VerifiedChunkEvidence :=
  frameEvidence referenceCodec sampleHeader (encodedHeader referenceCodec sampleHeader)
    (encodedFrames referenceCodec unmarkedEnvelopes)

theorem matches_unmarkedEnvelopes : ∀ e ∈ unmarkedEnvelopes, Matches sampleHeader e := by
  decide

theorem roundTrips_unmarkedEnvelopes :
    ∀ e ∈ unmarkedEnvelopes, RoundTrips referenceCodec e.canonicalMapping := by
  decide +kernel

theorem encodes_unmarkedEnvelopes : ∀ e ∈ unmarkedEnvelopes,
    ∃ bytes, encodeFrame referenceCodec e sampleHeader.maxFrameBytes = .ok bytes := by
  intro e he
  exact ⟨_, encodeFrame_of_fits (by revert e; decide_cbv) (by revert e; decide +kernel)⟩

theorem scannedEnvelopes_unmarkedFrames :
    (frameScan referenceCodec sampleHeader
        (encodedFrames referenceCodec unmarkedEnvelopes)).stop = .done ∧
      scannedEnvelopes referenceCodec sampleHeader
        (encodedFrames referenceCodec unmarkedEnvelopes) = unmarkedEnvelopes := by
  have hmax := (maxFrameBytes_bounds validateChunkHeader_sampleHeader).2
  refine ⟨?_, scannedEnvelopes_encodedFrames hmax matches_unmarkedEnvelopes
    roundTrips_unmarkedEnvelopes encodes_unmarkedEnvelopes⟩
  rw [frameScan_encodedFrames hmax matches_unmarkedEnvelopes roundTrips_unmarkedEnvelopes
    encodes_unmarkedEnvelopes]

theorem fromScan_unmarkedChunk :
    VerifiedChunkEvidence.fromScan (scanChunk referenceCodec unmarkedChunk) =
      some unmarkedEvidence := by
  rw [unmarkedChunk, fromScan_of_header headerBytes_sampleHeader,
    if_pos scannedEnvelopes_unmarkedFrames.1]
  rfl

/-- Nothing covers the transition of the chunk. -/
theorem not_covered_unmarkedEvidence :
    ∃ t ∈ unmarkedEvidence.connectionTransitions, ¬ t.Covered := by
  rw [unmarkedEvidence, frameEvidence_connectionTransitions, scannedEnvelopes_unmarkedFrames.2]
  decide

/-- The recovery evidence of a chunk from which one byte was removed. -/
def sampleRecovery : Value :=
  .dict [("issue", .str "truncated_tail"), ("truncated_bytes", .int 1), ("valid_end", .int 1)]

/-- The flags of the sample seal: those of its frames, of which there are none. -/
theorem sealFlags_unmarkedEvidence (recovery : Option Value) :
    sealFlags unmarkedEvidence recovery ∅ =
      if recovery.isSome then {"recovered_tail"} else ∅ := by
  have hframes : (chunkStatistics unmarkedEnvelopes).captureFlags = ∅ := by decide
  rw [sealFlags, unmarkedEvidence, frameEvidence_captureFlags, scannedEnvelopes_unmarkedFrames.2,
    hframes, Finset.empty_union, Finset.union_empty]

/-- Without a recovered tail the unmarked reconnect is a gap. -/
theorem manifest_gap_iff_unmarked :
    TransitionTruth unmarkedEvidence
      (manifest unmarkedEvidence "data/sealed/sample.bmdr.zst" 1 "" none ∅ false 0) := by
  refine (manifest_gap_iff fromScan_unmarkedChunk _ _ _ none ∅ _ _).mpr (Or.inr (Or.inl ?_))
  rw [sealFlags_unmarkedEvidence]
  exact Finset.empty_inter _

/-- With a recovered tail the manifest does not say `gap` across the unmarked reconnect. -/
theorem manifest_hides_reconnect_gap :
    ¬ ∀ (codec : Codec) (b : Bytes) (evidence : VerifiedChunkEvidence) (relativePath : String)
        (storedBytes : Nat) (storedSha256 : String) (recovery : Option Value)
        (forcedFlags : Finset String) (processBoundary : Bool) (sealedAt : Nat),
      VerifiedChunkEvidence.fromScan (scanChunk codec b) = some evidence →
        TransitionTruth evidence
          (manifest evidence relativePath storedBytes storedSha256 recovery forcedFlags
            processBoundary sealedAt) := by
  intro hall
  have htruth := hall _ _ _ "data/sealed/sample.bmdr.zst" 1 "" (some sampleRecovery) ∅ false 0
    fromScan_unmarkedChunk
  have hgap := (htruth.failsClosed not_covered_unmarkedEvidence).1
  rw [manifest_gap_eq_true_iff, manifestFlags, sealFlags_unmarkedEvidence] at hgap
  apply hgap
  simp only [Option.isSome_some, if_true]
  rw [if_neg]
  · decide
  · rintro ⟨-, hempty, -⟩
    have hmem : "recovered_tail" ∈ ({"recovered_tail"} : Finset String) ∩ incompleteFlags := by
      decide
    rw [hempty] at hmem
    cases hmem

end MarketDataRecorder
