import MarketDataRecorder.Spool.ReferenceCodec

/-!
# Truncation to the valid end

Recovery truncates a torn chunk to the `valid_end` of its scan. What is left is a clean chunk with
the same header and statistics, and a clean chunk cut anywhere behind its header loses no frame
that is whole.

A scan that stops at an issue reports no connection transitions and no digest: only a clean scan
is evidence for a seal. So the transitions of the rescan are those of the frames kept, which is
more than the first scan reported.
-/

namespace MarketDataRecorder

open Framing

section

variable {codec : Codec} {header : ChunkHeader} {headerBytes : Bytes}

/-- The offsets in the file at which its header or a frame ends. -/
def frameBoundaries (codec : Codec) (header : ChunkHeader) (headerBytes c : Bytes) : List Nat :=
  (Scan.boundaries (frameScan codec header c).frames).map (headerBytes.length + ·)

/-- The frames that were read are the bytes that were consumed. -/
theorem flatten_frames (c : Bytes) :
    ((frameScan codec header c).frames.map fun f => f.1.bytes).flatten =
      c.take (frameScan codec header c).consumed := by
  unfold frameScan
  induction c using (frameReader codec header).frame_induction with
  | step c ih =>
    cases hh : (frameReader codec header).head c with
    | done => rw [Reader.scan_of_done _ hh]; simp
    | torn e => rw [Reader.scan_of_torn _ hh]; simp
    | bad e => rw [Reader.scan_of_bad _ hh]; simp
    | frame f n =>
      obtain ⟨hf, rfl⟩ := frameHead_eq_frame_iff.mp hh
      rw [Reader.scan_of_frame _ hh, Scan.cons_frames, Scan.cons_consumed, List.map_cons,
        List.flatten_cons, List.take_add, take_of_frameAt hf]
      exact congrArg (_ ++ ·) (ih f _ hh)

/-- The valid end is the header and the bytes consumed behind it. -/
theorem validEnd_of_header (h : HeaderBytes codec headerBytes header) (c : Bytes) :
    (scanChunk codec (headerBytes ++ c)).validEnd =
      headerBytes.length + (frameScan codec header c).consumed := by
  have hle : (frameScan codec header c).consumed ≤ c.length :=
    (frameReader codec header).scan_consumed_le c
  have hend : ((ScanState.start headerBytes).acceptAll
      ((frameScan codec header c).frames.map Prod.fst)).validEnd =
      headerBytes.length + (frameScan codec header c).consumed := by
    rw [ScanState.acceptAll_validEnd, List.map_map]
    show headerBytes.length +
      ((frameScan codec header c).frames.map fun f => f.1.bytes).flatten.length = _
    rw [flatten_frames, List.length_take, Nat.min_eq_left hle]
  rw [scanChunk_of_header h]
  cases (frameScan codec header c).stop <;> exact hend

/-- The scan of a chunk after its header was found. -/
theorem statistics_of_header (h : HeaderBytes codec headerBytes header) (c : Bytes) :
    (scanChunk codec (headerBytes ++ c)).statistics =
        chunkStatistics (scannedEnvelopes codec header c) ∧
      (scanChunk codec (headerBytes ++ c)).header = some header := by
  have hstat : ((ScanState.start headerBytes).acceptAll
      ((frameScan codec header c).frames.map Prod.fst)).statistics =
      chunkStatistics (scannedEnvelopes codec header c) := by
    rw [ScanState.acceptAll_statistics, List.map_map]
    rfl
  rw [scanChunk_of_header h]
  cases (frameScan codec header c).stop <;> exact ⟨hstat, rfl⟩

/-- The issue of a scan is the stop of the frames behind the header. -/
theorem issue_of_header (h : HeaderBytes codec headerBytes header) (c : Bytes) :
    (scanChunk codec (headerBytes ++ c)).issue =
      match (frameScan codec header c).stop with
      | .done => .none
      | .torn e => e.1
      | .bad e => e.1 := by
  rw [scanChunk_of_header h]
  cases (frameScan codec header c).stop <;> rfl

/-- No check of a frame fails with the issue `none`. -/
theorem issue_ne_none_of_frameAt {b : Bytes} {issue : ScanIssue} {detail : String}
    (h : frameAt codec header b = .stop issue detail) : issue ≠ .none := by
  have hprefix : ∀ {p : Bytes} {e : ScanIssue × String},
      checkFramePrefix header p = .error e → e.1 ≠ .none := by
    intro p e he
    simp only [checkFramePrefix, bind, Except.bind, throw, throwThe, MonadExceptOf.throw, pure,
      Except.pure] at he
    split at he
    · cases he; simp
    · split at he
      · cases he; simp
      · split at he
        · cases he; simp
        · cases he
  have hbody : ∀ {p body : Bytes} {n crc : Nat} {e : ScanIssue × String},
      checkFrameBody codec header p body n crc = .error e → e.1 ≠ .none := by
    intro p body n crc e he
    unfold checkFrameBody at he
    split at he
    · cases he; simp
    · split at he
      · cases he; simp
      · split at he
        · cases he; simp
        · split at he
          · cases he; simp
          · cases he
  unfold frameAt at h
  split at h
  · cases h
  · split at h
    · next i d hp =>
      cases h
      exact hprefix hp
    · split at h
      · next i d hb =>
        cases h
        exact hbody hb
      · cases h

/-- The stop of a scan: the end, a truncated tail, or another issue. -/
theorem frameScan_stop_cases (codec : Codec) (header : ChunkHeader) (c : Bytes) :
    (frameScan codec header c).stop = .done ∨
      (∃ detail, (frameScan codec header c).stop = .torn (.truncatedTail, detail)) ∨
      ∃ e : ScanIssue × String, (frameScan codec header c).stop = .bad e ∧
        e.1 ≠ .none ∧ e.1 ≠ .truncatedTail := by
  unfold frameScan
  induction c using (frameReader codec header).frame_induction with
  | step c ih =>
    cases hat : frameAt codec header c with
    | eof =>
      have hh : (frameReader codec header).head c = .done := by
        simp only [frameReader, frameHead, hat]
      exact Or.inl (by rw [Reader.scan_of_done _ hh]; rfl)
    | stop issue detail =>
      have hne := issue_ne_none_of_frameAt hat
      by_cases htail : issue = .truncatedTail
      · subst htail
        have hh : (frameReader codec header).head c = .torn (.truncatedTail, detail) := by
          simp only [frameReader, frameHead, hat]
        exact Or.inr (Or.inl ⟨detail, by rw [Reader.scan_of_torn _ hh]; rfl⟩)
      · have hh : (frameReader codec header).head c = .bad (issue, detail) := by
          show frameHead codec header c = _
          unfold frameHead
          rw [hat]
          cases issue <;> first | rfl | exact absurd rfl htail
        exact Or.inr (Or.inr ⟨(issue, detail), by rw [Reader.scan_of_bad _ hh]; rfl, hne, htail⟩)
    | frame p body e =>
      have hh : (frameReader codec header).head c =
          .frame ⟨p, body, e⟩ (p.length + body.length) := frameHead_eq_frame_iff.mpr ⟨hat, rfl⟩
      rw [Reader.scan_of_frame _ hh]
      exact ih _ _ hh

/-- **A scan is clean exactly where the frames behind the header are.** -/
theorem issue_eq_none_iff (h : HeaderBytes codec headerBytes header) (c : Bytes) :
    (scanChunk codec (headerBytes ++ c)).issue = .none ↔
      (frameScan codec header c).stop = .done := by
  rw [issue_of_header h]
  rcases frameScan_stop_cases codec header c with hs | ⟨d, hs⟩ | ⟨e, hs, hne, -⟩
  · simp [hs]
  · simp [hs]
  · simp [hs, hne]

theorem issue_eq_truncatedTail_iff (h : HeaderBytes codec headerBytes header) (c : Bytes) :
    (scanChunk codec (headerBytes ++ c)).issue = .truncatedTail ↔
      ∃ e, (frameScan codec header c).stop = .torn e := by
  rw [issue_of_header h]
  rcases frameScan_stop_cases codec header c with hs | ⟨d, hs⟩ | ⟨e, hs, -, hne⟩
  · simp [hs]
  · simp [hs]
  · simp [hs, hne]

/-- Only a clean scan reports transitions: those of its frames. -/
theorem transitions_of_header (h : HeaderBytes codec headerBytes header) (c : Bytes) :
    (scanChunk codec (headerBytes ++ c)).connectionTransitions =
      if (frameScan codec header c).stop = .done then
        connectionTransitions (scannedEnvelopes codec header c)
      else [] := by
  have hclean : ((ScanState.start headerBytes).acceptAll
      ((frameScan codec header c).frames.map Prod.fst)).transitions =
      connectionTransitions (scannedEnvelopes codec header c) := by
    rw [ScanState.acceptAll_transitions, List.map_map]
    exact adjacentTransitions_none _ _
  rw [scanChunk_of_header h]
  cases (frameScan codec header c).stop with
  | done => exact hclean
  | torn e => rfl
  | bad e => rfl

/-! ## Truncation and cuts -/

/-- What a scan consumed scans to the same frames, and cleanly. -/
theorem frameScan_take_consumed (c : Bytes) :
    frameScan codec header (c.take (frameScan codec header c).consumed) =
      { frameScan codec header c with stop := .done } :=
  (frameReader codec header).scan_take_consumed c

theorem scannedEnvelopes_take_consumed (c : Bytes) :
    scannedEnvelopes codec header (c.take (frameScan codec header c).consumed) =
      scannedEnvelopes codec header c := by
  rw [scannedEnvelopes, frameScan_take_consumed]
  rfl

/-- What truncation to the valid end keeps. -/
theorem take_validEnd (h : HeaderBytes codec headerBytes header) (c : Bytes) :
    (headerBytes ++ c).take (scanChunk codec (headerBytes ++ c)).validEnd =
      headerBytes ++ c.take (frameScan codec header c).consumed := by
  rw [validEnd_of_header h, List.take_length_add_append]

/-- The rescan reports the transitions of the frames kept. -/
theorem transitions_take_validEnd (h : HeaderBytes codec headerBytes header) (c : Bytes) :
    (scanChunk codec ((headerBytes ++ c).take
        (scanChunk codec (headerBytes ++ c)).validEnd)).connectionTransitions =
      connectionTransitions (scannedEnvelopes codec header c) := by
  rw [take_validEnd h, transitions_of_header h, if_pos (by rw [frameScan_take_consumed]),
    scannedEnvelopes_take_consumed]

/--
**Truncation to the valid end, and cuts of a clean chunk.**

Truncated to the valid end of its scan, a chunk whose header decodes scans cleanly to the same
header and statistics; the transitions are those of the frames kept, as the first scan reported
them if it was clean. A clean chunk cut behind its header scans cleanly or to a truncated tail, and
the valid end is the last frame boundary up to the cut.
-/
theorem scan_truncate_safe {b : Bytes} {s : ByteSource UInt8}
    (hd : decodeChunkHeader codec (.ofList b) = .ok (header, headerBytes, s)) :
    ((scanChunk codec (b.take (scanChunk codec b).validEnd)).issue = .none ∧
      (scanChunk codec (b.take (scanChunk codec b).validEnd)).header =
        (scanChunk codec b).header ∧
      (scanChunk codec (b.take (scanChunk codec b).validEnd)).statistics =
        (scanChunk codec b).statistics ∧
      (scanChunk codec (b.take (scanChunk codec b).validEnd)).connectionTransitions =
        connectionTransitions (scannedEnvelopes codec header (b.drop headerBytes.length)) ∧
      ((scanChunk codec b).issue = .none →
        (scanChunk codec (b.take (scanChunk codec b).validEnd)).connectionTransitions =
          (scanChunk codec b).connectionTransitions)) ∧
    ((scanChunk codec b).issue = .none → ∀ k, headerBytes.length ≤ k → k ≤ b.length →
      ((scanChunk codec (b.take k)).issue = .none ∨
        (scanChunk codec (b.take k)).issue = .truncatedTail) ∧
      (scanChunk codec (b.take k)).validEnd ∈
        frameBoundaries codec header headerBytes (b.drop headerBytes.length) ∧
      (scanChunk codec (b.take k)).validEnd ≤ k ∧
      ∀ x ∈ frameBoundaries codec header headerBytes (b.drop headerBytes.length),
        x ≤ k → x ≤ (scanChunk codec (b.take k)).validEnd) := by
  obtain ⟨h, hb⟩ := headerBytes_of_decodeChunkHeader hd
  obtain ⟨c, hc⟩ : ∃ c, s.rest = c := ⟨_, rfl⟩
  obtain rfl : b = headerBytes ++ c := by rw [← hc]; exact hb
  rw [List.drop_left]
  refine ⟨?_, ?_⟩
  · have htransitions := transitions_take_validEnd h c
    rw [take_validEnd h] at htransitions ⊢
    refine ⟨(issue_eq_none_iff h _).mpr (by rw [frameScan_take_consumed]), ?_, ?_,
      htransitions, ?_⟩
    · rw [(statistics_of_header h _).2, (statistics_of_header h _).2]
    · rw [(statistics_of_header h _).1, (statistics_of_header h _).1,
        scannedEnvelopes_take_consumed]
    · intro hnone
      rw [htransitions, transitions_of_header h, if_pos ((issue_eq_none_iff h c).mp hnone)]
  · intro hnone k hk hkb
    obtain ⟨j, rfl⟩ : ∃ j, k = headerBytes.length + j := ⟨k - headerBytes.length, by omega⟩
    have hj : j ≤ c.length := by
      rw [List.length_append] at hkb
      omega
    obtain ⟨hstop, hmem, hle, hmax⟩ :=
      (frameReader codec header).scan_cut ((issue_eq_none_iff h c).mp hnone) hj
    rw [List.take_length_add_append, validEnd_of_header h]
    refine ⟨?_, List.mem_map.mpr ⟨_, hmem, rfl⟩, Nat.add_le_add_left hle _, ?_⟩
    · rcases hstop with hstop | ⟨e, hstop⟩
      · exact Or.inl ((issue_eq_none_iff h _).mpr hstop)
      · exact Or.inr ((issue_eq_truncatedTail_iff h _).mpr ⟨e, hstop⟩)
    · intro x hx hxk
      obtain ⟨y, hy, rfl⟩ := List.mem_map.mp hx
      exact Nat.add_le_add_left (hmax y hy (by omega)) _

end

/-! ## A torn chunk whose connection changed -/

theorem headerBytes_sampleHeader :
    HeaderBytes referenceCodec (encodedHeader referenceCodec sampleHeader) sampleHeader :=
  (encodeChunkHeader_spec validateChunkHeader_sampleHeader sampleHeader_fits
    roundTrips_sampleHeader).2

theorem frameScan_sampleFrames :
    (frameScan referenceCodec sampleHeader
        (encodedFrames referenceCodec sampleEnvelopes)).stop = .done ∧
      scannedEnvelopes referenceCodec sampleHeader
        (encodedFrames referenceCodec sampleEnvelopes) = sampleEnvelopes := by
  have hmax := (maxFrameBytes_bounds validateChunkHeader_sampleHeader).2
  refine ⟨?_, scannedEnvelopes_encodedFrames hmax matches_sampleEnvelopes
    roundTrips_sampleEnvelopes encodes_sampleEnvelopes⟩
  rw [frameScan_encodedFrames hmax matches_sampleEnvelopes roundTrips_sampleEnvelopes
    encodes_sampleEnvelopes]

/-- A byte behind clean frames is a truncated tail, and the frames stay. -/
theorem frameScan_append_byte {codec : Codec} {header : ChunkHeader} {c : Bytes}
    (h : (frameScan codec header c).stop = .done) (x : UInt8) :
    (frameScan codec header (c ++ [x])).stop = .torn (.truncatedTail, "incomplete frame prefix") ∧
      scannedEnvelopes codec header (c ++ [x]) = scannedEnvelopes codec header c ∧
      (frameScan codec header (c ++ [x])).consumed = c.length := by
  have hx : (frameReader codec header).head [x] =
      .torn (.truncatedTail, "incomplete frame prefix") := by
    show frameHead codec header [x] = _
    have hat : frameAt codec header [x] = .stop .truncatedTail "incomplete frame prefix" := by
      unfold frameAt
      rw [if_neg (by simp), checkFramePrefix_short (by simp [framePrefixSize])]
    simp only [frameHead, hat]
  have happend : frameScan codec header (c ++ [x]) =
      (frameScan codec header c).append ((frameReader codec header).scan [x]) :=
    (frameReader codec header).scan_append h [x]
  have hall : (frameScan codec header c).consumed = c.length := Reader.Clean.consumed h
  rw [scannedEnvelopes, happend, Reader.scan_of_torn _ hx]
  simp [scannedEnvelopes, hall]

/-- What stands behind the header in the sample chunk and one byte of a frame never
written whole. -/
def tornSampleFrames : Bytes := encodedFrames referenceCodec sampleEnvelopes ++ [0]

def tornSampleChunk : Bytes := encodedHeader referenceCodec sampleHeader ++ tornSampleFrames

theorem scannedEnvelopes_tornSampleFrames :
    scannedEnvelopes referenceCodec sampleHeader tornSampleFrames = sampleEnvelopes :=
  (frameScan_append_byte frameScan_sampleFrames.1 0).2.1.trans frameScan_sampleFrames.2

theorem connectionTransitions_sampleEnvelopes :
    connectionTransitions sampleEnvelopes = [⟨"conn-1", "conn-2", ∅, {"sequence_gap"}⟩] := by
  decide

/-- The rescan of the torn sample chunk finds the transition that the first scan left out. -/
theorem scan_truncate_safe_sample :
    (scanChunk referenceCodec (tornSampleChunk.take
        (scanChunk referenceCodec tornSampleChunk).validEnd)).connectionTransitions =
      [⟨"conn-1", "conn-2", ∅, {"sequence_gap"}⟩] := by
  obtain ⟨s, hd, -⟩ := decodeChunkHeader_of_headerBytes (s := .ofList tornSampleChunk)
    headerBytes_sampleHeader rfl
  rw [(scan_truncate_safe hd).1.2.2.2.1, tornSampleChunk, List.drop_left,
    scannedEnvelopes_tornSampleFrames, connectionTransitions_sampleEnvelopes]

/-- The transitions of the rescan need not be those that the first scan reported. -/
theorem scan_truncate_adds_transitions :
    ¬ ∀ (codec : Codec) (b : Bytes) (header : ChunkHeader) (headerBytes : Bytes)
        (s : ByteSource UInt8),
      decodeChunkHeader codec (.ofList b) = .ok (header, headerBytes, s) →
        (scanChunk codec (b.take (scanChunk codec b).validEnd)).connectionTransitions =
          (scanChunk codec b).connectionTransitions := by
  intro hall
  obtain ⟨s, hd, -⟩ := decodeChunkHeader_of_headerBytes (s := .ofList tornSampleChunk)
    headerBytes_sampleHeader rfl
  have hsame := hall _ _ _ _ _ hd
  have hrescan := transitions_take_validEnd headerBytes_sampleHeader tornSampleFrames
  have hfirst := transitions_of_header headerBytes_sampleHeader tornSampleFrames
  have hstop : (frameScan referenceCodec sampleHeader tornSampleFrames).stop ≠ .done := by
    rw [tornSampleFrames, (frameScan_append_byte frameScan_sampleFrames.1 0).1]
    simp
  rw [if_neg hstop] at hfirst
  rw [scannedEnvelopes_tornSampleFrames, connectionTransitions_sampleEnvelopes] at hrescan
  rw [tornSampleChunk, hrescan, hfirst] at hsame
  cases hsame

end MarketDataRecorder
