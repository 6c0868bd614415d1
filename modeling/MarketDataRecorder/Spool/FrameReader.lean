import MarketDataRecorder.Lib.Framing
import MarketDataRecorder.Spool.Format

/-!
# The scanner as a reader of frames

The scanner reads from a source that may cut its reads short. Here it is brought down to the bytes
the source holds: one round of the loop is a `Framing.Reader`, the whole loop is its `scan`, and
the accumulators are folds over the frames read.

* `scanChunkStream_of_header` — the scan of a chunk whose header decodes
* `ScanState.acceptAll_*` — what the accumulators hold after a list of frames
-/

namespace MarketDataRecorder

open Framing

/-- A frame as read: its prefix, its body and the envelope in it. -/
structure RawFrame where
  framePrefix : Bytes
  body : Bytes
  envelope : EventEnvelope
  deriving DecidableEq

def RawFrame.bytes (f : RawFrame) : Bytes := f.framePrefix ++ f.body

section

variable (codec : Codec)

/-! ## One round on bytes -/

/-- What the scanner finds at the front of some bytes. -/
def frameAt (header : ChunkHeader) (b : Bytes) : FrameRead :=
  if b = [] then .eof
  else match checkFramePrefix header (b.take framePrefixSize) with
    | .error (issue, detail) => .stop issue detail
    | .ok (n, crc) =>
      match checkFrameBody codec header (b.take framePrefixSize)
          ((b.drop framePrefixSize).take n) n crc with
      | .error (issue, detail) => .stop issue detail
      | .ok e => .frame (b.take framePrefixSize) ((b.drop framePrefixSize).take n) e

theorem take_framePrefixSize_eq_nil {b : Bytes} : b.take framePrefixSize = [] ↔ b = [] := by
  rw [List.take_eq_nil_iff]
  simp [framePrefixSize]

/-- The reads of a round depend on the bytes only, not on how they are cut. -/
theorem readFrame_fst (header : ChunkHeader) (s : ByteSource UInt8) :
    (readFrame codec header s).1 = frameAt codec header s.rest := by
  simp only [readFrame, frameAt, ByteSource.readUpTo_fst, ByteSource.readUpTo_rest,
    take_framePrefixSize_eq_nil]
  split
  · rfl
  · cases checkFramePrefix header (s.rest.take framePrefixSize) with
    | error e => rfl
    | ok p =>
      obtain ⟨n, crc⟩ := p
      simp only
      cases checkFrameBody codec header (s.rest.take framePrefixSize)
        ((s.rest.drop framePrefixSize).take n) n crc with
      | error e => rfl
      | ok e => rfl

/-- A prefix that passes has its twelve bytes. -/
theorem length_of_checkFramePrefix {header : ChunkHeader} {p : Bytes} {n crc : Nat}
    (h : checkFramePrefix header p = .ok (n, crc)) : p.length = framePrefixSize := by
  by_contra hlen
  simp [checkFramePrefix, hlen, bind, Except.bind, throw, throwThe, MonadExceptOf.throw] at h

/-- A body that passes is as long as declared. -/
theorem length_of_checkFrameBody {header : ChunkHeader} {p body : Bytes} {n crc : Nat}
    {e : EventEnvelope} (h : checkFrameBody codec header p body n crc = .ok e) :
    body.length = n := by
  by_contra hlen
  simp [checkFrameBody, hlen] at h

/-- A prefix cut short is a torn tail. -/
theorem checkFramePrefix_short {header : ChunkHeader} {p : Bytes}
    (h : p.length ≠ framePrefixSize) :
    checkFramePrefix header p = .error (.truncatedTail, "incomplete frame prefix") := by
  simp [checkFramePrefix, h, bind, Except.bind, throw, throwThe, MonadExceptOf.throw]

/-- A body cut short is a torn tail. -/
theorem checkFrameBody_short {header : ChunkHeader} {p body : Bytes} {n crc : Nat}
    (h : body.length ≠ n) :
    checkFrameBody codec header p body n crc =
      .error (.truncatedTail, "incomplete frame body") := by
  simp [checkFrameBody, h]

variable {codec}

/-- **What a round that reads a frame has read.** -/
theorem frameAt_eq_frame_iff {header : ChunkHeader} {b p body : Bytes} {e : EventEnvelope} :
    frameAt codec header b = .frame p body e ↔
      ∃ crc, p = b.take framePrefixSize ∧ p.length = framePrefixSize ∧
        body = (b.drop framePrefixSize).take body.length ∧
        checkFramePrefix header p = .ok (body.length, crc) ∧
        checkFrameBody codec header p body body.length crc = .ok e := by
  constructor
  · intro h
    unfold frameAt at h
    split at h
    · cases h
    · split at h
      · cases h
      · next n crc hprefix =>
        split at h
        · cases h
        · next e' hbody =>
          obtain ⟨rfl, rfl, rfl⟩ := by simpa using h
          have hn := length_of_checkFrameBody codec hbody
          rw [hn]
          exact ⟨crc, rfl, length_of_checkFramePrefix hprefix, rfl, hprefix, hbody⟩
  · rintro ⟨crc, hp, hplen, hbody, hprefix, hcheck⟩
    have hne : b ≠ [] := by
      rintro rfl
      rw [hp] at hplen
      simp [framePrefixSize] at hplen
    unfold frameAt
    rw [if_neg hne, ← hp, hprefix]
    simp only
    rw [← hbody, hcheck]

/-- The bytes of a frame that was read stand at the front. -/
theorem take_of_frameAt {header : ChunkHeader} {b p body : Bytes} {e : EventEnvelope}
    (h : frameAt codec header b = .frame p body e) :
    b.take (p.length + body.length) = p ++ body := by
  obtain ⟨crc, hp, hplen, hbody, -, -⟩ := frameAt_eq_frame_iff.mp h
  rw [hplen, List.take_add, ← hp, ← hbody]

theorem length_le_of_frameAt {header : ChunkHeader} {b p body : Bytes} {e : EventEnvelope}
    (h : frameAt codec header b = .frame p body e) : p.length + body.length ≤ b.length := by
  have := congrArg List.length (take_of_frameAt h)
  rw [List.length_take, List.length_append] at this
  omega

/-- A frame is read from its own bytes. -/
theorem frameAt_append {header : ChunkHeader} {b p body : Bytes} {e : EventEnvelope}
    (h : frameAt codec header b = .frame p body e) (c : Bytes) :
    frameAt codec header (p ++ body ++ c) = .frame p body e := by
  obtain ⟨crc, -, hplen, -, hprefix, hcheck⟩ := frameAt_eq_frame_iff.mp h
  refine frameAt_eq_frame_iff.mpr ⟨crc, ?_, hplen, ?_, hprefix, hcheck⟩
  · rw [List.append_assoc, ← hplen, List.take_left]
  · rw [List.append_assoc, ← hplen, List.drop_left, List.take_left]

/-- An input that ends inside a frame is a torn tail. -/
theorem frameAt_cut {header : ChunkHeader} {b p body : Bytes} {e : EventEnvelope} {k : Nat}
    (h : frameAt codec header b = .frame p body e) (hk : 0 < k)
    (hcut : k < p.length + body.length) :
    ∃ detail, frameAt codec header (b.take k) = .stop .truncatedTail detail := by
  have hle := length_le_of_frameAt h
  obtain ⟨crc, hp, hplen, hbody, hprefix, -⟩ := frameAt_eq_frame_iff.mp h
  have hlen : (b.take k).length = k := by
    rw [List.length_take]
    omega
  have hne : b.take k ≠ [] := by
    intro hnil
    rw [hnil] at hlen
    simp only [List.length_nil] at hlen
    omega
  unfold frameAt
  rw [if_neg hne]
  by_cases hk12 : k < framePrefixSize
  · have hshort : ((b.take k).take framePrefixSize).length ≠ framePrefixSize := by
      rw [List.length_take, hlen]
      omega
    exact ⟨_, by rw [checkFramePrefix_short hshort]⟩
  · have hsame : (b.take k).take framePrefixSize = p := by
      rw [List.take_take, Nat.min_eq_left (by omega), hp]
    have hshort : (((b.take k).drop framePrefixSize).take body.length).length ≠ body.length := by
      rw [List.length_take, List.length_drop, hlen]
      omega
    refine ⟨"incomplete frame body", ?_⟩
    rw [hsame, hprefix]
    simp only
    rw [checkFrameBody_short codec hshort]

/-! ## The reader -/

/-- What a round of the scanner says, in the words of a framed reader. -/
def frameHead (codec : Codec) (header : ChunkHeader) (b : Bytes) :
    Head RawFrame (ScanIssue × String) :=
  match frameAt codec header b with
  | .eof => .done
  | .stop .truncatedTail detail => .torn (.truncatedTail, detail)
  | .stop issue detail => .bad (issue, detail)
  | .frame p body e => .frame ⟨p, body, e⟩ (p.length + body.length)

theorem frameHead_eq_frame_iff {header : ChunkHeader} {b : Bytes} {f : RawFrame} {n : Nat} :
    frameHead codec header b = .frame f n ↔
      frameAt codec header b = .frame f.framePrefix f.body f.envelope ∧
        n = f.framePrefix.length + f.body.length := by
  unfold frameHead
  constructor
  · intro h
    split at h
    · cases h
    · cases h
    · cases h
    · next p body e hf =>
      simp only [Head.frame.injEq] at h
      obtain ⟨rfl, rfl⟩ := h
      exact ⟨hf, rfl⟩
  · rintro ⟨h, rfl⟩
    rw [h]

theorem frameHead_eq_done_iff {header : ChunkHeader} {b : Bytes} :
    frameHead codec header b = .done ↔ b = [] := by
  unfold frameHead
  constructor
  · intro h
    split at h
    · next heof =>
      unfold frameAt at heof
      split at heof
      · next hnil => exact hnil
      · split at heof
        · cases heof
        · split at heof <;> cases heof
    · cases h
    · cases h
    · cases h
  · rintro rfl
    simp [frameAt]

theorem frameHead_of_stop {header : ChunkHeader} {b : Bytes} {issue : ScanIssue} {detail : String}
    (h : frameAt codec header b = .stop issue detail) :
    frameHead codec header b = .torn (issue, detail) ∨
      frameHead codec header b = .bad (issue, detail) := by
  cases issue <;> simp [frameHead, h]

/-- The frames of Raw chunk v1. -/
def frameReader (codec : Codec) (header : ChunkHeader) :
    Reader UInt8 RawFrame (ScanIssue × String) where
  head := frameHead codec header
  head_nil := frameHead_eq_done_iff.mpr rfl
  nil_of_done := frameHead_eq_done_iff.mp
  size_pos := by
    intro b f n h
    obtain ⟨hf, rfl⟩ := frameHead_eq_frame_iff.mp h
    obtain ⟨-, -, hplen, -⟩ := frameAt_eq_frame_iff.mp hf
    simp only [framePrefixSize] at hplen
    omega
  size_le := by
    intro b f n h
    obtain ⟨hf, rfl⟩ := frameHead_eq_frame_iff.mp h
    exact length_le_of_frameAt hf
  head_local := by
    intro b f n c h
    obtain ⟨hf, rfl⟩ := frameHead_eq_frame_iff.mp h
    rw [take_of_frameAt hf]
    exact frameHead_eq_frame_iff.mpr ⟨frameAt_append hf c, rfl⟩
  head_cut := by
    intro b f n k h hk hcut
    obtain ⟨hf, rfl⟩ := frameHead_eq_frame_iff.mp h
    obtain ⟨detail, hd⟩ := frameAt_cut hf hk hcut
    exact ⟨(.truncatedTail, detail), by simp only [frameHead, hd]⟩

/-- The scan of the bytes behind a header. -/
def frameScan (codec : Codec) (header : ChunkHeader) (b : Bytes) :
    Scan RawFrame (ScanIssue × String) :=
  (frameReader codec header).scan b

/-- The envelopes of the frames that a scan reads. -/
def scannedEnvelopes (codec : Codec) (header : ChunkHeader) (b : Bytes) : List EventEnvelope :=
  (frameScan codec header b).frames.map fun f => f.1.envelope

end

/-! ## The accumulators over many frames -/

namespace ScanState

def acceptAll (st : ScanState) (fs : List RawFrame) : ScanState :=
  fs.foldl (fun st f => st.accept f.framePrefix f.body f.envelope) st

@[simp] theorem acceptAll_nil (st : ScanState) : st.acceptAll [] = st := rfl

@[simp] theorem acceptAll_cons (st : ScanState) (f : RawFrame) (fs : List RawFrame) :
    st.acceptAll (f :: fs) = (st.accept f.framePrefix f.body f.envelope).acceptAll fs := rfl

theorem acceptAll_append (st : ScanState) (fs gs : List RawFrame) :
    st.acceptAll (fs ++ gs) = (st.acceptAll fs).acceptAll gs := List.foldl_append

/-- The statistics are the left fold of the update. -/
theorem acceptAll_statistics : ∀ (fs : List RawFrame) (st : ScanState),
    (st.acceptAll fs).statistics = (fs.map RawFrame.envelope).foldl
      ChunkStatistics.add st.statistics
  | [], _ => rfl
  | f :: fs, st => by
    rw [acceptAll_cons, acceptAll_statistics fs]
    rfl

/-- The digest was fed the bytes of the frames. -/
theorem acceptAll_digest : ∀ (fs : List RawFrame) (st : ScanState),
    (st.acceptAll fs).digest = st.digest ++ (fs.map RawFrame.bytes).flatten
  | [], st => by simp
  | f :: fs, st => by
    rw [acceptAll_cons, acceptAll_digest fs]
    simp [accept, RawFrame.bytes]

theorem acceptAll_validEnd : ∀ (fs : List RawFrame) (st : ScanState),
    (st.acceptAll fs).validEnd = st.validEnd + (fs.map RawFrame.bytes).flatten.length
  | [], st => by simp
  | f :: fs, st => by
    rw [acceptAll_cons, acceptAll_validEnd fs]
    simp only [accept, List.map_cons, List.flatten_cons, List.length_append, RawFrame.bytes]
    omega

/-- What the loop collects, behind a frame of a connection. -/
def adjacentTransitions : Option String → Finset String → List EventEnvelope →
    List ConnectionTransition
  | _, _, [] => []
  | previous, flags, e :: rest =>
    connectionTransition previous flags e ++
      adjacentTransitions (some e.connectionId.val) e.captureFlagsSet rest

theorem acceptAll_transitions : ∀ (fs : List RawFrame) (st : ScanState),
    (st.acceptAll fs).transitions =
      st.transitions ++ adjacentTransitions st.previousConnectionId st.previousFlags
        (fs.map RawFrame.envelope)
  | [], st => by simp [adjacentTransitions]
  | f :: fs, st => by
    rw [acceptAll_cons, acceptAll_transitions fs]
    simp [accept, adjacentTransitions]

end ScanState

/-- The connection changes in a chunk with these envelopes: one for each two neighbours of different
connections, with the flags of both. -/
def connectionTransitions (es : List EventEnvelope) : List ConnectionTransition :=
  ((es.zip es.tail).filter fun pair => pair.1.connectionId.val ≠ pair.2.connectionId.val).map
    fun pair => ⟨pair.1.connectionId.val, pair.2.connectionId.val, pair.1.captureFlagsSet,
      pair.2.captureFlagsSet⟩

theorem connectionTransitions_cons_cons (e f : EventEnvelope) (rest : List EventEnvelope) :
    connectionTransitions (e :: f :: rest) =
      connectionTransition (some e.connectionId.val) e.captureFlagsSet f ++
        connectionTransitions (f :: rest) := by
  by_cases h : e.connectionId.val = f.connectionId.val
  · simp [connectionTransitions, connectionTransition, h]
  · simp [connectionTransitions, connectionTransition, h, Ne.symm h]

/-- The loop collects the changes behind the frame it has read last. -/
theorem adjacentTransitions_some (rest : List EventEnvelope) (e : EventEnvelope) :
    ScanState.adjacentTransitions (some e.connectionId.val) e.captureFlagsSet rest =
      connectionTransitions (e :: rest) := by
  induction rest generalizing e with
  | nil => rfl
  | cons f rest ih =>
    rw [ScanState.adjacentTransitions, ih, connectionTransitions_cons_cons]

theorem adjacentTransitions_none (flags : Finset String) (es : List EventEnvelope) :
    ScanState.adjacentTransitions none flags es = connectionTransitions es := by
  cases es with
  | nil => rfl
  | cons e rest => exact adjacentTransitions_some rest e

/-- The statistics of a chunk with these envelopes. -/
def chunkStatistics (es : List EventEnvelope) : ChunkStatistics :=
  es.foldl ChunkStatistics.add {}

section

variable {codec : Codec}

/-! ## The loop -/

/-- The result a stopped or finished scan reports. -/
def ScanState.finish (codec : Codec) (st : ScanState) (header : ChunkHeader) (fileSize : Nat) :
    Stop (ScanIssue × String) → ScanResult
  | .done => st.clean codec header fileSize
  | .torn e => st.stopped header fileSize e.1 e.2
  | .bad e => st.stopped header fileSize e.1 e.2

/-- What one round of the loop does. -/
theorem readFrame_cases (codec : Codec) (header : ChunkHeader) (s : ByteSource UInt8) :
    ((readFrame codec header s).1 = .eof ∧ frameHead codec header s.rest = .done) ∨
      (∃ issue detail, (readFrame codec header s).1 = .stop issue detail ∧
        (frameHead codec header s.rest = .torn (issue, detail) ∨
          frameHead codec header s.rest = .bad (issue, detail))) ∨
      (∃ f : RawFrame, (readFrame codec header s).1 = .frame f.framePrefix f.body f.envelope ∧
        frameHead codec header s.rest = .frame f (f.framePrefix.length + f.body.length) ∧
        (readFrame codec header s).2.rest =
          s.rest.drop (f.framePrefix.length + f.body.length)) := by
  have hfst := readFrame_fst codec header s
  cases hat : frameAt codec header s.rest with
  | eof =>
    refine Or.inl ⟨hfst.trans hat, ?_⟩
    simp only [frameHead, hat]
  | stop issue detail =>
    exact Or.inr (Or.inl ⟨issue, detail, hfst.trans hat, frameHead_of_stop hat⟩)
  | frame p body e =>
    refine Or.inr (Or.inr ⟨⟨p, body, e⟩, hfst.trans hat, ?_, ?_⟩)
    · exact frameHead_eq_frame_iff.mpr ⟨hat, rfl⟩
    · obtain ⟨crc, hp, hplen, hbody, hprefix, hcheck⟩ := frameAt_eq_frame_iff.mp hat
      have hne : s.rest.take framePrefixSize ≠ [] := by
        intro hnil
        rw [hp, hnil] at hplen
        simp [framePrefixSize] at hplen
      simp only [readFrame, ByteSource.readUpTo_fst, if_neg hne]
      rw [← hp, hprefix]
      simp only [ByteSource.readUpTo_rest]
      rw [← hbody, hcheck]
      simp only [ByteSource.readUpTo_rest, List.drop_drop]
      rw [hplen]

/-- **The loop is the framed scan with its accumulators folded over the frames.** -/
theorem scanFrames_eq (header : ChunkHeader) (fileSize : Nat) :
    ∀ (fuel : Nat) (s : ByteSource UInt8) (st : ScanState), s.rest.length ≤ fuel →
      scanFrames codec header fileSize fuel s st =
        (st.acceptAll ((frameScan codec header s.rest).frames.map Prod.fst)).finish codec header
          fileSize (frameScan codec header s.rest).stop
  | 0, s, st, h => by
    have hnil : s.rest = [] := List.length_eq_zero_iff.mp (by omega)
    rw [hnil, frameScan, Reader.scan_nil]
    rfl
  | fuel + 1, s, st, h => by
    rw [scanFrames]
    rcases readFrame_cases codec header s with
      ⟨hr, hh⟩ | ⟨issue, detail, hr, hh⟩ | ⟨f, hr, hh, hrest⟩
    · rw [frameScan, Reader.scan_of_done (frameReader codec header) hh]
      split
      · rfl
      · next he => rw [he] at hr; cases hr
      · next he => rw [he] at hr; cases hr
    · split
      · next he => rw [he] at hr; cases hr
      · next he =>
        rw [he] at hr
        obtain ⟨rfl, rfl⟩ := by simpa using hr
        rcases hh with hh | hh
        · rw [frameScan, Reader.scan_of_torn (frameReader codec header) hh]
          rfl
        · rw [frameScan, Reader.scan_of_bad (frameReader codec header) hh]
          rfl
      · next he => rw [he] at hr; cases hr
    · have hpos := (frameReader codec header).size_pos hh
      have hle := (frameReader codec header).size_le hh
      split
      · next he => rw [he] at hr; cases hr
      · next he => rw [he] at hr; cases hr
      · next p body e s' he =>
        rw [he] at hr hrest
        obtain ⟨rfl, rfl, rfl⟩ := by simpa using hr
        simp only at hrest
        rw [scanFrames_eq header fileSize fuel s' _ (by rw [hrest, List.length_drop]; omega),
          hrest, frameScan, frameScan, Reader.scan_of_frame (frameReader codec header) hh]
        rfl

/-! ## The header -/

/-- Some bytes are exactly an encoded header. -/
def HeaderBytes (codec : Codec) (headerBytes : Bytes) (header : ChunkHeader) : Prop :=
  ∃ n crc, headerBytes.length = fixedHeaderSize + n ∧
    checkFixedHeader (headerBytes.take fixedHeaderSize) = .ok (n, crc) ∧
    checkHeaderBody codec (headerBytes.take fixedHeaderSize) (headerBytes.drop fixedHeaderSize) n
      crc = .ok header

theorem length_of_checkFixedHeader {fixed : Bytes} {p : Nat × Nat}
    (h : checkFixedHeader fixed = .ok p) : fixed.length = fixedHeaderSize := by
  by_contra hlen
  simp [checkFixedHeader, hlen, bind, Except.bind, throw, throwThe, MonadExceptOf.throw] at h

theorem length_of_checkHeaderBody {fixed body : Bytes} {n crc : Nat} {header : ChunkHeader}
    (h : checkHeaderBody codec fixed body n crc = .ok header) : body.length = n := by
  by_contra hlen
  simp [checkHeaderBody, hlen] at h

/-- A header decodes from its own bytes, whatever follows. -/
theorem decodeChunkHeader_of_headerBytes {headerBytes c : Bytes} {header : ChunkHeader}
    (h : HeaderBytes codec headerBytes header) {s : ByteSource UInt8}
    (hs : s.rest = headerBytes ++ c) :
    ∃ s', decodeChunkHeader codec s = .ok (header, headerBytes, s') ∧ s'.rest = c := by
  obtain ⟨n, crc, hlen, hfixed, hbody⟩ := h
  have hn : (headerBytes.drop fixedHeaderSize).length = n := length_of_checkHeaderBody hbody
  have htake : s.rest.take fixedHeaderSize = headerBytes.take fixedHeaderSize := by
    rw [hs, List.take_append_of_le_length (by omega)]
  have hdrop : (s.rest.drop fixedHeaderSize).take n = headerBytes.drop fixedHeaderSize := by
    rw [hs, List.drop_append_of_le_length (by omega), ← hn, List.take_left]
  refine ⟨((s.readUpTo fixedHeaderSize).2.readUpTo n).2, ?_, ?_⟩
  · simp only [decodeChunkHeader, ByteSource.readUpTo_fst, ByteSource.readUpTo_rest, htake, hfixed,
      hdrop, hbody, List.take_append_drop]
  · rw [ByteSource.readUpTo_rest, ByteSource.readUpTo_rest, List.drop_drop, hs, ← hlen,
      List.drop_left]

/-- What stands in front of the source after a header was decoded. -/
theorem headerBytes_of_decodeChunkHeader {s s' : ByteSource UInt8} {header : ChunkHeader}
    {headerBytes : Bytes} (h : decodeChunkHeader codec s = .ok (header, headerBytes, s')) :
    HeaderBytes codec headerBytes header ∧ s.rest = headerBytes ++ s'.rest := by
  simp only [decodeChunkHeader, ByteSource.readUpTo_fst, ByteSource.readUpTo_rest] at h
  split at h
  · cases h
  · next n crc hfixed =>
    split at h
    · cases h
    · next hd hbody =>
      simp only [Except.ok.injEq, Prod.mk.injEq] at h
      obtain ⟨rfl, rfl, rfl⟩ := h
      have hflen := length_of_checkFixedHeader hfixed
      have hn := length_of_checkHeaderBody hbody
      have hsplit : s.rest.take fixedHeaderSize ++ (s.rest.drop fixedHeaderSize).take n =
          s.rest.take (fixedHeaderSize + n) := List.take_add.symm
      refine ⟨⟨n, crc, ?_, ?_, ?_⟩, ?_⟩
      · rw [List.length_append, hflen, hn]
      · rw [List.take_left' hflen]
        exact hfixed
      · rw [List.take_left' hflen, List.drop_left' hflen]
        exact hbody
      · rw [ByteSource.readUpTo_rest, ByteSource.readUpTo_rest, List.drop_drop, hsplit,
          List.take_append_drop]

/-! ## The whole scan -/

/-- **The scan of a chunk whose header decodes**, however its reads are cut. -/
theorem scanChunkStream_of_header {headerBytes c : Bytes} {header : ChunkHeader}
    (h : HeaderBytes codec headerBytes header) {s : ByteSource UInt8}
    (hs : s.rest = headerBytes ++ c) (fileSize : Nat) :
    scanChunkStream codec s fileSize =
      ((ScanState.start headerBytes).acceptAll
        ((frameScan codec header c).frames.map Prod.fst)).finish codec header fileSize
          (frameScan codec header c).stop := by
  obtain ⟨s', hd, hrest⟩ := decodeChunkHeader_of_headerBytes h hs
  rw [scanChunkStream, hd]
  simp only
  rw [scanFrames_eq header fileSize _ _ _ (Nat.le_refl _), hrest]

theorem scanChunk_of_header {headerBytes c : Bytes} {header : ChunkHeader}
    (h : HeaderBytes codec headerBytes header) :
    scanChunk codec (headerBytes ++ c) =
      ((ScanState.start headerBytes).acceptAll
        ((frameScan codec header c).frames.map Prod.fst)).finish codec header
          (headerBytes ++ c).length (frameScan codec header c).stop :=
  scanChunkStream_of_header h rfl _

/-- A scan that reports a header has decoded one. -/
theorem exists_headerBytes_of_scanChunk {b : Bytes} {header : ChunkHeader}
    (h : (scanChunk codec b).header = some header) :
    ∃ headerBytes c, HeaderBytes codec headerBytes header ∧ b = headerBytes ++ c := by
  cases hd : decodeChunkHeader codec (.ofList b) with
  | error e => simp [scanChunk, scanChunkStream, hd] at h
  | ok p =>
    obtain ⟨header', headerBytes, s'⟩ := p
    obtain ⟨hbytes, hrest⟩ := headerBytes_of_decodeChunkHeader hd
    have hscan := scanChunkStream_of_header hbytes hrest b.length
    have hheader : header' = header := by
      rw [scanChunk, hscan] at h
      cases hstop : (frameScan codec header' s'.rest).stop <;>
        simpa [hstop, ScanState.finish, ScanState.clean, ScanState.stopped] using h
    subst hheader
    exact ⟨headerBytes, s'.rest, hbytes, hrest⟩

end

end MarketDataRecorder
