import MarketDataRecorder.Spool.Encode
import MarketDataRecorder.Spool.ReferenceCodec

/-!
# The normalizer's reader

`normalize/raw.py`: `iter_source_records` decodes a verified artifact one frame at a time. It is a
second implementation of the frame layout, with errors of its own. Here it is compared with the
scanner, and both with the encoder.

* `iterSourceRecords_eq` — the reader yields the envelopes the scanner counts, and ends without an
  error exactly where the scan is clean
* `scan_encodeChunk` — the round trip through the scanner and through the reader
-/

namespace MarketDataRecorder

open Framing

/-! ## The reader -/

/-- `SourceChunk`, as far as the reader looks at it. -/
structure SourceChunk where
  chunkId : String
  manifest : Value

/-- `SourceRecord`, without its chunk. -/
structure SourceRecord where
  ordinal : Nat
  envelope : EventEnvelope
  deriving DecidableEq

/-- What one round of the reader's loop finds. -/
inductive RecordRead where
  | eof
  | failed (error : String)
  | record (envelope : EventEnvelope)

/-- The checks of a frame prefix. -/
def checkRecordPrefix (header : ChunkHeader) (framePrefix : Bytes) : Except String (Nat × Nat) := do
  if framePrefix.length ≠ framePrefixSize then throw "sealed Raw has a truncated frame prefix"
  let bodyLength := fieldNat framePrefix 0 4
  if header.maxFrameBytes < bodyLength then throw "sealed Raw frame exceeds declared maximum"
  if fieldNat framePrefix 4 2 ≠ 0 ∨ fieldNat framePrefix 6 2 ≠ 0 then
    throw "sealed Raw frame uses unsupported flags"
  return (bodyLength, fieldNat framePrefix 8 4)

/-- An error of the chunk format, as the reader reports it. -/
def cannotDecode (chunk : SourceChunk) (error : String) : String :=
  "cannot decode Raw chunk " ++ chunk.chunkId ++ ": ChunkFormatError: " ++ error

section

variable (codec : Codec)

/-- The checks of a frame body. -/
def checkRecordBody (chunk : SourceChunk) (header : ChunkHeader) (framePrefix body : Bytes)
    (bodyLength expectedCrc : Nat) : Except String EventEnvelope :=
  if body.length ≠ bodyLength then .error "sealed Raw has a truncated frame body"
  else if (codec.crc32c (framePrefix.take framePrefixWithoutCrcSize ++ body)).toNat ≠
      expectedCrc then
    .error "sealed Raw frame checksum mismatch"
  else match decodeEnvelope codec body with
    | .error e => .error (cannotDecode chunk e)
    | .ok e =>
      if e.market.text ≠ header.market ∨ e.symbol.val ≠ header.symbol ∨
          e.stream.val ≠ header.stream then
        .error "Raw envelope differs from chunk identity"
      else .ok e

/-- One round of the reader's loop. -/
def readRecord (chunk : SourceChunk) (header : ChunkHeader) (source : ByteSource UInt8) :
    RecordRead × ByteSource UInt8 :=
  let (framePrefix, source) := source.readUpTo framePrefixSize
  if framePrefix = [] then (.eof, source)
  else match checkRecordPrefix header framePrefix with
    | .error e => (.failed e, source)
    | .ok (bodyLength, expectedCrc) =>
      let (body, source) := source.readUpTo bodyLength
      match checkRecordBody codec chunk header framePrefix body bodyLength expectedCrc with
      | .error e => (.failed e, source)
      | .ok envelope => (.record envelope, source)

/-- The reader's loop: the records it yields and the error it raises after them, if any. -/
def readRecords (chunk : SourceChunk) (header : ChunkHeader) :
    Nat → ByteSource UInt8 → Nat → List SourceRecord × Option String
  | 0, _, _ => ([], none)
  | fuel + 1, source, ordinal =>
    match readRecord codec chunk header source with
    | (.eof, _) => ([], none)
    | (.failed e, _) => ([], some e)
    | (.record envelope, source) =>
      let (records, error) := readRecords chunk header fuel source (ordinal + 1)
      (⟨ordinal, envelope⟩ :: records, error)

/-- `iter_source_records` over the decompressed artifact. -/
def iterSourceRecords (chunk : SourceChunk) (source : ByteSource UInt8) :
    List SourceRecord × Option String :=
  match decodeChunkHeader codec source with
  | .error e => ([], some (cannotDecode chunk e))
  | .ok (header, _, source) =>
    if uuidText header.chunkId ≠ chunk.chunkId then
      ([], some "Raw header chunk ID differs from manifest")
    else if chunk.manifest.get? "market" ≠ some (.str header.market) ∨
        chunk.manifest.get? "symbol" ≠ some (.str header.symbol) ∨
        chunk.manifest.get? "stream" ≠ some (.str header.stream) then
      ([], some "Raw header identity differs from manifest")
    else readRecords codec chunk header source.rest.length source 0

end

/-- A chunk with the manifest of `sampleHeader`. -/
def sampleSourceChunk : SourceChunk where
  chunkId := "00010203-0405-0607-0809-0a0b0c0d0e0f"
  manifest := .dict [("market", .str "spot"), ("stream", .str "diff_depth"),
    ("symbol", .str "BTCUSDT")]

/-- The chunk's manifest names the header's identity. -/
def SourceChunk.Describes (chunk : SourceChunk) (h : ChunkHeader) : Prop :=
  chunk.chunkId = uuidText h.chunkId ∧
    chunk.manifest.get? "market" = some (.str h.market) ∧
    chunk.manifest.get? "symbol" = some (.str h.symbol) ∧
    chunk.manifest.get? "stream" = some (.str h.stream)

instance (chunk : SourceChunk) (h : ChunkHeader) : Decidable (chunk.Describes h) :=
  inferInstanceAs (Decidable (_ ∧ _))

section

variable {codec : Codec}

/-! ## The reader and the scanner -/

/-- Both accept the same prefixes. -/
theorem checkRecordPrefix_eq_ok_iff {h : ChunkHeader} {p : Bytes} {r : Nat × Nat} :
    checkRecordPrefix h p = .ok r ↔ checkFramePrefix h p = .ok r := by
  unfold checkRecordPrefix checkFramePrefix
  simp only [bind, Except.bind, throw, throwThe, MonadExceptOf.throw, pure, Except.pure]
  by_cases hlen : p.length = framePrefixSize
  · by_cases hmax : h.maxFrameBytes < (fieldNat p 0 4 : Int)
    · simp [hlen, hmax]
    · by_cases hflags : fieldNat p 4 2 ≠ 0 ∨ fieldNat p 6 2 ≠ 0
      · simp [hlen, hmax, hflags]
      · simp [hlen, hmax, hflags]
  · simp [hlen]

/-- Both accept the same bodies. -/
theorem checkRecordBody_eq_ok_iff {chunk : SourceChunk} {h : ChunkHeader} {p body : Bytes}
    {n crc : Nat} {e : EventEnvelope} :
    checkRecordBody codec chunk h p body n crc = .ok e ↔
      checkFrameBody codec h p body n crc = .ok e := by
  unfold checkRecordBody checkFrameBody
  split
  · simp
  · split
    · simp
    · cases decodeEnvelope codec body with
      | error e => simp
      | ok e =>
        simp only
        split <;> simp

/-- **A round of the reader yields a record exactly where the scanner reads a frame.** -/
theorem readRecord_cases (codec : Codec) (chunk : SourceChunk) (header : ChunkHeader)
    (s : ByteSource UInt8) :
    ((readRecord codec chunk header s).1 = .eof ∧ frameHead codec header s.rest = .done) ∨
      (∃ error e, (readRecord codec chunk header s).1 = .failed error ∧
        (frameHead codec header s.rest = .torn e ∨ frameHead codec header s.rest = .bad e)) ∨
      (∃ f : RawFrame, (readRecord codec chunk header s).1 = .record f.envelope ∧
        frameHead codec header s.rest = .frame f (f.framePrefix.length + f.body.length) ∧
        (readRecord codec chunk header s).2.rest =
          s.rest.drop (f.framePrefix.length + f.body.length)) := by
  simp only [readRecord, ByteSource.readUpTo_fst, ByteSource.readUpTo_rest,
    take_framePrefixSize_eq_nil]
  by_cases hnil : s.rest = []
  · exact Or.inl ⟨by rw [if_pos hnil], frameHead_eq_done_iff.mpr hnil⟩
  rw [if_neg hnil]
  cases hprefix : checkRecordPrefix header (s.rest.take framePrefixSize) with
  | error error =>
    cases hscan : checkFramePrefix header (s.rest.take framePrefixSize) with
    | ok r => rw [checkRecordPrefix_eq_ok_iff.mpr hscan] at hprefix; cases hprefix
    | error e =>
      have hstop : frameAt codec header s.rest = .stop e.1 e.2 := by
        simp only [frameAt, if_neg hnil, hscan]
      exact Or.inr (Or.inl ⟨error, e, rfl, frameHead_of_stop hstop⟩)
  | ok r =>
    obtain ⟨n, crc⟩ := r
    have hscan := checkRecordPrefix_eq_ok_iff.mp hprefix
    simp only
    cases hbody : checkRecordBody codec chunk header (s.rest.take framePrefixSize)
        ((s.rest.drop framePrefixSize).take n) n crc with
    | error error =>
      cases hcheck : checkFrameBody codec header (s.rest.take framePrefixSize)
          ((s.rest.drop framePrefixSize).take n) n crc with
      | ok e => rw [checkRecordBody_eq_ok_iff.mpr hcheck] at hbody; cases hbody
      | error e =>
        have hstop : frameAt codec header s.rest = .stop e.1 e.2 := by
          simp only [frameAt, if_neg hnil, hscan, hcheck]
        exact Or.inr (Or.inl ⟨error, e, rfl, frameHead_of_stop hstop⟩)
    | ok e =>
      have hcheck := checkRecordBody_eq_ok_iff.mp hbody
      have hframe : frameAt codec header s.rest =
          .frame (s.rest.take framePrefixSize) ((s.rest.drop framePrefixSize).take n) e := by
        simp only [frameAt, if_neg hnil, hscan, hcheck]
      refine Or.inr (Or.inr ⟨⟨_, _, e⟩, rfl, frameHead_eq_frame_iff.mpr ⟨hframe, rfl⟩, ?_⟩)
      simp only [ByteSource.readUpTo_rest, List.drop_drop]
      rw [length_of_checkFramePrefix hscan, length_of_checkFrameBody codec hcheck]

/-- The envelopes with their ordinals from `k` on. -/
def numbered (k : Nat) : List EventEnvelope → List SourceRecord
  | [] => []
  | e :: rest => ⟨k, e⟩ :: numbered (k + 1) rest

theorem readRecords_eq (codec : Codec) (chunk : SourceChunk) (header : ChunkHeader) :
    ∀ (fuel : Nat) (s : ByteSource UInt8) (k : Nat), s.rest.length ≤ fuel →
      (readRecords codec chunk header fuel s k).1 =
          numbered k (scannedEnvelopes codec header s.rest) ∧
        ((readRecords codec chunk header fuel s k).2 = none ↔
          (frameScan codec header s.rest).stop = .done)
  | 0, s, k, h => by
    have hnil : s.rest = [] := List.length_eq_zero_iff.mp (by omega)
    simp [hnil, readRecords, scannedEnvelopes, frameScan, numbered]
  | fuel + 1, s, k, h => by
    rw [readRecords, scannedEnvelopes]
    rcases readRecord_cases codec chunk header s with
      ⟨hr, hh⟩ | ⟨error, e, hr, hh⟩ | ⟨f, hr, hh, hrest⟩
    · rw [frameScan, Reader.scan_of_done (frameReader codec header) hh]
      split
      · simp [numbered]
      · next he => rw [he] at hr; cases hr
      · next he => rw [he] at hr; cases hr
    · have hscan : (frameScan codec header s.rest).frames = [] ∧
          (frameScan codec header s.rest).stop ≠ .done := by
        rcases hh with hh | hh
        · rw [frameScan, Reader.scan_of_torn (frameReader codec header) hh]
          simp
        · rw [frameScan, Reader.scan_of_bad (frameReader codec header) hh]
          simp
      split
      · next he => rw [he] at hr; cases hr
      · simp [hscan.1, hscan.2, numbered]
      · next he => rw [he] at hr; cases hr
    · have hpos := (frameReader codec header).size_pos hh
      have hle := (frameReader codec header).size_le hh
      rw [frameScan, Reader.scan_of_frame (frameReader codec header) hh]
      split
      · next he => rw [he] at hr; cases hr
      · next he => rw [he] at hr; cases hr
      · next e s' he =>
        rw [he] at hr hrest
        obtain rfl := by simpa using hr
        simp only at hrest
        obtain ⟨hrecords, herror⟩ := readRecords_eq codec chunk header fuel s' (k + 1)
          (by rw [hrest, List.length_drop]; omega)
        rw [hrest] at hrecords herror
        simp only [hrecords, Scan.cons_frames, Scan.cons_stop, List.map_cons, numbered]
        exact ⟨rfl, herror⟩

/--
**The reader and the scanner agree on a described chunk**: the records are the envelopes of the
frames that the scanner reads, and the reader ends without an error exactly where the scan is clean.
-/
theorem iterSourceRecords_eq {chunk : SourceChunk} {h : ChunkHeader} {headerBytes c : Bytes}
    (hheader : HeaderBytes codec headerBytes h) (hchunk : chunk.Describes h)
    {s : ByteSource UInt8} (hs : s.rest = headerBytes ++ c) :
    (iterSourceRecords codec chunk s).1 = numbered 0 (scannedEnvelopes codec h c) ∧
      ((iterSourceRecords codec chunk s).2 = none ↔ (frameScan codec h c).stop = .done) := by
  obtain ⟨s', hd, hrest⟩ := decodeChunkHeader_of_headerBytes hheader hs
  obtain ⟨hid, hmarket, hsymbol, hstream⟩ := hchunk
  have hrecords := readRecords_eq codec chunk h s'.rest.length s' 0 (Nat.le_refl _)
  rw [hrest] at hrecords
  simpa [iterSourceRecords, hd, hid, hmarket, hsymbol, hstream, hrest] using hrecords

/-! ## The round trip -/

/--
**A chunk that was encoded is read back**, by the scanner and by the normalizer's reader, however
the source cuts its reads.
-/
theorem scan_encodeChunk {h : ChunkHeader} {es : List EventEnvelope} {chunk : SourceChunk}
    (hv : validateChunkHeader h = .ok ())
    (hfit : (codec.dumps h.canonicalMapping).length ≤ maxHeaderBodyBytes)
    (hmatch : ∀ e ∈ es, Matches h e)
    (henc : ∀ e ∈ es, ∃ bytes, encodeFrame codec e h.maxFrameBytes = .ok bytes)
    (hheader : RoundTrips codec h.canonicalMapping)
    (hround : ∀ e ∈ es, RoundTrips codec e.canonicalMapping)
    (hchunk : chunk.Describes h) :
    ∃ b, encodeChunk codec h es = .ok b ∧
      (∀ plan, scanChunkStream codec ⟨b, plan⟩ b.length =
        { header := some h
          statistics := es.foldl ChunkStatistics.add {}
          validEnd := b.length
          fileSize := b.length
          issue := .none
          detail := none
          uncompressedSha256 := some (codec.sha256Hex b)
          connectionTransitions := connectionTransitions es }) ∧
      ∀ plan, iterSourceRecords codec chunk ⟨b, plan⟩ = (numbered 0 es, none) := by
  have hmax := (maxFrameBytes_bounds hv).2
  obtain ⟨hencode, hbytes⟩ := encodeChunkHeader_spec hv hfit hheader
  have hscan := frameScan_encodedFrames hmax hmatch hround henc
  refine ⟨encodedHeader codec h ++ encodedFrames codec es, encodeChunk_eq hencode henc, ?_, ?_⟩
  · intro plan
    have hframes : (frameScan codec h (encodedFrames codec es)).frames.map Prod.fst =
        es.map (encodedFrame codec) := by
      rw [hscan]
      simp [Function.comp_def]
    have hflat : ((es.map (encodedFrame codec)).map RawFrame.bytes).flatten =
        encodedFrames codec es := by
      simp [encodedFrames, Function.comp_def]
    rw [scanChunkStream_of_header hbytes rfl, hframes, hscan]
    simp only [ScanState.finish, ScanState.clean, ScanState.acceptAll_statistics,
      ScanState.acceptAll_validEnd, ScanState.acceptAll_digest, ScanState.acceptAll_transitions,
      map_envelope_encodedFrame, hflat, ScanState.start, List.nil_append, List.length_append,
      adjacentTransitions_none]
  · intro plan
    obtain ⟨hrecords, herror⟩ := iterSourceRecords_eq (s := ⟨_, plan⟩) hbytes hchunk rfl
    have hclean := herror.mpr (by rw [hscan])
    rw [scannedEnvelopes_encodedFrames hmax hmatch hround henc] at hrecords
    exact Prod.ext hrecords hclean

end

/-- The round trip of a chunk whose connection changes between its two frames. -/
theorem scan_encodeChunk_sample :
    ∃ b, encodeChunk referenceCodec sampleHeader sampleEnvelopes = .ok b ∧
      (∀ plan, scanChunkStream referenceCodec ⟨b, plan⟩ b.length =
        { header := some sampleHeader
          statistics := sampleEnvelopes.foldl ChunkStatistics.add {}
          validEnd := b.length
          fileSize := b.length
          issue := .none
          detail := none
          uncompressedSha256 := some (referenceCodec.sha256Hex b)
          connectionTransitions := connectionTransitions sampleEnvelopes }) ∧
      ∀ plan, iterSourceRecords referenceCodec sampleSourceChunk ⟨b, plan⟩ =
        (numbered 0 sampleEnvelopes, none) := by
  refine scan_encodeChunk validateChunkHeader_sampleHeader sampleHeader_fits
    matches_sampleEnvelopes ?_ roundTrips_sampleHeader roundTrips_sampleEnvelopes
    (by decide)
  exact encodes_sampleEnvelopes

end MarketDataRecorder
