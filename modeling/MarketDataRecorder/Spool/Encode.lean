import MarketDataRecorder.Spool.FrameReader

/-!
# Reading back what was encoded

`encode_chunk_header` and `encode_frame` against the checks of the scanner. All that is asked of
the CBOR library is that it decodes the mappings that were encoded: `RoundTrips`.
-/

namespace MarketDataRecorder

open Framing

/-- The library reads back what it wrote for `v`, to the last byte. -/
def RoundTrips (codec : Codec) (v : Value) : Prop := codec.loads (codec.dumps v) = .ok (v, [])

instance (codec : Codec) (v : Value) : Decidable (RoundTrips codec v) :=
  inferInstanceAs (Decidable (_ = _))

section

variable {codec : Codec}

theorem decodeOneCbor_dumps {v : Value} (h : RoundTrips codec v) :
    decodeOneCbor codec (codec.dumps v) = .ok v := by
  unfold RoundTrips at h
  simp [decodeOneCbor, h]

/-! ## Headers -/

theorem checkText_str {name s : String} {u : String}
    (h : checkText name (.str s) = .ok u) : u = s := by
  simp only [checkText] at h
  split at h
  · cases h
  · simpa using h.symm

theorem checkCreatedAt_int {i j : Int} (h : checkCreatedAt (.int i) = .ok j) : j = i := by
  simp only [checkCreatedAt] at h
  split at h
  · cases h
  · simpa using h.symm

theorem checkMaxFrameBytes_int {i j : Int} (h : checkMaxFrameBytes (.int i) = .ok j) :
    j = i ∧ 1024 ≤ i ∧ i ≤ 64 * 1024 * 1024 := by
  simp only [checkMaxFrameBytes] at h
  split at h
  · next hb => exact ⟨by simpa using h.symm, hb⟩
  · cases h

/-- **What `validate_chunk_header` has checked.** -/
theorem validateChunkHeader_eq_ok {h : ChunkHeader} (hv : validateChunkHeader h = .ok ()) :
    h.chunkSchemaVersion = chunkSchemaVersion ∧
      h.envelopeSchemaVersion = envelopeSchemaVersion ∧
      checkCreatedAt (.int h.createdAtUtcNs) = .ok h.createdAtUtcNs ∧
      checkText "collector_instance_id" (.str h.collectorInstanceId) = .ok h.collectorInstanceId ∧
      checkText "collector_version" (.str h.collectorVersion) = .ok h.collectorVersion ∧
      checkText "market" (.str h.market) = .ok h.market ∧
      checkText "stream" (.str h.stream) = .ok h.stream ∧
      checkText "symbol" (.str h.symbol) = .ok h.symbol ∧
      checkMaxFrameBytes (.int h.maxFrameBytes) = .ok h.maxFrameBytes := by
  unfold validateChunkHeader at hv
  by_cases hchunk : h.chunkSchemaVersion = chunkSchemaVersion
  swap
  · simp [hchunk, bind, Except.bind, throw, throwThe, MonadExceptOf.throw] at hv
  by_cases henvelope : h.envelopeSchemaVersion = envelopeSchemaVersion
  swap
  · simp [hchunk, henvelope, bind, Except.bind, throw, throwThe, MonadExceptOf.throw] at hv
  simp only [hchunk, henvelope, ne_eq, not_true_eq_false, if_false] at hv
  obtain ⟨created, hcreated, hv⟩ := except_bind_eq_ok hv
  obtain ⟨inst, hinst, hv⟩ := except_bind_eq_ok hv
  obtain ⟨version, hversion, hv⟩ := except_bind_eq_ok hv
  obtain ⟨market, hmarket, hv⟩ := except_bind_eq_ok hv
  obtain ⟨stream, hstream, hv⟩ := except_bind_eq_ok hv
  obtain ⟨symbol, hsymbol, hv⟩ := except_bind_eq_ok hv
  obtain ⟨maxBytes, hmax, -⟩ := except_bind_eq_ok hv
  rw [← checkCreatedAt_int hcreated, ← checkText_str hinst, ← checkText_str hversion,
    ← checkText_str hmarket, ← checkText_str hstream, ← checkText_str hsymbol,
    ← (checkMaxFrameBytes_int hmax).1] at *
  exact ⟨hchunk, henvelope, hcreated, hinst, hversion, hmarket, hstream, hsymbol, hmax⟩

theorem maxFrameBytes_bounds {h : ChunkHeader} (hv : validateChunkHeader h = .ok ()) :
    1024 ≤ h.maxFrameBytes ∧ h.maxFrameBytes ≤ 64 * 1024 * 1024 :=
  (checkMaxFrameBytes_int (validateChunkHeader_eq_ok hv).2.2.2.2.2.2.2.2).2

/-- **The mapping of a valid header reads back as the header.** -/
theorem headerOfMapping_canonicalMapping {h : ChunkHeader} (hv : validateChunkHeader h = .ok ()) :
    headerOfMapping h.canonicalMapping = .ok h := by
  obtain ⟨hchunk, henvelope, hcreated, hinst, hversion, hmarket, hstream, hsymbol, hmax⟩ :=
    validateChunkHeader_eq_ok hv
  have hkeys : hasHeaderKeys h.canonicalMapping = true := rfl
  have hid : checkChunkId (.bytes h.chunkId.val) = .ok h.chunkId := by
    simp [checkChunkId, h.chunkId.property]
  have hitem : ∀ key v, h.canonicalMapping.get? key = some v →
      (h.canonicalMapping.get? key).getD .null = v := by
    intro key v hget
    rw [hget]
    rfl
  have hdict : h.canonicalMapping.isDict = true := rfl
  rw [headerOfMapping, hdict, hkeys]
  simp only [Bool.not_true, Bool.false_eq_true, if_false]
  rw [hitem "format" _ rfl, hitem "chunk_schema_version" _ rfl,
    hitem "envelope_schema_version" _ rfl, hitem "chunk_id" _ rfl, hitem "created_at_utc_ns" _ rfl,
    hitem "collector_instance_id" _ rfl, hitem "collector_version" _ rfl, hitem "market" _ rfl,
    hitem "stream" _ rfl, hitem "symbol" _ rfl, hitem "max_frame_bytes" _ rfl,
    hchunk, henvelope, hid, hcreated, hinst, hversion, hmarket, hstream, hsymbol, hmax]
  cases h
  simp only at hchunk henvelope
  subst hchunk henvelope
  rfl

theorem length_fixedWithoutCrc (n : Nat) : (fixedWithoutCrc n).length = fixedHeaderSize - 4 := rfl

/-- The fixed header that the encoder writes passes. -/
theorem checkFixedHeader_encoded {n crc : Nat} (hn : n ≤ maxHeaderBodyBytes)
    (hcrc : crc < 256 ^ 4) :
    checkFixedHeader (fixedWithoutCrc n ++ BigEndian.toBytes 4 crc) = .ok (n, crc) := by
  have hlen : fieldNat (fixedWithoutCrc n ++ BigEndian.toBytes 4 crc) 16 4 = n :=
    BigEndian.ofBytes_toBytes (w := 4) (by simp only [maxHeaderBodyBytes] at hn; omega)
  have hsum : fieldNat (fixedWithoutCrc n ++ BigEndian.toBytes 4 crc) 20 4 = crc :=
    BigEndian.ofBytes_toBytes (w := 4) hcrc
  have hsize : (fixedWithoutCrc n ++ BigEndian.toBytes 4 crc).length = fixedHeaderSize := rfl
  have hmagic : field (fixedWithoutCrc n ++ BigEndian.toBytes 4 crc) 0 8 = magic := rfl
  have hmajor : fieldNat (fixedWithoutCrc n ++ BigEndian.toBytes 4 crc) 8 1 = formatMajor := rfl
  have hminor : fieldNat (fixedWithoutCrc n ++ BigEndian.toBytes 4 crc) 9 1 = formatMinor := rfl
  have hmark : fieldNat (fixedWithoutCrc n ++ BigEndian.toBytes 4 crc) 10 2 = byteOrderMarker := rfl
  have hflags : fieldNat (fixedWithoutCrc n ++ BigEndian.toBytes 4 crc) 12 4 = 0 := rfl
  simp only [checkFixedHeader, hsize, hmagic, hmajor, hminor, hmark, hflags, hlen, hsum, ne_eq,
    not_true_eq_false, if_false, gt_iff_lt, Nat.not_lt.mpr hn]
  rfl

/-- The header that the encoder writes. -/
def encodedHeader (codec : Codec) (h : ChunkHeader) : Bytes :=
  let body := codec.dumps h.canonicalMapping
  withChecksum codec (fixedWithoutCrc body.length) body

/-- **`encode_chunk_header` succeeds on a valid header that fits, and writes a header.** -/
theorem encodeChunkHeader_spec {h : ChunkHeader} (hv : validateChunkHeader h = .ok ())
    (hfit : (codec.dumps h.canonicalMapping).length ≤ maxHeaderBodyBytes)
    (hround : RoundTrips codec h.canonicalMapping) :
    encodeChunkHeader codec h = .ok (encodedHeader codec h) ∧
      HeaderBytes codec (encodedHeader codec h) h := by
  let body := codec.dumps h.canonicalMapping
  let crc := (codec.crc32c (fixedWithoutCrc body.length ++ body)).toNat
  have hcrc : crc < 256 ^ 4 := UInt32.toNat_lt _
  have hsize : (fixedWithoutCrc body.length ++ BigEndian.toBytes 4 crc).length = fixedHeaderSize :=
    rfl
  have heq : encodedHeader codec h = withChecksum codec (fixedWithoutCrc body.length) body := rfl
  refine ⟨?_, body.length, crc, ?_, ?_, ?_⟩
  · rw [encodeChunkHeader, hv]
    simp only [gt_iff_lt, Nat.not_lt.mpr hfit, if_false]
    rfl
  · simp only [heq, withChecksum, List.length_append, length_fixedWithoutCrc,
      BigEndian.toBytes_length, fixedHeaderSize]
  · rw [heq, withChecksum, List.take_left' hsize]
    exact checkFixedHeader_encoded hfit hcrc
  · rw [heq, withChecksum, List.take_left' hsize, List.drop_left' hsize, checkHeaderBody]
    have hcovered : (fixedWithoutCrc body.length ++ BigEndian.toBytes 4 crc).take
        (fixedHeaderSize - 4) = fixedWithoutCrc body.length := List.take_left' rfl
    rw [hcovered, if_neg (by simp), if_neg (by simp [crc]), decodeOneCbor_dumps hround]
    simp only [bind, Except.bind, headerOfMapping_canonicalMapping hv]

/-! ## Frames -/

theorem envelopeOfMapping_canonicalMapping (e : EventEnvelope) :
    envelopeOfMapping codec e.canonicalMapping = .ok e := by
  have hdict : e.canonicalMapping.isDict = true := rfl
  simp [envelopeOfMapping, hdict, EventEnvelope.modelValidate_canonicalMapping]

theorem decodeEnvelope_encodeEnvelope {e : EventEnvelope}
    (h : RoundTrips codec e.canonicalMapping) :
    decodeEnvelope codec (encodeEnvelope codec e) = .ok e := by
  simp [decodeEnvelope, encodeEnvelope, decodeOneCbor_dumps h, bind, Except.bind,
    envelopeOfMapping_canonicalMapping]

/-- The envelope carries the identity of the chunk. -/
def Matches (h : ChunkHeader) (e : EventEnvelope) : Prop :=
  e.market.text = h.market ∧ e.symbol.val = h.symbol ∧ e.stream.val = h.stream

instance (h : ChunkHeader) (e : EventEnvelope) : Decidable (Matches h e) :=
  inferInstanceAs (Decidable (_ ∧ _))

/-- The frame prefix that the encoder writes passes. -/
theorem checkFramePrefix_encoded {h : ChunkHeader} {n crc : Nat} (hn : (n : Int) ≤ h.maxFrameBytes)
    (hn4 : n < 256 ^ 4) (hcrc : crc < 256 ^ 4) :
    checkFramePrefix h (coveredPrefix n ++ BigEndian.toBytes 4 crc) = .ok (n, crc) := by
  have hlen : fieldNat (coveredPrefix n ++ BigEndian.toBytes 4 crc) 0 4 = n :=
    BigEndian.ofBytes_toBytes (w := 4) hn4
  have hsum : fieldNat (coveredPrefix n ++ BigEndian.toBytes 4 crc) 8 4 = crc :=
    BigEndian.ofBytes_toBytes (w := 4) hcrc
  have hsize : (coveredPrefix n ++ BigEndian.toBytes 4 crc).length = framePrefixSize := rfl
  have hflags : fieldNat (coveredPrefix n ++ BigEndian.toBytes 4 crc) 4 2 = 0 := rfl
  have hreserved : fieldNat (coveredPrefix n ++ BigEndian.toBytes 4 crc) 6 2 = 0 := rfl
  simp only [checkFramePrefix, hsize, hlen, hsum, hflags, hreserved, ne_eq, not_true_eq_false,
    or_self, if_false, not_lt.mpr hn]
  rfl

/-- What `encode_frame` has written where it succeeds. -/
theorem encodeFrame_eq_ok {e : EventEnvelope} {maxFrameBytes : Int} {bytes : Bytes}
    (h : encodeFrame codec e maxFrameBytes = .ok bytes) :
    ((encodeEnvelope codec e).length : Int) ≤ maxFrameBytes ∧
      bytes = withChecksum codec (coveredPrefix (encodeEnvelope codec e).length)
        (encodeEnvelope codec e) := by
  unfold encodeFrame at h
  split at h
  · cases h
  · simp only at h
    split at h
    · cases h
    · next hle => exact ⟨not_lt.mp hle, by simpa using h.symm⟩

/-- The frame that the encoder writes for an envelope. -/
def encodedFrame (codec : Codec) (e : EventEnvelope) : RawFrame :=
  let body := encodeEnvelope codec e
  let covered := coveredPrefix body.length
  { framePrefix := covered ++ BigEndian.toBytes 4 (codec.crc32c (covered ++ body)).toNat
    body := body
    envelope := e }

theorem encodeFrame_of_fits {e : EventEnvelope} {maxFrameBytes : Int}
    (hpayload : (e.rawPayload.length : Int) ≤ maxFrameBytes)
    (hbody : ((encodeEnvelope codec e).length : Int) ≤ maxFrameBytes) :
    encodeFrame codec e maxFrameBytes = .ok (encodedFrame codec e).bytes := by
  simp only [encodeFrame, not_lt.mpr hpayload, not_lt.mpr hbody, if_false]
  rfl

/-- **An encoded frame is read back as the frame it was encoded from.** -/
theorem frameHead_encodeFrame {h : ChunkHeader} {e : EventEnvelope} {bytes : Bytes}
    (hmax : h.maxFrameBytes ≤ 64 * 1024 * 1024) (hmatch : Matches h e)
    (hround : RoundTrips codec e.canonicalMapping)
    (henc : encodeFrame codec e h.maxFrameBytes = .ok bytes) :
    bytes = (encodedFrame codec e).bytes ∧
      frameHead codec h bytes = .frame (encodedFrame codec e) bytes.length := by
  obtain ⟨hle, rfl⟩ := encodeFrame_eq_ok henc
  let body := encodeEnvelope codec e
  let crc := (codec.crc32c (coveredPrefix body.length ++ body)).toNat
  have hcrc : crc < 256 ^ 4 := UInt32.toNat_lt _
  have hplen : (coveredPrefix body.length ++ BigEndian.toBytes 4 crc).length = framePrefixSize :=
    rfl
  refine ⟨rfl, frameHead_eq_frame_iff.mpr ⟨?_, ?_⟩⟩
  · refine frameAt_eq_frame_iff.mpr ⟨crc, ?_, hplen, ?_, ?_, ?_⟩
    · exact (List.take_left' hplen).symm
    · rw [show (withChecksum codec (coveredPrefix body.length) body).drop framePrefixSize =
        body from
        List.drop_left' hplen]
      exact (List.take_length).symm
    · exact checkFramePrefix_encoded hle (by omega) hcrc
    · have hcovered : (encodedFrame codec e).framePrefix.take framePrefixWithoutCrcSize =
          coveredPrefix body.length := List.take_left' rfl
      obtain ⟨hmarket, hsymbol, hstream⟩ := hmatch
      simp only [checkFrameBody, ne_eq, not_true_eq_false, if_false, hcovered]
      rw [if_neg (by simp [crc, body, encodedFrame])]
      simp only [encodedFrame, decodeEnvelope_encodeEnvelope hround, hmarket, hsymbol, hstream,
        not_true_eq_false, or_self, if_false]
  · rw [withChecksum, List.length_append]
    rfl

/-! ## Chunks -/

/-- The header and the frames of a chunk, one after the other. -/
def encodeChunk (codec : Codec) (h : ChunkHeader) (es : List EventEnvelope) :
    Except String Bytes := do
  let headerBytes ← encodeChunkHeader codec h
  let frames ← es.mapM fun e => encodeFrame codec e h.maxFrameBytes
  return headerBytes ++ frames.flatten

/-- The frames that the encoder writes for a list of envelopes. -/
def encodedFrames (codec : Codec) (es : List EventEnvelope) : Bytes :=
  (es.map fun e => (encodedFrame codec e).bytes).flatten

/-- The encoder succeeds on each envelope, so it does on all of them. -/
theorem mapM_encodeFrame {h : ChunkHeader} :
    ∀ {es : List EventEnvelope},
      (∀ e ∈ es, ∃ bytes, encodeFrame codec e h.maxFrameBytes = .ok bytes) →
      es.mapM (fun e => encodeFrame codec e h.maxFrameBytes) =
        .ok (es.map fun e => (encodedFrame codec e).bytes)
  | [], _ => rfl
  | e :: rest, hes => by
    obtain ⟨bytes, hbytes⟩ := hes e List.mem_cons_self
    have heq : bytes = (encodedFrame codec e).bytes := (encodeFrame_eq_ok hbytes).2
    rw [List.mapM_cons, hbytes, heq, mapM_encodeFrame fun e he => hes e (List.mem_cons_of_mem _ he)]
    rfl

theorem encodeChunk_eq {h : ChunkHeader} {es : List EventEnvelope}
    (hheader : encodeChunkHeader codec h = .ok (encodedHeader codec h))
    (henc : ∀ e ∈ es, ∃ bytes, encodeFrame codec e h.maxFrameBytes = .ok bytes) :
    encodeChunk codec h es = .ok (encodedHeader codec h ++ encodedFrames codec es) := by
  rw [encodeChunk, hheader]
  simp only [bind, Except.bind, mapM_encodeFrame henc]
  rfl

/-- **The frames of an encoded chunk scan to the frames that were encoded.** -/
theorem frameScan_encodedFrames {h : ChunkHeader} {es : List EventEnvelope}
    (hmax : h.maxFrameBytes ≤ 64 * 1024 * 1024) (hmatch : ∀ e ∈ es, Matches h e)
    (hround : ∀ e ∈ es, RoundTrips codec e.canonicalMapping)
    (henc : ∀ e ∈ es, ∃ bytes, encodeFrame codec e h.maxFrameBytes = .ok bytes) :
    frameScan codec h (encodedFrames codec es) =
      { frames := es.map fun e => (encodedFrame codec e, (encodedFrame codec e).bytes.length)
        consumed := (encodedFrames codec es).length
        stop := .done } := by
  have hframes : ∀ p ∈ es.map fun e => (encodedFrame codec e, (encodedFrame codec e).bytes),
      (frameReader codec h).head p.2 = .frame p.1 p.2.length := by
    intro p hp
    obtain ⟨e, he, rfl⟩ := List.mem_map.mp hp
    obtain ⟨bytes, hbytes⟩ := henc e he
    obtain ⟨rfl, hhead⟩ := frameHead_encodeFrame hmax (hmatch e he) (hround e he) hbytes
    exact hhead
  have hscan := (frameReader codec h).scan_flatten hframes
  simpa only [frameScan, encodedFrames, List.map_map, Function.comp_def] using hscan

@[simp] theorem map_envelope_encodedFrame (es : List EventEnvelope) :
    (es.map (encodedFrame codec)).map RawFrame.envelope = es := by
  simp [encodedFrame, Function.comp_def]

theorem scannedEnvelopes_encodedFrames {h : ChunkHeader} {es : List EventEnvelope}
    (hmax : h.maxFrameBytes ≤ 64 * 1024 * 1024) (hmatch : ∀ e ∈ es, Matches h e)
    (hround : ∀ e ∈ es, RoundTrips codec e.canonicalMapping)
    (henc : ∀ e ∈ es, ∃ bytes, encodeFrame codec e h.maxFrameBytes = .ok bytes) :
    scannedEnvelopes codec h (encodedFrames codec es) = es := by
  rw [scannedEnvelopes, frameScan_encodedFrames hmax hmatch hround henc]
  simp [encodedFrame, Function.comp_def]

end

end MarketDataRecorder
