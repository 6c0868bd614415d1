import Mathlib.Data.Finset.Basic
import Mathlib.Data.String.Basic
import MarketDataRecorder.Domain.Event
import MarketDataRecorder.Lib.BigEndian
import MarketDataRecorder.Lib.ByteSource
import MarketDataRecorder.Lib.Checksum
import MarketDataRecorder.Lib.Fallible

/-!
# Raw chunk v1

`spool/format.py`: the frame layout of a Raw chunk, its encoder and its bounded scanner.

A chunk is a fixed header of 24 bytes, the canonical CBOR of the header mapping, and frames. A
frame is a prefix of 12 bytes (body length, flags, reserved, CRC32C) and the canonical CBOR of an
envelope. The checksum covers what stands before it and the body.

CBOR, CRC-32C, SHA-256 and the texts of the validation library are third-party code: a `Codec`.
-/

namespace MarketDataRecorder

/-! ## The libraries -/

/-- `cbor2`, `google_crc32c`, `hashlib` and the error texts of `pydantic`. -/
structure Codec where
  /-- `cbor2.dumps(value, canonical=True)`. -/
  dumps : Value → Bytes
  /-- `CBORDecoder(source).decode()`: the first value and the bytes not read. -/
  loads : Bytes → Except String (Value × Bytes)
  crc32c : Bytes → UInt32
  sha256Hex : Bytes → String
  /-- `str(exc)` of the `ValidationError` for a value. -/
  validationError : Value → String

/-! ## Constants -/

/-- `b"BMRCHNK\x1a"`. -/
def magic : Bytes := [0x42, 0x4D, 0x52, 0x43, 0x48, 0x4E, 0x4B, 0x1A]
def formatMajor : Nat := 1
def formatMinor : Nat := 0
def byteOrderMarker : Nat := 0xFEFF
def chunkSchemaVersion : String := "raw-chunk.v1"
def envelopeSchemaVersion : String := "event-envelope.v1"
def defaultMaxFrameBytes : Int := 16 * 1024 * 1024
def maxHeaderBodyBytes : Nat := 64 * 1024
def fixedHeaderSize : Nat := 24
def framePrefixSize : Nat := 12
def framePrefixWithoutCrcSize : Nat := 8

/-- `ScanIssue`. -/
inductive ScanIssue where
  | none
  | truncatedTail
  | invalidHeader
  | invalidFrameLength
  | unsupportedFlags
  | checksumFailure
  | invalidEnvelope
  deriving DecidableEq, Repr

/-! ## Chunk headers -/

/-- The bytes `[i, i + n)`. -/
def field (b : Bytes) (i n : Nat) : Bytes := (b.drop i).take n

abbrev UUID := { b : Bytes // b.length = 16 }

def hexText (b : Bytes) : List Char :=
  b.flatMap fun c => [Checksum.hexDigit (c.toNat / 16), Checksum.hexDigit (c.toNat % 16)]

/-- `str(uuid)`. -/
def uuidText (u : UUID) : String :=
  String.ofList (hexText (field u.val 0 4) ++ ['-'] ++ hexText (field u.val 4 2) ++ ['-'] ++
    hexText (field u.val 6 2) ++ ['-'] ++ hexText (field u.val 8 2) ++ ['-'] ++
    hexText (field u.val 10 6))

/-- `ChunkHeader`. -/
structure ChunkHeader where
  chunkId : UUID
  createdAtUtcNs : Int
  collectorInstanceId : String
  collectorVersion : String
  market : String
  symbol : String
  stream : String
  maxFrameBytes : Int := defaultMaxFrameBytes
  chunkSchemaVersion : String := MarketDataRecorder.chunkSchemaVersion
  envelopeSchemaVersion : String := MarketDataRecorder.envelopeSchemaVersion
  deriving DecidableEq

/-- `ChunkHeader.canonical_mapping`, its items in key order. -/
def ChunkHeader.canonicalMapping (h : ChunkHeader) : Value :=
  .dict [
    ("chunk_id", .bytes h.chunkId.val),
    ("chunk_schema_version", .str h.chunkSchemaVersion),
    ("collector_instance_id", .str h.collectorInstanceId),
    ("collector_version", .str h.collectorVersion),
    ("created_at_utc_ns", .int h.createdAtUtcNs),
    ("envelope_schema_version", .str h.envelopeSchemaVersion),
    ("format", .str "bmdr-raw-chunk"),
    ("market", .str h.market),
    ("max_frame_bytes", .int h.maxFrameBytes),
    ("stream", .str h.stream),
    ("symbol", .str h.symbol)]

/-- `isinstance(value, int)`, no boolean, not negative. -/
def checkCreatedAt : Value → Except String Int
  | .int i => if i < 0 then .error "invalid created_at_utc_ns" else .ok i
  | _ => .error "invalid created_at_utc_ns"

/-- A text that is not empty. -/
def checkText (name : String) : Value → Except String String
  | .str s => if s = "" then .error ("invalid " ++ name) else .ok s
  | _ => .error ("invalid " ++ name)

def checkMaxFrameBytes : Value → Except String Int
  | .int i =>
    if 1024 ≤ i ∧ i ≤ 64 * 1024 * 1024 then .ok i
    else .error "max frame bytes outside supported bounds"
  | _ => .error "max frame bytes outside supported bounds"

/-- `validate_chunk_header`. -/
def validateChunkHeader (h : ChunkHeader) : Except String Unit := do
  if h.chunkSchemaVersion ≠ chunkSchemaVersion then throw "unsupported chunk schema"
  if h.envelopeSchemaVersion ≠ envelopeSchemaVersion then throw "unsupported envelope schema"
  let _ ← checkCreatedAt (.int h.createdAtUtcNs)
  let _ ← checkText "collector_instance_id" (.str h.collectorInstanceId)
  let _ ← checkText "collector_version" (.str h.collectorVersion)
  let _ ← checkText "market" (.str h.market)
  let _ ← checkText "stream" (.str h.stream)
  let _ ← checkText "symbol" (.str h.symbol)
  let _ ← checkMaxFrameBytes (.int h.maxFrameBytes)

/-- The keys of a header mapping. -/
def expectedHeaderKeys : List String :=
  ["chunk_id", "chunk_schema_version", "collector_instance_id", "collector_version",
   "created_at_utc_ns", "envelope_schema_version", "format", "market", "max_frame_bytes",
   "stream", "symbol"]

/-- `set(value) == expected_keys`. -/
def hasHeaderKeys : Value → Bool
  | .dict items =>
    items.all (fun p => p.1 ∈ expectedHeaderKeys) &&
      expectedHeaderKeys.all (fun k => k ∈ items.map Prod.fst)
  | _ => false

def checkChunkId : Value → Except String UUID
  | .bytes b =>
    if h : b.length = 16 then .ok ⟨b, h⟩ else .error "chunk_id must contain 16 UUID bytes"
  | _ => .error "chunk_id must contain 16 UUID bytes"

/-- The header a decoded mapping stands for; the checks of `validate_chunk_header` in its order. -/
def headerOfMapping (value : Value) : Except String ChunkHeader := do
  if !value.isDict then throw "header CBOR root is not a map"
  if !hasHeaderKeys value then throw "header keys do not match raw-chunk.v1"
  let item (key : String) : Value := (value.get? key).getD .null
  if item "format" ≠ .str "bmdr-raw-chunk" then throw "invalid format identifier"
  if item "chunk_schema_version" ≠ .str chunkSchemaVersion then throw "unsupported chunk schema"
  if item "envelope_schema_version" ≠ .str envelopeSchemaVersion then
    throw "unsupported envelope schema"
  let chunkId ← checkChunkId (item "chunk_id")
  let createdAtUtcNs ← checkCreatedAt (item "created_at_utc_ns")
  let collectorInstanceId ← checkText "collector_instance_id" (item "collector_instance_id")
  let collectorVersion ← checkText "collector_version" (item "collector_version")
  let market ← checkText "market" (item "market")
  let stream ← checkText "stream" (item "stream")
  let symbol ← checkText "symbol" (item "symbol")
  let maxFrameBytes ← checkMaxFrameBytes (item "max_frame_bytes")
  return {
    chunkId, createdAtUtcNs, collectorInstanceId, collectorVersion, market, symbol, stream,
    maxFrameBytes }

/-! ## CBOR values -/

section

variable (codec : Codec)

/-- `_decode_one_cbor`. -/
def decodeOneCbor (body : Bytes) : Except String Value :=
  match codec.loads body with
  | .error e => .error e
  | .ok (value, rest) =>
    if rest ≠ [] then .error "CBOR value has trailing bytes"
    else if codec.dumps value ≠ body then .error "CBOR value is not canonical"
    else .ok value

def encodeEnvelope (e : EventEnvelope) : Bytes := codec.dumps e.canonicalMapping

/-- The envelope a decoded mapping stands for. -/
def envelopeOfMapping (value : Value) : Except String EventEnvelope :=
  if !value.isDict then .error "envelope CBOR root is not a map"
  else match EventEnvelope.modelValidate value with
    | none => .error (codec.validationError value)
    | some e => .ok e

/-- `decode_envelope`. -/
def decodeEnvelope (body : Bytes) : Except String EventEnvelope :=
  match decodeOneCbor codec body >>= envelopeOfMapping codec with
  | .error e => .error ("invalid EventEnvelope: " ++ e)
  | .ok e => .ok e

/-! ## Encoding -/

/-- `struct.pack(">8sBBHII", …)`. -/
def fixedWithoutCrc (bodyLength : Nat) : Bytes :=
  magic ++ BigEndian.toBytes 1 formatMajor ++ BigEndian.toBytes 1 formatMinor ++
    BigEndian.toBytes 2 byteOrderMarker ++ BigEndian.toBytes 4 0 ++ BigEndian.toBytes 4 bodyLength

/-- A checksum of four bytes over what stands before it and the body. -/
def withChecksum (covered body : Bytes) : Bytes :=
  covered ++ BigEndian.toBytes 4 (codec.crc32c (covered ++ body)).toNat ++ body

/-- `encode_chunk_header`. -/
def encodeChunkHeader (h : ChunkHeader) : Except String Bytes := do
  validateChunkHeader h
  let body := codec.dumps h.canonicalMapping
  if body.length > maxHeaderBodyBytes then throw "header exceeds 64 KiB"
  return withChecksum codec (fixedWithoutCrc body.length) body

/-- `FRAME_PREFIX_WITHOUT_CRC.pack(len(body), 0, 0)`. -/
def coveredPrefix (bodyLength : Nat) : Bytes :=
  BigEndian.toBytes 4 bodyLength ++ BigEndian.toBytes 2 0 ++ BigEndian.toBytes 2 0

/-- `encode_frame`. -/
def encodeFrame (e : EventEnvelope) (maxFrameBytes : Int) : Except String Bytes :=
  if maxFrameBytes < e.rawPayload.length then
    .error s!"raw payload {e.rawPayload.length} exceeds maximum {maxFrameBytes}"
  else
    let body := encodeEnvelope codec e
    if maxFrameBytes < body.length then
      .error s!"encoded frame body {body.length} exceeds maximum {maxFrameBytes}"
    else .ok (withChecksum codec (coveredPrefix body.length) body)

/-! ## Decoding the header -/

/-- The unsigned integer at the bytes `[i, i + n)`. -/
def fieldNat (b : Bytes) (i n : Nat) : Nat := BigEndian.ofBytes (field b i n)

/-- The checks of the fixed header; the body length and the checksum it declares. -/
def checkFixedHeader (fixed : Bytes) : Except String (Nat × Nat) := do
  if fixed.length ≠ fixedHeaderSize then throw "truncated fixed header"
  if field fixed 0 8 ≠ magic then throw "bad magic"
  let major := fieldNat fixed 8 1
  let minor := fieldNat fixed 9 1
  if (major, minor) ≠ (formatMajor, formatMinor) then
    throw s!"unsupported chunk version {major}.{minor}"
  if fieldNat fixed 10 2 ≠ byteOrderMarker then throw "invalid byte-order marker"
  if fieldNat fixed 12 4 ≠ 0 then throw "unsupported chunk flags"
  if fieldNat fixed 16 4 > maxHeaderBodyBytes then throw "header exceeds 64 KiB"
  return (fieldNat fixed 16 4, fieldNat fixed 20 4)

/-- The checks of the header body. -/
def checkHeaderBody (fixed body : Bytes) (bodyLength expectedCrc : Nat) :
    Except String ChunkHeader :=
  if body.length ≠ bodyLength then .error "truncated CBOR header"
  else if (codec.crc32c (fixed.take (fixedHeaderSize - 4) ++ body)).toNat ≠ expectedCrc then
    .error "header checksum failure"
  else match decodeOneCbor codec body >>= headerOfMapping with
    | .error e => .error ("invalid chunk header: " ++ e)
    | .ok h => .ok h

/-- `decode_chunk_header`: the header, its bytes, and the source behind it. -/
def decodeChunkHeader (source : ByteSource UInt8) :
    Except String (ChunkHeader × Bytes × ByteSource UInt8) :=
  let (fixed, source) := source.readUpTo fixedHeaderSize
  match checkFixedHeader fixed with
  | .error e => .error e
  | .ok (bodyLength, expectedCrc) =>
    let (body, source) := source.readUpTo bodyLength
    match checkHeaderBody codec fixed body bodyLength expectedCrc with
    | .error e => .error e
    | .ok header => .ok (header, fixed ++ body, source)

end

/-! ## Statistics -/

/-- `ChunkStatistics`. -/
structure ChunkStatistics where
  recordCount : Nat := 0
  receiveTimeUtcMinNs : Option Nat := none
  receiveTimeUtcMaxNs : Option Nat := none
  receiveMonotonicMinNs : Option Nat := none
  receiveMonotonicMaxNs : Option Nat := none
  exchangeTimeRanges : SortedDict String (Nat × Nat) := .empty
  sequenceValues : SortedDict String (SequenceValue × SequenceValue) := .empty
  connectionIds : Finset String := ∅
  collectorInstanceIds : Finset String := ∅
  captureFlags : Finset String := ∅
  deriving DecidableEq

/-- `_minimum`. -/
def minimum (current : Option Nat) (value : Nat) : Nat :=
  match current with
  | none => value
  | some c => min c value

/-- `_maximum`. -/
def maximum (current : Option Nat) (value : Nat) : Nat :=
  match current with
  | none => value
  | some c => max c value

/-- `_updated_sequence_range`: `none` where integers and texts are mixed. -/
def updatedSequenceRange :
    SequenceValue → SequenceValue → SequenceValue → Option (SequenceValue × SequenceValue)
  | .int low, .int high, .int value => some (.int (min low value), .int (max high value))
  | .str low, .str high, .str value => some (.str (min low value), .str (max high value))
  | _, _, _ => none

namespace ChunkStatistics

/-- Widen the range of an exchange time that is there. -/
def addExchangeTime (ranges : SortedDict String (Nat × Nat)) (name : String) :
    Option Nat → SortedDict String (Nat × Nat)
  | none => ranges
  | some value =>
    let range := (ranges.get? name).getD (value, value)
    ranges.insert name (min range.1 value, max range.2 value)

/-- Widen the range of a sequence value, or note that its type changed. -/
def addSequenceValue (s : ChunkStatistics) (item : NonEmptyText × SequenceValue) :
    ChunkStatistics :=
  let name := item.1.val
  let range := (s.sequenceValues.get? name).getD (item.2, item.2)
  match updatedSequenceRange range.1 range.2 item.2 with
  | none =>
    { s with
      sequenceValues := s.sequenceValues.insert name range
      captureFlags := insert "mixed_sequence_type" s.captureFlags }
  | some updated => { s with sequenceValues := s.sequenceValues.insert name updated }

end ChunkStatistics

/-- `frozenset(envelope.capture_flags)`. -/
def EventEnvelope.captureFlagsSet (e : EventEnvelope) : Finset String :=
  (e.captureFlags.map Subtype.val).toFinset

/-- `ChunkStatistics.add`. -/
def ChunkStatistics.add (s : ChunkStatistics) (e : EventEnvelope) : ChunkStatistics :=
  let times := ChunkStatistics.addExchangeTime
    (ChunkStatistics.addExchangeTime
      (ChunkStatistics.addExchangeTime s.exchangeTimeRanges "event" e.exchangeEventTime)
      "transaction" e.exchangeTransactionTime)
    "trade" e.exchangeTradeTime
  let s : ChunkStatistics :=
    { s with
      recordCount := s.recordCount + 1
      receiveTimeUtcMinNs := some (minimum s.receiveTimeUtcMinNs e.receiveTimeUtcNs)
      receiveTimeUtcMaxNs := some (maximum s.receiveTimeUtcMaxNs e.receiveTimeUtcNs)
      receiveMonotonicMinNs := some (minimum s.receiveMonotonicMinNs e.receiveMonotonicNs)
      receiveMonotonicMaxNs := some (maximum s.receiveMonotonicMaxNs e.receiveMonotonicNs)
      exchangeTimeRanges := times }
  let s := e.sourceSequence.items.foldl ChunkStatistics.addSequenceValue s
  { s with
    connectionIds := insert e.connectionId.val s.connectionIds
    collectorInstanceIds := insert e.collectorInstanceId.val s.collectorInstanceIds
    captureFlags := s.captureFlags ∪ e.captureFlagsSet }

/-- `ConnectionTransition`: the connections of two adjacent frames and the flags of both. -/
structure ConnectionTransition where
  previousConnectionId : String
  connectionId : String
  previousFlags : Finset String
  flags : Finset String
  deriving DecidableEq

/-! ## The scanner -/

/-- `ScanResult`. -/
structure ScanResult where
  header : Option ChunkHeader
  statistics : ChunkStatistics
  validEnd : Nat
  fileSize : Nat
  issue : ScanIssue
  detail : Option String
  uncompressedSha256 : Option String
  connectionTransitions : List ConnectionTransition := []
  deriving DecidableEq

def ScanResult.isClean (r : ScanResult) : Bool := r.issue = .none

def ScanResult.isTailTruncatable (r : ScanResult) : Bool :=
  r.issue = .truncatedTail && r.header.isSome

/-- What the scanner finds at the front of the source. -/
inductive FrameRead where
  | eof
  | stop (issue : ScanIssue) (detail : String)
  | frame (framePrefix body : Bytes) (envelope : EventEnvelope)
  deriving DecidableEq

/-- The checks of a frame prefix; the body length and the checksum it declares. -/
def checkFramePrefix (header : ChunkHeader) (framePrefix : Bytes) :
    Except (ScanIssue × String) (Nat × Nat) := do
  if framePrefix.length ≠ framePrefixSize then
    throw (.truncatedTail, "incomplete frame prefix")
  let bodyLength := fieldNat framePrefix 0 4
  let flags := fieldNat framePrefix 4 2
  let reserved := fieldNat framePrefix 6 2
  if header.maxFrameBytes < bodyLength then
    throw (.invalidFrameLength, s!"declared frame body {bodyLength} exceeds maximum")
  if flags ≠ 0 ∨ reserved ≠ 0 then
    throw (.unsupportedFlags, s!"flags={flags}, reserved={reserved}")
  return (bodyLength, fieldNat framePrefix 8 4)

section

variable (codec : Codec)

/-- The checks of a frame body. -/
def checkFrameBody (header : ChunkHeader) (framePrefix body : Bytes)
    (bodyLength expectedCrc : Nat) : Except (ScanIssue × String) EventEnvelope :=
  if body.length ≠ bodyLength then .error (.truncatedTail, "incomplete frame body")
  else if (codec.crc32c (framePrefix.take framePrefixWithoutCrcSize ++ body)).toNat ≠
      expectedCrc then
    .error (.checksumFailure, "frame CRC32C mismatch")
  else match decodeEnvelope codec body with
    | .error e => .error (.invalidEnvelope, e)
    | .ok e =>
      if e.market.text ≠ header.market ∨ e.symbol.val ≠ header.symbol ∨
          e.stream.val ≠ header.stream then
        .error (.invalidEnvelope, "envelope identity differs from chunk header")
      else .ok e

/-- The reads and checks of one round of the scanner's loop. -/
def readFrame (header : ChunkHeader) (source : ByteSource UInt8) :
    FrameRead × ByteSource UInt8 :=
  let (framePrefix, source) := source.readUpTo framePrefixSize
  if framePrefix = [] then (.eof, source)
  else match checkFramePrefix header framePrefix with
    | .error (issue, detail) => (.stop issue detail, source)
    | .ok (bodyLength, expectedCrc) =>
      let (body, source) := source.readUpTo bodyLength
      match checkFrameBody codec header framePrefix body bodyLength expectedCrc with
      | .error (issue, detail) => (.stop issue detail, source)
      | .ok envelope => (.frame framePrefix body envelope, source)

/-- The scanner's accumulators; `digest` is the bytes fed to the digest. -/
structure ScanState where
  statistics : ChunkStatistics
  digest : Bytes
  transitions : List ConnectionTransition
  previousConnectionId : Option String
  previousFlags : Finset String
  validEnd : Nat

/-- The transition between the previous frame and this one, if the connection changed. -/
def connectionTransition (previousConnectionId : Option String) (previousFlags : Finset String)
    (e : EventEnvelope) : List ConnectionTransition :=
  match previousConnectionId with
  | none => []
  | some previous =>
    if e.connectionId.val ≠ previous then
      [⟨previous, e.connectionId.val, previousFlags, e.captureFlagsSet⟩]
    else []

/-- The end of a round: the accumulators take in a frame. -/
def ScanState.accept (st : ScanState) (framePrefix body : Bytes) (e : EventEnvelope) :
    ScanState :=
  { statistics := st.statistics.add e
    digest := st.digest ++ framePrefix ++ body
    transitions :=
      st.transitions ++ connectionTransition st.previousConnectionId st.previousFlags e
    previousConnectionId := some e.connectionId.val
    previousFlags := e.captureFlagsSet
    validEnd := st.validEnd + (framePrefix.length + body.length) }

/-- The result at the end of the source. -/
def ScanState.clean (st : ScanState) (header : ChunkHeader) (fileSize : Nat) : ScanResult :=
  { header := some header
    statistics := st.statistics
    validEnd := st.validEnd
    fileSize := fileSize
    issue := .none
    detail := none
    uncompressedSha256 := some (codec.sha256Hex st.digest)
    connectionTransitions := st.transitions }

/-- The result at an issue: no digest, no transitions. -/
def ScanState.stopped (st : ScanState) (header : ChunkHeader) (fileSize : Nat)
    (issue : ScanIssue) (detail : String) : ScanResult :=
  { header := some header
    statistics := st.statistics
    validEnd := st.validEnd
    fileSize := fileSize
    issue := issue
    detail := some detail
    uncompressedSha256 := none }

/-- The scanner's loop. A frame takes at least one byte, so the bytes left bound the rounds. -/
def scanFrames (header : ChunkHeader) (fileSize : Nat) :
    Nat → ByteSource UInt8 → ScanState → ScanResult
  | 0, _, st => st.clean codec header fileSize
  | fuel + 1, source, st =>
    match readFrame codec header source with
    | (.eof, _) => st.clean codec header fileSize
    | (.stop issue detail, _) => st.stopped header fileSize issue detail
    | (.frame framePrefix body e, source) =>
      scanFrames header fileSize fuel source (st.accept framePrefix body e)

/-- The accumulators behind the header. -/
def ScanState.start (headerBytes : Bytes) : ScanState :=
  { statistics := {}
    digest := headerBytes
    transitions := []
    previousConnectionId := none
    previousFlags := ∅
    validEnd := headerBytes.length }

/-- `scan_chunk_stream`. -/
def scanChunkStream (source : ByteSource UInt8) (fileSize : Nat) : ScanResult :=
  match decodeChunkHeader codec source with
  | .error e =>
    { header := none
      statistics := {}
      validEnd := 0
      fileSize := fileSize
      issue := .invalidHeader
      detail := some e
      uncompressedSha256 := none }
  | .ok (header, headerBytes, source) =>
    scanFrames codec header fileSize source.rest.length source (.start headerBytes)

/-- `scan_chunk`: the scan of a whole file, whose reads are not cut short. -/
def scanChunk (b : Bytes) : ScanResult := scanChunkStream codec (.ofList b) b.length

end

end MarketDataRecorder
