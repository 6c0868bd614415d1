import MarketDataRecorder.Lib.Cbor
import MarketDataRecorder.Lib.Checksum
import MarketDataRecorder.Spool.Encode

/-!
# The codec of the standards

A `Codec` whose CBOR, CRC-32C and SHA-256 are those of the standards, on the values that chunks
are made of. Results about the recorder hold for any codec; this one evaluates them.
-/

namespace MarketDataRecorder

def referenceCodec : Codec where
  dumps := Cbor.encode
  loads := Cbor.decode
  crc32c b := UInt32.ofNat (Checksum.crc32c b)
  sha256Hex := Checksum.sha256Hex
  validationError _ := "validation error"

/-- A header of a `diff_depth` chunk of one spot symbol. -/
def sampleHeader : ChunkHeader where
  chunkId := ⟨[0, 1, 2, 3, 4, 5, 6, 7, 8, 9, 10, 11, 12, 13, 14, 15], rfl⟩
  createdAtUtcNs := 1700000000000000000
  collectorInstanceId := "c1"
  collectorVersion := "1"
  market := "spot"
  symbol := "BTCUSDT"
  stream := "diff_depth"
  maxFrameBytes := 4096

theorem btcusdt_fits : 1 ≤ "BTCUSDT".length ∧ "BTCUSDT".length ≤ 256 := by decide
theorem diffDepth_fits : 1 ≤ "diff_depth".length ∧ "diff_depth".length ≤ 256 := by decide
theorem moduleName_fits : 1 ≤ "m".length ∧ "m".length ≤ 256 := by decide

/-- An envelope of that chunk, received at a connection with some capture flags. -/
def sampleEnvelope (connectionId : NonEmptyText) (captureFlags : List NonEmptyText) :
    EventEnvelope where
  market := .spot
  symbol := ⟨"BTCUSDT", btcusdt_fits⟩
  stream := ⟨"diff_depth", diffDepth_fits⟩
  module := ⟨"m", moduleName_fits⟩
  connectionId := connectionId
  collectorInstanceId := ⟨"c1", by decide⟩
  collectorVersion := ⟨"1", by decide⟩
  receiveTimeUtcNs := 1700000000000000001
  receiveMonotonicNs := 5
  exchangeEventTime := some 7
  exchangeTransactionTime := none
  exchangeTradeTime := none
  sourceSequence := SortedDict.ofItems [(⟨"u", by decide⟩, .int 2)]
  payloadEncoding := EventEnvelope.defaultPayloadEncoding
  rawPayload := [0x7B, 0x7D]
  captureFlags := captureFlags

/-- An envelope of the first connection. -/
def firstSampleEnvelope : EventEnvelope := sampleEnvelope ⟨"conn-1", by decide⟩ []

/-- The connection behind a reconnect. -/
def secondConnection : NonEmptyText := ⟨"conn-2", by decide⟩

/-- Two frames, the second from another connection. -/
def sampleEnvelopes : List EventEnvelope :=
  [firstSampleEnvelope, sampleEnvelope secondConnection [⟨"sequence_gap", by decide⟩]]

/-! ## The codec on the sample -/

theorem validateChunkHeader_sampleHeader : validateChunkHeader sampleHeader = .ok () := by
  decide

theorem sampleHeader_fits :
    (referenceCodec.dumps sampleHeader.canonicalMapping).length ≤ maxHeaderBodyBytes := by
  decide +kernel

theorem roundTrips_sampleHeader : RoundTrips referenceCodec sampleHeader.canonicalMapping := by
  decide +kernel

theorem roundTrips_sampleEnvelopes :
    ∀ e ∈ sampleEnvelopes, RoundTrips referenceCodec e.canonicalMapping := by
  decide +kernel

theorem matches_sampleEnvelopes : ∀ e ∈ sampleEnvelopes, Matches sampleHeader e := by
  intro e he
  obtain rfl | he := List.mem_cons.mp he
  · exact ⟨rfl, rfl, rfl⟩
  · rw [List.mem_singleton.mp he]
    exact ⟨rfl, rfl, rfl⟩

theorem encodes_sampleEnvelopes : ∀ e ∈ sampleEnvelopes,
    ∃ bytes, encodeFrame referenceCodec e sampleHeader.maxFrameBytes = .ok bytes := by
  intro e he
  exact ⟨_, encodeFrame_of_fits (by revert e; decide) (by revert e; decide +kernel)⟩

/-- The chunk of the sample header and envelopes. -/
def sampleChunk : Bytes :=
  encodedHeader referenceCodec sampleHeader ++ encodedFrames referenceCodec sampleEnvelopes

end MarketDataRecorder
