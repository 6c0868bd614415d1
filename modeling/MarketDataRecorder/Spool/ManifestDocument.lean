import Mathlib.Data.Finset.Sort
import MarketDataRecorder.Spool.Manifest
import MarketDataRecorder.Lib.Json

/-!
# Manifest documents

The JSON document that a seal writes, with its keys in order, and the chunks that have one: the
frames of a chunk and the arguments of its seal determine its manifest.
-/

namespace MarketDataRecorder

/-! ## The document -/

instance isTrans_text : IsTrans String (· ≤ ·) := ⟨fun _ _ _ => le_trans⟩

instance antisymm_text : Std.Antisymm fun a b : String => a ≤ b := ⟨fun _ _ => le_antisymm⟩

/-- `sorted(names)` as an array. -/
def sortedArray (names : Finset String) : Value := .list ((names.sort (· ≤ ·)).map .str)

def naturalRange (low high : Value) : Value := .dict [("max", high), ("min", low)]

/-- The items of a manifest, with ascending keys. -/
def Manifest.items (m : Manifest) : List (String × Value) :=
  [("capture_flags", sortedArray m.captureFlags),
   ("chunk_id", .str (uuidText m.chunkId)),
   ("chunk_schema_version", .str m.chunkSchemaVersion),
   ("collector_instance_ids", sortedArray m.collectorInstanceIds),
   ("collector_version", .str m.collectorVersion),
   ("complete", .bool m.complete),
   ("compression", m.compression),
   ("connection_ids", sortedArray m.connectionIds),
   ("created_at_utc_ns", .int m.createdAtUtcNs),
   ("envelope_schema_version", .str m.envelopeSchemaVersion),
   ("exchange_time_ranges", .dict (m.exchangeTimeRanges.map fun r =>
     (r.1, naturalRange (.int r.2.1) (.int r.2.2)))),
   ("fsync_completed_at_utc_ns", .int m.fsyncCompletedAtUtcNs),
   ("gap", .bool m.gap),
   ("manifest_schema_version", .str m.manifestSchemaVersion),
   ("market", .str m.market),
   ("overlap", .bool m.overlap)] ++
  (if m.processBoundaryBeforeFirstFrame then
    [("process_boundary_before_first_frame", .bool true)] else []) ++
  [("receive_monotonic_range_ns",
    naturalRange (EventEnvelope.optionalInt m.receiveMonotonicRangeNs.1)
     (EventEnvelope.optionalInt m.receiveMonotonicRangeNs.2)),
   ("receive_time_utc_range_ns", naturalRange (EventEnvelope.optionalInt m.receiveTimeUtcRangeNs.1)
     (EventEnvelope.optionalInt m.receiveTimeUtcRangeNs.2)),
   ("record_count", .int m.recordCount),
   ("recovered", .bool m.recovered),
   ("recovery", m.recovery.getD .null),
   ("relative_path", .str m.relativePath),
   ("resync", .bool m.resync),
   ("sealed_at_utc_ns", .int m.sealedAtUtcNs),
   ("sequence_ranges", .dict (m.sequenceRanges.map fun r =>
     (r.1, naturalRange r.2.1.toValue r.2.2.toValue))),
   ("stored_bytes", .int m.storedBytes),
   ("stored_sha256", .str m.storedSha256),
   ("stream", .str m.stream),
   ("symbol", .str m.symbol),
   ("uncompressed_bytes", .int m.uncompressedBytes),
   ("uncompressed_sha256", .str m.uncompressedSha256)]

/-- The document of a manifest. -/
def Manifest.document (m : Manifest) : Value := .dict m.items

namespace Manifest

variable (m : Manifest)

/-! ## Reading it -/

/-- The optional boundary field hides no other field of the document. -/
theorem findItem_of_boundary {k : String} (b : Bool) (before after : List (String × Value))
    (hk : k ≠ "process_boundary_before_first_frame") :
    Value.findItem k (before ++ (if b then
      [("process_boundary_before_first_frame", .bool true)] else []) ++ after) =
      Value.findItem k (before ++ after) := by
  induction before with
  | nil =>
    cases b with
    | false => rfl
    | true =>
      simp only [if_true, List.nil_append, List.cons_append, Value.findItem]
      rw [if_neg (fun h => hk h.symm)]
  | cons p before ih =>
    obtain ⟨k', v⟩ := p
    simp only [List.cons_append, Value.findItem] at ih ⊢
    rw [ih]

@[simp] theorem get?_chunkId : m.document.get? "chunk_id" = some (.str (uuidText m.chunkId)) :=
  findItem_of_boundary _ _ _ (by decide)

@[simp] theorem get?_connectionIds :
    m.document.get? "connection_ids" = some (sortedArray m.connectionIds) :=
  findItem_of_boundary _ _ _ (by decide)

@[simp] theorem get?_createdAtUtcNs :
    m.document.get? "created_at_utc_ns" = some (.int m.createdAtUtcNs) :=
  findItem_of_boundary _ _ _ (by decide)

@[simp] theorem get?_market : m.document.get? "market" = some (.str m.market) :=
  findItem_of_boundary _ _ _ (by decide)

@[simp] theorem get?_recordCount : m.document.get? "record_count" = some (.int m.recordCount) :=
  findItem_of_boundary _ _ _ (by decide)

@[simp] theorem get?_relativePath :
    m.document.get? "relative_path" = some (.str m.relativePath) :=
  findItem_of_boundary _ _ _ (by decide)

@[simp] theorem get?_stream : m.document.get? "stream" = some (.str m.stream) :=
  findItem_of_boundary _ _ _ (by decide)

@[simp] theorem get?_symbol : m.document.get? "symbol" = some (.str m.symbol) :=
  findItem_of_boundary _ _ _ (by decide)

end Manifest

/-! ## Sealed chunks -/

/-- The frames of a chunk and what its seal is given. -/
structure SealedChunk where
  header : ChunkHeader
  envelopes : List EventEnvelope
  fileSize : Nat
  uncompressedSha256 : String
  relativePath : String
  storedBytes : Nat
  storedSha256 : String
  recovery : Option Value
  forcedFlags : Finset String
  processBoundaryBeforeFirstFrame : Bool
  sealedAt : Nat
  deriving DecidableEq

namespace SealedChunk

variable (c : SealedChunk)

def evidence : VerifiedChunkEvidence where
  header := c.header
  statistics := .fromStatistics (chunkStatistics c.envelopes)
  fileSize := c.fileSize
  uncompressedSha256 := c.uncompressedSha256
  connectionTransitions := connectionTransitions c.envelopes

def manifest : Manifest :=
  MarketDataRecorder.manifest c.evidence c.relativePath c.storedBytes c.storedSha256 c.recovery
    c.forcedFlags c.processBoundaryBeforeFirstFrame c.sealedAt

/-- The connections of the frames, in their order. -/
def connections : List String := c.envelopes.map fun e => e.connectionId.val

def chunkId : String := uuidText c.header.chunkId

end SealedChunk

end MarketDataRecorder
