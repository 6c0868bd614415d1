import MarketDataRecorder.Spool.Format

/-!
# Seal evidence

`spool/evidence.py`: the immutable identity of one clean closed chunk that goes into a seal.
-/

namespace MarketDataRecorder

/-- `_ChunkStatisticsSnapshot`: dictionaries as sorted items. -/
structure ChunkStatisticsSnapshot where
  recordCount : Nat
  receiveTimeUtcMinNs : Option Nat
  receiveTimeUtcMaxNs : Option Nat
  receiveMonotonicMinNs : Option Nat
  receiveMonotonicMaxNs : Option Nat
  exchangeTimeRanges : List (String × (Nat × Nat))
  sequenceValues : List (String × (SequenceValue × SequenceValue))
  connectionIds : Finset String
  collectorInstanceIds : Finset String
  captureFlags : Finset String
  deriving DecidableEq

/-- `_ChunkStatisticsSnapshot.from_statistics`. -/
def ChunkStatisticsSnapshot.fromStatistics (s : ChunkStatistics) : ChunkStatisticsSnapshot where
  recordCount := s.recordCount
  receiveTimeUtcMinNs := s.receiveTimeUtcMinNs
  receiveTimeUtcMaxNs := s.receiveTimeUtcMaxNs
  receiveMonotonicMinNs := s.receiveMonotonicMinNs
  receiveMonotonicMaxNs := s.receiveMonotonicMaxNs
  exchangeTimeRanges := s.exchangeTimeRanges.items
  sequenceValues := s.sequenceValues.items
  connectionIds := s.connectionIds
  collectorInstanceIds := s.collectorInstanceIds
  captureFlags := s.captureFlags

/-- `_VerifiedChunkEvidence`. -/
structure VerifiedChunkEvidence where
  header : ChunkHeader
  statistics : ChunkStatisticsSnapshot
  fileSize : Nat
  uncompressedSha256 : String
  connectionTransitions : List ConnectionTransition
  deriving DecidableEq

/-- `_VerifiedChunkEvidence.from_scan`; `none` where it raises "clean scan evidence required". -/
def VerifiedChunkEvidence.fromScan (scan : ScanResult) : Option VerifiedChunkEvidence :=
  match scan.isClean, scan.header, scan.uncompressedSha256 with
  | true, some header, some sha256 =>
    some {
      header := header
      statistics := .fromStatistics scan.statistics
      fileSize := scan.fileSize
      uncompressedSha256 := sha256
      connectionTransitions := scan.connectionTransitions }
  | _, _, _ => none

end MarketDataRecorder
