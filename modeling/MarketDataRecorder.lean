import MarketDataRecorder.Archive.ArchiveRuns
import MarketDataRecorder.Archive.ArchiveSet
import MarketDataRecorder.Archive.Convergence
import MarketDataRecorder.Archive.EntryCommit
import MarketDataRecorder.Archive.EntryScan
import MarketDataRecorder.Archive.LocalDeletion
import MarketDataRecorder.Archive.Manager
import MarketDataRecorder.Archive.Reservation
import MarketDataRecorder.Archive.SourceSafety
import MarketDataRecorder.Archive.Target
import MarketDataRecorder.Archive.Transaction
import MarketDataRecorder.Archive.Volume
import MarketDataRecorder.Audit.BoundaryView
import MarketDataRecorder.Audit.Continuation
import MarketDataRecorder.Audit.ContinuationDocuments
import MarketDataRecorder.Audit.IncrementalAudit
import MarketDataRecorder.Audit.ProvableChanges
import MarketDataRecorder.Audit.ReadableCatalog
import MarketDataRecorder.Audit.ReconnectBoundaries
import MarketDataRecorder.Audit.SealedInventory
import MarketDataRecorder.Audit.StreamReports
import MarketDataRecorder.Binance.BudgetRuns
import MarketDataRecorder.Binance.RecentTrades
import MarketDataRecorder.Binance.RequestBudget
import MarketDataRecorder.Binance.StreamGroups
import MarketDataRecorder.Binance.StreamPartition
import MarketDataRecorder.Catalog.Archive
import MarketDataRecorder.Catalog.Chunks
import MarketDataRecorder.Catalog.Deployments
import MarketDataRecorder.Catalog.Discontinuities
import MarketDataRecorder.Catalog.DiscontinuityReaders
import MarketDataRecorder.Catalog.Events
import MarketDataRecorder.Catalog.Lifecycle
import MarketDataRecorder.Catalog.LifecycleCalls
import MarketDataRecorder.Catalog.Receipt
import MarketDataRecorder.Catalog.RemoteArchive
import MarketDataRecorder.Catalog.StorageControl
import MarketDataRecorder.Collector.Availability
import MarketDataRecorder.Collector.AvailabilityCatalog
import MarketDataRecorder.Collector.AvailabilityLedger
import MarketDataRecorder.Collector.AvailabilityQueue
import MarketDataRecorder.Collector.CaptureFlush
import MarketDataRecorder.Collector.EligibilityRuns
import MarketDataRecorder.Collector.KlineBackfill
import MarketDataRecorder.Collector.KlineCoverage
import MarketDataRecorder.Collector.KlineGrid
import MarketDataRecorder.Collector.NamedGaps
import MarketDataRecorder.Collector.OverCredit
import MarketDataRecorder.Collector.RestGroupCommit
import MarketDataRecorder.Collector.SideDataCursor
import MarketDataRecorder.Domain.Event
import MarketDataRecorder.Lib.Base64
import MarketDataRecorder.Lib.BigEndian
import MarketDataRecorder.Lib.ByteSource
import MarketDataRecorder.Lib.Cbor
import MarketDataRecorder.Lib.Checksum
import MarketDataRecorder.Lib.Decimal
import MarketDataRecorder.Lib.Durable
import MarketDataRecorder.Lib.ExternalSort
import MarketDataRecorder.Lib.Fallible
import MarketDataRecorder.Lib.Framing
import MarketDataRecorder.Lib.GoodRuns
import MarketDataRecorder.Lib.Grouping
import MarketDataRecorder.Lib.Interleaving
import MarketDataRecorder.Lib.Intervals
import MarketDataRecorder.Lib.Json
import MarketDataRecorder.Lib.JsonText
import MarketDataRecorder.Lib.KeyedFold
import MarketDataRecorder.Lib.KeysetPages
import MarketDataRecorder.Lib.MergedDict
import MarketDataRecorder.Lib.MonthCalendar
import MarketDataRecorder.Lib.Number
import MarketDataRecorder.Lib.RelativePath
import MarketDataRecorder.Lib.RoundRobin
import MarketDataRecorder.Lib.Since
import MarketDataRecorder.Lib.SortedDict
import MarketDataRecorder.Lib.TimedEvents
import MarketDataRecorder.Lib.Transition
import MarketDataRecorder.Lib.UnicodeText
import MarketDataRecorder.Lib.Value
import MarketDataRecorder.Metrics.Aggregate
import MarketDataRecorder.Metrics.AggregateMerge
import MarketDataRecorder.Metrics.BatchReader
import MarketDataRecorder.Metrics.Continuity
import MarketDataRecorder.Metrics.DailyReport
import MarketDataRecorder.Metrics.ExactlyOnce
import MarketDataRecorder.Metrics.FlushPlacement
import MarketDataRecorder.Metrics.MadeOperations
import MarketDataRecorder.Metrics.Recorder
import MarketDataRecorder.Metrics.ReportDocument
import MarketDataRecorder.Metrics.ReportInputs
import MarketDataRecorder.Metrics.ReportMaintenance
import MarketDataRecorder.Normalize.Candidate
import MarketDataRecorder.Normalize.Deduplication
import MarketDataRecorder.Normalize.Parser
import MarketDataRecorder.Normalize.Publish
import MarketDataRecorder.Normalize.Raw
import MarketDataRecorder.Orderbook.BestPrice
import MarketDataRecorder.Orderbook.BookMapping
import MarketDataRecorder.Orderbook.BookRuns
import MarketDataRecorder.Orderbook.CanonicalDecimal
import MarketDataRecorder.Orderbook.Checkpoint
import MarketDataRecorder.Orderbook.IntervalRuns
import MarketDataRecorder.Orderbook.Model
import MarketDataRecorder.Orderbook.Parser
import MarketDataRecorder.Orderbook.Reconstructor
import MarketDataRecorder.Replay.AcceptedCheckpoints
import MarketDataRecorder.Replay.AcceptedPartitions
import MarketDataRecorder.Replay.Catalog
import MarketDataRecorder.Replay.CheckpointContinuation
import MarketDataRecorder.Replay.CheckpointSeek
import MarketDataRecorder.Replay.Model
import MarketDataRecorder.Replay.PublishedBuilds
import MarketDataRecorder.Replay.Reader
import MarketDataRecorder.Spool.AsyncQueue
import MarketDataRecorder.Spool.DamagedFrames
import MarketDataRecorder.Spool.Disk
import MarketDataRecorder.Spool.Encode
import MarketDataRecorder.Spool.Evidence
import MarketDataRecorder.Spool.Format
import MarketDataRecorder.Spool.FrameReader
import MarketDataRecorder.Spool.LegacyReconnect
import MarketDataRecorder.Spool.Manifest
import MarketDataRecorder.Spool.ManifestDocument
import MarketDataRecorder.Spool.QuarantineRuns
import MarketDataRecorder.Spool.ReadySpool
import MarketDataRecorder.Spool.ReconnectContinuation
import MarketDataRecorder.Spool.ReconnectDecisions
import MarketDataRecorder.Spool.ReconnectPasses
import MarketDataRecorder.Spool.Recovery
import MarketDataRecorder.Spool.RecoveryRuns
import MarketDataRecorder.Spool.ReferenceCodec
import MarketDataRecorder.Spool.ScanTruncate
import MarketDataRecorder.Spool.SteadyWriter
import MarketDataRecorder.Spool.StreamDrain
import MarketDataRecorder.Spool.StreamSpool
import MarketDataRecorder.Spool.WriteGroups
import MarketDataRecorder.Spool.Writer
import MarketDataRecorder.Spool.WriterEvidence
import MarketDataRecorder.Spool.WriterRuns
import MarketDataRecorder.Storage.Digest
import MarketDataRecorder.Storage.Eject
import MarketDataRecorder.Supervisor.BlueGreen
import MarketDataRecorder.Supervisor.DepthContinuity
import MarketDataRecorder.Supervisor.HandoffRuns
import MarketDataRecorder.Supervisor.HandoffSteps
import MarketDataRecorder.Supervisor.Readiness
