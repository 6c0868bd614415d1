import MarketDataRecorder.Spool.Writer

/-!
# The stream spool

`spool/stream.py`: one stream's queue, its current chunk writer, and the rotation between them. The
maintenance loops drain it frame by frame (`drain_one`) or in batches (`drain_all`).

What the system does is an argument again: how each call on the writer goes, what the clock says,
and whether the seal protocol behind the writer's evidence succeeds. Durations are left out, and so
is the admission of an envelope to the queue.
-/

namespace MarketDataRecorder

/-! ## The queue -/

/-- `BoundedEventQueue`: the queued envelopes with the bytes each was admitted for. -/
structure BoundedEventQueue where
  items : List (EventEnvelope × Nat)
  queuedBytes : Int
  deriving DecidableEq

namespace BoundedEventQueue

/-- `depth`. -/
def depth (q : BoundedEventQueue) : Nat := q.items.length

/-- The queued envelopes, the next one first. -/
def envelopes (q : BoundedEventQueue) : List EventEnvelope := q.items.map Prod.fst

/-- `get_nowait`. -/
def getNowait (q : BoundedEventQueue) : Option (EventEnvelope × BoundedEventQueue) :=
  match q.items with
  | [] => none
  | (envelope, size) :: items => some (envelope, ⟨items, q.queuedBytes - size⟩)

/-- The inner loop of `drain_all`: with `room` envelopes to go and `payloadBytes` of payload taken,
it takes envelopes until there is no more of either, or the queue is empty. -/
def takeBatch : Nat → Nat → BoundedEventQueue → List EventEnvelope × BoundedEventQueue
  | 0, _, q => ([], q)
  | room + 1, payloadBytes, q =>
    if payloadBytes < 1024 * 1024 then
      match q.getNowait with
      | none => ([], q)
      | some (envelope, rest) =>
        let taken := takeBatch room (payloadBytes + envelope.rawPayload.length) rest
        (envelope :: taken.1, taken.2)
    else ([], q)

end BoundedEventQueue

/-! ## State -/

/-- What a `StreamSpool` is made with. The identity and the time of a chunk are drawn when its
writer is made: `chunkId n` and `createdAtUtcNs n` are those of the `n`th. -/
structure StreamConfig where
  market : String
  symbol : String
  stream : String
  collectorInstanceId : String
  collectorVersion : String
  /-- `rotation.bytes`. -/
  rotationBytes : Nat
  /-- `durability_interval_seconds == 0`. -/
  syncEachFrame : Bool
  /-- `SC_IOV_MAX`, where the platform has `writev`. -/
  vectorLimit : Option Nat
  maxFrameBytes : Int
  chunkId : Nat → UUID
  createdAtUtcNs : Nat → Int

/-- The header of the `n`th chunk. -/
def StreamConfig.header (c : StreamConfig) (n : Nat) : ChunkHeader where
  chunkId := c.chunkId n
  createdAtUtcNs := c.createdAtUtcNs n
  collectorInstanceId := c.collectorInstanceId
  collectorVersion := c.collectorVersion
  market := c.market
  symbol := c.symbol
  stream := c.stream
  maxFrameBytes := c.maxFrameBytes

/-- What `_seal_verified` is given for a chunk, and the file it is about. -/
structure SealRequest where
  evidence : VerifiedChunkEvidence
  file : Bytes
  processBoundaryBeforeFirstFrame : Bool
  deriving DecidableEq

/-- `StreamSpool`; `created` counts the writers made so far, and the last two fields list the calls
of the event observer and the chunks handed to the seal protocol. -/
structure StreamSpool where
  queue : BoundedEventQueue
  writer : Option Writer := none
  created : Nat := 0
  writtenFrames : Int := 0
  synchronizedFrames : Int := 0
  writerWritten : Int := 0
  writerSynchronized : Int := 0
  processBoundaryPending : Bool := true
  observed : List (EventEnvelope × Nat × Nat) := []
  seals : List SealRequest := []

/-- What a drain raises. -/
inductive SpoolError where
  | writer (e : WriterError)
  /-- The seal protocol raised. -/
  | sealProtocol
  deriving DecidableEq

/-- A call on a spool; one that raises leaves a spool too. -/
abbrev SpoolRun := Except (SpoolError × StreamSpool)

/-- What happens during a drain, by the number of the chunk and the frames it holds already. -/
structure SpoolIo where
  create : Nat → Writer.OpenIo := fun _ => {}
  append : Nat → Nat → AppendIo := fun _ _ => {}
  /-- The rotation deadline has passed. -/
  deadline : Nat → Nat → Bool := fun _ _ => false
  /-- The durability interval of an idle writer has passed. -/
  syncDue : Nat → Nat → Bool := fun _ _ => false
  sync : Nat → Nat → SyncIo := fun _ _ => {}
  close : Nat → CloseIo := fun _ => {}
  statFails : Nat → Bool := fun _ => false
  sealFails : Nat → Bool := fun _ => false

namespace StreamSpool

/-! ## One frame -/

/-- `should_rotate` of the writer. -/
def shouldRotate (w : Writer) (deadline : Bool) : Bool :=
  decide (w.rotationBytes ≤ w.bytesWritten) || deadline

/-- `_observe_progress`. -/
def observeProgress (w : Writer) (s : StreamSpool) : StreamSpool :=
  { s with
    writtenFrames := s.writtenFrames + (w.recordCount - s.writerWritten)
    synchronizedFrames := s.synchronizedFrames + (w.syncedRecordCount - s.writerSynchronized)
    writerWritten := w.recordCount
    writerSynchronized := w.syncedRecordCount }

/-- The progress and the observer calls behind frames that were appended. -/
def recordFrames (w : Writer) (calls : List (EventEnvelope × Nat × Nat)) (s : StreamSpool) :
    StreamSpool :=
  { observeProgress w { s with writer := some w } with observed := s.observed ++ calls }

section

variable (codec : Codec) (config : StreamConfig) (io : SpoolIo)

/-- `_new_writer`, where there is no writer; says whether it made one. -/
def ensureWriter (s : StreamSpool) : SpoolRun (Writer × Bool × StreamSpool) :=
  match s.writer with
  | some w => .ok (w, false, s)
  | none =>
    match Writer.create codec (config.header s.created) config.rotationBytes config.syncEachFrame
        config.vectorLimit (io.create s.created) with
    | .error e => .error (.writer e, { s with created := s.created + 1 })
    | .ok w =>
      .ok (w, true, { s with
        writer := some w
        created := s.created + 1
        writerWritten := 0
        writerSynchronized := 0 })

/-- `_seal_current` of a drain: no forced flags and no intent. -/
def sealCurrent (w : Writer) (s : StreamSpool) : SpoolRun StreamSpool :=
  let processBoundary := s.processBoundaryPending && decide (0 < w.recordCount)
  match w.takeCleanSealEvidence codec (io.close s.created) (io.statFails s.created) with
  | .error (e, w) => .error (.writer e, { observeProgress w s with writer := none })
  | .ok (evidence, w) =>
    let s := { observeProgress w s with writer := none }
    if io.sealFails s.created then .error (.sealProtocol, s)
    else .ok { s with
      processBoundaryPending := s.processBoundaryPending && !processBoundary
      seals := s.seals ++ [⟨evidence, w.file, processBoundary⟩] }

/-- Rotate where it is due. -/
def rotate (w : Writer) (s : StreamSpool) : SpoolRun StreamSpool :=
  if shouldRotate w (io.deadline s.created w.recordCount) then sealCurrent codec io w s else .ok s

/-- What both drains do where the queue is empty. -/
def idle (s : StreamSpool) : SpoolRun StreamSpool :=
  match s.writer with
  | none => .ok s
  | some w =>
    if shouldRotate w (io.deadline s.created w.recordCount) then sealCurrent codec io w s
    else match w.syncIfDue (io.syncDue s.created w.recordCount)
        (io.sync s.created w.recordCount) with
      | .error (e, w) => .error (.writer e, { s with writer := some w })
      | .ok w => .ok (observeProgress w { s with writer := some w })

/-- `drain_one` behind the making of the writer, which had written `before` bytes. -/
def appendOne (depth before : Nat) (e : EventEnvelope) (w : Writer) (s : StreamSpool) :
    SpoolRun StreamSpool :=
  match w.append codec e (io.append s.created w.recordCount) with
  | .error (error, w) => .error (.writer error, observeProgress w { s with writer := some w })
  | .ok (_, w) =>
    rotate codec io w (recordFrames w [(e, w.bytesWritten - before, depth)] s)

/-- `drain_one` behind the queue: one envelope, with `depth` of them still queued. -/
def receive (depth : Nat) (e : EventEnvelope) (s : StreamSpool) : SpoolRun StreamSpool := do
  let (w, writerCreated, s) ← ensureWriter codec config io s
  appendOne codec io depth (if writerCreated then 0 else w.bytesWritten) e w s

/-- `drain_one`. -/
def drainOne (s : StreamSpool) : SpoolRun (Bool × StreamSpool) :=
  match s.queue.getNowait with
  | none => do
    let s ← idle codec io s
    return (false, s)
  | some (e, rest) => do
    let s ← receive codec config io rest.depth e { s with queue := rest }
    return (true, s)

/-- `drain_one` again and again, until it finds the queue empty; `fuel` calls at most. -/
def drainOnes : Nat → StreamSpool → SpoolRun (Nat × StreamSpool)
  | 0, s => .ok (0, s)
  | fuel + 1, s => do
    let (drained, s) ← drainOne codec config io s
    if drained then
      let (count, s) ← drainOnes fuel s
      return (count + 1, s)
    else return (0, s)

/-! ## Batches -/

/-- The observer calls for the frames that `append_batch` has written of a batch, with `depth`
envelopes still queued behind the batch. The first call counts the header of a new chunk too. -/
def batchObservations (depth headerBytes : Nat) :
    List EventEnvelope → List Nat → List (EventEnvelope × Nat × Nat)
  | e :: es, size :: sizes =>
    (e, size + headerBytes, depth + es.length) :: batchObservations depth 0 es sizes
  | _, _ => []

/-- The loop of `drain_all` over one batch; every round takes at least one envelope of it. -/
def appendGroups : Nat → List EventEnvelope → StreamSpool → SpoolRun (Nat × StreamSpool)
  | 0, _, s => .ok (0, s)
  | fuel + 1, batch, s =>
    if batch = [] then .ok (0, s)
    else do
      let (w, writerCreated, s) ← ensureWriter codec config io s
      match w.appendBatch codec batch (io.append s.created w.recordCount) with
      | .error (error, w) => .error (.writer error, observeProgress w { s with writer := some w })
      | .ok (sizes, w) =>
        let headerBytes := if writerCreated then w.bytesWritten - sizes.sum else 0
        let s ← rotate codec io w
          (recordFrames w (batchObservations s.queue.depth headerBytes batch sizes) s)
        let (count, s) ← appendGroups fuel (batch.drop sizes.length) s
        return (sizes.length + count, s)

/-- The loop of `drain_all`; every round takes at least one envelope off the queue. -/
def drainBatches : Nat → StreamSpool → SpoolRun (Nat × StreamSpool)
  | 0, s => .ok (0, s)
  | fuel + 1, s =>
    let (batch, rest) := s.queue.takeBatch 256 0
    let s := { s with queue := rest }
    if batch = [] then do
      let s ← idle codec io s
      return (0, s)
    else do
      let (count, s) ← appendGroups codec config io batch.length batch s
      let (more, s) ← drainBatches fuel s
      return (count + more, s)

/-- `drain_one` until the queue is empty. -/
def drainEach (s : StreamSpool) : SpoolRun (Nat × StreamSpool) :=
  drainOnes codec config io (s.queue.depth + 1) s

/-- `drain_all`. -/
def drainAll (s : StreamSpool) : SpoolRun (Nat × StreamSpool) :=
  drainBatches codec config io (s.queue.depth + 1) s

end

end StreamSpool

end MarketDataRecorder
