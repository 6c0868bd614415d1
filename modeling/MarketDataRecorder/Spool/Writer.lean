import MarketDataRecorder.Spool.Evidence

/-!
# The chunk writer

`spool/writer.py`: the single owner of one partial file. It writes encoded frames, keeps the
statistics, digest and transitions of what it wrote, and issues them once as evidence for a clean
seal.

What the operating system does is an argument: how `write` and `writev` are cut short, interrupted
or fail, whether `fsync` and `close` fail, what the clock says. A method that raises leaves a writer
behind all the same, so a run is an `Except` with a writer on both sides.
-/

namespace MarketDataRecorder

/-! ## State -/

/-- `_WriterState`. -/
inductive WriterState where
  | openClean
  | poisoned
  | closedClean
  | evidenceConsumed
  deriving DecidableEq, Repr

/-- `RawChunkWriter`; `file` is what stands in its partial file. -/
structure Writer where
  header : ChunkHeader
  /-- `rotation.bytes`. -/
  rotationBytes : Nat
  /-- `durability_interval_seconds == 0`. -/
  syncEachFrame : Bool
  /-- `SC_IOV_MAX`, where the platform has `writev`. -/
  vectorLimit : Option Nat
  file : Bytes
  state : WriterState
  closed : Bool
  recordCount : Nat
  syncedRecordCount : Nat
  bytesWritten : Nat
  verifiedBytes : Nat
  rawDigest : Bytes
  statistics : ChunkStatistics
  connectionTransitions : List ConnectionTransition
  previousConnectionId : Option String
  previousCaptureFlags : Finset String

/-- The system calls that can fail. -/
inductive OsCall where
  | openFile
  | write
  | fsync
  | fsyncDirectory
  | close
  | stat
  deriving DecidableEq, Repr

/-- What a method raises. -/
inductive WriterError where
  /-- A `RuntimeError` of a method that refuses to run. -/
  | runtimeError (message : String)
  | valueError (message : String)
  | chunkFormatError (message : String)
  /-- A `RuntimeError` while written frames are committed. -/
  | commitError (message : String)
  | osError (call : OsCall)
  /-- The operation observer raised. -/
  | observerError
  /-- The Catalog did not register the chunk. -/
  | catalogError
  deriving DecidableEq, Repr

abbrev WriterRun := Except (WriterError × Writer) Writer

/-- One `write` or `writev` call. -/
inductive WriteOutcome where
  | wrote (n : Nat)
  | interrupted
  | failed
  deriving DecidableEq, Repr

/-- One `fsync` and the observer call after it. -/
structure SyncIo where
  fsyncFails : Bool := false
  observerFails : Bool := false

/-- What happens around one `append` or `append_batch`. -/
structure AppendIo where
  writes : List WriteOutcome := []
  /-- Per frame: the rotation deadline or the durability interval has passed. -/
  timeUp : List Bool := []
  observerFails : Bool := false
  syncDue : Bool := false
  sync : SyncIo := {}

/-- What happens around one `close`. -/
structure CloseIo where
  sync : SyncIo := {}
  closeFails : Bool := false

namespace Writer

/-! ## Writing -/

/-- `_poison`. -/
def poison (w : Writer) : Writer :=
  if w.state = .evidenceConsumed then w else { w with state := .poisoned }

/-- `except BaseException: self._poison(); raise`. -/
def poisoning : WriterRun → WriterRun
  | .error (e, w) => .error (e, w.poison)
  | .ok w => .ok w

/-- `_require_open_clean`. -/
def requireOpenClean (w : Writer) : WriterRun :=
  if w.closed then .error (.runtimeError "chunk writer is closed", w)
  else if w.state ≠ .openClean then .error (.runtimeError "chunk writer is poisoned", w)
  else .ok w

/-- Some bytes reached the file. -/
def wrote (w : Writer) (b : Bytes) : Writer :=
  { w with file := w.file ++ b, bytesWritten := w.bytesWritten + b.length }

/-- The loop of `_write_all`; past the listed outcomes, one call writes the rest. -/
def writeLoop : List WriteOutcome → Bytes → Writer → WriterRun
  | _, [], w => .ok w
  | [], data, w => .ok (w.wrote data)
  | .wrote n :: outcomes, data, w =>
    if n = 0 then .error (.osError .write, w)
    else writeLoop outcomes (data.drop n) (w.wrote (data.take n))
  | .interrupted :: _, _, w => .error (.osError .write, w)
  | .failed :: _, _, w => .error (.osError .write, w)

/-- `_write_all`. -/
def writeAll (outcomes : List WriteOutcome) (data : Bytes) (w : Writer) : WriterRun :=
  poisoning (writeLoop outcomes data w)

/-- The views left after `written` bytes: whole views are popped, one may be cut. -/
def dropWritten : Nat → List Bytes → List Bytes
  | _, [] => []
  | written, view :: views =>
    if view.length ≤ written then dropWritten (written - view.length) views
    else if written = 0 then view :: views
    else view.drop written :: views

/-- The loop of `_write_vectors`; an interrupted call is made again. -/
def writeVectorLoop (limit : Nat) : List WriteOutcome → List Bytes → Writer → WriterRun
  | _, [], w => .ok w
  | [], views, w => .ok (w.wrote views.flatten)
  | .wrote n :: outcomes, views, w =>
    let data := (views.take limit).flatten.take n
    if data = [] then .error (.osError .write, w)
    else writeVectorLoop limit outcomes (dropWritten data.length views) (w.wrote data)
  | .interrupted :: outcomes, views, w => writeVectorLoop limit outcomes views w
  | .failed :: _, _, w => .error (.osError .write, w)

/-- `_write_vectors`. -/
def writeVectors (outcomes : List WriteOutcome) (views : List Bytes) (w : Writer) : WriterRun :=
  match w.vectorLimit with
  | none => writeAll outcomes views.flatten w
  | some limit => writeVectorLoop (max 1 limit) outcomes views w

/-! ## Frames -/

end Writer

/-- `_PreparedFrame`. -/
structure PreparedFrame where
  envelope : EventEnvelope
  exactBytes : Bytes
  captureFlagsSet : Finset String
  connectionTransition : Option ConnectionTransition
  expectedOrdinal : Nat

namespace Writer

section

variable (codec : Codec)

/-- `_prepare_frame`. -/
def prepareFrame (w : Writer) (e : EventEnvelope) : Except WriterError PreparedFrame :=
  if e.market.text ≠ w.header.market ∨ e.symbol.val ≠ w.header.symbol ∨
      e.stream.val ≠ w.header.stream then
    .error (.valueError "envelope identity differs from chunk identity")
  else match encodeFrame codec e w.header.maxFrameBytes with
    | .error message => .error (.chunkFormatError message)
    | .ok exactBytes =>
      .ok {
        envelope := e
        exactBytes := exactBytes
        captureFlagsSet := e.captureFlagsSet
        connectionTransition :=
          match w.previousConnectionId with
          | none => none
          | some previous =>
            if e.connectionId.val ≠ previous then
              some ⟨previous, e.connectionId.val, w.previousCaptureFlags, e.captureFlagsSet⟩
            else none
        expectedOrdinal := w.recordCount }

/-- The accumulators take in a prepared frame. -/
def committed (w : Writer) (p : PreparedFrame) : Writer :=
  { w with
    connectionTransitions := w.connectionTransitions ++ p.connectionTransition.toList
    statistics := w.statistics.add p.envelope
    rawDigest := w.rawDigest ++ p.exactBytes
    verifiedBytes := w.verifiedBytes + p.exactBytes.length
    recordCount := w.recordCount + 1
    previousConnectionId := some p.envelope.connectionId.val
    previousCaptureFlags := p.captureFlagsSet }

/-- `_commit_prepared_frame`. -/
def commitPreparedFrame (w : Writer) (p : PreparedFrame) : WriterRun :=
  if p.expectedOrdinal ≠ w.recordCount then
    .error (.commitError "prepared Raw frame ordinal is stale", w)
  else
    let w := w.committed p
    if w.statistics.recordCount ≠ w.recordCount ∨ w.verifiedBytes > w.bytesWritten then
      .error (.commitError "incremental Raw evidence invariant failed", w)
    else .ok w

/-- Commit frames in order. -/
def commitAll : List PreparedFrame → Writer → WriterRun
  | [], w => .ok w
  | p :: ps, w => do
    let w ← w.commitPreparedFrame p
    commitAll ps w

/-- The checks after the last commit, and the observer call. -/
def checkCommitted (message : String) (observerFails : Bool) (w : Writer) : WriterRun :=
  if w.verifiedBytes ≠ w.bytesWritten then .error (.commitError message, w)
  else if observerFails then .error (.observerError, w)
  else .ok w

/-! ## Methods -/

/-- `sync`. -/
def sync (io : SyncIo) (w : Writer) : WriterRun := do
  let w ← w.requireOpenClean
  let w ← poisoning
    (if io.fsyncFails then .error (.osError .fsync, w)
     else if io.observerFails then .error (.observerError, w)
     else .ok w)
  return { w with syncedRecordCount := w.recordCount }

/-- `sync_if_due`. -/
def syncIfDue (due : Bool) (io : SyncIo) (w : Writer) : WriterRun :=
  if w.syncEachFrame || due then w.sync io else .ok w

/-- `append`, with the ordinal it returns. -/
def append (e : EventEnvelope) (io : AppendIo) (w : Writer) :
    Except (WriterError × Writer) (Nat × Writer) := do
  let w ← w.requireOpenClean
  match w.prepareFrame codec e with
  | .error error => .error (error, w)
  | .ok prepared =>
    let ordinal := w.recordCount
    let w ← w.writeAll io.writes prepared.exactBytes
    let w ← poisoning do
      let w ← w.commitPreparedFrame prepared
      w.checkCommitted "incremental Raw evidence invariant failed" io.observerFails
    let w ← w.syncIfDue io.syncDue io.sync
    return (ordinal, w)

/-- A frame of a batch behind another: its ordinal and transition refer to that one. -/
def chainFrame (w : Writer) (prepared : List PreparedFrame) (frame : PreparedFrame) :
    PreparedFrame :=
  match prepared.getLast? with
  | none => frame
  | some previous =>
    { frame with
      expectedOrdinal := w.recordCount + prepared.length
      connectionTransition :=
        if previous.envelope.connectionId.val ≠ frame.envelope.connectionId.val then
          some ⟨previous.envelope.connectionId.val, frame.envelope.connectionId.val,
            previous.captureFlagsSet, frame.captureFlagsSet⟩
        else none }

/-- The loop of `append_batch` that prepares a bounded prefix of the envelopes. -/
def prepareBatch (w : Writer) :
    List EventEnvelope → List Bool → List PreparedFrame → Nat →
      Except WriterError (List PreparedFrame)
  | [], _, prepared, _ => .ok prepared
  | e :: rest, timeUp, prepared, byteCount => do
    let frame ← w.prepareFrame codec e
    let frame := w.chainFrame prepared frame
    let prepared := prepared ++ [frame]
    let byteCount := byteCount + frame.exactBytes.length
    if byteCount ≥ 1024 * 1024 ∨ w.bytesWritten + byteCount ≥ w.rotationBytes ∨
        w.bytesWritten ≥ w.rotationBytes ∨ timeUp.headD false = true then
      return prepared
    else prepareBatch w rest timeUp.tail prepared byteCount

/-- `append_batch`, with the frame lengths it returns. -/
def appendBatch (es : List EventEnvelope) (io : AppendIo) (w : Writer) :
    Except (WriterError × Writer) (List Nat × Writer) := do
  let w ← w.requireOpenClean
  match es with
  | [] => return ([], w)
  | e :: _ =>
    -- A writer that syncs every frame takes one at a time.
    if w.syncEachFrame then
      let before := w.bytesWritten
      let (_, w) ← w.append codec e io
      return ([w.bytesWritten - before], w)
    else match w.prepareBatch codec (es.take 256) io.timeUp [] 0 with
      | .error error => .error (error, w)
      | .ok prepared =>
        let w ← poisoning do
          let w ← w.writeVectors io.writes (prepared.map PreparedFrame.exactBytes)
          let w ← w.commitAll prepared
          w.checkCommitted "incremental Raw batch evidence invariant failed" io.observerFails
        let w ← w.syncIfDue io.syncDue io.sync
        return (prepared.map fun p => p.exactBytes.length, w)

end

/-- `close`. The descriptor is given up even where closing it fails. -/
def close (io : CloseIo) (w : Writer) : WriterRun :=
  if w.closed then .ok w
  else
    let (error, w) : Option WriterError × Writer :=
      if w.state = .openClean then
        match w.sync io.sync with
        | .error (e, w) => (some e, w)
        | .ok w => (none, w)
      -- A poisoned writer is closed without a sync.
      else (none, w)
    let (error, w) : Option WriterError × Writer :=
      if io.closeFails then (some (error.getD (.osError .close)), w.poison) else (error, w)
    let w := { w with closed := true }
    match error with
    | some e => .error (e, w)
    | none => .ok (if w.state = .openClean then { w with state := .closedClean } else w)

/-- `_take_clean_seal_evidence`. -/
def takeCleanSealEvidence (codec : Codec) (io : CloseIo) (statFails : Bool) (w : Writer) :
    Except (WriterError × Writer) (VerifiedChunkEvidence × Writer) := do
  if w.state = .evidenceConsumed then
    throw (.runtimeError "clean seal evidence was already consumed", w)
  let w ← w.close io
  if w.state ≠ .closedClean then
    throw (.runtimeError "poisoned writer cannot issue clean seal evidence", w)
  if statFails then throw (.osError .stat, w.poison)
  -- Somebody else wrote to the file, or not everything arrived.
  if w.file.length ≠ w.verifiedBytes then
    throw (.runtimeError "closed Raw size differs from verified byte count", w.poison)
  return (
    { header := w.header
      statistics := .fromStatistics w.statistics
      fileSize := w.verifiedBytes
      uncompressedSha256 := codec.sha256Hex w.rawDigest
      connectionTransitions := w.connectionTransitions },
    { w with state := .evidenceConsumed })

/-- `abort`. -/
def abort (closeFails : Bool) (w : Writer) : WriterRun :=
  if w.closed then .ok w
  else
    let w := { w.poison with closed := true }
    if closeFails then .error (.osError .close, w) else .ok w

/-! ## Opening -/

/-- What happens while a writer is made. -/
structure OpenIo where
  openFails : Bool := false
  writes : List WriteOutcome := []
  sync : SyncIo := {}
  fsyncDirectoryFails : Bool := false
  registerFails : Bool := false

/-- `RawChunkWriter.__init__`: a writer exists once its header is written, synced and registered. -/
def create (codec : Codec) (header : ChunkHeader) (rotationBytes : Nat) (syncEachFrame : Bool)
    (vectorLimit : Option Nat) (io : OpenIo) : Except WriterError Writer :=
  match encodeChunkHeader codec header with
  | .error message => .error (.chunkFormatError message)
  | .ok headerBytes =>
    if io.openFails then .error (.osError .openFile)
    else
      let w : Writer :=
        { header, rotationBytes, syncEachFrame, vectorLimit
          file := []
          state := .openClean
          closed := false
          recordCount := 0
          syncedRecordCount := 0
          bytesWritten := 0
          verifiedBytes := 0
          rawDigest := []
          statistics := {}
          connectionTransitions := []
          previousConnectionId := none
          previousCaptureFlags := ∅ }
      match w.writeAll io.writes headerBytes with
      | .error (e, _) => .error e
      | .ok w =>
        let w := { w with rawDigest := headerBytes, verifiedBytes := headerBytes.length }
        match w.sync io.sync with
        | .error (e, _) => .error e
        | .ok w =>
          -- The file is there before its directory entry is durable and before the Catalog knows
          -- it.
          if io.fsyncDirectoryFails then .error (.osError .fsyncDirectory)
          else if io.registerFails then .error .catalogError
          else .ok w

/-! ## Runs -/

/-- A call on a writer, with what the operating system does during it. -/
inductive Call where
  | append (e : EventEnvelope) (io : AppendIo)
  | appendBatch (es : List EventEnvelope) (io : AppendIo)
  | sync (io : SyncIo)
  | syncIfDue (due : Bool) (io : SyncIo)
  | close (io : CloseIo)
  | takeCleanSealEvidence (io : CloseIo) (statFails : Bool)
  | abort (closeFails : Bool)

/-- The envelopes a call is given. -/
def Call.envelopes : Call → List EventEnvelope
  | .append e _ => [e]
  | .appendBatch es _ => es
  | _ => []

/-- One call: the evidence it issues, if any, and the writer afterwards. -/
def call (codec : Codec) (w : Writer) :
    Call → Except (WriterError × Writer) (Option VerifiedChunkEvidence × Writer)
  | .append e io => (w.append codec e io).map fun r => (none, r.2)
  | .appendBatch es io => (w.appendBatch codec es io).map fun r => (none, r.2)
  | .sync io => (w.sync io).map fun w => (none, w)
  | .syncIfDue due io => (w.syncIfDue due io).map fun w => (none, w)
  | .close io => (w.close io).map fun w => (none, w)
  | .takeCleanSealEvidence io statFails =>
    (w.takeCleanSealEvidence codec io statFails).map fun r => (some r.1, r.2)
  | .abort closeFails => (w.abort closeFails).map fun w => (none, w)

/-- The writer a call leaves behind, whether it raised or not. -/
def after {α : Type} : Except (WriterError × Writer) (α × Writer) → Writer
  | .error (_, w) => w
  | .ok (_, w) => w

/-- The writer after some calls. -/
def run (codec : Codec) (w : Writer) (calls : List Call) : Writer :=
  calls.foldl (fun w c => after (w.call codec c)) w

end Writer

end MarketDataRecorder
