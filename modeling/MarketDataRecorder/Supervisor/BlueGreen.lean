import MarketDataRecorder.Catalog.Deployments
import MarketDataRecorder.Catalog.Events
import MarketDataRecorder.Lib.Interleaving
import MarketDataRecorder.Spool.ManifestDocument
import MarketDataRecorder.Supervisor.Readiness

/-!
# Blue and green

`supervisor/blue_green.py`: the handoff from a running Collector to a candidate. `deploy` is a
program of single reads and writes; between any two of them the Collectors observe their streams,
tasks end and other handoffs go on. What the environment decides in an action is a `HandoffChoice`.

A wait polls as often as its timeout lets it, so the number of its polls is part of the request.
-/

namespace MarketDataRecorder

/-! ## Collectors -/

/-- How the task of a Collector ended. -/
inductive TaskEnd where
  | returned
  | cancelled
  | failed (exceptionType : String) (isTimeout : Bool)
  deriving DecidableEq

inductive CollectorTask where
  | notStarted
  | running
  | done (taskEnd : TaskEnd)
  deriving DecidableEq

/-- `task.done()`, with the end. -/
def CollectorTask.ended : CollectorTask → Option TaskEnd
  | done taskEnd => some taskEnd
  | _ => none

structure HandoffContext where
  deploymentId : String
  role : String
  reason : String
  deriving DecidableEq

/-- `RunningCollector`, with what its instance observed. -/
structure Collector where
  readiness : CollectorReadiness
  context : Option HandoffContext := none
  stop : Bool := false
  task : CollectorTask := .notStarted

/-- `DeploymentReason`. -/
inductive DeploymentReason where
  | upgrade
  | rollback
  | connectionRotation
  deriving DecidableEq

namespace DeploymentReason

def text : DeploymentReason → String
  | upgrade => "UPGRADE"
  | rollback => "ROLLBACK"
  | connectionRotation => "CONNECTION_ROTATION"

/-- `reason.lower()`. -/
def lower : DeploymentReason → String
  | upgrade => "upgrade"
  | rollback => "rollback"
  | connectionRotation => "connection_rotation"

end DeploymentReason

/-- The two Collectors of a handoff. -/
structure Parties where
  active : Nat
  candidate : Nat
  deriving DecidableEq

/-- The Catalog and the Collectors. The last three are not in the program: they say which handoffs
there were, what they asked to stop and which gaps they recorded. -/
structure Fleet where
  deployments : DeploymentTables := {}
  operational : EventTable := .empty
  collectors : Nat → Collector
  reserved : SortedDict String Parties := .empty
  stops : List (Nat × String) := []
  gaps : List (String × String) := []

namespace Fleet

def setCollector (s : Fleet) (handle : Nat) (collector : Collector) : Fleet :=
  { s with collectors := Function.update s.collectors handle collector }

variable (s : Fleet) {handle other : Nat} (collector : Collector)

@[simp] theorem setCollector_self :
    (s.setCollector handle collector).collectors handle = collector :=
  Function.update_self ..

theorem setCollector_of_ne (h : other ≠ handle) :
    (s.setCollector handle collector).collectors other = s.collectors other :=
  Function.update_of_ne h ..

end Fleet

/-! ## Actions -/

/-- What is decided in an action: the clock, that the Catalog raises, that the waiting task is
cancelled. -/
structure HandoffChoice where
  now : Int := 0
  catalogFails : Bool := false
  cancelled : Bool := false

/-- A part of a handoff. -/
abbrev Handoff (α : Type) := Interleaved Fleet HandoffChoice String α

namespace Handoff

/-- `readiness_snapshot`. -/
def readinessSnapshot (handle : Nat) : Handoff ReadinessSnapshot :=
  Interleaved.call fun _ s => (.ok (s.collectors handle).readiness.snapshot, s)

/-- `task.done()`, with the end. -/
def taskEnd (handle : Nat) : Handoff (Option TaskEnd) :=
  Interleaved.call fun _ s => (.ok (s.collectors handle).task.ended, s)

/-- `stop.is_set()`. -/
def stopIsSet (handle : Nat) : Handoff Bool :=
  Interleaved.call fun _ s => (.ok (s.collectors handle).stop, s)

/-- `set_handoff_context`. -/
def setHandoffContext (handle : Nat) (context : Option HandoffContext) : Handoff Unit :=
  Interleaved.call fun _ s =>
    (.ok (), s.setCollector handle { s.collectors handle with context := context })

/-- `start`: a new stop event and a task. -/
def start (handle : Nat) : Handoff Unit :=
  Interleaved.call fun _ s =>
    (.ok (), s.setCollector handle { s.collectors handle with stop := false, task := .running })

/-- `stop.set()`, by a handoff. -/
def requestStop (deploymentId : String) (handle : Nat) : Handoff Unit :=
  Interleaved.call fun _ s =>
    (.ok (), { s.setCollector handle { s.collectors handle with stop := true } with
      stops := s.stops ++ [(handle, deploymentId)] })

/-- One transaction of the Catalog at a time of the clock. -/
def transaction (f : Int → DeploymentTables → Except String DeploymentTables) : Handoff Unit :=
  Interleaved.call fun choice s =>
    if choice.catalogFails then (.error "sqlite3.OperationalError", s)
    else match f choice.now s.deployments with
      | .ok deployments => (.ok (), { s with deployments := deployments })
      | .error e => (.error e, s)

def gapEventId (deploymentId : String) (occurredAt : Int) : String :=
  s!"deployment-gap:{deploymentId}:{occurredAt}"

/-- `_record_gap`. -/
def recordGap (deploymentId eventType : String) (evidence : Value) : Handoff Unit :=
  Interleaved.call fun choice s =>
    if choice.catalogFails then (.error "sqlite3.OperationalError", s)
    else match recordOperationalEvent s.operational (gapEventId deploymentId choice.now) eventType
        choice.now evidence with
      | .ok (operational, _) =>
        (.ok (), { s with
          operational := operational
          gaps := s.gaps ++ [(deploymentId, eventType)] })
      | .error e => (.error e, s)

/-- `sleep` between two polls. -/
def sleep : Handoff Unit :=
  Interleaved.call fun choice s =>
    if choice.cancelled then (.error "CancelledError", s) else (.ok (), s)

/-- `gather` of one task. A handoff that does not wait to its end was cancelled. -/
def gather (handle : Nat) : Handoff Unit :=
  Interleaved.call fun choice s =>
    if choice.cancelled ∨ (s.collectors handle).task.ended = none then (.error "CancelledError", s)
    else (.ok (), s)

/-- How the wait for the shutdown of the old Collector ends. -/
inductive Shutdown where
  | returned
  | timedOut
  | raised (exceptionType : String)
  deriving DecidableEq

/-- `wait_for(shield(task), timeout)`: a timeout that the task itself raised looks like its own. -/
def awaitShutdown (handle : Nat) : Handoff Shutdown :=
  Interleaved.call fun choice s =>
    if choice.cancelled then (.ok (.raised "CancelledError"), s)
    else match (s.collectors handle).task.ended with
      | none => (.ok .timedOut, s)
      | some .returned => (.ok .returned, s)
      | some .cancelled => (.ok (.raised "CancelledError"), s)
      | some (.failed exceptionType isTimeout) =>
        (.ok (if isTimeout then .timedOut else .raised exceptionType), s)

end Handoff

/-! ## Texts and documents -/

/-- `public_dict`, its items in key order. -/
def ReadinessSnapshot.publicDict (s : ReadinessSnapshot) : Value :=
  .dict [
    ("capture_health_contract", .str "capture-depth-sequence.v1"),
    ("collector_instance_id", .str s.collectorInstanceId),
    ("collector_version", .str s.collectorVersion),
    ("connected_streams", sortedArray s.connectedStreams),
    ("depth_sequence_synchronized", .bool s.orderbookSynchronized),
    ("event_count", .int s.eventCount),
    ("failure", s.failure.elim .null .str),
    ("full_orderbook_evaluated", .bool false),
    ("last_receive_time_utc_ns", s.lastReceiveTimeUtcNs.elim .null fun t => .int t),
    ("market", .str s.market.text),
    ("orderbook_synchronized", .bool s.orderbookSynchronized),
    ("persisted_streams", sortedArray s.persistedStreams),
    ("ready", .bool s.ready),
    ("snapshot_persisted", .bool s.snapshotPersisted),
    ("symbol", .str s.symbol)]

namespace Handoff

def candidateReadyKey (deploymentId : String) : String := "candidate-ready:" ++ deploymentId
def overlapConfirmedKey (deploymentId : String) : String := "overlap-confirmed:" ++ deploymentId
def cutoverCompleteKey (deploymentId : String) : String := "cutover-complete:" ++ deploymentId
def rollbackKey (deploymentId : String) : String := "deployment-rollback:" ++ deploymentId

def activeFailedBeforeReady : String := "active Collector stopped before candidate readiness"
def activeFailedDuringOverlap : String := "active Collector stopped during overlap"

/-- `_handoff_flags`. -/
def handoffFlags (deploymentId role : String) (reason : DeploymentReason) : List String :=
  ["blue_green_overlap", "deployment_id=" ++ deploymentId, "instance_role=" ++ role,
    "handoff_reason=" ++ reason.lower]

/-- `_task_failure`. -/
def taskFailure : TaskEnd → String
  | .cancelled => "candidate Collector was cancelled"
  | .returned => "candidate Collector stopped before cutover"
  | .failed exceptionType _ => "candidate Collector failed: " ++ exceptionType

/-- A text, or another one where it is missing or empty. -/
def textOr (text : Option String) (other : String) : String :=
  match text with
  | none => other
  | some text => if text = "" then other else text

/-- What is recorded with the overlap, in key order. -/
def overlapEvidence (deploymentId : String) (reason : DeploymentReason)
    (activeBaseline candidateBaseline : Nat) (active candidate : ReadinessSnapshot) : Value :=
  .dict [
    ("active_baseline_event_count", .int activeBaseline),
    ("active_event_count", .int active.eventCount),
    ("active_instance_id", .str active.collectorInstanceId),
    ("candidate_baseline_event_count", .int candidateBaseline),
    ("candidate_event_count", .int candidate.eventCount),
    ("candidate_instance_id", .str candidate.collectorInstanceId),
    ("capture_flags", .list ((handoffFlags deploymentId "candidate" reason).map .str)),
    ("deployment_id", .str deploymentId),
    ("reason", .str reason.text)]

end Handoff

/-! ## The handoff -/

structure DeployRequest where
  active : Nat
  candidate : Nat
  reason : DeploymentReason := .upgrade
  readinessTimeoutSeconds : ℚ := 60
  overlapTimeoutSeconds : ℚ := 10
  shutdownTimeoutSeconds : ℚ := 30
  readinessPolls : Nat
  overlapPolls : Nat

/-- `DeploymentResult`. -/
structure DeploymentResult where
  deploymentId : String
  state : DeploymentState
  reason : DeploymentReason
  activeInstanceId : String
  candidateInstanceId : String
  oldStopped : Bool
  candidateRunning : Bool
  overlapIdentifiable : Bool
  gapOpened : Bool
  error : Option String
  promoted : Option Nat
  deriving DecidableEq

namespace Handoff

variable (deploymentId : String) (r : DeployRequest)

/-- `_wait_candidate`. -/
def waitCandidate : Nat → Handoff (Bool × Option String)
  | 0 => pure (false, none)
  | polls + 1 => do
    let activeEnd ← taskEnd r.active
    if activeEnd.isSome then
      recordGap deploymentId "ACTIVE_FAILED_BEFORE_CANDIDATE_READY" (.dict [])
      return (false, some activeFailedBeforeReady)
    else
      let candidateEnd ← taskEnd r.candidate
      match candidateEnd with
      | some taskEnd => return (false, some (taskFailure taskEnd))
      | none =>
        let snapshot ← readinessSnapshot r.candidate
        if snapshot.failure.isSome then return (false, snapshot.failure)
        else if snapshot.ready then return (true, none)
        else
          sleep
          waitCandidate polls

/-- `_wait_overlap`. -/
def waitOverlap (activeBaseline candidateBaseline : Nat) : Nat → Handoff (Bool × Option String)
  | 0 => pure (false, none)
  | polls + 1 => do
    let activeEnd ← taskEnd r.active
    if activeEnd.isSome then
      -- The active Collector failed before the candidate took over: that is a gap.
      recordGap deploymentId "ACTIVE_FAILED_DURING_OVERLAP" (.dict [])
      return (false, some activeFailedDuringOverlap)
    else
      let candidateEnd ← taskEnd r.candidate
      match candidateEnd with
      | some taskEnd => return (false, some (taskFailure taskEnd))
      | none =>
        let old ← readinessSnapshot r.active
        let new ← readinessSnapshot r.candidate
        if new.ready = false then
          return (false, some (textOr new.failure "candidate lost readiness"))
        -- Both must have counted an event since the overlap began.
        else if activeBaseline < old.eventCount ∧ candidateBaseline < new.eventCount then
          return (true, none)
        else
          sleep
          waitOverlap activeBaseline candidateBaseline polls

/-- `_rollback`. -/
def rollback (activeSnapshot candidateSnapshot : ReadinessSnapshot) (error : String)
    (gapOpened : Bool) : Handoff DeploymentResult := do
  -- Only the candidate is stopped: the active Collector goes on as it was.
  requestStop deploymentId r.candidate
  gather r.candidate
  setHandoffContext r.active none
  setHandoffContext r.candidate none
  let activeEnd ← taskEnd r.active
  let candidateEnd ← taskEnd r.candidate
  transaction fun now deployments =>
    deployments.transitionDeployment deploymentId .rolledBack (rollbackKey deploymentId)
      (.dict [("active_task_running", .bool activeEnd.isNone),
        ("candidate_stopped", .bool candidateEnd.isSome), ("gap_opened", .bool gapOpened)])
      now (some error)
  let oldEnd ← taskEnd r.active
  return {
    deploymentId := deploymentId
    state := .rolledBack
    reason := r.reason
    activeInstanceId := activeSnapshot.collectorInstanceId
    candidateInstanceId := candidateSnapshot.collectorInstanceId
    oldStopped := oldEnd.isSome
    candidateRunning := false
    overlapIdentifiable := false
    gapOpened := gapOpened
    error := some error
    promoted := none }

/-- `_complete_cutover`. -/
def completeCutover (activeSnapshot candidateSnapshot : ReadinessSnapshot) (oldStopped : Bool)
    (warning : Option String) : Handoff DeploymentResult := do
  let current ← readinessSnapshot r.candidate
  let candidateEnd ← taskEnd r.candidate
  -- The candidate may have failed while the old Collector was stopping.
  let gapOpened := candidateEnd.isSome || !current.ready
  if gapOpened then
    recordGap deploymentId "CANDIDATE_LOST_READINESS_DURING_CUTOVER"
      (.dict [("warning", warning.elim .null .str)])
  setHandoffContext r.candidate none
  let stopRequested ← stopIsSet r.active
  transaction fun now deployments =>
    deployments.transitionDeployment deploymentId .cutoverComplete (cutoverCompleteKey deploymentId)
      (.dict [("candidate_still_ready", .bool current.ready),
        ("old_stop_requested", .bool stopRequested), ("old_stopped", .bool oldStopped),
        ("unmarked_gap", .bool gapOpened), ("warning", warning.elim .null .str)])
      now warning
  let candidateEnd ← taskEnd r.candidate
  return {
    deploymentId := deploymentId
    state := .cutoverComplete
    reason := r.reason
    activeInstanceId := activeSnapshot.collectorInstanceId
    candidateInstanceId := candidateSnapshot.collectorInstanceId
    oldStopped := oldStopped
    candidateRunning := candidateEnd.isNone
    overlapIdentifiable := true
    gapOpened := gapOpened
    error := warning
    promoted := some r.candidate }

/-- The end of `deploy`, behind the overlap: the old Collector is asked to stop. -/
def cutover (activeSnapshot candidateSnapshot : ReadinessSnapshot) : Handoff DeploymentResult := do
  requestStop deploymentId r.active
  let shutdown ← awaitShutdown r.active
  match shutdown with
  | .timedOut =>
    completeCutover deploymentId r activeSnapshot candidateSnapshot false
      (some "old Collector shutdown timed out; stop remains requested")
  | .raised exceptionType =>
    completeCutover deploymentId r activeSnapshot candidateSnapshot true
      (some ("old Collector exited with " ++ exceptionType))
  | .returned => completeCutover deploymentId r activeSnapshot candidateSnapshot true none

/-- The middle of `deploy`: the candidate is ready, and both have to be seen at work. -/
def overlap (activeSnapshot : ReadinessSnapshot) : Handoff DeploymentResult := do
  let readySnapshot ← readinessSnapshot r.candidate
  transaction fun now deployments =>
    deployments.transitionDeployment deploymentId .candidateReady (candidateReadyKey deploymentId)
      (.dict [("readiness", readySnapshot.publicDict)]) now
  -- The overlap is counted from here on the active side.
  let baseline ← readinessSnapshot r.active
  let (overlapped, failure) ← waitOverlap deploymentId r baseline.eventCount
    readySnapshot.eventCount r.overlapPolls
  if overlapped = false then
    rollback deploymentId r activeSnapshot readySnapshot (textOr failure "overlap evidence timeout")
      (failure = some activeFailedDuringOverlap)
  else
    let activeOverlap ← readinessSnapshot r.active
    let candidateOverlap ← readinessSnapshot r.candidate
    transaction fun now deployments =>
      deployments.transitionDeployment deploymentId .overlapConfirmed
        (overlapConfirmedKey deploymentId)
        (overlapEvidence deploymentId r.reason baseline.eventCount readySnapshot.eventCount
          activeOverlap candidateOverlap) now
    cutover deploymentId r activeOverlap candidateOverlap

/-- `_validate_identity`. -/
def validateIdentity (active candidate : ReadinessSnapshot) : Except String Unit :=
  if active.market ≠ candidate.market ∨ active.symbol ≠ candidate.symbol then
    .error "active and candidate scopes differ"
  else if active.collectorInstanceId = candidate.collectorInstanceId then
    .error "candidate must use a distinct instance ID"
  else .ok ()

def identityOf (reason : DeploymentReason) (active candidate : ReadinessSnapshot) :
    DeploymentIdentity where
  reason := reason.text
  market := active.market.text
  symbol := active.symbol
  activeInstanceId := active.collectorInstanceId
  activeVersion := active.collectorVersion
  candidateInstanceId := candidate.collectorInstanceId
  candidateVersion := candidate.collectorVersion

/-- `deploy`, under an id that was given or made. -/
def deploy : Handoff DeploymentResult :=
  if min (min r.readinessTimeoutSeconds r.overlapTimeoutSeconds) r.shutdownTimeoutSeconds ≤ 0 then
    Interleaved.raise "deployment timeouts must be positive"
  else do
    let activeSnapshot ← readinessSnapshot r.active
    let candidateSnapshot ← readinessSnapshot r.candidate
    Interleaved.ofExcept (validateIdentity activeSnapshot candidateSnapshot)
    let activeEnd ← taskEnd r.active
    if activeEnd.isSome ∨ activeSnapshot.ready = false then
      -- Nothing was recorded and nothing started so far.
      Interleaved.raise "active Collector is not running and ready"
    else
      transaction fun now deployments =>
        deployments.createDeployment deploymentId
          (identityOf r.reason activeSnapshot candidateSnapshot) now
          (.dict [("active_readiness", activeSnapshot.publicDict),
            ("candidate_readiness", candidateSnapshot.publicDict)])
      setHandoffContext r.active (some ⟨deploymentId, "active", r.reason.text⟩)
      setHandoffContext r.candidate (some ⟨deploymentId, "candidate", r.reason.text⟩)
      start r.candidate
      let (ready, failure) ← waitCandidate deploymentId r r.readinessPolls
      if ready = false then
        rollback deploymentId r activeSnapshot candidateSnapshot
          (textOr failure "candidate readiness timeout") (failure = some activeFailedBeforeReady)
      else overlap deploymentId r activeSnapshot

end Handoff

end MarketDataRecorder
