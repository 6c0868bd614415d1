import Mathlib.Data.Finset.Lattice.Basic
import MarketDataRecorder.Lib.Since
import MarketDataRecorder.Supervisor.DepthContinuity

/-!
# Readiness

`supervisor/readiness.py`: what a Collector observes of its streams, and when it is ready. Its depth
continuity is the checker of ids, without a book.

* `Bridged` — a chain of updates behind a snapshot, without a gap
* `ready_iff` — **what was observed since it was lost is what makes a Collector ready**
-/

namespace MarketDataRecorder

/-- `CORE_STREAMS`. -/
def coreStreams : Finset String := {"diff_depth", "agg_trade", "book_ticker"}

structure ReadinessSnapshot where
  market : Market
  symbol : String
  collectorInstanceId : String
  collectorVersion : String
  connectedStreams : Finset String
  persistedStreams : Finset String
  snapshotPersisted : Bool
  orderbookSynchronized : Bool
  eventCount : Nat
  lastReceiveTimeUtcNs : Option Nat
  failure : Option String
  deriving DecidableEq

/-- `ready`. -/
def ReadinessSnapshot.ready (s : ReadinessSnapshot) : Bool :=
  s.failure = none ∧ coreStreams ⊆ s.connectedStreams ∧ coreStreams ⊆ s.persistedStreams ∧
    s.snapshotPersisted ∧ s.orderbookSynchronized

/-! ## The depth checker of a Collector -/

/-- A checker without inputs. -/
def DepthContinuity.initial (market : Market) (capacity : Nat) : DepthContinuity where
  market := market
  capacity := capacity
  buffer := []
  reliableUpdateId := none
  bootstrapBufferOverflowed := false
  warned := false
  audits := []

/-! ## Chains -/

/-- What a checker is told: the ids of an update or of a snapshot. -/
inductive DepthObservation where
  | update (sequence : DepthSequence)
  | snapshot (lastUpdateId : Nat)

/-- An update behind an id without a gap. -/
def NoGap (market : Market) (current : Nat) (update : DepthSequence) : Prop :=
  current < update.last ∧
    if market = .spot then update.first ≤ current + 1
    else update.previous = some (Int.ofNat current)

/-- Updates that follow each other from the one that covers a snapshot up to an id. -/
structure IdChain (market : Market) (lastUpdateId : Nat) (chain : List DepthSequence) (id : Nat) :
    Prop where
  bridge : ∃ first ∈ chain.head?, first.first ≤ lastUpdateId + (if market = .spot then 1 else 0) ∧
    lastUpdateId + (if market = .spot then 1 else 0) ≤ first.last
  follows : chain.IsChain fun a b => NoGap market a.last b
  last : chain.getLast?.map DepthSequence.last = some id

/-- A snapshot and a chain from it up to the id were observed. -/
def Bridged (market : Market) (log : List DepthObservation) (id : Nat) : Prop :=
  ∃ lastUpdateId chain, .snapshot lastUpdateId ∈ log ∧ (chain.map .update).Sublist log ∧
    IdChain market lastUpdateId chain id

/-- A chain goes on with an update behind which nothing is missing. -/
theorem IdChain.append {market : Market} {lastUpdateId id : Nat} {chain : List DepthSequence}
    {update : DepthSequence} (h : IdChain market lastUpdateId chain id)
    (hnext : NoGap market id update) :
    IdChain market lastUpdateId (chain ++ [update]) update.last := by
  obtain ⟨first, hfirst, hbridge⟩ := h.bridge
  refine ⟨⟨first, ?_, hbridge⟩, ?_, by simp⟩
  · rw [Option.mem_def, List.head?_append, Option.mem_def.mp hfirst, Option.some_or]
  · refine List.isChain_append.mpr ⟨h.follows, by simp, fun a ha b hb => ?_⟩
    have hlast := h.last
    rw [Option.mem_def.mp ha, Option.map_some, Option.some.injEq] at hlast
    cases Option.some.inj hb
    rw [hlast]
    exact hnext

/-- A bridge over what was offered is one over what is offered later. -/
theorem Bridged.mono {market : Market} {log log' : List DepthObservation} {id : Nat}
    (h : Bridged market log id) (hlog : log.Sublist log') : Bridged market log' id := by
  obtain ⟨lastUpdateId, chain, hmem, hchain, hbridges⟩ := h
  exact ⟨lastUpdateId, chain, hlog.subset hmem, hchain.trans hlog, hbridges⟩

namespace DepthContinuity

variable {c c' : DepthContinuity} {log : List DepthObservation} {update : DepthSequence}
  {current : Nat}

/-- Where no gap is found, nothing is missing before the update. -/
theorem gapReason_eq_none (h : c.gapReason current update = none) (hlast : current < update.last) :
    NoGap c.market current update := by
  refine ⟨hlast, ?_⟩
  unfold gapReason at h
  by_cases hspot : c.market = .spot
  · simp only [hspot, true_and, ne_eq, not_true_eq_false, false_and, if_false] at h
    rw [if_pos hspot]
    by_contra hgap
    rw [if_pos (by omega)] at h
    cases h
  · simp only [hspot, false_and, if_false, ne_eq, not_false_eq_true, true_and] at h
    rw [if_neg hspot]
    by_contra hgap
    rw [if_pos hgap] at h
    cases h

@[simp] theorem audit_reliableUpdateId (kind : String) (detail : String) :
    (c.audit kind update detail).reliableUpdateId = c.reliableUpdateId := rfl

/-- **One update on a reliable checker**: it is stale, it follows, or there is a gap. -/
theorem apply_cases (update : DepthSequence) (h : c.reliableUpdateId = some current) :
    ∃ next applied, c.apply update = .ok (next, applied) ∧ next.market = c.market ∧
      ((applied = true ∧ next.buffer = c.buffer ∧ next.reliableUpdateId = some current) ∨
        (applied = true ∧ next.buffer = c.buffer ∧ next.reliableUpdateId = some update.last ∧
          NoGap c.market current update) ∨
        (applied = false ∧ next.buffer = [update] ∧ next.reliableUpdateId = none)) := by
  rw [apply, h]
  dsimp only
  split
  · exact ⟨_, _, rfl, rfl, .inl ⟨rfl, rfl, h⟩⟩
  · next hlast =>
    split
    · exact ⟨_, _, rfl, rfl, .inr (.inr ⟨rfl, rfl, rfl⟩)⟩
    · next hreason =>
      exact ⟨_, _, rfl, rfl, .inr (.inl ⟨rfl, rfl, rfl, gapReason_eq_none hreason (by omega)⟩)⟩

/-- Offering a sequence never raises. -/
theorem offerSequence_ok (c : DepthContinuity) (update : DepthSequence) :
    ∃ next, c.offerSequence update = .ok next := by
  unfold offerSequence
  split
  · next hreliable =>
    obtain ⟨current, hcurrent⟩ := Option.isSome_iff_exists.mp hreliable
    obtain ⟨next, applied, happly, -⟩ := apply_cases update hcurrent
    exact ⟨next, by rw [happly]; rfl⟩
  · split
    · exact ⟨_, rfl⟩
    · split
      · exact ⟨_, rfl⟩
      · dsimp only
        split <;> exact ⟨_, rfl⟩

/-- What a checker holds was observed: what is in its buffer, and a chain up to its id. -/
structure Tracks (c : DepthContinuity) (log : List DepthObservation) : Prop where
  buffered : (c.buffer.map .update).Sublist log
  reliable : ∀ id, c.reliableUpdateId = some id → Bridged c.market log id

namespace Tracks

/-- A new checker has been offered nothing. -/
theorem initial (market : Market) (capacity : Nat) : Tracks (.initial market capacity) [] :=
  ⟨List.Sublist.refl _, by rintro id ⟨⟩⟩

/-- An invalidated checker starts over. -/
theorem invalidate (c : DepthContinuity) (receivedAt : Nat) : Tracks (c.invalidate receivedAt) [] :=
  ⟨List.Sublist.refl _, by rintro id ⟨⟩⟩

/-- The same buffer and id, and a longer log. -/
theorem mono {log' : List DepthObservation} (h : Tracks c log) (hlog : log.Sublist log')
    (hmarket : c'.market = c.market) (hbuffer : c'.buffer = c.buffer)
    (hreliable : c'.reliableUpdateId = c.reliableUpdateId) : Tracks c' log' := by
  refine ⟨by rw [hbuffer]; exact h.buffered.trans hlog, fun id hid => ?_⟩
  rw [hmarket]
  exact (h.reliable id (hreliable ▸ hid)).mono hlog

/-- **An offered update is the end of a bridge, or the checker is not reliable.** -/
theorem offerSequence (h : Tracks c log) (hoffer : c.offerSequence update = .ok c') :
    Tracks c' (log ++ [.update update]) ∧ c'.market = c.market := by
  have hlog : log.Sublist (log ++ [.update update]) := List.sublist_append_left _ _
  unfold DepthContinuity.offerSequence at hoffer
  split at hoffer
  · next hreliable =>
    obtain ⟨current, hcurrent⟩ := Option.isSome_iff_exists.mp hreliable
    obtain ⟨next, applied, happly, hmarket, hcases⟩ := apply_cases update hcurrent
    rw [happly] at hoffer
    cases hoffer
    refine ⟨?_, hmarket⟩
    rcases hcases with ⟨-, hbuffer, hid⟩ | ⟨-, hbuffer, hid, hnext⟩ | ⟨-, hbuffer, hid⟩
    · exact h.mono hlog hmarket hbuffer (hid.trans hcurrent.symm)
    · refine ⟨by rw [hbuffer]; exact h.buffered.trans hlog, fun id heq => ?_⟩
      rw [hid, Option.some.injEq] at heq
      rw [← heq, hmarket]
      obtain ⟨lastUpdateId, chain, hmem, hchain, hbridges⟩ := h.reliable current hcurrent
      refine ⟨lastUpdateId, chain ++ [update], hlog.subset hmem, ?_, hbridges.append hnext⟩
      rw [List.map_append]
      exact hchain.append (List.Sublist.refl _)
    · refine ⟨?_, fun id heq => ?_⟩
      · rw [hbuffer]
        exact List.sublist_append_right _ _
      · rw [hid] at heq
        cases heq
  · next hreliable =>
    have hnone : c.reliableUpdateId = none := by simpa [isReliable] using hreliable
    split at hoffer
    · cases hoffer
      exact ⟨h.mono hlog rfl rfl rfl, rfl⟩
    · split at hoffer
      · cases hoffer
        refine ⟨⟨by simp [audit], fun id heq => ?_⟩, rfl⟩
        simp [hnone] at heq
      · have happended : Tracks { c with buffer := c.buffer ++ [update] }
            (log ++ [.update update]) := by
          refine ⟨?_, fun id heq => ?_⟩
          · rw [List.map_append]
            exact h.buffered.append (List.Sublist.refl _)
          · rw [hnone] at heq
            cases heq
        dsimp only at hoffer
        split at hoffer
        · cases hoffer
          exact ⟨happended.mono (List.Sublist.refl _) rfl rfl rfl, rfl⟩
        · cases hoffer
          exact ⟨happended, rfl⟩

/-- The buffered updates behind a chain. -/
theorem applyBuffered {updates chain : List DepthSequence} {lastUpdateId : Nat} {applied : Bool}
    (happly : c.applyBuffered updates = .ok (c', applied)) (hbuffer : c.buffer = [])
    (hcurrent : c.reliableUpdateId = some current)
    (hmem : .snapshot lastUpdateId ∈ log)
    (hlog : ((chain ++ updates).map .update).Sublist log)
    (hbridges : IdChain c.market lastUpdateId chain current) :
    Tracks c' log ∧ c'.market = c.market := by
  induction updates generalizing c chain current with
  | nil =>
    cases happly
    refine ⟨⟨by simp [hbuffer], fun id heq => ?_⟩, rfl⟩
    rw [hcurrent, Option.some.injEq] at heq
    exact ⟨lastUpdateId, chain, hmem, by simpa using hlog, heq ▸ hbridges⟩
  | cons update updates ih =>
    obtain ⟨next, more, hnext, hmarket, hcases⟩ := apply_cases update hcurrent
    rw [DepthContinuity.applyBuffered, hnext] at happly
    rcases hcases with ⟨rfl, hkept, hid⟩ | ⟨rfl, hkept, hid, hfollows⟩ | ⟨rfl, hkept, hid⟩
    · -- a stale one is left out of the chain
      have hshorter : ((chain ++ updates).map DepthObservation.update).Sublist log :=
        (((List.Sublist.refl chain).append (List.sublist_cons_self update updates)).map _).trans
          hlog
      have hrest := ih happly (hkept.trans hbuffer) hid hshorter (hmarket ▸ hbridges)
      exact ⟨hrest.1, hrest.2.trans hmarket⟩
    · have hlonger :
          (((chain ++ [update]) ++ updates).map DepthObservation.update).Sublist log := by
        simpa using hlog
      have hrest := ih happly (hkept.trans hbuffer) hid hlonger (hmarket ▸ hbridges.append hfollows)
      exact ⟨hrest.1, hrest.2.trans hmarket⟩
    · cases happly
      refine ⟨⟨?_, fun id heq => ?_⟩, hmarket⟩
      · rw [hkept]
        refine List.Sublist.trans ?_ hlog
        exact (List.sublist_append_right chain (update :: updates)).map _
      · rw [show ({ next with buffer := _ } : DepthContinuity).reliableUpdateId =
          next.reliableUpdateId from rfl, hid] at heq
        cases heq

/-- **A snapshot begins a bridge, or the checker is not reliable.** -/
theorem synchronizeAt {lastUpdateId : Nat} {result : SynchronizeResult} (h : Tracks c log)
    (hsync : c.synchronizeAt lastUpdateId = .ok (c', result)) :
    Tracks c' (log ++ [.snapshot lastUpdateId]) ∧ c'.market = c.market := by
  have hlog : log.Sublist (log ++ [.snapshot lastUpdateId]) := List.sublist_append_left _ _
  rw [DepthContinuity.synchronizeAt] at hsync
  by_cases hempty : c.buffer = []
  · rw [if_pos hempty] at hsync
    cases hsync
    exact ⟨h.mono hlog rfl rfl rfl, rfl⟩
  · rw [if_neg hempty] at hsync
    dsimp only at hsync
    cases hfilter : c.buffer.filter fun update =>
        lastUpdateId + (if c.market = .spot then 1 else 0) ≤ update.last with
    | nil =>
      rw [hfilter] at hsync
      cases hsync
      exact ⟨⟨by simp, fun id heq => (h.reliable id heq).mono hlog⟩, rfl⟩
    | cons first candidates =>
      rw [hfilter] at hsync
      dsimp only at hsync
      by_cases hbridge : first.first ≤ lastUpdateId + (if c.market = .spot then 1 else 0) ∧
          lastUpdateId + (if c.market = .spot then 1 else 0) ≤ first.last
      · rw [if_neg (not_not.mpr hbridge)] at hsync
        obtain ⟨⟨next, applied⟩, happly, hnext⟩ := except_bind_eq_ok hsync
        cases hnext
        have hsublist : ((first :: candidates).map DepthObservation.update).Sublist log := by
          rw [← hfilter]
          exact (List.filter_sublist.map _).trans h.buffered
        have hstart : IdChain c.market lastUpdateId [first] first.last :=
          ⟨⟨first, rfl, hbridge⟩, by simp, rfl⟩
        have htracks := applyBuffered happly rfl rfl (List.mem_append_right log (by simp))
          (hsublist.trans hlog) hstart
        exact htracks
      · rw [if_pos hbridge] at hsync
        cases hsync
        exact ⟨h.mono hlog rfl rfl rfl, rfl⟩

end Tracks

end DepthContinuity

/-! ## The Collector -/

/-- `CollectorReadiness`. The checker took its capacity when it was made. -/
structure CollectorReadiness where
  market : Market
  symbol : String
  instanceId : String
  version : String
  connected : Finset String
  persisted : Finset String
  snapshotPersisted : Bool
  eventCount : Nat
  lastReceiveTimeUtcNs : Option Nat
  failure : Option String
  bootstrapBufferCapacity : Nat
  book : DepthContinuity
  capacity_le : 2 ≤ bootstrapBufferCapacity

namespace CollectorReadiness

/-- `__init__`. -/
def create (market : Market) (instanceId version symbol : String) (capacity : Nat := 8192) :
    Except String CollectorReadiness :=
  if instanceId = "" ∨ version = "" then .error "Collector readiness identity must be non-empty"
  else if h : 2 ≤ capacity then .ok {
    market := market
    symbol := symbol
    instanceId := instanceId
    version := version
    connected := ∅
    persisted := ∅
    snapshotPersisted := false
    eventCount := 0
    lastReceiveTimeUtcNs := none
    failure := none
    bootstrapBufferCapacity := capacity
    book := .initial market capacity
    capacity_le := h }
  else .error "bootstrap buffer capacity must be at least two"

variable (c : CollectorReadiness)

/-- `observe_connected`. -/
def observeConnected (stream : String) : CollectorReadiness :=
  if stream ∈ coreStreams then { c with connected := insert stream c.connected } else c

/-- `observe_disconnected`. -/
def observeDisconnected (stream : String) : CollectorReadiness :=
  if stream ∈ coreStreams then
    { c with connected := c.connected.erase stream, persisted := c.persisted.erase stream }
  else c

/-- `_check_identity`. -/
def ownsEnvelope (envelope : EventEnvelope) : Bool :=
  envelope.market = c.market ∧ envelope.symbol.val = c.symbol ∧
    envelope.collectorInstanceId.val = c.instanceId ∧ envelope.collectorVersion.val = c.version

def identityError : String := "readiness envelope identity differs from Collector"

/-- `str(source_sequence.get("sourceStream", stream))`. -/
def sourceStream (envelope : EventEnvelope) : String :=
  match envelope.sequenceValue sourceStreamName with
  | some (.str s) => s
  | some (.int i) => toString i
  | none => envelope.stream.val

/-- A core event that is counted. -/
def counts (envelope : EventEnvelope) : Bool :=
  sourceStream envelope ∈ coreStreams ∧ ¬ DepthContinuity.IsMalformed envelope

/-- `offer` with its `except`: any other error is raised, and the checker stays as it is. -/
def offerDepth (book : DepthContinuity) (envelope : EventEnvelope) :
    DepthContinuity × Option String :=
  match book.offer envelope with
  | .ok next => (next, none)
  | .error (.data _) => (book.invalidate envelope.receiveTimeUtcNs, none)
  | .error (.other text) => (book, some text)

/-- `observe_persisted`: what it leaves, and what it raises. -/
def observePersisted (envelope : EventEnvelope) : CollectorReadiness × Option String :=
  if c.ownsEnvelope envelope = false then (c, some identityError)
  else
    let stream := sourceStream envelope
    if stream ∉ coreStreams then (c, none)
    else if DepthContinuity.IsMalformed envelope then
      (if stream = "diff_depth" then
        { c with book := c.book.invalidate envelope.receiveTimeUtcNs }
      else c, none)
    else
      let counted := { c with
        persisted := insert stream c.persisted
        eventCount := c.eventCount + 1
        lastReceiveTimeUtcNs := some envelope.receiveTimeUtcNs }
      if stream = "diff_depth" then
        let (book, raised) := offerDepth c.book envelope
        ({ counted with book := book }, raised)
      else (counted, none)

/-- `synchronize` with its `except`. All that a snapshot raises is an `OrderBookDataError`. -/
def synchronizeDepth (book : DepthContinuity) (envelope : EventEnvelope) :
    DepthContinuity × SynchronizeResult :=
  match book.synchronize envelope with
  | .ok result => result
  | .error _ => (book, .needMoreEvents)

/-- `observe_snapshot_persisted`. -/
def observeSnapshotPersisted (envelope : EventEnvelope) :
    Except String (CollectorReadiness × SynchronizeResult) :=
  if c.ownsEnvelope envelope = false then .error identityError
  else .ok ({ c with snapshotPersisted := true, book := (synchronizeDepth c.book envelope).1 },
    (synchronizeDepth c.book envelope).2)

/-- A checker for a new bootstrap. -/
def newBook : DepthContinuity := .initial c.market c.bootstrapBufferCapacity

/-- `invalidate_depth`. -/
def invalidateDepth : CollectorReadiness :=
  { c with
    book := c.newBook
    snapshotPersisted := false
    persisted := c.persisted.erase "diff_depth" }

/-- `record_failure`. -/
def recordFailure (reason : String) : Except String CollectorReadiness :=
  if reason = "" then .error "readiness failure must be non-empty"
  else .ok { c with failure := some reason }

/-- `restart_bootstrap`. -/
def restartBootstrap : CollectorReadiness :=
  { c with
    connected := ∅
    persisted := ∅
    snapshotPersisted := false
    failure := none
    book := c.newBook }

/-- `snapshot`. -/
def snapshot : ReadinessSnapshot where
  market := c.market
  symbol := c.symbol
  collectorInstanceId := c.instanceId
  collectorVersion := c.version
  connectedStreams := c.connected
  persistedStreams := c.persisted
  snapshotPersisted := c.snapshotPersisted
  orderbookSynchronized := c.book.isReliable
  eventCount := c.eventCount
  lastReceiveTimeUtcNs := c.lastReceiveTimeUtcNs
  failure := c.failure

end CollectorReadiness

/-! ## Calls -/

inductive ReadinessCall where
  | connected (stream : String)
  | disconnected (stream : String)
  | persisted (envelope : EventEnvelope)
  | snapshotPersisted (envelope : EventEnvelope)
  | invalidateDepth
  | failed (reason : String)
  | restartBootstrap

namespace CollectorReadiness

/-- A call that changes nothing when it raises. -/
def orRaise (c : CollectorReadiness) :
    Except String CollectorReadiness → CollectorReadiness × Option String
  | .ok next => (next, none)
  | .error e => (c, some e)

/-- What a call leaves, and what it raises. -/
def perform (c : CollectorReadiness) : ReadinessCall → CollectorReadiness × Option String
  | .connected stream => (c.observeConnected stream, none)
  | .disconnected stream => (c.observeDisconnected stream, none)
  | .persisted envelope => c.observePersisted envelope
  | .snapshotPersisted envelope =>
    c.orRaise ((c.observeSnapshotPersisted envelope).map Prod.fst)
  | .invalidateDepth => (c.invalidateDepth, none)
  | .failed reason => c.orRaise (c.recordFailure reason)
  | .restartBootstrap => (c.restartBootstrap, none)

/-- What a call leaves. An update whose payload is no document with fields was counted before it
raises; any other call that raises changes nothing. -/
def next (c : CollectorReadiness) (call : ReadinessCall) : CollectorReadiness := (c.perform call).1

/-- The Collector after some calls. -/
def after (c : CollectorReadiness) (calls : List ReadinessCall) : CollectorReadiness :=
  calls.foldl next c

/-! ## What is kept -/

/-- Two states of one Collector. -/
structure SameCollector (c d : CollectorReadiness) : Prop where
  market : d.market = c.market
  symbol : d.symbol = c.symbol
  instanceId : d.instanceId = c.instanceId
  version : d.version = c.version
  capacity : d.bootstrapBufferCapacity = c.bootstrapBufferCapacity

variable {c d : CollectorReadiness}

theorem SameCollector.refl (c : CollectorReadiness) : SameCollector c c := ⟨rfl, rfl, rfl, rfl, rfl⟩

theorem SameCollector.trans {e : CollectorReadiness} (h : SameCollector c d)
    (h' : SameCollector d e) : SameCollector c e :=
  ⟨h'.market.trans h.market, h'.symbol.trans h.symbol, h'.instanceId.trans h.instanceId,
    h'.version.trans h.version, h'.capacity.trans h.capacity⟩

/-- A Collector owns what it has owned from the start. -/
theorem SameCollector.ownsEnvelope (h : SameCollector c d) (envelope : EventEnvelope) :
    d.ownsEnvelope envelope = c.ownsEnvelope envelope := by
  simp [CollectorReadiness.ownsEnvelope, h.market, h.symbol, h.instanceId, h.version]

/-- A persisted update counts, and its depth is offered where its ids can be read. -/
theorem next_persisted (c : CollectorReadiness) (envelope : EventEnvelope) :
    c.next (.persisted envelope) =
      if c.ownsEnvelope envelope = false ∨ sourceStream envelope ∉ coreStreams then c
      else if DepthContinuity.IsMalformed envelope then
        if sourceStream envelope = "diff_depth" then
          { c with book := c.book.invalidate envelope.receiveTimeUtcNs }
        else c
      else {
        c with
        persisted := insert (sourceStream envelope) c.persisted
        eventCount := c.eventCount + 1
        lastReceiveTimeUtcNs := some envelope.receiveTimeUtcNs
        book := if sourceStream envelope = "diff_depth" then (offerDepth c.book envelope).1
          else c.book } := by
  rw [next, perform, observePersisted]
  by_cases howns : c.ownsEnvelope envelope = false
  · rw [if_pos howns, if_pos (.inl howns)]
  · rw [if_neg howns]
    by_cases hcore : sourceStream envelope ∈ coreStreams
    · simp only [hcore, howns, not_true_eq_false, if_false]
      by_cases hmalformed : DepthContinuity.IsMalformed envelope
      · simp only [hmalformed, if_true]
        split <;> rfl
      · simp only [hmalformed, if_false]
        by_cases hdepth : sourceStream envelope = "diff_depth"
        · rw [if_pos hdepth, if_pos hdepth]
          rfl
        · rw [if_neg hdepth, if_neg hdepth]
          rfl
    · simp only [hcore, not_false_eq_true, if_true, or_true]

/-- A persisted snapshot counts, and the depth is synchronized at it. -/
theorem next_snapshotPersisted (c : CollectorReadiness) (envelope : EventEnvelope) :
    c.next (.snapshotPersisted envelope) =
      if c.ownsEnvelope envelope = false then c
      else { c with snapshotPersisted := true, book := (synchronizeDepth c.book envelope).1 } := by
  rw [next, perform, observeSnapshotPersisted]
  split <;> rfl

/-- A failure without a reason is none. -/
theorem next_failed (c : CollectorReadiness) (reason : String) :
    c.next (.failed reason) = if reason = "" then c else { c with failure := some reason } := by
  rw [next, perform, recordFailure]
  split <;> rfl

/-- No call changes who the Collector is. -/
theorem sameCollector_next (c : CollectorReadiness) (call : ReadinessCall) :
    SameCollector c (c.next call) := by
  cases call with
  | connected stream =>
    show SameCollector c (c.observeConnected stream)
    unfold observeConnected
    split <;> exact ⟨rfl, rfl, rfl, rfl, rfl⟩
  | disconnected stream =>
    show SameCollector c (c.observeDisconnected stream)
    unfold observeDisconnected
    split <;> exact ⟨rfl, rfl, rfl, rfl, rfl⟩
  | persisted envelope =>
    rw [next_persisted]
    split
    · exact .refl c
    · split
      · split <;> exact ⟨rfl, rfl, rfl, rfl, rfl⟩
      · exact ⟨rfl, rfl, rfl, rfl, rfl⟩
  | snapshotPersisted envelope =>
    rw [next_snapshotPersisted]
    split <;> exact ⟨rfl, rfl, rfl, rfl, rfl⟩
  | invalidateDepth => exact ⟨rfl, rfl, rfl, rfl, rfl⟩
  | failed reason =>
    rw [next_failed]
    split <;> exact ⟨rfl, rfl, rfl, rfl, rfl⟩
  | restartBootstrap => exact ⟨rfl, rfl, rfl, rfl, rfl⟩

/-- The count of the events never falls. -/
theorem eventCount_le_next (c : CollectorReadiness) (call : ReadinessCall) :
    c.eventCount ≤ (c.next call).eventCount := by
  cases call with
  | connected stream =>
    show c.eventCount ≤ (c.observeConnected stream).eventCount
    unfold observeConnected
    split <;> exact le_rfl
  | disconnected stream =>
    show c.eventCount ≤ (c.observeDisconnected stream).eventCount
    unfold observeDisconnected
    split <;> exact le_rfl
  | persisted envelope =>
    rw [next_persisted]
    split
    · exact le_rfl
    · split
      · split <;> exact le_rfl
      · exact Nat.le_succ _
  | snapshotPersisted envelope =>
    rw [next_snapshotPersisted]
    split <;> exact le_rfl
  | invalidateDepth => exact le_rfl
  | failed reason =>
    rw [next_failed]
    split <;> exact le_rfl
  | restartBootstrap => exact le_rfl

/-! ## What a call says -/

def Connects (stream : String) : ReadinessCall → Prop
  | .connected other => other = stream
  | _ => False

/-- The stream is no longer connected. -/
def Drops (stream : String) : ReadinessCall → Prop
  | .disconnected other => other = stream
  | .restartBootstrap => True
  | _ => False

/-- A core event of the Collector on the stream. -/
def Persists (c : CollectorReadiness) (stream : String) : ReadinessCall → Prop
  | .persisted envelope => c.ownsEnvelope envelope = true ∧ counts envelope = true ∧
      sourceStream envelope = stream
  | _ => False

/-- What was persisted of the stream no longer counts. -/
def Loses (stream : String) (call : ReadinessCall) : Prop :=
  Drops stream call ∨ (stream = "diff_depth" ∧ call = .invalidateDepth)

def PersistsSnapshot (c : CollectorReadiness) : ReadinessCall → Prop
  | .snapshotPersisted envelope => c.ownsEnvelope envelope = true
  | _ => False

def ResetsDepth : ReadinessCall → Prop
  | .invalidateDepth => True
  | .restartBootstrap => True
  | _ => False

def Fails : ReadinessCall → Prop
  | .failed reason => reason ≠ ""
  | _ => False

def Restarts : ReadinessCall → Prop
  | .restartBootstrap => True
  | _ => False

/-! ## Flags -/

section

variable {stream : String} {call : ReadinessCall}

/-- **A stream is connected** by a call, or still is. -/
theorem mem_connected_next (hcore : stream ∈ coreStreams) :
    stream ∈ (d.next call).connected ↔
      Connects stream call ∨ (stream ∈ d.connected ∧ ¬ Drops stream call) := by
  cases call with
  | connected other =>
    show stream ∈ (d.observeConnected other).connected ↔ _
    unfold observeConnected
    by_cases hother : other = stream
    · simp [hother, hcore, Connects]
    · split <;> simp [Connects, Drops, hother, Ne.symm hother]
  | disconnected other =>
    show stream ∈ (d.observeDisconnected other).connected ↔ _
    unfold observeDisconnected
    by_cases hother : other = stream
    · simp [hother, hcore, Connects, Drops]
    · split <;> simp [Connects, Drops, hother, Ne.symm hother]
  | persisted envelope =>
    rw [next_persisted]
    split
    · simp [Connects, Drops]
    · split
      · split <;> simp [Connects, Drops]
      · simp [Connects, Drops]
  | snapshotPersisted envelope =>
    rw [next_snapshotPersisted]
    split <;> simp [Connects, Drops]
  | invalidateDepth => simp [next, perform, invalidateDepth, Connects, Drops]
  | failed reason =>
    rw [next_failed]
    split <;> simp [Connects, Drops]
  | restartBootstrap => simp [next, perform, restartBootstrap, Connects, Drops]

/-- **A stream is persisted** by an own record, or still is. -/
theorem mem_persisted_next (hsame : SameCollector c d) (hcore : stream ∈ coreStreams) :
    stream ∈ (d.next call).persisted ↔
      c.Persists stream call ∨ (stream ∈ d.persisted ∧ ¬ Loses stream call) := by
  cases call with
  | connected other =>
    show stream ∈ (d.observeConnected other).persisted ↔ _
    unfold observeConnected
    split <;> simp [Persists, Loses, Drops]
  | disconnected other =>
    show stream ∈ (d.observeDisconnected other).persisted ↔ _
    unfold observeDisconnected
    by_cases hother : other = stream
    · simp [hother, hcore, Persists, Loses, Drops]
    · split <;> simp [Persists, Loses, Drops, hother, Ne.symm hother]
  | persisted envelope =>
    rw [next_persisted, hsame.ownsEnvelope]
    by_cases howns : c.ownsEnvelope envelope = true
    · by_cases hsource : sourceStream envelope ∈ coreStreams
      · by_cases hmalformed : DepthContinuity.IsMalformed envelope
        · simp only [howns, hsource, hmalformed, Bool.true_eq_false, not_true_eq_false, or_self,
            if_false, if_true]
          split <;> simp [Persists, counts, hmalformed, Loses, Drops]
        · simp only [howns, hsource, hmalformed, Bool.true_eq_false, not_true_eq_false, or_self,
            if_false]
          simp [Persists, counts, hmalformed, howns, hsource, Loses, Drops, eq_comm]
      · simp [howns, hsource, Persists, counts, Loses, Drops]
    · simp [howns, Persists, Loses, Drops]
  | snapshotPersisted envelope =>
    rw [next_snapshotPersisted]
    split <;> simp [Persists, Loses, Drops]
  | invalidateDepth =>
    simp [next, perform, invalidateDepth, Persists, Loses, Drops, and_comm]
  | failed reason =>
    rw [next_failed]
    split <;> simp [Persists, Loses, Drops]
  | restartBootstrap =>
    simp [next, perform, restartBootstrap, Persists, Loses, Drops]

/-- **The snapshot is persisted** by an own record, or still is. -/
theorem snapshotPersisted_next (hsame : SameCollector c d) :
    (d.next call).snapshotPersisted = true ↔
      c.PersistsSnapshot call ∨ (d.snapshotPersisted = true ∧ ¬ ResetsDepth call) := by
  cases call with
  | connected other =>
    show (d.observeConnected other).snapshotPersisted = true ↔ _
    unfold observeConnected
    split <;> simp [PersistsSnapshot, ResetsDepth]
  | disconnected other =>
    show (d.observeDisconnected other).snapshotPersisted = true ↔ _
    unfold observeDisconnected
    split <;> simp [PersistsSnapshot, ResetsDepth]
  | persisted envelope =>
    rw [next_persisted]
    split
    · simp [PersistsSnapshot, ResetsDepth]
    · split
      · split <;> simp [PersistsSnapshot, ResetsDepth]
      · simp [PersistsSnapshot, ResetsDepth]
  | snapshotPersisted envelope =>
    rw [next_snapshotPersisted, hsame.ownsEnvelope]
    split
    · next howns => simp [PersistsSnapshot, ResetsDepth, howns]
    · next howns => simp [PersistsSnapshot, howns]
  | invalidateDepth =>
    simp [next, perform, invalidateDepth, PersistsSnapshot, ResetsDepth]
  | failed reason =>
    rw [next_failed]
    split <;> simp [PersistsSnapshot, ResetsDepth]
  | restartBootstrap =>
    simp [next, perform, restartBootstrap, PersistsSnapshot, ResetsDepth]

/-- A Collector has failed by a call, or still has. -/
theorem failure_next :
    (d.next call).failure ≠ none ↔ Fails call ∨ (d.failure ≠ none ∧ ¬ Restarts call) := by
  cases call with
  | connected other =>
    show (d.observeConnected other).failure ≠ none ↔ _
    unfold observeConnected
    split <;> simp [Fails, Restarts]
  | disconnected other =>
    show (d.observeDisconnected other).failure ≠ none ↔ _
    unfold observeDisconnected
    split <;> simp [Fails, Restarts]
  | persisted envelope =>
    rw [next_persisted]
    split
    · simp [Fails, Restarts]
    · split
      · split <;> simp [Fails, Restarts]
      · simp [Fails, Restarts]
  | snapshotPersisted envelope =>
    rw [next_snapshotPersisted]
    split <;> simp [Fails, Restarts]
  | invalidateDepth => simp [next, perform, invalidateDepth, Fails, Restarts]
  | failed reason =>
    rw [next_failed]
    split
    · next hreason => simp [Fails, Restarts, hreason]
    · next hreason => simp [Fails, hreason]
  | restartBootstrap => simp [next, perform, restartBootstrap, Fails, Restarts]

end

/-! ## Depth -/

theorem diffDepth_mem : "diff_depth" ∈ coreStreams := by decide

/-- The log behind an update. One without valid ids is a new beginning, and one whose payload is no
document with fields says nothing. -/
def logUpdate (market : Market) (log : List DepthObservation) (envelope : EventEnvelope) :
    List DepthObservation :=
  match DepthContinuity.sequenceOf market envelope with
  | .ok update => log ++ [.update update]
  | .error (.data _) => []
  | .error (.other _) => log

/-- The log behind a snapshot, if it is one. -/
def logSnapshot (log : List DepthObservation) (envelope : EventEnvelope) : List DepthObservation :=
  if DepthContinuity.IsMalformed envelope then log
  else match snapshotFromEnvelope envelope with
    | .ok snapshot => log ++ [.snapshot snapshot.lastUpdateId]
    | .error _ => log

/-- What the checker that is in use was told. -/
def observe (c : CollectorReadiness) (log : List DepthObservation) :
    ReadinessCall → List DepthObservation
  | .persisted envelope =>
    if c.ownsEnvelope envelope = true ∧ sourceStream envelope = "diff_depth" then
      if DepthContinuity.IsMalformed envelope then []
      else logUpdate c.market log envelope
    else log
  | .snapshotPersisted envelope =>
    if c.ownsEnvelope envelope = true then logSnapshot log envelope else log
  | .invalidateDepth => []
  | .restartBootstrap => []
  | _ => log

/-- The depth is tracked over an offered record. -/
theorem tracks_offerDepth {book : DepthContinuity} {log : List DepthObservation}
    (h : book.Tracks log) (envelope : EventEnvelope) :
    (offerDepth book envelope).1.market = book.market ∧
      (offerDepth book envelope).1.Tracks (logUpdate book.market log envelope) := by
  rw [offerDepth, logUpdate, DepthContinuity.offer]
  cases hsequence : DepthContinuity.sequenceOf book.market envelope with
  | error e =>
    cases e with
    | data text => exact ⟨rfl, .invalidate book _⟩
    | other text => exact ⟨rfl, h⟩
  | ok update =>
    obtain ⟨next, hnext⟩ := book.offerSequence_ok update
    have htracks := h.offerSequence hnext
    have hbind : (Except.ok update >>= fun update =>
        (book.offerSequence update).mapError BookError.other) = .ok next := by
      show (book.offerSequence update).mapError BookError.other = .ok next
      rw [hnext]
      rfl
    rw [hbind]
    exact ⟨htracks.2, htracks.1⟩

/-- The depth is tracked over a snapshot. -/
theorem tracks_synchronizeDepth {book : DepthContinuity} {log : List DepthObservation}
    (h : book.Tracks log) (envelope : EventEnvelope) :
    (synchronizeDepth book envelope).1.market = book.market ∧
      (synchronizeDepth book envelope).1.Tracks (logSnapshot log envelope) := by
  rw [synchronizeDepth, logSnapshot, DepthContinuity.synchronize]
  by_cases hmalformed : DepthContinuity.IsMalformed envelope
  · have hflag : DepthContinuity.malformedFlag ∈ envelope.captureFlags := hmalformed
    rw [if_pos hflag, if_pos hmalformed]
    exact ⟨rfl, h⟩
  · have hflag : DepthContinuity.malformedFlag ∉ envelope.captureFlags := hmalformed
    rw [if_neg hflag, if_neg hmalformed]
    cases hsnapshot : snapshotFromEnvelope envelope with
    | error e => exact ⟨rfl, h⟩
    | ok snapshot =>
      have hbind : (Except.ok snapshot >>= fun snapshot : BookSnapshot =>
          book.synchronizeAt snapshot.lastUpdateId) =
            book.synchronizeAt snapshot.lastUpdateId := rfl
      rw [hbind]
      cases hsync : book.synchronizeAt snapshot.lastUpdateId with
      | error e => exact ⟨rfl, h.mono (List.sublist_append_left _ _) rfl rfl rfl⟩
      | ok result =>
        have htracks := h.synchronizeAt hsync
        exact ⟨htracks.2, htracks.1⟩

/-- The checker of a Collector tracks a log. -/
structure TracksDepth (c d : CollectorReadiness) (log : List DepthObservation) : Prop where
  same : SameCollector c d
  market : d.book.market = c.market
  tracks : d.book.Tracks log

/-- The depth is tracked over every call. -/
theorem TracksDepth.next {log : List DepthObservation} (h : TracksDepth c d log)
    (call : ReadinessCall) : TracksDepth c (d.next call) (c.observe log call) := by
  have hnew : d.newBook.market = c.market ∧ d.newBook.Tracks [] :=
    ⟨h.same.market, .initial _ _⟩
  -- Only the depth can change in a way that matters: the Collector stays who it is.
  suffices hbook : (d.next call).book.market = c.market ∧
      (d.next call).book.Tracks (c.observe log call) from
    ⟨h.same.trans (sameCollector_next d call), hbook.1, hbook.2⟩
  cases call with
  | connected stream =>
    have hsame : (d.next (.connected stream)).book = d.book := by
      show (d.observeConnected stream).book = d.book
      unfold observeConnected
      split <;> rfl
    rw [hsame]
    exact ⟨h.market, h.tracks⟩
  | disconnected stream =>
    have hsame : (d.next (.disconnected stream)).book = d.book := by
      show (d.observeDisconnected stream).book = d.book
      unfold observeDisconnected
      split <;> rfl
    rw [hsame]
    exact ⟨h.market, h.tracks⟩
  | persisted envelope =>
    rw [next_persisted, h.same.ownsEnvelope]
    by_cases howns : c.ownsEnvelope envelope = true
    · by_cases hdepth : sourceStream envelope = "diff_depth"
      · have hoffer := tracks_offerDepth h.tracks envelope
        rw [h.market] at hoffer
        by_cases hmalformed : DepthContinuity.IsMalformed envelope
        · simp only [observe, howns, hdepth, diffDepth_mem, hmalformed, Bool.true_eq_false,
            not_true_eq_false, or_self, if_false, and_self, if_true]
          exact ⟨h.market, .invalidate _ _⟩
        · simp only [observe, howns, hdepth, diffDepth_mem, hmalformed, Bool.true_eq_false,
            not_true_eq_false, or_self, if_false, and_self, if_true]
          exact hoffer
      · simp only [observe, hdepth, and_false, if_false]
        split
        · exact ⟨h.market, h.tracks⟩
        · split <;> exact ⟨h.market, h.tracks⟩
    · simp only [observe, howns, Bool.false_eq_true, false_and, if_false, true_or, if_true]
      exact ⟨h.market, h.tracks⟩
  | snapshotPersisted envelope =>
    rw [next_snapshotPersisted, h.same.ownsEnvelope]
    by_cases howns : c.ownsEnvelope envelope = true
    · have hsync := tracks_synchronizeDepth h.tracks envelope
      rw [h.market] at hsync
      simp only [observe, howns, Bool.true_eq_false, if_false, if_true]
      exact hsync
    · simp only [observe, howns, Bool.false_eq_true, if_false, if_true]
      exact ⟨h.market, h.tracks⟩
  | invalidateDepth => exact hnew
  | failed reason =>
    rw [next_failed]
    split <;> exact ⟨h.market, h.tracks⟩
  | restartBootstrap => exact hnew

/-- The depth is tracked over every run. -/
theorem tracksDepth_after {log : List DepthObservation} (h : TracksDepth c d log)
    (calls : List ReadinessCall) :
    TracksDepth c (d.after calls) (calls.foldl c.observe log) := by
  induction calls generalizing d log with
  | nil => exact h
  | cons call rest ih => exact ih (h.next call)

/-! ## Readiness -/

/-- **Ready means all of it**: no failure, all core streams connected and persisted, a snapshot,
a reliable depth. -/
theorem ready_eq_true (c : CollectorReadiness) : c.snapshot.ready = true ↔
    c.failure = none ∧ coreStreams ⊆ c.connected ∧ coreStreams ⊆ c.persisted ∧
      c.snapshotPersisted = true ∧ c.book.isReliable = true := by
  exact decide_eq_true_iff

/-- A Collector that was just made. -/
structure Fresh (c : CollectorReadiness) : Prop where
  connected : c.connected = ∅
  persisted : c.persisted = ∅
  snapshotPersisted : c.snapshotPersisted = false
  failure : c.failure = none
  book : c.book = .initial c.market c.bootstrapBufferCapacity

/-- A created Collector has seen nothing. -/
theorem fresh_of_create {market : Market} {instanceId version symbol : String} {capacity : Nat}
    (h : create market instanceId version symbol capacity = .ok c) : Fresh c := by
  unfold create at h
  split at h
  · cases h
  · split at h
    · cases h
      exact ⟨rfl, rfl, rfl, rfl, rfl⟩
    · cases h

/--
**When a Collector is ready.** It did not fail since its last restart; every core stream is
connected and has persisted an event since it was lost; a snapshot was persisted since the depth was
reset; and the checker is reliable. Then a chain of updates without a gap leads from a snapshot to
its id.
-/
theorem ready_iff {market : Market} {instanceId version symbol : String} {capacity : Nat}
    (h : create market instanceId version symbol capacity = .ok c) (calls : List ReadinessCall) :
    ((c.after calls).snapshot.ready = true ↔
      ¬ Log.Since Fails Restarts calls ∧
        (∀ stream ∈ coreStreams, Log.Since (Connects stream) (Drops stream) calls ∧
          Log.Since (c.Persists stream) (Loses stream) calls) ∧
        Log.Since c.PersistsSnapshot ResetsDepth calls ∧
        (c.after calls).book.isReliable = true) ∧
      ((c.after calls).snapshot.ready = true →
        ∃ id, (c.after calls).book.reliableUpdateId = some id ∧
          Bridged c.market (calls.foldl c.observe []) id) := by
  have hfresh := fresh_of_create h
  have hkeep : ∀ d call, SameCollector c d → SameCollector c (d.next call) :=
    fun d call hd => hd.trans (sameCollector_next d call)
  have hfailure : (c.after calls).failure ≠ none ↔ Log.Since Fails Restarts calls :=
    Log.flag_foldl (fun d => d.failure ≠ none) (.refl c) (fun hne => hne hfresh.failure) hkeep
      (fun _ _ _ => failure_next) calls
  have hconnected : ∀ stream ∈ coreStreams, stream ∈ (c.after calls).connected ↔
      Log.Since (Connects stream) (Drops stream) calls := fun stream hcore =>
    Log.flag_foldl (fun d => stream ∈ d.connected) (.refl c) (by simp [hfresh.connected]) hkeep
      (fun _ _ _ => mem_connected_next hcore) calls
  have hpersisted : ∀ stream ∈ coreStreams, stream ∈ (c.after calls).persisted ↔
      Log.Since (c.Persists stream) (Loses stream) calls := fun stream hcore =>
    Log.flag_foldl (fun d => stream ∈ d.persisted) (.refl c) (by simp [hfresh.persisted]) hkeep
      (fun _ _ hsame => mem_persisted_next hsame hcore) calls
  have hsnapshot : (c.after calls).snapshotPersisted = true ↔
      Log.Since c.PersistsSnapshot ResetsDepth calls :=
    Log.flag_foldl (fun d => d.snapshotPersisted = true) (.refl c)
      (by simp [hfresh.snapshotPersisted]) hkeep
      (fun _ _ hsame => snapshotPersisted_next hsame) calls
  have htracks : TracksDepth c (c.after calls) (calls.foldl c.observe []) :=
    tracksDepth_after ⟨.refl c, by rw [hfresh.book]; rfl, by rw [hfresh.book]; exact .initial _ _⟩
      calls
  refine ⟨?_, fun hready => ?_⟩
  · rw [ready_eq_true, ← hfailure, ← hsnapshot, not_not]
    constructor
    · rintro ⟨hnone, hall, hevents, hrest⟩
      exact ⟨hnone, fun stream hcore => ⟨(hconnected stream hcore).mp (hall hcore),
        (hpersisted stream hcore).mp (hevents hcore)⟩, hrest⟩
    · rintro ⟨hnone, hstreams, hrest⟩
      exact ⟨hnone, fun stream hcore => (hconnected stream hcore).mpr (hstreams stream hcore).1,
        fun stream hcore => (hpersisted stream hcore).mpr (hstreams stream hcore).2, hrest⟩
  · have hreliable := ((ready_eq_true _).mp hready).2.2.2.2
    obtain ⟨id, hid⟩ := Option.isSome_iff_exists.mp hreliable
    exact ⟨id, hid, htracks.market ▸ htracks.tracks.reliable id hid⟩

/-! ### A Collector that becomes ready -/

def sampleReadiness : CollectorReadiness where
  market := .spot
  symbol := "BTCUSDT"
  instanceId := "i"
  version := "v"
  connected := ∅
  persisted := ∅
  snapshotPersisted := false
  eventCount := 0
  lastReceiveTimeUtcNs := none
  failure := none
  bootstrapBufferCapacity := 8192
  book := .initial .spot 8192
  capacity_le := by decide

/-- An update without ids in its metadata, with a list for a payload. -/
def sampleUnreadable : EventEnvelope :=
  sampleDepthEnvelope ⟨"diff_depth", diffDepth_fits⟩ .empty (.list [])

def sampleCalls : List ReadinessCall :=
  [.connected "diff_depth", .connected "agg_trade", .connected "book_ticker",
   .persisted (sampleDepthEnvelope ⟨"agg_trade", by decide⟩ .empty .null),
   .persisted (sampleDepthEnvelope ⟨"book_ticker", by decide⟩ .empty .null),
   .persisted (sampleUpdateEnvelope 9 12), .snapshotPersisted (sampleSnapshotEnvelope 10),
   .persisted (sampleUpdateEnvelope 13 15)]

/-- The Collector is ready, and stays so over an update that raises; a restart makes it lose its
connections. -/
theorem ready_iff_sample :
    (sampleReadiness.after sampleCalls).snapshot.ready = true ∧
    Bridged .spot (sampleCalls.foldl sampleReadiness.observe []) 15 ∧
    ((sampleReadiness.after sampleCalls).perform (.persisted sampleUnreadable)).2 =
      some "payload has no fields" ∧
    (sampleReadiness.after (sampleCalls ++ [.persisted sampleUnreadable])).snapshot.ready = true ∧
    ¬ (sampleReadiness.after (sampleCalls ++ [.restartBootstrap])).snapshot.ready = true := by
  have hcreate : create .spot "i" "v" "BTCUSDT" = .ok sampleReadiness := rfl
  have hready : (sampleReadiness.after sampleCalls).snapshot.ready = true := by decide +kernel
  have hid : (sampleReadiness.after sampleCalls).book.reliableUpdateId = some 15 := by
    decide +kernel
  obtain ⟨id, hsome, hbridged⟩ := (ready_iff hcreate sampleCalls).2 hready
  rw [hid] at hsome
  obtain rfl := Option.some.inj hsome
  refine ⟨hready, hbridged, by decide +kernel, by decide +kernel, fun hready => ?_⟩
  obtain ⟨-, hstreams, -⟩ := (ready_iff hcreate _).1.mp hready
  have hconnected := (hstreams "diff_depth" diffDepth_mem).1
  rw [Log.since_append] at hconnected
  rcases hconnected with hconnects | ⟨-, hdrops⟩
  · exact hconnects
  · exact hdrops trivial

end CollectorReadiness

end MarketDataRecorder
