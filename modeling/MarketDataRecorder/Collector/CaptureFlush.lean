import MarketDataRecorder.Collector.AvailabilityLedger
import MarketDataRecorder.Lib.Transition

/-!
# The flush of a capture

`_flush_availability` and `_observe_availability` of `SelectedAssetCapture` in
`collector/coverage.py`, one await at a time: the journal goes on while a batch is with the catalog,
and the process can end at any point. What a transaction has committed survives the end of
the process.

The monitor vouches for the time up to its last pass with a watermark. It is committed with the last
batch of the queue, and checkpoints are then not written any more. A batch is a list of the entries
themselves, so a checkpoint is written as it stands when its transaction commits.

* `AvailabilityCapture.step` — the calls of the journal, the parts of a flush, and the next process
* `AvailabilityCapture.NeverOverCredits` — what the durable state credits is available in
  the history that a flush of everything would record
-/

namespace MarketDataRecorder

/-- A batch that was handed to the catalog, and the watermark with it. -/
structure Handover where
  transitionsOnly : Bool
  count : Nat
  watermark : Option (Nat × Nat)
  committed : Bool := false
  deriving DecidableEq

/-- `_flush_availability`, as far as it has got. -/
structure FlushRun where
  allPending : Bool
  watermark : Option (Nat × Nat)
  handover : Option Handover := none
  deriving DecidableEq

/-- `SelectedAssetCapture`, as far as its availability goes. -/
structure AvailabilityCapture where
  catalog : AvailabilityCatalog := {}
  journal : AvailabilityJournal
  pendingWatermark : Option Nat := none
  lastWatermarkFlush : Option Nat := none
  flush : Option FlushRun := none

namespace AvailabilityCapture

/-! ## Steps -/

/-- The first process, with an empty catalog. -/
def create (capacity : Nat) : AvailabilityCapture where
  journal := { selectionId := 0, capacity := capacity, nextId := 0 }

/-- `batch`: how many entries of the queue one transaction takes. -/
def batchSize (pending : Nat) : Nat := min (if 2048 < pending then 4096 else 128) pending

/-- `to_persist`. -/
def toPersist (transitionsOnly : Bool) (batch : List JournalEntry) : List JournalEntry :=
  if transitionsOnly then batch.filter JournalEntry.isTransition else batch

/-- `watermark_param`: the watermark that a flush takes up, where it is due. -/
def dueWatermark (s : AvailabilityCapture) (allPending : Bool) : Option (Nat × Nat) :=
  match s.pendingWatermark with
  | none => none
  | some pending =>
    match s.lastWatermarkFlush with
    | none => some (s.journal.selectionId, pending)
    | some last =>
      if allPending || decide (last + 10000000000 ≤ pending) then
        some (s.journal.selectionId, pending)
      else none

inductive Action where
  | journal (op : JournalOp)
  /-- The end of `_observe_availability`, whose calls of the journal are actions of their own. -/
  | observed (now : Nat)
  | startFlush (allPending : Bool)
  | handOver
  | commit
  /-- The transaction raised, and the flush with it. -/
  | fail
  | acknowledge
  /-- The loop ends: nothing is left to write, or the flush is a bounded one. -/
  | endFlush
  /-- The process ends, and another one starts from the catalog. -/
  | restart
  deriving DecidableEq

/-- A step, `none` where it is not the turn of the action. -/
def step (s : AvailabilityCapture) : Action → Option AvailabilityCapture
  | .journal op => some { s with journal := op.after s.journal }
  | .observed now => some { s with pendingWatermark := some now }
  | .startFlush allPending =>
    match s.flush with
    | some _ => none
    | none => some { s with flush := some ⟨allPending, s.dueWatermark allPending, none⟩ }
  | .handOver =>
    match s.flush with
    | some ⟨allPending, watermark, none⟩ =>
      if s.journal.pending = [] ∧ watermark = none then none
      else
        let count := batchSize s.journal.pending.length
        some { s with flush := some ⟨allPending, watermark, some {
          transitionsOnly := s.pendingWatermark.isSome
          count := count
          -- the last batch takes the watermark along
          watermark := if count = s.journal.pending.length then watermark else none }⟩ }
    | _ => none
  | .commit =>
    match s.flush with
    | some ⟨allPending, watermark, some handover⟩ =>
      if handover.committed then none
      else some { s with
        catalog := s.catalog.persist
          (toPersist handover.transitionsOnly (s.journal.pending.take handover.count))
          handover.watermark
        flush := some ⟨allPending, watermark, some { handover with committed := true }⟩ }
    | _ => none
  | .fail =>
    match s.flush with
    | some ⟨_, _, some handover⟩ =>
      if handover.committed then none else some { s with flush := none }
    | _ => none
  | .acknowledge =>
    match s.flush with
    | some ⟨allPending, watermark, some handover⟩ =>
      if handover.committed then
        some { s with
          journal := s.journal.acknowledge handover.count
          lastWatermarkFlush := (handover.watermark.map Prod.snd).or s.lastWatermarkFlush
          -- the watermark alone is the last that a flush writes
          flush := if handover.count = 0 then none
            else some ⟨allPending, if handover.watermark.isSome then none else watermark, none⟩ }
      else none
    | _ => none
  | .endFlush =>
    match s.flush with
    | some ⟨allPending, watermark, none⟩ =>
      if (s.journal.pending = [] ∧ watermark = none) ∨
          (allPending = false ∧ s.journal.pending ≠ []) then
        some { s with flush := none }
      else none
    | _ => none
  | .restart => some {
      catalog := s.catalog
      journal := {
        selectionId := s.journal.selectionId + 1
        capacity := s.journal.capacity
        previous := s.catalog.sourceAvailability
        nextId := s.journal.nextId } }

/-- The captures of a data root, one process after the other. -/
def system : TransitionSystem AvailabilityCapture Action where
  initial s := ∃ capacity, s = create capacity
  step := step

/-! ## What is recorded -/

/-- How many entries of the queue the catalog has committed already. -/
def committedCount (s : AvailabilityCapture) : Nat :=
  match s.flush with
  | some ⟨_, _, some handover⟩ => if handover.committed then handover.count else 0
  | _ => 0

/-- The entries that are still to be written. -/
def unwritten (s : AvailabilityCapture) : List JournalEntry :=
  match s.flush with
  | some ⟨_, _, some handover⟩ =>
    let later := toPersist s.pendingWatermark.isSome (s.journal.pending.drop handover.count)
    if handover.committed then later
    else toPersist handover.transitionsOnly (s.journal.pending.take handover.count) ++ later
  | _ => toPersist s.pendingWatermark.isSome s.journal.pending

/-- The history as it is recorded when everything is flushed, the last watermark with it. -/
def fullHistory (s : AvailabilityCapture) : AvailabilityCatalog :=
  s.catalog.persist s.unwritten
    (s.pendingWatermark.map fun watermark => (s.journal.selectionId, watermark))

/-- When the process ends here and another one starts, no instant is credited that the full history
does not credit. -/
def NeverOverCredits (s : AvailabilityCapture) : Prop :=
  ∀ s', s.step .restart = some s' → ∀ first last sourceId t,
    Credits s'.catalog first last sourceId t → Credits s.fullHistory first last sourceId t

/-- What is still in memory is dated after all that is credited already. -/
structure DatedAfterCredit (s : AvailabilityCapture) : Prop where
  /-- The time of an entry, and the beginning of the gap that it opens. -/
  entries : ∀ first last sourceId t, Credits s.catalog first last sourceId t →
    ∀ entry ∈ entriesOf sourceId s.unwritten, t < entry.state.observedAt ∧
      ∀ gap, entry.gap = some gap →
        (gapsOf (s.catalog.sources.get? sourceId)).get? gap.gapId = none → t < gap.started
  /-- The monitor's last pass, for a source of which nothing is left to write. -/
  watermark : ∀ first last sourceId t, Credits s.catalog first last sourceId t →
    entriesOf sourceId s.unwritten = [] → ∀ now, s.pendingWatermark = some now →
      ∀ tables, s.catalog.sources.get? sourceId = some tables →
        tables.state.selectionId = s.journal.selectionId → t < max tables.state.observedAt now

end AvailabilityCapture

end MarketDataRecorder
