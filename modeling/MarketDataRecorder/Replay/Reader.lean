import Mathlib.Data.String.Basic
import MarketDataRecorder.Lib.ExternalSort
import MarketDataRecorder.Lib.Fallible
import MarketDataRecorder.Orderbook.BookRuns
import MarketDataRecorder.Replay.Model
import MarketDataRecorder.Spool.Format

/-!
# Replay: the reader

`replay/reader.py`: the rows of the selected partitions are filtered, put on the clock of the query
and sorted through spilled runs.

* `replay_eq_ok` — a replay that returns is the sorted list of the rows it selects
* `replay_error_iff` — a replay raises for its checkpoint or for the first row that it cannot read
* `replayContract_iff` — order and completeness hold of every replay; that no row without an
  exchange clock stops it under a policy holds exactly where the rows read belong to streams
  with a clock entry
-/

namespace MarketDataRecorder

open ExternalSort

/-! ## Rows to documents -/

abbrev OrderKey := Nat ×ₗ Nat ×ₗ String ×ₗ String ×ₗ String ×ₗ String ×ₗ String ×ₗ Nat ×ₗ
  String ×ₗ String ×ₗ Nat ×ₗ Nat ×ₗ String

/-- `_order_key`. The second place belongs to the exchange clock and is empty otherwise. -/
def orderKey (clock : ReplayClock) (eventTimeNs : Nat) (row : ReplayRow) : OrderKey :=
  let second := match clock with
    | .exchangeTime => row.receiveTimeUtcNs
    | .receiveTime => 0
  toLex (eventTimeNs, toLex (second, toLex (row.market, toLex (row.stream, toLex (row.symbol,
    toLex (row.collectorInstanceId, toLex (row.connectionId, toLex (row.receiveMonotonicNs,
      toLex (row.sourceSequenceJson, toLex (row.sourceChunkSha256, toLex (row.sourceRecordOrdinal,
        toLex (row.sourceSubrecordOrdinal, row.logicalRecordSha256))))))))))))

/-- A line of a work file. -/
structure ReplayDocument where
  orderKey : OrderKey
  eventTimeNs : Nat
  usedReceiveTimeFallback : Bool
  isUnreliable : Bool
  row : ReplayRow

namespace ReplayQuery

variable (query : ReplayQuery)

/-- A filter without entries lets everything pass. -/
def allows (values : List String) (value : String) : Bool := values = [] ∨ value ∈ values

/-- `_matches`. -/
def matchesRow (row : ReplayRow) : Bool :=
  allows query.markets row.market && allows query.streams row.stream &&
    decide (row.symbol = query.symbol)

/-- `_in_range`. -/
def inRange (eventTimeNs : Nat) : Bool :=
  query.startTimeNs.all (fun first => first ≤ eventTimeNs) &&
    query.endTimeNs.all (fun last => eventTimeNs < last)

/-- `_checkpoint_for`. -/
def checkpointFor (checkpoints : List CheckpointDescriptor) :
    Except String (Option CheckpointDescriptor) :=
  match query.checkpointId with
  | none => .ok none
  | some id =>
    match checkpoints.filter fun checkpoint => checkpoint.checkpointId = id with
    | [checkpoint] =>
      if query.markets ≠ [checkpoint.market] ∨ query.streams ≠ ["diff_depth"] ∨
          query.symbol ≠ checkpoint.symbol then
        .error "checkpoint seek requires its single market/symbol diff_depth query"
      else .ok (some checkpoint)
    | _ => .error "checkpoint is not part of the selected build"

/-- `_selected_partitions`. -/
def selectedPartitions (partitions : List Partition) : List Partition :=
  partitions.filter fun p => allows query.markets p.market && allows query.streams p.stream

end ReplayQuery

/-- `_after_checkpoint`. -/
def afterCheckpoint (checkpoint : Option CheckpointDescriptor) (row : ReplayRow) :
    Except String Bool :=
  match checkpoint with
  | none => .ok true
  | some checkpoint =>
    match row.finalUpdateId with
    | none => .error "checkpoint seek encountered depth data without final_update_id"
    | some finalUpdateId => .ok (checkpoint.updateId < finalUpdateId)

/-- The document of a row on the clock. -/
def documentOf (query : ReplayQuery) (reading : ClockReading) (row : ReplayRow) :
    ReplayDocument where
  orderKey := orderKey query.clock reading.eventTimeNs row
  eventTimeNs := reading.eventTimeNs
  usedReceiveTimeFallback := reading.usedReceiveTimeFallback
  isUnreliable := row.unreliable
  row := row

/-- What the reading loop does with a row: nothing where the row is passed over. -/
def selectRow (datasetVersion : String) (query : ReplayQuery)
    (checkpoint : Option CheckpointDescriptor) (row : ReplayRow) :
    Except String (Option ReplayDocument) :=
  if row.datasetVersion ≠ datasetVersion then .error "normalized row dataset version mismatch"
  else if query.matchesRow row = false then .ok none
  else match resolveClock query.clock query.missingExchangeTime row with
    | .error e => .error e
    | .ok none => .ok none
    | .ok (some reading) =>
      -- The range is over the clock of the query, not over the time of receipt.
      if query.inRange reading.eventTimeNs = false then .ok none
      else match afterCheckpoint checkpoint row with
        | .error e => .error e
        | .ok false => .ok none
        | .ok true =>
          if row.unreliable = true ∧ query.gapPolicy = .error then
            .error "selected replay range contains unreliable source data"
          else if row.unreliable = true ∧ query.gapPolicy = .exclude then .ok none
          else .ok (some (documentOf query reading row))

def replayOrderVersion : String := "replay-order.v1"

/-- `ReplayEvent.create`. -/
def eventOf (build : OpenedBuild) (query : ReplayQuery) (document : ReplayDocument) :
    ReplayEvent where
  datasetVersion := build.summary.datasetVersion
  buildId := build.summary.buildId
  orderVersion := replayOrderVersion
  clock := query.clock
  eventTimeNs := document.eventTimeNs
  usedReceiveTimeFallback := document.usedReceiveTimeFallback
  isUnreliable := document.isUnreliable
  row := document.row

/-- `replay`, for a run size and a fan-in. All rows are read before the first event is yielded. -/
def replay (runSize : Nat) (fanIn : FanIn) (build : OpenedBuild) (query : ReplayQuery) :
    Except String (List ReplayEvent) := do
  let checkpoint ← query.checkpointFor build.checkpoints
  let rows := (query.selectedPartitions build.partitions).flatMap Partition.rows
  let found ← rows.mapM (selectRow build.summary.datasetVersion query checkpoint)
  let documents := externalSort ReplayDocument.orderKey runSize fanIn found.reduceOption
  return documents.map (eventOf build query)

/-! ## What a row is to become -/

/-- The reading of a row under the policy of the query. -/
def expectedReading (query : ReplayQuery) (row : ReplayRow) : Option ClockReading :=
  match query.clock with
  | .receiveTime => some ⟨row.receiveTimeUtcNs, false⟩
  | .exchangeTime =>
    match row.exchangeClock with
    | some eventTimeNs => some ⟨eventTimeNs, false⟩
    | none =>
      if query.missingExchangeTime = .fallbackReceive then some ⟨row.receiveTimeUtcNs, true⟩
      else none

/-- The row continues the checkpoint. -/
def continuesCheckpoint (checkpoint : Option CheckpointDescriptor) (row : ReplayRow) : Bool :=
  checkpoint.all fun checkpoint => row.finalUpdateId.any fun id => checkpoint.updateId < id

/-- The document of a row that the query asks for. -/
def wanted (query : ReplayQuery) (checkpoint : Option CheckpointDescriptor) (row : ReplayRow) :
    Option ReplayDocument :=
  if query.matchesRow row then
    (expectedReading query row).bind fun reading =>
      if query.inRange reading.eventTimeNs = true ∧ continuesCheckpoint checkpoint row = true ∧
          ¬ (row.unreliable = true ∧ query.gapPolicy = .exclude) then
        some (documentOf query reading row)
      else none
  else none

variable {query : ReplayQuery} {checkpoint : Option CheckpointDescriptor} {row : ReplayRow}

theorem resolveClock_of_listed {fields : List String} (hclock : query.clock = .exchangeTime)
    (hfields : exchangeFields.lookup row.stream = some fields) :
    resolveClock query.clock query.missingExchangeTime row =
      match row.exchangeClock, query.missingExchangeTime with
      | some eventTimeNs, _ => .ok (some ⟨eventTimeNs, false⟩)
      | none, .exclude => .ok none
      | none, .fallbackReceive => .ok (some ⟨row.receiveTimeUtcNs, true⟩)
      | none, .error => .error
        (row.market ++ "/" ++ row.stream ++ " has no documented exchange time")
      := by
  have hexchange : row.exchangeClock = (fields.findSome? row.integer).map (· * 1000000) := by
    rw [ReplayRow.exchangeClock, hfields, Option.getD_some]
  unfold resolveClock
  simp only [hclock, hfields, hexchange]
  cases fields.findSome? row.integer with
  | some milliseconds => rfl
  | none => cases query.missingExchangeTime <;> rfl

theorem resolveClock_of_unlisted (hclock : query.clock = .exchangeTime)
    (hfields : exchangeFields.lookup row.stream = none) :
    resolveClock query.clock query.missingExchangeTime row =
      .error "unsupported stream event clock" := by
  unfold resolveClock
  simp only [hclock, hfields]

theorem resolveClock_eq_ok {reading : Option ClockReading}
    (h : resolveClock query.clock query.missingExchangeTime row = .ok reading) :
    reading = expectedReading query row := by
  unfold expectedReading
  cases hclock : query.clock with
  | receiveTime =>
    rw [hclock] at h
    exact (Except.ok.inj h).symm
  | exchangeTime =>
    cases hfields : exchangeFields.lookup row.stream with
    | none =>
      rw [resolveClock_of_unlisted hclock hfields] at h
      cases h
    | some fields =>
      rw [resolveClock_of_listed hclock hfields] at h
      cases hexchange : row.exchangeClock with
      | some eventTimeNs =>
        rw [hexchange] at h
        exact (Except.ok.inj h).symm
      | none =>
        cases hmissing : query.missingExchangeTime with
        | error =>
          simp only [hexchange, hmissing] at h
          cases h
        | exclude | fallbackReceive =>
          simp only [hexchange, hmissing] at h
          exact (Except.ok.inj h).symm

theorem afterCheckpoint_eq_ok {b : Bool} (h : afterCheckpoint checkpoint row = .ok b) :
    b = continuesCheckpoint checkpoint row := by
  unfold afterCheckpoint at h
  unfold continuesCheckpoint
  cases checkpoint with
  | none => exact (Except.ok.inj h).symm
  | some checkpoint =>
    cases hfinal : row.finalUpdateId with
    | none =>
      simp only [hfinal] at h
      cases h
    | some id =>
      simp only [hfinal] at h
      exact (Except.ok.inj h).symm

/-- A row that does not make the loop raise becomes what the query asks for. -/
theorem selectRow_eq_ok {datasetVersion : String} {document : Option ReplayDocument}
    (h : selectRow datasetVersion query checkpoint row = .ok document) :
    document = wanted query checkpoint row := by
  unfold selectRow at h
  unfold wanted
  split at h
  · cases h
  split at h
  · next hmatch =>
    rw [hmatch]
    exact (Except.ok.inj h).symm
  next hmatch =>
  rw [if_pos (by simpa using hmatch)]
  split at h
  · cases h
  · next hreading =>
    rw [← resolveClock_eq_ok hreading]
    exact (Except.ok.inj h).symm
  · next reading hreading =>
    rw [← resolveClock_eq_ok hreading, Option.bind_some]
    split at h
    · next hrange =>
      rw [if_neg (by simp [hrange])]
      exact (Except.ok.inj h).symm
    next hrange =>
    split at h
    · cases h
    · next hafter =>
      rw [if_neg (by simp [← afterCheckpoint_eq_ok hafter])]
      exact (Except.ok.inj h).symm
    · next hafter =>
      split at h
      · cases h
      split at h
      · next hexclude =>
        rw [if_neg (by simp [hexclude])]
        exact (Except.ok.inj h).symm
      · next hkeep =>
        rw [if_pos ⟨by simpa using hrange, (afterCheckpoint_eq_ok hafter).symm, hkeep⟩]
        exact (Except.ok.inj h).symm

/-! ## The replay as a sorted list -/

section

variable {build : OpenedBuild} {runSize : Nat} {fanIn : FanIn} {events : List ReplayEvent}

/-- The documents of a build that the query asks for, in the order of the partitions. -/
def wantedDocuments (build : OpenedBuild) (query : ReplayQuery)
    (checkpoint : Option CheckpointDescriptor) : List ReplayDocument :=
  build.rows.filterMap (wanted query checkpoint)

theorem wanted_eq_none_of_not_allowed
    (h : (ReplayQuery.allows query.markets row.market &&
      ReplayQuery.allows query.streams row.stream) = false) :
    wanted query checkpoint row = none := by
  rw [wanted, if_neg]
  simp [ReplayQuery.matchesRow, h]

/-- No row of a partition that is passed over is asked for. -/
theorem filterMap_selectedPartitions (build : OpenedBuild) (query : ReplayQuery)
    (checkpoint : Option CheckpointDescriptor) :
    ((query.selectedPartitions build.partitions).flatMap Partition.rows).filterMap
      (wanted query checkpoint) = wantedDocuments build query checkpoint := by
  have hpart : ∀ partitions : List Partition, (∀ p ∈ partitions, ∀ row ∈ p.rows,
      row.market = p.market ∧ row.stream = p.stream) →
      ((query.selectedPartitions partitions).flatMap Partition.rows).filterMap
        (wanted query checkpoint) =
      (partitions.flatMap Partition.rows).filterMap (wanted query checkpoint) := by
    intro partitions
    induction partitions with
    | nil => exact fun _ => rfl
    | cons p partitions ih =>
      intro hplaced
      obtain ⟨hp, hrest⟩ := List.forall_mem_cons.mp hplaced
      rw [List.flatMap_cons, List.filterMap_append, ← ih hrest, ReplayQuery.selectedPartitions,
        List.filter_cons]
      split
      · rw [List.flatMap_cons, List.filterMap_append, ReplayQuery.selectedPartitions]
      · next hskip =>
        have hnone : p.rows.filterMap (wanted query checkpoint) = [] := by
          rw [List.filterMap_eq_nil_iff]
          intro row hrow
          refine wanted_eq_none_of_not_allowed ?_
          rw [(hp row hrow).1, (hp row hrow).2]
          simpa using hskip
        rw [hnone, List.nil_append, ReplayQuery.selectedPartitions]
  exact hpart build.partitions build.placed

theorem mem_rows_of_mem_selectedPartitions
    (h : row ∈ (query.selectedPartitions build.partitions).flatMap Partition.rows) :
    row ∈ build.rows := by
  obtain ⟨p, hp, hrow⟩ := List.mem_flatMap.mp h
  exact List.mem_flatMap.mpr ⟨p, List.mem_of_mem_filter hp, hrow⟩

/-- A replay that returns is the sorted list of the documents that the query asks for. -/
theorem replay_eq_ok (h : replay runSize fanIn build query = .ok events) :
    ∃ checkpoint, query.checkpointFor build.checkpoints = .ok checkpoint ∧
      events = (sorted ReplayDocument.orderKey (wantedDocuments build query checkpoint)).map
        (eventOf build query) := by
  obtain ⟨checkpoint, hcheckpoint, h⟩ := except_bind_eq_ok h
  obtain ⟨found, hfound, h⟩ := except_bind_eq_ok h
  refine ⟨checkpoint, hcheckpoint, ?_⟩
  have hmap := Fallible.mapM_eq_map (fun row _ document hrow => selectRow_eq_ok hrow) hfound
  have hreduce : ∀ documents : List (Option ReplayDocument),
      documents.reduceOption = documents.filterMap id := fun _ => rfl
  rw [← Except.ok.inj h, externalSort_eq, hmap, hreduce, List.filterMap_map, Function.id_comp,
    filterMap_selectedPartitions]

/-- The rows that a replay reads, in order. -/
def readRows (build : OpenedBuild) (query : ReplayQuery) : List ReplayRow :=
  (query.selectedPartitions build.partitions).flatMap Partition.rows

/-- A replay raises for its checkpoint, or for the first row that it cannot read. -/
theorem replay_error_iff {e : String} :
    replay runSize fanIn build query = .error e ↔
      query.checkpointFor build.checkpoints = .error e ∨
      ∃ checkpoint, query.checkpointFor build.checkpoints = .ok checkpoint ∧
        ∃ before row after, readRows build query = before ++ row :: after ∧
          selectRow build.summary.datasetVersion query checkpoint row = .error e ∧
          ∀ earlier ∈ before, ∃ document,
            selectRow build.summary.datasetVersion query checkpoint earlier = .ok document := by
  unfold replay
  cases hcheckpoint : query.checkpointFor build.checkpoints with
  | error e' =>
    constructor
    · intro h
      exact Or.inl (congrArg Except.error (Except.error.inj h))
    · rintro (h | ⟨_, h, -⟩)
      · exact congrArg Except.error (Except.error.inj h)
      · cases h
  | ok checkpoint =>
    have hrows : (readRows build query).mapM
        (selectRow build.summary.datasetVersion query checkpoint) = .error e ↔ _ :=
      Fallible.mapM_eq_error_iff
    simp only [bind, Except.bind]
    constructor
    · intro h
      refine Or.inr ⟨checkpoint, rfl, hrows.mp ?_⟩
      show ((query.selectedPartitions build.partitions).flatMap Partition.rows).mapM _ = _
      split at h
      · next hfound => rw [hfound, Except.error.inj h]
      · cases h
    · rintro (h | ⟨_, h, hsplit⟩)
      · cases h
      · obtain rfl := Except.ok.inj h
        have hfound := hrows.mpr hsplit
        unfold readRows at hfound
        rw [hfound]

theorem place_of_orderKey_eq {row' : ReplayRow} {t t' : Nat}
    (h : orderKey query.clock t row = orderKey query.clock t' row') : row.place = row'.place := by
  simp only [orderKey, EmbeddingLike.apply_eq_iff_eq, Prod.mk.injEq] at h
  obtain ⟨-, -, -, -, -, -, -, -, -, hchunk, hrecord, hsubrecord, -⟩ := h
  rw [ReplayRow.place, ReplayRow.place, hchunk, hrecord, hsubrecord]

theorem exists_of_wanted {document : ReplayDocument}
    (h : wanted query checkpoint row = some document) :
    ∃ reading, document = documentOf query reading row ∧ expectedReading query row = some reading ∧
      query.matchesRow row = true ∧ query.inRange reading.eventTimeNs = true ∧
      continuesCheckpoint checkpoint row = true ∧
      ¬ (row.unreliable = true ∧ query.gapPolicy = .exclude) := by
  unfold wanted at h
  split at h
  · next hmatch =>
    obtain ⟨reading, hreading, h⟩ := Option.bind_eq_some_iff.mp h
    split at h
    · next hkeep => exact ⟨reading, (Option.some.inj h).symm, hreading, hmatch, hkeep⟩
    · cases h
  · cases h

/-- The order key of a document identifies it. -/
theorem wantedDocuments_identified (build : OpenedBuild) (query : ReplayQuery)
    (checkpoint : Option CheckpointDescriptor) :
    ∀ d ∈ wantedDocuments build query checkpoint, ∀ d' ∈ wantedDocuments build query checkpoint,
      d.orderKey = d'.orderKey → d = d' := by
  intro d hd d' hd' hkey
  obtain ⟨row, hrow, hwanted⟩ := List.mem_filterMap.mp hd
  obtain ⟨row', hrow', hwanted'⟩ := List.mem_filterMap.mp hd'
  obtain ⟨reading, rfl, -⟩ := exists_of_wanted hwanted
  obtain ⟨reading', rfl, -⟩ := exists_of_wanted hwanted'
  obtain rfl := OpenedBuild.row_inj hrow hrow' (place_of_orderKey_eq hkey)
  exact Option.some.inj (hwanted.symm.trans hwanted')

/-! ## The contract of a replay -/

/-- The same build, its partitions in another order. -/
structure SameContent (build build' : OpenedBuild) : Prop where
  summary : build'.summary = build.summary
  checkpoints : build'.checkpoints = build.checkpoints
  partitions : build'.partitions.Perm build.partitions

theorem SameContent.symm {build' : OpenedBuild} (h : SameContent build build') :
    SameContent build' build :=
  ⟨h.summary.symm, h.checkpoints.symm, h.partitions.symm⟩

/-- A replay that returns does not see the order of the partitions, the run size and the fan-in. -/
theorem replay_of_sameContent {build' : OpenedBuild} (hsame : SameContent build build')
    (h : replay runSize fanIn build query = .ok events) (runSize' : Nat) (fanIn' : FanIn) :
    replay runSize' fanIn' build' query = .ok events := by
  obtain ⟨checkpoint, hcheckpoint, rfl⟩ := replay_eq_ok h
  obtain ⟨first, hfirst, h⟩ := except_bind_eq_ok h
  obtain ⟨found, hfound, -⟩ := except_bind_eq_ok h
  obtain rfl : checkpoint = first := Except.ok.inj (hcheckpoint.symm.trans hfirst)
  have hrows : ((query.selectedPartitions build'.partitions).flatMap Partition.rows).Perm
      ((query.selectedPartitions build.partitions).flatMap Partition.rows) :=
    (hsame.partitions.filter _).flatMap_right _
  obtain ⟨found', hfound', -⟩ := Fallible.mapM_perm hrows hfound
  have hreturns : ∃ events', replay runSize' fanIn' build' query = .ok events' := by
    rw [replay, hsame.checkpoints, hcheckpoint, hsame.summary]
    simp only [bind, Except.bind, hfound']
    exact ⟨_, rfl⟩
  obtain ⟨events', hevents'⟩ := hreturns
  obtain ⟨last, hlast, rfl⟩ := replay_eq_ok hevents'
  rw [hsame.checkpoints, hcheckpoint] at hlast
  obtain rfl := Except.ok.inj hlast
  have hperm : (wantedDocuments build' query checkpoint).Perm
      (wantedDocuments build query checkpoint) :=
    (hsame.partitions.flatMap_right _).filterMap _
  have hevent : eventOf build' query = eventOf build query := by
    funext document
    simp only [eventOf, hsame.summary]
  rw [hevents', sorted_eq_of_perm hperm.symm (wantedDocuments_identified build query checkpoint),
    hevent]

/-- Why a row stops a replay: it is of another dataset; it has no exchange clock where the policy
asks for one; or it is in range and has no place behind the checkpoint, or its source is unreliable
where the policy does not allow that. -/
inductive RowError (datasetVersion : String) (query : ReplayQuery)
    (checkpoint : Option CheckpointDescriptor) (row : ReplayRow) : String → Prop
  | version (h : row.datasetVersion ≠ datasetVersion) :
    RowError datasetVersion query checkpoint row "normalized row dataset version mismatch"
  | clock {e : String} (hmatch : query.matchesRow row = true) (hclock : query.clock = .exchangeTime)
      (hnone : row.exchangeClock = none) (hmissing : query.missingExchangeTime = .error)
      (he : resolveClock query.clock query.missingExchangeTime row = .error e) :
    RowError datasetVersion query checkpoint row e
  | checkpoint {reading : ClockReading} (hmatch : query.matchesRow row = true)
      (hreading : expectedReading query row = some reading)
      (hrange : query.inRange reading.eventTimeNs = true) (hseek : checkpoint.isSome = true)
      (hid : row.finalUpdateId = none) :
    RowError datasetVersion query checkpoint row
      "checkpoint seek encountered depth data without final_update_id"
  | unreliable {reading : ClockReading} (hmatch : query.matchesRow row = true)
      (hreading : expectedReading query row = some reading)
      (hrange : query.inRange reading.eventTimeNs = true)
      (hcontinues : continuesCheckpoint checkpoint row = true) (hunreliable : row.unreliable = true)
      (hpolicy : query.gapPolicy = .error) :
    RowError datasetVersion query checkpoint row
      "selected replay range contains unreliable source data"

/-- The row matches, its stream has no clock entry, and the query has a policy for such rows. -/
def Unlisted (query : ReplayQuery) (row : ReplayRow) : Prop :=
  query.clock = .exchangeTime ∧ query.missingExchangeTime ≠ .error ∧ query.matchesRow row = true ∧
    exchangeFields.lookup row.stream = none

/-- A row stops the reading loop for one of the reasons, or because its stream has no
clock entry. -/
theorem rowError_or_unlisted {datasetVersion e : String}
    (h : selectRow datasetVersion query checkpoint row = .error e) :
    RowError datasetVersion query checkpoint row e ∨
      Unlisted query row ∧ e = "unsupported stream event clock" := by
  unfold selectRow at h
  split at h
  · next hversion =>
    obtain rfl := Except.error.inj h
    exact Or.inl (.version hversion)
  split at h
  · cases h
  next hmatch =>
  have hmatch : query.matchesRow row = true := by simpa using hmatch
  split at h
  · next e' he =>
    obtain rfl : e' = e := Except.error.inj h
    -- the clock raises: under `ERROR`, or before it looks at the policy
    cases hclock : query.clock with
    | receiveTime =>
      rw [hclock] at he
      cases he
    | exchangeTime =>
      cases hfields : exchangeFields.lookup row.stream with
      | none =>
        have hnone : row.exchangeClock = none := by rw [ReplayRow.exchangeClock, hfields]; rfl
        by_cases hmissing : query.missingExchangeTime = .error
        · exact Or.inl (.clock hmatch hclock hnone hmissing he)
        · rw [resolveClock_of_unlisted hclock hfields] at he
          exact Or.inr ⟨⟨hclock, hmissing, hmatch, hfields⟩, (Except.error.inj he).symm⟩
      | some fields =>
        have hlisted := resolveClock_of_listed hclock hfields
        cases hexchange : row.exchangeClock with
        | some eventTimeNs =>
          rw [hlisted, hexchange] at he
          cases he
        | none =>
          cases hmissing : query.missingExchangeTime with
          | error => exact Or.inl (.clock hmatch hclock hexchange hmissing he)
          | exclude | fallbackReceive =>
            rw [hlisted, hexchange, hmissing] at he
            cases he
  · cases h
  · next reading hreading =>
    have hexpected := (resolveClock_eq_ok hreading).symm
    split at h
    · cases h
    next hrange =>
    have hrange : query.inRange reading.eventTimeNs = true := by simpa using hrange
    split at h
    · next e' hafter =>
      obtain rfl : e' = e := Except.error.inj h
      unfold afterCheckpoint at hafter
      cases checkpoint with
      | none => cases hafter
      | some c =>
        cases hid : row.finalUpdateId with
        | some id =>
          simp only [hid] at hafter
          cases hafter
        | none =>
          simp only [hid] at hafter
          obtain rfl := Except.error.inj hafter
          exact Or.inl (.checkpoint hmatch hexpected hrange rfl hid)
    · cases h
    · next hafter =>
      split at h
      · next hgap =>
        obtain rfl := Except.error.inj h
        exact Or.inl (.unreliable hmatch hexpected hrange (afterCheckpoint_eq_ok hafter).symm hgap.1
          hgap.2)
      split at h <;> cases h

/-- A row that has a reason to stop the replay stops it. -/
theorem RowError.selectRow {datasetVersion e : String}
    (h : RowError datasetVersion query checkpoint row e) :
    ¬ ∃ document, selectRow datasetVersion query checkpoint row = .ok document := by
  rintro ⟨document, hdocument⟩
  unfold MarketDataRecorder.selectRow at hdocument
  split at hdocument
  · cases hdocument
  next hversion =>
  cases h with
  | version h => exact hversion h
  | clock hmatch _ _ _ he =>
    rw [if_neg (by simp [hmatch]), he] at hdocument
    cases hdocument
  | checkpoint hmatch hreading hrange hseek hid =>
    rw [if_neg (by simp [hmatch])] at hdocument
    split at hdocument
    · cases hdocument
    · next hnone =>
      rw [← resolveClock_eq_ok hnone] at hreading
      cases hreading
    · next reading hsome =>
      rw [← resolveClock_eq_ok hsome] at hreading
      obtain rfl := Option.some.inj hreading
      obtain ⟨c, rfl⟩ := Option.isSome_iff_exists.mp hseek
      rw [if_neg (by simp [hrange])] at hdocument
      simp only [afterCheckpoint, hid] at hdocument
      cases hdocument
  | unreliable hmatch hreading hrange hcontinues hunreliable hpolicy =>
    rw [if_neg (by simp [hmatch])] at hdocument
    split at hdocument
    · cases hdocument
    · next hnone =>
      rw [← resolveClock_eq_ok hnone] at hreading
      cases hreading
    · next reading hsome =>
      rw [← resolveClock_eq_ok hsome] at hreading
      obtain rfl := Option.some.inj hreading
      rw [if_neg (by simp [hrange])] at hdocument
      split at hdocument
      · cases hdocument
      · next hafter =>
        rw [← afterCheckpoint_eq_ok hafter] at hcontinues
        cases hcontinues
      · rw [if_pos ⟨hunreliable, hpolicy⟩] at hdocument
        cases hdocument

theorem selectRow_of_unlisted {datasetVersion : String} (h : Unlisted query row)
    (hversion : row.datasetVersion = datasetVersion) :
    selectRow datasetVersion query checkpoint row = .error "unsupported stream event clock" := by
  obtain ⟨hclock, -, hmatch, hfields⟩ := h
  unfold selectRow
  rw [if_neg (not_not.mpr hversion), if_neg (by simp [hmatch]),
    resolveClock_of_unlisted hclock hfields]

/-- Under a policy no reason of a row is a missing clock entry. -/
theorem RowError.text_ne {datasetVersion e : String}
    (h : RowError datasetVersion query checkpoint row e)
    (hmissing : query.missingExchangeTime ≠ .error) : e ≠ "unsupported stream event clock" := by
  cases h with
  | version => decide
  | clock _ _ _ herror => exact absurd herror hmissing
  | checkpoint => decide
  | unreliable => decide

/--
What a replay promises. It yields every row that the query asks for once, with the reading that the
clock and the policy give it, in ascending order; the order of the partitions, the run size and the
fan-in do not matter. It returns unless its checkpoint is refused or a row stops it for one of the
reasons; a row without an exchange clock is none of them under a policy: it is left out, or put at
its receive time and marked.
-/
structure ReplayContract (build : OpenedBuild) (query : ReplayQuery) : Prop where
  complete : ∀ runSize fanIn events checkpoint, replay runSize fanIn build query = .ok events →
    query.checkpointFor build.checkpoints = .ok checkpoint →
    (events.map fun e => orderKey query.clock e.eventTimeNs e.row).Pairwise (· < ·) ∧
      (events.map ReplayEvent.row).Perm
        (build.rows.filter fun row => (wanted query checkpoint row).isSome) ∧
      ∀ e ∈ events, expectedReading query e.row = some ⟨e.eventTimeNs, e.usedReceiveTimeFallback⟩
  independent : ∀ runSize fanIn runSize' fanIn' build', SameContent build build' →
    (replay runSize' fanIn' build' query).toOption = (replay runSize fanIn build query).toOption
  raises : ∀ runSize fanIn e, replay runSize fanIn build query = .error e →
    query.checkpointFor build.checkpoints = .error e ∨
      ∃ checkpoint, query.checkpointFor build.checkpoints = .ok checkpoint ∧ ∃ row ∈ build.rows,
        RowError build.summary.datasetVersion query checkpoint row e
  returns : ∀ runSize fanIn checkpoint, query.checkpointFor build.checkpoints = .ok checkpoint →
    (∀ row ∈ build.rows, ∀ e, ¬ RowError build.summary.datasetVersion query checkpoint row e) →
    ∃ events, replay runSize fanIn build query = .ok events
  excluded : query.clock = .exchangeTime → query.missingExchangeTime = .exclude →
    ∀ runSize fanIn events, replay runSize fanIn build query = .ok events →
      ∀ e ∈ events, e.row.exchangeClock ≠ none
  fallback : query.clock = .exchangeTime → query.missingExchangeTime = .fallbackReceive →
    ∀ runSize fanIn events checkpoint, replay runSize fanIn build query = .ok events →
      query.checkpointFor build.checkpoints = .ok checkpoint →
      ∀ row ∈ build.rows, query.matchesRow row = true → row.exchangeClock = none →
        query.inRange row.receiveTimeUtcNs = true → continuesCheckpoint checkpoint row = true →
        ¬ (row.unreliable = true ∧ query.gapPolicy = .exclude) →
        ∃ e ∈ events, e.row = row ∧ e.eventTimeNs = row.receiveTimeUtcNs ∧
          e.usedReceiveTimeFallback = true

theorem pairwise_lt_of_identified {κ α : Type} [LinearOrder κ] {key : α → κ} {items : List α}
    (hle : items.Pairwise (key · ≤ key ·)) (hnodup : items.Nodup)
    (hinj : ∀ a ∈ items, ∀ b ∈ items, key a = key b → a = b) :
    items.Pairwise (key · < key ·) := by
  refine List.Pairwise.imp_of_mem ?_ (hle.and hnodup)
  rintro a b ha hb ⟨hab, hne⟩
  exact lt_of_le_of_ne hab fun h => hne (hinj a ha b hb h)

theorem nodup_wantedDocuments (build : OpenedBuild) (query : ReplayQuery)
    (checkpoint : Option CheckpointDescriptor) :
    (wantedDocuments build query checkpoint).Nodup := by
  refine List.Nodup.filterMap ?_ (List.Nodup.of_map _ build.places_nodup)
  intro row row' document hwanted hwanted'
  obtain ⟨reading, hdocument, -⟩ := exists_of_wanted hwanted
  obtain ⟨reading', hdocument', -⟩ := exists_of_wanted hwanted'
  rw [hdocument] at hdocument'
  exact congrArg ReplayDocument.row hdocument'

theorem replay_complete (h : replay runSize fanIn build query = .ok events)
    (hcheckpoint : query.checkpointFor build.checkpoints = .ok checkpoint) :
    (events.map fun e => orderKey query.clock e.eventTimeNs e.row).Pairwise (· < ·) ∧
      (events.map ReplayEvent.row).Perm
        (build.rows.filter fun row => (wanted query checkpoint row).isSome) ∧
      ∀ e ∈ events, expectedReading query e.row =
        some ⟨e.eventTimeNs, e.usedReceiveTimeFallback⟩ := by
  obtain ⟨checkpoint', hcheckpoint', rfl⟩ := replay_eq_ok h
  obtain rfl : checkpoint' = checkpoint := Except.ok.inj (hcheckpoint'.symm.trans hcheckpoint)
  have hmem : ∀ d ∈ sorted ReplayDocument.orderKey (wantedDocuments build query checkpoint'),
      ∃ row reading, row ∈ build.rows ∧ d = documentOf query reading row ∧
        expectedReading query row = some reading := by
    intro d hd
    obtain ⟨row, hrow, hwanted⟩ := List.mem_filterMap.mp (mem_sorted.mp hd)
    obtain ⟨reading, hdocument, hreading, -⟩ := exists_of_wanted hwanted
    exact ⟨row, reading, hrow, hdocument, hreading⟩
  refine ⟨?_, ?_, ?_⟩
  · rw [List.map_map, List.pairwise_map]
    have hlt := pairwise_lt_of_identified (pairwise_sorted _)
      ((sorted_perm _).nodup_iff.mpr (nodup_wantedDocuments build query checkpoint'))
      (fun d hd d' hd' => wantedDocuments_identified build query checkpoint' d (mem_sorted.mp hd) d'
        (mem_sorted.mp hd'))
    refine List.Pairwise.imp_of_mem ?_ hlt
    intro d d' hd hd' hdd'
    obtain ⟨row, reading, -, rfl, -⟩ := hmem d hd
    obtain ⟨row', reading', -, rfl, -⟩ := hmem d' hd'
    exact hdd'
  · rw [List.map_map]
    refine ((sorted_perm _).map _).trans (List.Perm.of_eq ?_)
    rw [wantedDocuments, List.map_filterMap]
    have hrow : ∀ row, (wanted query checkpoint' row).map (ReplayEvent.row ∘ eventOf build query) =
        if (wanted query checkpoint' row).isSome then some row else none := by
      intro row
      cases hwanted : wanted query checkpoint' row with
      | none => rfl
      | some d =>
        obtain ⟨reading, rfl, -⟩ := exists_of_wanted hwanted
        rfl
    simp only [hrow]
    exact List.filterMap_eq_filter.symm ▸ rfl
  · intro e he
    obtain ⟨d, hd, rfl⟩ := List.mem_map.mp he
    obtain ⟨row, reading, -, rfl, hreading⟩ := hmem d hd
    exact hreading

theorem replay_independent {build' : OpenedBuild} {runSize' : Nat} {fanIn' : FanIn}
    (hsame : SameContent build build') :
    (replay runSize' fanIn' build' query).toOption =
      (replay runSize fanIn build query).toOption := by
  cases hreplay : replay runSize fanIn build query with
  | ok events => rw [replay_of_sameContent hsame hreplay runSize' fanIn']
  | error e =>
    cases hreplay' : replay runSize' fanIn' build' query with
    | ok events =>
      have hback := replay_of_sameContent hsame.symm hreplay' runSize fanIn
      rw [hreplay] at hback
      cases hback
    | error e' => rfl

/-- No event has a row without an exchange clock where such rows are excluded. -/
theorem exchangeClock_ne_none (h : replay runSize fanIn build query = .ok events)
    (hclock : query.clock = .exchangeTime) (hmissing : query.missingExchangeTime = .exclude)
    {e : ReplayEvent} (he : e ∈ events) : e.row.exchangeClock ≠ none := by
  intro hnone
  obtain ⟨checkpoint, hcheckpoint, -⟩ := replay_eq_ok h
  have hreading := (replay_complete h hcheckpoint).2.2 e he
  simp [expectedReading, hclock, hmissing, hnone] at hreading

/-- A row without an exchange clock that is in range is put at its receive time, and marked. -/
theorem exists_fallback (h : replay runSize fanIn build query = .ok events)
    (hcheckpoint : query.checkpointFor build.checkpoints = .ok checkpoint)
    (hclock : query.clock = .exchangeTime) (hmissing : query.missingExchangeTime = .fallbackReceive)
    (hrow : row ∈ build.rows) (hmatch : query.matchesRow row = true)
    (hnone : row.exchangeClock = none) (hrange : query.inRange row.receiveTimeUtcNs = true)
    (hcontinues : continuesCheckpoint checkpoint row = true)
    (hkeep : ¬ (row.unreliable = true ∧ query.gapPolicy = .exclude)) :
    ∃ e ∈ events, e.row = row ∧ e.eventTimeNs = row.receiveTimeUtcNs ∧
      e.usedReceiveTimeFallback = true := by
  obtain ⟨-, hperm, hreadings⟩ := replay_complete h hcheckpoint
  have hreading : expectedReading query row = some ⟨row.receiveTimeUtcNs, true⟩ := by
    simp [expectedReading, hclock, hmissing, hnone]
  have hwanted : (wanted query checkpoint row).isSome = true := by
    rw [wanted, if_pos hmatch, hreading, Option.bind_some, if_pos ⟨hrange, hcontinues, hkeep⟩]
    rfl
  obtain ⟨e, he, rfl⟩ := List.mem_map.mp
    (hperm.mem_iff.mpr (List.mem_filter.mpr ⟨hrow, hwanted⟩))
  have hsame := hreadings e he
  rw [hreading] at hsame
  have hclockReading := Option.some.inj hsame
  exact ⟨e, he, rfl, (congrArg ClockReading.eventTimeNs hclockReading).symm,
    (congrArg ClockReading.usedReceiveTimeFallback hclockReading).symm⟩

/--
A replay keeps its contract exactly where every row that it reads of a stream without a clock entry,
with the exchange clock and a policy other than an error, comes behind a row that stops the replay
for another reason.
-/
theorem replayContract_iff (build : OpenedBuild) (query : ReplayQuery) :
    ReplayContract build query ↔
      ∀ checkpoint, query.checkpointFor build.checkpoints = .ok checkpoint →
        ∀ before row after, readRows build query = before ++ row :: after →
          Unlisted query row → row.datasetVersion = build.summary.datasetVersion →
          ∃ earlier ∈ before, ∃ e,
            RowError build.summary.datasetVersion query checkpoint earlier e := by
  constructor
  · intro h checkpoint hcheckpoint before row after hsplit hunlisted hversion
    by_contra hnot
    -- the first row that stops the replay has no clock entry
    obtain ⟨first, stop, rest, hfirst, hstop, hearlier⟩ :
        ∃ first stop rest, readRows build query = first ++ stop :: rest ∧
          selectRow build.summary.datasetVersion query checkpoint stop =
            .error "unsupported stream event clock" ∧
          ∀ earlier ∈ first, ∃ document,
            selectRow build.summary.datasetVersion query checkpoint earlier = .ok document := by
      cases hfound : before.mapM (selectRow build.summary.datasetVersion query checkpoint) with
      | ok found =>
        exact ⟨before, row, after, hsplit, selectRow_of_unlisted hunlisted hversion,
          fun earlier hmem => Fallible.exists_of_mapM_ok hfound hmem⟩
      | error e =>
        obtain ⟨first, stop, rest, rfl, hstop, hearlier⟩ := Fallible.mapM_eq_error_iff.mp hfound
        rcases rowError_or_unlisted hstop with hrow | ⟨-, rfl⟩
        · exact absurd ⟨stop, by simp, e, hrow⟩ hnot
        · exact ⟨first, stop, rest ++ row :: after, by simpa using hsplit, hstop, hearlier⟩
    have hreplay : replay 1 ⟨2, le_refl 2⟩ build query = .error "unsupported stream event clock" :=
      replay_error_iff.mpr
        (Or.inr ⟨checkpoint, hcheckpoint, first, stop, rest, hfirst, hstop, hearlier⟩)
    rcases h.raises 1 ⟨2, le_refl 2⟩ _ hreplay with hrefused | ⟨_, -, other, -, herror⟩
    · rw [hcheckpoint] at hrefused
      cases hrefused
    · exact herror.text_ne hunlisted.2.1 rfl
  · intro h
    have hraises : ∀ runSize fanIn e, replay runSize fanIn build query = .error e →
        query.checkpointFor build.checkpoints = .error e ∨
          ∃ checkpoint, query.checkpointFor build.checkpoints = .ok checkpoint ∧ ∃ row ∈ build.rows,
            RowError build.summary.datasetVersion query checkpoint row e := by
      intro runSize fanIn e hreplay
      rcases replay_error_iff.mp hreplay with
        hrefused | ⟨checkpoint, hcheckpoint, before, row, after, hsplit, herror, hbefore⟩
      · exact Or.inl hrefused
      · have hrow : row ∈ build.rows :=
          mem_rows_of_mem_selectedPartitions (show row ∈ readRows build query by simp [hsplit])
        refine Or.inr ⟨checkpoint, hcheckpoint, row, hrow, ?_⟩
        rcases rowError_or_unlisted herror with hreason | ⟨hunlisted, rfl⟩
        · exact hreason
        · by_cases hversion : row.datasetVersion = build.summary.datasetVersion
          · obtain ⟨earlier, hmem, e, hreason⟩ :=
              h checkpoint hcheckpoint before row after hsplit hunlisted hversion
            exact absurd (hbefore earlier hmem) hreason.selectRow
          · rw [selectRow, if_pos hversion] at herror
            exact absurd (Except.error.inj herror) (by decide)
    refine ⟨?_, ?_, hraises, ?_, ?_, ?_⟩
    · intro runSize fanIn events checkpoint hreplay hcheckpoint
      exact replay_complete hreplay hcheckpoint
    · intro runSize fanIn runSize' fanIn' build' hsame
      exact replay_independent hsame
    · intro runSize fanIn checkpoint hcheckpoint hnone
      cases hreplay : replay runSize fanIn build query with
      | ok events => exact ⟨events, rfl⟩
      | error e =>
        rcases hraises runSize fanIn e hreplay with hrefused | ⟨other, hother, row, hrow, hreason⟩
        · rw [hcheckpoint] at hrefused
          cases hrefused
        · obtain rfl : checkpoint = other := Except.ok.inj (hcheckpoint.symm.trans hother)
          exact absurd hreason (hnone row hrow e)
    · intro hclock hmissing runSize fanIn events hreplay e he
      exact exchangeClock_ne_none hreplay hclock hmissing he
    · intro hclock hmissing runSize fanIn events checkpoint hreplay hcheckpoint row
        hrow hmatch hnone
        hrange hcontinues hkeep
      exact exists_fallback hreplay hcheckpoint hclock hmissing hrow hmatch hnone hrange
        hcontinues hkeep

end

/-- A row of a USD-M stream, with the integer columns given. -/
def sampleRow (stream : String) (ordinal : Nat) (integers : List (String × Nat)) : ReplayRow where
  datasetVersion := "normalized-dataset.v2"
  market := "um_perpetual"
  stream := stream
  symbol := "BTCUSDT"
  collectorInstanceId := "collector"
  connectionId := "connection"
  receiveTimeUtcNs := 1000 + ordinal
  receiveMonotonicNs := ordinal
  sourceSequenceJson := "\x7b\x7d"
  sourceChunkSha256 := "hash"
  sourceRecordOrdinal := ordinal
  sourceSubrecordOrdinal := 0
  logicalRecordSha256 := "logical"
  sourceGap := false
  sourceComplete := true
  integers := integers
  columns := .dict []

/-- A build of one row: a five-minute basis observation. -/
def basisBuild : OpenedBuild where
  summary := ⟨"build", "normalized-dataset.v2"⟩
  partitions := [⟨"um_perpetual", "basis_5m", [sampleRow "basis_5m" 0 [("timestamp_ms", 1)]]⟩]
  checkpoints := []
  placed := by simp [sampleRow]
  places_nodup := by simp

theorem openRange : ∀ first ∈ (none : Option Nat), ∀ last ∈ (none : Option Nat), first < last := by
  decide

def excludeQuery : ReplayQuery where
  clock := .exchangeTime
  missingExchangeTime := .exclude
  range := openRange

/-- The row is not excluded: its stream has no clock entry, and it stops the replay. -/
theorem basis_row_raises : ¬ ReplayContract basisBuild excludeQuery ∧
    replay 10000 ⟨32, by decide⟩ basisBuild excludeQuery =
      .error "unsupported stream event clock" := by
  have hreplay : replay 10000 ⟨32, by decide⟩ basisBuild excludeQuery =
      .error "unsupported stream event clock" := rfl
  refine ⟨fun h => ?_, hreplay⟩
  rcases h.raises 10000 ⟨32, by decide⟩ _ hreplay with hrefused | ⟨_, -, row, -, hreason⟩
  · cases hrefused
  · exact hreason.text_ne (by decide) rfl

end MarketDataRecorder
