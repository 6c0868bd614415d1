import MarketDataRecorder.Metrics.BatchReader
import MarketDataRecorder.Metrics.MadeOperations
import MarketDataRecorder.Spool.ReferenceCodec

/-!
# Where the flushes of a day fall

The calls of a day are cut into parts, each with a flush behind it that commits. A report merges the
batches in the order of their identities, which is not the order they were made in. Of what it
merges only the gauges depend on that order, and on the samples: a sample goes into the aggregates
in memory, which are fewer behind a flush.

* `FlushIndependent` — the report has what the calls come to without a flush
* `flush_independent_iff` — exactly when it has
-/

namespace MarketDataRecorder

open MetricAggregate MetricAggregates MetricsRecorder

section

variable {ν : Type} (numbers : GaugeNumbers ν)

/-! ## A day -/

/-- What calls observe. -/
def observationsOf (calls : List (MetricCall ν)) : List (MetricObservation ν) :=
  calls.filterMap fun c => (Step.call c .commits).observation numbers

/-- Calls with a flush behind each part of them. -/
def daySteps (parts : List (List (MetricCall ν))) : List (Step ν) :=
  parts.flatMap fun calls => calls.map (fun c => .call c .commits) ++ [.flush .commits]

/-- The calls observe a day, under names that `record_metric_batch` takes. -/
def OfDay (day : Int) (parts : List (List (MetricCall ν))) : Prop :=
  ∀ calls ∈ parts, ∀ o ∈ observationsOf numbers calls,
    o.day = day ∧ o.market ≠ "" ∧ o.stream ≠ ""

variable [LinearOrder ν] (batchIds : Nat → String)

/-- The table at the end of the day. -/
def dayTable (parts : List (List (MetricCall ν))) : List MetricRow :=
  (run numbers batchIds {} (daySteps parts)).table

/-- The observations of the batches: a flush with nothing in memory makes none. -/
def batchParts (parts : List (List (MetricCall ν))) : List (List (MetricObservation ν)) :=
  (parts.map (observationsOf numbers)).filter fun os => !os.isEmpty

/-- **A recorder during a day**, behind batches and with observations in memory. -/
structure DayState (day : Int) (parts : List (List (MetricObservation ν)))
    (pending : List (MetricObservation ν)) (r : MetricsRecorder ν) : Prop where
  aggregates : r.aggregates = observeAll pending
  batch : r.batch = parts.length
  table : r.table = committedRows numbers batchIds 0 parts
  latest : r.latestUtcDay = none ∨ r.latestUtcDay = some day

variable {numbers batchIds} {day : Int} {parts : List (List (MetricObservation ν))}
  {pending : List (MetricObservation ν)} {r : MetricsRecorder ν}

theorem DayState.call (h : DayState numbers batchIds day parts pending r) (c : MetricCall ν)
    (hday : ∀ o ∈ observationsOf numbers [c], o.day = day) :
    DayState numbers batchIds day parts (pending ++ observationsOf numbers [c])
      (after (r.step numbers batchIds (.call c .commits))) := by
  rw [observationsOf, List.filterMap_cons, List.filterMap_nil, Step.observation] at hday ⊢
  rw [MetricsRecorder.step]
  cases hcall : c.observation numbers with
  | error message => simpa [hcall, after] using h
  | ok observed =>
    cases observed with
    | none => simpa [hcall, after] using h
    | some o =>
      simp only [hcall, List.mem_singleton, forall_eq] at hday
      have hrolled : r.rolloverIfNeeded numbers batchIds .commits o.day =
          .ok { r with latestUtcDay := some day } := by
        rw [rolloverIfNeeded]
        rcases h.latest with hnone | hsome
        · rw [hnone, hday]
        · rw [hsome]
          simp only [hday, le_refl, if_true]
          rw [← hsome]
      have hobserved : DayState numbers batchIds day parts (pending ++ [o])
          { r with
            latestUtcDay := some day
            aggregates := (MetricAggregates.observe r.aggregates o).2 } :=
        ⟨by rw [observeAll_append, ← h.aggregates], h.batch, h.table, Or.inr rfl⟩
      simp only [MetricsRecorder.observe, hrolled]
      split <;> exact hobserved

theorem DayState.calls : ∀ {calls : List (MetricCall ν)} {pending : List (MetricObservation ν)}
    {r : MetricsRecorder ν}, DayState numbers batchIds day parts pending r →
    (∀ o ∈ observationsOf numbers calls, o.day = day) →
    DayState numbers batchIds day parts (pending ++ observationsOf numbers calls)
      (r.run numbers batchIds (calls.map fun c => .call c .commits))
  | [], pending, r, h, _ => by simpa [observationsOf, MetricsRecorder.run] using h
  | c :: calls, pending, r, h, hday => by
    have hsplit : observationsOf numbers (c :: calls) =
        observationsOf numbers [c] ++ observationsOf numbers calls := by
      rw [observationsOf, observationsOf, observationsOf, ← List.filterMap_append]
      rfl
    rw [hsplit, List.forall_mem_append] at hday
    rw [hsplit, ← List.append_assoc]
    exact DayState.calls (h.call c hday.1) hday.2

/-- A flush makes a batch of what is in memory. -/
theorem DayState.flush (hids : Function.Injective batchIds) (hnames : ∀ n, batchIds n ≠ "")
    (h : DayState numbers batchIds day parts pending r)
    (hnamed : ∀ o ∈ pending, o.market ≠ "" ∧ o.stream ≠ "") :
    DayState numbers batchIds day (parts ++ [pending].filter fun os => !os.isEmpty) []
      (after (r.flush numbers batchIds .commits)) := by
  cases hpending : pending with
  | nil =>
    have hempty : r.aggregates.items = [] := by
      rw [h.aggregates, hpending]
      rfl
    rw [MetricsRecorder.flush, if_pos hempty]
    simpa [hpending, after] using h
  | cons first rest =>
    rw [← hpending]
    have hkey : ∀ item ∈ r.aggregates.items, item.1.market ≠ "" ∧ item.1.stream ≠ "" := by
      rintro ⟨key, a⟩ hitem
      have hget := SortedDict.get?_eq_some_iff.mpr hitem
      rw [h.aggregates, get?_observeAll] at hget
      split at hget
      · next hany =>
        obtain ⟨o, ho, hokey⟩ := List.any_eq_true.mp hany
        rw [of_decide_eq_true hokey]
        exact hnamed o ho
      · cases hget
    have hitems : r.aggregates.items ≠ [] := by
      intro hempty
      have hget : r.aggregates.get? first.key = none := by
        rw [SortedDict.get?, hempty]
        rfl
      rw [h.aggregates, get?_observeAll, hpending] at hget
      simp at hget
    -- The next batch is new, so this flush inserts.
    have hstored : r.stored batchIds = false :=
      not_stored_of_committedRows hids h.batch.ge h.table
    have hrows : (batchRows numbers r.aggregates).any (fun row => row.1.market = "" ∨
        row.1.stream = "") = false := by
      rw [List.any_eq_false]
      intro row hrow
      obtain ⟨item, hitem, rfl⟩ := List.mem_map.mp hrow
      simpa using hkey item hitem
    have hsome : batchRows numbers r.aggregates ≠ [] := by
      simpa [batchRows] using hitems
    have hflush : r.flush numbers batchIds .commits = .ok { r with
        aggregates := .empty
        batch := r.batch + 1
        table := r.tableWith numbers batchIds } := by
      rw [MetricsRecorder.flush, if_neg hitems, commitMetricBatch,
        if_neg (by simp [hnames, hsome]), if_neg (by simp only [hrows, Bool.false_eq_true,
          not_false_eq_true])]
      rfl
    have hfilter : ([pending].filter fun os => !os.isEmpty) = [pending] := by
      simp [hpending]
    rw [hflush, hfilter]
    refine ⟨rfl, ?_, ?_, h.latest⟩
    · simp only [after, List.length_append, List.length_singleton, h.batch]
    · simp only [after]
      rw [tableWith, hstored, if_neg Bool.false_ne_true, committedRows_append, zero_add, ← h.batch,
        ← h.aggregates, h.table]

theorem DayState.steps (hids : Function.Injective batchIds) (hnames : ∀ n, batchIds n ≠ "") :
    ∀ {later : List (List (MetricCall ν))} {parts : List (List (MetricObservation ν))}
      {r : MetricsRecorder ν}, DayState numbers batchIds day parts [] r → OfDay numbers day later →
      DayState numbers batchIds day (parts ++ batchParts numbers later) []
        (r.run numbers batchIds (daySteps later))
  | [], parts, r, h, _ => by simpa [batchParts, daySteps, MetricsRecorder.run] using h
  | calls :: later, parts, r, h, hday => by
    have hcalls : DayState numbers batchIds day parts ([] ++ observationsOf numbers calls)
        (r.run numbers batchIds (calls.map fun c => .call c .commits)) :=
      h.calls fun o ho => (hday calls List.mem_cons_self o ho).1
    rw [List.nil_append] at hcalls
    have hflushed := hcalls.flush hids hnames fun o ho =>
      (hday calls List.mem_cons_self o ho).2
    have hrest := hflushed.steps hids hnames fun others hothers =>
      hday others (List.mem_cons_of_mem _ hothers)
    have hparts : batchParts numbers (calls :: later) =
        ([observationsOf numbers calls].filter fun os => !os.isEmpty) ++
          batchParts numbers later := by
      rw [batchParts, batchParts, ← List.filter_append]
      rfl
    have hsteps : daySteps (calls :: later) =
        calls.map (fun c => .call c .commits) ++ [.flush .commits] ++ daySteps later :=
      List.flatMap_cons
    rw [hparts, ← List.append_assoc, hsteps, MetricsRecorder.run, List.foldl_append,
      List.foldl_append]
    exact hrest

/-- **The table of a day has a batch for each part that observes something.** -/
theorem dayTable_eq (hids : Function.Injective batchIds) (hnames : ∀ n, batchIds n ≠ "")
    {parts : List (List (MetricCall ν))} (hday : OfDay numbers day parts) :
    dayTable numbers batchIds parts = committedRows numbers batchIds 0
      (batchParts numbers parts) := by
  have hstart : DayState numbers batchIds day [] [] ({} : MetricsRecorder ν) :=
    ⟨rfl, rfl, rfl, Or.inl rfl⟩
  have hend := hstart.steps hids hnames hday
  rw [List.nil_append] at hend
  exact hend.table

/-! ## Reading -/

/-- Batches with their identities, the first of a number. -/
def batchesFrom (batchIds : Nat → String) :
    Nat → List (List (MetricObservation ν)) → List (String × List (MetricObservation ν))
  | _, [] => []
  | n, part :: parts => (batchIds n, part) :: batchesFrom batchIds (n + 1) parts

/-- Batches in the order of their identities. -/
def inIdOrder (batches : List (String × List (MetricObservation ν))) :
    List (String × List (MetricObservation ν)) :=
  KeysetPages.inKeyOrder Prod.fst batches

omit [LinearOrder ν] in
theorem mem_batchesFrom {batch : String × List (MetricObservation ν)} :
    ∀ {n : Nat} {parts : List (List (MetricObservation ν))},
      batch ∈ batchesFrom batchIds n parts → ∃ m, n ≤ m ∧ batch.1 = batchIds m
  | n, [], h => by cases h
  | n, part :: parts, h => by
    rcases List.mem_cons.mp h with rfl | h
    · exact ⟨n, le_rfl, rfl⟩
    · obtain ⟨m, hle, hid⟩ := mem_batchesFrom h
      exact ⟨m, by omega, hid⟩

omit [LinearOrder ν] in
theorem nodup_batchesFrom (hids : Function.Injective batchIds) :
    ∀ (n : Nat) (parts : List (List (MetricObservation ν))),
      ((batchesFrom batchIds n parts).map Prod.fst).Nodup
  | _, [] => List.nodup_nil
  | n, part :: parts => by
    rw [batchesFrom, List.map_cons, List.nodup_cons]
    refine ⟨fun hmem => ?_, nodup_batchesFrom hids (n + 1) parts⟩
    obtain ⟨batch, hbatch, hid⟩ := List.mem_map.mp hmem
    obtain ⟨m, hle, hm⟩ := mem_batchesFrom hbatch
    have := hids (hm.symm.trans hid)
    omega

omit [LinearOrder ν] in
theorem flatten_batchesFrom (batchIds : Nat → String) (n : Nat)
    (parts : List (List (MetricObservation ν))) :
    (batchesFrom batchIds n parts).flatMap Prod.snd = parts.flatten := by
  induction parts generalizing n with
  | nil => rfl
  | cons part parts ih => rw [batchesFrom, List.flatMap_cons, ih, List.flatten_cons]

/-- The row of a batch for a key. -/
def rowFor (numbers : GaugeNumbers ν) (key : MetricKey)
    (batch : String × List (MetricObservation ν)) : Option MetricRow :=
  ((observeAll batch.2).get? key).map fun a =>
    ⟨batch.1, key, Json.encodeValue (a.document numbers)⟩

/-- The rows of a key are those of the batches that have it. -/
theorem filter_committedRows (key : MetricKey) :
    ∀ (n : Nat) (parts : List (List (MetricObservation ν))),
      (committedRows numbers batchIds n parts).filter (fun row => row.key = key) =
        (batchesFrom batchIds n parts).filterMap (rowFor numbers key)
  | _, [] => rfl
  | n, part :: parts => by
    have hrows : (rowsOf numbers batchIds n (observeAll part)).filter (fun row => row.key = key) =
        (rowFor numbers key (batchIds n, part)).toList := by
      have hsplit : (rowsOf numbers batchIds n (observeAll part)).filter
        (fun row => row.key = key) =
          ((observeAll part).items.filter fun item => item.1 = key).map fun item =>
            ⟨batchIds n, item.1, Json.encodeValue (item.2.document numbers)⟩ := by
        rw [rowsOf, batchRows, List.map_map, List.filter_map]
        rfl
      rw [hsplit, SortedDict.filter_items, rowFor]
      cases (observeAll part).get? key <;> rfl
    rw [committedRows, List.filter_append, hrows, filter_committedRows key (n + 1) parts,
      batchesFrom,
      List.filterMap_cons]
    cases rowFor numbers key (batchIds n, part) <;> rfl

theorem key_of_mem_committedRows {row : MetricRow} :
    ∀ {n : Nat} {parts : List (List (MetricObservation ν))},
      row ∈ committedRows numbers batchIds n parts →
        ∃ o ∈ parts.flatten, row.key = o.key ∧ ∃ a, rowAggregate numbers row = some a
  | n, [], h => by cases h
  | n, part :: parts, h => by
    rcases List.mem_append.mp h with h | h
    · rw [rowsOf, batchRows, List.map_map, List.mem_map] at h
      obtain ⟨⟨key, a⟩, hitem, rfl⟩ := h
      have hget := SortedDict.get?_eq_some_iff.mpr hitem
      have ha := rowAggregate_encode numbers (allValid_observeAll part key a hget) (batchIds n) key
      rw [get?_observeAll] at hget
      split at hget
      · next hany =>
        obtain ⟨o, ho, hokey⟩ := List.any_eq_true.mp hany
        exact ⟨o, List.mem_append_left _ ho, of_decide_eq_true hokey, a, ha⟩
      · cases hget
    · obtain ⟨o, ho, hrow⟩ := key_of_mem_committedRows h
      exact ⟨o, List.mem_append_right _ ho, hrow⟩

theorem uniqueRows_committedRows (hids : Function.Injective batchIds) :
    ∀ (n : Nat) (parts : List (List (MetricObservation ν))),
      UniqueRows (committedRows numbers batchIds n parts)
  | _, [] => List.nodup_nil
  | n, part :: parts => by
    rw [UniqueRows, committedRows, List.map_append, List.nodup_append]
    refine ⟨?_, uniqueRows_committedRows hids (n + 1) parts, ?_⟩
    · have hkeys : (rowsOf numbers batchIds n (observeAll part)).map MetricRow.rowKey =
          (observeAll part).keys.map fun key => toLex (key, batchIds n) := by
        rw [rowsOf, batchRows, SortedDict.keys, List.map_map, List.map_map, List.map_map]
        rfl
      rw [hkeys]
      refine (observeAll part).nodup_keys.map fun key key' heq => ?_
      exact congrArg (fun rowKey => (ofLex rowKey).1) heq
    · intro rowKey hrow other hother heq
      obtain ⟨row, hmem, rfl⟩ := List.mem_map.mp hrow
      obtain ⟨later, hlater, rfl⟩ := List.mem_map.mp hother
      obtain ⟨item, -, rfl⟩ := List.mem_map.mp hmem
      obtain ⟨m, hle, -, hid⟩ := batchId_of_mem_committedRows numbers batchIds hlater
      have hsame : batchIds n = later.batchId := congrArg (fun rowKey => (ofLex rowKey).2) heq
      have := hids (hsame.trans hid)
      omega

/-- **The rows of a key are read in the order of the batch identities.** -/
theorem filter_inKeyOrder_committedRows (hids : Function.Injective batchIds) (key : MetricKey)
    (n : Nat) (parts : List (List (MetricObservation ν))) :
    (KeysetPages.inKeyOrder MetricRow.rowKey (committedRows numbers batchIds n parts)).filter
        (fun row => row.key = key) =
      (inIdOrder (batchesFrom batchIds n parts)).filterMap (rowFor numbers key) := by
  have hunique : UniqueRows (committedRows numbers batchIds n parts) :=
    uniqueRows_committedRows hids n parts
  rw [KeysetPages.filter_inKeyOrder hunique]
  refine KeysetPages.inKeyOrder_eq (hunique.sublist (List.filter_sublist.map _)) ?_ ?_
  · rw [filter_committedRows]
    exact (KeysetPages.inKeyOrder_perm Prod.fst _).filterMap _
  · refine (KeysetPages.inKeyOrder_pairwise (nodup_batchesFrom hids n parts)).filterMap _ ?_
    intro batch later hlt row hrow other hother
    obtain ⟨a, -, rfl⟩ := Option.map_eq_some_iff.mp hrow
    obtain ⟨b, -, rfl⟩ := Option.map_eq_some_iff.mp hother
    exact Prod.Lex.toLex_lt_toLex.mpr (Or.inr ⟨rfl, hlt⟩)

/-! ## Merging -/

/-- What batches make of a key, read one behind the other. -/
theorem foldl_mergeInto (key : MetricKey) :
    ∀ (batches : List (String × List (MetricObservation ν))) (current : Option (MetricAggregate ν)),
      (batches.filterMap fun batch => (observeAll batch.2).get? key).foldl mergeInto current =
        if batches.any fun batch => batch.2.any fun o => key = o.key then
          some (applyOps (batches.flatMap fun batch => opsMade key false batch.2) (current.getD {}))
        else current
  | [], current => rfl
  | batch :: batches, current => by
    rw [List.filterMap_cons, get?_observeAll, List.any_cons, List.flatMap_cons, applyOps_append]
    cases hany : batch.2.any fun o => key = o.key with
    | true =>
      simp only [if_true, List.foldl_cons, Bool.true_or, mergeInto]
      rw [foldl_mergeInto key batches, ← applyOps_eq_merge, Option.getD_some]
      split
      · rfl
      · next hnone =>
        have hnil : (batches.flatMap fun batch => opsMade key false batch.2) = [] := by
          rw [List.flatMap_eq_nil_iff]
          intro later hlater
          refine opsMade_eq_nil ?_
          rw [Bool.eq_false_iff]
          intro hlaterAny
          exact hnone (List.any_eq_true.mpr ⟨later, hlater, hlaterAny⟩)
        rw [hnil]
        rfl
    | false =>
      simp only [Bool.false_eq_true, if_false, Bool.false_or]
      rw [foldl_mergeInto key batches, opsMade_eq_nil hany]
      rfl

end

/-! ## The report -/

section

variable {ν : Type} [LinearOrder ν] (numbers : GaugeNumbers ν) (batchIds : Nat → String)

/-- The calls of a day without a flush. -/
def unflushed (parts : List (List (MetricCall ν))) : MetricAggregates ν :=
  observeAll (parts.flatMap (observationsOf numbers))

/-- The operations on a key in the order made. -/
def madeOps (parts : List (List (MetricCall ν))) (key : MetricKey) : List (MetricOp ν) :=
  opsMade key false (parts.flatMap (observationsOf numbers))

/-- The operations on a key in the order that batches are read in. -/
def readOps (parts : List (List (MetricCall ν))) (key : MetricKey) : List (MetricOp ν) :=
  (inIdOrder (batchesFrom batchIds 0 (batchParts numbers parts))).flatMap fun batch =>
    opsMade key false batch.2

/-- **The report does not depend on where flushes fell.** -/
structure FlushIndependent (day : Int) (parts : List (List (MetricCall ν))) : Prop where
  merged : ∃ merged, mergedRows numbers (dayTable numbers batchIds parts) day = .ok merged ∧
    ∀ market stream, merged.get? (toLex (market, stream)) =
      (unflushed numbers parts).get? (metricKey day market stream)
  decoded : ∀ calls ∈ parts, ∀ key a, (observeAll (observationsOf numbers calls)).get? key =
    some a →
    ∀ batchId, rowAggregate numbers ⟨batchId, key, Json.encodeValue (a.document numbers)⟩ = some a

variable {numbers batchIds} {day : Int} {parts : List (List (MetricCall ν))}

omit [LinearOrder ν] in
theorem flatten_batchParts (parts : List (List (MetricCall ν))) :
    (batchParts numbers parts).flatten = parts.flatMap (observationsOf numbers) := by
  rw [batchParts, List.flatten_filter_not_isEmpty, List.flatMap_def]

omit [LinearOrder ν] in
theorem any_inIdOrder (batchIds : Nat → String) (key : MetricKey)
    (parts : List (List (MetricCall ν))) :
    ((inIdOrder (batchesFrom batchIds 0 (batchParts numbers parts))).any fun batch =>
      batch.2.any fun o => key = o.key) =
        (parts.flatMap (observationsOf numbers)).any fun o => key = o.key := by
  rw [← flatten_batchParts, ← flatten_batchesFrom batchIds 0, List.any_flatMap]
  exact (KeysetPages.inKeyOrder_perm Prod.fst _).any_eq

/-- **What a report merges for a stream.** -/
theorem mergedRows_day (hids : Function.Injective batchIds) (hnames : ∀ n, batchIds n ≠ "")
    (hday : OfDay numbers day parts) :
    ∃ merged, mergedRows numbers (dayTable numbers batchIds parts) day = .ok merged ∧
      ∀ market stream, merged.get? (toLex (market, stream)) =
        if (parts.flatMap (observationsOf numbers)).any
            fun o => metricKey day market stream = o.key then
          some (applyOps (readOps numbers batchIds parts (metricKey day market stream)) {})
        else none := by
  have hunique : UniqueRows (committedRows numbers batchIds 0 (batchParts numbers parts)) :=
    uniqueRows_committedRows hids 0 _
  have hrow : ∀ row ∈ committedRows numbers batchIds 0 (batchParts numbers parts),
      row.key.day = day ∧ row.key.market ≠ "" ∧ ∃ a, rowAggregate numbers row = some a := by
    intro row hmem
    obtain ⟨o, ho, hkey, ha⟩ := key_of_mem_committedRows hmem
    rw [flatten_batchParts, List.mem_flatMap] at ho
    obtain ⟨calls, hcalls, ho⟩ := ho
    obtain ⟨hoday, hmarket, -⟩ := hday calls hcalls o ho
    rw [hkey]
    exact ⟨hoday, hmarket, ha⟩
  -- The pages of the reader hold every committed row of the day.
  have hread : iterMetricBatchesThrough (dayTable numbers batchIds parts) day (some day) =
      KeysetPages.inKeyOrder MetricRow.rowKey
        (committedRows numbers batchIds 0 (batchParts numbers parts)) := by
    rw [dayTable_eq hids hnames hday, iterMetricBatchesThrough_eq hunique]
    congr 1
    rw [List.filter_eq_self.mpr fun row hmem => by simp [(hrow row hmem).1], Option.map_some,
      KeysetPages.behind, List.filter_eq_self]
    intro row hmem
    have hlt := lt_rowKey_of_day (hrow row hmem).2.1
    rw [(hrow row hmem).1] at hlt
    exact decide_eq_true hlt
  -- They are read in key order, which is not the order of the commits.
  have hperm := KeysetPages.inKeyOrder_perm MetricRow.rowKey
    (committedRows numbers batchIds 0 (batchParts numbers parts))
  obtain ⟨merged, hmerged, hget⟩ := foldlM_mergeRow
    (fun row hmem => (hrow row (hperm.subset hmem)).2.2)
    (SortedDict.empty : SortedDict StreamKey (MetricAggregate ν))
  refine ⟨merged, by rw [mergedRows, hread]; exact hmerged, fun market stream => ?_⟩
  have hstream : (KeysetPages.inKeyOrder MetricRow.rowKey
        (committedRows numbers batchIds 0 (batchParts numbers parts))).filter
        (fun row => row.key.streamKey = toLex (market, stream)) =
      (KeysetPages.inKeyOrder MetricRow.rowKey
        (committedRows numbers batchIds 0 (batchParts numbers parts))).filter
        (fun row => row.key = metricKey day market stream) := by
    refine List.filter_congr fun row hmem => ?_
    have hrowDay := (hrow row (hperm.subset hmem)).1
    rw [Bool.eq_iff_iff, decide_eq_true_eq, decide_eq_true_eq]
    constructor
    · intro h
      rw [← hrowDay]
      exact congrArg (fun names => toLex (row.key.day, names)) h
    · intro h
      rw [h]
      rfl
  have hdecoded : ∀ batch, (rowFor numbers (metricKey day market stream) batch).bind
      (rowAggregate numbers) = (observeAll batch.2).get? (metricKey day market stream) := by
    intro batch
    rw [rowFor]
    cases ha : (observeAll batch.2).get? (metricKey day market stream) with
    | none => rfl
    | some a => exact rowAggregate_encode numbers (allValid_observeAll batch.2 _ a ha) batch.1 _
  rw [hget, mergedFor, hstream, filter_inKeyOrder_committedRows hids, List.filterMap_filterMap]
  simp only [hdecoded]
  rw [foldl_mergeInto, any_inIdOrder]
  rfl

omit [LinearOrder ν] in
/-- What is read counts what was made. -/
theorem counts_readOps_perm (key : MetricKey) (parts : List (List (MetricCall ν))) :
    ((readOps numbers batchIds parts key).filter MetricOp.counts).Perm
      ((madeOps numbers parts key).filter MetricOp.counts) := by
  have hbatch : ∀ batches : List (String × List (MetricObservation ν)),
      (batches.flatMap fun batch => opsMade key false batch.2).filter MetricOp.counts =
        ((batches.flatMap Prod.snd).flatMap (ownOps key)).filter MetricOp.counts := by
    intro batches
    rw [List.flatMap_assoc, List.filter_flatMap, List.filter_flatMap]
    simp only [counts_opsMade]
  rw [readOps, madeOps, hbatch, counts_opsMade, ← flatten_batchParts,
    ← flatten_batchesFrom batchIds 0]
  exact ((((KeysetPages.inKeyOrder_perm Prod.fst _).flatMap_right _).flatMap_right _).filter _)

/-- **The report does not depend on where flushes fell, if and only if** every gauge of every
stream has the same last and the same greatest value in the order that batches are read in as in
the order made. -/
theorem flush_independent_iff (hids : Function.Injective batchIds) (hnames : ∀ n, batchIds n ≠ "")
    (hday : OfDay numbers day parts) :
    FlushIndependent numbers batchIds day parts ↔ ∀ market stream name,
      (valuesOf name (readOps numbers batchIds parts (metricKey day market stream))).getLast? =
        (valuesOf name (madeOps numbers parts (metricKey day market stream))).getLast? ∧
      (valuesOf name (readOps numbers batchIds parts (metricKey day market stream))).max? =
        (valuesOf name (madeOps numbers parts (metricKey day market stream))).max? := by
  obtain ⟨merged, hmerged, hget⟩ := mergedRows_day hids hnames hday
  have hsame : ∀ market stream, merged.get? (toLex (market, stream)) =
      (unflushed numbers parts).get? (metricKey day market stream) ↔
        applyOps (readOps numbers batchIds parts (metricKey day market stream)) {} =
          applyOps (madeOps numbers parts (metricKey day market stream)) {} := by
    intro market stream
    rw [hget, unflushed, get?_observeAll]
    split
    · exact Option.some_inj
    · next hnone =>
      have hread : readOps numbers batchIds parts (metricKey day market stream) = [] := by
        rw [readOps, List.flatMap_eq_nil_iff]
        intro batch hbatch
        refine opsMade_eq_nil (Bool.eq_false_iff.mpr fun hany => hnone ?_)
        rw [← any_inIdOrder batchIds, List.any_eq_true]
        exact ⟨batch, hbatch, hany⟩
      have hmade : madeOps numbers parts (metricKey day market stream) = [] :=
        opsMade_eq_nil (Bool.eq_false_iff.mpr hnone)
      rw [hread, hmade]
      exact iff_of_true rfl rfl
  constructor
  · rintro ⟨⟨merged', hmerged', hequal⟩, -⟩ market stream
    rw [hmerged] at hmerged'
    cases hmerged'
    exact (applyOps_eq_iff (counts_readOps_perm _ parts)).mp
      ((hsame market stream).mp (hequal market stream))
  · intro hgauges
    refine ⟨⟨merged, hmerged, fun market stream => ?_⟩, ?_⟩
    · exact (hsame market stream).mpr
        ((applyOps_eq_iff (counts_readOps_perm _ parts)).mpr (hgauges market stream))
    · intro calls _ key a ha batchId
      exact rowAggregate_encode numbers (allValid_observeAll _ key a ha) batchId key

end

/-! ## Identities that fall -/

/-- Batch identities of which the second comes before the first. -/
def fallingBatchId (batch : Nat) : String := sampleBatchId (Equiv.swap 0 1 batch)

theorem fallingBatchId_injective : Function.Injective fallingBatchId :=
  sampleBatchId_injective.comp (Equiv.swap 0 1).injective

theorem batchId_ne_empty (batch : Nat) : sampleBatchId batch ≠ "" := by
  intro h
  have hlength := congrArg String.length h
  simp [sampleBatchId] at hlength

/-- Two records of one stream, behind each of which the queue has another depth. -/
def queueDepthParts : List (List (MetricCall Int)) :=
  [[.written firstSampleEnvelope 100 5 .notDue], [.written firstSampleEnvelope 100 7 .notDue]]

theorem queueDepthParts_ofDay : OfDay wholeNumbers 19675 queueDepthParts := by
  intro calls hcalls
  rcases List.mem_pair.mp hcalls with rfl | rfl
  · intro o ho
    cases List.mem_singleton.mp ho
    exact ⟨rfl, by decide, by decide⟩
  · intro o ho
    cases List.mem_singleton.mp ho
    exact ⟨rfl, by decide, by decide⟩

theorem queueDepth_independent :
    FlushIndependent wholeNumbers sampleBatchId 19675 queueDepthParts :=
  (flush_independent_iff sampleBatchId_injective batchId_ne_empty queueDepthParts_ofDay).mpr (by
    intro market stream name
    have hbatches : inIdOrder
      (batchesFrom sampleBatchId 0 (batchParts wholeNumbers queueDepthParts)) =
        batchesFrom sampleBatchId 0 (batchParts wholeNumbers queueDepthParts) := by
      refine KeysetPages.inKeyOrder_eq (nodup_batchesFrom sampleBatchId_injective 0 _)
        (List.Perm.refl _) ?_
      refine List.pairwise_pair.mpr ?_
      exact String.lt_iff_toList_lt.mpr (by decide)
    have hops : readOps wholeNumbers sampleBatchId queueDepthParts (metricKey 19675 market stream) =
        madeOps wholeNumbers queueDepthParts (metricKey 19675 market stream) := by
      rw [readOps, hbatches]
      simp [queueDepthParts, batchParts, observationsOf, Step.observation, MetricCall.observation,
        batchesFrom, madeOps, opsMade, sampleOpsAt]
    rw [hops]
    exact ⟨rfl, rfl⟩)

/-- The queue depth in an aggregate. -/
def queueDepthOf (a : MetricAggregate Int) : Option Int :=
  (a.gauges.get? "queue_depth").map GaugeValue.last

/-- The report has the queue depth of the first record. -/
theorem queueDepth_of_first :
    ¬ ∀ parts : List (List (MetricCall Int)), OfDay wholeNumbers 19675 parts →
      FlushIndependent wholeNumbers fallingBatchId 19675 parts := by
  intro h
  obtain ⟨merged, hmerged, hget⟩ := (h queueDepthParts queueDepthParts_ofDay).merged
  obtain ⟨merged', hmerged', hget'⟩ := mergedRows_day fallingBatchId_injective
    (fun batch => batchId_ne_empty (Equiv.swap 0 1 batch)) queueDepthParts_ofDay
  rw [hmerged] at hmerged'
  cases hmerged'
  have hread : (merged.get? (toLex ("spot", "diff_depth"))).bind queueDepthOf = some 5 := by
    rw [hget']
    rfl
  have hmade : ((unflushed wholeNumbers queueDepthParts).get?
      (metricKey 19675 "spot" "diff_depth")).bind queueDepthOf = some 7 := by
    rfl
  rw [hget, hmade] at hread
  cases hread

end MarketDataRecorder
