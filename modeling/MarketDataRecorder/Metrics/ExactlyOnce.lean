import Mathlib.Algebra.BigOperators.Group.List.Basic
import MarketDataRecorder.Metrics.Recorder

/-!
# What the metrics recorder counts

A recorder cuts its observations into consecutive parts: one for each batch that it has given up,
and the one in memory. A transaction may fail after its commit, and then the part in memory is
stored already: the retry has the same identity and stores nothing. While nothing is added to such a
part, each observation is in one part, and the sums over the parts are those of all observations.

* `MetricCount` — what is summed over aggregates
* `Parts` — the observations cut into parts, with the table and the memory of the recorder
* `counted_once` — every run that adds nothing to a stored part counts each observation once
-/

namespace MarketDataRecorder

open MetricAggregate MetricAggregates

section

variable {ν : Type}

/-! ## Counts -/

def counterOf (a : MetricAggregate ν) (name : String) : Int := (a.counters.get? name).getD 0

def bucketOf (a : MetricAggregate ν) (name bucket : String) : Int :=
  ((a.histograms.get? name).bind fun counts => counts.get? bucket).getD 0

/-- A number of an aggregate that merging adds up, and that no gauge changes. -/
structure MetricCount (ν : Type) [LinearOrder ν] where
  count : MetricAggregate ν → Int
  count_empty : count {} = 0
  count_merge : ∀ a b, count (a.merge b) = count a + count b
  count_gauge : ∀ name value, count (effectOf (.gauge name value)) = 0

/-- Optional counts add up. -/
theorem getD_merge_add (a b : Option Int) :
    (Option.merge (· + ·) a b).getD 0 = a.getD 0 + b.getD 0 := by
  cases a <;> cases b <;> simp

def counterCount (ν : Type) [LinearOrder ν] (name : String) : MetricCount ν where
  count a := counterOf a name
  count_empty := rfl
  count_merge a b := by
    rw [counterOf, counters_merge, SortedDict.get?_mergeWith, getD_merge_add]
    rfl
  count_gauge _ _ := rfl

def bucketCount (ν : Type) [LinearOrder ν] (name bucket : String) : MetricCount ν where
  count a := bucketOf a name bucket
  count_empty := rfl
  count_merge a b := by
    rw [bucketOf, bucketOf, bucketOf, histograms_merge, SortedDict.get?_mergeWith]
    cases a.histograms.get? name <;> cases b.histograms.get? name <;>
      simp [getD_merge_add]
  count_gauge _ _ := rfl

variable [LinearOrder ν]

namespace MetricCount

variable (c : MetricCount ν)

/-- What operations count, up to the first that raises. -/
def performed (ops : List (MetricOp ν)) : Int :=
  ((ops.takeWhile fun op => errorOf op = none).map fun op => c.count (effectOf op)).sum

/-- What an observation counts under a key. -/
def observed (o : MetricObservation ν) (key : MetricKey) : Int :=
  if key = o.key then c.performed o.ops else 0

/-- **Performing operations counts each of them once.** -/
theorem count_performAll : ∀ (ops : List (MetricOp ν)) (a : MetricAggregate ν),
    c.count (performAll ops a).2 = c.count a + c.performed ops
  | [], a => by simp [performAll, performed]
  | op :: ops, a => by
    rw [performAll, perform_eq]
    cases herror : errorOf op with
    | some message => simp [performed, herror]
    | none =>
      have hrest := count_performAll ops (a.merge (effectOf op))
      simp only [performed, List.takeWhile_cons, herror, decide_true, if_true, List.map_cons,
        List.sum_cons] at hrest ⊢
      rw [hrest, c.count_merge, add_assoc]

/-- A runtime sample counts nothing. -/
theorem performed_sampleOps (rss free : ν) (cpu : Option ν) :
    c.performed (sampleOps rss free cpu) = 0 := by
  have hzero : ∀ op ∈ sampleOps rss free cpu, c.count (effectOf op) = 0 := by
    intro op hop
    rw [sampleOps, List.mem_append, List.mem_map] at hop
    rcases hop with hop | ⟨value, -, rfl⟩
    · rcases List.mem_pair.mp hop with rfl | rfl <;> exact c.count_gauge _ _
    · exact c.count_gauge _ _
  refine List.sum_eq_zero fun n hn => ?_
  obtain ⟨op, hop, rfl⟩ := List.mem_map.mp hn
  exact hzero op ((List.takeWhile_sublist _).subset hop)

/-- A runtime sample counts nothing. -/
theorem count_takeSample (day : Int) (aggregates : MetricAggregates ν) (sample : RuntimeSample ν)
    (key : MetricKey) : c.count (aggregateOf (takeSample day aggregates sample).2 key) =
      c.count (aggregateOf aggregates key) := by
  cases sample with
  | notDue => rfl
  | failed => rfl
  | taken rss free cpu =>
    rw [takeSample, aggregateOf, aggregateOf]
    simp only [SortedDict.get?_mapValues]
    cases aggregates.get? key with
    | none => rfl
    | some a =>
      simp only [Option.map_some, Option.getD_some]
      split
      · rw [c.count_performAll, c.performed_sampleOps, add_zero]
      · rfl

/-- **An observation adds what it counts.** -/
theorem count_observe (aggregates : MetricAggregates ν) (o : MetricObservation ν)
    (key : MetricKey) :
    c.count (aggregateOf (observe aggregates o).2 key) =
      c.count (aggregateOf aggregates key) + c.observed o key := by
  have hinsert : c.count (aggregateOf
      (aggregates.insert o.key (performAll o.ops (aggregateOf aggregates o.key)).2) key) =
        c.count (aggregateOf aggregates key) + c.observed o key := by
    rw [aggregateOf, SortedDict.get?_insert, observed]
    by_cases hkey : key = o.key
    · rw [if_pos hkey, if_pos hkey, Option.getD_some, c.count_performAll, hkey]
    · rw [if_neg hkey, if_neg hkey, add_zero]
      rfl
  rw [MetricAggregates.observe]
  split
  · exact hinsert
  · rw [c.count_takeSample]
    exact hinsert

end MetricCount

/-! ## Observations together -/

/-- Observations taken together, in aggregates that nothing was flushed from. -/
def observeAll (os : List (MetricObservation ν)) : MetricAggregates ν :=
  os.foldl (fun aggregates o => (observe aggregates o).2) .empty

/-- Observations are made one after another. -/
theorem observeAll_append (os : List (MetricObservation ν)) (o : MetricObservation ν) :
    observeAll (os ++ [o]) = (observe (observeAll os) o).2 := by
  rw [observeAll, List.foldl_append]
  rfl

/-- **An aggregate counts the observations of its key.** -/
theorem MetricCount.count_observeAll (c : MetricCount ν) (os : List (MetricObservation ν))
    (key : MetricKey) : c.count (aggregateOf (observeAll os) key) =
      (os.map fun o => c.observed o key).sum := by
  induction os using List.reverseRecOn with
  | nil => exact c.count_empty
  | append_singleton os o ih =>
    rw [observeAll_append, c.count_observe, ih, List.map_append, List.sum_append]
    simp

/-! ## Valid aggregates -/

/-- Operations keep an aggregate valid. -/
theorem valid_performAll : ∀ (ops : List (MetricOp ν)) {a : MetricAggregate ν}, a.Valid →
    (performAll ops a).2.Valid
  | [], _, h => h
  | op :: ops, a, h => by
    rw [performAll, perform_eq]
    cases herror : errorOf op with
    | some message => exact h
    | none => exact valid_performAll ops (h.merge (valid_effectOf herror))

omit [LinearOrder ν] in
/-- Every aggregate in memory is valid. -/
def AllValid (aggregates : MetricAggregates ν) : Prop :=
  ∀ key a, aggregates.get? key = some a → a.Valid

omit [LinearOrder ν] in
/-- A key without an aggregate has the empty one. -/
theorem AllValid.aggregateOf {aggregates : MetricAggregates ν} (h : AllValid aggregates)
    (key : MetricKey) : (aggregateOf aggregates key).Valid := by
  rw [MetricAggregates.aggregateOf]
  cases hget : aggregates.get? key with
  | none => exact valid_empty
  | some a => exact h key a hget

/-- An observation keeps the aggregates valid. -/
theorem AllValid.observe {aggregates : MetricAggregates ν} (h : AllValid aggregates)
    (o : MetricObservation ν) : AllValid (observe aggregates o).2 := by
  have hinsert : AllValid
      (aggregates.insert o.key
        (performAll o.ops (MetricAggregates.aggregateOf aggregates o.key)).2) := by
    intro key a hget
    rw [SortedDict.get?_insert] at hget
    split at hget
    · obtain rfl := Option.some.inj hget
      exact valid_performAll o.ops (h.aggregateOf o.key)
    · exact h key a hget
  rw [MetricAggregates.observe]
  split
  · exact hinsert
  · cases o.sample with
    | notDue => exact hinsert
    | failed => exact hinsert
    | taken rss free cpu =>
      intro key a hget
      rw [takeSample, SortedDict.get?_mapValues, Option.map_eq_some_iff] at hget
      obtain ⟨before, hbefore, rfl⟩ := hget
      split
      · exact valid_performAll _ (hinsert key before hbefore)
      · exact hinsert key before hbefore

theorem allValid_observeAll (os : List (MetricObservation ν)) : AllValid (observeAll os) := by
  induction os using List.reverseRecOn with
  | nil =>
    intro key a hget
    cases hget
  | append_singleton os o ih =>
    rw [observeAll_append]
    exact ih.observe o

end

/-! ## Rows -/

namespace MetricsRecorder

section

variable {ν : Type} (numbers : GaugeNumbers ν) (batchIds : Nat → String)

/-- The rows of one batch. -/
def rowsOf (batch : Nat) (aggregates : MetricAggregates ν) : List MetricRow :=
  (batchRows numbers aggregates).map fun row => ⟨batchIds batch, row.1, Json.encodeValue row.2⟩

/-- The aggregate in a row. -/
def rowAggregate (row : MetricRow) : Option (MetricAggregate ν) :=
  (Json.decode row.aggregateJson).bind fun document => (fromDocument numbers document).toOption

/-- **A written aggregate reads back.** -/
theorem rowAggregate_encode {a : MetricAggregate ν} (h : a.Valid) (batchId : String)
    (key : MetricKey) :
    rowAggregate numbers ⟨batchId, key, Json.encodeValue (a.document numbers)⟩ = some a := by
  have hdecode := Json.decode_encode (plain_document numbers a) rfl Json.ends_nil
  rw [List.append_nil] at hdecode
  rw [rowAggregate, hdecode, Option.bind_some, fromDocument_document numbers h]
  rfl

variable [LinearOrder ν]

/-- What the rows of a key count. -/
def countOf (c : MetricCount ν) (table : List MetricRow) (key : MetricKey) : Int :=
  ((table.filter fun row => row.key = key).map fun row =>
    ((rowAggregate numbers row).map c.count).getD 0).sum

/-- The rows of a table count part by part. -/
theorem countOf_append (c : MetricCount ν) (table rows : List MetricRow) (key : MetricKey) :
    countOf numbers c (table ++ rows) key = countOf numbers c table key +
      countOf numbers c rows key := by
  rw [countOf, List.filter_append, List.map_append, List.sum_append]
  rfl

/-- The rows of a batch count what its aggregates do. -/
theorem countOf_rowsOf (c : MetricCount ν) (batch : Nat) {aggregates : MetricAggregates ν}
    (hvalid : AllValid aggregates) (key : MetricKey) :
    countOf numbers c (rowsOf numbers batchIds batch aggregates) key =
      c.count (aggregateOf aggregates key) := by
  have hrows : (rowsOf numbers batchIds batch aggregates).filter (fun row => row.key = key) =
      (aggregates.items.filter fun item => item.1 = key).map fun item =>
        ⟨batchIds batch, item.1, Json.encodeValue (item.2.document numbers)⟩ := by
    rw [rowsOf, batchRows, List.map_map, List.filter_map]
    rfl
  rw [countOf, hrows, SortedDict.filter_items, aggregateOf]
  cases hget : aggregates.get? key with
  | none => exact c.count_empty.symm
  | some a =>
    have hrow := rowAggregate_encode numbers (hvalid key a hget) (batchIds batch) key
    simp [hrow]

/-! ## Parts -/

/-- The rows of the batches from one on, each of one part of the observations. -/
def committedRows : Nat → List (List (MetricObservation ν)) → List MetricRow
  | _, [] => []
  | batch, part :: parts =>
    rowsOf numbers batchIds batch (observeAll part) ++ committedRows (batch + 1) parts

/-- Each part is a batch of rows. -/
theorem committedRows_append (part : List (MetricObservation ν)) :
    ∀ (batch : Nat) (parts : List (List (MetricObservation ν))),
      committedRows numbers batchIds batch (parts ++ [part]) =
        committedRows numbers batchIds batch parts ++
          rowsOf numbers batchIds (batch + parts.length) (observeAll part)
  | batch, [] => by simp [committedRows]
  | batch, first :: parts => by
    have hnext : batch + 1 + parts.length = batch + (first :: parts).length := by
      rw [List.length_cons]
      omega
    rw [List.cons_append, committedRows, committedRows_append part (batch + 1) parts, hnext,
      committedRows, List.append_assoc]

/-- A committed row is under the id of its batch. -/
theorem batchId_of_mem_committedRows : ∀ {batch : Nat} {parts : List (List (MetricObservation ν))}
    {row : MetricRow}, row ∈ committedRows numbers batchIds batch parts →
      ∃ n, batch ≤ n ∧ n < batch + parts.length ∧ row.batchId = batchIds n
  | batch, [], row, h => by cases h
  | batch, part :: parts, row, h => by
    rcases List.mem_append.mp h with h | h
    · obtain ⟨item, -, rfl⟩ := List.mem_map.mp h
      exact ⟨batch, le_rfl, by simp, rfl⟩
    · obtain ⟨n, hlow, hhigh, hid⟩ := batchId_of_mem_committedRows h
      exact ⟨n, by omega, by rw [List.length_cons]; omega, hid⟩

/-- **The committed rows count the observations of all the parts.** -/
theorem countOf_committedRows (c : MetricCount ν) (key : MetricKey) :
    ∀ (batch : Nat) (parts : List (List (MetricObservation ν))),
      countOf numbers c (committedRows numbers batchIds batch parts) key =
        (parts.flatten.map fun o => c.observed o key).sum
  | _, [] => rfl
  | batch, part :: parts => by
    rw [committedRows, countOf_append, countOf_rowsOf numbers batchIds c batch
      (allValid_observeAll part), c.count_observeAll, countOf_committedRows c key (batch + 1) parts,
      List.flatten_cons, List.map_append, List.sum_append]

/-! ## What is stored -/

/-- The identity in use is one that the table has: its commit failed after it was stored. -/
def stored (batchIds : Nat → String) (r : MetricsRecorder ν) : Bool :=
  r.table.any fun row => row.batchId = batchIds r.batch

/-- The rows of the batches that were given up. What is stored under the identity in use is the
aggregates in memory. -/
def settledRows (batchIds : Nat → String) (r : MetricsRecorder ν) : List MetricRow :=
  r.table.filter fun row => row.batchId ≠ batchIds r.batch

/-- The table behind a commit. -/
def tableWith (numbers : GaugeNumbers ν) (batchIds : Nat → String) (r : MetricsRecorder ν) :
    List MetricRow :=
  if r.stored batchIds then r.table
  else r.table ++ rowsOf numbers batchIds r.batch r.aggregates

omit [LinearOrder ν] in
/-- Where nothing is stored under the identity in use, all rows are settled. -/
theorem settledRows_of_not_stored {r : MetricsRecorder ν} (h : r.stored batchIds = false) :
    r.settledRows batchIds = r.table := by
  rw [stored, List.any_eq_false] at h
  rw [settledRows, List.filter_eq_self]
  intro row hrow
  simpa using h row hrow

/-- **The observations are cut into the batches and what is in memory**, which may be stored
already. -/
structure Parts (r : MetricsRecorder ν) (made : List (MetricObservation ν))
    (parts : List (List (MetricObservation ν))) (pending : List (MetricObservation ν)) : Prop where
  made : made = parts.flatten ++ pending
  batch : r.batch = parts.length
  aggregates : r.aggregates = observeAll pending
  table : r.table = committedRows numbers batchIds 0 parts ++
    if r.stored batchIds then rowsOf numbers batchIds r.batch r.aggregates else []

/-! ## Steps -/

variable {numbers batchIds} {r r' : MetricsRecorder ν} {made : List (MetricObservation ν)}
  {parts : List (List (MetricObservation ν))} {pending : List (MetricObservation ν)}

/-- The next batch is not stored yet. -/
theorem not_stored_of_committedRows (hids : Function.Injective batchIds)
    (hbatch : parts.length ≤ r.batch)
    (htable : r.table = committedRows numbers batchIds 0 parts) : r.stored batchIds = false := by
  rw [stored, List.any_eq_false, htable]
  intro row hrow
  obtain ⟨n, -, hlt, hid⟩ := batchId_of_mem_committedRows numbers batchIds hrow
  have hne : batchIds n ≠ batchIds r.batch := by
    intro heq
    have := hids heq
    omega
  simp [hid, hne]

omit [LinearOrder ν] in
/-- **What a flush can do.** -/
theorem flush_cases (numbers : GaugeNumbers ν) (batchIds : Nat → String) (r : MetricsRecorder ν)
    (outcome : CommitOutcome) :
    (∃ message, r.flush numbers batchIds outcome = .error (message, r)) ∨
      (r.flush numbers batchIds outcome = .ok r ∧ r.aggregates.items = []) ∨
      (r.aggregates.items ≠ [] ∧ ∃ message, r.flush numbers batchIds outcome =
        .error (message, { r with table := r.tableWith numbers batchIds })) ∨
      (r.aggregates.items ≠ [] ∧ r.flush numbers batchIds outcome = .ok { r with
        aggregates := .empty
        batch := r.batch + 1
        table := r.tableWith numbers batchIds }) := by
  rw [flush]
  by_cases hempty : r.aggregates.items = []
  · exact Or.inr (Or.inl ⟨if_pos hempty, hempty⟩)
  rw [if_neg hempty, commitMetricBatch]
  split_ifs
  · exact Or.inl ⟨_, rfl⟩
  · exact Or.inl ⟨_, rfl⟩
  cases outcome with
  | commits => exact Or.inr (Or.inr (Or.inr ⟨hempty, rfl⟩))
  | failsBefore => exact Or.inl ⟨_, rfl⟩
  | failsAfter => exact Or.inr (Or.inr (Or.inl ⟨hempty, _, rfl⟩))

/-- The table behind a commit has the part in memory as well. -/
theorem Parts.tableWith (h : Parts numbers batchIds r made parts pending) :
    r.tableWith numbers batchIds = committedRows numbers batchIds 0 (parts ++ [pending]) := by
  have htable := h.table
  rw [committedRows_append, zero_add, ← h.batch, ← h.aggregates, MetricsRecorder.tableWith]
  split
  · next hstored =>
    rw [if_pos hstored] at htable
    exact htable
  · next hstored =>
    rw [if_neg hstored, List.append_nil] at htable
    rw [htable]

/-- With nothing in memory, nothing is stored under the identity in use. -/
theorem Parts.not_stored_of_empty (hids : Function.Injective batchIds)
    (h : Parts numbers batchIds r made parts pending) (hempty : r.aggregates.items = []) :
    r.stored batchIds = false := by
  have hrows : rowsOf numbers batchIds r.batch r.aggregates = [] := by
    rw [rowsOf, batchRows, hempty]
    rfl
  have htable := h.table
  rw [hrows, ite_self, List.append_nil] at htable
  exact not_stored_of_committedRows hids h.batch.ge htable

/-- A batch is given up with what is in memory. -/
theorem Parts.committed (hids : Function.Injective batchIds)
    (h : Parts numbers batchIds r made parts pending) :
    Parts numbers batchIds { r with
      aggregates := .empty
      batch := r.batch + 1
      table := r.tableWith numbers batchIds } made (parts ++ [pending]) [] ∧
    ({ r with
      aggregates := .empty
      batch := r.batch + 1
      table := r.tableWith numbers batchIds } : MetricsRecorder ν).stored batchIds = false := by
  have hlength : (parts ++ [pending]).length = r.batch + 1 := by
    rw [List.length_append, List.length_singleton, h.batch]
  have hstored : ({ r with
      aggregates := .empty
      batch := r.batch + 1
      table := r.tableWith numbers batchIds } : MetricsRecorder ν).stored batchIds = false :=
    not_stored_of_committedRows hids hlength.le h.tableWith
  refine ⟨⟨?_, hlength.symm, rfl, ?_⟩, hstored⟩
  · rw [h.made, List.flatten_append, List.append_nil]
    simp
  · rw [hstored]
    simpa using h.tableWith

/-- A commit that fails after it is stored leaves the part in memory. -/
theorem Parts.ambiguous (h : Parts numbers batchIds r made parts pending)
    (hitems : r.aggregates.items ≠ []) :
    Parts numbers batchIds { r with table := r.tableWith numbers batchIds } made parts pending := by
  have hrows : ∃ row, row ∈ rowsOf numbers batchIds r.batch r.aggregates ∧
      row.batchId = batchIds r.batch := by
    obtain ⟨item, hitem⟩ := List.exists_mem_of_ne_nil _ hitems
    refine ⟨⟨batchIds r.batch, item.1, Json.encodeValue (item.2.document numbers)⟩, ?_, rfl⟩
    rw [rowsOf, batchRows, List.map_map, List.mem_map]
    exact ⟨item, hitem, rfl⟩
  have htable : r.tableWith numbers batchIds = committedRows numbers batchIds 0 parts ++
      rowsOf numbers batchIds r.batch r.aggregates := by
    rw [h.tableWith, committedRows_append, zero_add, ← h.batch, ← h.aggregates]
  have hstored : ({ r with table := r.tableWith numbers batchIds } :
      MetricsRecorder ν).stored batchIds = true := by
    obtain ⟨row, hrow, hid⟩ := hrows
    rw [stored, List.any_eq_true]
    refine ⟨row, ?_, by simpa using hid⟩
    rw [htable]
    exact List.mem_append_right _ hrow
  refine ⟨h.made, h.batch, h.aggregates, ?_⟩
  rw [if_pos hstored]
  exact htable

/-- A flush leaves the observations in parts. -/
theorem Parts.flush (hids : Function.Injective batchIds)
    (h : Parts numbers batchIds r made parts pending) (outcome : CommitOutcome) :
    ∃ parts pending, Parts numbers batchIds (after (r.flush numbers batchIds outcome)) made parts
      pending := by
  rcases flush_cases numbers batchIds r outcome with
    ⟨message, hflush⟩ | ⟨hflush, -⟩ | ⟨hitems, message, hflush⟩ | ⟨-, hflush⟩
  · rw [hflush]
    exact ⟨parts, pending, h⟩
  · rw [hflush]
    exact ⟨parts, pending, h⟩
  · rw [hflush]
    exact ⟨parts, pending, h.ambiguous hitems⟩
  · rw [hflush]
    exact ⟨parts ++ [pending], [], (h.committed hids).1⟩

/-- Behind a flush that returns, nothing is stored under the identity in use. -/
theorem Parts.not_stored_of_flushed (hids : Function.Injective batchIds)
    (h : Parts numbers batchIds r made parts pending) {outcome : CommitOutcome}
    (hflushed : r.flush numbers batchIds outcome = .ok r') : r'.stored batchIds = false := by
  rcases flush_cases numbers batchIds r outcome with
    ⟨message, hflush⟩ | ⟨hflush, hempty⟩ | ⟨-, message, hflush⟩ | ⟨-, hflush⟩
  · rw [hflush] at hflushed
    cases hflushed
  · rw [hflush] at hflushed
    cases hflushed
    exact h.not_stored_of_empty hids hempty
  · rw [hflush] at hflushed
    cases hflushed
  · rw [hflush] at hflushed
    cases hflushed
    exact (h.committed hids).2

/-- The day of the recorder has no part in it. -/
theorem Parts.withDay (h : Parts numbers batchIds r made parts pending) (day : Option Int) :
    Parts numbers batchIds { r with latestUtcDay := day } made parts pending :=
  ⟨h.made, h.batch, h.aggregates, h.table⟩

/-- A rollover commits the pending part, or keeps it. -/
theorem Parts.rollover (hids : Function.Injective batchIds)
    (h : Parts numbers batchIds r made parts pending) (outcome : CommitOutcome) (day : Int) :
    ∃ parts pending, Parts numbers batchIds
      (after (r.rolloverIfNeeded numbers batchIds outcome day)) made parts pending := by
  rw [rolloverIfNeeded]
  cases r.latestUtcDay with
  | none => exact ⟨parts, pending, h.withDay _⟩
  | some latest =>
    simp only
    split
    · exact ⟨parts, pending, h⟩
    · obtain ⟨parts, pending, hflush⟩ := h.flush hids outcome
      cases hresult : r.flush numbers batchIds outcome with
      | error raised =>
        rw [hresult] at hflush
        exact ⟨parts, pending, hflush⟩
      | ok flushed =>
        rw [hresult] at hflush
        exact ⟨parts, pending, hflush.withDay _⟩

/-! ## Observations of steps -/

/-- The observation that a step is to make. -/
def Step.observation (numbers : GaugeNumbers ν) : Step ν → Option (MetricObservation ν)
  | .flush _ => none
  | .call c _ => match c.observation numbers with
    | .ok o => o
    | .error _ => none

/-- A step that adds to aggregates that are stored already. -/
def Step.AddsToStored (numbers : GaugeNumbers ν) (batchIds : Nat → String) (r : MetricsRecorder ν)
    (s : Step ν) : Prop :=
  r.stored batchIds = true ∧ ∃ o, s.observation numbers = some o ∧
    ∀ latest, r.latestUtcDay = some latest → o.day ≤ latest

/-- **A rollover that returns has stored what it left.** -/
theorem Parts.not_stored_of_rolled (hids : Function.Injective batchIds)
    (h : Parts numbers batchIds r made parts pending) {s : Step ν}
    (hadds : ¬ s.AddsToStored numbers batchIds r) {o : MetricObservation ν}
    (ho : s.observation numbers = some o)
    (hrolled : r.rolloverIfNeeded numbers batchIds s.outcome o.day = .ok r') :
    r'.stored batchIds = false := by
  have hlate : r.stored batchIds = true → ∃ latest, r.latestUtcDay = some latest ∧
    latest < o.day := by
    intro hstored
    by_contra hnone
    refine hadds ⟨hstored, o, ho, fun latest hlatest => ?_⟩
    exact not_lt.mp fun hlt => hnone ⟨latest, hlatest, hlt⟩
  rw [rolloverIfNeeded] at hrolled
  cases hday : r.latestUtcDay with
  | none =>
    rw [hday] at hrolled
    cases hrolled
    by_contra hstored
    obtain ⟨latest, hlatest, -⟩ := hlate (by simpa [stored] using hstored)
    rw [hday] at hlatest
    cases hlatest
  | some latest =>
    rw [hday] at hrolled
    simp only at hrolled
    split at hrolled
    · next hle =>
      cases hrolled
      by_contra hstored
      obtain ⟨day, hsome, hlt⟩ := hlate (by simpa using hstored)
      rw [hday] at hsome
      cases hsome
      omega
    · cases hresult : r.flush numbers batchIds s.outcome with
      | error raised =>
        rw [hresult] at hrolled
        cases hrolled
      | ok flushed =>
        rw [hresult] at hrolled
        have hflushed := h.not_stored_of_flushed hids hresult
        cases hrolled
        exact hflushed

/-- The observation of a step is made as soon as the rollover of its day is behind it. -/
def madeBy (numbers : GaugeNumbers ν) (batchIds : Nat → String) (r : MetricsRecorder ν)
    (s : Step ν) : List (MetricObservation ν) :=
  match s.observation numbers with
  | none => []
  | some o => match r.rolloverIfNeeded numbers batchIds s.outcome o.day with
    | .ok _ => [o]
    | .error _ => []

/-- A call that returns has made its observation. -/
theorem madeBy_of_returned {s : Step ν} {o : MetricObservation ν}
    (ho : s.observation numbers = some o) (h : r.step numbers batchIds s = .ok r') :
    madeBy numbers batchIds r s = [o] := by
  cases s with
  | flush outcome => cases ho
  | call c outcome =>
    have hcall : c.observation numbers = .ok (some o) := by
      simp only [Step.observation] at ho
      split at ho
      · next heq => rw [heq, ho]
      · cases ho
    simp only [step, hcall, observe] at h
    simp only [madeBy, Step.observation, hcall, Step.outcome]
    cases hrollover : r.rolloverIfNeeded numbers batchIds outcome o.day with
    | error raised =>
      rw [hrollover] at h
      cases h
    | ok rolled => rfl

/-- An observation goes into the part in memory. -/
theorem Parts.observed (h : Parts numbers batchIds r made parts pending)
    (hstored : r.stored batchIds = false) (o : MetricObservation ν) :
    Parts numbers batchIds
      { r with aggregates := (MetricAggregates.observe r.aggregates o).2 } (made ++ [o]) parts
      (pending ++ [o]) := by
  have htable := h.table
  refine ⟨?_, h.batch, ?_, ?_⟩
  · rw [h.made, List.append_assoc]
  · rw [observeAll_append, ← h.aggregates]
  · have hsame : ({ r with aggregates := (MetricAggregates.observe r.aggregates o).2 } :
        MetricsRecorder ν).stored batchIds = false := hstored
    rw [hstored] at htable
    rw [hsame]
    exact htable

/-- Every step keeps the parts, where it adds to no stored batch. -/
theorem Parts.step (hids : Function.Injective batchIds)
    (h : Parts numbers batchIds r made parts pending) {s : Step ν}
    (hadds : ¬ s.AddsToStored numbers batchIds r) :
    ∃ parts pending, Parts numbers batchIds (after (r.step numbers batchIds s))
      (made ++ madeBy numbers batchIds r s) parts pending := by
  cases hs : s with
  | flush outcome =>
    obtain ⟨parts, pending, hflush⟩ := h.flush hids outcome
    exact ⟨parts, pending, by simpa [MetricsRecorder.step, madeBy, Step.observation] using hflush⟩
  | call c outcome =>
    rw [MetricsRecorder.step, madeBy, Step.observation]
    cases hcall : c.observation numbers with
    | error message => exact ⟨parts, pending, by simpa [after] using h⟩
    | ok observed =>
      cases observed with
      | none => exact ⟨parts, pending, by simpa [after] using h⟩
      | some o =>
        have ho : s.observation numbers = some o := by
          simp only [hs, Step.observation, hcall]
        have hrolled := h.rollover hids outcome o.day
        simp only [MetricsRecorder.observe, Step.outcome]
        cases hrollover : r.rolloverIfNeeded numbers batchIds outcome o.day with
        | error raised =>
          rw [hrollover] at hrolled
          obtain ⟨parts, pending, hrolled⟩ := hrolled
          exact ⟨parts, pending, by simpa [after] using hrolled⟩
        | ok rolled =>
          rw [hrollover] at hrolled
          obtain ⟨parts, pending, hrolled⟩ := hrolled
          have hstored := h.not_stored_of_rolled hids hadds ho (by rw [hs]; exact hrollover)
          refine ⟨parts, pending ++ [o], ?_⟩
          simp only
          split <;> exact hrolled.observed hstored o

/-! ## Runs -/

/-- The observations that a run makes. -/
def madeIn (numbers : GaugeNumbers ν) (batchIds : Nat → String) :
    MetricsRecorder ν → List (Step ν) → List (MetricObservation ν)
  | _, [] => []
  | r, s :: steps => madeBy numbers batchIds r s ++
      madeIn numbers batchIds (after (r.step numbers batchIds s)) steps

/-- A run in which nothing is added to aggregates that are stored already. -/
def AddsNoneToStored (numbers : GaugeNumbers ν) (batchIds : Nat → String) :
    MetricsRecorder ν → List (Step ν) → Prop
  | _, [] => True
  | r, s :: steps => ¬ s.AddsToStored numbers batchIds r ∧
      AddsNoneToStored numbers batchIds (after (r.step numbers batchIds s)) steps

/-- Every run keeps the parts under the same condition. -/
theorem Parts.run (hids : Function.Injective batchIds) :
    ∀ {steps : List (Step ν)} {r : MetricsRecorder ν} {made : List (MetricObservation ν)}
      {parts : List (List (MetricObservation ν))} {pending : List (MetricObservation ν)},
      Parts numbers batchIds r made parts pending → AddsNoneToStored numbers batchIds r steps →
      ∃ parts pending, Parts numbers batchIds (r.run numbers batchIds steps)
        (made ++ madeIn numbers batchIds r steps) parts pending
  | [], r, made, parts, pending, h, _ =>
    ⟨parts, pending, by simpa [MetricsRecorder.run, madeIn] using h⟩
  | s :: steps, r, made, parts, pending, h, hadds => by
    obtain ⟨parts, pending, hstep⟩ := h.step hids hadds.1
    have hrun := hstep.run hids hadds.2
    rw [madeIn, ← List.append_assoc]
    exact hrun

/-- The settled rows are the committed parts. -/
theorem Parts.settledRows (hids : Function.Injective batchIds)
    (h : Parts numbers batchIds r made parts pending) :
    r.settledRows batchIds = committedRows numbers batchIds 0 parts := by
  have hkept : (committedRows numbers batchIds 0 parts).filter
      (fun row => row.batchId ≠ batchIds r.batch) = committedRows numbers batchIds 0 parts := by
    rw [List.filter_eq_self]
    intro row hrow
    obtain ⟨n, -, hlt, hid⟩ := batchId_of_mem_committedRows numbers batchIds hrow
    have hne : batchIds n ≠ batchIds r.batch := by
      intro heq
      have := hids heq
      have hbatch := h.batch
      omega
    simp [hid, hne]
  have hdropped : (rowsOf numbers batchIds r.batch r.aggregates).filter
      (fun row => row.batchId ≠ batchIds r.batch) = [] := by
    rw [List.filter_eq_nil_iff]
    intro row hrow
    obtain ⟨item, -, rfl⟩ := List.mem_map.mp hrow
    simp
  rw [MetricsRecorder.settledRows, h.table, List.filter_append, hkept]
  split
  · rw [hdropped, List.append_nil]
  · rw [List.filter_nil, List.append_nil]

/-! ## Exactly once -/

/-- **Each observation is counted once.** -/
structure CountedOnce (numbers : GaugeNumbers ν) (batchIds : Nat → String) (steps : List (Step ν)) :
    Prop where
  parts : ∃ parts pending, Parts numbers batchIds (run numbers batchIds {} steps)
    (madeIn numbers batchIds {} steps) parts pending
  counters : ∀ key name,
    countOf numbers (counterCount ν name) ((run numbers batchIds {} steps).settledRows batchIds)
      key +
      counterOf (aggregateOf (run numbers batchIds {} steps).aggregates key) name =
    counterOf (aggregateOf (observeAll (madeIn numbers batchIds {} steps)) key) name
  buckets : ∀ key name bucket,
    countOf numbers (bucketCount ν name bucket)
      ((run numbers batchIds {} steps).settledRows batchIds)
        key +
      bucketOf (aggregateOf (run numbers batchIds {} steps).aggregates key) name bucket =
    bucketOf (aggregateOf (observeAll (madeIn numbers batchIds {} steps)) key) name bucket
  settled : (run numbers batchIds {} steps).stored batchIds = false →
    (run numbers batchIds {} steps).settledRows batchIds = (run numbers batchIds {} steps).table

/-- **What is settled and what is pending count the observations made.** -/
theorem Parts.count (hids : Function.Injective batchIds)
    (h : Parts numbers batchIds r made parts pending) (c : MetricCount ν) (key : MetricKey) :
    countOf numbers c (r.settledRows batchIds) key + c.count (aggregateOf r.aggregates key) =
      c.count (aggregateOf (observeAll made) key) := by
  rw [h.settledRows hids, countOf_committedRows, h.aggregates, c.count_observeAll,
    c.count_observeAll, h.made, List.map_append, List.sum_append]

/-- **Metrics are counted exactly once** in every run that adds nothing to aggregates that are
stored already, and a call that returns has made its observation. -/
theorem counted_once (numbers : GaugeNumbers ν) {batchIds : Nat → String}
    (hids : Function.Injective batchIds) (steps : List (Step ν))
    (hadds : AddsNoneToStored numbers batchIds {} steps) :
    CountedOnce numbers batchIds steps ∧
      ∀ (r r' : MetricsRecorder ν) (s : Step ν) (o : MetricObservation ν),
        s.observation numbers = some o → r.step numbers batchIds s = .ok r' →
          madeBy numbers batchIds r s = [o] := by
  have hstart : Parts numbers batchIds ({} : MetricsRecorder ν) [] [] [] := ⟨rfl, rfl, rfl, rfl⟩
  obtain ⟨parts, pending, hparts⟩ := hstart.run hids hadds
  rw [List.nil_append] at hparts
  refine ⟨⟨⟨parts, pending, hparts⟩, fun key name => ?_, fun key name bucket => ?_,
    fun hstored => ?_⟩,
    ?_⟩
  · exact hparts.count hids (counterCount ν name) key
  · exact hparts.count hids (bucketCount ν name bucket) key
  · exact settledRows_of_not_stored batchIds hstored
  · intro r r' s o ho hreturned
    exact madeBy_of_returned ho hreturned

end

/-! ## A part that grows after it was stored -/

/-- Batch identities of different lengths. -/
def sampleBatchId (batch : Nat) : String := String.ofList (List.replicate (batch + 1) 'b')

theorem sampleBatchId_injective : Function.Injective sampleBatchId := by
  intro m n h
  have hlength := congrArg List.length (@String.ofList_injective _ _ h)
  simpa using hlength

/-- Two rotations with flushes between them, and a last flush. -/
def rotationSteps (flushes : List CommitOutcome) : List (Step Int) :=
  [.call (.lifecycle "usdm" "btcusdt@depth" "planned_rotation" 0) .commits] ++ flushes.map .flush ++
    [.call (.lifecycle "usdm" "btcusdt@depth" "planned_rotation" 1) .commits, .flush .commits]

/-- A batch whose first commit fails and whose retry succeeds is counted once. -/
theorem rotationSteps_retried :
    CountedOnce wholeNumbers sampleBatchId (rotationSteps [.failsAfter, .commits]) :=
  (counted_once wholeNumbers sampleBatchId_injective (rotationSteps [.failsAfter, .commits]) (by
    refine ⟨?_, ?_, ?_, ?_, ?_, trivial⟩
    -- only the second flush finds its part stored, and it observes nothing
    case refine_3 =>
      rintro ⟨-, o, ho, -⟩
      cases ho
    all_goals
      rintro ⟨hstored, -⟩
      revert hstored
      decide)).1

/-- The second rotation is in no batch: the flush before has stored its own part and raised, and the
retry stores nothing. -/
theorem rotation_lost :
    ¬ ∀ steps : List (Step Int), CountedOnce wholeNumbers sampleBatchId steps := by
  intro h
  have hcounters := (h (rotationSteps [.failsAfter])).counters
    (metricKey 0 "usdm" "btcusdt@depth") "planned_reconnect"
  revert hcounters
  decide +kernel

end MetricsRecorder

end MarketDataRecorder
