import MarketDataRecorder.Metrics.ExactlyOnce

/-!
# The operations on one aggregate

What observations leave under a key is what the operations made on its aggregate come to. Of these
operations only those of gauges do not commute: a gauge is determined by the values it was given,
and the rest of an aggregate by the other operations, in any order.

* `opsMade` — the operations that observations make on the aggregate of a key
* `gaugeOf` — what the values of a gauge come to
* `applyOps_eq_iff` — when two sequences of operations come to the same
-/

namespace MarketDataRecorder

open MetricAggregate MetricAggregates

section

variable {ν : Type} [LinearOrder ν]

/-! ## Operations -/

/-- The operations before the first that raises. -/
def okOps (ops : List (MetricOp ν)) : List (MetricOp ν) := ops.takeWhile fun op => errorOf op = none

/-- What operations come to that do not raise. -/
def applyOps (ops : List (MetricOp ν)) (a : MetricAggregate ν) : MetricAggregate ν :=
  (ops.map effectOf).foldl merge a

theorem applyOps_append (xs ys : List (MetricOp ν)) (a : MetricAggregate ν) :
    applyOps (xs ++ ys) a = applyOps ys (applyOps xs a) := by
  rw [applyOps, List.map_append, List.foldl_append]
  rfl

theorem applyOps_eq_merge (ops : List (MetricOp ν)) (a : MetricAggregate ν) :
    applyOps ops a = a.merge (applyOps ops {}) :=
  List.foldl_merge_eq merge_assoc merge_empty empty_merge _ a

theorem performAll_eq : ∀ (ops : List (MetricOp ν)) (a : MetricAggregate ν),
    performAll ops a = (ops.findSome? errorOf, applyOps (okOps ops) a)
  | [], _ => rfl
  | op :: ops, a => by
    rw [performAll, perform_eq]
    cases herror : errorOf op with
    | some message => simp [okOps, applyOps, herror]
    | none =>
      simp only
      rw [performAll_eq ops]
      simp [okOps, applyOps, herror]

/-! ## Observations -/

/-- The operations of the runtime sample behind an observation. -/
def sampleOpsAt (key : MetricKey) (o : MetricObservation ν) : List (MetricOp ν) :=
  if o.ops.findSome? errorOf = none ∧ key.day = o.day then
    match o.sample with
    | .taken rss free cpu => okOps (sampleOps rss free cpu)
    | .notDue => []
    | .failed => []
  else []

/-- The operations of an observation on the aggregate of its key. -/
def ownOps (key : MetricKey) (o : MetricObservation ν) : List (MetricOp ν) :=
  if key = o.key then okOps o.ops else []

/-- The operations that observations make on the aggregate of a key, which may be in memory: a
sample goes into the aggregates that are. -/
def opsMade (key : MetricKey) : Bool → List (MetricObservation ν) → List (MetricOp ν)
  | _, [] => []
  | inMemory, o :: os =>
    let inMemory := inMemory || decide (key = o.key)
    ownOps key o ++ (if inMemory then sampleOpsAt key o else []) ++ opsMade key inMemory os

theorem get?_takeSample (key : MetricKey) (aggregates : MetricAggregates ν)
    (o : MetricObservation ν) (hok : o.ops.findSome? errorOf = none) :
    (takeSample o.day aggregates o.sample).2.get? key =
      (aggregates.get? key).map (applyOps (sampleOpsAt key o)) := by
  have hid : applyOps ([] : List (MetricOp ν)) = id := rfl
  rw [sampleOpsAt]
  cases o.sample with
  | notDue => simp [takeSample, hid]
  | failed => simp [takeSample, hid]
  | taken rss free cpu =>
    rw [takeSample, SortedDict.get?_mapValues]
    by_cases hday : key.day = o.day
    · simp only [hok, hday, and_self, if_true, performAll_eq]
    · simp [hday, hid]

theorem get?_observe (aggregates : MetricAggregates ν) (o : MetricObservation ν) (key : MetricKey) :
    (observe aggregates o).2.get? key =
      if key = o.key then
        some (applyOps (ownOps key o ++ sampleOpsAt key o) ((aggregates.get? key).getD {}))
      else (aggregates.get? key).map (applyOps (sampleOpsAt key o)) := by
  have hinsert : (aggregates.insert o.key
      (performAll o.ops (aggregateOf aggregates o.key)).2).get? key =
        if key = o.key then some (applyOps (ownOps key o) ((aggregates.get? key).getD {}))
        else aggregates.get? key := by
    rw [SortedDict.get?_insert, performAll_eq]
    split
    · next hkey => rw [ownOps, if_pos hkey, aggregateOf, hkey]
    · rfl
  rw [observe]
  split
  · next message hraised =>
    rw [performAll_eq] at hraised
    have hnone : sampleOpsAt key o = [] := by
      rw [sampleOpsAt, if_neg fun h => by simp [h.1] at hraised]
    have hid : applyOps ([] : List (MetricOp ν)) = id := rfl
    rw [hinsert, hnone, List.append_nil, hid, Option.map_id]
    rfl
  · next hraised =>
    rw [performAll_eq] at hraised
    rw [get?_takeSample key _ o hraised, hinsert]
    split
    · rw [applyOps_append]
      rfl
    · rfl

/-- **What observations leave under a key.** -/
theorem get?_foldl_observe (key : MetricKey) : ∀ (os : List (MetricObservation ν))
    (aggregates : MetricAggregates ν),
    (os.foldl (fun aggregates o => (observe aggregates o).2) aggregates).get? key =
      if (aggregates.get? key).isSome || os.any (fun o => key = o.key) then
        some (applyOps (opsMade key (aggregates.get? key).isSome os)
          ((aggregates.get? key).getD {}))
      else none
  | [], aggregates => by
    cases haggregate : aggregates.get? key <;> simp [haggregate, opsMade, applyOps]
  | o :: os, aggregates => by
    rw [List.foldl_cons, get?_foldl_observe key os, get?_observe, opsMade, List.any_cons]
    by_cases hkey : key = o.key
    · simp only [hkey, if_true, Option.isSome_some, Bool.true_or, Bool.or_true, decide_true,
        Option.getD_some, applyOps_append]
    · cases haggregate : aggregates.get? key with
      | none => simp [hkey, ownOps]
      | some a => simp [hkey, ownOps, applyOps_append]

theorem get?_observeAll (key : MetricKey) (os : List (MetricObservation ν)) :
    (observeAll os).get? key = if os.any (fun o => key = o.key) then
      some (applyOps (opsMade key false os) {}) else none :=
  get?_foldl_observe key os .empty

omit [LinearOrder ν] in
/-- On an aggregate that no observation is of, no operations are made. -/
theorem opsMade_eq_nil {key : MetricKey} : ∀ {os : List (MetricObservation ν)},
    os.any (fun o => key = o.key) = false → opsMade key false os = []
  | [], _ => rfl
  | o :: os, h => by
    rw [List.any_cons, Bool.or_eq_false_iff] at h
    rw [opsMade, ownOps, h.1, if_neg (of_decide_eq_false h.1), Bool.or_false,
      if_neg Bool.false_ne_true,
      opsMade_eq_nil h.2]
    rfl

/-! ## Counts -/

/-- An operation that sets no gauge. -/
def MetricOp.counts : MetricOp ν → Bool
  | .gauge _ _ => false
  | _ => true

omit [LinearOrder ν] in
theorem counts_sampleOps (rss free : ν) (cpu : Option ν) :
    (sampleOps rss free cpu).filter MetricOp.counts = [] := by
  rw [List.filter_eq_nil_iff]
  intro op hop
  rw [sampleOps, List.mem_append, List.mem_map] at hop
  rcases hop with hop | ⟨value, -, rfl⟩
  · rcases List.mem_pair.mp hop with rfl | rfl <;> exact Bool.false_ne_true
  · exact Bool.false_ne_true

omit [LinearOrder ν] in
theorem counts_sampleOpsAt (key : MetricKey) (o : MetricObservation ν) :
    (sampleOpsAt key o).filter MetricOp.counts = [] := by
  rw [sampleOpsAt]
  split
  · split
    · next rss free cpu _ =>
      have hprefix := (List.takeWhile_sublist (fun op : MetricOp ν => errorOf op = none)
        (l := sampleOps rss free cpu)).filter MetricOp.counts
      rw [counts_sampleOps, List.sublist_nil] at hprefix
      exact hprefix
    · rfl
    · rfl
  · rfl

omit [LinearOrder ν] in
/-- Samples set gauges: all that counts is an aggregate's own. -/
theorem counts_opsMade (key : MetricKey) : ∀ (os : List (MetricObservation ν)) (inMemory : Bool),
    (opsMade key inMemory os).filter MetricOp.counts =
      (os.flatMap (ownOps key)).filter MetricOp.counts
  | [], _ => rfl
  | o :: os, inMemory => by
    have hsample : (if inMemory || decide (key = o.key) then sampleOpsAt key o else []).filter
        MetricOp.counts = [] := by
      split
      · exact counts_sampleOpsAt key o
      · rfl
    rw [opsMade, List.filter_append, List.filter_append, hsample, List.append_nil,
      counts_opsMade key os, List.flatMap_cons, List.filter_append]

/-- An aggregate without its gauges. -/
def withoutGauges (a : MetricAggregate ν) : MetricAggregate ν := { a with gauges := .empty }

theorem withoutGauges_merge (a b : MetricAggregate ν) :
    withoutGauges (a.merge b) = (withoutGauges a).merge (withoutGauges b) := by
  refine MetricAggregate.ext ?_ ?_ ?_ ?_ ?_ <;> simp [withoutGauges, SortedDict.empty_mergeWith]

/-- **Without gauges, merging is commutative.** -/
theorem merge_comm_withoutGauges (a b : MetricAggregate ν) :
    (withoutGauges a).merge (withoutGauges b) = (withoutGauges b).merge (withoutGauges a) := by
  refine MetricAggregate.ext ?_ ?_ ?_ ?_ ?_
  · simp only [counters_merge]
    exact SortedDict.mergeWith_comm add_comm _ _
  · simp only [histograms_merge]
    exact SortedDict.mergeWith_comm (SortedDict.mergeWith_comm add_comm) _ _
  · simp only [gauges_merge]
    rfl
  · simp only [firstEventTime_merge]
    cases (withoutGauges a).firstEventTimeUtcNs <;>
      cases (withoutGauges b).firstEventTimeUtcNs <;> simp [min_comm]
  · simp only [lastEventTime_merge]
    cases (withoutGauges a).lastEventTimeUtcNs <;>
      cases (withoutGauges b).lastEventTimeUtcNs <;> simp [max_comm]

omit [LinearOrder ν] in
theorem withoutGauges_effectOf (op : MetricOp ν) :
    withoutGauges (effectOf op) = if op.counts then effectOf op else {} := by
  cases op with
  | increment name amount => rfl
  | histogram name value =>
    rw [effectOf]
    split <;> rfl
  | gauge name value => rfl
  | eventTime t => rfl

theorem withoutGauges_applyOps : ∀ (ops : List (MetricOp ν)) (a : MetricAggregate ν),
    withoutGauges (applyOps ops a) = applyOps (ops.filter MetricOp.counts) (withoutGauges a)
  | [], _ => rfl
  | op :: ops, a => by
    have hop : applyOps (op :: ops) a = applyOps ops (a.merge (effectOf op)) := rfl
    rw [hop, withoutGauges_applyOps ops, withoutGauges_merge, withoutGauges_effectOf,
      List.filter_cons]
    split
    · rfl
    · rw [merge_empty]

/-- Operations that count come to the same in any order. -/
theorem withoutGauges_applyOps_perm {ops ops' : List (MetricOp ν)}
    (h : (ops.filter MetricOp.counts).Perm (ops'.filter MetricOp.counts)) (a : MetricAggregate ν) :
    withoutGauges (applyOps ops a) = withoutGauges (applyOps ops' a) := by
  rw [withoutGauges_applyOps, withoutGauges_applyOps]
  refine (h.map effectOf).foldl_eq' (fun x hx y hy z => ?_) _
  have hfree : ∀ b ∈ (ops.filter MetricOp.counts).map effectOf, b = withoutGauges b := by
    intro b hb
    obtain ⟨op, hop, rfl⟩ := List.mem_map.mp hb
    rw [withoutGauges_effectOf, if_pos (List.mem_filter.mp hop).2]
  rw [merge_assoc, merge_assoc, hfree x hx, hfree y hy, merge_comm_withoutGauges]

/-! ## Gauges -/

/-- The value that an operation gives a gauge. -/
def MetricOp.valueFor (name : String) : MetricOp ν → Option ν
  | .gauge other value => if name = other then some value else none
  | _ => none

/-- The values that operations give a gauge. -/
def valuesOf (name : String) (ops : List (MetricOp ν)) : List ν :=
  ops.filterMap (MetricOp.valueFor name)

/-- What the values of a gauge come to: the last, and the greatest. -/
def gaugeOf (values : List ν) : Option (GaugeValue ν) :=
  values.getLast?.bind fun last => values.max?.map fun greatest => ⟨last, greatest⟩

theorem max?_concat : ∀ (values : List ν) (value : ν),
    (values ++ [value]).max? = some (values.max?.elim value (max · value))
  | [], value => rfl
  | first :: rest, value => by
    rw [List.cons_append, List.max?_cons', List.foldl_append, List.max?_cons']
    rfl

theorem gaugeOf_concat (values : List ν) (value : ν) :
    gaugeOf (values ++ [value]) = Option.merge mergeGauge (gaugeOf values)
      (some ⟨value, value⟩) := by
  rw [gaugeOf, gaugeOf, List.getLast?_concat, max?_concat]
  cases values with
  | nil => rfl
  | cons first rest =>
    rw [List.getLast?_cons, List.max?_cons']
    rfl

omit [LinearOrder ν] in
theorem get?_gauges_effectOf (name : String) (op : MetricOp ν) :
    (effectOf op).gauges.get? name = (op.valueFor name).map fun value => ⟨value, value⟩ := by
  cases op with
  | gauge other value =>
    have hone : (effectOf (.gauge other value)).gauges =
      SortedDict.empty.insert other (⟨value, value⟩ : GaugeValue ν) := rfl
    rw [hone, SortedDict.get?_insert, MetricOp.valueFor]
    split <;> rfl
  | increment other amount => rfl
  | histogram other value =>
    rw [effectOf]
    split <;> rfl
  | eventTime t => rfl

/-- **A gauge is what its values come to.** -/
theorem get?_gauges_applyOps (name : String) (ops : List (MetricOp ν)) :
    (applyOps ops {}).gauges.get? name = gaugeOf (valuesOf name ops) := by
  induction ops using List.reverseRecOn with
  | nil => rfl
  | append_singleton ops op ih =>
    have hlast : applyOps [op] (applyOps ops {}) = (applyOps ops {}).merge (effectOf op) := rfl
    rw [applyOps_append, hlast, gauges_merge, SortedDict.get?_mergeWith, ih, get?_gauges_effectOf,
      valuesOf, valuesOf, List.filterMap_append]
    cases hvalue : op.valueFor name with
    | none => simp [hvalue]
    | some value => simp [hvalue, gaugeOf_concat]

theorem gaugeOf_eq_iff (values values' : List ν) : gaugeOf values = gaugeOf values' ↔
    values.getLast? = values'.getLast? ∧ values.max? = values'.max? := by
  constructor
  · intro h
    cases values <;> cases values' <;>
      simp_all [gaugeOf, List.getLast?_cons]
  · rintro ⟨hlast, hmax⟩
    rw [gaugeOf, gaugeOf, hlast, hmax]

/-- **Operations that count the same come to the same, if and only if every gauge ends with the same
value and has the same greatest value.** -/
theorem applyOps_eq_iff {ops ops' : List (MetricOp ν)}
    (h : (ops.filter MetricOp.counts).Perm (ops'.filter MetricOp.counts)) :
    applyOps ops {} = applyOps ops' {} ↔ ∀ name,
      (valuesOf name ops).getLast? = (valuesOf name ops').getLast? ∧
        (valuesOf name ops).max? = (valuesOf name ops').max? := by
  simp only [← gaugeOf_eq_iff, ← get?_gauges_applyOps]
  constructor
  · intro heq name
    rw [heq]
  · intro hgauges
    have hcounts := withoutGauges_applyOps_perm h {}
    rw [MetricAggregate.ext_iff] at hcounts ⊢
    exact ⟨hcounts.1, hcounts.2.1, SortedDict.ext_get? hgauges, hcounts.2.2.2⟩

end

end MarketDataRecorder
