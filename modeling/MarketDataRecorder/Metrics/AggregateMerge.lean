import MarketDataRecorder.Metrics.Aggregate

/-!
# What an aggregate comes to

Merging as an operation on dictionaries, each thing that is done to an aggregate as the merge of
what it counts, and the round trip of the documents.
-/

namespace MarketDataRecorder

namespace MetricAggregate

variable {ν : Type}

/-! ## Merging -/

section

variable [LinearOrder ν]

/-- The later of two values of a gauge, under the larger maximum. -/
def mergeGauge (current later : GaugeValue ν) : GaugeValue ν :=
  ⟨later.last, max current.max later.max⟩

/-- Merging counts adds them up key by key. -/
theorem mergeCounts_eq (counts other : SortedDict String Int) :
    mergeCounts counts other = SortedDict.mergeWith (· + ·) counts other := by
  rw [mergeCounts, SortedDict.mergeWith]
  congr 1
  funext counts item
  rw [SortedDict.mergeItem]
  cases counts.get? item.1 with
  | none => rw [Option.getD_none, zero_add]
  | some count => rfl

@[simp] theorem counters_merge (a b : MetricAggregate ν) :
    (a.merge b).counters = SortedDict.mergeWith (· + ·) a.counters b.counters :=
  mergeCounts_eq _ _

@[simp] theorem histograms_merge (a b : MetricAggregate ν) :
    (a.merge b).histograms =
      SortedDict.mergeWith (SortedDict.mergeWith (· + ·)) a.histograms b.histograms := by
  rw [merge, SortedDict.mergeWith]
  simp only
  congr 1
  funext histograms item
  rw [SortedDict.mergeItem]
  cases histograms.get? item.1 with
  | none => rw [Option.getD_none, mergeCounts_eq, SortedDict.empty_mergeWith]
  | some counts => rw [Option.getD_some, mergeCounts_eq]

@[simp] theorem gauges_merge (a b : MetricAggregate ν) :
    (a.merge b).gauges = SortedDict.mergeWith mergeGauge a.gauges b.gauges := by
  rw [merge, SortedDict.mergeWith]
  simp only
  congr 1
  funext gauges item
  rw [SortedDict.mergeItem]
  cases gauges.get? item.1 <;> rfl

@[simp] theorem firstEventTime_merge (a b : MetricAggregate ν) :
    (a.merge b).firstEventTimeUtcNs =
      Option.merge min a.firstEventTimeUtcNs b.firstEventTimeUtcNs := by
  rw [merge]
  simp only
  cases a.firstEventTimeUtcNs <;> cases b.firstEventTimeUtcNs <;> rfl

@[simp] theorem lastEventTime_merge (a b : MetricAggregate ν) :
    (a.merge b).lastEventTimeUtcNs =
      Option.merge max a.lastEventTimeUtcNs b.lastEventTimeUtcNs := by
  rw [merge]
  simp only
  cases a.lastEventTimeUtcNs <;> cases b.lastEventTimeUtcNs <;> rfl

theorem merge_empty (a : MetricAggregate ν) : a.merge {} = a := rfl

theorem empty_merge (a : MetricAggregate ν) : merge {} a = a := by
  refine MetricAggregate.ext ?_ ?_ ?_ ?_ ?_ <;> simp [SortedDict.empty_mergeWith]

/-- Adding counts is associative. -/
theorem add_counts_assoc (a b c : SortedDict String Int) :
    SortedDict.mergeWith (· + ·) (SortedDict.mergeWith (· + ·) a b) c =
      SortedDict.mergeWith (· + ·) a (SortedDict.mergeWith (· + ·) b c) :=
  SortedDict.mergeWith_assoc add_assoc a b c

/-- **Merging is associative.** -/
theorem merge_assoc (a b c : MetricAggregate ν) : (a.merge b).merge c = a.merge (b.merge c) := by
  refine MetricAggregate.ext ?_ ?_ ?_ ?_ ?_
  · simp only [counters_merge, add_counts_assoc]
  · simp only [histograms_merge]
    exact SortedDict.mergeWith_assoc add_counts_assoc _ _ _
  · simp only [gauges_merge]
    refine SortedDict.mergeWith_assoc (fun x y z => ?_) _ _ _
    simp only [mergeGauge, max_assoc]
  · simp only [firstEventTime_merge]
    cases a.firstEventTimeUtcNs <;> cases b.firstEventTimeUtcNs <;>
      cases c.firstEventTimeUtcNs <;> simp [min_assoc]
  · simp only [lastEventTime_merge]
    cases a.lastEventTimeUtcNs <;> cases b.lastEventTimeUtcNs <;>
      cases c.lastEventTimeUtcNs <;> simp [max_assoc]

/-! ## Operations -/

/-- What an operation counts. -/
def effectOf : MetricOp ν → MetricAggregate ν
  | .increment name amount => { counters := .ofItems [(name, amount)] }
  | .histogram name value =>
    match histogramBucket value with
    | .error _ => {}
    | .ok bucket => { histograms := .ofItems [(name, .ofItems [(bucket, 1)])] }
  | .gauge name value => { gauges := .ofItems [(name, ⟨value, value⟩)] }
  | .eventTime t => { firstEventTimeUtcNs := some t, lastEventTimeUtcNs := some t }

/-- What an operation raises. -/
def errorOf : MetricOp ν → Option String
  | .increment name amount =>
    if name ∉ counterNames ∨ amount < 0 then some ("invalid metric counter " ++ name) else none
  | .histogram name value =>
    if name ∉ histogramNames then some ("invalid metric histogram " ++ name)
    else match histogramBucket value with
      | .error message => some message
      | .ok _ => none
  | .gauge name _ => if name ∉ gaugeNames then some ("invalid metric gauge " ++ name) else none
  | .eventTime _ => none

/-- Updating one key merges a single entry in. -/
theorem insert_eq_mergeWith {β : Type} {f : β → β → β} (d : SortedDict String β) (k : String)
    (v : β) : d.insert k (match d.get? k with
      | none => v
      | some value => f value v) = SortedDict.mergeWith f d (.ofItems [(k, v)]) := rfl

/-- **An operation raises, whatever the aggregate is, or merges what it counts into it.** -/
theorem perform_eq (a : MetricAggregate ν) (op : MetricOp ν) :
    a.perform op = match errorOf op with
      | some message => .error message
      | none => .ok (a.merge (effectOf op)) := by
  cases op with
  | increment name amount =>
    rw [perform, increment, errorOf]
    split
    · rfl
    · refine congrArg Except.ok (MetricAggregate.ext ?_ ?_ rfl rfl rfl)
      · rw [counters_merge, effectOf, ← insert_eq_mergeWith]
        cases a.counters.get? name with
        | none => rw [Option.getD_none, zero_add]
        | some count => rfl
      · rfl
  | histogram name value =>
    rw [perform, observeHistogram, errorOf, effectOf]
    split
    · rfl
    cases histogramBucket value with
    | error message => rfl
    | ok bucket =>
      refine congrArg Except.ok (MetricAggregate.ext rfl ?_ rfl rfl rfl)
      rw [histograms_merge, ← insert_eq_mergeWith]
      cases a.histograms.get? name with
      | none => rfl
      | some counts =>
        simp only [Option.getD_some]
        rw [← insert_eq_mergeWith]
        cases counts.get? bucket with
        | none => rw [Option.getD_none, zero_add]
        | some count => rfl
  | gauge name value =>
    rw [perform, observeGauge, errorOf]
    split
    · rfl
    · refine congrArg Except.ok (MetricAggregate.ext rfl rfl ?_ rfl rfl)
      rw [gauges_merge, effectOf, ← insert_eq_mergeWith]
      cases a.gauges.get? name with
      | none => simp
      | some current => rfl
  | eventTime t =>
    refine congrArg Except.ok (MetricAggregate.ext rfl rfl rfl ?_ ?_)
    · rw [firstEventTime_merge, effectOf, observeEventTime]
      cases a.firstEventTimeUtcNs <;> rfl
    · rw [lastEventTime_merge, effectOf, observeEventTime]
      cases a.lastEventTimeUtcNs <;> rfl

end

/-! ## Validity -/

/-- What the operations leave and `from_document` takes: known names, and no negative count. -/
structure Valid (a : MetricAggregate ν) : Prop where
  counters : ∀ name value, a.counters.get? name = some value → name ∈ counterNames ∧ 0 ≤ value
  histograms : ∀ name counts, a.histograms.get? name = some counts → name ∈ histogramNames ∧
    ∀ bucket count, counts.get? bucket = some count → 0 ≤ count
  gauges : ∀ name gauge, a.gauges.get? name = some gauge → name ∈ gaugeNames

theorem valid_empty : Valid ({} : MetricAggregate ν) where
  counters := fun name value h => by cases h
  histograms := fun name counts h => by cases h
  gauges := fun name gauge h => by cases h

theorem get?_ofItems_singleton {β : Type} {k k' : String} {v v' : β} :
    (SortedDict.ofItems [(k, v)]).get? k' = some v' ↔ k' = k ∧ v' = v := by
  have hone : SortedDict.ofItems [(k, v)] = SortedDict.empty.insert k v := rfl
  rw [hone, SortedDict.get?_insert]
  by_cases hk : k' = k
  · rw [if_pos hk, Option.some.injEq]
    constructor
    · intro h
      exact ⟨hk, h.symm⟩
    · intro h
      exact h.2.symm
  · rw [if_neg hk, SortedDict.get?_empty]
    constructor
    · intro h
      cases h
    · intro h
      exact absurd h.1 hk

/-- What is not raised counts validly. -/
theorem valid_effectOf {op : MetricOp ν} (h : errorOf op = none) : (effectOf op).Valid := by
  cases op with
  | increment name amount =>
    rw [errorOf] at h
    split at h
    · cases h
    · next hvalid =>
      rw [not_or, not_not, not_lt] at hvalid
      refine ⟨fun name' value hget => ?_, (@valid_empty ν).histograms, (@valid_empty ν).gauges⟩
      obtain ⟨rfl, rfl⟩ := get?_ofItems_singleton.mp hget
      exact hvalid
  | histogram name value =>
    rw [errorOf] at h
    split at h
    · cases h
    next hname =>
    rw [effectOf]
    cases hbucket : histogramBucket value with
    | error message => exact (@valid_empty ν)
    | ok bucket =>
      refine ⟨(@valid_empty ν).counters, fun name' counts hget => ?_, (@valid_empty ν).gauges⟩
      obtain ⟨rfl, rfl⟩ := get?_ofItems_singleton.mp hget
      refine ⟨not_not.mp hname, fun bucket' count hcount => ?_⟩
      obtain ⟨-, rfl⟩ := get?_ofItems_singleton.mp hcount
      exact Int.one_nonneg
  | gauge name value =>
    rw [errorOf] at h
    split at h
    · cases h
    · next hname =>
      refine ⟨(@valid_empty ν).counters, (@valid_empty ν).histograms, fun name' gauge hget => ?_⟩
      obtain ⟨rfl, -⟩ := get?_ofItems_singleton.mp hget
      exact not_not.mp hname
  | eventTime t => exact ⟨(@valid_empty ν).counters, (@valid_empty ν).histograms,
    (@valid_empty ν).gauges⟩

/-- Values that stand under a key of a merge have a property that the rule keeps. -/
theorem merge_keeps {β : Type} {f : β → β → β} {P : β → Prop} (hkeeps : ∀ a b, P a →
    P b → P (f a b))
    {a b : Option β} (ha : ∀ v, a = some v → P v) (hb : ∀ v, b = some v → P v) :
    ∀ v, Option.merge f a b = some v → P v := by
  intro v h
  cases a <;> cases b <;> simp only [Option.merge_none_left, Option.merge_none_right,
    Option.merge_some_some, Option.some.injEq, reduceCtorEq] at h
  · exact hb v (by rw [h])
  · exact ha v (by rw [h])
  · rw [← h]
    exact hkeeps _ _ (ha _ rfl) (hb _ rfl)

/-- Merged aggregates are valid. -/
theorem Valid.merge [LinearOrder ν] {a b : MetricAggregate ν} (ha : a.Valid) (hb : b.Valid) :
    (a.merge b).Valid := by
  refine ⟨fun name value h => ?_, fun name counts h => ?_, fun name gauge h => ?_⟩
  · rw [counters_merge, SortedDict.get?_mergeWith] at h
    exact merge_keeps (P := fun value => name ∈ counterNames ∧ 0 ≤ value)
      (fun x y hx hy => ⟨hx.1, add_nonneg hx.2 hy.2⟩) (ha.counters name) (hb.counters name) value h
  · rw [histograms_merge, SortedDict.get?_mergeWith] at h
    refine merge_keeps (P := fun counts : SortedDict String Int => name ∈ histogramNames ∧
      ∀ bucket count, counts.get? bucket = some count → 0 ≤ count)
      (fun x y hx hy => ⟨hx.1, fun bucket count hcount => ?_⟩) (ha.histograms name)
      (hb.histograms name) counts h
    rw [SortedDict.get?_mergeWith] at hcount
    exact merge_keeps (P := fun count => 0 ≤ count) (fun _ _ => add_nonneg) (hx.2 bucket)
      (hy.2 bucket) count hcount
  · rw [gauges_merge, SortedDict.get?_mergeWith] at h
    exact merge_keeps (P := fun _ => name ∈ gaugeNames) (fun _ _ hx _ => hx) (ha.gauges name)
      (hb.gauges name) gauge h

/-! ## Documents -/

/-- A loop that puts the items of a dictionary in, one behind the other, puts the dictionary in. -/
theorem foldlM_put {σ β : Type} {step : σ → String × Value → Except String σ} {value : β → Value}
    (put : SortedDict String β → σ) {d : SortedDict String β}
    (hstep : ∀ before k v, (k, v) ∈ d.items → before.get? k = none →
      step (put before) (k, value v) = .ok (put (before.insert k v))) :
    (d.items.map fun item => (item.1, value item.2)).foldlM step (put .empty) = .ok (put d) := by
  have hloop : ∀ before rest : List (String × β), before ++ rest = d.items →
      (rest.map fun item => (item.1, value item.2)).foldlM step (put (.ofItems before)) =
        .ok (put d) := by
    intro before rest
    induction rest generalizing before with
    | nil =>
      intro hall
      rw [List.append_nil] at hall
      rw [hall, SortedDict.ofItems_items]
      rfl
    | cons item rest ih =>
      intro hall
      have hmem : item ∈ d.items := by
        rw [← hall]
        simp
      have hnew : (SortedDict.ofItems before).get? item.1 = none := by
        rw [SortedDict.get?_ofItems, Option.map_eq_none_iff, List.getLast?_eq_none_iff,
          List.filter_eq_nil_iff]
        intro p hp
        have hsorted := d.sorted
        rw [← hall, List.pairwise_append] at hsorted
        have hlt := hsorted.2.2 p hp item List.mem_cons_self
        simpa using hlt.ne
      rw [List.map_cons, List.foldlM_cons, hstep _ _ _ hmem hnew, ← SortedDict.ofItems_append]
      exact ih (before ++ [item]) (by rw [← hall]; simp)
  exact hloop [] d.items rfl

variable (numbers : GaugeNumbers ν)

/-- Counters read back. -/
theorem foldlM_counters {a : MetricAggregate ν} (ha : a.Valid) :
    (a.counters.items.map fun item => (item.1, Value.int item.2)).foldlM counterFromDocument
      ({} : MetricAggregate ν) = .ok { counters := a.counters } := by
  refine foldlM_put (fun counters => ({ counters := counters } : MetricAggregate ν)) ?_
  intro before name value hmem hnew
  obtain ⟨hname, hvalue⟩ := ha.counters name value (SortedDict.get?_eq_some_iff.mpr hmem)
  simp only [counterFromDocument, increment, hname, not_true_eq_false, false_or, not_lt.mpr hvalue,
    if_false, hnew, Option.getD_none, zero_add]

/-- The buckets of a histogram read back. -/
theorem foldlM_buckets {counts : SortedDict String Int}
    (h : ∀ bucket count, counts.get? bucket = some count → 0 ≤ count) :
    (counts.items.map fun item => (item.1, Value.int item.2)).foldlM bucketFromDocument .empty =
      .ok counts := by
  refine foldlM_put (fun counts => counts) ?_
  intro before bucket count hmem _
  have hcount := h bucket count (SortedDict.get?_eq_some_iff.mpr hmem)
  simp only [bucketFromDocument, asInt, not_lt.mpr hcount, if_false]

/-- Histograms read back. -/
theorem foldlM_histograms {a : MetricAggregate ν} (ha : a.Valid)
    (counters : SortedDict String Int) :
    (a.histograms.items.map fun item => (item.1, dictValue Value.int item.2)).foldlM
      histogramFromDocument ({ counters := counters } : MetricAggregate ν) =
        .ok { counters := counters, histograms := a.histograms } := by
  refine foldlM_put (fun histograms =>
    ({ counters := counters, histograms := histograms } : MetricAggregate ν)) ?_
  intro before name counts hmem _
  obtain ⟨hname, hcounts⟩ := ha.histograms name counts (SortedDict.get?_eq_some_iff.mpr hmem)
  simp only [histogramFromDocument, dictValue, hname, not_true_eq_false, if_false,
    foldlM_buckets hcounts]
  rfl

/-- Gauges read back. -/
theorem foldlM_gauges {a : MetricAggregate ν} (ha : a.Valid) (counters : SortedDict String Int)
    (histograms : SortedDict String (SortedDict String Int)) :
    (a.gauges.items.map fun item => (item.1, gaugeDocument numbers item.2)).foldlM
      (gaugeFromDocument numbers)
      ({ counters := counters, histograms := histograms } : MetricAggregate ν) =
        .ok { counters := counters, histograms := histograms, gauges := a.gauges } := by
  refine foldlM_put (fun gauges =>
    ({ counters := counters, histograms := histograms, gauges := gauges } : MetricAggregate ν)) ?_
  intro before name gauge hmem _
  have hname := ha.gauges name gauge (SortedDict.get?_eq_some_iff.mpr hmem)
  have hlast : ((gaugeDocument numbers gauge).get? "last").bind numbers.ofValue = some gauge.last :=
    numbers.ofValue_toValue _
  have hmax : ((gaugeDocument numbers gauge).get? "max").bind numbers.ofValue = some gauge.max :=
    numbers.ofValue_toValue _
  rw [gaugeDocument] at hlast hmax
  simp only [gaugeFromDocument, gaugeDocument, hname, not_true_eq_false, if_false, hlast, hmax]

/-- An event time reads back, absent as `null`. -/
theorem timeFromDocument_timeValue (message : String) (t : Option Int) :
    timeFromDocument message (some (timeValue t)) = .ok t := by
  cases t <;> rfl

/-- **A document gives back the aggregate.** -/
theorem fromDocument_document {a : MetricAggregate ν} (ha : a.Valid) :
    fromDocument numbers (a.document numbers) = .ok a := by
  have hversion : (a.document numbers).get? "schema_version" =
      some (.str aggregateSchemaVersion) := rfl
  have hcounters : (a.document numbers).get? "counters" =
      some (.dict (a.counters.items.map fun item => (item.1, Value.int item.2))) := rfl
  have hhistograms : (a.document numbers).get? "histograms" =
      some (.dict (a.histograms.items.map fun item => (item.1, dictValue Value.int item.2))) := rfl
  have hgauges : (a.document numbers).get? "gauges" =
      some (.dict (a.gauges.items.map fun item => (item.1, gaugeDocument numbers item.2))) := rfl
  have hfirst : (a.document numbers).get? "first_event_time_utc_ns" =
      some (timeValue a.firstEventTimeUtcNs) := rfl
  have hlast : (a.document numbers).get? "last_event_time_utc_ns" =
      some (timeValue a.lastEventTimeUtcNs) := rfl
  rw [fromDocument, if_neg (not_not.mpr hversion), hcounters, hhistograms, hgauges, hfirst, hlast]
  simp only [foldlM_counters ha, foldlM_histograms ha, foldlM_gauges numbers ha,
    timeFromDocument_timeValue, bind, Except.bind, pure, Except.pure]

theorem plain_dictValue {β : Type} {value : β → Value} (h : ∀ v, Json.Plain (value v))
    (d : SortedDict String β) : Json.Plain (dictValue value d) := by
  refine ⟨List.pairwise_map.mpr d.sorted, Json.plainMembers_iff.mpr fun item hitem => ?_⟩
  obtain ⟨p, -, rfl⟩ := List.mem_map.mp hitem
  exact h p.2

/-- A document can be written as JSON and read back. -/
theorem plain_document (a : MetricAggregate ν) : Json.Plain (a.document numbers) := by
  have hint : ∀ i : Int, Json.Plain (.int i) := fun i => trivial
  have htime : ∀ t, Json.Plain (timeValue t) := by
    rintro (_ | t) <;> trivial
  have hgauge : ∀ gauge, Json.Plain (gaugeDocument numbers gauge) := by
    intro gauge
    have hkeys : ["last", "max"].Pairwise (· < ·) := by decide
    exact ⟨List.pairwise_map.mp hkeys, numbers.plain _, numbers.plain _, trivial⟩
  have hkeys : ["counters", "first_event_time_utc_ns", "gauges", "histograms",
      "last_event_time_utc_ns", "schema_version"].Pairwise (· < ·) := by decide
  exact ⟨List.pairwise_map.mp hkeys, plain_dictValue hint _, htime _, plain_dictValue hgauge _,
    plain_dictValue (plain_dictValue hint) _, htime _, trivial, trivial⟩

end MetricAggregate

end MarketDataRecorder
