import MarketDataRecorder.Catalog.Discontinuities

/-!
# The readers of discontinuities compared

Each reader is written over the same keyed rows: those of a log in the order of time, or in the
order of the table. What they say follows from what pairing finds there.

* `EventLog.discontinuity_readers_agree_iff` — when the readers say the same
* `EventLog.rows_accounted_iff` — when every row is either paired or listed
-/

namespace MarketDataRecorder

namespace EventLog

variable (legacyIdentitySchema : Bool) (log : EventLog)

/-! ## Ordered rows -/

section

variable {log}

/-- An event id names one row. -/
theorem eq_of_eventId {a b : EventRow} (ha : a ∈ log.rows) (hb : b ∈ log.rows)
    (h : a.eventId = b.eventId) : a = b :=
  List.inj_on_of_nodup_map log.nodup ha hb h

/-- Rows of the table have one order by time and id. -/
theorem eq_of_before {rows rows' : List EventRow} (hperm : rows.Perm rows')
    (hmem : ∀ row ∈ rows, row ∈ log.rows) (hrows : rows.Pairwise EventRow.before)
    (hrows' : rows'.Pairwise EventRow.before) : rows = rows' := by
  refine hperm.eq_of_pairwise (fun a b ha hb hab hba => ?_) hrows hrows'
  have hid : a.eventId = b.eventId := by
    rcases hab with hab | ⟨htime, hab⟩ <;> rcases hba with hba | ⟨htime', hba⟩
    · omega
    · omega
    · omega
    · exact le_antisymm hab hba
  exact eq_of_eventId (hmem a ha) (hmem b (hperm.symm.subset hb)) hid

/-- Ordered rows are in the order of time and event id. -/
theorem pairwise_before (rows : List EventRow) :
    (rows.insertionSort EventRow.before).Pairwise EventRow.before := by
  have : Std.Total EventRow.before := by
    refine ⟨fun a b => ?_⟩
    rcases lt_trichotomy a.occurredAtUtcNs b.occurredAtUtcNs with h | h | h
    · exact Or.inl (Or.inl h)
    · rcases le_total a.eventId b.eventId with hid | hid
      · exact Or.inl (Or.inr ⟨h, hid⟩)
      · exact Or.inr (Or.inr ⟨h.symm, hid⟩)
    · exact Or.inr (Or.inl h)
  have : IsTrans EventRow EventRow.before := by
    refine ⟨?_⟩
    rintro a b c (hab | ⟨hab, hab'⟩) (hbc | ⟨hbc, hbc'⟩)
    · exact Or.inl (hab.trans hbc)
    · exact Or.inl (hbc ▸ hab)
    · exact Or.inl (hab ▸ hbc)
    · exact Or.inr ⟨hab.trans hbc, hab'.trans hbc'⟩
  exact List.pairwise_insertionSort _ _

/-- The lifecycle rows of the single pass are those of the separate queries. -/
theorem filter_lifecycle_eq_orderedRows {asOfUtcNs : Int}
    (hbound : ∀ row ∈ log.rows, row.occurredAtUtcNs ≤ asOfUtcNs) :
    ((log.rows.filter fun row => row.occurredAtUtcNs ≤ asOfUtcNs).insertionSort
      EventRow.before).filter EventRow.isLifecycle = log.orderedRows := by
  have hall : (log.rows.filter fun row => row.occurredAtUtcNs ≤ asOfUtcNs) = log.rows := by
    rw [List.filter_eq_self]
    intro row hrow
    simpa using hbound row hrow
  rw [hall]
  refine @eq_of_before log _ _ ?_ ?_ ((pairwise_before _).filter _) (pairwise_before _)
  · exact ((List.perm_insertionSort _ _).filter _).trans (List.perm_insertionSort _ _).symm
  · intro row hrow
    exact (List.mem_insertionSort _).mp (List.mem_of_mem_filter hrow)

/-- The ordered rows are the lifecycle rows of the log. -/
theorem mem_orderedRows {row : EventRow} :
    row ∈ log.orderedRows ↔ row ∈ log.rows ∧ row.isLifecycle = true := by
  rw [orderedRows, List.mem_insertionSort, List.mem_filter]

/-- Ordering the rows loses and adds none. -/
theorem perm_orderedRows : log.orderedRows.Perm (log.rows.filter EventRow.isLifecycle) :=
  List.perm_insertionSort _ _

end

/-! ## Keying and listing one row -/

section

variable {legacyIdentitySchema}

/-- Evidence with a field is an object. -/
theorem isDict_of_evidenceText {evidence : Value} {name text : String}
    (h : evidenceText evidence name = some text) : evidence.isDict = true := by
  cases evidence with
  | dict items => rfl
  | oddDict text => rfl
  | _ => cases h

/-- A text taken from evidence is not empty. -/
theorem evidenceText_ne_empty {evidence : Value} {name text : String}
    (h : evidenceText evidence name = some text) : text ≠ "" := by
  unfold evidenceText at h
  split at h
  · split at h
    · cases h
    · next hne =>
      cases h
      exact hne
  · cases h

/-- An identity has no empty part. -/
theorem not_mem_key_of_identity {evidence : Value} {gap : GapIdentity}
    (hgap : identityUnder legacyIdentitySchema evidence = some gap) : "" ∉ gap.key := by
  simp only [identityUnder, Option.bind_eq_bind, Option.bind_eq_some_iff, Option.pure_def,
    Option.some.injEq] at hgap
  obtain ⟨market, hmarket, symbol, hsymbol, stream, hstream, gapId, hgapId, rfl⟩ := hgap
  have hne : symbol ≠ "" := by
    unfold symbolUnder at hsymbol
    split at hsymbol
    · split at hsymbol
      · cases hsymbol
        decide
      · cases hsymbol
    · exact evidenceText_ne_empty hsymbol
  simp [GapIdentity.key, StreamIdentity.key, (evidenceText_ne_empty hmarket).symm, hne.symm,
    (evidenceText_ne_empty hstream).symm, (evidenceText_ne_empty hgapId).symm]

/-- A gap has no identity where one of its four texts is missing. -/
theorem identityUnder_eq_none_iff {evidence : Value} :
    identityUnder legacyIdentitySchema evidence = none ↔
      evidenceText evidence "market" = none ∨ symbolUnder legacyIdentitySchema evidence = none ∨
        evidenceText evidence "stream" = none ∨ evidenceText evidence "gap_id" = none := by
  rw [identityUnder]
  cases evidenceText evidence "market" <;>
    cases symbolUnder legacyIdentitySchema evidence <;>
    cases evidenceText evidence "stream" <;>
    cases evidenceText evidence "gap_id" <;> simp

/-- A lifecycle row starts a gap where it does not complete one. -/
theorem started_iff {row : EventRow} :
    row.eventType = startedType ↔ row.isLifecycle = true ∧ row.isCompletion = false := by
  have hne : startedType ≠ completedType := by decide
  simp only [EventRow.isLifecycle, EventRow.isCompletion, discontinuityEventTypes,
    List.mem_cons, List.not_mem_nil, or_false, decide_eq_true_eq, decide_eq_false_iff_not]
  constructor
  · intro h
    exact ⟨Or.inl h, h ▸ hne⟩
  · rintro ⟨h | h, hcompleted⟩
    · exact h
    · exact absurd h hcompleted

variable [Json.Reader]

/-- A row with a complete identity is not listed. -/
theorem malformedReason_of_identity {row : EventRow} {evidence : Value} {gap : GapIdentity}
    (hparse : row.evidence = some evidence)
    (hgap : identityUnder legacyIdentitySchema evidence = some gap) :
    malformedReason legacyIdentitySchema row = none := by
  simp only [identityUnder, Option.bind_eq_bind, Option.bind_eq_some_iff] at hgap
  obtain ⟨market, hmarket, symbol, hsymbol, stream, hstream, gapId, hgapId, -⟩ := hgap
  simp only [malformedReason, hparse, isDict_of_evidenceText hmarket, hmarket, hstream, hgapId]
  by_cases habsent : evidence.get? "symbol" = none
  · rw [symbolUnder, if_pos habsent] at hsymbol
    have hlegacy : legacyIdentitySchema = true := by
      by_contra hne
      simp [hne] at hsymbol
    simp [habsent, hlegacy]
  · rw [symbolUnder, if_neg habsent] at hsymbol
    simp [hsymbol]

/-- A row is valid where it is keyed: the listed defects are all that keying refuses. -/
theorem validRow_eq_keyed (row : EventRow) :
    validRow legacyIdentitySchema row = keyed legacyIdentitySchema row := by
  unfold validRow
  split
  · rfl
  · next hreason =>
    unfold keyed
    split
    · rfl
    · next evidence hparse =>
      cases hgap : identityUnder legacyIdentitySchema evidence with
      | none => rfl
      | some gap => exact absurd (malformedReason_of_identity hparse hgap) hreason

/-- A row is keyed by its evidence's gap. -/
theorem keyed_eq_some {row : EventRow} {k : KeyedRow} :
    keyed legacyIdentitySchema row = some k ↔
      k.row = row ∧ row.evidence = some k.evidence ∧
        identityUnder legacyIdentitySchema k.evidence = some k.gap := by
  obtain ⟨row', evidence', gap'⟩ := k
  unfold keyed
  cases hparse : row.evidence with
  | none => simp
  | some evidence =>
    simp only [Option.map_eq_some_iff, KeyedRow.mk.injEq, Option.some.injEq]
    constructor
    · rintro ⟨gap, hgap, rfl, rfl, rfl⟩
      exact ⟨rfl, rfl, hgap⟩
    · rintro ⟨rfl, rfl, hgap⟩
      exact ⟨gap', hgap, rfl, rfl, rfl⟩

end

/-! ## Agreement -/

section

variable [Json.Reader] {legacyIdentitySchema} {log}

/-- **What one pass has to say for the separate readers**: the same unclosed discontinuities, closed
intervals, malformed events and degraded pairs, none of them raised over, and the lifecycle of each
gap that follows from them. -/
structure ReadersAgree (legacyIdentitySchema : Bool) (log : EventLog)
    (authority : DiscontinuityAuthority) : Prop where
  unclosed : log.unclosedStreamDiscontinuitiesByStream legacyIdentitySchema =
    .ok authority.unclosed
  closed : log.closedStreamDiscontinuityIntervalsByStream legacyIdentitySchema =
    .ok authority.closed
  malformed : log.malformedDiscontinuityEvents legacyIdentitySchema =
    .ok authority.malformedEvents
  degraded : log.degradedClosedDiscontinuityPairs legacyIdentitySchema = .ok authority.degradedPairs
  opened : ∀ gap, "" ∉ gap.key →
    (log.streamDiscontinuityLifecycle legacyIdentitySchema gap = .ok .opened ↔
      ∃ document ∈ (authority.unclosed.get? gap.stream).getD [],
        identityUnder legacyIdentitySchema document.evidence = some gap)
  paired : ∀ gap,
    ((∃ interval ∈ (authority.closed.get? gap.stream).getD [], interval.gap = gap) ∨
        ∃ pair ∈ authority.degradedPairs, pair.gap = gap) ↔
      log.streamDiscontinuityLifecycle legacyIdentitySchema gap = .ok .closed ∧
        ∃ row ∈ log.rows, row.eventType = startedType ∧
          (keyed legacyIdentitySchema row).map KeyedRow.gap = some gap

/-- Every lifecycle row has an evidence that is JSON. -/
def EvidenceIsJson (log : EventLog) : Prop :=
  ∀ row ∈ log.rows, row.isLifecycle = true → row.evidence ≠ none

/-- The readers of the lifecycle rows do not raise over any of them. -/
def Parses (log : EventLog) : Prop :=
  ∀ row ∈ log.rows.filter EventRow.isLifecycle, row.raises = false

/-- No row at all has an evidence over which a reader raises. -/
def NoneRaises (log : EventLog) : Prop := ∀ row ∈ log.rows, row.raises = false

/-- The last rows of a gap are as valid a pair in the order of the table as in the order of time. -/
def PairsOrdered (legacyIdentitySchema : Bool) (log : EventLog) : Prop :=
  ∀ gap,
    pairValid ((log.rows.filter EventRow.isLifecycle).filterMap (keyed legacyIdentitySchema)) gap =
      pairValid (log.orderedRows.filterMap (keyed legacyIdentitySchema)) gap

/-- A row that is JSON does not raise. -/
theorem raises_of_evidence {row : EventRow} (h : row.evidence ≠ none) : row.raises = false := by
  unfold EventRow.evidence at h
  unfold EventRow.raises
  cases hloads : row.loads with
  | raised =>
    rw [hloads] at h
    exact absurd rfl h
  | value v => rfl
  | invalid => rfl

theorem EvidenceIsJson.parses (h : log.EvidenceIsJson) : log.Parses := by
  intro row hrow
  obtain ⟨hrow, hlifecycle⟩ := List.mem_filter.mp hrow
  exact raises_of_evidence (h row hrow hlifecycle)

/-- Rows that no reader raises at are read. -/
theorem NoneRaises.parses (h : log.NoneRaises) : log.Parses :=
  fun row hrow => h row (List.mem_of_mem_filter hrow)

/-- Where every row has evidence, keying them raises nothing and drops the rest. -/
theorem keyedOrRaise_eq_ok :
    ∀ {rows : List EventRow}, (∀ row ∈ rows, row.evidence ≠ none) →
      keyedOrRaise legacyIdentitySchema rows = .ok (rows.filterMap (keyed legacyIdentitySchema))
  | [], _ => rfl
  | row :: rows, h => by
    obtain ⟨evidence, hparse⟩ := Option.ne_none_iff_exists'.mp (h row List.mem_cons_self)
    have hloads : row.loads = .value evidence := Json.Loads.value?_eq_some.mp hparse
    have ih := keyedOrRaise_eq_ok fun r hr => h r (List.mem_cons_of_mem _ hr)
    rw [keyedOrRaise, hloads, ih, List.filterMap_cons, keyed, hparse]
    dsimp only
    cases hgap : identityUnder legacyIdentitySchema evidence with
    | none => rfl
    | some gap => rfl

/-- Where keying raises nothing, every row has evidence. -/
theorem evidence_of_keyedOrRaise :
    ∀ {rows : List EventRow} {result : List KeyedRow},
      keyedOrRaise legacyIdentitySchema rows = .ok result → ∀ row ∈ rows, row.evidence ≠ none
  | [], _, _ => fun _ h => absurd h List.not_mem_nil
  | row :: rows, result, h => by
    rw [keyedOrRaise] at h
    split at h
    · cases h
    · cases h
    · next evidence hloads =>
      cases hrest : keyedOrRaise legacyIdentitySchema rows with
      | error e =>
        rw [hrest] at h
        cases h
      | ok rest =>
        intro r hr
        rcases List.mem_cons.mp hr with rfl | hr
        · rw [EventRow.evidence, hloads]
          exact Option.some_ne_none _
        · exact evidence_of_keyedOrRaise hrest r hr

/-- A reader that returns has read every row. -/
theorem evidenceIsJson_of_closed {closed : SortedDict StreamIdentity (List ClosedInterval)}
    (h : log.closedStreamDiscontinuityIntervalsByStream legacyIdentitySchema = .ok closed) :
    log.EvidenceIsJson := by
  intro row hrow hlifecycle
  unfold closedStreamDiscontinuityIntervalsByStream at h
  cases hrows : keyedOrRaise legacyIdentitySchema log.orderedRows with
  | error e =>
    rw [hrows] at h
    cases h
  | ok rows => exact evidence_of_keyedOrRaise hrows row (mem_orderedRows.mpr ⟨hrow, hlifecycle⟩)

/-- **The reader of closed intervals returns exactly where every row is read.** -/
theorem closed_eq_ok_iff :
    log.closedStreamDiscontinuityIntervalsByStream legacyIdentitySchema =
        .ok (closedIntervals (log.orderedRows.filterMap (keyed legacyIdentitySchema))) ↔
      log.EvidenceIsJson := by
  constructor
  · exact evidenceIsJson_of_closed
  · intro h
    rw [closedStreamDiscontinuityIntervalsByStream, keyedOrRaise_eq_ok]
    · rfl
    · intro row hrow
      exact h row (mem_orderedRows.mp hrow).1 (mem_orderedRows.mp hrow).2

/-- The degraded pairs are those of the rows in the order of the log. -/
theorem degraded_eq (h : log.EvidenceIsJson) :
    log.degradedClosedDiscontinuityPairs legacyIdentitySchema =
      .ok (degradedPairs
        ((log.rows.filter EventRow.isLifecycle).filterMap (keyed legacyIdentitySchema))) := by
  rw [degradedClosedDiscontinuityPairs, keyedOrRaise_eq_ok]
  · rfl
  · intro row hrow
    exact h row (List.mem_of_mem_filter hrow) (List.mem_filter.mp hrow).2

/-- The single pass lists what the query for malformed events lists. -/
theorem malformed_eq :
    (log.orderedRows.filterMap (malformedEvent legacyIdentitySchema)).insertionSort
        (fun a b => a.eventId ≤ b.eventId) =
      log.malformed legacyIdentitySchema := by
  have hsource : ∀ {row : EventRow} {event : MalformedEvent},
      malformedEvent legacyIdentitySchema row = some event → event.eventId = row.eventId := by
    rintro row event h
    obtain ⟨reason, -, rfl⟩ := Option.map_eq_some_iff.mp h
    rfl
  have hperm : ((log.orderedRows.filterMap (malformedEvent legacyIdentitySchema)).insertionSort
      (fun a b => a.eventId ≤ b.eventId)).Perm
        (log.malformed legacyIdentitySchema) :=
    (List.perm_insertionSort _ _).trans
      ((perm_orderedRows.trans (List.perm_insertionSort _ _).symm).filterMap _)
  have : Std.Total fun a b : MalformedEvent => a.eventId ≤ b.eventId := ⟨fun _ _ => le_total _ _⟩
  have : IsTrans MalformedEvent fun a b => a.eventId ≤ b.eventId := ⟨fun _ _ _ => le_trans⟩
  have : Std.Total fun a b : EventRow => a.eventId ≤ b.eventId := ⟨fun _ _ => le_total _ _⟩
  have : IsTrans EventRow fun a b => a.eventId ≤ b.eventId := ⟨fun _ _ _ => le_trans⟩
  refine hperm.eq_of_pairwise ?_
    (List.pairwise_insertionSort _ _) ?_
  · intro a b ha hb hab hba
    -- rows of one id are one row, and it is listed once
    obtain ⟨row, hrow, hlist⟩ := List.mem_filterMap.mp ((List.mem_insertionSort _).mp ha)
    obtain ⟨row', hrow', hlist'⟩ := List.mem_filterMap.mp hb
    have hid : row.eventId = row'.eventId := by
      rw [← hsource hlist, ← hsource hlist']
      exact le_antisymm hab hba
    have heq : row = row' :=
      eq_of_eventId (mem_orderedRows.mp hrow).1
        (List.mem_of_mem_filter ((List.mem_insertionSort _).mp hrow')) hid
    subst heq
    exact Option.some.inj (hlist.symm.trans hlist')
  · rw [malformed, List.pairwise_filterMap]
    refine (List.pairwise_insertionSort _ _).imp fun {a b} hle event hevent event' hevent' => ?_
    rw [hsource hevent, hsource hevent']
    exact hle

/-- The keyed rows are the rows with a key. -/
theorem mem_keyedRows {rows : List EventRow} {k : KeyedRow} :
    k ∈ rows.filterMap (keyed legacyIdentitySchema) ↔
      k.row ∈ rows ∧ keyed legacyIdentitySchema k.row = some k := by
  rw [List.mem_filterMap]
  constructor
  · rintro ⟨row, hrow, h⟩
    obtain rfl := (keyed_eq_some.mp h).1
    exact ⟨hrow, h⟩
  · rintro ⟨hrow, h⟩
    exact ⟨k.row, hrow, h⟩

/-- The order of the rows does not decide whether a gap has a row of a kind. -/
theorem isSome_lastEvidence_ordered {completion : Bool} {gap : GapIdentity} :
    (lastEvidence completion
        (log.orderedRows.filterMap (keyed legacyIdentitySchema)) gap).isSome = true ↔
      ∃ row ∈ log.rows, row.isLifecycle = true ∧ row.isCompletion = completion ∧
        (keyed legacyIdentitySchema row).map KeyedRow.gap = some gap := by
  rw [isSome_lastEvidence]
  constructor
  · rintro ⟨k, hk, hcompletion, rfl⟩
    obtain ⟨hrow, hkeyed⟩ := mem_keyedRows.mp hk
    obtain ⟨hrow, hlifecycle⟩ := mem_orderedRows.mp hrow
    exact ⟨k.row, hrow, hlifecycle, hcompletion, by rw [hkeyed, Option.map_some]⟩
  · rintro ⟨row, hrow, hlifecycle, hcompletion, hgap⟩
    obtain ⟨k, hkeyed, rfl⟩ := Option.map_eq_some_iff.mp hgap
    obtain rfl := (keyed_eq_some.mp hkeyed).1
    exact ⟨k, mem_keyedRows.mpr ⟨mem_orderedRows.mpr ⟨hrow, hlifecycle⟩, hkeyed⟩, hcompletion, rfl⟩

/-- The lifecycle says which rows the gap has. -/
theorem lifecycle_eq (hparses : log.Parses) (gap : GapIdentity) (hkey : "" ∉ gap.key) :
    log.streamDiscontinuityLifecycle legacyIdentitySchema gap =
      .ok (if (lastEvidence true
          (log.orderedRows.filterMap (keyed legacyIdentitySchema)) gap).isSome then .closed
        else if (lastEvidence false
          (log.orderedRows.filterMap (keyed legacyIdentitySchema)) gap).isSome then .opened
        else .absent) := by
  have hany : ∀ completion,
      ((((log.rows.filter EventRow.isLifecycle).filterMap (keyed legacyIdentitySchema)).filter
        fun keyed => keyed.gap = gap).any fun keyed => keyed.row.isCompletion == completion) =
      (lastEvidence completion
        (log.orderedRows.filterMap (keyed legacyIdentitySchema)) gap).isSome := by
    intro completion
    rw [Bool.eq_iff_iff, isSome_lastEvidence, List.any_eq_true]
    simp only [List.mem_filter, decide_eq_true_eq, beq_iff_eq]
    constructor
    · rintro ⟨k, ⟨hk, hgap⟩, hcompletion⟩
      exact ⟨k, (perm_orderedRows.symm.filterMap _).subset hk, hcompletion, hgap⟩
    · rintro ⟨k, hk, hcompletion, hgap⟩
      exact ⟨k, ⟨(perm_orderedRows.filterMap _).subset hk, hgap⟩, hcompletion⟩
  have htrue := hany true
  have hfalse := hany false
  simp only [beq_true, beq_false] at htrue hfalse
  simp only [streamDiscontinuityLifecycle, if_neg hkey, htrue, hfalse]
  exact overRows_eq_ok hparses _

/-- A gap with evidence has no empty text in its key. -/
theorem not_mem_key_of_lastEvidence {completion : Bool} {gap : GapIdentity}
    (h : (lastEvidence completion
      (log.orderedRows.filterMap (keyed legacyIdentitySchema)) gap).isSome = true) :
    "" ∉ gap.key := by
  obtain ⟨row, -, -, -, hgap⟩ := isSome_lastEvidence_ordered.mp h
  obtain ⟨k, hkeyed, rfl⟩ := Option.map_eq_some_iff.mp hgap
  exact not_mem_key_of_identity (keyed_eq_some.mp hkeyed).2.2

/-- **A gap is closed exactly where some row completes it.** -/
theorem closed_iff (hparses : log.Parses) (gap : GapIdentity) :
    log.streamDiscontinuityLifecycle legacyIdentitySchema gap = .ok .closed ↔
      (lastEvidence true
        (log.orderedRows.filterMap (keyed legacyIdentitySchema)) gap).isSome = true := by
  constructor
  · intro h
    by_cases hkey : "" ∈ gap.key
    · rw [streamDiscontinuityLifecycle, if_pos hkey] at h
      cases h
    · rw [lifecycle_eq hparses gap hkey] at h
      split at h
      · next hcompleted => exact hcompleted
      · split at h <;> cases h
  · intro h
    rw [lifecycle_eq hparses gap (not_mem_key_of_lastEvidence h), if_pos h]

/-- **A gap is open exactly where some row starts it and none completes it.** -/
theorem opened_iff (hparses : log.Parses) (gap : GapIdentity) (hkey : "" ∉ gap.key) :
    log.streamDiscontinuityLifecycle legacyIdentitySchema gap = .ok .opened ↔
      (lastEvidence false
          (log.orderedRows.filterMap (keyed legacyIdentitySchema)) gap).isSome = true ∧
        (lastEvidence true
          (log.orderedRows.filterMap (keyed legacyIdentitySchema)) gap).isSome = false := by
  rw [lifecycle_eq hparses gap hkey]
  split
  · next h => simp [h]
  · next h =>
    split
    · next h' => simpa [h'] using h
    · next h' => simp [h']

/-- A gap is started by a row exactly where it has starting evidence. -/
theorem exists_started_iff {gap : GapIdentity} :
    (∃ row ∈ log.rows, row.eventType = startedType ∧
        (keyed legacyIdentitySchema row).map KeyedRow.gap = some gap) ↔
      (lastEvidence false
        (log.orderedRows.filterMap (keyed legacyIdentitySchema)) gap).isSome = true := by
  simp only [isSome_lastEvidence_ordered, started_iff, and_assoc]

/-- What the snapshot is made of, its time bound after every event. -/
theorem snapshot_eq {asOfUtcNs : Int} (hasOf : 0 ≤ asOfUtcNs)
    (hbound : ∀ row ∈ log.rows, row.occurredAtUtcNs ≤ asOfUtcNs) (hnone : log.NoneRaises) :
    ∃ authority, log.discontinuityAuthoritySnapshot legacyIdentitySchema asOfUtcNs = .ok authority ∧
      authority.unclosed = unclosedDocuments
        (log.orderedRows.filterMap (keyed legacyIdentitySchema)) ∧
      authority.closed = closedIntervals (log.orderedRows.filterMap (keyed legacyIdentitySchema)) ∧
      authority.malformedEvents = log.malformed legacyIdentitySchema ∧
      authority.degradedPairs =
        degradedPairs (log.orderedRows.filterMap (keyed legacyIdentitySchema)) := by
  have hvalid : validRow legacyIdentitySchema = keyed legacyIdentitySchema :=
    funext validRow_eq_keyed
  have hrows : ∀ row ∈ (log.rows.filter fun row => row.occurredAtUtcNs ≤ asOfUtcNs).insertionSort
      EventRow.before, row.raises = false :=
    fun row hrow => hnone row (List.mem_of_mem_filter ((List.mem_insertionSort _).mp hrow))
  refine ⟨_, (if_neg (by omega)).trans (overRows_eq_ok hrows _), ?_, ?_, ?_, ?_⟩
  · simp only [discontinuityAuthorityFromRows, filter_lifecycle_eq_orderedRows hbound, hvalid]
  · simp only [discontinuityAuthorityFromRows, filter_lifecycle_eq_orderedRows hbound, hvalid]
  · simp only [discontinuityAuthorityFromRows, filter_lifecycle_eq_orderedRows hbound]
    exact malformed_eq
  · simp only [discontinuityAuthorityFromRows, filter_lifecycle_eq_orderedRows hbound, hvalid]

/-- There is a snapshot only where no row raises. -/
theorem noneRaises_of_snapshot {asOfUtcNs : Int}
    (hbound : ∀ row ∈ log.rows, row.occurredAtUtcNs ≤ asOfUtcNs)
    {authority : DiscontinuityAuthority}
    (h : log.discontinuityAuthoritySnapshot legacyIdentitySchema asOfUtcNs = .ok authority) :
    log.NoneRaises := by
  unfold discontinuityAuthoritySnapshot at h
  split at h
  · cases h
  · intro row hrow
    refine (overRows_eq_ok_iff.mp h).1 row ((List.mem_insertionSort _).mpr ?_)
    exact List.mem_filter.mpr ⟨hrow, by simpa using hbound row hrow⟩

/-- The pairs are ordered where reading the log in order finds the same pairs. -/
theorem pairsOrdered_iff :
    PairsOrdered legacyIdentitySchema log ↔
      degradedPairs ((log.rows.filter EventRow.isLifecycle).filterMap
          (keyed legacyIdentitySchema)) =
        degradedPairs (log.orderedRows.filterMap (keyed legacyIdentitySchema)) := by
  rw [degradedPairs_eq_iff]
  constructor
  · intro h gap
    rw [h gap]
  · intro h gap
    -- the order does not decide whether there is a pair
    have hlast : ∀ completion,
        (lastEvidence completion ((log.rows.filter EventRow.isLifecycle).filterMap
          (keyed legacyIdentitySchema)) gap).isSome = true ↔
        (lastEvidence completion
          (log.orderedRows.filterMap (keyed legacyIdentitySchema)) gap).isSome = true := by
      intro completion
      rw [isSome_lastEvidence, isSome_lastEvidence]
      exact exists_congr fun k => and_congr_left' ((perm_orderedRows.filterMap _).mem_iff.symm)
    have hsome := @isSome_pairValid ((log.rows.filter EventRow.isLifecycle).filterMap
      (keyed legacyIdentitySchema)) gap
    rw [hlast, hlast, ← isSome_pairValid] at hsome
    have hfalse := h gap
    revert hsome hfalse
    generalize pairValid ((log.rows.filter EventRow.isLifecycle).filterMap
      (keyed legacyIdentitySchema)) gap = before
    generalize pairValid (log.orderedRows.filterMap (keyed legacyIdentitySchema)) gap = after
    rcases before with _ | _ | _ <;> rcases after with _ | _ | _ <;> simp

/-- **The readers agree exactly where no row raises, every lifecycle row is JSON and the pairs are
ordered.** Two of the readers raise over a row that is not JSON, and one of them takes the rows as
they come. -/
theorem discontinuity_readers_agree_iff (legacyIdentitySchema : Bool) (log : EventLog)
    (asOfUtcNs : Int) (hasOf : 0 ≤ asOfUtcNs)
    (hbound : ∀ row ∈ log.rows, row.occurredAtUtcNs ≤ asOfUtcNs) :
    (∃ authority,
        log.discontinuityAuthoritySnapshot legacyIdentitySchema asOfUtcNs = .ok authority ∧
          ReadersAgree legacyIdentitySchema log authority) ↔
      log.NoneRaises ∧ log.EvidenceIsJson ∧ log.PairsOrdered legacyIdentitySchema := by
  constructor
  · rintro ⟨authority, hsnapshot, h⟩
    have hnone : log.NoneRaises := noneRaises_of_snapshot hbound hsnapshot
    obtain ⟨authority', hsnapshot', -, -, -, hdegraded⟩ :=
      @snapshot_eq legacyIdentitySchema log _ asOfUtcNs hasOf hbound hnone
    obtain rfl : authority' = authority := Except.ok.inj (hsnapshot'.symm.trans hsnapshot)
    have hjson : log.EvidenceIsJson := evidenceIsJson_of_closed h.closed
    refine ⟨hnone, hjson, pairsOrdered_iff.mpr ?_⟩
    have hpairs := h.degraded
    rw [degraded_eq hjson, hdegraded] at hpairs
    exact Except.ok.inj hpairs
  · rintro ⟨hnone, hjson, hordered⟩
    obtain ⟨authority, hsnapshot, hunclosed, hclosed, hmalformed, hdegraded⟩ :=
      @snapshot_eq legacyIdentitySchema log _ asOfUtcNs hasOf hbound hnone
    have hparses : log.Parses := hnone.parses
    have hidentity : ∀ k ∈ log.orderedRows.filterMap (keyed legacyIdentitySchema),
        identityUnder legacyIdentitySchema k.evidence = some k.gap :=
      fun k hk => (keyed_eq_some.mp (mem_keyedRows.mp hk).2).2.2
    refine ⟨authority, hsnapshot, ?_, ?_, ?_, ?_, ?_, ?_⟩
    · rw [hunclosed, unclosedStreamDiscontinuitiesByStream]
      exact overRows_eq_ok (fun row hrow => hparses row (perm_orderedRows.subset hrow)) _
    · rw [hclosed]
      exact closed_eq_ok_iff.mpr hjson
    · rw [hmalformed, malformedDiscontinuityEvents]
      exact overRows_eq_ok hparses _
    · rw [degraded_eq hjson, hdegraded, pairsOrdered_iff.mp hordered]
    · intro gap hkey
      rw [hunclosed, exists_unclosed_iff hidentity, opened_iff hparses gap hkey]
    · intro gap
      rw [hclosed, hdegraded, exists_pair_iff, closed_iff hparses, exists_started_iff, and_comm]

end

section

open scoped Json.Grammar

/-- The evidence of a discontinuity with nothing but its identity. -/
def identityDocument (market symbol stream gapId : String) : Value := .dict
  [("gap_id", .str gapId), ("market", .str market), ("stream", .str stream),
    ("symbol", .str symbol)]

def identityEvidence (market symbol stream gapId : String) : String :=
  String.ofList (Json.encodeValue (identityDocument market symbol stream gapId))

theorem loads_identityEvidence (market symbol stream gapId : String) :
    Json.Reader.loads (identityEvidence market symbol stream gapId) =
      .value (identityDocument market symbol stream gapId) := by
  have hplain : Json.Plain (identityDocument market symbol stream gapId) := by
    simp only [identityDocument, Json.Plain, Json.PlainMembers, and_true, List.pairwise_cons,
      List.mem_cons, List.not_mem_nil, or_false, forall_eq_or_imp, forall_eq, List.Pairwise.nil,
      IsEmpty.forall_iff, implies_true]
    decide
  refine Json.Grammar.loads_of_decode ?_
  rw [identityEvidence, String.toList_ofList]
  simpa using Json.decode_encode hplain rfl Json.ends_nil

/-- A gap that was started and completed, one that is open, and a row without a market. -/
def mixedLog : EventLog where
  rows := [⟨"a", startedType, 1, identityEvidence "um" "BTCUSDT" "trade" "g", []⟩,
    ⟨"b", completedType, 2, identityEvidence "um" "BTCUSDT" "trade" "g", []⟩,
    ⟨"c", startedType, 3, identityEvidence "um" "BTCUSDT" "trade" "h", []⟩,
    ⟨"d", startedType, 4, identityEvidence "" "BTCUSDT" "trade" "i", []⟩]
  nodup := by decide

theorem loads_mixedLog : ∀ row ∈ mixedLog.rows, ∃ evidence, row.loads = .value evidence := by
  intro row hrow
  simp only [mixedLog, List.mem_cons, List.not_mem_nil, or_false] at hrow
  rcases hrow with rfl | rfl | rfl | rfl <;> exact ⟨_, loads_identityEvidence ..⟩

/-- No row below stops a reader. -/
theorem noneRaises_mixedLog : mixedLog.NoneRaises := by
  intro row hrow
  obtain ⟨evidence, h⟩ := loads_mixedLog row hrow
  rw [EventRow.raises, h]
  rfl

theorem discontinuity_readers_agree_iff_sample :
    ∃ authority, mixedLog.discontinuityAuthoritySnapshot false 4 = .ok authority ∧
      ReadersAgree false mixedLog authority := by
  refine (discontinuity_readers_agree_iff false mixedLog 4 (by decide) (by decide)).mpr
    ⟨noneRaises_mixedLog, ?_, fun gap => ?_⟩
  · intro row hrow _
    obtain ⟨evidence, h⟩ := loads_mixedLog row hrow
    rw [EventRow.evidence, h]
    exact Option.some_ne_none _
  · have hordered : mixedLog.orderedRows = mixedLog.rows.filter EventRow.isLifecycle := rfl
    rw [hordered]

/-- A log with a row that is not JSON. -/
def textLog : EventLog where
  rows := [⟨"a", startedType, 1, "none", []⟩]
  nodup := by decide

/-- **Two readers raise over a row that the others list as malformed.** -/
theorem not_readersAgree_of_text :
    textLog.malformedDiscontinuityEvents true = .ok [⟨"a", startedType, "evidence_not_json"⟩] ∧
      ¬ ∃ authority, textLog.discontinuityAuthoritySnapshot true 1 = .ok authority ∧
        ReadersAgree true textLog authority := by
  constructor
  · rfl
  · rintro ⟨authority, -, h⟩
    have hclosed := h.closed
    have hraise : textLog.closedStreamDiscontinuityIntervalsByStream true =
        .error "JSONDecodeError" := by rfl
    rw [hraise] at hclosed
    cases hclosed

end

/-! ## Rows that are neither paired nor listed -/

section

variable [Json.Reader] {legacyIdentitySchema} {log}

/-- A row whose absent symbol, under the legacy schema, keeps its defect from being listed. -/
def DefectHidden (legacyIdentitySchema : Bool) (row : EventRow) : Prop :=
  legacyIdentitySchema = true ∧ ∃ evidence, row.evidence = some evidence ∧
    evidenceText evidence "market" ≠ none ∧ evidence.get? "symbol" = none ∧
      (evidenceText evidence "stream" = none ∨ evidenceText evidence "gap_id" = none)

/-- A row is in neither set exactly where its defect is hidden. -/
theorem defectHidden_iff {row : EventRow} :
    DefectHidden legacyIdentitySchema row ↔
      keyed legacyIdentitySchema row = none ∧ malformedReason legacyIdentitySchema row = none := by
  unfold DefectHidden keyed malformedReason
  cases hparse : row.evidence with
  | none => simp
  | some evidence =>
    simp only [Option.map_eq_none_iff, identityUnder_eq_none_iff, Option.some.injEq,
      exists_eq_left']
    by_cases hmarket : evidenceText evidence "market" = none
    · simp only [hmarket, ne_eq, not_true_eq_false, false_and, and_false, true_or, true_and,
        if_true, false_iff]
      split <;> simp
    · have hdict : evidence.isDict = true := by
        obtain ⟨market, h⟩ := Option.ne_none_iff_exists'.mp hmarket
        exact isDict_of_evidenceText h
      by_cases habsent : evidence.get? "symbol" = none
      · have hsymbol : evidenceText evidence "symbol" = none := by
          rw [evidenceText, habsent]
        cases legacyIdentitySchema <;>
          simp [hmarket, hdict, habsent, hsymbol, symbolUnder]
      · -- a symbol that is there is checked by both
        by_cases hsymbol : evidenceText evidence "symbol" = none <;>
          by_cases hstream : evidenceText evidence "stream" = none <;>
          by_cases hgap : evidenceText evidence "gap_id" = none <;>
          simp [hmarket, hdict, habsent, symbolUnder, hsymbol, hstream, hgap]

/-- A lifecycle row is in the list of malformed events exactly where it has a reason. -/
theorem exists_malformed_iff {row : EventRow} (hrow : row ∈ log.rows)
    (hlifecycle : row.isLifecycle = true) :
    (∃ event ∈ log.malformed legacyIdentitySchema, event.eventId = row.eventId) ↔
      malformedReason legacyIdentitySchema row ≠ none := by
  simp only [malformed, List.mem_filterMap, List.mem_insertionSort, List.mem_filter,
    malformedEvent]
  constructor
  · rintro ⟨event, ⟨other, ⟨hother, -⟩, h⟩, hid⟩
    obtain ⟨reason, hreason, rfl⟩ := Option.map_eq_some_iff.mp h
    obtain rfl := eq_of_eventId hother hrow hid
    rw [hreason]
    exact Option.some_ne_none _
  · intro h
    obtain ⟨reason, hreason⟩ := Option.ne_none_iff_exists'.mp h
    exact ⟨_, ⟨row, ⟨hrow, hlifecycle⟩, by rw [hreason, Option.map_some]⟩, rfl⟩

/-- A row is in exactly one of the rows that take part in pairing and the listed ones. -/
def AccountedOnce (paired : List KeyedRow) (malformed : List MalformedEvent) (row : EventRow) :
    Prop :=
  Xor (∃ keyed ∈ paired, keyed.row = row) (∃ event ∈ malformed, event.eventId = row.eventId)

/-- **A lifecycle row is accounted for once exactly where its defect is not hidden.** -/
theorem accountedOnce_iff {row : EventRow} (hrow : row ∈ log.rows)
    (hlifecycle : row.isLifecycle = true) :
    AccountedOnce (log.orderedRows.filterMap (keyed legacyIdentitySchema))
        (log.malformed legacyIdentitySchema) row ↔
      ¬ DefectHidden legacyIdentitySchema row := by
  have hpaired : (∃ k ∈ log.orderedRows.filterMap (keyed legacyIdentitySchema), k.row = row) ↔
      keyed legacyIdentitySchema row ≠ none := by
    constructor
    · rintro ⟨k, hk, rfl⟩
      rw [(mem_keyedRows.mp hk).2]
      exact Option.some_ne_none _
    · intro h
      obtain ⟨k, hkeyed⟩ := Option.ne_none_iff_exists'.mp h
      obtain rfl := (keyed_eq_some.mp hkeyed).1
      exact ⟨k, mem_keyedRows.mpr ⟨mem_orderedRows.mpr ⟨hrow, hlifecycle⟩, hkeyed⟩, rfl⟩
  rw [AccountedOnce, hpaired, exists_malformed_iff hrow hlifecycle, defectHidden_iff]
  -- a row with an identity has no reason to be listed
  have hboth : keyed legacyIdentitySchema row ≠ none →
      malformedReason legacyIdentitySchema row = none := by
    intro h
    obtain ⟨k, hkeyed⟩ := Option.ne_none_iff_exists'.mp h
    exact malformedReason_of_identity (keyed_eq_some.mp hkeyed).2.1 (keyed_eq_some.mp hkeyed).2.2
  rw [xor_def]
  tauto

/-- **Every lifecycle row is paired or listed, once, exactly where no row raises and no defect is
hidden** by an absent symbol under the legacy schema: for the separate readers and for the snapshot,
whose rows to pair are those it has found no reason to list. -/
theorem rows_accounted_iff (legacyIdentitySchema : Bool) (log : EventLog) (asOfUtcNs : Int)
    (hasOf : 0 ≤ asOfUtcNs) (hbound : ∀ row ∈ log.rows, row.occurredAtUtcNs ≤ asOfUtcNs) :
    (∃ authority listed,
        log.discontinuityAuthoritySnapshot legacyIdentitySchema asOfUtcNs = .ok authority ∧
        log.malformedDiscontinuityEvents legacyIdentitySchema = .ok listed ∧
          ∀ row ∈ log.rows, row.isLifecycle = true →
            AccountedOnce (log.orderedRows.filterMap (keyed legacyIdentitySchema)) listed row ∧
              AccountedOnce (log.orderedRows.filterMap (validRow legacyIdentitySchema))
                authority.malformedEvents row) ↔
      log.NoneRaises ∧
        ∀ row ∈ log.rows, row.isLifecycle = true → ¬ DefectHidden legacyIdentitySchema row := by
  constructor
  · rintro ⟨authority, listed, hsnapshot, hlisted, h⟩
    refine ⟨noneRaises_of_snapshot hbound hsnapshot, fun row hrow hlifecycle => ?_⟩
    obtain ⟨-, rfl⟩ := overRows_eq_ok_iff.mp hlisted
    exact (accountedOnce_iff hrow hlifecycle).mp (h row hrow hlifecycle).1
  · rintro ⟨hnone, h⟩
    obtain ⟨authority, hsnapshot, -, -, hmalformed, -⟩ :=
      @snapshot_eq legacyIdentitySchema log _ asOfUtcNs hasOf hbound hnone
    have hvalid : validRow legacyIdentitySchema = keyed legacyIdentitySchema :=
      funext validRow_eq_keyed
    refine ⟨authority, _, hsnapshot, overRows_eq_ok hnone.parses _, fun row hrow hlifecycle => ?_⟩
    rw [hmalformed, hvalid]
    exact ⟨(accountedOnce_iff hrow hlifecycle).mpr (h row hrow hlifecycle),
      (accountedOnce_iff hrow hlifecycle).mpr (h row hrow hlifecycle)⟩

end

section

open scoped Json.Grammar

theorem rows_accounted_iff_sample :
    ∃ authority listed, mixedLog.discontinuityAuthoritySnapshot true 4 = .ok authority ∧
      mixedLog.malformedDiscontinuityEvents true = .ok listed ∧
        ∀ row ∈ mixedLog.rows, row.isLifecycle = true →
          AccountedOnce (mixedLog.orderedRows.filterMap (keyed true)) listed row ∧
            AccountedOnce (mixedLog.orderedRows.filterMap (validRow true))
              authority.malformedEvents row := by
  refine (rows_accounted_iff true mixedLog 4 (by decide) (by decide)).mpr
    ⟨noneRaises_mixedLog, fun row hrow _ hhidden => ?_⟩
  -- every one of the evidences has a symbol
  obtain ⟨-, evidence, hevidence, -, hsymbol, -⟩ := hhidden
  have hloads : row.loads = .value evidence := Json.Loads.value?_eq_some.mp hevidence
  simp only [mixedLog, List.mem_cons, List.not_mem_nil, or_false] at hrow
  rcases hrow with rfl | rfl | rfl | rfl <;>
    · obtain rfl := Json.Loads.value.inj ((loads_identityEvidence ..).symm.trans hloads)
      cases hsymbol

/-- A log of the legacy schema with a row that has neither a symbol nor a gap id. -/
def symbolLessLog : EventLog where
  rows := [⟨"a", startedType, 1,
    String.ofList (Json.encodeValue (.dict [("market", .str "um"), ("stream", .str "trade")])), []⟩]
  nodup := by decide

/-- **A damaged row under the legacy schema is neither paired nor listed.** -/
theorem symbolLess_row_lost :
    ¬ ∃ authority listed, symbolLessLog.discontinuityAuthoritySnapshot true 1 = .ok authority ∧
      symbolLessLog.malformedDiscontinuityEvents true = .ok listed ∧
        ∀ row ∈ symbolLessLog.rows, row.isLifecycle = true →
          AccountedOnce (symbolLessLog.orderedRows.filterMap (keyed true)) listed row ∧
            AccountedOnce (symbolLessLog.orderedRows.filterMap (validRow true))
              authority.malformedEvents row := by
  rintro ⟨authority, listed, -, hlisted, h⟩
  have hpaired : symbolLessLog.orderedRows.filterMap (keyed true) = [] := by decide +kernel
  have hempty : symbolLessLog.malformed true = [] := by decide +kernel
  obtain ⟨-, rfl⟩ := overRows_eq_ok_iff.mp hlisted
  have hrow := (h _ List.mem_cons_self (by decide)).1
  rw [AccountedOnce, hpaired, hempty] at hrow
  simp at hrow

end

end EventLog

end MarketDataRecorder
