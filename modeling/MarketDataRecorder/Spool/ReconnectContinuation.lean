import MarketDataRecorder.Spool.ReconnectPasses

/-!
# Reconnect decisions after later events

A candidate is decided against the gaps that are open at the time. One that is found to extend an
open gap has no record of its own, and nothing of the verdict is kept: while the gap is open it is
held back, and once the gap is completed it is decided anew.

* `Continues` — a log with further events
* `extension_held` — while the gap is open, nothing is materialized
* `extension_redecided` — **what becomes of an extension**, whatever is recorded later
-/

namespace MarketDataRecorder

/-! ## Further events -/

/-- A log with further lifecycle rows behind it, each with a complete identity. -/
def Continues [Json.Reader] (legacyIdentitySchema : Bool) (log log' : EventLog)
    (events : List KeyedRow) : Prop :=
  log'.rows = log.rows ++ events.map KeyedRow.row ∧
    ∀ k ∈ events, k.row.isLifecycle = true ∧ EventLog.keyed legacyIdentitySchema k.row = some k

/-- Any list of texts leaves one out that is not empty. -/
theorem exists_fresh (texts : List String) : ∃ text, text ∉ texts ∧ text ≠ "" := by
  have hinj : Function.Injective fun n : Nat => String.ofList (List.replicate (n + 1) 'x') := by
    intro m n h
    have h := congrArg (fun s : String => s.toList.length) h
    simpa using h
  have hinf := Set.infinite_range_of_injective hinj
  obtain ⟨text, ⟨n, rfl⟩, hnot⟩ := hinf.exists_notMem_finset texts.toFinset
  refine ⟨_, by simpa using hnot, fun h => ?_⟩
  have h := congrArg (fun s : String => s.toList.length) h
  simp at h

namespace Continues

variable [Json.Reader] {legacyIdentitySchema : Bool} {log log' : EventLog} {events : List KeyedRow}

theorem evidenceIsJson (h : Continues legacyIdentitySchema log log' events)
    (hjson : log.EvidenceIsJson) : log'.EvidenceIsJson := by
  intro row hrow hlifecycle
  rw [h.1] at hrow
  rcases List.mem_append.mp hrow with hrow | hrow
  · exact hjson row hrow hlifecycle
  · obtain ⟨k, hk, rfl⟩ := List.mem_map.mp hrow
    rw [(EventLog.keyed_eq_some.mp (h.2 k hk).2).2.1]
    exact Option.some_ne_none _

/-- A gap is completed in the log, or by one of the further events. -/
theorem completed_iff (h : Continues legacyIdentitySchema log log' events) {gap : GapIdentity} :
    log'.Completed legacyIdentitySchema gap ↔ log.Completed legacyIdentitySchema gap ∨
      ∃ k ∈ events, k.row.isCompletion = true ∧ k.gap = gap := by
  unfold EventLog.Completed
  rw [h.1]
  constructor
  · rintro ⟨row, hrow, hlifecycle, hcompletion, hkeyed⟩
    rcases List.mem_append.mp hrow with hrow | hrow
    · exact Or.inl ⟨row, hrow, hlifecycle, hcompletion, hkeyed⟩
    · obtain ⟨k, hk, rfl⟩ := List.mem_map.mp hrow
      rw [(h.2 k hk).2, Option.map_some] at hkeyed
      exact Or.inr ⟨k, hk, hcompletion, Option.some.inj hkeyed⟩
  · rintro (⟨row, hrow, hrest⟩ | ⟨k, hk, hcompleted, rfl⟩)
    · exact ⟨row, List.mem_append_left _ hrow, hrest⟩
    · refine ⟨k.row, List.mem_append_right _ (List.mem_map_of_mem hk), (h.2 k hk).1, hcompleted, ?_⟩
      rw [(h.2 k hk).2, Option.map_some]

/-- An unclosed row is one of the log, or of one of the further events. -/
theorem unclosed (h : Continues legacyIdentitySchema log log' events) {gap : GapIdentity}
    {evidence : Value} (hopen : log'.Unclosed legacyIdentitySchema gap evidence) :
    log.Unclosed legacyIdentitySchema gap evidence ∨
      ∃ k ∈ events, k.row.isCompletion = false ∧ k.gap = gap ∧ k.evidence = evidence := by
  obtain ⟨row, hrow, htype, hkeyed, hnot⟩ := hopen
  rw [h.completed_iff] at hnot
  rw [h.1] at hrow
  rcases List.mem_append.mp hrow with hrow | hrow
  · exact Or.inl ⟨row, hrow, htype, hkeyed, fun hcompleted => hnot (Or.inl hcompleted)⟩
  · obtain ⟨k, hk, rfl⟩ := List.mem_map.mp hrow
    have heq := Option.some.inj ((h.2 k hk).2.symm.trans hkeyed)
    exact Or.inr ⟨k, hk, (EventLog.started_iff.mp htype).2, congrArg KeyedRow.gap heq,
      congrArg KeyedRow.evidence heq⟩

/-- A started gap is unclosed where nothing completes it. -/
theorem unclosed_of_mem (h : Continues legacyIdentitySchema log log' events) {k : KeyedRow}
    (hk : k ∈ events) (hstarted : k.row.isCompletion = false)
    (hnot : ¬ log'.Completed legacyIdentitySchema k.gap) :
    log'.Unclosed legacyIdentitySchema k.gap k.evidence := by
  refine ⟨k.row, ?_, EventLog.started_iff.mpr ⟨(h.2 k hk).1, hstarted⟩, (h.2 k hk).2, hnot⟩
  rw [h.1]
  exact List.mem_append_right _ (List.mem_map_of_mem hk)

/-- Among the rows in the order of time, those of the log keep their order. -/
theorem filter_orderedRows (h : Continues legacyIdentitySchema log log' events) :
    log'.orderedRows.filter (· ∈ log.rows) = log.orderedRows := by
  have hnew : ∀ row ∈ events.map KeyedRow.row, row ∉ log.rows := by
    intro row hrow hold
    have hnodup := log'.nodup
    rw [h.1, List.map_append] at hnodup
    exact List.disjoint_of_nodup_append hnodup (List.mem_map_of_mem hold)
      (List.mem_map_of_mem hrow)
  have hperm : (log'.orderedRows.filter (· ∈ log.rows)).Perm log.orderedRows := by
    refine (EventLog.perm_orderedRows.filter _).trans ?_
    refine List.Perm.trans ?_ EventLog.perm_orderedRows.symm
    rw [h.1, List.filter_append, List.filter_append, List.filter_filter, List.filter_filter]
    have hnone : (events.map KeyedRow.row).filter
        (fun row => decide (row ∈ log.rows) && row.isLifecycle) = [] := by
      rw [List.filter_eq_nil_iff]
      intro row hrow
      simp [hnew row hrow]
    rw [hnone, List.append_nil]
    refine List.Perm.of_eq (List.filter_congr fun row hrow => ?_)
    simp [hrow]
  refine @EventLog.eq_of_before log _ _ hperm ?_ ((EventLog.pairwise_before _).filter _)
    (EventLog.pairwise_before _)
  intro row hrow
  simpa using (List.mem_filter.mp hrow).2

end Continues

section

variable [Json.Reader] {legacyIdentitySchema : Bool} {log log' : EventLog} {events : List KeyedRow}

/-- A STARTED row of the stream whose gap has no COMPLETED one among the rows. -/
def opensGap (rows : List KeyedRow) (stream : StreamIdentity) (k : KeyedRow) : Bool :=
  !k.row.isCompletion && k.gap ∉ (rows.filter fun c => c.row.isCompletion).map KeyedRow.gap &&
    k.gap.stream = stream

/-- The records of a stream before the first decision, in the order of their rows. -/
theorem openRecords_initial (stream : StreamIdentity) :
    (initialReconnectState (log.unclosed legacyIdentitySchema)).openRecords stream =
      ((log.orderedRows.filterMap (EventLog.keyed legacyIdentitySchema)).filter (opensGap
        (log.orderedRows.filterMap (EventLog.keyed legacyIdentitySchema)) stream)).map
          fun k => openGapRecord k.evidence := by
  rw [ReconnectState.openRecords, initialReconnectState, SortedDict.get?_mapValues]
  have hgroup := SortedDict.getD_groupItems
    (((log.orderedRows.filterMap (EventLog.keyed legacyIdentitySchema)).filter fun k =>
      !k.row.isCompletion && k.gap ∉ ((log.orderedRows.filterMap
        (EventLog.keyed legacyIdentitySchema)).filter fun c => c.row.isCompletion).map
          KeyedRow.gap).map fun k => (k.gap.stream, k.row.document k.evidence)) stream
  rw [EventLog.unclosed, unclosedDocuments]
  have hmap : ∀ documents : Option (List EventDocument),
      (documents.map fun events => events.map fun event => openGapRecord event.evidence).getD [] =
        (documents.getD []).map fun event => openGapRecord event.evidence := by
    rintro (_ | documents) <;> rfl
  rw [hmap, hgroup, List.filter_map, List.filter_filter, List.map_map, List.map_map]
  refine congrArg (List.map _) (List.filter_congr fun k _ => ?_)
  rw [opensGap, Bool.and_comm, Bool.eq_iff_iff]
  simp

/-- Where every gap that is opened later is completed again, no record is added. -/
theorem Continues.records_sublist (h : Continues legacyIdentitySchema log log' events)
    (hclosed : ∀ k ∈ events, k.row.isCompletion = false →
      log'.Completed legacyIdentitySchema k.gap) (stream : StreamIdentity) :
    ((initialReconnectState (log'.unclosed legacyIdentitySchema)).openRecords stream).Sublist
      ((initialReconnectState (log.unclosed legacyIdentitySchema)).openRecords stream) := by
  rw [openRecords_initial, openRecords_initial]
  refine List.Sublist.map _ ?_
  set rows := log.orderedRows.filterMap (EventLog.keyed legacyIdentitySchema) with hrows
  set rows' := log'.orderedRows.filterMap (EventLog.keyed legacyIdentitySchema) with hrows'
  have hcompleted : ∀ (l : EventLog) (gap : GapIdentity),
      gap ∈ ((l.orderedRows.filterMap (EventLog.keyed legacyIdentitySchema)).filter
        fun c => c.row.isCompletion).map KeyedRow.gap ↔
      l.Completed legacyIdentitySchema gap := by
    intro l gap
    rw [← EventLog.isSome_lastEvidence_iff_completed, isSome_lastEvidence]
    simp only [List.mem_map, List.mem_filter, and_assoc]
  -- a row that opens a gap is one of the log
  have hold : ∀ k ∈ rows', opensGap rows' stream k = true → k.row ∈ log.rows := by
    intro k hk hopens
    obtain ⟨hrow, hkeyed⟩ := EventLog.mem_keyedRows.mp hk
    have hmem := (EventLog.mem_orderedRows.mp hrow).1
    rw [h.1] at hmem
    rcases List.mem_append.mp hmem with hmem | hmem
    · exact hmem
    · obtain ⟨k', hk', hrow'⟩ := List.mem_map.mp hmem
      obtain rfl : k' = k := by
        have hkeyed' := (h.2 k' hk').2
        rw [hrow'] at hkeyed'
        exact Option.some.inj (hkeyed'.symm.trans hkeyed)
      simp only [opensGap, Bool.and_eq_true, Bool.not_eq_true', decide_eq_true_eq] at hopens
      exact absurd ((hcompleted log' k'.gap).mpr (hclosed k' hk' hopens.1.1)) hopens.1.2
  have hrestrict : rows'.filter (opensGap rows' stream) = rows.filter (opensGap rows' stream) := by
    have hfilter : rows'.filter (fun k => k.row ∈ log.rows) = rows := by
      rw [hrows, ← h.filter_orderedRows, hrows', List.filter_filterMap, List.filterMap_filter]
      refine List.filterMap_congr fun row _ => ?_
      cases hkeyed : EventLog.keyed legacyIdentitySchema row with
      | none => simp
      | some k =>
        obtain rfl := (EventLog.keyed_eq_some.mp hkeyed).1
        rw [Option.filter_some]
    rw [← hfilter, List.filter_filter]
    refine List.filter_congr fun k hk => ?_
    cases hopens : opensGap rows' stream k with
    | false => rfl
    | true => simpa using hold k hk hopens
  rw [hrestrict]
  refine List.monotone_filter_right rows fun k hopens => ?_
  simp only [opensGap, Bool.and_eq_true, Bool.not_eq_true', decide_eq_true_eq] at hopens ⊢
  refine ⟨⟨hopens.1.1, fun hmem => hopens.1.2 ?_⟩, hopens.2⟩
  rw [hcompleted] at hmem ⊢
  exact h.completed_iff.mpr (Or.inl hmem)

end

/-! ## Candidates with another gap open -/

namespace ReconnectState

variable {state : ReconnectState} {evidence : ReconnectEvidence}
  {candidate : LegacyReconnectCandidate} {decision : LegacyCandidateDecision}

/-- The records of the other gaps of a candidate's stream. -/
def competing (state : ReconnectState) (candidate : LegacyReconnectCandidate) :
    List OpenGapRecord :=
  (state.openRecords candidate.gap.stream).filter fun record =>
    record.gapId ≠ candidate.gap.gapId

/-- The competing records are the other open records of the stream. -/
theorem mem_competing {record : OpenGapRecord} :
    record ∈ state.competing candidate ↔
      record ∈ state.openRecords candidate.gap.stream ∧ record.gapId ≠ candidate.gap.gapId := by
  rw [competing, List.mem_filter, decide_eq_true_eq]

/-- **An absent candidate is a proven extension exactly where** one other record of its stream is
open, that record is valid and one generation earlier, and no frame is trusted. -/
theorem decideAbsent_eq_extension_iff :
    state.decideAbsent evidence candidate = .provenExtension ↔
      ∃ record, state.competing candidate = [record] ∧ candidate.trustedFrames = some 0 ∧
        record.identityValid = true ∧
        record.originalGeneration.map (· + 1) = some candidate.originalGeneration := by
  have hclassify : classifyAbsentCandidate evidence candidate ≠ .provenExtension := by
    unfold classifyAbsentCandidate
    split
    · rintro ⟨⟩
    · split
      · rintro ⟨⟩
      · split <;> rintro ⟨⟩
  unfold decideAbsent
  rw [← competing]
  rcases state.competing candidate with _ | ⟨record, _ | ⟨other, rest⟩⟩
  · simpa using hclassify
  · dsimp only
    split
    · next h => exact ⟨fun _ => ⟨record, rfl, h⟩, fun _ => rfl⟩
    · next h =>
      refine ⟨fun h => (by cases h), ?_⟩
      rintro ⟨r, hr, hrest⟩
      obtain rfl : record = r := (List.cons.inj hr).1
      exact absurd hrest h
  · simp

/-- With another gap open a candidate extends it, or is in conflict with it. -/
theorem decideAbsent_of_competing {record : OpenGapRecord}
    (h : record ∈ state.competing candidate) :
    state.decideAbsent evidence candidate = .provenExtension ∨
      state.decideAbsent evidence candidate = .conflict := by
  unfold decideAbsent
  rw [← competing]
  revert h
  rcases state.competing candidate with _ | ⟨first, _ | ⟨second, rest⟩⟩
  · intro h
    cases h
  · intro _
    dsimp only
    split
    · exact Or.inl rfl
    · exact Or.inr rfl
  · exact fun _ => Or.inr rfl

/-- What is materialized had no record, and no other gap of its stream was open. -/
theorem of_materializes (hdecide : state.decideCandidate evidence candidate = .ok decision)
    (h : decision.final.materializes = true) :
    (∃ lifecycle, evidence.lifecycle candidate.gap = .ok lifecycle ∧ lifecycle ≠ .closed) ∧
      state.simulatedStarted.get? candidate.gap = none ∧
      state.validRecord candidate.gap = none ∧ state.competing candidate = [] ∧
      decision.automatic = state.decideAbsent evidence candidate := by
  obtain ⟨-, hauto, hother, -⟩ := decideCandidate_eq_ok hdecide
  have hkind : decision.automatic = .provenLegitimate ∨ decision.automatic = .ambiguous := by
    by_cases hambiguous : decision.automatic = .ambiguous
    · exact Or.inr hambiguous
    · rw [(hother hambiguous).2] at h
      simpa [FinalDecision.materializes] using Or.inl h
  have hcases := decideAutomatic_iff.mp hauto
  generalize hresult : (decision.automatic, decision.lifecycleState, decision.detail) =
    result at hcases
  cases hcases with
  | closed hlifecycle =>
    rw [(Prod.mk.inj hresult).1] at hkind
    rcases hkind with h | h <;> cases h
  | simulated hlifecycle hopen hprevious =>
    have hauto : decision.automatic = _ := congrArg Prod.fst hresult
    rcases hkind with h | h
    · exact absurd (hauto.symm.trans h) (validated_ne (by rintro ⟨⟩) (by rintro ⟨⟩))
    · exact absurd (hauto.symm.trans h) (validated_ne (by rintro ⟨⟩) (by rintro ⟨⟩))
  | started hlifecycle hopen hprevious hrecord hevent =>
    have hauto : decision.automatic = _ := congrArg Prod.fst hresult
    rcases hkind with h | h
    · exact absurd (hauto.symm.trans h) (validated_ne (by rintro ⟨⟩) (by rintro ⟨⟩))
    · exact absurd (hauto.symm.trans h) (validated_ne (by rintro ⟨⟩) (by rintro ⟨⟩))
  | absent hlifecycle hopen hprevious hrecord =>
    have hauto : decision.automatic = state.decideAbsent evidence candidate :=
      congrArg Prod.fst hresult
    refine ⟨⟨_, hlifecycle, hopen⟩, hprevious, hrecord, ?_, hauto⟩
    by_contra hne
    obtain ⟨record, hrecord⟩ := List.exists_mem_of_ne_nil _ hne
    rw [hauto] at hkind
    rcases @decideAbsent_of_competing state evidence candidate record hrecord with hd | hd
    · rw [hd] at hkind
      rcases hkind with h | h <;> cases h
    · rw [hd] at hkind
      rcases hkind with h | h <;> cases h

end ReconnectState

/-! ## Recorded events -/

/-- What is recorded of a gap. -/
inductive GapEvent where
  | started (gap : GapIdentity) (connection : String) (generation : Int) (time : Nat)
  | completed (gap : GapIdentity) (connection : String) (generation : Int) (time : Nat)

namespace GapEvent

def gap : GapEvent → GapIdentity
  | started gap _ _ _ => gap
  | completed gap _ _ _ => gap

def evidence : GapEvent → Value
  | started gap connection generation time => .dict
    [("gap_id", .str gap.gapId), ("gap_started_at_utc_ns", .int time),
     ("market", .str gap.stream.market), ("original_connection_id", .str connection),
     ("original_generation", .int generation), ("stream", .str gap.stream.stream),
     ("symbol", .str gap.stream.symbol)]
  | completed gap connection generation time => .dict
    [("gap_ended_at_utc_ns", .int time), ("gap_id", .str gap.gapId),
     ("market", .str gap.stream.market), ("new_connection_id", .str connection),
     ("new_generation", .int generation), ("stream", .str gap.stream.stream),
     ("symbol", .str gap.stream.symbol)]

/-- The row of an event, with its evidence in some text. -/
def row (eventId text : String) : GapEvent → EventRow
  | started gap _ _ time => ⟨eventId, startedType, time, text, gap.key.map some⟩
  | completed gap _ _ time => ⟨eventId, completedType, time, text, gap.key.map some⟩

def keyedRow (eventId text : String) (event : GapEvent) : KeyedRow :=
  ⟨event.row eventId text, event.evidence, event.gap⟩

variable {event : GapEvent} {eventId text : String}

@[simp] theorem row_eventId : (event.row eventId text).eventId = eventId := by
  cases event <;> rfl

/-- An event of a gap is a lifecycle row. -/
theorem isLifecycle_row : (event.row eventId text).isLifecycle = true := by
  cases event <;> rfl

theorem evidenceJson_row : (event.row eventId text).evidenceJson = text := by
  cases event <;> rfl

theorem plain_evidence (event : GapEvent) : Json.Plain event.evidence := by
  cases event <;>
    simp only [evidence, Json.Plain, Json.PlainMembers, and_true, List.pairwise_cons,
      List.mem_cons, List.not_mem_nil, or_false, forall_eq_or_imp, forall_eq, List.Pairwise.nil,
      IsEmpty.forall_iff, implies_true] <;>
    decide

/-- A written event names its gap. -/
theorem identity_evidence (h : "" ∉ event.gap.key) (legacyIdentitySchema : Bool) :
    identityUnder legacyIdentitySchema event.evidence = some event.gap := by
  have hmarket : event.evidence.get? "market" = some (.str event.gap.stream.market) := by
    cases event <;> rfl
  have hsymbol : event.evidence.get? "symbol" = some (.str event.gap.stream.symbol) := by
    cases event <;> rfl
  have hstream : event.evidence.get? "stream" = some (.str event.gap.stream.stream) := by
    cases event <;> rfl
  have hgapId : event.evidence.get? "gap_id" = some (.str event.gap.gapId) := by
    cases event <;> rfl
  simp only [GapIdentity.key, StreamIdentity.key, List.cons_append, List.nil_append, List.mem_cons,
    List.not_mem_nil, or_false, not_or] at h
  obtain ⟨hne1, hne2, hne3, hne4⟩ := h
  simp only [identityUnder, symbolUnder, evidenceText, hmarket, hsymbol, hstream, hgapId,
    if_neg (Ne.symm hne1), if_neg (Ne.symm hne2), if_neg (Ne.symm hne3), if_neg (Ne.symm hne4),
    reduceCtorEq, if_false]
  rfl

/-- **A written event is keyed by its gap**, whatever reader loads its text. -/
theorem keyed_row [Json.Reader] (h : "" ∉ event.gap.key)
    (htext : Json.Reader.loads text = .value event.evidence) (legacyIdentitySchema : Bool) :
    EventLog.keyed legacyIdentitySchema (event.row eventId text) =
      some (event.keyedRow eventId text) := by
  refine EventLog.keyed_eq_some.mpr ⟨rfl, ?_, identity_evidence h legacyIdentitySchema⟩
  rw [EventRow.evidence, EventRow.loads, evidenceJson_row, htext]
  rfl

/-- The record of a started gap. -/
theorem openGapRecord_started {gap : GapIdentity} {connection : String} {generation : Int}
    {time : Nat} (hgap : gap.gapId ≠ "") (hconnection : connection ≠ "")
    (hgeneration : 0 ≤ generation) :
    openGapRecord (started gap connection generation time).evidence =
      ⟨gap.gapId, some connection, some generation, true⟩ := by
  have hid : (started gap connection generation time).evidence.get? "gap_id" =
      some (.str gap.gapId) := rfl
  have hcon : (started gap connection generation time).evidence.get? "original_connection_id" =
      some (.str connection) := rfl
  have hgen : (started gap connection generation time).evidence.get? "original_generation" =
      some (.int generation) := rfl
  have hdict : (started gap connection generation time).evidence.isDict = true := rfl
  simp only [openGapRecord, hdict, evidenceText, evidenceGeneration, evidenceInt, hid, hcon, hgen,
    if_neg hgap, if_neg hconnection, Option.filter_some, decide_eq_true hgeneration, if_true,
    Option.isSome_some, Bool.and_self, Bool.true_eq_false, if_false]

end GapEvent

/-- An event under the id and in the text in which it is recorded. -/
structure RecordedEvent where
  eventId : String
  text : String
  event : GapEvent

def RecordedEvent.keyedRow (recorded : RecordedEvent) : KeyedRow :=
  recorded.event.keyedRow recorded.eventId recorded.text

/-- Events are recorded behind a log, where each of them can be written. -/
theorem exists_continues [Json.Reader] (legacyIdentitySchema : Bool) (log : EventLog)
    (events : List GapEvent) (hkeys : ∀ event ∈ events, "" ∉ event.gap.key)
    (hwritten : ∀ event ∈ events, ∃ text, Json.Reader.loads text = .value event.evidence) :
    ∃ (log' : EventLog) (recorded : List RecordedEvent),
      Continues legacyIdentitySchema log log' (recorded.map RecordedEvent.keyedRow) ∧
        recorded.map RecordedEvent.event = events := by
  induction events using List.reverseRecOn with
  | nil => exact ⟨log, [], ⟨by simp, by simp⟩, rfl⟩
  | append_singleton events event ih =>
    obtain ⟨log', recorded, ⟨hrows, hkeyed⟩, hmap⟩ :=
      ih (fun e he => hkeys e (List.mem_append_left _ he))
        (fun e he => hwritten e (List.mem_append_left _ he))
    have hmem : event ∈ events ++ [event] := List.mem_append_right _ (List.mem_singleton_self _)
    obtain ⟨text, htext⟩ := hwritten event hmem
    obtain ⟨eventId, hfresh, -⟩ := exists_fresh (log'.rows.map EventRow.eventId)
    refine ⟨⟨log'.rows ++ [event.row eventId text], ?_⟩, recorded ++ [⟨eventId, text, event⟩],
      ⟨?_, ?_⟩, ?_⟩
    · rw [List.map_append, List.map_singleton, GapEvent.row_eventId]
      exact log'.nodup.append (List.nodup_singleton _) (List.disjoint_singleton.mpr hfresh)
    · dsimp only
      rw [hrows, List.map_append, List.map_append, List.append_assoc]
      rfl
    · intro k hk
      rw [List.map_append] at hk
      rcases List.mem_append.mp hk with hk | hk
      · exact hkeyed k hk
      · obtain rfl := List.mem_singleton.mp hk
        exact ⟨GapEvent.isLifecycle_row, GapEvent.keyed_row (hkeys event hmem) htext _⟩
    · rw [List.map_append, hmap]
      rfl

/-! ## Extensions -/

section

variable {candidates : List LegacyReconnectCandidate} {decisions : List LegacyCandidateDecision}
  {evidence : ReconnectEvidence} {initial : ReconnectState}

/-- The decision of a pass on a candidate. -/
theorem exists_decision_of_pass
    (hpass : ReconnectState.decideAll evidence initial candidates = .ok decisions)
    {candidate : LegacyReconnectCandidate} (hcandidate : candidate ∈ candidates) :
    ∃ decision ∈ decisions, decision.candidate = candidate := by
  rw [← ReconnectState.map_candidate_decideAll hpass] at hcandidate
  exact List.mem_map.mp hcandidate

/-- What is open at the start of a pass is open when a candidate is decided, and whatever else is
open then was materialized before it. -/
theorem exists_state_of_pass
    (hpass : ReconnectState.decideAll evidence initial candidates = .ok decisions)
    {decision : LegacyCandidateDecision} (hmem : decision ∈ decisions) :
    ∃ state : ReconnectState,
      (∀ stream, ∀ record ∈ initial.openRecords stream, record ∈ state.openRecords stream) ∧
      (∀ stream, ∀ record ∈ state.openRecords stream, record ∈ initial.openRecords stream ∨
        ∃ earlier ∈ decisions, earlier.final.materializes = true ∧
          earlier.candidate.gap = ⟨stream, record.gapId⟩) ∧
      state.decideCandidate evidence decision.candidate = .ok decision := by
  obtain ⟨state, ⟨hkept, hknown⟩, hdecide⟩ := @ReconnectState.exists_state_of_mem _
    (fun state => (∀ stream, ∀ record ∈ initial.openRecords stream,
        record ∈ state.openRecords stream) ∧
      ∀ stream, ∀ record ∈ state.openRecords stream, record ∈ initial.openRecords stream ∨
        ∃ earlier ∈ decisions, earlier.final.materializes = true ∧
          earlier.candidate.gap = ⟨stream, record.gapId⟩)
    _ _ _ hpass ⟨fun _ _ h => h, fun _ _ h => Or.inl h⟩ (by
      rintro state earlier ⟨hkept, hknown⟩ hearlier -
      by_cases hmaterializes : earlier.final.materializes = true
      · constructor
        · intro stream record hrecord
          rw [ReconnectState.openRecords_after hmaterializes]
          split
          · exact List.mem_append_left _ (hkept stream record hrecord)
          · exact hkept stream record hrecord
        · intro stream record hrecord
          rw [ReconnectState.openRecords_after hmaterializes] at hrecord
          split at hrecord
          · next hstream =>
            rcases List.mem_append.mp hrecord with hrecord | hrecord
            · exact hknown stream record hrecord
            · obtain rfl := List.mem_singleton.mp hrecord
              refine Or.inr ⟨earlier, hearlier, hmaterializes, ?_⟩
              rw [hstream]
              rfl
          · exact hknown stream record hrecord
      · rw [ReconnectState.after_of_not_materializes (by simpa using hmaterializes)]
        exact ⟨hkept, hknown⟩) decision hmem
  exact ⟨state, hkept, hknown, hdecide⟩

/-- With a valid record of an open gap nothing of its stream is materialized, so a candidate of the
stream is decided against the records of the start. -/
theorem exists_state_of_record
    (hpass : ReconnectState.decideAll evidence initial candidates = .ok decisions)
    (hinitial : ∀ gap, initial.simulatedStarted.get? gap = none) {stream : StreamIdentity}
    {record : OpenGapRecord} (hrecord : record ∈ initial.openRecords stream)
    (hvalid : record.identityValid = true) {decision : LegacyCandidateDecision}
    (hmem : decision ∈ decisions) :
    ∃ state : ReconnectState, state.openRecords stream = initial.openRecords stream ∧
      (∀ gapId, state.simulatedStarted.get? ⟨stream, gapId⟩ = none) ∧
      state.decideCandidate evidence decision.candidate = .ok decision := by
  obtain ⟨state, ⟨hsame, hsimulated⟩, hdecide⟩ := @ReconnectState.exists_state_of_mem _
    (fun state => state.openRecords stream = initial.openRecords stream ∧
      ∀ gapId, state.simulatedStarted.get? ⟨stream, gapId⟩ = none)
    _ _ _ hpass ⟨rfl, fun _ => hinitial _⟩ (by
      rintro state earlier ⟨hsame, hsimulated⟩ hearlier hdecide
      by_cases hmaterializes : earlier.final.materializes = true
      · have hstream : earlier.candidate.gap.stream ≠ stream := by
          intro hstream
          obtain ⟨-, -, hnone, hempty, -⟩ := ReconnectState.of_materializes hdecide hmaterializes
          by_cases hown : record.gapId = earlier.candidate.gap.gapId
          · rw [ReconnectState.validRecord, hstream, hsame, List.find?_eq_none] at hnone
            exact hnone record hrecord (by simp [hvalid, hown])
          · have hcompeting : record ∈ state.competing earlier.candidate := by
              rw [ReconnectState.mem_competing, hstream, hsame]
              exact ⟨hrecord, hown⟩
            rw [hempty] at hcompeting
            cases hcompeting
        constructor
        · rw [ReconnectState.openRecords_after hmaterializes, if_neg hstream.symm, hsame]
        · intro gapId
          rw [ReconnectState.simulatedStarted_after hmaterializes, if_neg, hsimulated]
          exact fun h => hstream (congrArg GapIdentity.stream h).symm
      · rw [ReconnectState.after_of_not_materializes (by simpa using hmaterializes)]
        exact ⟨hsame, hsimulated⟩) decision hmem
  exact ⟨state, hsame, hsimulated, hdecide⟩

/-- An extension has neither a completion nor a valid record of its own, and there is one valid
record of another gap, of the generation in front. -/
theorem of_extension {state : ReconnectState} {candidate : LegacyReconnectCandidate}
    {decision : LegacyCandidateDecision}
    (hdecide : state.decideCandidate evidence candidate = .ok decision)
    (hext : decision.automatic = .provenExtension) :
    (∃ lifecycle, evidence.lifecycle candidate.gap = .ok lifecycle ∧ lifecycle ≠ .closed) ∧
      state.simulatedStarted.get? candidate.gap = none ∧ state.validRecord candidate.gap = none ∧
      ∃ record, state.competing candidate = [record] ∧ candidate.trustedFrames = some 0 ∧
        record.identityValid = true ∧
        record.originalGeneration.map (· + 1) = some candidate.originalGeneration := by
  obtain ⟨-, hauto, -, -⟩ := ReconnectState.decideCandidate_eq_ok hdecide
  have hcases := ReconnectState.decideAutomatic_iff.mp hauto
  generalize hresult : (decision.automatic, decision.lifecycleState, decision.detail) =
    result at hcases
  cases hcases with
  | closed hlifecycle =>
    rw [hext] at hresult
    cases hresult
  | simulated hlifecycle hopen hprevious =>
    exact absurd ((congrArg Prod.fst hresult).symm.trans hext)
      (ReconnectState.validated_ne (by rintro ⟨⟩) (by rintro ⟨⟩))
  | started hlifecycle hopen hprevious hrecord hevent =>
    exact absurd ((congrArg Prod.fst hresult).symm.trans hext)
      (ReconnectState.validated_ne (by rintro ⟨⟩) (by rintro ⟨⟩))
  | absent hlifecycle hopen hprevious hrecord =>
    exact ⟨⟨_, hlifecycle, hopen⟩, hprevious, hrecord,
      ReconnectState.decideAbsent_eq_extension_iff.mp
      ((congrArg Prod.fst hresult).symm.trans hext)⟩

/-- **While another gap of its stream is open, a candidate is not materialized**, and the operator
is not asked about it. -/
theorem held_of_open_gap
    (hpass : ReconnectState.decideAll evidence initial candidates = .ok decisions)
    {decision : LegacyCandidateDecision} (hmem : decision ∈ decisions) {record : OpenGapRecord}
    (hrecord : record ∈ initial.openRecords decision.candidate.gap.stream)
    (hother : record.gapId ≠ decision.candidate.gap.gapId) :
    decision.final.materializes = false ∧ decision.automatic ≠ .ambiguous := by
  obtain ⟨state, hkept, -, hdecide⟩ := exists_state_of_pass hpass hmem
  have hcompeting : record ∈ state.competing decision.candidate :=
    ReconnectState.mem_competing.mpr ⟨hkept _ record hrecord, hother⟩
  constructor
  · by_contra hmaterializes
    have hempty := (ReconnectState.of_materializes hdecide (by simpa using hmaterializes)).2.2.2.1
    rw [hempty] at hcompeting
    cases hcompeting
  · intro hambiguous
    obtain ⟨-, hauto, -, -⟩ := ReconnectState.decideCandidate_eq_ok hdecide
    have hcases := ReconnectState.decideAutomatic_iff.mp hauto
    generalize hresult : (decision.automatic, decision.lifecycleState, decision.detail) = result
      at hcases
    rw [hambiguous] at hresult
    cases hcases with
    | closed hlifecycle => cases hresult
    | simulated hlifecycle hopen hprevious =>
      exact absurd (congrArg Prod.fst hresult).symm
        (ReconnectState.validated_ne (by rintro ⟨⟩) (by rintro ⟨⟩))
    | started hlifecycle hopen hprevious hvalid hevent =>
      exact absurd (congrArg Prod.fst hresult).symm
        (ReconnectState.validated_ne (by rintro ⟨⟩) (by rintro ⟨⟩))
    | absent hlifecycle hopen hprevious hvalid =>
      have habsent := congrArg Prod.fst hresult
      dsimp only at habsent
      rcases @ReconnectState.decideAbsent_of_competing _ evidence _ _ hcompeting with h | h
      · rw [h] at habsent
        cases habsent
      · rw [h] at habsent
        cases habsent

/-- An extension of a gap that the Catalog has open is decided against its record alone. -/
theorem competing_of_extension
    (hpass : ReconnectState.decideAll evidence initial candidates = .ok decisions)
    (hinitial : ∀ gap, initial.simulatedStarted.get? gap = none)
    {decision : LegacyCandidateDecision} (hmem : decision ∈ decisions)
    (hext : decision.automatic = .provenExtension) {record : OpenGapRecord}
    (hrecord : record ∈ initial.openRecords decision.candidate.gap.stream)
    (hother : record.gapId ≠ decision.candidate.gap.gapId) :
    initial.competing decision.candidate = [record] ∧
      decision.candidate.trustedFrames = some 0 ∧ record.identityValid = true ∧
      record.originalGeneration.map (· + 1) = some decision.candidate.originalGeneration := by
  obtain ⟨state, hkept, -, hdecide⟩ := exists_state_of_pass hpass hmem
  obtain ⟨-, -, -, only, honly, htrusted, hvalid, hgeneration⟩ := of_extension hdecide hext
  have hcompeting : record ∈ state.competing decision.candidate :=
    ReconnectState.mem_competing.mpr ⟨hkept _ record hrecord, hother⟩
  rw [honly, List.mem_singleton] at hcompeting
  subst hcompeting
  -- with a valid record nothing of the stream has been materialized in front of the candidate
  obtain ⟨same, hsame, -, hdecide'⟩ := exists_state_of_record hpass hinitial hrecord hvalid hmem
  obtain ⟨-, -, -, only', honly', -, -, -⟩ := of_extension hdecide' hext
  have hrecords : same.competing decision.candidate = initial.competing decision.candidate := by
    rw [ReconnectState.competing, ReconnectState.competing, hsame]
  have hmine : record ∈ initial.competing decision.candidate :=
    ReconnectState.mem_competing.mpr ⟨hrecord, hother⟩
  rw [hrecords] at honly'
  rw [honly', List.mem_singleton] at hmine
  subst hmine
  exact ⟨honly', htrusted, hvalid, hgeneration⟩

/-- A candidate without a completion and a record of its own, next to just one valid record of the
generation in front, is an extension. -/
theorem extension_of_record {candidate : LegacyReconnectCandidate} {lifecycle : GapLifecycle}
    (hpass : ReconnectState.decideAll evidence initial candidates = .ok decisions)
    (hinitial : ∀ gap, initial.simulatedStarted.get? gap = none)
    (hlifecycle : evidence.lifecycle candidate.gap = .ok lifecycle) (hopen : lifecycle ≠ .closed)
    (hnoRecord : initial.validRecord candidate.gap = none) {record : OpenGapRecord}
    (hcompeting : initial.competing candidate = [record])
    (htrusted : candidate.trustedFrames = some 0) (hvalid : record.identityValid = true)
    (hgeneration :
      record.originalGeneration.map (· + 1) = some candidate.originalGeneration)
    {decision : LegacyCandidateDecision} (hmem : decision ∈ decisions)
    (hcandidate : decision.candidate = candidate) :
    decision.automatic = .provenExtension := by
  subst hcandidate
  have hrecord : record ∈ initial.openRecords decision.candidate.gap.stream :=
    (ReconnectState.mem_competing.mp (hcompeting ▸ List.mem_singleton_self record)).1
  obtain ⟨state, hsame, hsimulated, hdecide⟩ :=
    exists_state_of_record hpass hinitial hrecord hvalid hmem
  obtain ⟨-, hauto, -, -⟩ := ReconnectState.decideCandidate_eq_ok hdecide
  have habsent : state.decideAbsent evidence decision.candidate = .provenExtension := by
    rw [ReconnectState.decideAbsent_eq_extension_iff]
    refine ⟨record, ?_, htrusted, hvalid, hgeneration⟩
    rw [← hcompeting, ReconnectState.competing, ReconnectState.competing, hsame]
  have hdecided : ReconnectState.Decided state evidence decision.candidate
      (state.decideAbsent evidence decision.candidate, .absent,
        if state.decideAbsent evidence decision.candidate = .conflict then
          "competing unmatched discontinuity exists" else "") := by
    refine .absent hlifecycle hopen (hsimulated _) ?_
    rwa [ReconnectState.validRecord, hsame]
  have hboth := hauto.symm.trans (ReconnectState.decideAutomatic_iff.mpr hdecided)
  rw [← habsent]
  exact congrArg Prod.fst (Except.ok.inj hboth)

/-- A candidate without a completion and a record of its own is in conflict with a valid record of
another gap that it does not extend. -/
theorem conflict_of_record {lifecycle : GapLifecycle} {decision : LegacyCandidateDecision}
    (hpass : ReconnectState.decideAll evidence initial candidates = .ok decisions)
    (hinitial : ∀ gap, initial.simulatedStarted.get? gap = none) (hmem : decision ∈ decisions)
    (hlifecycle : evidence.lifecycle decision.candidate.gap = .ok lifecycle)
    (hopen : lifecycle ≠ .closed) (hnoRecord : initial.validRecord decision.candidate.gap = none)
    {record : OpenGapRecord}
    (hrecord : record ∈ initial.openRecords decision.candidate.gap.stream)
    (hvalid : record.identityValid = true) (hother : record.gapId ≠ decision.candidate.gap.gapId)
    (hgeneration :
      record.originalGeneration.map (· + 1) ≠ some decision.candidate.originalGeneration) :
    decision.automatic = .conflict := by
  obtain ⟨state, hsame, hsimulated, hdecide⟩ :=
    exists_state_of_record hpass hinitial hrecord hvalid hmem
  obtain ⟨-, hauto, -, -⟩ := ReconnectState.decideCandidate_eq_ok hdecide
  have hcompeting : record ∈ state.competing decision.candidate := by
    rw [ReconnectState.mem_competing, hsame]
    exact ⟨hrecord, hother⟩
  have habsent : state.decideAbsent evidence decision.candidate = .conflict := by
    rcases ReconnectState.decideAbsent_of_competing hcompeting with h | h
    · obtain ⟨only, honly, -, -, honlyGeneration⟩ :=
        ReconnectState.decideAbsent_eq_extension_iff.mp h
      rw [honly, List.mem_singleton] at hcompeting
      subst hcompeting
      exact absurd honlyGeneration hgeneration
    · exact h
  have hdecided : ReconnectState.Decided state evidence decision.candidate
      (state.decideAbsent evidence decision.candidate, .absent,
        if state.decideAbsent evidence decision.candidate = .conflict then
          "competing unmatched discontinuity exists" else "") := by
    refine .absent hlifecycle hopen (hsimulated _) ?_
    rwa [ReconnectState.validRecord, hsame]
  have hboth := hauto.symm.trans (ReconnectState.decideAutomatic_iff.mpr hdecided)
  rw [← habsent]
  exact congrArg Prod.fst (Except.ok.inj hboth)

variable [Json.Reader] {legacyIdentitySchema : Bool} {catalog : ReconnectCatalog}
  {authority : LegacyClassificationAuthority} {report : LegacyDecisionReport}

/-- The candidate that extends a gap has no record and no completion of its own, and that gap is
open: in the Catalog, or by a candidate in front of it. -/
theorem parent_of_extension (hparses : catalog.events.Parses)
    {closed : SortedDict StreamIdentity (List ClosedInterval)}
    (hkeys : ∀ candidate ∈ candidates, "" ∉ candidate.gap.key)
    (hpass : ReconnectState.decideAll
      (reconnectEvidence legacyIdentitySchema catalog authority
        (catalog.events.unclosed legacyIdentitySchema) closed)
      (initialReconnectState (catalog.events.unclosed legacyIdentitySchema)) candidates =
        .ok decisions)
    {decision : LegacyCandidateDecision} (hmem : decision ∈ decisions)
    (hext : decision.automatic = .provenExtension) :
    ¬ catalog.events.Completed legacyIdentitySchema decision.candidate.gap ∧
    (initialReconnectState (catalog.events.unclosed legacyIdentitySchema)).validRecord
      decision.candidate.gap = none ∧
    decision.candidate.trustedFrames = some 0 ∧
    ∃ parent : GapIdentity, parent.stream = decision.candidate.gap.stream ∧
      parent ≠ decision.candidate.gap ∧ "" ∉ parent.key ∧
      (catalog.events.streamDiscontinuityLifecycle legacyIdentitySchema parent = .ok .opened ∨
        ∃ earlier ∈ decisions, earlier.final.materializes = true ∧
          earlier.candidate.gap = parent) := by
  obtain ⟨state, hkept, hknown, hdecide⟩ := exists_state_of_pass hpass hmem
  obtain ⟨⟨lifecycle, hlifecycle, hopen⟩, -, hrecord, record, hcompeting, htrusted, -, -⟩ :=
    of_extension hdecide hext
  refine ⟨?_, ?_, htrusted, ?_⟩
  · intro hcompleted
    have hclosed := (EventLog.closed_iff_completed hparses).mpr hcompleted
    rw [reconnectEvidence] at hlifecycle
    exact hopen (Except.ok.inj (hlifecycle.symm.trans hclosed))
  · rw [ReconnectState.validRecord, List.find?_eq_none]
    intro record hinitial
    exact List.find?_eq_none.mp hrecord record (hkept _ record hinitial)
  · obtain ⟨hrecord, hother⟩ := ReconnectState.mem_competing.mp
      (hcompeting ▸ List.mem_singleton_self record)
    refine ⟨⟨decision.candidate.gap.stream, record.gapId⟩, rfl, ?_, ?_⟩
    · exact fun h => hother (congrArg GapIdentity.gapId h)
    · rcases hknown _ record hrecord with hinitial | ⟨earlier, hearlier, hmaterializes, hgap⟩
      · obtain ⟨gap, evidence, hunclosed, hstream, rfl⟩ := mem_initialRecords.mp hinitial
        obtain ⟨row, hrow, htype, hkeyed, hnot⟩ := hunclosed
        have hidentity := (EventLog.keyed_eq_some.mp hkeyed).2.2
        have hgap : (⟨decision.candidate.gap.stream, (openGapRecord evidence).gapId⟩ :
            GapIdentity) = gap := by
          rw [openGapRecord_gapId hidentity, ← hstream]
        have hkey := EventLog.not_mem_key_of_identity hidentity
        rw [hgap]
        refine ⟨hkey, Or.inl ((EventLog.opened_iff hparses gap hkey).mpr ⟨?_, ?_⟩)⟩
        · exact EventLog.exists_started_iff.mp ⟨row, hrow, htype, by rw [hkeyed, Option.map_some]⟩
        · rw [← EventLog.isSome_lastEvidence_iff_completed] at hnot
          simpa using hnot
      · rw [← hgap]
        refine ⟨hkeys _ ?_, Or.inr ⟨earlier, hearlier, hmaterializes, rfl⟩⟩
        rw [← ReconnectState.map_candidate_decideAll hpass]
        exact List.mem_map_of_mem hearlier

/-- The record of a gap that is open. -/
theorem exists_record_of_opened {log : EventLog} (hparses : log.Parses) {gap : GapIdentity}
    (h : log.streamDiscontinuityLifecycle legacyIdentitySchema gap = .ok .opened) :
    ∃ record ∈ (initialReconnectState (log.unclosed legacyIdentitySchema)).openRecords gap.stream,
      record.gapId = gap.gapId := by
  have hkey : "" ∉ gap.key := by
    intro hkey
    rw [EventLog.streamDiscontinuityLifecycle, if_pos hkey] at h
    cases h
  obtain ⟨hstarted, hnot⟩ := (EventLog.opened_iff hparses gap hkey).mp h
  obtain ⟨row, hrow, htype, hgap⟩ := EventLog.exists_started_iff.mpr hstarted
  obtain ⟨⟨row', evidence, gap'⟩, hkeyed, hsame⟩ := Option.map_eq_some_iff.mp hgap
  obtain ⟨hown, -, hidentity⟩ := EventLog.keyed_eq_some.mp hkeyed
  dsimp only at hown hidentity hsame
  subst hown hsame
  have hunclosed : log.Unclosed legacyIdentitySchema gap' evidence := by
    refine ⟨row', hrow, htype, hkeyed, ?_⟩
    rw [← EventLog.isSome_lastEvidence_iff_completed, hnot]
    exact Bool.false_ne_true
  exact ⟨openGapRecord evidence, mem_initialRecords.mpr ⟨gap', evidence, hunclosed, rfl, rfl⟩,
    openGapRecord_gapId hidentity⟩

/-! ## Once the gap is completed -/

/-- **What is materialized is proven legitimate, or classified so by the operator.** A candidate
without frames is proven by the version of its intent, or by a closed gap that its own connection
has completed. -/
theorem proof_of_materialized {closed : SortedDict StreamIdentity (List ClosedInterval)}
    (hpass : ReconnectState.decideAll
      (reconnectEvidence legacyIdentitySchema catalog authority
        (catalog.events.unclosed legacyIdentitySchema) closed) initial candidates = .ok decisions)
    {decision : LegacyCandidateDecision} (hmem : decision ∈ decisions)
    (hfinal : decision.final.materializes = true)
    (htrusted : decision.candidate.trustedFrames = some 0) :
    decision.candidate.intentSchema = some reconnectIntentSchemaV2 ∨
      (∃ interval ∈ (closed.get? decision.candidate.gap.stream).getD [],
        interval.newGeneration = decision.candidate.originalGeneration ∧
        interval.newConnectionId = decision.candidate.originalConnectionId) ∨
      ∃ entry ∈ authority.entries, entry.gap = decision.candidate.gap ∧
        entry.binds decision.candidate = true ∧ entry.classification = .legitimateReq103 := by
  obtain ⟨state, -, -, hdecide⟩ := exists_state_of_pass hpass hmem
  obtain ⟨-, -, -, hempty, habsent⟩ := ReconnectState.of_materializes hdecide hfinal
  obtain ⟨-, -, hother, hambiguous⟩ := ReconnectState.decideCandidate_eq_ok hdecide
  by_cases hauto : decision.automatic = .ambiguous
  · -- the operator has been asked
    right; right
    have h := hambiguous hauto
    cases hlookup : authority.lookup decision.candidate.gap with
    | none =>
      rw [reconnectEvidence, hlookup] at h
      rw [h.2] at hfinal
      cases hfinal
    | some entry =>
      rw [reconnectEvidence, hlookup] at h
      dsimp only at h
      split at h
      · next hbinds =>
        rw [h.2] at hfinal
        refine ⟨entry, List.mem_of_find?_eq_some hlookup, ?_, hbinds, ?_⟩
        · simpa using List.find?_some hlookup
        · cases hkind : entry.classification with
          | legitimateReq103 => rfl
          | extensionOrphan =>
            rw [hkind] at hfinal
            cases hfinal
      · rw [h.2] at hfinal
        cases hfinal
  · rw [(hother hauto).2] at hfinal
    have hlegitimate : decision.automatic = .provenLegitimate := by
      cases hdecision : decision.automatic with
      | provenLegitimate => rfl
      | _ =>
        rw [hdecision] at hfinal
        cases hfinal
    rw [hlegitimate, ReconnectState.decideAbsent, ← ReconnectState.competing, hempty] at habsent
    have hclassify := habsent.symm
    dsimp only at hclassify
    unfold ReconnectState.classifyAbsentCandidate at hclassify
    rw [htrusted] at hclassify
    split at hclassify
    · next h => cases h
    · split at hclassify
      · next hschema => exact Or.inl hschema
      · split at hclassify
        · next hany =>
          obtain ⟨interval, hinterval, hsame⟩ := List.any_eq_true.mp hany
          exact Or.inr (Or.inl ⟨interval, List.mem_of_mem_filter hinterval, by simpa using hsame⟩)
        · cases hclassify

/-! ## A blocker -/

/-- Events with small numbers can be written: some text says each of them. -/
def WritesEvents : Prop :=
  ∀ (gap : GapIdentity) (generation : Int), 0 ≤ generation → generation ≤ 1 →
    (∃ text, Json.Reader.loads text = .value (GapEvent.started gap "c" generation 0).evidence) ∧
      ∃ text, Json.Reader.loads text = .value (GapEvent.completed gap "c" generation 0).evidence

/-- **The gap that a candidate extends can be completed and another one be opened**, whatever the
Catalog has, and then the candidate blocks the startup. -/
theorem exists_conflict (hwritten : WritesEvents)
    (hcandidates : catalog.candidates = .ok candidates) (hjson : catalog.events.EvidenceIsJson)
    {candidate : LegacyReconnectCandidate} (hcandidate : candidate ∈ candidates)
    (hnotCompleted : ¬ catalog.events.Completed legacyIdentitySchema candidate.gap)
    (hnoRecord : (initialReconnectState (catalog.events.unclosed legacyIdentitySchema)).validRecord
      candidate.gap = none)
    {parent : GapIdentity} (hstream : parent.stream = candidate.gap.stream)
    (hparent : parent ≠ candidate.gap) (hkey : "" ∉ parent.key) :
    ∃ (log' : EventLog) (events : List KeyedRow) (report' : LegacyDecisionReport)
        (decision' : LegacyCandidateDecision),
      Continues legacyIdentitySchema catalog.events log' events ∧
      log'.streamDiscontinuityLifecycle legacyIdentitySchema parent = .ok .closed ∧
      evaluateLegacyReconnectDecisions legacyIdentitySchema { catalog with events := log' }
        authority = .ok report' ∧
      decision' ∈ report'.decisions ∧ decision'.candidate = candidate ∧
      decision'.automatic = .conflict := by
  -- a gap that neither the log nor a candidate knows, not of the generation in front
  obtain ⟨freshId, hfresh, hne⟩ := exists_fresh (parent.gapId :: candidate.gap.gapId ::
    (catalog.events.rows.filterMap (EventLog.keyed legacyIdentitySchema)).map fun k => k.gap.gapId)
  simp only [List.mem_cons, not_or] at hfresh
  obtain ⟨hfreshParent, hfreshCandidate, hfreshRow⟩ := hfresh
  obtain ⟨generation, hgeneration, hsmall, hgenerationNe⟩ : ∃ generation : Int, 0 ≤ generation ∧
      generation ≤ 1 ∧ generation + 1 ≠ candidate.originalGeneration := by
    by_cases h : candidate.originalGeneration = 1
    · exact ⟨1, by omega, by omega, by omega⟩
    · exact ⟨0, by omega, by omega, by omega⟩
  let fresh : GapIdentity := ⟨candidate.gap.stream, freshId⟩
  have hfreshKey : "" ∉ fresh.key := by
    rw [GapIdentity.key, List.mem_append, hstream] at hkey
    rw [GapIdentity.key, List.mem_append, not_or]
    exact ⟨fun h => hkey (Or.inl h), fun h => hne (List.mem_singleton.mp h).symm⟩
  have hc : ("c" : String) ≠ "" := by decide
  obtain ⟨log', recorded, hcontinues, hevents⟩ := exists_continues legacyIdentitySchema
    catalog.events [.completed parent "c" 0 0, .started fresh "c" generation 0]
    (by simpa [GapEvent.gap] using ⟨hkey, hfreshKey⟩)
    (by
      intro event hevent
      simp only [List.mem_cons, List.not_mem_nil, or_false] at hevent
      rcases hevent with rfl | rfl
      · exact (hwritten parent 0 le_rfl (by omega)).2
      · exact (hwritten fresh generation hgeneration hsmall).1)
  obtain ⟨⟨idClosed, textClosed, eventClosed⟩, rest, rfl, hclosedEvent, hrest⟩ :=
    List.map_eq_cons_iff.mp hevents
  obtain ⟨⟨idFresh, textFresh, eventFresh⟩, rfl, hfreshEvent⟩ := List.map_eq_singleton_iff.mp hrest
  dsimp only at hclosedEvent hfreshEvent
  subst hclosedEvent hfreshEvent
  set closedRow := (RecordedEvent.mk idClosed textClosed (.completed parent "c" 0 0)).keyedRow
    with hclosedRow
  set freshRow := (RecordedEvent.mk idFresh textFresh (.started fresh "c" generation 0)).keyedRow
    with hfreshRowDef
  have hcompleted : ∀ gap, log'.Completed legacyIdentitySchema gap ↔
      catalog.events.Completed legacyIdentitySchema gap ∨ gap = parent := by
    intro gap
    rw [hcontinues.completed_iff]
    refine or_congr_right ⟨?_, ?_⟩
    · rintro ⟨k, hk, hcompletion, rfl⟩
      simp only [List.map_cons, List.map_nil, List.mem_cons, List.not_mem_nil, or_false] at hk
      rcases hk with rfl | rfl
      · rfl
      · cases hcompletion
    · rintro rfl
      exact ⟨closedRow, List.mem_cons_self, rfl, rfl⟩
  have hjson' : log'.EvidenceIsJson := hcontinues.evidenceIsJson hjson
  have hcandidates' : ReconnectCatalog.candidates { catalog with events := log' } =
    .ok candidates :=
    hcandidates
  obtain ⟨report', hreport'⟩ := @exists_report _ legacyIdentitySchema
    { catalog with events := log' } authority candidates hcandidates' hjson'
  obtain ⟨candidates', closed, degraded, hcandidates'', -, -, hpass, -⟩ := evaluate_eq_ok hreport'
  obtain rfl : candidates = candidates' := Except.ok.inj (hcandidates'.symm.trans hcandidates'')
  obtain ⟨decision', hmem', rfl⟩ := exists_decision_of_pass hpass hcandidate
  have hnotCompleted' : ¬ log'.Completed legacyIdentitySchema decision'.candidate.gap := by
    rw [hcompleted]
    rintro (h | h)
    · exact hnotCompleted h
    · exact hparent h.symm
  have hfreshNot : ¬ log'.Completed legacyIdentitySchema fresh := by
    rw [hcompleted]
    rintro (⟨row, hrow, -, -, hkeyed⟩ | h)
    · obtain ⟨k, hk, hgap⟩ := Option.map_eq_some_iff.mp hkeyed
      exact hfreshRow (List.mem_map.mpr
        ⟨k, List.mem_filterMap.mpr ⟨row, hrow, hk⟩, congrArg GapIdentity.gapId hgap⟩)
    · exact hfreshParent (congrArg GapIdentity.gapId h)
  have hunclosed : log'.Unclosed legacyIdentitySchema fresh freshRow.evidence :=
    hcontinues.unclosed_of_mem (k := freshRow) (List.mem_cons_of_mem _ List.mem_cons_self) rfl
      hfreshNot
  have hrecord : openGapRecord freshRow.evidence = ⟨freshId, some "c", some generation, true⟩ :=
    GapEvent.openGapRecord_started hne hc hgeneration
  have hnoRecord' : (initialReconnectState (log'.unclosed legacyIdentitySchema)).validRecord
      decision'.candidate.gap = none := by
    rw [ReconnectState.validRecord, List.find?_eq_none] at hnoRecord ⊢
    intro record hmem hvalid
    obtain ⟨gap, evidence, hunclosed, hgap, rfl⟩ := mem_initialRecords.mp hmem
    rcases hcontinues.unclosed hunclosed with hunclosed | ⟨k, hk, hstarted, rfl, rfl⟩
    · exact hnoRecord _ (mem_initialRecords.mpr ⟨gap, evidence, hunclosed, hgap, rfl⟩) hvalid
    · simp only [List.map_cons, List.map_nil, List.mem_cons, List.not_mem_nil, or_false] at hk
      rcases hk with rfl | rfl
      · cases hstarted
      · rw [hrecord] at hvalid
        exact hfreshCandidate (by simpa using hvalid)
  obtain ⟨lifecycle, hlifecycle, hopen⟩ : ∃ lifecycle,
      log'.streamDiscontinuityLifecycle legacyIdentitySchema decision'.candidate.gap =
        .ok lifecycle ∧ lifecycle ≠ .closed := by
    refine ⟨_, EventLog.lifecycle_eq hjson'.parses _
      (inventory_key hcandidates _ hcandidate), fun heq => hnotCompleted' ?_⟩
    rw [← EventLog.closed_iff_completed hjson'.parses, ← heq]
    exact EventLog.lifecycle_eq hjson'.parses _ (inventory_key hcandidates _ hcandidate)
  refine ⟨log', _, report', decision', hcontinues, ?_, hreport', hmem', rfl, ?_⟩
  · rw [EventLog.closed_iff_completed hjson'.parses, hcompleted]
    exact Or.inr rfl
  · have hmemRecord : ⟨freshId, some "c", some generation, true⟩ ∈
        (initialReconnectState (log'.unclosed legacyIdentitySchema)).openRecords
          decision'.candidate.gap.stream :=
      mem_initialRecords.mpr ⟨fresh, freshRow.evidence, hunclosed, rfl, hrecord.symm⟩
    exact conflict_of_record hpass (fun _ => rfl) hmem' hlifecycle hopen hnoRecord' hmemRecord rfl
      hfreshCandidate fun h => hgenerationNe (Option.some.inj h)

/-- What a later evaluation makes of a candidate that was found to extend the gap of its parent. -/
structure Redecided (legacyIdentitySchema : Bool) (log log' : EventLog) (events : List KeyedRow)
    (authority : LegacyClassificationAuthority) (parent : GapIdentity)
    (decision : LegacyCandidateDecision) : Prop where
  /-- While a gap of the stream is open, nothing is materialized and the operator is not asked. -/
  held : ∀ gap : GapIdentity, gap.stream = decision.candidate.gap.stream →
    gap ≠ decision.candidate.gap →
    log'.streamDiscontinuityLifecycle legacyIdentitySchema gap = .ok .opened →
    decision.final.materializes = false ∧ decision.automatic ≠ .ambiguous
  /-- While the parent is open, it is an extension again, whatever else is opened and completed. -/
  again : log.streamDiscontinuityLifecycle legacyIdentitySchema parent = .ok .opened →
    log'.streamDiscontinuityLifecycle legacyIdentitySchema parent = .ok .opened →
    (∀ k ∈ events, k.gap ≠ decision.candidate.gap ∧
      (k.row.isCompletion = false → log'.Completed legacyIdentitySchema k.gap)) →
    decision.automatic = .provenExtension
  /-- What is materialized is proven by its version or by the connection that completed a gap, or
  the operator has classified it. -/
  proven : decision.final.materializes = true →
    decision.candidate.intentSchema = some reconnectIntentSchemaV2 ∨
      (∃ closed, log'.closedStreamDiscontinuityIntervalsByStream legacyIdentitySchema = .ok closed ∧
        ∃ interval ∈ (closed.get? decision.candidate.gap.stream).getD [],
          interval.newGeneration = decision.candidate.originalGeneration ∧
          interval.newConnectionId = decision.candidate.originalConnectionId) ∨
      ∃ entry ∈ authority.entries, entry.gap = decision.candidate.gap ∧
        entry.binds decision.candidate = true ∧ entry.classification = .legitimateReq103

/-- While the parent is open, a candidate that extends it does so again. -/
theorem extension_again {closed closed' : SortedDict StreamIdentity (List ClosedInterval)}
    (hjson : catalog.events.EvidenceIsJson)
    (hkeys : ∀ candidate ∈ candidates, "" ∉ candidate.gap.key)
    (hpass : ReconnectState.decideAll
      (reconnectEvidence legacyIdentitySchema catalog authority
        (catalog.events.unclosed legacyIdentitySchema) closed)
      (initialReconnectState (catalog.events.unclosed legacyIdentitySchema)) candidates =
        .ok decisions)
    {decision : LegacyCandidateDecision} (hmem : decision ∈ decisions)
    (hext : decision.automatic = .provenExtension) {log' : EventLog} {events : List KeyedRow}
    (hcontinues : Continues legacyIdentitySchema catalog.events log' events)
    {authority' : LegacyClassificationAuthority} {decisions' : List LegacyCandidateDecision}
    (hpass' : ReconnectState.decideAll
      (reconnectEvidence legacyIdentitySchema { catalog with events := log' } authority'
        (log'.unclosed legacyIdentitySchema) closed')
      (initialReconnectState (log'.unclosed legacyIdentitySchema)) candidates = .ok decisions')
    {decision' : LegacyCandidateDecision} (hmem' : decision' ∈ decisions')
    (hsame : decision'.candidate = decision.candidate) {parent : GapIdentity}
    (hstream : parent.stream = decision.candidate.gap.stream)
    (hparent : parent ≠ decision.candidate.gap)
    (hopen : catalog.events.streamDiscontinuityLifecycle legacyIdentitySchema parent = .ok .opened)
    (hopen' : log'.streamDiscontinuityLifecycle legacyIdentitySchema parent = .ok .opened)
    (hevents : ∀ k ∈ events, k.gap ≠ decision.candidate.gap ∧
      (k.row.isCompletion = false → log'.Completed legacyIdentitySchema k.gap)) :
    decision'.automatic = .provenExtension := by
  have hjson' := hcontinues.evidenceIsJson hjson
  obtain ⟨hnotCompleted, hnoRecord, -⟩ := parent_of_extension hjson.parses hkeys hpass hmem hext
  have hother : ∀ record : OpenGapRecord, record.gapId = parent.gapId →
      record.gapId ≠ decision.candidate.gap.gapId := by
    intro record hid h
    refine hparent ?_
    rw [GapIdentity.mk.injEq]
    exact ⟨hstream, hid.symm.trans h⟩
  -- the record of the parent is the only one of another gap, in the log and in the longer one
  obtain ⟨record, hrecord, hid⟩ := exists_record_of_opened hjson.parses hopen
  rw [hstream] at hrecord
  obtain ⟨honly, htrusted, hvalid, hgeneration⟩ :=
    competing_of_extension hpass (fun _ => rfl) hmem hext hrecord (hother record hid)
  have hsublist := hcontinues.records_sublist (fun k hk => (hevents k hk).2)
    decision.candidate.gap.stream
  have honly' : (initialReconnectState (log'.unclosed legacyIdentitySchema)).competing
      decision.candidate = [record] := by
    obtain ⟨record', hrecord', hid'⟩ := exists_record_of_opened hjson'.parses hopen'
    rw [hstream] at hrecord'
    have hmine : record' ∈ (initialReconnectState (log'.unclosed legacyIdentitySchema)).competing
        decision.candidate := ReconnectState.mem_competing.mpr ⟨hrecord', hother record' hid'⟩
    have hfiltered : ((initialReconnectState (log'.unclosed legacyIdentitySchema)).competing
        decision.candidate).Sublist [record] := by
      rw [← honly]
      exact hsublist.filter _
    rcases List.sublist_singleton.mp hfiltered with hnil | hone
    · rw [hnil] at hmine
      cases hmine
    · exact hone
  have hnotCompleted' : ¬ log'.Completed legacyIdentitySchema decision.candidate.gap := by
    rw [hcontinues.completed_iff]
    rintro (h | ⟨k, hk, -, hgap⟩)
    · exact hnotCompleted h
    · exact (hevents k hk).1 hgap
  have hnoRecord' : (initialReconnectState (log'.unclosed legacyIdentitySchema)).validRecord
      decision.candidate.gap = none := by
    rw [ReconnectState.validRecord, List.find?_eq_none] at hnoRecord ⊢
    exact fun r hr => hnoRecord r (hsublist.subset hr)
  have hkey : "" ∉ decision.candidate.gap.key := by
    refine hkeys _ ?_
    rw [← ReconnectState.map_candidate_decideAll hpass]
    exact List.mem_map_of_mem hmem
  have hlifecycle := @EventLog.lifecycle_eq legacyIdentitySchema log' _ hjson'.parses _ hkey
  refine extension_of_record hpass' (fun _ => rfl) hlifecycle ?_ hnoRecord' honly' htrusted hvalid
    hgeneration hmem' hsame
  intro heq
  refine hnotCompleted' ((EventLog.closed_iff_completed hjson'.parses).mp ?_)
  rw [hlifecycle, heq]

/-- **What becomes of an extension.** Nothing is kept of the verdict: while the parent is open the
candidate is held back, and is an extension again where all that is opened later is completed. Once
the parent is completed it is decided anew, and for every content some continuation makes a blocker
of it. -/
theorem extension_redecided (hwritten : WritesEvents)
    (hreport : evaluateLegacyReconnectDecisions legacyIdentitySchema catalog authority = .ok report)
    {decision : LegacyCandidateDecision} (hmem : decision ∈ report.decisions)
    (hext : decision.automatic = .provenExtension) :
    ∃ parent : GapIdentity, parent.stream = decision.candidate.gap.stream ∧
      parent ≠ decision.candidate.gap ∧
      (catalog.events.streamDiscontinuityLifecycle legacyIdentitySchema parent = .ok .opened ∨
        ∃ earlier ∈ report.decisions, earlier.final.materializes = true ∧
          earlier.candidate.gap = parent) ∧
      (∀ log' events authority', Continues legacyIdentitySchema catalog.events log' events →
        ∃ report', evaluateLegacyReconnectDecisions legacyIdentitySchema
            { catalog with events := log' } authority' = .ok report' ∧
          (∃ decision' ∈ report'.decisions, decision'.candidate = decision.candidate) ∧
          ∀ decision' ∈ report'.decisions, decision'.candidate = decision.candidate →
            Redecided legacyIdentitySchema catalog.events log' events authority' parent decision') ∧
      ∃ (log' : EventLog) (events : List KeyedRow) (report' : LegacyDecisionReport)
          (decision' : LegacyCandidateDecision),
        Continues legacyIdentitySchema catalog.events log' events ∧
        log'.streamDiscontinuityLifecycle legacyIdentitySchema parent = .ok .closed ∧
        evaluateLegacyReconnectDecisions legacyIdentitySchema { catalog with events := log' }
          authority = .ok report' ∧
        decision' ∈ report'.decisions ∧ decision'.candidate = decision.candidate ∧
        decision'.automatic = .conflict := by
  obtain ⟨candidates, closed, -, hcandidates, hclosed, -, hpass, -⟩ := evaluate_eq_ok hreport
  have hjson := EventLog.evidenceIsJson_of_closed hclosed
  have hkeys := inventory_key hcandidates
  have hcandidate : decision.candidate ∈ candidates := by
    rw [← ReconnectState.map_candidate_decideAll hpass]
    exact List.mem_map_of_mem hmem
  obtain ⟨hnotCompleted, hnoRecord, htrusted, parent, hstream, hparent, hkey, hopen⟩ :=
    parent_of_extension hjson.parses hkeys hpass hmem hext
  refine ⟨parent, hstream, hparent, hopen, ?_, exists_conflict hwritten hcandidates hjson hcandidate
    hnotCompleted hnoRecord hstream hparent hkey⟩
  intro log' events authority' hcontinues
  have hjson' : log'.EvidenceIsJson := hcontinues.evidenceIsJson hjson
  have hcandidates' : ReconnectCatalog.candidates { catalog with events := log' } =
      .ok candidates := hcandidates
  obtain ⟨report', hreport'⟩ := @exists_report _ legacyIdentitySchema
    { catalog with events := log' } authority' candidates hcandidates' hjson'
  obtain ⟨candidates', closed', -, hcandidates'', hclosed', -, hpass', -⟩ := evaluate_eq_ok hreport'
  obtain rfl : candidates = candidates' := Except.ok.inj (hcandidates'.symm.trans hcandidates'')
  refine ⟨report', hreport', exists_decision_of_pass hpass' hcandidate, ?_⟩
  intro decision' hmem' hsame
  constructor
  -- Another open gap of the stream holds the candidate back.
  case held =>
    intro gap hgap hother hgapOpen
    obtain ⟨record, hrecord, hid⟩ := exists_record_of_opened hjson'.parses hgapOpen
    rw [hgap] at hrecord
    refine held_of_open_gap hpass' hmem' hrecord fun h => hother ?_
    rw [GapIdentity.mk.injEq]
    exact ⟨hgap, hid.symm.trans h⟩
  -- The parent is still open: the decision is the same again.
  case again =>
    intro hparentOpen hparentOpen' hevents
    rw [hsame] at hevents
    exact extension_again hjson hkeys hpass hmem hext hcontinues hpass' hmem' hsame hstream hparent
      hparentOpen hparentOpen' hevents
  -- A final extension rests on a materialized proof.
  case proven =>
    intro hfinal
    rcases proof_of_materialized hpass' hmem' hfinal (by rw [hsame, htrusted]) with h | h | h
    · exact Or.inl h
    · exact Or.inr (Or.inl ⟨closed', hclosed', h⟩)
    · exact Or.inr (Or.inr h)

end

/-! ## An extension that is materialized -/

section

open scoped Json.Grammar

/-- A written event loads as its evidence. -/
theorem loads_text (event : GapEvent) :
    Json.Reader.loads (String.ofList (Json.encodeValue event.evidence)) =
      .value event.evidence := by
  refine Json.Grammar.loads_of_decode ?_
  simpa using Json.decode_encode event.plain_evidence rfl Json.ends_nil

theorem writesEvents_grammar : WritesEvents :=
  fun _ _ _ _ => ⟨⟨_, loads_text _⟩, ⟨_, loads_text _⟩⟩

/-- The row of an event, with its evidence as it is written. -/
def writtenRow (eventId : String) (event : GapEvent) : EventRow :=
  event.row eventId (String.ofList (Json.encodeValue event.evidence))

def writtenKeyed (eventId : String) (event : GapEvent) : KeyedRow :=
  event.keyedRow eventId (String.ofList (Json.encodeValue event.evidence))

/-- A row below is keyed by the gap it was written of. -/
theorem keyed_writtenRow {event : GapEvent} (h : "" ∉ event.gap.key) (eventId : String) :
    EventLog.keyed false (writtenRow eventId event) = some (writtenKeyed eventId event) :=
  GapEvent.keyed_row h (loads_text event) false

def sampleGap : GapIdentity := ⟨⟨"um", "BTCUSDT", "trade"⟩, "g"⟩

def sampleStarted : GapEvent := .started sampleGap "c1" 1 3

def sampleCompleted : GapEvent := .completed sampleGap "c2" 2 9

/-- A gap of connection `c1` is open, and a chunk of `c2` was sealed without a frame. -/
def extensionCatalog : ReconnectCatalog where
  sealing := [("chunk-x", sampleSealing (sampleIntent "x" "c2" 2 7))]
  sealedOnce := by decide
  events := ⟨[writtenRow "a" sampleStarted], List.nodup_singleton _⟩

/-- The gap is completed by `c2`. -/
def completedLog : EventLog :=
  ⟨[writtenRow "a" sampleStarted, writtenRow "b" sampleCompleted],
    List.nodup_cons.mpr ⟨by decide, List.nodup_singleton _⟩⟩

def noAuthority : LegacyClassificationAuthority := ⟨[], List.nodup_nil⟩

def extensionCandidate : LegacyReconnectCandidate :=
  candidateOf "chunk-x" (sampleSealing (sampleIntent "x" "c2" 2 7)) (sampleIntent "x" "c2" 2 7)

/-- The Catalog below has one candidate. -/
theorem candidates_extensionCatalog : extensionCatalog.candidates = .ok [extensionCandidate] := rfl

theorem keyed_extensionCatalog : extensionCatalog.events.orderedRows.filterMap
    (EventLog.keyed false) = [writtenKeyed "a" sampleStarted] := by
  have hrows : extensionCatalog.events.orderedRows = [writtenRow "a" sampleStarted] := rfl
  have hstarted : "" ∉ sampleStarted.gap.key := by decide
  rw [hrows, List.filterMap_cons, keyed_writtenRow hstarted]
  rfl

theorem keyed_completedLog : completedLog.orderedRows.filterMap (EventLog.keyed false) =
    [writtenKeyed "a" sampleStarted, writtenKeyed "b" sampleCompleted] := by
  have hrows : completedLog.orderedRows =
      [writtenRow "a" sampleStarted, writtenRow "b" sampleCompleted] := rfl
  have hstarted : "" ∉ sampleStarted.gap.key := by decide
  have hcompleted : "" ∉ sampleCompleted.gap.key := by decide
  rw [hrows, List.filterMap_cons, keyed_writtenRow hstarted, List.filterMap_cons,
    keyed_writtenRow hcompleted]
  rfl

theorem evidence_writtenRow (eventId : String) (event : GapEvent) :
    (writtenRow eventId event).evidence = some event.evidence := by
  rw [writtenRow, EventRow.evidence, EventRow.loads, GapEvent.evidenceJson_row, loads_text]
  rfl

theorem json_completedLog : completedLog.EvidenceIsJson := by
  intro row hrow _
  simp only [completedLog, List.mem_cons, List.not_mem_nil, or_false] at hrow
  rcases hrow with rfl | rfl <;> rw [evidence_writtenRow] <;> exact Option.some_ne_none _

theorem json_extensionCatalog : extensionCatalog.events.EvidenceIsJson := by
  intro row hrow _
  obtain rfl := List.mem_singleton.mp hrow
  rw [evidence_writtenRow]
  exact Option.some_ne_none _

/-- What a pass over the candidate decides, with these rows. -/
def extensionView (rows : List KeyedRow) : Option (List (AutomaticDecision × FinalDecision)) :=
  (ReconnectState.decideAll (keyedEvidence noAuthority rows) (keyedState rows)
    [extensionCandidate]).toOption.map fun decisions =>
      decisions.map fun decision => (decision.automatic, decision.final)

theorem extensionView_open : extensionView [writtenKeyed "a" sampleStarted] =
    some [(.provenExtension, .automatic .provenExtension)] := by decide

theorem extensionView_completed :
    extensionView [writtenKeyed "a" sampleStarted, writtenKeyed "b" sampleCompleted] =
      some [(.provenLegitimate, .automatic .provenLegitimate)] := by decide

/-- The one decision of a report on the candidate. -/
theorem decision_of_view {log : EventLog} {rows : List KeyedRow}
    (hrows : log.orderedRows.filterMap (EventLog.keyed false) = rows) (hjson : log.EvidenceIsJson)
    {automatic : AutomaticDecision} {final : FinalDecision}
    (hview : extensionView rows = some [(automatic, final)]) :
    ∃ report decision, evaluateLegacyReconnectDecisions false
        { extensionCatalog with events := log } noAuthority = .ok report ∧
      report.decisions = [decision] ∧ decision.candidate = extensionCandidate ∧
      decision.automatic = automatic ∧ decision.final = final := by
  have hcandidates : ReconnectCatalog.candidates { extensionCatalog with events := log } =
      .ok [extensionCandidate] := candidates_extensionCatalog
  obtain ⟨report, hreport⟩ := @exists_report _ false { extensionCatalog with events := log }
    noAuthority _ hcandidates hjson
  have hpass := decideAll_keyed hreport hcandidates
  rw [hrows] at hpass
  rw [extensionView, hpass] at hview
  obtain ⟨decision, hlist, hdecision⟩ := List.map_eq_singleton_iff.mp (Option.some.inj hview)
  have hmap := ReconnectState.map_candidate_decideAll hpass
  rw [hlist] at hmap
  obtain ⟨hautomatic, hfinal⟩ := Prod.mk.inj hdecision
  exact ⟨report, decision, hreport, hlist, (List.cons.inj hmap).1, hautomatic, hfinal⟩

/-- The parent's completion continues the log. -/
theorem continues_completedLog : Continues false extensionCatalog.events completedLog
    [writtenKeyed "b" sampleCompleted] := by
  refine ⟨rfl, fun k hk => ?_⟩
  obtain rfl := List.mem_singleton.mp hk
  have hkey : "" ∉ sampleCompleted.gap.key := by decide
  exact ⟨GapEvent.isLifecycle_row, keyed_writtenRow hkey "b"⟩

/-- **The extension of an open gap is materialized as a gap of its own** once the connection that
it was sealed on has completed the open one. -/
theorem extension_materialized :
    ∃ report decision report' decision',
      evaluateLegacyReconnectDecisions false extensionCatalog noAuthority = .ok report ∧
      report.decisions = [decision] ∧ decision.automatic = .provenExtension ∧
      Continues false extensionCatalog.events completedLog [writtenKeyed "b" sampleCompleted] ∧
      evaluateLegacyReconnectDecisions false { extensionCatalog with events := completedLog }
        noAuthority = .ok report' ∧
      report'.decisions = [decision'] ∧ decision'.candidate = decision.candidate ∧
      decision'.automatic = .provenLegitimate ∧ decision'.final.materializes = true := by
  obtain ⟨report, decision, hreport, hlist, hcandidate, hautomatic, -⟩ :=
    decision_of_view keyed_extensionCatalog json_extensionCatalog extensionView_open
  obtain ⟨report', decision', hreport', hlist', hcandidate', hautomatic', hfinal'⟩ :=
    decision_of_view keyed_completedLog json_completedLog extensionView_completed
  exact ⟨report, decision, report', decision', hreport, hlist, hautomatic, continues_completedLog,
    hreport', hlist', hcandidate'.trans hcandidate.symm, hautomatic', by rw [hfinal']; rfl⟩

/-- The candidate while its parent is open, after the completion, and as a blocker. -/
theorem extension_redecided_sample :
    ∃ report decision, evaluateLegacyReconnectDecisions false extensionCatalog noAuthority =
        .ok report ∧ decision ∈ report.decisions ∧ decision.automatic = .provenExtension ∧
      ∃ parent : GapIdentity, parent.stream = decision.candidate.gap.stream ∧
        (∃ report' decision', evaluateLegacyReconnectDecisions false
            { extensionCatalog with events := completedLog } noAuthority = .ok report' ∧
          decision' ∈ report'.decisions ∧ decision'.candidate = decision.candidate ∧
          Redecided false extensionCatalog.events completedLog [writtenKeyed "b" sampleCompleted]
            noAuthority parent decision' ∧ decision'.final.materializes = true) ∧
        ∃ log' report' decision',
          log'.streamDiscontinuityLifecycle false parent = .ok .closed ∧
          evaluateLegacyReconnectDecisions false { extensionCatalog with events := log' }
            noAuthority = .ok report' ∧
          decision' ∈ report'.decisions ∧ decision'.candidate = decision.candidate ∧
          decision'.automatic = .conflict := by
  obtain ⟨report, decision, hreport, hlist, hcandidate, hautomatic, -⟩ :=
    decision_of_view keyed_extensionCatalog json_extensionCatalog extensionView_open
  have hmem : decision ∈ report.decisions := by
    rw [hlist]
    exact List.mem_singleton_self _
  obtain ⟨parent, hstream, -, -, hlater, log', -, report'', decision'', -, hclosed, hreport'',
    hmem'', hsame'', hconflict⟩ :=
      extension_redecided writesEvents_grammar hreport hmem hautomatic
  obtain ⟨report', hreport', ⟨decision', hmem', hsame'⟩, hredecided⟩ :=
    hlater completedLog _ noAuthority continues_completedLog
  obtain ⟨same, only, hreportSame, hlistSame, -, -, hfinal⟩ :=
    decision_of_view keyed_completedLog json_completedLog extensionView_completed
  obtain rfl : report' = same := Except.ok.inj (hreport'.symm.trans hreportSame)
  obtain rfl : decision' = only := by
    rw [hlistSame] at hmem'
    exact List.mem_singleton.mp hmem'
  exact ⟨report, decision, hreport, hmem, hautomatic, parent, hstream,
    ⟨report', decision', hreport', hmem', hsame', hredecided decision' hmem' hsame',
      by rw [hfinal]; rfl⟩, log', report'', decision'', hclosed, hreport'', hmem'',
        hsame'', hconflict⟩

end

end MarketDataRecorder
