import MarketDataRecorder.Catalog.DiscontinuityReaders
import MarketDataRecorder.Spool.ReconnectDecisions

/-!
# Passes over the reconnect candidates

A pass comes to an end on every Catalog whose intents are valid and whose lifecycle rows are JSON:
the records of open gaps that a candidate can meet are of a row that is still unclosed, or of a
candidate in front of it.

* `EventLog.mem_openRecords` — the records at the start of a pass
* `exists_report` — **when a pass comes to an end**
-/

namespace MarketDataRecorder

/-! ## Valid intents -/

theorem validateSealIntent_eq_ok {intent : Value} {chunkId : String}
    (h : validateSealIntent intent chunkId = .ok ()) :
    (∀ name ∈ ["gap_id", "reason", "market", "symbol", "stream", "original_connection_id"],
      evidenceText intent name ≠ none) ∧
    evidenceNat intent "original_generation" ≠ none ∧
    evidenceNat intent "gap_started_at_utc_ns" ≠ none := by
  unfold validateSealIntent at h
  split at h
  · cases h
  · split at h
    · cases h
    · split at h
      · cases h
      · split at h
        · cases h
        · next htexts =>
          split at h
          · cases h
          · next hgeneration =>
            split at h
            · cases h
            · next hstarted =>
              refine ⟨fun name hname heq => htexts ?_, hgeneration, hstarted⟩
              exact List.any_eq_true.mpr ⟨name, hname, by simpa using heq⟩

/-- A candidate has an identity without empty parts. -/
theorem not_mem_key_candidateOf {chunkId : String} {evidence persisted : Value}
    (h : validateSealIntent (legacySealIntentForRead persisted) chunkId = .ok ()) :
    "" ∉ (candidateOf chunkId evidence persisted).gap.key := by
  have htext : ∀ name ∈ ["gap_id", "reason", "market", "symbol", "stream",
      "original_connection_id"],
      (evidenceText (legacySealIntentForRead persisted) name).getD "" ≠ "" := by
    intro name hname
    obtain ⟨text, htext⟩ :=
      Option.ne_none_iff_exists'.mp ((validateSealIntent_eq_ok h).1 name hname)
    rw [htext]
    exact EventLog.evidenceText_ne_empty htext
  have hgap := htext "gap_id" (by decide)
  have hmarket := htext "market" (by decide)
  have hsymbol := htext "symbol" (by decide)
  have hstream := htext "stream" (by decide)
  simp [candidateOf, GapIdentity.key, StreamIdentity.key, hgap.symm, hmarket.symm, hsymbol.symm,
    hstream.symm]

theorem inventory_key :
    ∀ {rows : List (String × Value)} {candidates : List LegacyReconnectCandidate},
      inventory rows = .ok candidates → ∀ candidate ∈ candidates, "" ∉ candidate.gap.key
  | [], _, h => by
    cases h
    exact fun _ h => absurd h List.not_mem_nil
  | (chunkId, evidence) :: rows, candidates, h => by
    rcases inventory_cons h with h | ⟨persisted, rest, -, hrest, hvalid, rfl⟩
    · exact inventory_key h
    · intro candidate hmem
      rcases List.mem_cons.mp hmem with rfl | hmem
      · exact not_mem_key_candidateOf hvalid
      · exact inventory_key hrest candidate hmem

/-! ## Records of open gaps -/

theorem evidenceText_eq_some {evidence : Value} {name text : String}
    (h : evidenceText evidence name = some text) : evidence.get? name = some (.str text) := by
  unfold evidenceText at h
  split at h
  · next s hs =>
    split at h
    · cases h
    · cases h
      exact hs
  · cases h

/-- The gap id of an evidence with an identity. -/
theorem get?_gapId_of_identity {legacyIdentitySchema : Bool} {evidence : Value} {gap : GapIdentity}
    (h : identityUnder legacyIdentitySchema evidence = some gap) :
    evidence.get? "gap_id" = some (.str gap.gapId) := by
  simp only [identityUnder, Option.bind_eq_bind, Option.bind_eq_some_iff, Option.pure_def,
    Option.some.injEq] at h
  obtain ⟨market, hmarket, symbol, hsymbol, stream, hstream, gapId, hgapId, rfl⟩ := h
  exact evidenceText_eq_some hgapId

theorem openGapRecord_gapId {legacyIdentitySchema : Bool} {evidence : Value} {gap : GapIdentity}
    (h : identityUnder legacyIdentitySchema evidence = some gap) :
    (openGapRecord evidence).gapId = gap.gapId := by
  have hget := get?_gapId_of_identity h
  have hdict : evidence.isDict = true := by
    cases evidence with
    | dict items => rfl
    | oddDict text => rfl
    | _ => cases hget
  simp only [openGapRecord, hdict, Bool.true_eq_false, if_false, hget]

namespace EventLog

variable [Json.Reader] {legacyIdentitySchema : Bool} {log : EventLog}

/-- The gap has a COMPLETED row. -/
def Completed (legacyIdentitySchema : Bool) (log : EventLog) (gap : GapIdentity) : Prop :=
  ∃ row ∈ log.rows, row.isLifecycle = true ∧ row.isCompletion = true ∧
    (keyed legacyIdentitySchema row).map KeyedRow.gap = some gap

/-- A STARTED row of the gap, without a COMPLETED one. -/
def Unclosed (legacyIdentitySchema : Bool) (log : EventLog) (gap : GapIdentity)
    (evidence : Value) : Prop :=
  ∃ row ∈ log.rows, row.eventType = startedType ∧
    keyed legacyIdentitySchema row = some ⟨row, evidence, gap⟩ ∧
    ¬ log.Completed legacyIdentitySchema gap

theorem isSome_lastEvidence_iff_completed {gap : GapIdentity} :
    (lastEvidence true
        (log.orderedRows.filterMap (keyed legacyIdentitySchema)) gap).isSome = true ↔
      log.Completed legacyIdentitySchema gap := by
  rw [isSome_lastEvidence_ordered]
  rfl

theorem closed_iff_completed (hparses : log.Parses) {gap : GapIdentity} :
    log.streamDiscontinuityLifecycle legacyIdentitySchema gap = .ok .closed ↔
      log.Completed legacyIdentitySchema gap := by
  rw [closed_iff hparses, isSome_lastEvidence_iff_completed]

/-- The unclosed documents of a stream. -/
theorem mem_unclosed {stream : StreamIdentity} {document : EventDocument} :
    document ∈ ((log.unclosed legacyIdentitySchema).get? stream).getD [] ↔
      ∃ row ∈ log.rows, ∃ evidence gap, row.eventType = startedType ∧
        keyed legacyIdentitySchema row = some ⟨row, evidence, gap⟩ ∧ gap.stream = stream ∧
        ¬ log.Completed legacyIdentitySchema gap ∧ document = row.document evidence := by
  have hcompleted : ∀ gap : GapIdentity,
      (gap ∈ ((log.orderedRows.filterMap (keyed legacyIdentitySchema)).filter
        fun k => k.row.isCompletion).map KeyedRow.gap) ↔
      log.Completed legacyIdentitySchema gap := by
    intro gap
    rw [← isSome_lastEvidence_iff_completed, isSome_lastEvidence]
    simp only [List.mem_map, List.mem_filter, and_assoc]
  rw [unclosed, unclosedDocuments, SortedDict.getD_groupItems]
  simp only [List.mem_map, List.mem_filter, decide_eq_true_eq, Bool.and_eq_true,
    Bool.not_eq_true']
  constructor
  · rintro ⟨p, ⟨⟨k, ⟨hk, hstarted, hopen⟩, rfl⟩, hstream⟩, rfl⟩
    obtain ⟨hrow, hkeyed⟩ := mem_keyedRows.mp hk
    obtain ⟨hrow, hlifecycle⟩ := mem_orderedRows.mp hrow
    exact ⟨k.row, hrow, k.evidence, k.gap, started_iff.mpr ⟨hlifecycle, hstarted⟩, hkeyed, hstream,
      fun h => hopen (by simpa using (hcompleted k.gap).mpr h), rfl⟩
  · rintro ⟨row, hrow, evidence, gap, htype, hkeyed, hstream, hopen, rfl⟩
    obtain ⟨hlifecycle, hstarted⟩ := started_iff.mp htype
    refine ⟨(gap.stream, row.document evidence), ⟨⟨⟨row, evidence, gap⟩, ⟨?_, hstarted, ?_⟩, rfl⟩,
      hstream⟩, rfl⟩
    · exact mem_keyedRows.mpr ⟨mem_orderedRows.mpr ⟨hrow, hlifecycle⟩, hkeyed⟩
    · intro h
      exact hopen ((hcompleted gap).mp (by simpa using h))

end EventLog

section

variable [Json.Reader] {legacyIdentitySchema : Bool} {log : EventLog}

/-- The records at the start of a pass are of the rows that are still unclosed. -/
theorem mem_initialRecords {stream : StreamIdentity} {record : OpenGapRecord} :
    record ∈ (initialReconnectState
        (log.unclosed legacyIdentitySchema)).openRecords stream ↔
      ∃ gap evidence, log.Unclosed legacyIdentitySchema gap evidence ∧
        gap.stream = stream ∧ record = openGapRecord evidence := by
  have hrecords :
      (initialReconnectState (log.unclosed legacyIdentitySchema)).openRecords stream =
        (((log.unclosed legacyIdentitySchema).get? stream).getD []).map
          fun event => openGapRecord event.evidence := by
    rw [ReconnectState.openRecords, initialReconnectState, SortedDict.get?_mapValues]
    cases (log.unclosed legacyIdentitySchema).get? stream <;> rfl
  rw [hrecords, List.mem_map]
  simp only [EventLog.mem_unclosed]
  constructor
  · rintro ⟨-, ⟨row, hrow, evidence, gap, htype, hkeyed, hstream, hopen, rfl⟩, rfl⟩
    exact ⟨gap, evidence, ⟨row, hrow, htype, hkeyed, hopen⟩, hstream, rfl⟩
  · rintro ⟨gap, evidence, ⟨row, hrow, htype, hkeyed, hopen⟩, hstream, rfl⟩
    exact ⟨_, ⟨row, hrow, evidence, gap, htype, hkeyed, hstream, hopen, rfl⟩, rfl⟩

end

/-! ## One decision -/

namespace ReconnectState

variable {state : ReconnectState} {evidence : ReconnectEvidence}
  {candidate : LegacyReconnectCandidate}

/-- The four ways in which a candidate is decided. -/
inductive Decided (state : ReconnectState) (evidence : ReconnectEvidence)
    (candidate : LegacyReconnectCandidate) : AutomaticDecision × GapLifecycle × String → Prop
  | closed (hlifecycle : evidence.lifecycle candidate.gap = .ok .closed) :
      Decided state evidence candidate (.historicalClosed, .closed, "")
  | simulated {lifecycle : GapLifecycle} {previous : LegacyReconnectCandidate}
      (hlifecycle : evidence.lifecycle candidate.gap = .ok lifecycle) (hopen : lifecycle ≠ .closed)
      (hprevious : state.simulatedStarted.get? candidate.gap = some previous) :
      Decided state evidence candidate (validated (simulatedConflict previous candidate))
  | started {lifecycle : GapLifecycle} {record : OpenGapRecord} {event : EventDocument}
      (hlifecycle : evidence.lifecycle candidate.gap = .ok lifecycle) (hopen : lifecycle ≠ .closed)
      (hprevious : state.simulatedStarted.get? candidate.gap = none)
      (hrecord : state.validRecord candidate.gap = some record)
      (hevent : openEventForGap evidence candidate.gap = some event) :
      Decided state evidence candidate (validated (startedConflict record event candidate))
  | absent {lifecycle : GapLifecycle}
      (hlifecycle : evidence.lifecycle candidate.gap = .ok lifecycle) (hopen : lifecycle ≠ .closed)
      (hprevious : state.simulatedStarted.get? candidate.gap = none)
      (hrecord : state.validRecord candidate.gap = none) :
      Decided state evidence candidate (state.decideAbsent evidence candidate, .absent,
        if state.decideAbsent evidence candidate = .conflict then
          "competing unmatched discontinuity exists" else "")

theorem decideAutomatic_iff {result : AutomaticDecision × GapLifecycle × String} :
    state.decideAutomatic evidence candidate = .ok result ↔
      Decided state evidence candidate result := by
  constructor
  · intro h
    unfold decideAutomatic at h
    split at h
    · cases h
    · next hlifecycle =>
      cases h
      exact .closed hlifecycle
    · next lifecycle hne hlifecycle =>
      split at h
      · next previous hprevious =>
        cases h
        exact .simulated hlifecycle hne hprevious
      · next hprevious =>
        split at h
        · next record hrecord =>
          split at h
          · cases h
          · next event hevent =>
            cases h
            exact .started hlifecycle hne hprevious hrecord hevent
        · next hrecord =>
          cases h
          exact .absent hlifecycle hne hprevious hrecord
  · intro h
    cases h with
    | closed hlifecycle => rw [decideAutomatic, hlifecycle]
    | simulated hlifecycle hopen hprevious =>
      next lifecycle previous =>
      rw [decideAutomatic, hlifecycle]
      cases lifecycle with
      | closed => exact absurd rfl hopen
      | _ => simp only [hprevious]
    | started hlifecycle hopen hprevious hrecord hevent =>
      next lifecycle record event =>
      rw [decideAutomatic, hlifecycle]
      cases lifecycle with
      | closed => exact absurd rfl hopen
      | _ => simp only [hprevious, hrecord, hevent]
    | absent hlifecycle hopen hprevious hrecord =>
      next lifecycle =>
      rw [decideAutomatic, hlifecycle]
      cases lifecycle with
      | closed => exact absurd rfl hopen
      | _ => simp only [hprevious, hrecord]

theorem validated_ne {conflict : Option String} {automatic : AutomaticDecision}
    (hvalidated : automatic ≠ .openValidated) (hconflict : automatic ≠ .conflict) :
    (validated conflict).1 ≠ automatic := by
  unfold validated
  dsimp only
  split
  · exact hvalidated.symm
  · exact hconflict.symm

/-- Every valid record has an event or an earlier candidate behind it. -/
def Backed (evidence : ReconnectEvidence) (state : ReconnectState) : Prop :=
  ∀ gap record, state.validRecord gap = some record →
    (∃ previous, state.simulatedStarted.get? gap = some previous) ∨
      ∃ event, openEventForGap evidence gap = some event

theorem exists_decideAutomatic {lifecycle : GapLifecycle}
    (hlifecycle : evidence.lifecycle candidate.gap = .ok lifecycle)
    (hbacked : Backed evidence state) :
    ∃ result, state.decideAutomatic evidence candidate = .ok result := by
  simp only [decideAutomatic_iff]
  by_cases hclosed : lifecycle = .closed
  · subst hclosed
    exact ⟨_, .closed hlifecycle⟩
  · cases hprevious : state.simulatedStarted.get? candidate.gap with
    | some previous => exact ⟨_, .simulated hlifecycle hclosed hprevious⟩
    | none =>
      cases hrecord : state.validRecord candidate.gap with
      | none => exact ⟨_, .absent hlifecycle hclosed hprevious hrecord⟩
      | some record =>
        rcases hbacked _ _ hrecord with ⟨previous, h⟩ | ⟨event, hevent⟩
        · rw [hprevious] at h
          cases h
        · exact ⟨_, .started hlifecycle hclosed hprevious hrecord hevent⟩

theorem exists_decideCandidate {result : AutomaticDecision × GapLifecycle × String}
    (h : state.decideAutomatic evidence candidate = .ok result) :
    ∃ decision, state.decideCandidate evidence candidate = .ok decision := by
  obtain ⟨automatic, lifecycleState, detail⟩ := result
  rw [decideCandidate, h]
  simp only [bind, Except.bind, pure, Except.pure]
  split
  · exact ⟨_, rfl⟩
  · cases evidence.authority.lookup candidate.gap with
    | none => exact ⟨_, rfl⟩
    | some entry =>
      dsimp only
      split
      · exact ⟨_, rfl⟩
      · exact ⟨_, rfl⟩

/-! ## The state behind a decision -/

theorem after_of_not_materializes {decision : LegacyCandidateDecision}
    (h : decision.final.materializes = false) : state.after decision = state := by
  rw [after, h]
  rfl

theorem openRecords_after {decision : LegacyCandidateDecision}
    (h : decision.final.materializes = true) (stream : StreamIdentity) :
    (state.after decision).openRecords stream =
      if stream = decision.candidate.gap.stream then
        state.openRecords stream ++ [decision.candidate.openRecord]
      else state.openRecords stream := by
  rw [after, if_pos h]
  dsimp only [openRecords]
  rw [SortedDict.get?_insert]
  split
  · next heq =>
    subst heq
    rfl
  · rfl

theorem simulatedStarted_after {decision : LegacyCandidateDecision}
    (h : decision.final.materializes = true) (gap : GapIdentity) :
    (state.after decision).simulatedStarted.get? gap =
      if gap = decision.candidate.gap then some decision.candidate
      else state.simulatedStarted.get? gap := by
  simp only [after, if_pos h, SortedDict.get?_insert]
  by_cases hgap : gap = decision.candidate.gap
  · rw [if_pos hgap, if_pos hgap]
  · rw [if_neg hgap, if_neg hgap]

theorem backed_after {decision : LegacyCandidateDecision} (hbacked : Backed evidence state) :
    Backed evidence (state.after decision) := by
  by_cases hmaterializes : decision.final.materializes = true
  · intro gap record hrecord
    rw [simulatedStarted_after hmaterializes]
    by_cases hgap : gap = decision.candidate.gap
    · exact Or.inl ⟨_, if_pos hgap⟩
    · rw [if_neg hgap]
      refine hbacked gap record ?_
      rw [validRecord, openRecords_after hmaterializes] at hrecord
      split at hrecord
      · next hstream =>
        -- the new record is of another gap of the stream
        have hother : decision.candidate.gap.gapId ≠ gap.gapId := by
          intro hid
          exact hgap (GapIdentity.key_injective (by simp [GapIdentity.key, hstream, hid]))
        rw [List.find?_append] at hrecord
        have hnone : [decision.candidate.openRecord].find? (fun record =>
            record.identityValid && decide (record.gapId = gap.gapId)) = none := by
          simp [LegacyReconnectCandidate.openRecord, hother]
        rw [hnone, Option.or_none] at hrecord
        exact hrecord
      · exact hrecord
  · rw [after_of_not_materializes (by simpa using hmaterializes)]
    exact hbacked

theorem exists_decideAll :
    ∀ {candidates : List LegacyReconnectCandidate} {state : ReconnectState},
      (∀ candidate ∈ candidates, ∃ lifecycle, evidence.lifecycle candidate.gap = .ok lifecycle) →
      Backed evidence state → ∃ decisions, decideAll evidence state candidates = .ok decisions
  | [], _, _, _ => ⟨[], rfl⟩
  | candidate :: candidates, state, hlifecycle, hbacked => by
    obtain ⟨lifecycle, h⟩ := hlifecycle candidate List.mem_cons_self
    obtain ⟨result, hresult⟩ := exists_decideAutomatic h hbacked
    obtain ⟨decision, hdecision⟩ := exists_decideCandidate hresult
    obtain ⟨rest, hrest⟩ : ∃ rest,
        decideAll evidence (state.after decision) candidates = .ok rest :=
      exists_decideAll (fun c hc => hlifecycle c (List.mem_cons_of_mem _ hc)) (backed_after hbacked)
    refine ⟨decision :: rest, ?_⟩
    rw [decideAll, hdecision]
    simp only [bind, Except.bind, hrest]
    rfl

end ReconnectState

/-! ## A whole pass -/

section

variable [Json.Reader] {legacyIdentitySchema : Bool} {catalog : ReconnectCatalog}
  {authority : LegacyClassificationAuthority}

theorem backed_initial (closed : SortedDict StreamIdentity (List ClosedInterval)) :
    ReconnectState.Backed (reconnectEvidence legacyIdentitySchema catalog authority
        (catalog.events.unclosed legacyIdentitySchema) closed)
      (initialReconnectState (catalog.events.unclosed legacyIdentitySchema)) := by
  intro gap record hrecord
  right
  have hmem := List.mem_of_find?_eq_some hrecord
  have hgap := List.find?_some hrecord
  obtain ⟨gap', evidence, ⟨row, hrow, htype, hkeyed, hopen⟩, hstream, rfl⟩ :=
    mem_initialRecords.mp hmem
  have hidentity := (EventLog.keyed_eq_some.mp hkeyed).2.2
  have hid : gap'.gapId = gap.gapId := by
    rw [← openGapRecord_gapId hidentity]
    simpa using (Bool.and_eq_true_iff.mp hgap).2
  have hdocument : row.document evidence ∈
      ((catalog.events.unclosed legacyIdentitySchema).get? gap.stream).getD [] :=
    EventLog.mem_unclosed.mpr ⟨row, hrow, evidence, gap', htype, hkeyed, hstream, hopen, rfl⟩
  refine Option.isSome_iff_exists.mp (List.find?_isSome.mpr ⟨_, hdocument, ?_⟩)
  rw [← hid]
  exact decide_eq_true (get?_gapId_of_identity hidentity)

/-- **A pass comes to an end** where the intents are valid and the lifecycle rows are JSON. -/
theorem exists_report {candidates : List LegacyReconnectCandidate}
    (hcandidates : catalog.candidates = .ok candidates) (hjson : catalog.events.EvidenceIsJson) :
    ∃ report,
      evaluateLegacyReconnectDecisions legacyIdentitySchema catalog authority = .ok report := by
  have hparses : catalog.events.Parses := hjson.parses
  have hopen : catalog.events.unclosedStreamDiscontinuitiesByStream legacyIdentitySchema =
      .ok (catalog.events.unclosed legacyIdentitySchema) :=
    EventLog.overRows_eq_ok
      (fun row hrow => hparses row (EventLog.perm_orderedRows.subset hrow)) _
  have hmalformed : catalog.events.malformedDiscontinuityEvents legacyIdentitySchema =
      .ok (catalog.events.malformed legacyIdentitySchema) :=
    EventLog.overRows_eq_ok hparses _
  have hclosed := (@EventLog.closed_eq_ok_iff legacyIdentitySchema catalog.events _).mpr hjson
  have hdegraded := @EventLog.degraded_eq legacyIdentitySchema catalog.events _ hjson
  obtain ⟨decisions, hdecisions⟩ : ∃ decisions, ReconnectState.decideAll
      (reconnectEvidence legacyIdentitySchema catalog authority
        (catalog.events.unclosed legacyIdentitySchema) (closedIntervals
          (catalog.events.orderedRows.filterMap (EventLog.keyed legacyIdentitySchema))))
      (initialReconnectState (catalog.events.unclosed legacyIdentitySchema)) candidates =
        .ok decisions :=
    ReconnectState.exists_decideAll
      (fun candidate hcandidate => ⟨_, EventLog.lifecycle_eq hparses candidate.gap
        (inventory_key hcandidates candidate hcandidate)⟩)
      (backed_initial _)
  rw [evaluateLegacyReconnectDecisions, hcandidates, hopen, hclosed, hdegraded, hmalformed]
  simp only [bind, Except.bind, hdecisions]
  exact ⟨_, rfl⟩

/-! ## What a pass sees of the log -/

/-- The lifecycle of a gap by the keyed rows. -/
def lifecycleOf (rows : List KeyedRow) (gap : GapIdentity) : Except String GapLifecycle :=
  if "" ∈ gap.key then .error "market, symbol, stream and gap_id must be non-empty"
  else if (lastEvidence true rows gap).isSome then .ok .closed
  else if (lastEvidence false rows gap).isSome then .ok .opened
  else .ok .absent

def keyedEvidence (authority : LegacyClassificationAuthority) (rows : List KeyedRow) :
    ReconnectEvidence where
  lifecycle := lifecycleOf rows
  openGrouped := unclosedDocuments rows
  closed := closedIntervals rows
  authority := authority

def keyedState (rows : List KeyedRow) : ReconnectState where
  openSets := (unclosedDocuments rows).mapValues fun _ events =>
    events.map fun event => openGapRecord event.evidence

theorem lifecycle_eq_lifecycleOf {log : EventLog} (hparses : log.Parses) :
    log.streamDiscontinuityLifecycle legacyIdentitySchema =
      lifecycleOf (log.orderedRows.filterMap (EventLog.keyed legacyIdentitySchema)) := by
  funext gap
  by_cases hkey : "" ∈ gap.key
  · rw [EventLog.streamDiscontinuityLifecycle, lifecycleOf, if_pos hkey, if_pos hkey]
  · rw [EventLog.lifecycle_eq hparses gap hkey, lifecycleOf, if_neg hkey]
    split
    · rfl
    · split <;> rfl

/-- **A pass sees the keyed rows of the log only**, in the order of time. -/
theorem decideAll_keyed {report : LegacyDecisionReport}
    (h : evaluateLegacyReconnectDecisions legacyIdentitySchema catalog authority = .ok report)
    {candidates : List LegacyReconnectCandidate}
    (hcandidates : catalog.candidates = .ok candidates) :
    ReconnectState.decideAll
      (keyedEvidence authority
        (catalog.events.orderedRows.filterMap (EventLog.keyed legacyIdentitySchema)))
      (keyedState (catalog.events.orderedRows.filterMap (EventLog.keyed legacyIdentitySchema)))
      candidates = .ok report.decisions := by
  obtain ⟨candidates', closed, degraded, hcandidates', hclosed, -, hpass, -⟩ := evaluate_eq_ok h
  obtain rfl : candidates = candidates' := Except.ok.inj (hcandidates.symm.trans hcandidates')
  have hjson := EventLog.evidenceIsJson_of_closed hclosed
  have heq := (@EventLog.closed_eq_ok_iff legacyIdentitySchema catalog.events _).mpr hjson
  obtain rfl := Except.ok.inj (hclosed.symm.trans heq)
  rw [reconnectEvidence, lifecycle_eq_lifecycleOf hjson.parses] at hpass
  exact hpass

end

end MarketDataRecorder
