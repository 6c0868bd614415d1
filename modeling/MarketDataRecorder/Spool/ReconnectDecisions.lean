import MarketDataRecorder.Lib.Fallible
import MarketDataRecorder.Spool.LegacyReconnect

/-!
# Reconnect decisions

What a pass over the candidates decides, candidate by candidate, and what becomes of the entries of
the operator. An entry is looked up under its identity; the check of the entries goes through the
last decision on an identity, whichever chunk it is about.

* `evaluate_eq_ok` — when a pass comes to an end, and what it reports
* `authority_entry_resolves_iff` — when an entry that names an ambiguous candidate is left alone
-/

namespace MarketDataRecorder

/-! ## Candidates -/

theorem inventory_cons {chunkId : String} {evidence : Value} {rows : List (String × Value)}
    {candidates : List LegacyReconnectCandidate}
    (h : inventory ((chunkId, evidence) :: rows) = .ok candidates) :
    inventory rows = .ok candidates ∨
      ∃ persisted rest, evidence.get? "seal_intent" = some persisted ∧
        inventory rows = .ok rest ∧
        validateSealIntent (legacySealIntentForRead persisted) chunkId = .ok () ∧
        candidates = candidateOf chunkId evidence persisted :: rest := by
  rw [inventory] at h
  split at h
  · exact Or.inl h
  · exact Or.inl h
  · next persisted _ hpersisted =>
    split at h
    · cases h
    · cases hvalid : validateSealIntent (legacySealIntentForRead persisted) chunkId with
      | error e =>
        rw [hvalid] at h
        cases h
      | ok u =>
        cases hrest : inventory rows with
        | error e =>
          rw [hvalid, hrest] at h
          cases h
        | ok rest =>
          rw [hvalid, hrest] at h
          cases h
          exact Or.inr ⟨persisted, rest, hpersisted, rfl, hvalid, rfl⟩

/-- The candidates are of some of the transitions, in their order. -/
theorem inventory_sublist :
    ∀ {rows : List (String × Value)} {candidates : List LegacyReconnectCandidate},
      inventory rows = .ok candidates →
        (candidates.map LegacyReconnectCandidate.chunkId).Sublist (rows.map Prod.fst)
  | [], _, h => by
    cases h
    exact List.Sublist.refl _
  | (chunkId, evidence) :: rows, candidates, h => by
    rcases inventory_cons h with h | ⟨persisted, rest, -, hrest, -, rfl⟩
    · exact (inventory_sublist h).cons _
    · exact (inventory_sublist hrest).cons_cons _

theorem ReconnectCatalog.candidates_nodup {catalog : ReconnectCatalog}
    {candidates : List LegacyReconnectCandidate} (h : catalog.candidates = .ok candidates) :
    (candidates.map LegacyReconnectCandidate.chunkId).Nodup :=
  (inventory_sublist h).nodup ((List.filter_sublist.map _).nodup catalog.sealedOnce)

/-! ## A pass -/

namespace ReconnectState

variable {state : ReconnectState} {evidence : ReconnectEvidence}

theorem decideCandidate_eq_ok {candidate : LegacyReconnectCandidate}
    {decision : LegacyCandidateDecision}
    (h : state.decideCandidate evidence candidate = .ok decision) :
    decision.candidate = candidate ∧
      state.decideAutomatic evidence candidate =
        .ok (decision.automatic, decision.lifecycleState, decision.detail) ∧
      (decision.automatic ≠ .ambiguous → decision.authorityState = .missing ∧
        decision.final = .automatic decision.automatic) ∧
      (decision.automatic = .ambiguous →
        match evidence.authority.lookup candidate.gap with
        | none => decision.authorityState = .missing ∧ decision.final = .automatic .ambiguous
        | some entry =>
          if entry.binds candidate then
            decision.authorityState = .matched ∧ decision.final = .classified entry.classification
          else decision.authorityState = .stale ∧ decision.final = .automatic .ambiguous) := by
  unfold decideCandidate at h
  cases hauto : state.decideAutomatic evidence candidate with
  | error e =>
    rw [hauto] at h
    cases h
  | ok result =>
    obtain ⟨automatic, lifecycleState, detail⟩ := result
    rw [hauto] at h
    simp only [bind, Except.bind, pure, Except.pure] at h
    split at h
    · next hne =>
      cases h
      exact ⟨rfl, rfl, fun _ => ⟨rfl, rfl⟩, fun heq => absurd heq hne⟩
    · next heq =>
      obtain rfl : automatic = .ambiguous := not_not.mp heq
      cases hlookup : evidence.authority.lookup candidate.gap with
      | none =>
        rw [hlookup] at h
        cases h
        exact ⟨rfl, rfl, fun hne => absurd rfl hne, fun _ => ⟨rfl, rfl⟩⟩
      | some entry =>
        rw [hlookup] at h
        dsimp only at h
        split at h
        · next hbinds =>
          cases h
          refine ⟨rfl, rfl, fun hne => absurd rfl hne, fun _ => ?_⟩
          dsimp only
          rw [if_pos hbinds]
          exact ⟨rfl, rfl⟩
        · next hbinds =>
          cases h
          refine ⟨rfl, rfl, fun hne => absurd rfl hne, fun _ => ?_⟩
          dsimp only
          rw [if_neg hbinds]
          exact ⟨rfl, rfl⟩

theorem decideAll_cons {candidate : LegacyReconnectCandidate}
    {candidates : List LegacyReconnectCandidate} {decisions : List LegacyCandidateDecision}
    (h : decideAll evidence state (candidate :: candidates) = .ok decisions) :
    ∃ decision rest, state.decideCandidate evidence candidate = .ok decision ∧
      decideAll evidence (state.after decision) candidates = .ok rest ∧
      decisions = decision :: rest := by
  rw [decideAll] at h
  cases hdecide : state.decideCandidate evidence candidate with
  | error e =>
    rw [hdecide] at h
    cases h
  | ok decision =>
    rw [hdecide] at h
    simp only [bind, Except.bind] at h
    cases hrest : decideAll evidence (state.after decision) candidates with
    | error e =>
      rw [hrest] at h
      cases h
    | ok rest =>
      rw [hrest] at h
      cases h
      exact ⟨decision, rest, rfl, hrest, rfl⟩

/-- A pass decides on the candidates, in their order. -/
theorem map_candidate_decideAll :
    ∀ {candidates : List LegacyReconnectCandidate} {state : ReconnectState}
      {decisions : List LegacyCandidateDecision},
      decideAll evidence state candidates = .ok decisions →
        decisions.map LegacyCandidateDecision.candidate = candidates
  | [], _, _, h => by
    cases h
    rfl
  | candidate :: candidates, state, decisions, h => by
    obtain ⟨decision, rest, hdecide, hrest, rfl⟩ := decideAll_cons h
    rw [List.map_cons, (decideCandidate_eq_ok hdecide).1, map_candidate_decideAll hrest]

/-- What every decision of a pass preserves holds of the states in which it decides. -/
theorem exists_state_of_mem {I : ReconnectState → Prop} :
    ∀ {candidates : List LegacyReconnectCandidate} {state : ReconnectState}
      {decisions : List LegacyCandidateDecision},
      decideAll evidence state candidates = .ok decisions → I state →
      (∀ middle decision, I middle → decision ∈ decisions →
        middle.decideCandidate evidence decision.candidate = .ok decision →
          I (middle.after decision)) →
      ∀ decision ∈ decisions, ∃ middle : ReconnectState, I middle ∧
        middle.decideCandidate evidence decision.candidate = .ok decision
  | [], _, _, h, _, _ => by
    cases h
    exact fun _ h => absurd h List.not_mem_nil
  | candidate :: candidates, state, decisions, h, hstate, hstep => by
    obtain ⟨decision, rest, hdecide, hrest, rfl⟩ := decideAll_cons h
    have hown : state.decideCandidate evidence decision.candidate = .ok decision := by
      rw [(decideCandidate_eq_ok hdecide).1]
      exact hdecide
    intro d hd
    rcases List.mem_cons.mp hd with rfl | hd
    · exact ⟨state, hstate, hown⟩
    · exact exists_state_of_mem hrest (hstep state decision hstate List.mem_cons_self hown)
        (fun middle d hmiddle hmem => hstep middle d hmiddle (List.mem_cons_of_mem _ hmem)) d hd

/-- Every decision of a pass is one on its candidate, in some state of the pass. -/
theorem exists_decide_of_mem {candidates : List LegacyReconnectCandidate}
    {decisions : List LegacyCandidateDecision}
    (h : decideAll evidence state candidates = .ok decisions) {decision : LegacyCandidateDecision}
    (hmem : decision ∈ decisions) : ∃ middle : ReconnectState,
      middle.decideCandidate evidence decision.candidate = .ok decision := by
  obtain ⟨middle, -, hdecide⟩ :=
    @exists_state_of_mem _ (fun _ => True) _ _ _ h trivial (fun _ _ _ _ _ => trivial) decision hmem
  exact ⟨middle, hdecide⟩

end ReconnectState

section

variable {authority : LegacyClassificationAuthority}

/-! ## Entries -/

/-- An entry is found under its identity. -/
theorem LegacyClassificationAuthority.lookup_eq_some {entry : LegacyClassificationEntry}
    (h : entry ∈ authority.entries) : authority.lookup entry.gap = some entry := by
  have hsome : (authority.lookup entry.gap).isSome = true :=
    List.find?_isSome.mpr ⟨entry, h, by simp⟩
  obtain ⟨found, hfound⟩ := Option.isSome_iff_exists.mp hsome
  have hgap : found.gap = entry.gap := by simpa using List.find?_some hfound
  have hmem : found ∈ authority.entries := List.mem_of_find?_eq_some hfound
  rw [hfound, List.inj_on_of_nodup_map authority.nodup hmem h hgap]

theorem get?_decisionByIdentity (decisions : List LegacyCandidateDecision) (gap : GapIdentity) :
    (decisionByIdentity decisions).get? gap =
      (decisions.filter fun decision => decision.candidate.gap = gap).getLast? := by
  rw [decisionByIdentity, SortedDict.get?_ofItems, List.filter_map, List.getLast?_map,
    Option.map_map]
  have hid : (Prod.snd ∘ fun decision : LegacyCandidateDecision =>
      (decision.candidate.gap, decision)) = id := rfl
  rw [hid, Option.map_id_fun, id_eq]
  refine congrArg List.getLast? (List.filter_congr fun decision _ => ?_)
  simp

/-- The decision that an identity stands for: the one at hand, or one behind it. -/
theorem get?_decisionByIdentity_append (before after : List LegacyCandidateDecision)
    (decision : LegacyCandidateDecision) :
    (decisionByIdentity (before ++ decision :: after)).get? decision.candidate.gap =
      some (((after.filter fun later => later.candidate.gap = decision.candidate.gap).getLast?).getD
        decision) := by
  rw [get?_decisionByIdentity, List.filter_append, List.filter_cons_of_pos (by simp),
    List.getLast?_append, List.getLast?_cons, Option.some_or]

/-! ## The end of a pass -/

variable [Json.Reader] {legacyIdentitySchema : Bool} {catalog : ReconnectCatalog}
  {report : LegacyDecisionReport}

/-- What a pass that comes to an end has read and decided. -/
theorem evaluate_eq_ok
    (h : evaluateLegacyReconnectDecisions legacyIdentitySchema catalog authority = .ok report) :
    ∃ candidates closed degraded,
      catalog.candidates = .ok candidates ∧
      catalog.events.closedStreamDiscontinuityIntervalsByStream legacyIdentitySchema = .ok closed ∧
      catalog.events.degradedClosedDiscontinuityPairs legacyIdentitySchema = .ok degraded ∧
      ReconnectState.decideAll (reconnectEvidence legacyIdentitySchema catalog authority
          (catalog.events.unclosed legacyIdentitySchema) closed)
        (initialReconnectState (catalog.events.unclosed legacyIdentitySchema)) candidates =
          .ok report.decisions ∧
      report.complaints = authority.entries.filterMap (fun entry =>
        (authorityComplaint report.decisions entry).map (entry, ·)) ∧
      report.degradedAuthority = degraded.map .pair ++
        (catalog.events.malformed legacyIdentitySchema).map .event := by
  obtain ⟨candidates, hcandidates, h⟩ := except_bind_eq_ok h
  obtain ⟨openGrouped, hopen, h⟩ := except_bind_eq_ok h
  obtain ⟨closed, hclosed, h⟩ := except_bind_eq_ok h
  obtain ⟨decisions, hdecisions, h⟩ := except_bind_eq_ok h
  obtain ⟨degraded, hdegraded, h⟩ := except_bind_eq_ok h
  obtain ⟨malformed, hmalformed, h⟩ := except_bind_eq_ok h
  obtain ⟨-, rfl⟩ := EventLog.overRows_eq_ok_iff.mp hopen
  obtain ⟨-, rfl⟩ := EventLog.overRows_eq_ok_iff.mp hmalformed
  cases h
  exact ⟨candidates, closed, degraded, hcandidates, hclosed, hdegraded, hdecisions, rfl, rfl⟩

/-- **An entry that names an ambiguous candidate is applied, and it is left alone exactly where no
later candidate has the same identity.** The check looks at the last one. -/
theorem authority_entry_resolves_iff {candidates : List LegacyReconnectCandidate}
    (hcandidates : catalog.candidates = .ok candidates)
    (hreport : evaluateLegacyReconnectDecisions legacyIdentitySchema catalog authority = .ok report)
    {i : Nat} {decision : LegacyCandidateDecision} (hi : report.decisions[i]? = some decision)
    (hambiguous : decision.automatic = .ambiguous) {entry : LegacyClassificationEntry}
    (hentry : entry ∈ authority.entries) (hgap : entry.gap = decision.candidate.gap)
    (hbinds : entry.binds decision.candidate = true) :
    (decision.authorityState = .matched ∧ decision.final = .classified entry.classification ∧
        ∀ complaint, (entry, complaint) ∉ report.complaints) ↔
      ∀ j later, i < j → candidates[j]? = some later → later.gap ≠ entry.gap := by
  obtain ⟨candidates', closed, degraded, hcandidates', -, -, hdecisions, hcomplaints, -⟩ :=
    evaluate_eq_ok hreport
  obtain rfl : candidates = candidates' := Except.ok.inj (hcandidates.symm.trans hcandidates')
  have hmap := ReconnectState.map_candidate_decideAll hdecisions
  -- the entry is applied in any case
  have happlied : decision.authorityState = .matched ∧
      decision.final = .classified entry.classification := by
    obtain ⟨state, hdecide⟩ :=
      ReconnectState.exists_decide_of_mem hdecisions (List.mem_of_getElem? hi)
    have h := (ReconnectState.decideCandidate_eq_ok hdecide).2.2.2 hambiguous
    rw [reconnectEvidence, ← hgap, LegacyClassificationAuthority.lookup_eq_some hentry] at h
    dsimp only at h
    rwa [if_pos hbinds] at h
  have hsplit : report.decisions = report.decisions.take i ++ decision ::
    report.decisions.drop (i + 1) := by
    obtain ⟨hlt, heq⟩ := List.getElem?_eq_some_iff.mp hi
    rw [← heq, List.getElem_cons_drop, List.take_append_drop]
  have hlater : (∀ j later, i < j → candidates[j]? = some later → later.gap ≠ entry.gap) ↔
      (report.decisions.drop (i + 1)).filter
        (fun later => later.candidate.gap = decision.candidate.gap) = [] := by
    rw [List.filter_eq_nil_iff, ← hmap, ← hgap]
    constructor
    · intro h later hmem
      obtain ⟨k, hk⟩ := List.mem_iff_getElem?.mp hmem
      rw [List.getElem?_drop] at hk
      simpa using h (i + 1 + k) later.candidate (by omega) (by rw [List.getElem?_map, hk]; rfl)
    · intro h j later hlt hj
      rw [List.getElem?_map] at hj
      obtain ⟨d, hd, rfl⟩ := Option.map_eq_some_iff.mp hj
      have hmem : d ∈ report.decisions.drop (i + 1) := by
        refine List.mem_iff_getElem?.mpr ⟨j - (i + 1), ?_⟩
        rw [List.getElem?_drop, show i + 1 + (j - (i + 1)) = j from by omega, hd]
      simpa using h d hmem
  have hcheck : authorityComplaint report.decisions entry = none ↔
      (report.decisions.drop (i + 1)).filter
        (fun later => later.candidate.gap = decision.candidate.gap) = [] := by
    have hget := get?_decisionByIdentity_append (report.decisions.take i)
      (report.decisions.drop (i + 1)) decision
    rw [← hsplit] at hget
    rw [authorityComplaint, hgap, hget]
    constructor
    · intro h
      by_contra hne
      obtain ⟨last, hlast⟩ := Option.ne_none_iff_exists'.mp (mt List.getLast?_eq_none_iff.mp hne)
      -- the last one is of another chunk, so the entry does not name it
      have hmem : last ∈ report.decisions.drop (i + 1) :=
        List.mem_of_mem_filter (List.mem_of_getLast? hlast)
      have hnodup := ReconnectCatalog.candidates_nodup hcandidates
      rw [← hmap, List.map_map, hsplit, List.map_append, List.map_cons] at hnodup
      have hchunk : last.candidate.chunkId ≠ decision.candidate.chunkId := by
        intro heq
        exact (List.nodup_cons.mp (List.nodup_append.mp hnodup).2.1).1
          (List.mem_map.mpr ⟨last, hmem, heq⟩)
      have hother : entry.binds last.candidate = false := by
        have hown : entry.chunkId = decision.candidate.chunkId := by
          simpa using (Bool.and_eq_true_iff.mp hbinds).1
        simp [LegacyClassificationEntry.binds, hown, hchunk.symm]
      rw [hlast] at h
      simp [hother] at h
    · intro h
      rw [h]
      simp [hbinds, hambiguous]
  rw [hlater, ← hcheck, hcomplaints]
  constructor
  · rintro ⟨-, -, h⟩
    by_contra hne
    obtain ⟨complaint, hcomplaint⟩ := Option.ne_none_iff_exists'.mp hne
    exact h complaint (List.mem_filterMap.mpr ⟨entry, hentry, by rw [hcomplaint, Option.map_some]⟩)
  · intro h
    refine ⟨happlied.1, happlied.2, fun complaint hmem => ?_⟩
    obtain ⟨other, -, hother⟩ := List.mem_filterMap.mp hmem
    obtain ⟨found, hfound, heq⟩ := Option.map_eq_some_iff.mp hother
    obtain ⟨rfl, -⟩ := Prod.mk.inj heq
    rw [h] at hfound
    cases hfound

end

/-! ## Two chunks of one gap -/

/-- An intent without a schema, of a reconnect of `connection`. -/
def sampleIntent (gapId connection : String) (generation startedAt : Int) : Value := .dict
  [("gap_id", .str gapId), ("gap_started_at_utc_ns", .int startedAt), ("market", .str "um"),
   ("original_connection_id", .str connection), ("original_generation", .int generation),
   ("reason", .str "disconnect"), ("required_forced_flags", .list []), ("stream", .str "trade"),
   ("symbol", .str "BTCUSDT")]

/-- The evidence of a SEALING transition without frames. -/
def sampleSealing (intent : Value) : Value :=
  .dict [("seal_intent", intent), ("verified_frames", .int 0)]

section

open scoped Json.Grammar

def noEvents : EventLog where
  rows := []
  nodup := List.nodup_nil

/-- The same gap in two chunks. -/
def twoChunkCatalog : ReconnectCatalog where
  sealing := [("chunk-a", sampleSealing (sampleIntent "g" "c" 1 5)),
    ("chunk-b", sampleSealing (sampleIntent "g" "c" 1 5))]
  sealedOnce := by decide
  events := noEvents

def chunkAEntry : LegacyClassificationEntry where
  gap := ⟨⟨"um", "BTCUSDT", "trade"⟩, "g"⟩
  chunkId := "chunk-a"
  -- the digest of the evidence of the first chunk
  classificationEvidenceSha256 := "67dca36b6634744898cb4b1b0368375d8f4994c5e31ac808e525095e4a101129"
  classification := .extensionOrphan
  note := none

/-- An authority document that names the first of them. -/
def chunkADocument : Value := .dict
  [("classifications", .list [.dict
      [("chunk_id", .str "chunk-a"), ("classification", .str "extension_orphan"),
       ("classification_evidence_sha256", .str chunkAEntry.classificationEvidenceSha256),
       ("gap_id", .str "g"), ("market", .str "um"), ("stream", .str "trade"),
       ("symbol", .str "BTCUSDT")]]),
   ("schema", .str LegacyClassificationAuthority.schemaV3)]

def chunkAText : String := String.ofList (Json.encodeValue chunkADocument)

def chunkAAuthority : LegacyClassificationAuthority where
  entries := [chunkAEntry]
  nodup := by decide

theorem chunkAText_loads :
    LegacyClassificationAuthority.load "p" (some chunkAText) = .ok chunkAAuthority := by
  have hplain : Json.Plain chunkADocument := by
    simp only [chunkADocument, Json.Plain, Json.PlainElements, Json.PlainMembers]
    decide
  have hdecode : Json.decode chunkAText.toList = some chunkADocument := by
    rw [chunkAText, String.toList_ofList]
    simpa using Json.decode_encode hplain rfl Json.ends_nil
  have hload : LegacyClassificationAuthority.load "p" (some chunkAText) =
      LegacyClassificationAuthority.loadEntries "p" 0 [.dict
        [("chunk_id", .str "chunk-a"), ("classification", .str "extension_orphan"),
         ("classification_evidence_sha256", .str chunkAEntry.classificationEvidenceSha256),
         ("gap_id", .str "g"), ("market", .str "um"), ("stream", .str "trade"),
         ("symbol", .str "BTCUSDT")]] ⟨[], List.nodup_nil⟩ := by
    rw [LegacyClassificationAuthority.load]
    rw [Json.Grammar.loads_of_decode hdecode]
    rfl
  have h : (LegacyClassificationAuthority.load "p" (some chunkAText)).toOption.map
      LegacyClassificationAuthority.entries = some [chunkAEntry] := by
    rw [hload]
    decide
  cases hload : LegacyClassificationAuthority.load "p" (some chunkAText) with
  | error e =>
    rw [hload] at h
    cases h
  | ok authority =>
    rw [hload] at h
    obtain ⟨entries, nodup⟩ := authority
    obtain rfl : entries = [chunkAEntry] := Option.some.inj h
    rfl

/-- The same entry for the second chunk. -/
def chunkBEntry : LegacyClassificationEntry where
  gap := ⟨⟨"um", "BTCUSDT", "trade"⟩, "g"⟩
  chunkId := "chunk-b"
  classificationEvidenceSha256 := "33c43359d24d21521e78b0c8f48d0d26dbc484e0a91e3339f49cdd13fc3801e0"
  classification := .extensionOrphan
  note := none

def chunkBAuthority : LegacyClassificationAuthority where
  entries := [chunkBEntry]
  nodup := by decide

/-- What a pass says of an entry for each candidate, and of the entries. -/
def entryView (entry : LegacyClassificationEntry) (authority : LegacyClassificationAuthority) :
    Option (List (AutomaticDecision × Bool × Bool) × List AuthorityComplaint) :=
  (evaluateLegacyReconnectDecisions false twoChunkCatalog authority).toOption.map fun report =>
    (report.decisions.map fun decision =>
      (decision.automatic, entry.gap = decision.candidate.gap, entry.binds decision.candidate),
      report.complaints.map Prod.snd)

theorem entryView_chunkA : entryView chunkAEntry chunkAAuthority =
    some ([(.ambiguous, true, true), (.ambiguous, true, false)], [.stale "chunk-b"]) := by
  decide +kernel

theorem entryView_chunkB : entryView chunkBEntry chunkBAuthority =
    some ([(.ambiguous, true, false), (.ambiguous, true, true)], []) := by
  decide +kernel

theorem authority_entry_resolves_iff_sample :
    ∃ report first decision,
      evaluateLegacyReconnectDecisions false twoChunkCatalog chunkBAuthority = .ok report ∧
      report.decisions = [first, decision] ∧ decision.authorityState = .matched ∧
      decision.final = .classified .extensionOrphan ∧
      ∀ complaint, (chunkBEntry, complaint) ∉ report.complaints := by
  have hview := entryView_chunkB
  unfold entryView at hview
  cases hreport : evaluateLegacyReconnectDecisions false twoChunkCatalog chunkBAuthority with
  | error e =>
    rw [hreport] at hview
    cases hview
  | ok report =>
    rw [hreport] at hview
    obtain ⟨hdecisions, -⟩ := Prod.mk.inj (Option.some.inj hview)
    obtain ⟨first, rest, hlist, -, hrest⟩ := List.map_eq_cons_iff.mp hdecisions
    obtain ⟨decision, rfl, hdecision⟩ := List.map_eq_singleton_iff.mp hrest
    obtain ⟨hambiguous, hgap, hbinds⟩ : decision.automatic = .ambiguous ∧
        chunkBEntry.gap = decision.candidate.gap ∧
        chunkBEntry.binds decision.candidate = true := by simpa using hdecision
    obtain ⟨candidates, closed, degraded, hcandidates, -, -, hpass, -⟩ := evaluate_eq_ok hreport
    have htwo : candidates = [first.candidate, decision.candidate] := by
      rw [← ReconnectState.map_candidate_decideAll hpass, hlist]
      rfl
    refine ⟨report, first, decision, rfl, hlist, ?_⟩
    refine (authority_entry_resolves_iff hcandidates hreport (i := 1) (by rw [hlist]; rfl)
      hambiguous List.mem_cons_self hgap hbinds).mpr ?_
    -- no candidate is behind the second one
    intro j later hj hlater
    have hnone : [first.candidate, decision.candidate][j]? = none :=
      List.getElem?_eq_none (show 2 ≤ j by omega)
    rw [htwo, hnone] at hlater
    cases hlater

/-- **An entry that names an ambiguous candidate is reported stale**, because of the other chunk of
the gap. -/
theorem chunkA_entry_stale :
    ∃ authority report decision entry,
      LegacyClassificationAuthority.load "p" (some chunkAText) = .ok authority ∧
      evaluateLegacyReconnectDecisions false twoChunkCatalog authority = .ok report ∧
      decision ∈ report.decisions ∧ decision.automatic = .ambiguous ∧
      entry ∈ authority.entries ∧ entry.gap = decision.candidate.gap ∧
      entry.binds decision.candidate = true ∧
      (entry, .stale "chunk-b") ∈ report.complaints := by
  have hview := entryView_chunkA
  unfold entryView at hview
  cases hreport : evaluateLegacyReconnectDecisions false twoChunkCatalog chunkAAuthority with
  | error e =>
    rw [hreport] at hview
    cases hview
  | ok report =>
    rw [hreport] at hview
    obtain ⟨hdecisions, hcomplaints⟩ := Prod.mk.inj (Option.some.inj hview)
    have hfirst : (AutomaticDecision.ambiguous, true, true) ∈ report.decisions.map fun decision =>
        (decision.automatic, decide (chunkAEntry.gap = decision.candidate.gap),
          chunkAEntry.binds decision.candidate) := by
      rw [hdecisions]
      exact List.mem_cons_self
    obtain ⟨decision, hmem, hdecision⟩ := List.mem_map.mp hfirst
    obtain ⟨hambiguous, hgap, hbinds⟩ : decision.automatic = .ambiguous ∧
        chunkAEntry.gap = decision.candidate.gap ∧
        chunkAEntry.binds decision.candidate = true := by simpa using hdecision
    have hstale : AuthorityComplaint.stale "chunk-b" ∈ report.complaints.map Prod.snd := by
      rw [hcomplaints]
      exact List.mem_cons_self
    obtain ⟨⟨entry, complaint⟩, hcomplaint, rfl⟩ := List.mem_map.mp hstale
    have hentry : entry = chunkAEntry := by
      obtain ⟨candidates, closed, degraded, -, -, -, -, heq, -⟩ := evaluate_eq_ok hreport
      rw [heq] at hcomplaint
      obtain ⟨other, hother, h⟩ := List.mem_filterMap.mp hcomplaint
      obtain ⟨found, -, h⟩ := Option.map_eq_some_iff.mp h
      rw [← (Prod.mk.inj h).1]
      exact List.mem_singleton.mp hother
    subst hentry
    exact ⟨chunkAAuthority, report, decision, chunkAEntry, chunkAText_loads, hreport, hmem,
      hambiguous, List.mem_cons_self, hgap, hbinds, hcomplaint⟩

end

end MarketDataRecorder
