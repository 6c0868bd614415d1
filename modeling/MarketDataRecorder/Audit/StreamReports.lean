import MarketDataRecorder.Audit.BoundaryView

/-!
# What an audit reports of a stream

The report of an audit is the reports of its streams: the transitions of a stream are those that the
chunks of the stream bring, and its counts are those of these transitions.

* `collectTransitions_reports` — the report, stream by stream
* `perm_of_streams` — transitions that agree in every stream
-/

namespace MarketDataRecorder

/-! ## Counts -/

namespace StreamSummary

/-- Counts added up. -/
def add (a b : StreamSummary) : StreamSummary where
  chunksScanned := a.chunksScanned + b.chunksScanned
  transitionsTotal := a.transitionsTotal + b.transitionsTotal
  explicitGap := a.explicitGap + b.explicitGap
  blueGreenOverlap := a.blueGreenOverlap + b.blueGreenOverlap
  unmarkedReconnect := a.unmarkedReconnect + b.unmarkedReconnect
  unknown := a.unknown + b.unknown
  chunksWithScanIssues := a.chunksWithScanIssues + b.chunksWithScanIssues

/-- The counts of scanned chunks and of transitions of some kinds. -/
def ofKinds (scanned : Nat) (kinds : List TransitionKind) : StreamSummary where
  chunksScanned := scanned
  transitionsTotal := kinds.length
  explicitGap := kinds.count .explicitSequenceGap
  blueGreenOverlap := kinds.count .blueGreenOverlap
  unmarkedReconnect := kinds.count .unmarkedReconnect
  unknown := kinds.count .unknown

theorem add_ofKinds (m n : Nat) (kinds kinds' : List TransitionKind) :
    (ofKinds m kinds).add (ofKinds n kinds') = ofKinds (m + n) (kinds ++ kinds') := by
  simp [add, ofKinds]

theorem tally_eq_add (s : StreamSummary) (kind : TransitionKind) :
    s.tally kind = s.add (ofKinds 0 [kind]) := by
  cases kind <;> simp [tally, add, ofKinds]

theorem add_assoc (a b c : StreamSummary) : (a.add b).add c = a.add (b.add c) := by
  simp [add, Nat.add_assoc]

theorem add_zero (s : StreamSummary) : s.add (ofKinds 0 []) = s := by
  simp [add, ofKinds]

theorem foldl_tally : ∀ (kinds : List TransitionKind) (s : StreamSummary),
    kinds.foldl tally s = s.add (ofKinds 0 kinds)
  | [], s => (add_zero s).symm
  | kind :: kinds, s => by
    rw [List.foldl_cons, foldl_tally kinds, tally_eq_add, add_assoc, add_ofKinds]
    rfl

end StreamSummary

variable {intervals : List CatalogGapInterval} {emit : Option (List String)}

theorem summary_next (a : StreamAudit) (x : ChunkScan) :
    (a.next emit intervals x).summary = a.summary.add (StreamSummary.ofKinds
      (if emits emit x then 1 else 0) ((a.transitions emit intervals x).map Transition.kind)) := by
  have hsummary : (a.next emit intervals x).summary = a.counted emit intervals x := by
    unfold StreamAudit.next
    split
    · rfl
    · split
      · split <;> rfl
      · rfl
  rw [hsummary, StreamAudit.counted, StreamSummary.foldl_tally]
  split <;> simp [StreamSummary.add, StreamSummary.ofKinds]

/-- The counts of a stream are those of its transitions and of the chunks that are reported. -/
theorem summary_final : ∀ (chunks : List ChunkScan) (a : StreamAudit),
    ((auditPass emit intervals).final a chunks).summary =
      a.summary.add (StreamSummary.ofKinds (chunks.countP (emits emit))
        (((auditPass emit intervals).outs a chunks).map Transition.kind))
  | [], a => (StreamSummary.add_zero _).symm
  | x :: chunks, a => by
    rw [KeyedFold.Pass.final_cons, summary_final chunks]
    show (a.next emit intervals x).summary.add _ = a.summary.add (StreamSummary.ofKinds _
      ((a.transitions emit intervals x ++ _).map Transition.kind))
    rw [summary_next, StreamSummary.add_assoc, StreamSummary.add_ofKinds, List.map_append,
      List.countP_cons, Nat.add_comm]

/-! ## Streams -/

/-- The stream of the chunk in a market that is audited. -/
def Transition.stream (transition : Transition) : StreamIdentity :=
  manifestStream transition.newManifest

theorem newManifest_of_mem {a : StreamAudit} {x : ChunkScan} {transition : Transition}
    (h : transition ∈ a.transitions emit intervals x) :
    transition.newManifest = x.manifest ∧ isWebsocketChunk x = true := by
  have hframes : ∀ (all frames : List FrameIdentity) (index : Nat),
      transition ∈ framesTransitions intervals x.manifest all index frames →
        transition.newManifest = x.manifest := by
    intro all frames
    induction frames with
    | nil => simp [framesTransitions]
    | cons first frames ih =>
      cases frames with
      | nil => simp [framesTransitions]
      | cons second rest =>
        intro index hmem
        rw [framesTransitions, List.mem_append] at hmem
        rcases hmem with hmem | hmem
        · rw [Option.mem_toList, intraTransition] at hmem
          split at hmem
          · cases hmem
          · obtain rfl := Option.some.inj hmem
            rfl
        · exact ih (index + 1) hmem
  have hintra : transition ∈ intraTransitions intervals x →
      transition.newManifest = x.manifest := by
    unfold intraTransitions
    split
    · exact hframes _ _ _
    · intro hmem
      rw [Option.mem_toList, unorderedTransition] at hmem
      split at hmem
      · cases hmem
      · obtain rfl := Option.some.inj hmem
        rfl
  unfold StreamAudit.transitions at h
  split at h
  · cases h
  · next hweb =>
    refine ⟨?_, by simpa using hweb⟩
    rcases List.mem_append.mp h with h | h
    · split at h
      · exact hintra h
      · cases h
    · split at h
      · cases h
      · obtain ⟨previous, -, hinter⟩ := Option.bind_eq_some_iff.mp (Option.mem_toList.mp h)
        unfold interTransition at hinter
        dsimp only at hinter
        split at hinter
        · split at hinter
          · cases hinter
          · obtain rfl := Option.some.inj hinter
            rfl
        · cases hinter

/-- A transition is of the stream of the chunk that brings it. -/
theorem auditedStream_of_mem {a : StreamAudit} {x : ChunkScan} {transition : Transition}
    (h : transition ∈ a.transitions emit intervals x) :
    auditedStream x = some transition.stream := by
  obtain ⟨hmanifest, hweb⟩ := newManifest_of_mem h
  rw [Transition.stream, hmanifest, auditedStream]
  refine if_pos ?_
  rw [isWebsocketChunk, decide_eq_true_eq] at hweb
  unfold websocketStreams at hweb
  split at hweb
  · next hmarket => simp [hmarket]
  · split at hweb
    · next hmarket => simp [hmarket]
    · cases hweb

/-- Transitions are the same up to their order where they are it in every stream. -/
theorem perm_of_streams {ts ts' : List Transition}
    (h : ∀ stream, (ts.filter fun t => t.stream = stream).Perm
      (ts'.filter fun t => t.stream = stream)) : ts.Perm ts' := by
  rw [List.perm_iff_count]
  intro t
  have hcount : ∀ l : List Transition,
      (l.filter fun t' => t'.stream = t.stream).count t = l.count t :=
    fun l => List.count_filter (decide_eq_true rfl)
  rw [← hcount ts, ← hcount ts']
  exact (h t.stream).count_eq t

/-! ## The report -/

/-- What is reported of a stream: its transitions, and the counts of them and of the chunks. -/
structure ReportsStream (transitions : List Transition)
    (summaries : SortedDict StreamIdentity StreamSummary) (stream : StreamIdentity) (scanned : Nat)
    (brought : List Transition) : Prop where
  transitions : (transitions.filter fun t => t.stream = stream).Perm brought
  summary : (summaries.get? stream).getD {} =
    StreamSummary.ofKinds scanned (brought.map Transition.kind)

/-- A chunk with its frames is no chunk with an issue. -/
theorem issuesOf_eq_zero {emit : Option (List String)} {stream : StreamIdentity}
    {chunks : List ChunkScan} (h : ∀ x ∈ chunks, x.frames.isSome = true) :
    issuesOf emit stream chunks = 0 := by
  rw [issuesOf, List.countP_eq_zero]
  intro x hx hissue
  have hsome := h x hx
  rw [Option.isSome_iff_ne_none] at hsome
  simp only [hasScanIssue, Bool.and_eq_true, Option.isNone_iff_eq_none] at hissue
  exact hsome hissue.1.1.1.1

theorem collectTransitions_ok [Json.Reader] (chunks : List ChunkScan) (files : RawFiles)
    {catalog : Option AuditCatalog} (hintervals : auditIntervals catalog = .ok intervals) :
    collectTransitions chunks files catalog emit = .ok {
      transitions := ((auditPass emit intervals).run (.empty, [])
        (chunks.map (loadFrames files))).2.insertionSort Transition.reportedBefore
      summaries := ((auditPass emit intervals).run (.empty, [])
        (chunks.map (loadFrames files))).1.mapValues fun stream audit =>
          { audit.summary with
            chunksWithScanIssues := issuesOf emit stream (chunks.map (loadFrames files)) }
      intervals := intervals } := by
  rw [collectTransitions, hintervals]
  rfl

/-- **The report of an audit**, stream by stream: the transitions that the chunks of the stream
bring and the counts of them, under the streams that chunks are of. -/
theorem collectTransitions_reports [Json.Reader] {chunks : List ChunkScan} {files : RawFiles}
    {catalog : Option AuditCatalog} (hintervals : auditIntervals catalog = .ok intervals)
    (hframes : ∀ x ∈ chunks.map (loadFrames files), x.frames.isSome = true) :
    ∃ report, collectTransitions chunks files catalog emit = .ok report ∧ ∀ stream,
      let mine := (auditPass emit intervals).under stream (chunks.map (loadFrames files))
      ReportsStream report.transitions report.summaries stream (mine.countP (emits emit))
          ((auditPass emit intervals).outs {} mine) ∧
        ((report.summaries.get? stream).isSome = true ↔ mine ≠ []) := by
  refine ⟨_, collectTransitions_ok chunks files hintervals, ?_⟩
  intro stream
  set loaded := chunks.map (loadFrames files)
  have htag : ∀ state x, ∀ t ∈ (auditPass emit intervals).out state x,
      (auditPass emit intervals).key x = some (Transition.stream t) :=
    fun state x t ht => auditedStream_of_mem ht
  have hrun := KeyedFold.Pass.filter_run htag stream (.empty, []) loaded
  have hfinal := @KeyedFold.Pass.getD_run _ _ _ _ (auditPass emit intervals) _ stream (.empty, [])
    loaded
  have hkeys := @KeyedFold.Pass.isSome_get?_run _ _ _ _ (auditPass emit intervals) _ stream
    (.empty, []) loaded
  simp only [SortedDict.get?_empty, Option.getD_none, Option.isSome_none, Bool.false_eq_true,
    false_or, List.filter_nil, List.nil_append] at hrun hfinal hkeys
  have hmine : (∃ x ∈ loaded, (auditPass emit intervals).key x = some stream) ↔
      (auditPass emit intervals).under stream loaded ≠ [] := by
    rw [KeyedFold.Pass.under, Ne, List.filter_eq_nil_iff, not_forall]
    exact exists_congr fun x => by simp
  rw [hmine] at hkeys
  refine ⟨⟨?_, ?_⟩, ?_⟩
  · refine ((List.perm_insertionSort _ _).filter _).trans ?_
    refine List.Perm.of_eq (Eq.trans ?_ hrun)
    exact List.filter_congr fun t _ => decide_eq_decide.mpr Iff.rfl
  · rw [SortedDict.get?_mapValues, issuesOf_eq_zero hframes]
    cases hget : ((auditPass emit intervals).run (.empty, []) loaded).1.get? stream with
    | none =>
      have hnil : (auditPass emit intervals).under stream loaded = [] := by
        rw [hget] at hkeys
        exact not_not.mp fun hne => absurd (hkeys.mpr hne) (by simp)
      rw [hnil]
      rfl
    | some audit =>
      rw [hget, Option.getD_some] at hfinal
      rw [Option.map_some, Option.getD_some, hfinal, summary_final]
      show StreamSummary.mk _ _ _ _ _ _ _ = _
      simp [auditPass, StreamSummary.add, StreamSummary.ofKinds]
  · rw [← hkeys, SortedDict.get?_mapValues, Option.isSome_map]

end MarketDataRecorder
