import MarketDataRecorder.Supervisor.HandoffSteps

/-!
# Handoffs, interleaved

What a handoff leaves behind, part by part, and from it the safety of any number of handoffs,
however they are interleaved.

* `verifies_deploy` — the whole handoff
* `handoffs_safe` — **no handoff asks its active Collector to stop before the overlap is recorded,
  and none asks both of its Collectors**
-/

namespace MarketDataRecorder

open Handoff HandoffRecord

section

variable {d : String} {p : Parties} {rec : HandoffRecord} {begun : Bool} {s t : Fleet}

/-! ## Waits -/

/-- A poll keeps the stage, whatever the Collectors do meanwhile. -/
theorem verifies_sleep {Q : Unit → Fleet → Prop} (h : Stage d p rec begun s)
    (hQ : ∀ t, Stage d p rec begun t → Later s t → Q () t) : Verifies d Q sleep s := by
  refine verifies_call fun c => ?_
  split
  · exact ⟨guarantees_refl _ s, by rintro a ⟨⟩⟩
  · refine ⟨guarantees_refl _ s, ?_⟩
    rintro a ⟨⟩ t ht
    exact hQ t (h.rests ht) ht.later

/-- After gathering a task, the task has ended. -/
theorem verifies_gather {Q : Unit → Fleet → Prop} {handle : Nat} (h : Stage d p rec begun s)
    (hQ : ∀ t, Stage d p rec begun t → Later s t → (t.collectors handle).task.ended ≠ none →
      Q () t) : Verifies d Q (gather handle) s := by
  refine verifies_call fun c => ?_
  split
  · exact ⟨guarantees_refl _ s, by rintro a ⟨⟩⟩
  · next hwaits =>
    refine ⟨guarantees_refl _ s, ?_⟩
    rintro a ⟨⟩ t ht
    obtain ⟨taskEnd, hend⟩ := Option.ne_none_iff_exists'.mp fun hnone => hwaits (.inr hnone)
    exact hQ t (h.rests ht) ht.later (by simp [(ht.later handle).ended taskEnd hend])

/-- What the end of the wait says of the old Collector. -/
def Shutdown.Tells (shutdown : Shutdown) (c : Collector) : Prop :=
  match shutdown with
  | .returned => c.task.ended ≠ none
  | .timedOut => True
  | .raised exceptionType => c.task.ended ≠ none ∨ exceptionType = "CancelledError"

/-- What a shutdown tells is true of the Collector that it stopped. -/
theorem verifies_awaitShutdown {Q : Shutdown → Fleet → Prop} {handle : Nat}
    (h : Stage d p rec begun s)
    (hQ : ∀ shutdown t, Stage d p rec begun t → Later s t →
      Shutdown.Tells shutdown (t.collectors handle) → Q shutdown t) :
    Verifies d Q (awaitShutdown handle) s := by
  refine verifies_call fun c => ?_
  split
  · refine ⟨guarantees_refl _ s, ?_⟩
    rintro a ⟨⟩ t ht
    exact hQ _ t (h.rests ht) ht.later (.inr rfl)
  · cases hend : (s.collectors handle).task.ended with
    | none =>
      refine ⟨guarantees_refl _ s, ?_⟩
      rintro a ⟨⟩ t ht
      exact hQ _ t (h.rests ht) ht.later trivial
    | some taskEnd =>
      have hdone : ∀ t, Rests d s t → (t.collectors handle).task.ended ≠ none := fun t ht => by
        simp [(ht.later handle).ended taskEnd hend]
      cases taskEnd with
      | returned =>
        refine ⟨guarantees_refl _ s, ?_⟩
        rintro a ⟨⟩ t ht
        exact hQ _ t (h.rests ht) ht.later (hdone t ht)
      | cancelled =>
        refine ⟨guarantees_refl _ s, ?_⟩
        rintro a ⟨⟩ t ht
        exact hQ _ t (h.rests ht) ht.later (.inr rfl)
      | failed exceptionType isTimeout =>
        refine ⟨guarantees_refl _ s, ?_⟩
        rintro a ⟨⟩ t ht
        refine hQ _ t (h.rests ht) ht.later ?_
        cases isTimeout with
        | true => trivial
        | false => exact .inl (hdone t ht)

/-- The texts for gaps begin with the active Collector. -/
theorem plain_of_head {reason : String} (h : reason.toList.head? = some 'c') :
    PlainReason reason := by
  constructor
  · rintro rfl
    exact absurd h (by decide)
  · rintro rfl
    exact absurd h (by decide)

/-- A Collector's failure is a plain reason. -/
theorem plain_failed (exceptionType : String) :
    PlainReason ("candidate Collector failed: " ++ exceptionType) := by
  have hhead : "candidate Collector failed: ".toList.head? = some 'c' := by decide
  refine plain_of_head ?_
  rw [String.toList_append, List.head?_append, hhead]
  rfl

/-- So is the end of its task. -/
theorem plain_taskFailure (taskEnd : TaskEnd) : PlainReason (taskFailure taskEnd) := by
  cases taskEnd with
  | returned => exact plain_of_head (by decide)
  | cancelled => exact plain_of_head (by decide)
  | failed exceptionType isTimeout => exact plain_failed exceptionType

theorem plain_textOr {text : Option String} {other : String} (hother : PlainReason other)
    (htext : ∀ reason, text = some reason → PlainReason reason) :
    PlainReason (textOr text other) := by
  cases text with
  | none => exact hother
  | some reason =>
    rw [textOr]
    split
    · exact hother
    · exact htext reason rfl

/-- What a wait leaves: a gap is recorded where its failure is the text for it. -/
structure Waited (d : String) (p : Parties) (rec : HandoffRecord) (sentence : String)
    (result : Bool × Option String) (t : Fleet) : Prop where
  stage : ∃ gaps, Stage d p { rec with gaps := rec.gaps ++ gaps } true t ∧
    (result.2 = some sentence ↔ gaps ≠ [])
  ready : result.1 = true → result.2 = none

/-- A plain reason is none of the sentences that a rollback answers with a gap. -/
theorem Waited.of_plain {sentence : String} {result : Bool × Option String}
    (h : Stage d p rec true t) (hready : result.1 = true → result.2 = none)
    (hplain : result.2 ≠ some sentence) : Waited d p rec sentence result t :=
  ⟨⟨[], by simpa using h, by simp [hplain]⟩, hready⟩

/-- **The wait for a ready candidate** ends ready, or with a plain reason, or with the failed
active Collector's sentence. -/
theorem verifies_waitCandidate {r : DeployRequest} (h : Stage d p rec true s)
    (hfinal : ¬ rec.Final) (hstops : rec.stops = []) (polls : Nat) :
    Verifies d (Waited d p rec activeFailedBeforeReady) (waitCandidate d r polls) s := by
  induction polls generalizing s with
  | zero => exact .of_plain h (by rintro ⟨⟩) (by simp)
  | succ polls ih =>
    refine verifies_bind (verifies_read h fun t₁ h₁ _ => ?_)
    split
    · -- the active one has ended: a gap
      refine verifies_bind (verifies_recordGap h₁ hfinal (.of_stops_eq_nil hstops)
        fun t₂ h₂ _ => ?_)
      exact ⟨⟨_, h₂, by simp⟩, by rintro ⟨⟩⟩
    · refine verifies_bind (verifies_read h₁ fun t₂ h₂ _ => ?_)
      cases (t₁.collectors r.candidate).task.ended with
      | some taskEnd =>
        refine .of_plain h₂ (by rintro ⟨⟩) ?_
        simpa using (plain_taskFailure taskEnd).1
      | none =>
        refine verifies_bind (verifies_read h₂ fun t₃ h₃ _ => ?_)
        split
        · refine .of_plain h₃ (by rintro ⟨⟩) fun hfailure => ?_
          exact (h₂.inv.plain r.candidate _ hfailure).1 rfl
        · split
          · exact .of_plain h₃ (fun _ => rfl) (by simp)
          · exact verifies_bind (verifies_sleep h₃ fun t₄ h₄ _ => ih h₄)

/-- What the wait for the overlap leaves: where it saw one, both counts are behind their
baselines. -/
structure Overlapped (d : String) (r : DeployRequest) (rec : HandoffRecord)
    (activeBaseline candidateBaseline : Nat) (result : Bool × Option String) (t : Fleet) :
    Prop where
  waited : Waited d ⟨r.active, r.candidate⟩ rec activeFailedDuringOverlap result t
  active : result.1 = true → activeBaseline < (t.collectors r.active).readiness.eventCount
  candidate : result.1 = true → candidateBaseline < (t.collectors r.candidate).readiness.eventCount

/-- An overlap that is given up ends as the wait it is made of. -/
theorem Overlapped.of_waited {r : DeployRequest} {activeBaseline candidateBaseline : Nat}
    {failure : Option String} (h : Waited d ⟨r.active, r.candidate⟩ rec activeFailedDuringOverlap
      (false, failure) t) :
    Overlapped d r rec activeBaseline candidateBaseline (false, failure) t :=
  ⟨h, by rintro ⟨⟩, by rintro ⟨⟩⟩

/-- **The overlap** ends with both Collectors past their baselines, or as a wait that failed. -/
theorem verifies_waitOverlap {r : DeployRequest} (h : Stage d ⟨r.active, r.candidate⟩ rec true s)
    (hfinal : ¬ rec.Final) (hstops : rec.stops = [])
    (activeBaseline candidateBaseline polls : Nat) :
    Verifies d (Overlapped d r rec activeBaseline candidateBaseline)
      (waitOverlap d r activeBaseline candidateBaseline polls) s := by
  induction polls generalizing s with
  | zero => exact .of_waited (.of_plain h (by rintro ⟨⟩) (by simp))
  | succ polls ih =>
    refine verifies_bind (verifies_read h fun t₁ h₁ _ => ?_)
    split
    · refine verifies_bind (verifies_recordGap h₁ hfinal (.of_stops_eq_nil hstops)
        fun t₂ h₂ _ => ?_)
      exact .of_waited ⟨⟨_, h₂, by simp⟩, by rintro ⟨⟩⟩
    · refine verifies_bind (verifies_read h₁ fun t₂ h₂ _ => ?_)
      cases (t₁.collectors r.candidate).task.ended with
      | some taskEnd =>
        refine .of_waited (.of_plain h₂ (by rintro ⟨⟩) ?_)
        simpa using (plain_taskFailure taskEnd).2
      | none =>
        refine verifies_bind (verifies_read h₂ fun t₃ h₃ l₃ => ?_)
        refine verifies_bind (verifies_read h₃ fun t₄ h₄ l₄ => ?_)
        split
        · refine .of_waited (.of_plain h₄ (by rintro ⟨⟩) ?_)
          have hother : PlainReason "candidate lost readiness" := plain_of_head (by decide)
          exact fun heq => (plain_textOr hother (h₃.inv.plain r.candidate)).2 (Option.some.inj heq)
        · split
          · next hcounts =>
            -- the counts only grew since they were read
            refine ⟨.of_plain h₄ (fun _ => rfl) (by simp), fun _ => ?_, fun _ => ?_⟩
            · exact hcounts.1.trans_le ((l₃.trans l₄) r.active).events
            · exact hcounts.2.trans_le (l₄ r.candidate).events
          · exact verifies_bind (verifies_sleep h₄ fun t₅ h₅ _ => ih h₅)

/-! ## The ends of a handoff -/

/-- What a handoff that returned leaves. -/
structure Completed (d : String) (p : Parties) (result : DeploymentResult) (s : Fleet) : Prop where
  reserved : s.reserved.get? d = some p
  session : ∃ row, (s.record d).session = some row ∧ row.state = result.state ∧
    row.state.transitions = []
  outcome : (result.state = .cutoverComplete ∧ (s.record d).stops = [p.active] ∧
      result.promoted = some p.candidate ∧
      (result.oldStopped = true → (s.collectors p.active).task.ended ≠ none ∨
        result.error = some "old Collector exited with CancelledError")) ∨
    (result.state = .rolledBack ∧ (s.record d).stops = [p.candidate] ∧ result.promoted = none ∧
      (s.collectors p.candidate).task.ended ≠ none ∧
      (result.oldStopped = true → (s.collectors p.active).task.ended ≠ none))
  gaps : result.gapOpened = true ↔ (s.record d).gaps ≠ []

/-- A task that has ended stays ended. -/
theorem Later.ended {handle : Nat} (h : Later s t)
    (hend : (s.collectors handle).task.ended ≠ none) :
    (t.collectors handle).task.ended ≠ none := by
  obtain ⟨taskEnd, hsome⟩ := Option.ne_none_iff_exists'.mp hend
  simp [(h handle).ended taskEnd hsome]

/-- A deployment that can still move is in no final state. -/
theorem HandoffRecord.not_final {row : DeploymentSession} {state : DeploymentState}
    (hrow : rec.session = some row) (hstate : state ∈ row.state.transitions) : ¬ rec.Final := by
  rintro ⟨other, hother, hend⟩
  cases Option.some.inj (hrow.symm.trans hother)
  rw [hend] at hstate
  cases hstate

theorem mem_keys_of_mem {head : String} (h : head ∈ keyHeads) (d : String) : head ++ d ∈ keys d :=
  List.mem_map_of_mem h

/-- **A rollback ends in `ROLLED_BACK`**, with the candidate stopped and the active Collector as
it was. -/
theorem verifies_rollback {r : DeployRequest} {row : DeploymentSession}
    {activeSnapshot candidateSnapshot : ReadinessSnapshot} {error : String} {gapOpened : Bool}
    (h : Stage d ⟨r.active, r.candidate⟩ rec true s) (hrow : rec.session = some row)
    (hstate : .rolledBack ∈ row.state.transitions) (hne : r.active ≠ r.candidate)
    (hnew : ∀ event ∈ rec.history, event.idempotencyKey ≠ rollbackKey d)
    (hno : ∀ event ∈ rec.history, event.toState ≠ .overlapConfirmed) (hstops : rec.stops = [])
    (hgaps : gapOpened = true ↔ rec.gaps ≠ []) :
    Verifies d (Completed d ⟨r.active, r.candidate⟩)
      (rollback d r activeSnapshot candidateSnapshot error gapOpened) s := by
  have hsafe : ∀ history, (∀ event ∈ history, event.toState ≠ .overlapConfirmed) → ∀ session gaps,
      SafeRecord ⟨r.active, r.candidate⟩ ⟨session, history, [r.candidate], gaps⟩ := by
    intro history hhistory session gaps
    exact ⟨by simp, fun hmem => absurd (List.mem_singleton.mp hmem) hne,
      fun _ => ⟨hhistory, by simpa using hne⟩⟩
  refine verifies_bind (verifies_requestStop h (HandoffRecord.not_final hrow hstate) ?_
    fun t₁ h₁ _ => ?_)
  · rw [hstops]
    exact hsafe _ hno _ _
  refine verifies_bind (verifies_gather h₁ fun t₂ h₂ _ hend₂ => ?_)
  refine verifies_bind (verifies_setHandoffContext h₂ fun t₃ h₃ l₃ => ?_)
  refine verifies_bind (verifies_setHandoffContext h₃ fun t₄ h₄ l₄ => ?_)
  refine verifies_bind (verifies_read h₄ fun t₅ h₅ l₅ => ?_)
  refine verifies_bind (verifies_read h₅ fun t₆ h₆ l₆ => ?_)
  refine verifies_bind (verifies_transition h₆ hrow hstate (mem_keys_of_mem (by decide) d) hnew
    (fun now => ?_) fun now t₇ h₇ l₇ => ?_)
  · rw [HandoffRecord.moved, hstops]
    refine hsafe _ (fun event hevent => ?_) _ _
    rcases List.mem_append.mp hevent with hold | hlast
    · exact hno event hold
    · rw [List.mem_singleton.mp hlast, transitionEvent]
      simp
  refine verifies_bind (verifies_read h₇ fun t₈ h₈ l₈ => ?_)
  have hcandidate : (t₈.collectors r.candidate).task.ended ≠ none :=
    (l₃.trans (l₄.trans (l₅.trans (l₆.trans (l₇.trans l₈))))).ended hend₂
  refine ⟨h₈.reserved, ⟨_, by rw [h₈.record]; rfl, rfl, rfl⟩,
    .inr ⟨rfl, ?_, rfl, hcandidate, ?_⟩, ?_⟩
  · rw [h₈.record, HandoffRecord.moved, hstops]
    rfl
  · intro hold
    exact l₈.ended (Option.isSome_iff_ne_none.mp hold)
  · rw [h₈.record]
    exact hgaps

/-- **The end of a cutover**: the old Collector is stopped before the deployment completes. -/
theorem verifies_completeCutover {r : DeployRequest} {row : DeploymentSession}
    {activeSnapshot candidateSnapshot : ReadinessSnapshot} {oldStopped : Bool}
    {warning : Option String} (h : Stage d ⟨r.active, r.candidate⟩ rec true s)
    (hrow : rec.session = some row) (hstate : .cutoverComplete ∈ row.state.transitions)
    (hne : r.active ≠ r.candidate)
    (hnew : ∀ event ∈ rec.history, event.idempotencyKey ≠ cutoverCompleteKey d)
    (hproof : ∃ event ∈ rec.history, ProvesOverlap event) (hstops : rec.stops = [r.active])
    (hgaps : rec.gaps = [])
    (hold : oldStopped = true → (s.collectors r.active).task.ended ≠ none ∨
      warning = some "old Collector exited with CancelledError") :
    Verifies d (Completed d ⟨r.active, r.candidate⟩)
      (completeCutover d r activeSnapshot candidateSnapshot oldStopped warning) s := by
  have hsafe : ∀ history, (∃ event ∈ history, ProvesOverlap event) → ∀ session gaps,
      SafeRecord ⟨r.active, r.candidate⟩ ⟨session, history, [r.active], gaps⟩ := by
    intro history hhistory session gaps
    exact ⟨by simp, fun _ => ⟨hhistory, by simpa using Ne.symm hne⟩,
      fun hmem => absurd (List.mem_singleton.mp hmem) (Ne.symm hne)⟩
  -- behind the gap, whether there was one or not
  have hrest : ∀ (gaps : List String) (gapOpened : Bool) (current : ReadinessSnapshot) (t : Fleet),
      (gapOpened = true ↔ gaps ≠ []) → Later s t →
      Stage d ⟨r.active, r.candidate⟩ { rec with gaps := gaps } true t →
      Verifies d (Completed d ⟨r.active, r.candidate⟩) (do
        setHandoffContext r.candidate none
        let stopRequested ← stopIsSet r.active
        transaction fun now deployments =>
          deployments.transitionDeployment d .cutoverComplete (cutoverCompleteKey d)
            (.dict [("candidate_still_ready", .bool current.ready),
              ("old_stop_requested", .bool stopRequested), ("old_stopped", .bool oldStopped),
              ("unmarked_gap", .bool gapOpened), ("warning", warning.elim .null .str)])
            now warning
        let candidateEnd ← taskEnd r.candidate
        return {
          deploymentId := d
          state := .cutoverComplete
          reason := r.reason
          activeInstanceId := activeSnapshot.collectorInstanceId
          candidateInstanceId := candidateSnapshot.collectorInstanceId
          oldStopped := oldStopped
          candidateRunning := candidateEnd.isNone
          overlapIdentifiable := true
          gapOpened := gapOpened
          error := warning
          promoted := some r.candidate }) t := by
    intro gaps gapOpened current t hgap hlater ht
    refine verifies_bind (verifies_setHandoffContext ht fun t₁ h₁ l₁ => ?_)
    refine verifies_bind (verifies_read h₁ fun t₂ h₂ l₂ => ?_)
    refine verifies_bind (verifies_transition h₂ hrow hstate (mem_keys_of_mem (by decide) d) hnew
      (fun now => ?_) fun now t₃ h₃ l₃ => ?_)
    · rw [HandoffRecord.moved, hstops]
      obtain ⟨event, hevent, hproves⟩ := hproof
      exact hsafe _ ⟨event, List.mem_append_left _ hevent, hproves⟩ _ _
    refine verifies_bind (verifies_read h₃ fun t₄ h₄ l₄ => ?_)
    refine ⟨h₄.reserved, ⟨_, by rw [h₄.record]; rfl, rfl, rfl⟩,
      .inl ⟨rfl, ?_, rfl, fun hstopped => ?_⟩, ?_⟩
    · rw [h₄.record]
      exact hstops
    · exact (hold hstopped).imp_left
        (hlater.trans (l₁.trans (l₂.trans (l₃.trans l₄)))).ended
    · rw [h₄.record]
      exact hgap
  refine verifies_bind (verifies_read h fun t₁ h₁ l₁ => ?_)
  refine verifies_bind (verifies_read h₁ fun t₂ h₂ l₂ => ?_)
  dsimp only
  split
  · next hgap =>
    refine verifies_bind (verifies_recordGap h₂ (HandoffRecord.not_final hrow hstate) ?_
      fun t₃ h₃ l₃ => ?_)
    · rw [hstops]
      exact hsafe _ hproof _ _
    · exact hrest _ _ _ t₃ (by simp [hgap, hgaps]) (l₁.trans (l₂.trans l₃)) h₃
  · next hgap =>
    exact hrest [] _ _ t₂ (by simp [hgap]) (l₁.trans l₂) (hgaps ▸ h₂)

/-- The cutover stops the old Collector and then completes. -/
theorem verifies_cutover {r : DeployRequest} {row : DeploymentSession}
    {activeSnapshot candidateSnapshot : ReadinessSnapshot}
    (h : Stage d ⟨r.active, r.candidate⟩ rec true s) (hrow : rec.session = some row)
    (hstate : .cutoverComplete ∈ row.state.transitions) (hne : r.active ≠ r.candidate)
    (hnew : ∀ event ∈ rec.history, event.idempotencyKey ≠ cutoverCompleteKey d)
    (hproof : ∃ event ∈ rec.history, ProvesOverlap event) (hstops : rec.stops = [])
    (hgaps : rec.gaps = []) :
    Verifies d (Completed d ⟨r.active, r.candidate⟩)
      (cutover d r activeSnapshot candidateSnapshot) s := by
  refine verifies_bind (verifies_requestStop h (HandoffRecord.not_final hrow hstate) ?_
    fun t₁ h₁ _ => ?_)
  · rw [hstops]
    exact ⟨by simp, fun _ => ⟨hproof, by simpa using Ne.symm hne⟩,
      fun hmem => absurd (List.mem_singleton.mp hmem) (Ne.symm hne)⟩
  have hasked : rec.stops ++ [r.active] = [r.active] := by rw [hstops, List.nil_append]
  refine verifies_bind (verifies_awaitShutdown h₁ fun shutdown t₂ h₂ _ htells => ?_)
  cases shutdown with
  | returned =>
    exact verifies_completeCutover h₂ hrow hstate hne hnew hproof hasked hgaps fun _ => .inl htells
  | timedOut =>
    exact verifies_completeCutover h₂ hrow hstate hne hnew hproof hasked hgaps (by rintro ⟨⟩)
  | raised exceptionType =>
    refine verifies_completeCutover h₂ hrow hstate hne hnew hproof hasked hgaps fun _ => ?_
    exact htells.imp_right fun heq => by rw [heq]; decide

/-- A key of the handoff with another beginning. -/
theorem key_ne {a b : String} (ha : a ∈ keyHeads) (hb : b ∈ keyHeads) (hne : a ≠ b) (d : String) :
    a ++ d ≠ b ++ d := fun heq => hne (key_injective ha hb heq).1

/-- **A started deployment overlaps** and then cuts over or rolls back. -/
theorem verifies_overlap {r : DeployRequest} {activeSnapshot : ReadinessSnapshot}
    {identity : DeploymentIdentity} {evidence : Value} {now : Int}
    (h : Stage d ⟨r.active, r.candidate⟩ (startedRecord d identity evidence now) true s)
    (hne : r.active ≠ r.candidate) :
    Verifies d (Completed d ⟨r.active, r.candidate⟩) (overlap d r activeSnapshot) s := by
  refine verifies_bind (verifies_read h fun t₁ h₁ l₁ => ?_)
  refine verifies_bind (verifies_transition h₁ rfl (.head _) (mem_keys_of_mem (by decide) d) ?_
    (fun _ => .of_stops_eq_nil rfl) fun readyAt t₂ h₂ l₂ => ?_)
  · rintro event (_ | ⟨_, ⟨⟩⟩)
    exact key_ne (by decide) (by decide) (by decide) d
  refine verifies_bind (verifies_read h₂ fun t₃ h₃ l₃ => ?_)
  refine verifies_bind (verifies_mono (verifies_waitOverlap h₃
    (HandoffRecord.not_final rfl (List.Mem.head _)) rfl _ _ _) ?_)
  rintro ⟨overlapped, failure⟩ t₄ ⟨⟨⟨gaps, h₄, hgaps⟩, hready⟩, hactive, hcandidate⟩
  -- the two events that there are now
  have hevents : ∀ {Q : DeploymentEvent → Prop} {first second : DeploymentEvent}, Q first →
      Q second → ∀ event ∈ [first] ++ [second], Q event := by
    rintro Q first second hfirst hsecond event (_ | ⟨_, _ | ⟨_, ⟨⟩⟩⟩)
    · exact hfirst
    · exact hsecond
  cases overlapped with
  | false =>
    refine verifies_rollback h₄ rfl (.tail _ (.head _)) hne (hevents ?_ ?_) (hevents ?_ ?_) rfl ?_
    · exact key_ne (by decide) (by decide) (by decide) d
    · exact key_ne (by decide) (by decide) (by decide) d
    · rintro ⟨⟩
    · rintro ⟨⟩
    · exact decide_eq_true_iff.trans hgaps
  | true =>
    have hnone : gaps = [] := by
      by_contra hne
      have hfailure := hready rfl
      rw [hgaps.mpr hne] at hfailure
      cases hfailure
    subst hnone
    refine verifies_bind (verifies_read h₄ fun t₅ h₅ l₅ => ?_)
    refine verifies_bind (verifies_read h₅ fun t₆ h₆ l₆ => ?_)
    refine verifies_bind (verifies_transition h₆ rfl (.head _) (mem_keys_of_mem (by decide) d)
      (hevents ?_ ?_) (fun _ => .of_stops_eq_nil rfl) fun overlapAt t₇ h₇ l₇ => ?_)
    · exact key_ne (by decide) (by decide) (by decide) d
    · exact key_ne (by decide) (by decide) (by decide) d
    refine verifies_cutover h₇ rfl (.head _) hne ?_ ?_ rfl rfl
    · intro event hevent
      rcases List.mem_append.mp hevent with hold | hlast
      · refine hevents (Q := fun event => event.idempotencyKey ≠ cutoverCompleteKey d) ?_ ?_
          event hold
        · exact key_ne (by decide) (by decide) (by decide) d
        · exact key_ne (by decide) (by decide) (by decide) d
      · rw [List.mem_singleton.mp hlast]
        exact key_ne (by decide) (by decide) (by decide) d
    · refine ⟨_, List.mem_append_right _ (List.mem_singleton_self _), rfl, _, _, _, _, _, _, rfl,
        ?_, ?_⟩
      · exact hactive rfl
      · exact (hcandidate rfl).trans_le (l₅ r.candidate).events

/-- **The whole handoff.** -/
theorem verifies_deploy {r : DeployRequest} (h : Stage d ⟨r.active, r.candidate⟩ {} false s) :
    Verifies d (Completed d ⟨r.active, r.candidate⟩) (Handoff.deploy d r) s := by
  rw [Handoff.deploy]
  split
  · trivial
  · refine verifies_bind (verifies_read h fun t₁ h₁ l₁ => ?_)
    refine verifies_bind (verifies_read h₁ fun t₂ h₂ l₂ => ?_)
    refine verifies_bind (Interleaved.wp_ofExcept.mpr ⟨fun _ hvalid => ?_, fun _ _ => trivial⟩)
    have hne : r.active ≠ r.candidate := by
      intro heq
      have hinstance : (s.collectors r.active).readiness.snapshot.collectorInstanceId =
          (t₁.collectors r.candidate).readiness.snapshot.collectorInstanceId := by
        rw [← heq]
        exact (l₁ r.active).instanceId.symm
      rw [validateIdentity, if_pos hinstance] at hvalid
      split at hvalid <;> cases hvalid
    refine verifies_bind (verifies_read h₂ fun t₃ h₃ l₃ => ?_)
    split
    · trivial
    · refine verifies_bind (verifies_createDeployment h₃ fun now t₄ h₄ l₄ => ?_)
      refine verifies_bind (verifies_setHandoffContext h₄ fun t₅ h₅ l₅ => ?_)
      refine verifies_bind (verifies_setHandoffContext h₅ fun t₆ h₆ l₆ => ?_)
      refine verifies_bind (verifies_start h₆ fun t₇ h₇ l₇ => ?_)
      refine verifies_bind (verifies_mono (verifies_waitCandidate h₇
        (HandoffRecord.not_final rfl (List.Mem.head _)) rfl _) ?_)
      rintro ⟨ready, failure⟩ t₈ ⟨⟨gaps, h₈, hgaps⟩, hready⟩
      cases ready with
      | false =>
        refine verifies_rollback h₈ rfl (.tail _ (.head _)) hne ?_ ?_ rfl
          (decide_eq_true_iff.trans hgaps)
        · rintro event (_ | ⟨_, ⟨⟩⟩)
          exact key_ne (by decide) (by decide) (by decide) d
        · rintro event (_ | ⟨_, ⟨⟩⟩)
          rintro ⟨⟩
      | true =>
        have hnone : gaps = [] := by
          by_contra hne
          have hfailure := hready rfl
          rw [hgaps.mpr hne] at hfailure
          cases hfailure
        subst hnone
        exact verifies_overlap h₈ hne

end

/-! ## The system -/

/-- A failure is kept, or was reported just now. -/
theorem CollectorReadiness.failure_of_next {c : CollectorReadiness} {call : ReadinessCall}
    {reason : String} (h : (c.next call).failure = some reason) :
    c.failure = some reason ∨ call = .failed reason := by
  cases call with
  | connected stream =>
    refine .inl (Eq.trans ?_ h)
    show c.failure = (c.observeConnected stream).failure
    unfold CollectorReadiness.observeConnected
    split <;> rfl
  | disconnected stream =>
    refine .inl (Eq.trans ?_ h)
    show c.failure = (c.observeDisconnected stream).failure
    unfold CollectorReadiness.observeDisconnected
    split <;> rfl
  | persisted envelope =>
    refine .inl (Eq.trans ?_ h)
    rw [CollectorReadiness.next_persisted]
    split
    · rfl
    · split
      · split <;> rfl
      · rfl
  | snapshotPersisted envelope =>
    refine .inl (Eq.trans ?_ h)
    rw [CollectorReadiness.next_snapshotPersisted]
    split <;> rfl
  | invalidateDepth => exact .inl h
  | failed other =>
    rw [CollectorReadiness.next_failed] at h
    split at h
    · exact .inl h
    · exact .inr (by rw [Option.some.inj h])
  | restartBootstrap => cases h

/-- What a Collector observes is in every guarantee. -/
theorem wp_observe {name : CallName} {rely : Fleet → Fleet → Prop} {handle : Nat}
    {call : ReadinessCall} {s : Fleet}
    (hplain : ∀ reason, call = .failed reason → PlainReason reason) :
    Interleaved.wp rely (Guarantees name) (fun _ _ => True) (fun _ _ => True)
      (Handoff.observe handle call) s := by
  refine Interleaved.wp_call fun c => ⟨?_, fun _ _ => ⟨fun _ _ => trivial, fun _ _ => trivial⟩⟩
  refine guarantees_setCollector ⟨?_, ?_, fun _ h => h⟩ id (fun reason hreason => ?_)
    fun _ _ _ _ _ h => h
  · exact (CollectorReadiness.sameCollector_next _ call).instanceId
  · exact CollectorReadiness.eventCount_le_next _ call
  · exact (CollectorReadiness.failure_of_next hreason).imp_right (hplain reason)

/-- The end of a Collector's task is no step of a deployment. -/
theorem wp_finish {name : CallName} {rely : Fleet → Fleet → Prop} {handle : Nat} {taskEnd : TaskEnd}
    {s : Fleet} : Interleaved.wp rely (Guarantees name) (fun _ _ => True) (fun _ _ => True)
      (Handoff.finish handle taskEnd) s := by
  refine Interleaved.wp_call fun c => ⟨?_, fun _ _ => ⟨fun _ _ => trivial, fun _ _ => trivial⟩⟩
  dsimp only
  split
  · next hrunning =>
    refine guarantees_setCollector ⟨rfl, le_rfl, fun other hend => ?_⟩ id (fun _ h => .inl h)
      fun _ _ _ _ _ hn => ?_
    · rw [hrunning] at hend
      cases hend
    · rw [hrunning] at hn
      cases hn
  · exact guarantees_refl _ s

/-- What holds of what a call returned. -/
def Returned (name : CallName) (call : HandoffCall) (result : Option DeploymentResult) (s : Fleet) :
    Prop :=
  ∀ d r completed, name = .handoff d → call = .deploy r → result = some completed →
    Completed d ⟨r.active, r.candidate⟩ completed s

/-- A final record stays, whatever happens. -/
theorem Completed.steps {name : CallName} {d : String} {p : Parties} {result : DeploymentResult}
    {s t : Fleet} (h : Completed d p result s) (hsteps : Steps name s t) :
    Completed d p result t := by
  obtain ⟨row, hrow, hstate, hfinal⟩ := h.session
  have hrecord : t.record d = s.record d :=
    hsteps.records d (by simp [h.reserved]) (.inr ⟨row, hrow, hfinal⟩)
  refine ⟨hsteps.reserved d p h.reserved, hrecord ▸ h.session, ?_, hrecord ▸ h.gaps⟩
  rw [hrecord]
  rcases h.outcome with ⟨hcutover, hstops, hpromoted, hold⟩ |
    ⟨hrolled, hstops, hpromoted, hend, hold⟩
  · exact .inl ⟨hcutover, hstops, hpromoted, fun hs => (hold hs).imp_left hsteps.later.ended⟩
  · exact .inr ⟨hrolled, hstops, hpromoted, hsteps.later.ended hend,
      fun hs => hsteps.later.ended (hold hs)⟩

/-- An arrival is a new handoff or nothing. -/
theorem arrive_cases {name : CallName} {call : HandoffCall} {s t : Fleet}
    (h : call.arrive s name = some t) :
    (∃ d r, name = .handoff d ∧ call = .deploy r ∧ s.reserved.get? d = none ∧
      (∀ e q, s.reserved.get? e = some q → q.candidate ≠ r.candidate) ∧
      (s.collectors r.candidate).task = .notStarted ∧
      t = { s with reserved := s.reserved.insert d ⟨r.active, r.candidate⟩ }) ∨
    ((∃ number, name = .other number) ∧ t = s ∧
      ∀ handle reason, call = .observe handle (.failed reason) → PlainReason reason) := by
  unfold HandoffCall.arrive at h
  split at h
  · next d r =>
    split at h
    · next hfree =>
      obtain ⟨hnone, hall, hnotStarted⟩ := hfree
      refine .inl ⟨d, r, rfl, rfl, hnone, fun e q hq => ?_, hnotStarted, (Option.some.inj h).symm⟩
      have hitem := List.all_eq_true.mp hall (e, q) (SortedDict.get?_eq_some_iff.mp hq)
      simpa using hitem
    · cases h
  · split at h
    · next hplain =>
      refine .inr ⟨⟨_, rfl⟩, (Option.some.inj h).symm, ?_⟩
      rintro handle reason ⟨⟩
      exact hplain
    · cases h
  · next hfailed =>
    refine .inr ⟨⟨_, rfl⟩, (Option.some.inj h).symm, ?_⟩
    rintro handle reason ⟨⟩
    exact (hfailed reason rfl).elim
  · refine .inr ⟨⟨_, rfl⟩, (Option.some.inj h).symm, ?_⟩
    rintro handle reason ⟨⟩
  · cases h

/-- A fresh deployment may reserve its own candidate. -/
theorem reserve_inv {s : Fleet} {d : String} {p : Parties} (h : s.Inv)
    (hnone : s.reserved.get? d = none)
    (hcandidate : ∀ e q, s.reserved.get? e = some q → q.candidate ≠ p.candidate) :
    Fleet.Inv { s with reserved := s.reserved.insert d p } := by
  refine ⟨fun event hevent => ⟨(h.keyed event hevent).1, ?_⟩, fun e he => ?_, fun e q hq => ?_,
    fun e q f r hq hr heq => ?_, h.stopped, h.plain, h.gaps⟩
  · rw [SortedDict.get?_insert]
    split
    · simp
    · exact (h.keyed event hevent).2
  · rw [SortedDict.get?_insert] at he
    split at he
    · cases he
    · exact h.fresh e he
  · rw [SortedDict.get?_insert] at hq
    split at hq
    · next heq =>
      refine .of_stops_eq_nil ?_
      exact congrArg HandoffRecord.stops (h.fresh e (heq ▸ hnone))
    · exact h.safe e q hq
  · rw [SortedDict.get?_insert] at hq hr
    split at hq <;> split at hr
    · next he hf => rw [he, hf]
    · cases hq
      exact absurd heq.symm (hcandidate f r hr)
    · cases hr
      exact absurd heq (hcandidate e q hq)
    · exact h.candidates e q f r hq hr heq

theorem reserve_steps {s : Fleet} {d : String} {p : Parties} (name : CallName)
    (hnone : s.reserved.get? d = none) :
    Steps name s { s with reserved := s.reserved.insert d p } := by
  refine ⟨fun e q hq => ?_, fun _ _ _ => rfl, .refl s, fun _ _ _ _ h => h⟩
  rw [SortedDict.get?_insert, if_neg]
  · exact hq
  · rintro rfl
    rw [hnone] at hq
    cases hq

/-- A crash leaves the recorded deployments legal. -/
theorem crashed_inv {s : Fleet} (h : s.Inv) : s.crashed.Inv :=
  ⟨h.keyed, h.fresh, h.safe, h.candidates, h.stopped, h.plain, h.gaps⟩

theorem crashed_steps (name : CallName) (s : Fleet) : Steps name s s.crashed := by
  refine ⟨fun _ _ h => h, fun _ _ _ => rfl, fun handle => ⟨rfl, le_rfl, fun taskEnd hend => ?_⟩,
    fun d p _ _ hn => ?_⟩
  · show (if (s.collectors handle).task = .running then _ else (s.collectors handle).task :
      CollectorTask).ended = _
    split
    · next hrunning =>
      rw [hrunning] at hend
      cases hend
    · exact hend
  · show (if (s.collectors p.candidate).task = .running then _ else
      (s.collectors p.candidate).task) = _
    rw [if_neg (by rw [hn]; rintro ⟨⟩)]
    exact hn

/-- A call relies on what the others guarantee; what only observes relies on nothing. -/
def Relies : CallName → Fleet → Fleet → Prop
  | .handoff d => Rests d
  | .other _ => fun _ _ => True

/-- A call may rely on nothing having happened. -/
theorem relies_refl (name : CallName) (s : Fleet) : Relies name s s := by
  cases name with
  | handoff d => exact .refl d s
  | other number => trivial

/-- **What one call guarantees, every other call may rely on.** -/
theorem relies_of_guarantees {name other : CallName} {s t : Fleet} (hne : name ≠ other)
    (h : Guarantees name s t) : Relies other s t := by
  cases other with
  | handoff d => exact .of_guarantees hne h
  | other number => trivial

/-- The invariant holds before the first call. -/
theorem inv_initial {s : Fleet} (h : handoffCallers.initial s) : s.Inv := by
  obtain ⟨hdeployments, hreserved, hstops, hgaps, hcollectors⟩ := h
  have hrecord : ∀ d, s.record d = {} := fun d => by
    rw [Fleet.record, hdeployments, hstops, hgaps]
    rfl
  refine ⟨fun event hevent => ?_, fun d _ => hrecord d, fun d p hp => ?_, fun d p e q hp => ?_,
    fun handle hstop => ?_, fun handle reason hreason => ?_, fun gap hgap => ?_⟩
  · rw [hdeployments] at hevent
    cases hevent
  · rw [hrecord]
    exact .of_stops_eq_nil rfl
  · rw [hreserved] at hp
    cases hp
  · rw [(hcollectors handle).1] at hstop
    cases hstop
  · exact (hcollectors handle).2 reason hreason
  · rw [hgaps] at hgap
    cases hgap

/-- What is shown of the calls. -/
def handoffsVerified : handoffCallers.Verified where
  Inv := Fleet.Inv
  rely := Relies
  guarantee := Guarantees
  Post := Returned
  inv_initial _ := inv_initial
  rely_refl := relies_refl
  rely_trans name s t u h h' := by
    cases name with
    | handoff d => exact Rests.trans h h'
    | other number => trivial
  compatible i j s t hne h := relies_of_guarantees hne h
  inv_guarantee i s t h := h.2
  post_guarantee i s t h _ j call result hpost := fun d r completed hname hcall hresult =>
    (hpost d r completed hname hcall hresult).steps h.1
  arrives name call s t h hinv := by
    rcases arrive_cases h with ⟨d, r, rfl, rfl, hnone, hcandidate, -, rfl⟩ | ⟨⟨number, rfl⟩, rfl, -⟩
    · have hinv' := reserve_inv (p := ⟨r.active, r.candidate⟩) hinv hnone hcandidate
      refine ⟨hinv',
        fun other hne => relies_of_guarantees hne ⟨reserve_steps _ hnone, fun _ => hinv'⟩,
        fun other call' result hpost e r' completed hname hcall hresult => ?_⟩
      exact (hpost e r' completed hname hcall hresult).steps (reserve_steps (.other 0) hnone)
    · exact ⟨hinv, fun other _ => relies_refl other _, fun _ _ _ hpost => hpost⟩
  starts name call s t h hinv u hu := by
    rcases arrive_cases h with ⟨d, r, rfl, rfl, hnone, hcandidate, hnotStarted, rfl⟩ |
      ⟨⟨number, rfl⟩, rfl, hplain⟩
    · have hrecord : s.record d = {} := hinv.fresh d hnone
      have hstage : Stage d ⟨r.active, r.candidate⟩ {} false
          { s with reserved := s.reserved.insert d ⟨r.active, r.candidate⟩ } :=
        ⟨reserve_inv hinv hnone hcandidate, by simp, hrecord, fun _ => hnotStarted⟩
      refine verifies_bind (verifies_mono (verifies_deploy (hstage.rests hu)) ?_)
      rintro result v hcompleted d' r' completed ⟨⟩ ⟨⟩ ⟨⟩
      exact hcompleted
    · cases call with
      | deploy r =>
        rintro d r' completed ⟨⟩
      | observe handle call =>
        refine (Interleaved.wp_bind _ _).mpr (Interleaved.wp_mono
          (wp_observe fun reason heq => hplain handle reason (by rw [heq])) ?_ fun _ _ h => h)
        rintro _ _ - d r completed ⟨⟩
      | finish handle taskEnd =>
        refine (Interleaved.wp_bind _ _).mpr (Interleaved.wp_mono wp_finish ?_ fun _ _ h => h)
        rintro _ _ - d r completed ⟨⟩
  loses _ s t h hinv := by
    cases Option.some.inj h
    refine ⟨crashed_inv hinv, fun name call result hpost d r completed hname hcall hresult => ?_⟩
    exact (hpost d r completed hname hcall hresult).steps (crashed_steps (.other 0) s)

/--
**Handoffs are safe**, however they are interleaved. A stop is asked for by a handoff alone. One
that asked its active Collector has recorded its overlap, with both counts behind their baselines,
and asked no other one; one that asked its candidate has recorded none. What a handoff returns is
what the Catalog says: after a cutover the old one was asked to stop, after a rollback the candidate
was and has ended; and it reports a gap if and only if it recorded one.
-/
theorem handoffs_safe
    {allowed : Calls Fleet HandoffChoice String (Option DeploymentResult) CallName HandoffCall →
      CallEvent HandoffChoice CallName HandoffCall Unit → Prop}
    {s : Calls Fleet HandoffChoice String (Option DeploymentResult) CallName HandoffCall}
    (h : handoffCallers.system.Reachable allowed s) :
    (∀ handle, (s.shared.collectors handle).stop = true →
      ∃ deploymentId, (handle, deploymentId) ∈ s.shared.stops) ∧
    (∀ deploymentId parties, s.shared.reserved.get? deploymentId = some parties →
      SafeRecord parties (s.shared.record deploymentId)) ∧
    (∀ deploymentId r result,
      (.handoff deploymentId, .deploy r, some result) ∈ s.returned →
        Completed deploymentId ⟨r.active, r.candidate⟩ result s.shared) ∧
    ∀ gap ∈ s.shared.gaps, ∃ time row,
      s.shared.operational.get? (gapEventId gap.1 time) = some row ∧ row.eventType = gap.2 := by
  have hholds := handoffsVerified.sound h
  refine ⟨hholds.inv.stopped, hholds.inv.safe, fun d r result hmem => ?_, hholds.inv.gaps⟩
  exact hholds.returned _ hmem d r result rfl rfl rfl

/-! ## A rollback and a cutover -/

def readyReadiness (instanceId : String) : CollectorReadiness where
  market := .spot
  symbol := "BTCUSDT"
  instanceId := instanceId
  version := "v"
  connected := coreStreams
  persisted := coreStreams
  snapshotPersisted := true
  eventCount := 3
  lastReceiveTimeUtcNs := some 1
  failure := none
  bootstrapBufferCapacity := 2
  book := { DepthContinuity.initial .spot 2 with reliableUpdateId := some 7 }
  capacity_le := le_rfl

/-- A Collector that runs, one that never gets ready, and one that is ready at once. -/
def sampleFleet : Fleet where
  collectors handle :=
    if handle = 0 then { readiness := readyReadiness "i", task := .running }
    else if handle = 1 then { readiness := { readyReadiness "slow" with connected := ∅ } }
    else { readiness := readyReadiness "green" }

def impatientRequest : DeployRequest where
  active := 0
  candidate := 1
  readinessPolls := 0
  overlapPolls := 0

def rotationRequest : DeployRequest where
  active := 0
  candidate := 2
  reason := .connectionRotation
  readinessPolls := 1
  overlapPolls := 1

/-- Something else that happens between two actions of a handoff. -/
def meanwhile (number : Nat) (call : HandoffCall) :
    List (CallEvent HandoffChoice CallName HandoffCall Unit) :=
  [.arrive (.other number) call, .act (.other number) {}]

def actions (deploymentId : String) (count : Nat) :
    List (CallEvent HandoffChoice CallName HandoffCall Unit) :=
  List.replicate count (.act (.handoff deploymentId) { now := 5 })

theorem aggTrade_fits : 1 ≤ "agg_trade".length ∧ "agg_trade".length ≤ 256 := by decide

theorem blue_fits : 1 ≤ "i".length ∧ "i".length ≤ 256 := by decide

theorem green_fits : 1 ≤ "green".length ∧ "green".length ≤ 256 := by decide

/-- A trade that an instance persisted. -/
def tradeOf (instanceId : NonEmptyText) : ReadinessCall :=
  .persisted { sampleDepthEnvelope ⟨"agg_trade", aggTrade_fits⟩ .empty .null with
    collectorInstanceId := instanceId }

/-- A candidate is not ready in time, is asked to stop, and its task ends. Another one overlaps with
the active Collector, which is asked to stop and ends; then the new one loses a stream. -/
def handoffEvents : List (CallEvent HandoffChoice CallName HandoffCall Unit) :=
  [.arrive (.handoff "d") (.deploy impatientRequest)] ++ actions "d" 8 ++
    meanwhile 0 (.finish 1 .returned) ++ actions "d" 8 ++
  [.arrive (.handoff "e") (.deploy rotationRequest)] ++ actions "e" 13 ++
    meanwhile 1 (.observe 0 (tradeOf ⟨"i", blue_fits⟩)) ++
    meanwhile 2 (.observe 2 (tradeOf ⟨"green", green_fits⟩)) ++ actions "e" 8 ++
    meanwhile 3 (.finish 0 .returned) ++ actions "e" 1 ++
    meanwhile 4 (.observe 2 (.disconnected "book_ticker")) ++ actions "e" 8

def quietCalls : Calls Fleet HandoffChoice String (Option DeploymentResult) CallName HandoffCall :=
  ⟨sampleFleet, fun _ => none, []⟩

/-- The run below begins with nothing deployed. -/
theorem quietCalls_initial : handoffCallers.system.initial quietCalls := by
  refine ⟨⟨rfl, rfl, rfl, rfl, fun handle => ?_⟩, fun _ => rfl, rfl⟩
  show (if handle = 0 then _ else if handle = 1 then _ else _ : Collector).stop = false ∧
    ∀ reason ∈ (if handle = 0 then _ else if handle =
      1 then _ else _ : Collector).readiness.failure,
      PlainReason reason
  split_ifs
  · exact ⟨rfl, by rintro reason ⟨⟩⟩
  · exact ⟨rfl, by rintro reason ⟨⟩⟩
  · exact ⟨rfl, by rintro reason ⟨⟩⟩


set_option maxRecDepth 8000 in
/-- Two deployments at once: one cuts over with a gap, the other gives up and rolls back. -/
theorem perform_handoffEvents : ∃ s cutover rollback,
    handoffCallers.system.perform quietCalls handoffEvents = some s ∧
      s.returned = [(.handoff "e", .deploy rotationRequest, some cutover),
        (.handoff "d", .deploy impatientRequest, some rollback)] ∧
      cutover.state = .cutoverComplete ∧ cutover.gapOpened = true ∧
      rollback.state = .rolledBack := by
  exact ⟨_, _, _, rfl, rfl, rfl, rfl, rfl⟩

theorem handoffs_safe_sample : ∃ s cutover rollback,
    handoffCallers.system.perform quietCalls handoffEvents = some s ∧
      cutover.state = .cutoverComplete ∧ cutover.gapOpened = true ∧
      Completed "e" ⟨0, 2⟩ cutover s.shared ∧
      rollback.state = .rolledBack ∧ Completed "d" ⟨0, 1⟩ rollback s.shared := by
  obtain ⟨s, cutover, rollback, hperform, hreturned, hcutover, hgap, hrollback⟩ :=
    perform_handoffEvents
  have hreachable : handoffCallers.system.Reachable (fun _ _ => True) s :=
    ⟨quietCalls, quietCalls_initial, TransitionSystem.run_of_perform hperform⟩
  have hcompleted := (handoffs_safe hreachable).2.2.1
  exact ⟨s, cutover, rollback, hperform, hcutover, hgap,
    hcompleted "e" rotationRequest cutover (by simp [hreturned]), hrollback,
    hcompleted "d" impatientRequest rollback (by simp [hreturned])⟩

end MarketDataRecorder
