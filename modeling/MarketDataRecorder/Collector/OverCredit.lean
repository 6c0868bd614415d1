import MarketDataRecorder.Collector.CaptureFlush
import MarketDataRecorder.Collector.NamedGaps

/-!
# What a crash leaves credited

An entry that is still in memory at a crash opens a gap, or names one that is open in the catalog.
Where what it says is dated after all that the catalog credits, nothing is credited that
the full history does not credit.

* `creditedRows_persistAll` — entries that are dated after an instant leave it credited
* `captureSound_step` — a step of a capture keeps its queue sound
* `neverOverCredits_of_datedAfter` — no crash over-credits when what is in memory is dated
  after what is credited
-/

namespace MarketDataRecorder

variable {n : Nat} {gaps : SortedDict Nat AvailabilityGap}
  {durable : SortedDict String SourceTables} {skip : Nat} {journal : AvailabilityJournal}

/-! ## What entries leave credited -/

/-- A row that is written again begins where it did. -/
theorem eligible_writeEntry {rows : SourceTables} {entry : JournalEntry} {t : Nat}
    (hended : entry.intervalEnded = entry.state.intervalEnded)
    (hdated : t < entry.state.observedAt)
    (h : ∃ id row, rows.lifecycle.get? id = some row ∧ row.Eligible t) :
    ∃ id row, (writeEntry (some rows) entry).lifecycle.get? id = some row ∧ row.Eligible t := by
  obtain ⟨id, row, hrow, hstarted, hnotEnded⟩ := h
  have hget : (writeEntry (some rows) entry).lifecycle.get? id =
      if id = entry.intervalId then some ⟨((rows.lifecycle.get? entry.intervalId).map
        AvailabilityRow.started).getD entry.intervalStarted, entry.intervalEnded, ()⟩
      else rows.lifecycle.get? id := get?_upsertRow _ _ _ _ _ _
  by_cases hid : id = entry.intervalId
  · rw [if_pos hid, ← hid, hrow] at hget
    refine ⟨id, _, hget, hstarted, fun ended hends => Or.inr ?_⟩
    rw [hended, AvailabilityState.intervalEnded] at hends
    split at hends
    · cases hends
      exact hdated
    · cases hends
  · rw [if_neg hid] at hget
    exact ⟨id, row, hget.trans hrow, hstarted, hnotEnded⟩

/-- An entry that names an open gap, or opens one after an instant, gives no gap to the instant. -/
theorem not_covers_upsertGap {change : Option GapChange} {t : Nat}
    (hnames : NotClosed n gaps (change.map GapChange.gapId))
    (hdated : ∀ gap, change = some gap → gaps.get? gap.gapId = none → t < gap.started)
    (h : ∀ id row, gaps.get? id = some row → ¬ row.Covers t) :
    ∀ id row, (upsertGap gaps change).get? id = some row → ¬ row.Covers t := by
  intro id row hrow
  cases change with
  | none => exact h id row hrow
  | some gap =>
    rw [upsertGap, get?_upsertRow] at hrow
    split at hrow
    · rintro ⟨hstarted, -⟩
      obtain rfl := Option.some.inj hrow
      rcases hold : gaps.get? gap.gapId with - | row
      · have hlt := hdated gap rfl hold
        rw [hold] at hstarted
        exact absurd hstarted (not_le.mpr hlt)
      · -- the row was open and did not cover the instant, so it begins after it
        have hopen := (hnames gap.gapId rfl).2 row hold
        rw [hold] at hstarted
        refine h gap.gapId row hold ⟨hstarted, fun ended hended => ?_⟩
        rw [hopen] at hended
        cases hended
    · exact h id row hrow

/-- What the rows of a source credit, apart from the last observation. -/
structure CreditedRows (rows : SourceTables) (t : Nat) : Prop where
  eligible : ∃ id row, rows.lifecycle.get? id = some row ∧ row.Eligible t
  noGap : ∀ id row, rows.gaps.get? id = some row → ¬ row.Covers t

/-- An entry that is dated after an instant, and so is the gap that it opens. -/
def DatedAfter (gaps : SortedDict Nat AvailabilityGap) (t : Nat) (entry : JournalEntry) : Prop :=
  t < entry.state.observedAt ∧
    ∀ gap, entry.gap = some gap → gaps.get? gap.gapId = none → t < gap.started

/-- **Entries that are dated after an instant leave it credited.** -/
theorem creditedRows_persistAll {t : Nat} : ∀ (entries : List JournalEntry) (rows : SourceTables),
    NamesOpen n rows.gaps entries →
    (∀ entry ∈ entries, entry.intervalEnded = entry.state.intervalEnded) →
    (∀ entry ∈ entries, DatedAfter rows.gaps t entry) → CreditedRows rows t →
      ∃ rows', persistAll (some rows) entries = some rows' ∧ CreditedRows rows' t ∧
        (entries = [] → rows' = rows) ∧ (entries ≠ [] → t < rows'.state.observedAt)
  | [], rows, _, _, _, h => ⟨rows, rfl, h, fun _ => rfl, fun hne => absurd rfl hne⟩
  | entry :: entries, rows, ⟨hgap, _, hlater⟩, hended, hdated, h => by
    obtain ⟨hobserved, hopens⟩ := hdated entry List.mem_cons_self
    have hwritten : CreditedRows (writeEntry (some rows) entry) t :=
      ⟨eligible_writeEntry (hended entry List.mem_cons_self) hobserved h.eligible,
        not_covers_upsertGap hgap hopens h.noGap⟩
    have hlaterDated : ∀ other ∈ entries,
        DatedAfter (writeEntry (some rows) entry).gaps t other := by
      intro other hother
      obtain ⟨hafter, hstarts⟩ := hdated other (List.mem_cons_of_mem _ hother)
      exact ⟨hafter, fun gap hgap hnone => hstarts gap hgap (get?_upsertGap_eq_none hnone)⟩
    obtain ⟨rows', hrows', hcredited, hnil, hcons⟩ := creditedRows_persistAll entries
      (writeEntry (some rows) entry) hlater
      (fun other hother => hended other (List.mem_cons_of_mem _ hother)) hlaterDated hwritten
    refine ⟨rows', hrows', hcredited, by simp, fun _ => ?_⟩
    by_cases hlast : entries = []
    · rw [hnil hlast]
      exact hobserved
    · exact hcons hlast
/-! ## Flushes -/

/-- What is written of a batch: checkpoints can be left out. -/
theorem entriesOf_toPersist (transitionsOnly : Bool) (key : String) (batch : List JournalEntry) :
    entriesOf key (AvailabilityCapture.toPersist transitionsOnly batch) =
      (entriesOf key batch).filter fun entry => !transitionsOnly || entry.isTransition := by
  cases transitionsOnly with
  | false =>
    rw [AvailabilityCapture.toPersist, if_neg Bool.false_ne_true]
    exact (List.filter_eq_self.mpr fun _ _ => rfl).symm
  | true =>
    rw [AvailabilityCapture.toPersist, if_pos rfl, entriesOf, entriesOf, List.filter_filter,
      List.filter_filter]
    refine List.filter_congr fun entry _ => ?_
    simp [Bool.and_comm]

/-- What is left out names no gap. -/
theorem QueueSound.leavesOut (h : QueueSound durable skip journal) (transitionsOnly : Bool)
    (key : String) {batch : List JournalEntry} (hbatch : ∀ entry ∈ batch, entry ∈ journal.pending) :
    ∀ entry ∈ entriesOf key batch, (!transitionsOnly || entry.isTransition) = false →
      entry.gap = none := by
  intro entry hentry hout
  rw [Bool.or_eq_false_iff] at hout
  exact h.noGap entry (hbatch entry (List.mem_of_mem_filter hentry)) hout.2

/-- **A batch is committed**: its entries are in the durable state then. -/
theorem QueueSound.commit {catalog : AvailabilityCatalog}
    (h : QueueSound catalog.sources 0 journal) (transitionsOnly : Bool) (count : Nat)
    (hcount : count ≤ journal.pending.length) (watermark : Option (Nat × Nat)) :
    QueueSound (catalog.persist (AvailabilityCapture.toPersist transitionsOnly
      (journal.pending.take count)) watermark).sources count journal where
  within := hcount
  numbered := h.numbered
  ended := h.ended
  noGap := h.noGap
  checkpoints := h.checkpoints
  given := h.given
  ofKey := h.ofKey
  gaps key := by
    have hkey := h.gaps key
    have hsplit : journal.queued 0 key =
        entriesOf key (journal.pending.take count) ++ journal.queued count key := by
      rw [AvailabilityJournal.queued, AvailabilityJournal.queued, ← entriesOf_append,
        List.take_append_drop, List.drop_zero]
    have hout := h.leavesOut transitionsOnly key
      (fun entry (hentry : entry ∈ journal.pending.take count) => List.mem_of_mem_take hentry)
    rw [hsplit] at hkey
    obtain ⟨hfirst, hlater⟩ := (namesOpen_append _ _ _).mp hkey.names
    rw [get?_persist, entriesOf_toPersist]
    have hgaps : gapsOf (persistAll (catalog.sources.get? key)
        ((entriesOf key (journal.pending.take count)).filter
          fun entry => !transitionsOnly || entry.isTransition)) =
        gapsAfter (gapsOf (catalog.sources.get? key))
          (entriesOf key (journal.pending.take count)) := by
      rw [gapsOf_persistAll, gapsAfter_filter _ _ _ hout]
    constructor
    · rw [hgaps]
      exact hlater
    · intro id hid
      have hfresh := hkey.fresh id hid
      rw [gapsAfter_append] at hfresh
      rw [hgaps]
      exact hfresh
    · exact stateOpen_persistAll _ _ (hfirst.filter _ hout) hkey.durable
    · intro b hb
      have hknown := hkey.known b hb
      rw [gapsAfter_append] at hknown
      rw [hgaps]
      exact hknown
    · intro hnone
      obtain ⟨hnil, hold⟩ := hkey.unknown hnone
      obtain ⟨hnil, hlast⟩ := List.append_eq_nil_iff.mp hnil
      rw [hnil]
      exact ⟨hlast, hold⟩

namespace AvailabilityCapture

/-- The queue over the catalog, which has a committed batch of it. -/
structure CaptureSound (s : AvailabilityCapture) : Prop where
  queue : QueueSound s.catalog.sources s.committedCount s.journal
  handed : ∀ flush handover, s.flush = some flush → flush.handover = some handover →
    ∃ durable, QueueSound durable handover.count s.journal

variable {s s' : AvailabilityCapture}

theorem captureSound_create (capacity : Nat) : (create capacity).CaptureSound where
  queue := {
    within := le_rfl
    numbered := by rintro entry ⟨⟩
    ended := by rintro entry ⟨⟩
    noGap := by rintro entry ⟨⟩
    checkpoints := by rintro key number hget entry ⟨⟩
    given := by rintro key number ⟨⟩
    ofKey := by rintro key a ⟨⟩
    gaps := by
      intro key
      refine ⟨trivial, fun id _ => rfl, ?_, ?_, fun _ => ⟨rfl, ?_⟩⟩
      · rintro rows ⟨⟩
      · rintro b ⟨⟩
      · rintro state ⟨⟩ }
  handed := by rintro flush handover ⟨⟩

/-- The next process names the gaps that the catalog has open. -/
theorem captureSound_restart (h : s.CaptureSound) (hstep : s.step .restart = some s') :
    s'.CaptureSound := by
  obtain rfl := Option.some.inj hstep
  refine ⟨?_, by rintro flush handover ⟨⟩⟩
  refine {
    within := le_rfl
    numbered := by rintro entry ⟨⟩
    ended := by rintro entry ⟨⟩
    noGap := by rintro entry ⟨⟩
    checkpoints := by rintro key number hget entry ⟨⟩
    given := by rintro key number ⟨⟩
    ofKey := by rintro key a ⟨⟩
    gaps := fun key => ?_ }
  have hkey := h.queue.gaps key
  refine ⟨trivial, fun id hid => get?_gapsAfter_eq_none _ _ (hkey.fresh id hid), hkey.durable,
    by rintro b ⟨⟩, fun _ => ⟨rfl, ?_⟩⟩
  intro state hstate
  change s.catalog.sourceAvailability.get? key = some state at hstate
  rw [AvailabilityCatalog.sourceAvailability, SortedDict.get?_mapValues] at hstate
  obtain ⟨rows, hrows, rfl⟩ := Option.map_eq_some_iff.mp hstate
  show NotClosed _ (gapsOf (s.catalog.sources.get? key)) rows.state.gapId
  rw [hrows]
  exact hkey.durable rows hrows

/-- A flush without a batch in hand, which none was committed of. -/
theorem CaptureSound.withFlush (h : s.CaptureSound) (hcount : s.committedCount = 0)
    {flush : Option FlushRun} (hidle : ∀ run, flush = some run → run.handover = none) :
    CaptureSound { s with flush := flush } where
  queue := by
    have hqueue := h.queue
    have hnone : committedCount { s with flush := flush } = 0 := by
      rcases flush with - | ⟨allPending, watermark, handover⟩
      · rfl
      · obtain rfl : handover = none := hidle _ rfl
        rfl
    rw [hcount] at hqueue
    rw [hnone]
    exact hqueue
  handed run handover hrun hhandover := by
    rw [hidle run hrun] at hhandover
    cases hhandover

/-- **A step keeps the queue sound.** The steps of a flush are told apart by what it has in hand. -/
theorem captureSound_step (h : s.CaptureSound) (action : Action)
    (hstep : s.step action = some s') : s'.CaptureSound := by
  cases action with
  | journal op =>
    obtain rfl := Option.some.inj hstep
    refine ⟨h.queue.after op, fun flush handover hflush hhandover => ?_⟩
    obtain ⟨durable, hsound⟩ := h.handed flush handover hflush hhandover
    exact ⟨durable, hsound.after op⟩
  | observed now =>
    obtain rfl := Option.some.inj hstep
    exact ⟨h.queue, h.handed⟩
  | startFlush allPending =>
    rcases hflush : s.flush with - | flush
    · simp only [step, hflush] at hstep
      obtain rfl := Option.some.inj hstep
      refine h.withFlush (by rw [committedCount, hflush]) ?_
      rintro run ⟨⟩
      rfl
    · simp [step, hflush] at hstep
  | handOver =>
    rcases hflush : s.flush with - | ⟨allPending, watermark, - | handover⟩
    · simp [step, hflush] at hstep
    · simp only [step, hflush] at hstep
      split at hstep
      · cases hstep
      · obtain rfl := Option.some.inj hstep
        have hqueue := h.queue
        have hnone : s.committedCount = 0 := by rw [committedCount, hflush]
        rw [hnone] at hqueue
        refine ⟨hqueue, ?_⟩
        -- no batch is longer than the queue
        rintro flush handover ⟨⟩ ⟨⟩
        exact ⟨_, hqueue.commit false _ (min_le_right _ _) none⟩
    · simp [step, hflush] at hstep
  | commit =>
    rcases hflush : s.flush with - | ⟨allPending, watermark, - | handover⟩
    · simp [step, hflush] at hstep
    · simp [step, hflush] at hstep
    · simp only [step, hflush] at hstep
      split at hstep
      · cases hstep
      · next hopen =>
        obtain rfl := Option.some.inj hstep
        have hqueue := h.queue
        have hnone : s.committedCount = 0 := by simp [committedCount, hflush, hopen]
        rw [hnone] at hqueue
        obtain ⟨durable, hsound⟩ := h.handed _ handover hflush rfl
        refine ⟨hqueue.commit handover.transitionsOnly _ hsound.within handover.watermark, ?_⟩
        rintro flush handover ⟨⟩ ⟨⟩
        exact ⟨durable, hsound⟩
  | fail =>
    rcases hflush : s.flush with - | ⟨allPending, watermark, - | handover⟩
    · simp [step, hflush] at hstep
    · simp [step, hflush] at hstep
    · simp only [step, hflush] at hstep
      split at hstep
      · cases hstep
      · next hopen =>
        obtain rfl := Option.some.inj hstep
        refine h.withFlush (by simp [committedCount, hflush, hopen]) ?_
        rintro run ⟨⟩
  | acknowledge =>
    rcases hflush : s.flush with - | ⟨allPending, watermark, - | handover⟩
    · simp [step, hflush] at hstep
    · simp [step, hflush] at hstep
    · simp only [step, hflush] at hstep
      split at hstep
      · next hcommitted =>
        obtain rfl := Option.some.inj hstep
        have hqueue := h.queue
        have hcount : s.committedCount = handover.count := by
          simp [committedCount, hflush, hcommitted]
        rw [hcount] at hqueue
        have hafter := hqueue.acknowledge
        by_cases hzero : handover.count = 0
        · simp only [hzero, if_true]
          rw [hzero] at hafter
          exact ⟨hafter, by rintro flush handover ⟨⟩⟩
        · simp only [hzero, if_false]
          exact ⟨hafter, by rintro flush handover ⟨⟩ ⟨⟩⟩
      · cases hstep
  | endFlush =>
    rcases hflush : s.flush with - | ⟨allPending, watermark, - | handover⟩
    · simp [step, hflush] at hstep
    · simp only [step, hflush] at hstep
      split at hstep
      · obtain rfl := Option.some.inj hstep
        refine h.withFlush (by rw [committedCount, hflush]) ?_
        rintro run ⟨⟩
      · cases hstep
    · simp [step, hflush] at hstep
  | restart => exact captureSound_restart h hstep

/-- The entries that are still to be written name gaps that are open. -/
theorem CaptureSound.unwritten (h : s.CaptureSound) (key : String) :
    NamesOpen s.journal.nextId (gapsOf (s.catalog.sources.get? key))
      (entriesOf key s.unwritten) ∧ ∀ entry ∈ s.unwritten, entry ∈ s.journal.pending := by
  have hkey := (h.queue.gaps key).names
  have hmem : ∀ (flag : Bool) (batch : List JournalEntry), ∀ entry ∈ toPersist flag batch,
      entry ∈ batch := by
    intro flag batch entry hentry
    cases flag with
    | false => exact hentry
    | true => exact List.mem_of_mem_filter hentry
  have hlater : ∀ count, s.committedCount = count →
      NamesOpen s.journal.nextId (gapsOf (s.catalog.sources.get? key)) (entriesOf key
        (toPersist s.pendingWatermark.isSome (s.journal.pending.drop count))) := by
    rintro _ rfl
    rw [entriesOf_toPersist]
    exact hkey.filter _ (h.queue.leavesOut _ key fun entry => List.mem_of_mem_drop)
  have hall : s.committedCount = 0 →
      NamesOpen s.journal.nextId (gapsOf (s.catalog.sources.get? key)) (entriesOf key
        (toPersist s.pendingWatermark.isSome s.journal.pending)) := by
    intro hzero
    have hdrop := hlater 0 hzero
    rwa [List.drop_zero] at hdrop
  rcases hflush : s.flush with - | ⟨allPending, watermark, - | handover⟩
  · simp only [AvailabilityCapture.unwritten, hflush]
    exact ⟨hall (by rw [committedCount, hflush]), hmem _ _⟩
  · simp only [AvailabilityCapture.unwritten, hflush]
    exact ⟨hall (by rw [committedCount, hflush]), hmem _ _⟩
  · simp only [AvailabilityCapture.unwritten, hflush]
    by_cases hcommitted : handover.committed = true
    · rw [if_pos hcommitted]
      refine ⟨hlater _ ?_, fun entry hentry => List.mem_of_mem_drop (hmem _ _ entry hentry)⟩
      rw [committedCount, hflush]
      exact if_pos hcommitted
    · rw [if_neg hcommitted]
      have hzero : s.committedCount = 0 := by
        rw [committedCount, hflush]
        exact if_neg hcommitted
      -- the batch in hand comes first, and what is left out of it names no gap
      have hsplit : s.journal.queued 0 key =
          entriesOf key (s.journal.pending.take handover.count) ++
            entriesOf key (s.journal.pending.drop handover.count) := by
        rw [AvailabilityJournal.queued, ← entriesOf_append, List.take_append_drop, List.drop_zero]
      rw [hzero, hsplit] at hkey
      obtain ⟨hfirst, hrest⟩ := (namesOpen_append _ _ _).mp hkey
      have hout := h.queue.leavesOut handover.transitionsOnly key
        (fun entry (hentry : entry ∈ s.journal.pending.take handover.count) =>
          List.mem_of_mem_take hentry)
      refine ⟨?_, fun entry hentry => ?_⟩
      · rw [entriesOf_append, namesOpen_append, entriesOf_toPersist, entriesOf_toPersist,
          gapsAfter_filter _ _ _ hout]
        exact ⟨hfirst.filter _ hout, hrest.filter _ (h.queue.leavesOut _ key
          fun entry => List.mem_of_mem_drop)⟩
      · rcases List.mem_append.mp hentry with hentry | hentry
        · exact List.mem_of_mem_take (hmem _ _ entry hentry)
        · exact List.mem_of_mem_drop (hmem _ _ entry hentry)

theorem captureSound_of_reachable (h : system.Reachable (fun _ _ => True) s) : s.CaptureSound := by
  refine h.invariant ?_ fun s action t hs _ hstep => captureSound_step hs action hstep
  rintro s ⟨capacity, rfl⟩
  exact captureSound_create capacity

theorem observedAt_le_observedThrough (watermarks : SortedDict Nat Nat)
    (state : AvailabilityState) : state.observedAt ≤ observedThrough watermarks state := by
  unfold observedThrough
  split
  · split
    · exact le_max_left _ _
    · exact le_rfl
  · exact le_rfl

/-- A source of which nothing is left to write is observed as long in the full history. -/
theorem observed_fullHistory {rows : SourceTables} {t : Nat}
    (hobserved : t < observedThrough s.catalog.watermarks rows.state)
    (hwatermark : ∀ now, s.pendingWatermark = some now →
      rows.state.selectionId = s.journal.selectionId → t < max rows.state.observedAt now) :
    t < observedThrough s.fullHistory.watermarks rows.state := by
  rcases hpending : s.pendingWatermark with - | now
  · have hsame : s.fullHistory.watermarks = s.catalog.watermarks := by
      rw [fullHistory, hpending]
      rfl
    rw [hsame]
    exact hobserved
  · have hget : s.fullHistory.watermarks.get? rows.state.selectionId =
        if rows.state.selectionId = s.journal.selectionId then some now
        else s.catalog.watermarks.get? rows.state.selectionId := by
      rw [fullHistory, hpending]
      exact SortedDict.get?_insert _ _ _ _
    rw [observedThrough, hget]
    rw [observedThrough] at hobserved
    by_cases hhealthy : rows.state.unavailableSince = none ∧ rows.state.dormant = false
    · rw [if_pos hhealthy] at hobserved ⊢
      by_cases hselection : rows.state.selectionId = s.journal.selectionId
      · rw [if_pos hselection]
        exact hwatermark now hpending hselection
      · rw [if_neg hselection]
        exact hobserved
    · rw [if_neg hhealthy] at hobserved ⊢
      exact hobserved

/-- It is enough that everything is dated after the last observation that the catalog has. -/
theorem datedAfterCredit_of_observed (h : ∀ key rows, s.catalog.sources.get? key = some rows →
    (∀ entry ∈ entriesOf key s.unwritten,
      observedThrough s.catalog.watermarks rows.state ≤ entry.state.observedAt ∧
        ∀ gap ∈ entry.gap, observedThrough s.catalog.watermarks rows.state ≤ gap.started) ∧
      ∀ now ∈ s.pendingWatermark, observedThrough s.catalog.watermarks rows.state ≤
        max rows.state.observedAt now) : s.DatedAfterCredit := by
  constructor
  · intro first last sourceId t hcredits entry hentry
    obtain ⟨-, rows, hrows, hcredited⟩ := (credits_iff _ _ _ _ _).mp hcredits
    obtain ⟨hobserved, hstarted⟩ := (h sourceId rows hrows).1 entry hentry
    have hlt := hcredited.observed
    refine ⟨by omega, fun gap hgap _ => ?_⟩
    have hle := hstarted gap hgap
    omega
  · intro first last sourceId t hcredits _ now hnow rows hrows _
    obtain ⟨-, rows', hrows', hcredited⟩ := (credits_iff _ _ _ _ _).mp hcredits
    obtain rfl := Option.some.inj (hrows.symm.trans hrows')
    exact hcredited.observed.trans_le ((h sourceId rows hrows).2 now hnow)

/-! ## Crashes -/

/-- `_observe_availability` of a source that is healthy. -/
def healthyPass (now : Nat) : List Action :=
  [.journal (.ensure "k" now), .journal (.resume "k" now), .journal (.valid "k" now false),
    .observed now]

/-- `_observe_availability` of a source whose writer has stalled since a boundary. -/
def stalledPass (now boundary : Nat) : List Action :=
  [.journal (.ensure "k" now), .journal (.resume "k" now),
    .journal (.unavailable "k" now "WRITER_STALLED" (some boundary)), .observed now]

/-- A flush that writes all of the queue. -/
def wholeFlush : List Action := [.startFlush false, .handOver, .commit, .acknowledge, .endFlush]

/-- A process that is flushed after its first two passes. -/
def flushedStart (now : Nat) : List Action :=
  healthyPass now ++ healthyPass (now + 5000000000) ++ wholeFlush ++
    healthyPass (now + 10000000000)

/-- The second process of a capture ends while its flush has a stall in hand that began after
the committed watermark. -/
def stallAfterWatermark : List Action :=
  flushedStart 50000000000 ++ [.restart] ++ flushedStart 70000000000 ++
    stalledPass 88000000000 77000000000 ++ [.startFlush false, .handOver]

/-- A stall is found ten seconds after it began, and the watermark of the first of them
is committed already. -/
def stallBeforeWatermark : List Action :=
  flushedStart 50000000000 ++ stalledPass 61000000000 50500000000

/-- **No crash over-credits when what is in memory is dated after what is credited**: of every run
of a capture, whatever its calls, its flushes and the processes before. -/
theorem neverOverCredits_of_datedAfter (h : system.Reachable (fun _ _ => True) s)
    (hdated : s.DatedAfterCredit) : s.NeverOverCredits := by
  intro s' hrestart first last sourceId t hcredits
  obtain rfl := Option.some.inj hrestart
  change Credits s.catalog first last sourceId t at hcredits
  have hsound := captureSound_of_reachable h
  obtain ⟨hnames, hpending⟩ := hsound.unwritten sourceId
  obtain ⟨hwindow, rows, hrows, hcredited⟩ := (credits_iff _ _ _ _ _).mp hcredits
  have hentries := hdated.entries first last sourceId t hcredits
  rw [hrows] at hnames hentries
  obtain ⟨rows', hrows', hkept, hnil, hcons⟩ := creditedRows_persistAll _ rows hnames
    (fun entry hentry => hsound.queue.ended entry (hpending entry (List.mem_of_mem_filter hentry)))
    hentries ⟨hcredited.eligible, hcredited.noGap⟩
  refine (credits_iff _ _ _ _ _).mpr ⟨hwindow, rows', ?_, ?_, hkept.eligible, hkept.noGap⟩
  · rw [fullHistory, get?_persist, hrows]
    exact hrows'
  · by_cases hwritten : entriesOf sourceId s.unwritten = []
    · rw [hnil hwritten]
      refine observed_fullHistory hcredited.observed fun now hnow hselection => ?_
      exact hdated.watermark first last sourceId t hcredits hwritten now hnow rows hrows hselection
    · exact (hcons hwritten).trans_le (observedAt_le_observedThrough _ _)

theorem neverOverCredits_of_laterStall :
    ∃ s, system.perform (create 65536) stallAfterWatermark = some s ∧ s.NeverOverCredits ∧
      s.unwritten ≠ [] ∧ Credits s.fullHistory 0 100000000000 "k" 72000000000 := by
  have hrun : (system.perform (create 65536) stallAfterWatermark).any (fun s =>
      decide (∀ item ∈ s.catalog.sources.items,
        (∀ entry ∈ entriesOf item.1 s.unwritten,
          observedThrough s.catalog.watermarks item.2.state ≤ entry.state.observedAt ∧
            ∀ gap ∈ entry.gap, observedThrough s.catalog.watermarks item.2.state ≤ gap.started) ∧
          ∀ now ∈ s.pendingWatermark, observedThrough s.catalog.watermarks item.2.state ≤
            max item.2.state.observedAt now) &&
      decide (s.unwritten ≠ []) &&
      decide (Credits s.catalog 0 100000000000 "k" 72000000000)) = true := by decide
  rcases hs : system.perform (create 65536) stallAfterWatermark with - | s
  · rw [hs] at hrun
    cases hrun
  rw [hs] at hrun
  simp only [Option.any_some, Bool.and_eq_true, decide_eq_true_eq] at hrun
  obtain ⟨⟨hobserved, hunwritten⟩, hcredits⟩ := hrun
  have hdated : s.DatedAfterCredit := datedAfterCredit_of_observed fun key rows hrows =>
    hobserved (key, rows) (SortedDict.get?_eq_some_iff.mp hrows)
  have hnever := neverOverCredits_of_datedAfter
    ⟨create 65536, ⟨65536, rfl⟩, TransitionSystem.run_of_perform hs⟩ hdated
  exact ⟨s, rfl, hnever, hunwritten, hnever _ rfl _ _ _ _ hcredits⟩

/-- A stall that is found behind a watermark: the time from where the writer stalled to
the watermark stays credited when the process ends before the next flush. -/
theorem stall_overCredited :
    ∃ s, system.perform (create 65536) stallBeforeWatermark = some s ∧
      system.Reachable (fun _ _ => True) s ∧ ¬ s.NeverOverCredits := by
  have hrun : (system.perform (create 65536) stallBeforeWatermark).any (fun s =>
      decide (Credits s.catalog 0 100000000000 "k" 52000000000) &&
      decide (¬ Credits s.fullHistory 0 100000000000 "k" 52000000000)) = true := by decide
  rcases hs : system.perform (create 65536) stallBeforeWatermark with - | s
  · rw [hs] at hrun
    cases hrun
  rw [hs] at hrun
  simp only [Option.any_some, Bool.and_eq_true, decide_eq_true_eq] at hrun
  refine ⟨s, rfl, ⟨create 65536, ⟨65536, rfl⟩, TransitionSystem.run_of_perform hs⟩,
    fun hnever => ?_⟩
  exact hrun.2 (hnever _ rfl _ _ _ _ hrun.1)

end AvailabilityCapture

end MarketDataRecorder
