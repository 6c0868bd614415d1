import MarketDataRecorder.Collector.AvailabilityLedger
import MarketDataRecorder.Lib.Fallible

/-!
# Eligibility and gaps over whole runs

A process with `AvailabilityJournal` and a catalog: calls come at any time, and a flush takes any
part of the queue. What the catalog gets is what the ledger writes at once, as long as no call comes
to a suspended source and no checkpoint is changed that a flush has in hand.

The flush is that of a journal without a monitor, which writes all that it takes. With a monitor
the checkpoints are left out, and a watermark is committed in their place: `CaptureFlush`.

* `Shows.call` — the journal and the ledger take the same step
* `showsLedger_run` — what was recorded is what the ledger has
* `eligibility_and_gaps` — closed rows stay, one gap is open at most, each is closed once,
  whatever the flushes
-/

namespace MarketDataRecorder

/-! ## The process -/

/-- The entries that a flush has taken from `batch`. -/
structure HandedBatch where
  rows : List JournalEntry
  committed : Bool := false

structure AvailabilityProcess where
  catalog : AvailabilityCatalog := {}
  journal : AvailabilityJournal
  handed : Option HandedBatch := none

namespace AvailabilityProcess

inductive Action where
  | call (op : JournalOp)
  /-- A flush takes a batch of the queue. -/
  | handOver (limit : Nat)
  | commit
  | acknowledge
  deriving DecidableEq

def create (capacity selectionId : Nat) : AvailabilityProcess where
  journal := { selectionId := selectionId, capacity := capacity, nextId := 0 }

/-- A step; nothing happens where it is not the turn of the action. -/
def step (p : AvailabilityProcess) : Action → AvailabilityProcess
  | .call op => { p with journal := op.after p.journal }
  | .handOver limit =>
    match p.handed with
    | none => { p with handed := some { rows := p.journal.pending.take limit } }
    | some _ => p
  | .commit =>
    match p.handed with
    | some ⟨rows, false⟩ =>
      { p with catalog := p.catalog.persist rows none, handed := some ⟨rows, true⟩ }
    | _ => p
  | .acknowledge =>
    match p.handed with
    | some ⟨rows, true⟩ =>
      { p with journal := p.journal.acknowledge rows.length, handed := none }
    | _ => p

def run (p : AvailabilityProcess) (actions : List Action) : AvailabilityProcess :=
  actions.foldl step p

/-- The calls of the journal among the actions. -/
def calls : List Action → List JournalOp
  | [] => []
  | .call op :: actions => op :: calls actions
  | _ :: actions => calls actions

/-! ## What is recorded -/

/-- How many entries of the queue a flush has in hand. -/
def inHand (p : AvailabilityProcess) : Nat :=
  match p.handed with
  | some batch => batch.rows.length
  | none => 0

/-- The catalog, with the batch in hand. -/
def base (p : AvailabilityProcess) : AvailabilityCatalog :=
  match p.handed with
  | some ⟨rows, false⟩ => p.catalog.persist rows none
  | _ => p.catalog

/-- The durable rows of a source, once everything that was recorded is written. -/
def settled (p : AvailabilityProcess) (key : String) : Option SourceTables :=
  persistAll (p.base.sources.get? key) (p.journal.queued p.inHand key)

theorem settled_of_flushed {p : AvailabilityProcess} (hpending : p.journal.pending = [])
    (hhanded : p.handed = none) (key : String) : p.settled key = p.catalog.sources.get? key := by
  rw [settled, base, inHand, hhanded, AvailabilityJournal.queued, hpending]
  rfl

/-- The checkpoint of a source that can still be changed is one that a flush has in hand. -/
def checkpointInHand (p : AvailabilityProcess) (key : String) : Bool :=
  match p.journal.pendingCheckpoints.get? key with
  | none => false
  | some number => (p.journal.pending.take p.inHand).any fun entry => entry.number == number

/-- The call writes a checkpoint. -/
def writesCheckpoint (journal : AvailabilityJournal) : JournalOp → Bool
  | .valid key now checkpoint =>
    match journal.sources.get? key with
    | none => false
    | some a => a.unavailableSince.isNone && checkpoint &&
      decide (a.checkpointAt + 10000000000 ≤ now)
  | _ => false

/-- The call has room in the queue, writes nothing of a suspended source but its resumption, and
changes no checkpoint that a flush has in hand. -/
def orderlyCall (p : AvailabilityProcess) (op : JournalOp) : Bool :=
  op.hasRoom p.journal && AvailabilityLedger.awake p.journal.sources op &&
    !(writesCheckpoint p.journal op && p.checkpointInHand op.key)

/-- All calls are so. -/
def orderly : AvailabilityProcess → List Action → Bool
  | _, [] => true
  | p, .call op :: actions => p.orderlyCall op && orderly (p.step (.call op)) actions
  | p, action :: actions => orderly (p.step action) actions

end AvailabilityProcess

/-! ## The journal and the ledger -/

variable {base : AvailabilityCatalog} {skip : Nat} {journal journal' : AvailabilityJournal}
  {l : AvailabilityLedger} {a a' : Availability}

/-- The journal over a durable state has recorded what the ledger has: the same states, and the rows
of the ledger once the queue is written. -/
structure Shows (base : AvailabilityCatalog) (skip : Nat) (journal : AvailabilityJournal)
    (l : AvailabilityLedger) : Prop where
  selectionId : journal.selectionId = l.selectionId
  sources : journal.sources = l.sources
  nextId : journal.nextId = l.nextId
  previous : ∀ key, journal.previous.get? key = none
  rows : ∀ key, l.rows key = persistAll (base.sources.get? key) (journal.queued skip key)
  skip_le : skip ≤ journal.pending.length
  numbers : ∀ entry ∈ journal.pending, entry.number < journal.nextNumber
  registered : ∀ key number, journal.pendingCheckpoints.get? key = some number →
    ∃ before entry later, Registered journal.pending key number before entry later
  /-- A checkpoint that can be changed is one of the current interval. -/
  intervals : ∀ key number, journal.pendingCheckpoints.get? key = some number →
    ∃ b, journal.sources.get? key = some b ∧
      ∀ entry ∈ journal.pending, entry.number = number → entry.intervalId = b.eligibilityId

/-- A state of a source is remembered, of the same interval. -/
theorem Shows.store (h : Shows base skip journal l)
    (hsame : ∀ b, journal.sources.get? a.sourceId = some b → b.eligibilityId = a.eligibilityId) :
    Shows base skip (journal.store a) (l.remember a) :=
  { h with
    sources := congrArg (fun sources => SortedDict.insert sources a.sourceId a) h.sources
    intervals := by
      intro key number hget
      obtain ⟨b, hb, hentries⟩ := h.intervals key number hget
      by_cases hkey : key = a.sourceId
      · refine ⟨a, (SortedDict.get?_insert _ _ _ _).trans (if_pos hkey), ?_⟩
        rw [hkey] at hb
        rw [← hsame b hb]
        exact hentries
      · exact ⟨b, ((SortedDict.get?_insert _ _ _ _).trans (if_neg hkey)).trans hb, hentries⟩ }

/-- New ids were given. -/
theorem Shows.withNextId (h : Shows base skip journal l) (n : Nat) :
    Shows base skip { journal with nextId := n } { l with nextId := n } :=
  { h with nextId := rfl }

theorem append_state {gap : Option GapChange} {isTransition : Bool}
    (h : journal.append a gap isTransition = .ok (journal', a')) :
    a' = { a with checkpointAt := a.observedAt } := by
  unfold AvailabilityJournal.append at h
  dsimp only at h
  split at h
  · cases h
  · exact (Prod.mk.inj (Except.ok.inj h)).2.symm

theorem persistAll_concat (tables : Option SourceTables) (entries : List JournalEntry)
    (entry : JournalEntry) :
    persistAll tables (entries ++ [entry]) =
      some (writeEntry (persistAll tables entries) entry) := by
  rw [persistAll, List.foldl_append]
  rfl

/-- An interval that is written twice has the end of the second time. -/
theorem upsertRow_twice (rows : SortedDict Nat AvailabilityInterval) (id first second : Nat)
    (ended ended' : Option Nat) :
    upsertRow (upsertRow rows id first ended ()) id second ended' () =
      upsertRow rows id first ended' () := by
  refine SortedDict.ext_get? fun other => ?_
  simp only [get?_upsertRow, if_true]
  split <;> rfl

/-- What the ledger writes after a checkpoint is the checkpoint with the new state. -/
theorem writeEntry_withState (tables : Option SourceTables) {entry : JournalEntry}
    (hinterval : entry.intervalId = a.eligibilityId) :
    writeEntry (some (writeEntry tables entry)) (a.entry 0 none true) =
      writeEntry tables (entry.withState a) := by
  have hlifecycle : upsertRow (upsertRow ((tables.map SourceTables.lifecycle).getD .empty)
      entry.intervalId entry.intervalStarted entry.intervalEnded ()) a.eligibilityId a.eligibleSince
      a.intervalEnded () = upsertRow ((tables.map SourceTables.lifecycle).getD .empty)
        entry.intervalId entry.intervalStarted a.intervalEnded () := by
    rw [hinterval]
    exact upsertRow_twice _ _ _ _ _ _
  have hgaps : upsertGap ((tables.map SourceTables.gaps).getD .empty) entry.gap =
      upsertGap ((tables.map SourceTables.gaps).getD .empty) (entry.withState a).gap := rfl
  show SourceTables.mk _ _ (upsertGap _ entry.gap) = SourceTables.mk _ _ _
  rw [hgaps]
  congr 1

/-- A new entry is what the ledger writes. -/
theorem Shows.append (h : Shows base skip journal l) {gap : Option GapChange} {isTransition : Bool}
    (hcheckpoint : isTransition = false → gap = none)
    (hrun : journal.append a gap isTransition = .ok (journal', a')) :
    Shows base skip journal' (l.record a gap).1 ∧ a' = (l.record a gap).2 := by
  have hafter := appended_of_append hrun
  have hstate := append_state hrun
  refine ⟨?_, hstate⟩
  have hentry : (a.entry journal.nextNumber gap isTransition).state.sourceId = a.sourceId := rfl
  exact {
    selectionId := hafter.selectionId.trans h.selectionId
    sources := by
      rw [hafter.sources, hstate, h.sources]
      rfl
    nextId := hafter.nextId.trans h.nextId
    previous := by
      rw [hafter.previous]
      exact h.previous
    rows := by
      intro key
      rw [AvailabilityLedger.record]
      dsimp only
      by_cases hkey : key = a.sourceId
      · rw [hkey, Function.update_self, hafter.queued_own h.skip_le hentry, persistAll_concat,
          ← h.rows a.sourceId]
        rfl
      · rw [Function.update_of_ne hkey, hafter.queued_other h.skip_le hentry hkey]
        exact h.rows key
    skip_le := by
      rw [hafter.pending, List.length_append]
      exact h.skip_le.trans (Nat.le_add_right _ _)
    numbers := by
      intro entry hmem
      rw [hafter.pending] at hmem
      rw [hafter.nextNumber]
      rcases List.mem_append.mp hmem with hmem | hmem
      · exact (h.numbers entry hmem).trans (Nat.lt_succ_self _)
      · rw [List.mem_singleton.mp hmem]
        exact Nat.lt_succ_self _
    registered := hafter.registered rfl hentry rfl hcheckpoint h.numbers h.registered
    intervals := by
      have hold : ∀ key number, key ≠ a.sourceId →
          journal.pendingCheckpoints.get? key = some number →
          ∃ b, journal'.sources.get? key = some b ∧
            ∀ entry ∈ journal'.pending, entry.number = number →
              entry.intervalId = b.eligibilityId := by
        intro key number hkey hget
        obtain ⟨b, hb, hentries⟩ := h.intervals key number hget
        obtain ⟨before, first, later, hfirst⟩ := h.registered key number hget
        refine ⟨b, by rw [hafter.get?_sources, if_neg hkey, hb], fun entry hmem hnumber => ?_⟩
        rw [hafter.pending] at hmem
        rcases List.mem_append.mp hmem with hmem | hmem
        · exact hentries entry hmem hnumber
        · rw [List.mem_singleton.mp hmem] at hnumber
          exact absurd hnumber.symm (hfirst.number_lt h.numbers).ne
      intro key number hget
      rw [hafter.pendingCheckpoints] at hget
      cases isTransition with
      | true =>
        rw [if_pos rfl, SortedDict.get?_erase] at hget
        split at hget
        · cases hget
        · next hkey => exact hold key number hkey hget
      | false =>
        rw [if_neg Bool.false_ne_true, SortedDict.get?_insert] at hget
        split at hget
        · next hkey =>
          obtain rfl := Option.some.inj hget
          refine ⟨a', by rw [hafter.get?_sources, if_pos hkey], fun entry hmem hnumber => ?_⟩
          rw [hafter.pending] at hmem
          rcases List.mem_append.mp hmem with hmem | hmem
          · exact absurd hnumber (h.numbers entry hmem).ne
          · rw [List.mem_singleton.mp hmem, hstate]
            rfl
        · next hkey => exact hold key number hkey hget }

/-- A checkpoint that is pending, and not in hand, becomes what the ledger writes. -/
theorem Shows.coalesce (h : Shows base skip journal l) {number : Nat}
    (hget : journal.pendingCheckpoints.get? a.sourceId = some number)
    (hsame : ∀ b, journal.sources.get? a.sourceId = some b → b.eligibilityId = a.eligibilityId)
    (hapart : ∀ entry ∈ journal.pending.take skip, entry.number ≠ number) :
    Shows base skip (journal.coalesce a number) (l.record a none).1 := by
  obtain ⟨before, entry, later, hregistered⟩ := h.registered a.sourceId number hget
  -- The entry lies behind those handed over: their numbers are others.
  have hskip : skip ≤ before.length := by
    by_contra hlt
    refine hapart entry ?_ hregistered.hasNumber
    rw [hregistered.split, List.take_append]
    obtain ⟨k, hk⟩ : ∃ k, skip - before.length = k + 1 := ⟨skip - before.length - 1, by omega⟩
    rw [hk, List.take_succ_cons]
    simp
  obtain ⟨b, hb, hentries⟩ := h.intervals a.sourceId number hget
  have hinterval : entry.intervalId = a.eligibilityId :=
    (hentries entry (by rw [hregistered.split]; simp) hregistered.hasNumber).trans (hsame b hb)
  have hpending := pending_coalesce (a := a) hregistered
  have hmem : ∀ other ∈ (journal.coalesce a number).pending, other = entry.withState a ∨
      other ∈ before ∨ other ∈ later := by
    intro other hother
    rw [hpending] at hother
    simpa [or_left_comm] using hother
  exact {
    selectionId := h.selectionId
    sources := by
      rw [AvailabilityLedger.record, AvailabilityLedger.remember, ← h.sources]
      rfl
    nextId := h.nextId
    previous := h.previous
    rows := by
      intro key
      rw [AvailabilityLedger.record]
      dsimp only
      by_cases hkey : key = a.sourceId
      · obtain ⟨entries, hold, hnew⟩ := queued_coalesce_own (a := a) hregistered hskip
        rw [hkey, Function.update_self, hnew, persistAll_concat, h.rows a.sourceId, hold,
          persistAll_concat]
        exact congrArg some (writeEntry_withState _ hinterval)
      · rw [Function.update_of_ne hkey, queued_coalesce_other hregistered hkey]
        exact h.rows key
    skip_le := by
      show skip ≤ (journal.pending.map _).length
      rw [List.length_map]
      exact h.skip_le
    numbers := by
      intro other hother
      rcases hmem other hother with rfl | hother | hother
      · exact h.numbers entry (by rw [hregistered.split]; simp)
      · exact h.numbers other (by rw [hregistered.split]; simp [hother])
      · exact h.numbers other (by rw [hregistered.split]; simp [hother])
    registered := by
      intro key other hother
      by_cases hkey : key = a.sourceId
      · rw [hkey] at hother ⊢
        obtain rfl := Option.some.inj (hget.symm.trans hother)
        rw [hpending]
        exact ⟨before, entry.withState a, later, hregistered.withState rfl⟩
      · obtain ⟨first, otherEntry, last, hotherRegistered⟩ := h.registered key other hother
        obtain ⟨first', last', hafter⟩ := hregistered.coalesce_other hotherRegistered hkey
        exact ⟨first', otherEntry, last', hafter⟩
    intervals := by
      intro key other hother
      obtain ⟨c, hc, hothers⟩ := h.intervals key other hother
      have hintervals : ∀ x ∈ (journal.coalesce a number).pending, x.number = other →
          x.intervalId = c.eligibilityId := by
        intro x hx hnumber
        rcases hmem x hx with rfl | hx | hx
        · exact hothers entry (by rw [hregistered.split]; simp) hnumber
        · exact hothers x (by rw [hregistered.split]; simp [hx]) hnumber
        · exact hothers x (by rw [hregistered.split]; simp [hx]) hnumber
      by_cases hkey : key = a.sourceId
      · refine ⟨{ a with checkpointAt := a.observedAt }, by rw [get?_coalesce, if_pos hkey], ?_⟩
        rw [hkey] at hc
        intro x hx hnumber
        exact (hintervals x hx hnumber).trans (hsame c hc)
      · exact ⟨c, by rw [get?_coalesce, if_neg hkey, hc], hintervals⟩ }

/-! ## Calls -/

/-- No entry that a flush has in hand is the checkpoint of a source that can still be changed. -/
def NotInHand (skip : Nat) (journal : AvailabilityJournal) (key : String) : Prop :=
  ∀ number, journal.pendingCheckpoints.get? key = some number →
    ∀ entry ∈ journal.pending.take skip, entry.number ≠ number

/-- `_emit` of a transition. -/
theorem Shows.emit_transition (h : Shows base skip journal l) {gap : Option GapChange}
    (hrun : journal.emit a gap true = .ok (journal', a')) :
    Shows base skip journal' (l.record a gap).1 ∧ a' = (l.record a gap).2 :=
  h.append (by rintro ⟨⟩) hrun

/-- `_emit` of a checkpoint. -/
theorem Shows.emit_checkpoint (h : Shows base skip journal l)
    (hsame : ∀ b, journal.sources.get? a.sourceId = some b → b.eligibilityId = a.eligibilityId)
    (hapart : NotInHand skip journal a.sourceId)
    (hrun : journal.emit a none false = .ok (journal', a')) :
    Shows base skip journal' (l.record a none).1 := by
  unfold AvailabilityJournal.emit at hrun
  split at hrun
  · next number _ hget =>
    obtain ⟨rfl, rfl⟩ := Prod.mk.inj (Except.ok.inj hrun)
    exact h.coalesce hget hsame (hapart number hget)
  · exact (h.append (fun _ => rfl) hrun).1

/-- `unavailable`, of a source with its state. -/
theorem Shows.markUnavailable (h : Shows base skip journal l) {now : Nat} {reason : String}
    {since : Option Nat}
    (hsame : a.unavailableSince.isSome = true →
      ∀ b, journal.sources.get? a.sourceId = some b → b.eligibilityId = a.eligibilityId)
    (hrun : journal.markUnavailable a now reason since = .ok (journal', a')) :
    Shows base skip journal' (l.markUnavailable a now reason since).1 ∧
      a' = (l.markUnavailable a now reason since).2 := by
  unfold AvailabilityJournal.markUnavailable at hrun
  unfold AvailabilityLedger.markUnavailable
  dsimp only at hrun ⊢
  split at hrun
  · next hunavailable =>
    rw [if_pos hunavailable]
    obtain ⟨rfl, rfl⟩ := Prod.mk.inj (Except.ok.inj hrun)
    exact ⟨h.store (hsame hunavailable), rfl⟩
  · next hhealthy =>
    rw [if_neg hhealthy]
    cases hgap : a.gapId with
    | some gapId =>
      rw [hgap] at hrun
      rw [← h.nextId]
      exact (h.withNextId _).emit_transition hrun
    | none =>
      rw [hgap] at hrun
      rw [← h.nextId]
      exact (h.withNextId _).emit_transition hrun

/-- `ensure`. -/
theorem Shows.ensure (h : Shows base skip journal l) {key : String} {now : Nat}
    (hrun : journal.ensure key now = .ok (journal', a)) :
    Shows base skip journal' (l.ensure key now).1 ∧ a = (l.ensure key now).2 := by
  unfold AvailabilityJournal.ensure at hrun
  unfold AvailabilityLedger.ensure
  have hsame : l.sources.get? key = journal.sources.get? key := by rw [h.sources]
  cases hget : journal.sources.get? key with
  | some b =>
    rw [hsame, hget]
    rw [hget] at hrun
    obtain ⟨rfl, rfl⟩ := Prod.mk.inj (Except.ok.inj hrun)
    exact ⟨h, rfl⟩
  | none =>
    rw [hsame, hget]
    rw [hget] at hrun
    dsimp only at hrun ⊢
    have hfirst : journal.firstState key now = ({
        sourceId := key
        selectionId := l.selectionId
        observedAt := now
        eligibleSince := now
        eligibilityId := l.nextId }, now, "STARTUP_UNKNOWN", l.nextId + 1) := by
      unfold AvailabilityJournal.firstState
      rw [h.previous key, h.selectionId, h.nextId]
    rw [hfirst] at hrun
    dsimp only at hrun
    exact (h.withNextId _).markUnavailable (fun hunavailable => by cases hunavailable) hrun

/-- A journal and a ledger after `ensure`. -/
structure ShowsSource (base : AvailabilityCatalog) (skip : Nat) (journal : AvailabilityJournal)
    (l : AvailabilityLedger) (key : String) (a : Availability) : Prop where
  shows : Shows base skip journal l
  ofSource : a.sourceId = key
  stored : journal.sources.get? a.sourceId = some a
  asleep : a.dormant = true → a.unavailableSince = none

theorem Shows.source (h : Shows base skip journal l) (hsound : l.Sound) {key : String} {now : Nat}
    (hrun : journal.ensure key now = .ok (journal', a)) :
    ShowsSource base skip journal' (l.ensure key now).1 key a ∧ a = (l.ensure key now).2 := by
  obtain ⟨hshows, rfl⟩ := h.ensure hrun
  obtain ⟨hleaves, -, -⟩ := hsound.ensure key now
  obtain ⟨hid, tables, -, ha⟩ := hleaves.sound.source hleaves.stored
  refine ⟨⟨hshows, hid, ?_, ha.asleep⟩, rfl⟩
  rw [hshows.sources, hid]
  exact hleaves.stored

theorem ShowsSource.same {key : String} (h : ShowsSource base skip journal l key a) :
    ∀ b, journal.sources.get? a.sourceId = some b → b.eligibilityId = a.eligibilityId := by
  intro b hb
  rw [Option.some.inj (h.stored.symm.trans hb)]

theorem Shows.suspend (h : Shows base skip journal l) (hsound : l.Sound) {key : String} {now : Nat}
    (hrun : journal.suspend key now = .ok journal') :
    Shows base skip journal' (l.suspend key now) := by
  obtain ⟨⟨j, a⟩, hensure, hrun⟩ := except_bind_eq_ok hrun
  obtain ⟨hsource, heq⟩ := h.source hsound hensure
  rw [AvailabilityLedger.suspend]
  dsimp only at hrun ⊢
  rw [← heq]
  split at hrun
  · next hdormant =>
    rw [if_pos hdormant, ← Except.ok.inj hrun]
    exact hsource.shows
  · next hawake =>
    rw [if_neg hawake]
    obtain ⟨⟨j', b⟩, hemit, hrun⟩ := except_bind_eq_ok hrun
    rw [← Except.ok.inj hrun]
    exact (hsource.shows.emit_transition hemit).1

theorem Shows.resume (h : Shows base skip journal l) (hsound : l.Sound) {key : String} {now : Nat}
    (hrun : journal.resume key now = .ok journal') :
    Shows base skip journal' (l.resume key now) := by
  obtain ⟨⟨j, a⟩, hensure, hrun⟩ := except_bind_eq_ok hrun
  obtain ⟨hsource, heq⟩ := h.source hsound hensure
  rw [AvailabilityLedger.resume]
  dsimp only at hrun ⊢
  rw [← heq]
  split at hrun
  · next hdormant =>
    rw [if_pos hdormant, ← hsource.shows.nextId]
    obtain ⟨⟨j', b⟩, hmark, hrun⟩ := except_bind_eq_ok hrun
    rw [← Except.ok.inj hrun]
    refine ((hsource.shows.withNextId _).markUnavailable (fun hunavailable => ?_) hmark).1
    have hhealthy : a.unavailableSince = none := hsource.asleep hdormant
    rw [hhealthy] at hunavailable
    cases hunavailable
  · next hawake =>
    rw [if_neg hawake, ← Except.ok.inj hrun]
    exact hsource.shows

theorem Shows.unavailable (h : Shows base skip journal l) (hsound : l.Sound)
    {key : String} {now : Nat}
    {reason : String} {since : Option Nat}
    (hrun : journal.unavailable key now reason since = .ok journal') :
    Shows base skip journal' (l.unavailable key now reason since) := by
  obtain ⟨⟨j, a⟩, hensure, hrun⟩ := except_bind_eq_ok hrun
  obtain ⟨hsource, heq⟩ := h.source hsound hensure
  obtain ⟨⟨j', b⟩, hmark, hrun⟩ := except_bind_eq_ok hrun
  rw [AvailabilityLedger.unavailable, ← Except.ok.inj hrun]
  dsimp only
  rw [← heq]
  exact (hsource.shows.markUnavailable (fun _ => hsource.same) hmark).1

theorem Shows.failure (h : Shows base skip journal l) (hsound : l.Sound) {key : String} {now : Nat}
    {error : String} {since : Option Nat}
    (hrun : journal.failure key now error since = .ok journal') :
    Shows base skip journal' (l.failure key now error since) := by
  obtain ⟨⟨j, a⟩, hensure, hrun⟩ := except_bind_eq_ok hrun
  obtain ⟨hsource, heq⟩ := h.source hsound hensure
  obtain ⟨⟨j', b⟩, hmark, hrun⟩ := except_bind_eq_ok hrun
  obtain ⟨⟨j'', c⟩, hemit, hrun⟩ := except_bind_eq_ok hrun
  rw [AvailabilityLedger.failure, ← Except.ok.inj hrun]
  dsimp only
  rw [← heq]
  obtain ⟨hmarked, hb⟩ := hsource.shows.markUnavailable
    (a := { a with failures := a.failures + 1, lastError := some error, lastErrorAt := some now })
    (fun _ => hsource.same) hmark
  rw [← hb]
  exact (hmarked.emit_transition hemit).1

/-- A source that is seen first is unavailable. -/
theorem AvailabilityLedger.ensure_unavailable {key : String} (now : Nat)
    (hget : l.sources.get? key = none) : (l.ensure key now).2.unavailableSince.isSome = true := by
  rw [AvailabilityLedger.ensure, hget]
  rfl

theorem Shows.valid (h : Shows base skip journal l) (hsound : l.Sound) {key : String} {now : Nat}
    {checkpoint : Bool}
    (hapart : AvailabilityProcess.writesCheckpoint journal (.valid key now checkpoint) = true →
      NotInHand skip journal key)
    (hrun : journal.valid key now checkpoint = .ok journal') :
    Shows base skip journal' (l.valid key now checkpoint) := by
  obtain ⟨⟨j, a⟩, hensure, hrun⟩ := except_bind_eq_ok hrun
  obtain ⟨hsource, heq⟩ := h.source hsound hensure
  rw [AvailabilityLedger.valid]
  dsimp only at hrun ⊢
  rw [← heq]
  split at hrun
  · next hunavailable =>
    rw [if_pos hunavailable]
    obtain ⟨⟨j', b⟩, hemit, hrun⟩ := except_bind_eq_ok hrun
    rw [← Except.ok.inj hrun]
    exact (hsource.shows.emit_transition hemit).1
  next hhealthy =>
  rw [if_neg hhealthy]
  split at hrun
  · next hdue =>
    rw [if_pos hdue]
    obtain ⟨⟨j', b⟩, hemit, hrun⟩ := except_bind_eq_ok hrun
    rw [← Except.ok.inj hrun]
    -- a source that is seen first is unavailable, so this one was known
    obtain ⟨c, hget⟩ : ∃ c, l.sources.get? key = some c := by
      cases hget : l.sources.get? key with
      | none =>
        have hunavailable := AvailabilityLedger.ensure_unavailable (l := l) now hget
        rw [← heq] at hunavailable
        exact absurd hunavailable hhealthy
      | some c => exact ⟨c, rfl⟩
    have hknown : journal.ensure key now = .ok (journal, c) := by
      rw [AvailabilityJournal.ensure, h.sources, hget]
    obtain ⟨rfl, rfl⟩ := Prod.mk.inj (Except.ok.inj (hknown.symm.trans hensure))
    refine hsource.shows.emit_checkpoint hsource.same ?_ hemit
    show NotInHand skip journal c.sourceId
    rw [hsource.ofSource]
    refine hapart ?_
    rw [AvailabilityProcess.writesCheckpoint, h.sources, hget]
    simpa [Bool.and_assoc] using And.intro (by simpa using hhealthy) (by simpa using hdue)
  · next hdue =>
    rw [if_neg hdue, ← Except.ok.inj hrun]
    exact hsource.shows.store hsource.same

/-- **A call** is the same step of the journal and of the ledger. -/
theorem Shows.call (h : Shows base skip journal l) (hsound : l.Sound) {op : JournalOp}
    (hapart : AvailabilityProcess.writesCheckpoint journal op = true →
    NotInHand skip journal op.key)
    (hrun : op.run journal = .ok journal') : Shows base skip journal' (l.apply op) := by
  cases op with
  | ensure key now =>
    obtain ⟨⟨j, a⟩, hensure, hrun⟩ := except_bind_eq_ok hrun
    rw [← Except.ok.inj hrun]
    exact (h.ensure hensure).1
  | suspend key now => exact h.suspend hsound hrun
  | resume key now => exact h.resume hsound hrun
  | unavailable key now reason since => exact h.unavailable hsound hrun
  | failure key now error since => exact h.failure hsound hrun
  | valid key now checkpoint => exact h.valid hsound hapart hrun

/-! ## Flushes -/

/-- A batch is taken: the rows that the queue leads to are the same. -/
theorem Shows.handOver (h : Shows base 0 journal l) (limit : Nat) :
    Shows (base.persist (journal.pending.take limit) none) (journal.pending.take limit).length
      journal l :=
  { h with
    rows := by
      intro key
      have hdrop : journal.pending.drop (journal.pending.take limit).length =
          journal.pending.drop limit := by
        have hleft : (journal.pending.take limit ++ journal.pending.drop limit).drop
            (journal.pending.take limit).length = journal.pending.drop limit := List.drop_left
        rwa [List.take_append_drop] at hleft
      have hsplit : entriesOf key journal.pending = entriesOf key (journal.pending.take limit) ++
          entriesOf key (journal.pending.drop limit) := by
        rw [← entriesOf_append, List.take_append_drop]
      rw [h.rows key, AvailabilityJournal.queued, AvailabilityJournal.queued, hdrop, get?_persist,
        List.drop_zero, hsplit, persistAll, List.foldl_append]
      rfl
    skip_le := by
      rw [List.length_take]
      exact Nat.min_le_right _ _ }

/-- An entry that the durable state has leaves the queue. -/
theorem Shows.popFront (h : Shows base (skip + 1) journal l) :
    Shows base skip journal.popFront l := by
  obtain ⟨entry, rest, hpending⟩ : ∃ entry rest, journal.pending = entry :: rest := by
    cases hpending : journal.pending with
    | nil =>
      have hle := h.skip_le
      rw [hpending] at hle
      cases hle
    | cons entry rest => exact ⟨entry, rest, rfl⟩
  have hafter : journal.popFront.pending = rest := by
    rw [AvailabilityJournal.popFront, hpending]
  have hsources : journal.popFront.sources = journal.sources := by
    rw [AvailabilityJournal.popFront, hpending]
  exact {
    selectionId := by
      rw [AvailabilityJournal.popFront, hpending]
      exact h.selectionId
    sources := hsources.trans h.sources
    nextId := by
      rw [AvailabilityJournal.popFront, hpending]
      exact h.nextId
    previous := by
      rw [AvailabilityJournal.popFront, hpending]
      exact h.previous
    rows := by
      intro key
      rw [h.rows key, AvailabilityJournal.queued, AvailabilityJournal.queued, hafter, hpending,
        List.drop_succ_cons]
    skip_le := by
      have hle := h.skip_le
      rw [hpending, List.length_cons] at hle
      rw [hafter]
      exact Nat.le_of_succ_le_succ hle
    numbers := by
      intro other hmem
      rw [hafter] at hmem
      have hnumber := h.numbers other (by rw [hpending]; exact List.mem_cons_of_mem _ hmem)
      rw [AvailabilityJournal.popFront, hpending]
      exact hnumber
    registered := fun key number hget =>
      (registered_popFront hpending h.registered key number hget).2
    intervals := by
      intro key number hget
      obtain ⟨b, hb, hentries⟩ :=
        h.intervals key number (registered_popFront hpending h.registered key number hget).1
      refine ⟨b, by rw [hsources, hb], fun other hmem => hentries other ?_⟩
      rw [hafter] at hmem
      rw [hpending]
      exact List.mem_cons_of_mem _ hmem }

theorem Shows.acknowledge : ∀ {count : Nat} {journal : AvailabilityJournal},
    Shows base count journal l → Shows base 0 (journal.acknowledge count) l
  | 0, _, h => h
  | _ + 1, _, h => h.popFront.acknowledge

/-! ## Runs -/

/-- A source is suspended exactly while it has no open eligibility interval. -/
theorem AvailabilityLedger.Sound.dormant_iff (h : l.Sound) {key : String}
    (hget : l.sources.get? key = some a) : a.dormant = true ↔
      ∀ id row, (eligibilityOf (l.rows key)).get? id = some row → row.ended ≠ none := by
  obtain ⟨-, tables, hrows, ha⟩ := h.known key a hget
  obtain ⟨current, hcurrent, hopen⟩ := ha.lifecycle.current
  rw [hrows]
  constructor
  · intro hdormant id row hrow
    by_cases hid : id = a.eligibilityId
    · rw [hid] at hrow
      obtain rfl := Option.some.inj (hcurrent.symm.trans hrow)
      rw [ne_eq, hopen, hdormant]
      exact Bool.noConfusion
    · exact ha.lifecycle.others id row hrow hid
  · intro hclosed
    have hnot := hclosed a.eligibilityId current hcurrent
    rwa [ne_eq, hopen, Bool.not_eq_false] at hnot

namespace AvailabilityProcess

/-- The ledger after calls. -/
def ledgerAfter (l : AvailabilityLedger) (calls : List JournalOp) : AvailabilityLedger :=
  calls.foldl AvailabilityLedger.apply l

/-- What is recorded is what a ledger has. -/
structure ShowsLedger (p : AvailabilityProcess) (l : AvailabilityLedger) : Prop where
  shows : Shows p.base p.inHand p.journal l
  sound : l.Sound

variable {p : AvailabilityProcess}

theorem ShowsLedger.settled (h : ShowsLedger p l) (key : String) : p.settled key = l.rows key :=
  (h.shows.rows key).symm

/-- A call is the same step of the process and of the ledger, which keeps what is closed. -/
theorem ShowsLedger.call (h : ShowsLedger p l) {op : JournalOp}
    (horderly : p.orderlyCall op = true) :
    ShowsLedger (p.step (.call op)) (l.apply op) ∧
      ∀ key, RowsKeepClosed (l.rows key) ((l.apply op).rows key) := by
  rw [orderlyCall, Bool.and_eq_true, Bool.and_eq_true, h.shows.sources] at horderly
  obtain ⟨⟨hroom, hawake⟩, hapart⟩ := horderly
  obtain ⟨hsound, hkeeps⟩ := h.sound.apply hawake
  refine ⟨⟨?_, hsound⟩, hkeeps⟩
  obtain ⟨journal, hrun⟩ := exists_run hroom
  have hstep : p.step (.call op) = { p with journal := journal } := by
    rw [step, JournalOp.after, hrun]
  rw [hstep]
  refine h.shows.call h.sound (fun hwrites number hget entry hmem hnumber => ?_) hrun
  rw [hwrites, Bool.true_and, Bool.not_eq_true', checkpointInHand, hget,
    List.any_eq_false] at hapart
  exact hapart entry hmem (by rw [hnumber, beq_self_eq_true])

/-- A flush changes nothing of what is recorded. -/
theorem ShowsLedger.flush (h : ShowsLedger p l) {action : Action}
    (haction : ∀ op, action ≠ .call op) :
    ShowsLedger (p.step action) l := by
  refine ⟨?_, h.sound⟩
  obtain ⟨catalog, journal, handed⟩ := p
  have hshows := h.shows
  cases action with
  | call op => exact absurd rfl (haction op)
  | handOver limit =>
    cases handed with
    | none => exact hshows.handOver limit
    | some batch => exact hshows
  | commit =>
    rcases handed with _ | ⟨rows, _ | _⟩
    · exact hshows
    · exact hshows
    · exact hshows
  | acknowledge =>
    rcases handed with _ | ⟨rows, _ | _⟩
    · exact hshows
    · exact hshows
    · exact hshows.acknowledge

theorem orderly_append {first second : List Action} :
    orderly p (first ++ second) = (orderly p first && orderly (p.run first) second) := by
  induction first generalizing p with
  | nil => rfl
  | cons action first ih =>
    rw [List.cons_append]
    have hrun : p.run (action :: first) = (p.step action).run first := rfl
    rw [hrun]
    cases action <;> simp only [orderly, ih, Bool.and_assoc]

/-- **A run** records what the ledger writes for its calls, and what is closed stays. -/
theorem showsLedger_run {actions : List Action} (h : ShowsLedger p l)
    (horderly : orderly p actions = true) :
    ShowsLedger (p.run actions) (ledgerAfter l (calls actions)) ∧
      ∀ key, RowsKeepClosed (l.rows key) ((ledgerAfter l (calls actions)).rows key) := by
  induction actions generalizing p l with
  | nil => exact ⟨h, fun _ => .refl _⟩
  | cons action actions ih =>
    have hflush : (∀ op, action ≠ .call op) → calls (action :: actions) = calls actions →
        orderly (p.step action) actions = true →
        ShowsLedger (p.run (action :: actions)) (ledgerAfter l (calls (action :: actions))) ∧
          ∀ key, RowsKeepClosed (l.rows key)
            ((ledgerAfter l (calls (action :: actions))).rows key) := by
      intro haction hcalls hrest
      rw [hcalls]
      exact ih (h.flush haction) hrest
    cases action with
    | call op =>
      rw [orderly, Bool.and_eq_true] at horderly
      obtain ⟨hafter, hkeeps⟩ := h.call horderly.1
      obtain ⟨hlast, hrest⟩ := ih hafter horderly.2
      exact ⟨hlast, fun key => (hkeeps key).trans (hrest key)⟩
    | handOver limit => exact hflush (by rintro op ⟨⟩) rfl horderly
    | commit => exact hflush (by rintro op ⟨⟩) rfl horderly
    | acknowledge => exact hflush (by rintro op ⟨⟩) rfl horderly

/-- The ledger at the start. -/
def ledgerStart (selectionId : Nat) : AvailabilityLedger where
  selectionId := selectionId
  sources := .empty
  nextId := 0
  rows := fun _ => none

theorem showsLedger_create (capacity selectionId : Nat) :
    ShowsLedger (create capacity selectionId) (ledgerStart selectionId) where
  shows := {
    selectionId := rfl
    sources := rfl
    nextId := rfl
    previous := fun _ => rfl
    rows := fun _ => rfl
    skip_le := le_refl _
    numbers := by rintro entry ⟨⟩
    registered := by rintro key number ⟨⟩
    intervals := by rintro key number ⟨⟩ }
  sound := ⟨by rintro key a ⟨⟩, fun _ _ => rfl⟩

/-- What is kept over a run: what was closed before stays closed as it is; one gap of a source is
open at most, and one is exactly while the source is unavailable; the call that ends it closes its
gap, for good; a source has no open eligibility interval exactly while it is suspended, and opens a
new one when it is resumed; the rows are those of any other way to flush the same calls, and the
catalog has them once the queue is written. -/
structure EligibilityKept (start : AvailabilityProcess) (before after : List Action) : Prop where
  closed : ∀ key, RowsKeepClosed ((start.run before).settled key)
    ((start.run (before ++ after)).settled key)
  oneGap : ∀ key first second row row',
    (gapsOf ((start.run (before ++ after)).settled key)).get? first = some row →
    (gapsOf ((start.run (before ++ after)).settled key)).get? second = some row' →
    row.ended = none → row'.ended = none → first = second
  gapOpen : ∀ key a, (start.run (before ++ after)).journal.sources.get? key = some a →
    (a.unavailableSince.isSome = true ↔ ∃ id row,
      (gapsOf ((start.run (before ++ after)).settled key)).get? id = some row ∧ row.ended = none)
  gapClosed : ∀ op rest a, after = .call op :: rest → AvailabilityLedger.recovers op = true →
    (start.run before).journal.sources.get? op.key = some a → a.unavailableSince.isSome = true →
    ∃ id row since, (gapsOf ((start.run before).settled op.key)).get? id = some row ∧
      row.ended = none ∧ a.unavailableSince = some since ∧
      (gapsOf ((start.run (before ++ after)).settled op.key)).get? id =
        some ⟨row.started, some op.now, ⟨id, a.reason, since, some op.now⟩⟩
  asleep : ∀ key a, (start.run (before ++ after)).journal.sources.get? key = some a →
    (a.dormant = true ↔ ∀ id row,
      (eligibilityOf ((start.run (before ++ after)).settled key)).get? id = some row →
      row.ended ≠ none)
  opened : ∀ key now rest a, after = .call (.resume key now) :: rest →
    (start.run before).journal.sources.get? key = some a → a.dormant = true → ∃ id,
      (eligibilityOf ((start.run before).settled key)).get? id = none ∧
      (eligibilityOf (((start.run before).step (.call (.resume key now))).settled key)).get? id =
        some ⟨now, none, ()⟩
  anyFlush : ∀ other, orderly start other = true → calls other = calls (before ++ after) →
    ∀ key, (start.run other).settled key = (start.run (before ++ after)).settled key
  written : (start.run (before ++ after)).journal.pending = [] →
    (start.run (before ++ after)).handed = none → ∀ key,
      (start.run (before ++ after)).catalog.sources.get? key =
        (start.run (before ++ after)).settled key

/-- Closed eligibility intervals and gaps stay as they are, over every run and whatever
the flushes. -/
theorem eligibility_and_gaps (capacity selectionId : Nat) (before after : List Action)
    (h : orderly (create capacity selectionId) (before ++ after) = true) :
    EligibilityKept (create capacity selectionId) before after := by
  have hstart := showsLedger_create capacity selectionId
  have hsplit := h
  rw [orderly_append, Bool.and_eq_true] at hsplit
  obtain ⟨hearly, -⟩ := showsLedger_run hstart hsplit.1
  obtain ⟨hlate, -⟩ := showsLedger_run hstart h
  obtain ⟨hrest, hkeeps⟩ := showsLedger_run hearly hsplit.2
  have hrun : ((create capacity selectionId).run before).run after =
      (create capacity selectionId).run (before ++ after) := (List.foldl_append ..).symm
  rw [hrun] at hrest
  refine ⟨fun key => ?_, fun key first second row row' hfirst hsecond hopen hopen' => ?_,
    fun key a hget => ?_, fun op rest a hafter hop hget hunavailable => ?_, fun key a hget => ?_,
    fun key now rest a hafter hget hdormant => ?_, fun other hother hcalls key => ?_,
    fun hpending hhanded key => ?_⟩
  · rw [hearly.settled, hrest.settled]
    exact hkeeps key
  · rw [hlate.settled] at hfirst hsecond
    exact hlate.sound.gap_unique hfirst hsecond hopen hopen'
  · rw [hlate.settled]
    rw [hlate.shows.sources] at hget
    constructor
    · intro hunavailable
      obtain ⟨id, row, -, hrow, hopen⟩ := hlate.sound.exists_gap hget hunavailable
      exact ⟨id, row, hrow, hopen⟩
    · rintro ⟨id, row, hrow, hopen⟩
      exact ((hlate.sound.gap_open_iff hget hrow).mp hopen).1
  · have hcall := hsplit.2
    rw [hafter, orderly, Bool.and_eq_true] at hcall
    obtain ⟨hclosed, -⟩ := hearly.call hcall.1
    obtain ⟨hlast, hstays⟩ := showsLedger_run hclosed hcall.2
    rw [hearly.shows.sources] at hget
    obtain ⟨id, row, since, hrow, hopen, hsince, hended⟩ :=
      hearly.sound.closes hop hget hunavailable
    refine ⟨id, row, since, by rwa [hearly.settled], hopen, hsince, ?_⟩
    rw [← hrun, hafter]
    show (gapsOf (((((create capacity selectionId).run before).step (.call op)).run rest).settled
      op.key)).get? id = _
    rw [hlast.settled]
    exact (hstays op.key).2 id _ hended (by simp)
  · rw [hlate.settled]
    rw [hlate.shows.sources] at hget
    exact hlate.sound.dormant_iff hget
  · have hresume := hsplit.2
    rw [hafter, orderly, Bool.and_eq_true] at hresume
    obtain ⟨hresumed, -⟩ := hearly.call hresume.1
    rw [hearly.shows.sources] at hget
    obtain ⟨-, -, hopened⟩ := hearly.sound.resume key now
    refine ⟨(ledgerAfter (ledgerStart selectionId) (calls before)).nextId, ?_, ?_⟩
    · rw [hearly.settled]
      exact (hopened a hget hdormant).1
    · rw [hresumed.settled]
      exact (hopened a hget hdormant).2
  · obtain ⟨hsame, -⟩ := showsLedger_run hstart hother
    rw [hcalls] at hsame
    rw [hsame.settled, hlate.settled]
  · exact (settled_of_flushed hpending hhanded key).symm

/-- The calls before a source is resumed, with a flush among them. -/
def sampleSuspension : List Action :=
  [.call (.valid "a" 100 true), .handOver 1, .call (.valid "a" 20000000000 true),
    .commit, .acknowledge,
    .call (.failure "a" 30000000000 "TimeoutError" none), .call (.suspend "a" 40000000000)]

/-- The source wakes, and answers again behind a flush. -/
def sampleResumption : List Action :=
  [.call (.resume "a" 50000000000), .handOver 8, .commit, .acknowledge,
    .call (.valid "a" 60000000000 true)]

theorem eligibility_and_gaps_sampleSuspension :
    EligibilityKept (create 65536 0) sampleSuspension sampleResumption :=
  eligibility_and_gaps 65536 0 sampleSuspension sampleResumption (by decide)

/-- A checkpoint, and the next one after the catalog has it and before the queue has let it go. -/
def sampleCheckpoints : List Action :=
  [.call (.valid "a" 100 true), .call (.valid "a" 20000000000 true), .handOver 8, .commit,
    .call (.valid "a" 40000000000 true), .acknowledge]

/-- A failure of a suspended source moves the end of its closed interval, and then no new interval
is opened when it is resumed; a checkpoint that is changed while a flush has it in hand is lost. -/
theorem suspension_not_kept :
    ¬ EligibilityKept (create 65536 0) sampleSuspension
      [.call (.failure "a" 45000000000 "TimeoutError" none)] ∧
    (eligibilityOf (((create 65536 0).run (sampleSuspension ++
      [.call (.failure "a" 45000000000 "TimeoutError" none),
        .call (.resume "a" 50000000000)])).settled "a")).items =
          [(0, ⟨100, some 45000000000, ()⟩)] ∧
    (((create 65536 0).run sampleCheckpoints).settled "a").map (fun rows => rows.state.observedAt) =
      some 20000000000 ∧
    (((create 65536 0).run [.call (.valid "a" 100 true), .call (.valid "a" 20000000000 true),
      .call (.valid "a" 40000000000 true), .handOver 8, .commit, .acknowledge]).settled "a").map
        (fun rows => rows.state.observedAt) = some 40000000000 := by
  refine ⟨fun h => ?_, by decide, by decide, by decide⟩
  have hclosed := (h.closed "a").1 0 ⟨100, some 40000000000, ()⟩ (by decide) (by simp)
  revert hclosed
  decide

end AvailabilityProcess

end MarketDataRecorder
