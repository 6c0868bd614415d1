import MarketDataRecorder.Collector.AvailabilityLedger

/-!
# Gaps that are named

A gap is not named again once it is closed: not by an entry that is put into the queue, and not by a
source in memory. The journal keeps this over a durable state that has the first entries of
the queue, whatever it is called with, and also where the queue is full.

* `NamesOpen` — the gaps that entries name, when they are written one after the other
* `QueueSound` — the queue and the sources in memory over a durable state
* `QueueSound.after` — what a call leaves
* `QueueSound.acknowledge` — what is left when committed entries leave the queue
-/

namespace MarketDataRecorder

/-! ## Gaps that are named -/

/-- The gaps of a source after entries of it. -/
def gapsAfter (gaps : SortedDict Nat AvailabilityGap) (entries : List JournalEntry) :
    SortedDict Nat AvailabilityGap :=
  entries.foldl (fun gaps entry => upsertGap gaps entry.gap) gaps

/-- The id of a gap was given, and its row is open where it has one. -/
def NotClosed (n : Nat) (gaps : SortedDict Nat AvailabilityGap) (gapId : Option Nat) : Prop :=
  ∀ id, gapId = some id → id < n ∧ ∀ row, gaps.get? id = some row → row.ended = none

/-- No entry names a gap that is closed when it is written, and no state has one. -/
def NamesOpen (n : Nat) : SortedDict Nat AvailabilityGap → List JournalEntry → Prop
  | _, [] => True
  | gaps, entry :: later =>
    NotClosed n gaps (entry.gap.map GapChange.gapId) ∧
      NotClosed n (upsertGap gaps entry.gap) entry.state.gapId ∧
      NamesOpen n (upsertGap gaps entry.gap) later

variable {n m : Nat} {gaps : SortedDict Nat AvailabilityGap} {tables : Option SourceTables}
  {entries later : List JournalEntry} {gapId : Option Nat}

theorem NotClosed.none (n : Nat) (gaps : SortedDict Nat AvailabilityGap) :
    NotClosed n gaps none := by
  rintro id ⟨⟩

theorem NotClosed.mono (h : NotClosed n gaps gapId) (hle : n ≤ m) : NotClosed m gaps gapId := by
  intro id hid
  obtain ⟨hlt, hopen⟩ := h id hid
  exact ⟨by omega, hopen⟩

theorem NamesOpen.mono (hle : n ≤ m) : ∀ {entries : List JournalEntry}
    {gaps : SortedDict Nat AvailabilityGap}, NamesOpen n gaps entries → NamesOpen m gaps entries
  | [], _, _ => trivial
  | _ :: _, _, ⟨hgap, hstate, hlater⟩ => ⟨hgap.mono hle, hstate.mono hle, hlater.mono hle⟩

theorem gapsAfter_append (gaps : SortedDict Nat AvailabilityGap)
    (entries later : List JournalEntry) :
    gapsAfter gaps (entries ++ later) = gapsAfter (gapsAfter gaps entries) later :=
  List.foldl_append

theorem namesOpen_append (later : List JournalEntry) : ∀ (entries : List JournalEntry)
    (gaps : SortedDict Nat AvailabilityGap), NamesOpen n gaps (entries ++ later) ↔
      NamesOpen n gaps entries ∧ NamesOpen n (gapsAfter gaps entries) later
  | [], _ => by simp [NamesOpen, gapsAfter]
  | entry :: entries, gaps => by
    have ih := namesOpen_append later entries (upsertGap gaps entry.gap)
    rw [List.cons_append, NamesOpen, NamesOpen, ih, and_assoc, and_assoc]
    rfl

/-- A row of a gap stays a row. -/
theorem get?_upsertGap_eq_none {change : Option GapChange} {id : Nat}
    (h : (upsertGap gaps change).get? id = none) : gaps.get? id = none := by
  cases change with
  | none => exact h
  | some gap =>
    rw [upsertGap, get?_upsertRow] at h
    split at h
    · cases h
    · exact h

theorem get?_gapsAfter_eq_none {id : Nat} : ∀ (entries : List JournalEntry)
    (gaps : SortedDict Nat AvailabilityGap), (gapsAfter gaps entries).get? id = none →
      gaps.get? id = none
  | [], _, h => h
  | _ :: entries, _, h => get?_upsertGap_eq_none (get?_gapsAfter_eq_none entries _ h)

/-- What names no gap can be left out. -/
theorem gapsAfter_filter (keep : JournalEntry → Bool) : ∀ (entries : List JournalEntry)
    (gaps : SortedDict Nat AvailabilityGap),
    (∀ entry ∈ entries, keep entry = false → entry.gap = none) →
      gapsAfter gaps (entries.filter keep) = gapsAfter gaps entries
  | [], _, _ => rfl
  | entry :: entries, gaps, h => by
    have ih := gapsAfter_filter keep entries (upsertGap gaps entry.gap)
      fun other hother => h other (List.mem_cons_of_mem _ hother)
    rw [List.filter_cons]
    by_cases hkeep : keep entry = true
    · rw [if_pos hkeep]
      exact ih
    · have hgap := h entry List.mem_cons_self (by simpa using hkeep)
      rw [if_neg hkeep]
      show _ = gapsAfter (upsertGap gaps entry.gap) entries
      rw [← ih, hgap]
      rfl

theorem NamesOpen.filter (keep : JournalEntry → Bool) : ∀ {entries : List JournalEntry}
    {gaps : SortedDict Nat AvailabilityGap}, NamesOpen n gaps entries →
    (∀ entry ∈ entries, keep entry = false → entry.gap = none) →
      NamesOpen n gaps (entries.filter keep)
  | [], _, _, _ => trivial
  | entry :: entries, gaps, ⟨hgap, hstate, hlater⟩, h => by
    have ih := hlater.filter keep fun other hother => h other (List.mem_cons_of_mem _ hother)
    rw [List.filter_cons]
    by_cases hkeep : keep entry = true
    · rw [if_pos hkeep]
      exact ⟨hgap, hstate, ih⟩
    · rw [if_neg hkeep]
      rw [h entry List.mem_cons_self (by simpa using hkeep)] at ih
      exact ih

/-- The gaps of the rows are those of the entries. -/
theorem gapsOf_persistAll : ∀ (entries : List JournalEntry) (tables : Option SourceTables),
    gapsOf (persistAll tables entries) = gapsAfter (gapsOf tables) entries
  | [], _ => rfl
  | entry :: entries, tables => gapsOf_persistAll entries (some (writeEntry tables entry))

/-- The gap of a durable state is not closed. -/
def StateOpen (n : Nat) (tables : Option SourceTables) : Prop :=
  ∀ rows, tables = some rows → NotClosed n rows.gaps rows.state.gapId

theorem stateOpen_persistAll : ∀ (entries : List JournalEntry) (tables : Option SourceTables),
    NamesOpen n (gapsOf tables) entries → StateOpen n tables →
      StateOpen n (persistAll tables entries)
  | [], _, _, hstate => hstate
  | entry :: entries, tables, ⟨_, hwritten, hlater⟩, _ => by
    have hstate : StateOpen n (some (writeEntry tables entry)) := by
      rintro _ ⟨⟩
      exact hwritten
    exact stateOpen_persistAll entries (some (writeEntry tables entry)) hlater hstate

/-! ## The queue over a durable state -/

/-- A source over its rows: what its entries and its states name is open. Ids from a number on were
not given yet. -/
structure OpenGaps (n : Nat) (tables : Option SourceTables) (queued : List JournalEntry)
    (a : Option Availability) (old : Option AvailabilityState) : Prop where
  names : NamesOpen n (gapsOf tables) queued
  fresh : ∀ id, n ≤ id → (gapsAfter (gapsOf tables) queued).get? id = none
  durable : StateOpen n tables
  known : ∀ b, a = some b → NotClosed n (gapsAfter (gapsOf tables) queued) b.gapId ∧
    (b.unavailableSince = none → b.gapId = none)
  unknown : a = none → queued = [] ∧ ∀ state, old = some state →
    NotClosed n (gapsOf tables) state.gapId

/-- The gaps of a source after the entries that are still to be written. -/
def recordedGaps (durable : SortedDict String SourceTables) (skip : Nat)
    (journal : AvailabilityJournal) (key : String) : SortedDict Nat AvailabilityGap :=
  gapsAfter (gapsOf (durable.get? key)) (journal.queued skip key)

/-- The queue and the sources in memory over a durable state, which has the first entries of
the queue already. -/
structure QueueSound (durable : SortedDict String SourceTables) (skip : Nat)
    (journal : AvailabilityJournal) : Prop where
  within : skip ≤ journal.pending.length
  numbered : ∀ entry ∈ journal.pending, entry.number < journal.nextNumber
  ended : ∀ entry ∈ journal.pending, entry.intervalEnded = entry.state.intervalEnded
  noGap : ∀ entry ∈ journal.pending, entry.isTransition = false → entry.gap = none
  checkpoints : ∀ key number, journal.pendingCheckpoints.get? key = some number →
    ∀ entry ∈ journal.pending, entry.number = number →
      entry.state.sourceId = key ∧ entry.isTransition = false
  given : ∀ key number, journal.pendingCheckpoints.get? key = some number →
    number < journal.nextNumber
  ofKey : ∀ key a, journal.sources.get? key = some a → a.sourceId = key
  gaps : ∀ key, OpenGaps journal.nextId (durable.get? key) (journal.queued skip key)
    (journal.sources.get? key) (journal.previous.get? key)

variable {queued : List JournalEntry} {a b : Availability} {memory : Option Availability}
  {old : Option AvailabilityState} {entry : JournalEntry}

theorem OpenGaps.mono (h : OpenGaps n tables queued memory old) (hle : n ≤ m) :
    OpenGaps m tables queued memory old where
  names := h.names.mono hle
  fresh id hid := h.fresh id (by omega)
  durable rows hrows := (h.durable rows hrows).mono hle
  known b hb := ⟨(h.known b hb).1.mono hle, (h.known b hb).2⟩
  unknown hnone := ⟨(h.unknown hnone).1, fun state hstate =>
    ((h.unknown hnone).2 state hstate).mono hle⟩

/-- Another state of the source. -/
theorem OpenGaps.store (h : OpenGaps n tables queued memory old)
    (hopen : NotClosed n (gapsAfter (gapsOf tables) queued) a.gapId)
    (hpaired : a.unavailableSince = none → a.gapId = none) :
    OpenGaps n tables queued (some a) old where
  names := h.names
  fresh := h.fresh
  durable := h.durable
  known b hb := by
    obtain rfl := Option.some.inj hb
    exact ⟨hopen, hpaired⟩
  unknown hnone := by cases hnone

/-- A new entry of the source. -/
theorem OpenGaps.append (h : OpenGaps n tables queued (some a) old)
    (hstate : entry.state.gapId = a.gapId)
    (hnames : NotClosed n (gapsAfter (gapsOf tables) queued) (entry.gap.map GapChange.gapId))
    (hopen : NotClosed n (upsertGap (gapsAfter (gapsOf tables) queued) entry.gap) a.gapId) :
    OpenGaps n tables (queued ++ [entry]) (some a) old where
  names := by
    rw [namesOpen_append]
    refine ⟨h.names, hnames, ?_, trivial⟩
    rw [hstate]
    exact hopen
  fresh id hid := by
    rw [gapsAfter_append]
    show (upsertGap _ entry.gap).get? id = none
    have hold := h.fresh id hid
    rcases hgap : entry.gap with - | gap
    · exact hold
    · have hgiven := (hnames gap.gapId (by rw [hgap]; rfl)).1
      rw [upsertGap, get?_upsertRow, if_neg (by omega)]
      exact hold
  durable := h.durable
  known b hb := by
    obtain rfl := Option.some.inj hb
    rw [gapsAfter_append]
    exact ⟨hopen, (h.known _ rfl).2⟩
  unknown hnone := by cases hnone

/-- Entries that keep their gap, and get no other gap into their state. -/
def KeepsGaps (change : JournalEntry → JournalEntry) (entries : List JournalEntry) : Prop :=
  ∀ entry ∈ entries, (change entry).gap = entry.gap ∧
    ((change entry).state.gapId = entry.state.gapId ∨ (change entry).state.gapId = none)

theorem gapsAfter_map {change : JournalEntry → JournalEntry} : ∀ {entries : List JournalEntry}
    {gaps : SortedDict Nat AvailabilityGap}, KeepsGaps change entries →
      gapsAfter gaps (entries.map change) = gapsAfter gaps entries
  | [], _, _ => rfl
  | entry :: entries, gaps, h => by
    have hgap := (h entry List.mem_cons_self).1
    have hlater : KeepsGaps change entries := fun other hother =>
      h other (List.mem_cons_of_mem _ hother)
    show gapsAfter (upsertGap gaps (change entry).gap) (entries.map change) =
      gapsAfter (upsertGap gaps entry.gap) entries
    rw [hgap, gapsAfter_map hlater]

theorem NamesOpen.map {change : JournalEntry → JournalEntry} : ∀ {entries : List JournalEntry}
    {gaps : SortedDict Nat AvailabilityGap}, KeepsGaps change entries →
      NamesOpen n gaps entries → NamesOpen n gaps (entries.map change)
  | [], _, _, _ => trivial
  | entry :: entries, gaps, h, ⟨hnames, hstate, hlater⟩ => by
    obtain ⟨hgap, hid⟩ := h entry List.mem_cons_self
    have ih := NamesOpen.map (fun other hother => h other (List.mem_cons_of_mem _ hother)) hlater
    rw [List.map_cons, NamesOpen, hgap]
    refine ⟨hnames, ?_, ih⟩
    rcases hid with hid | hid
    · rw [hid]
      exact hstate
    · rw [hid]
      exact .none _ _

theorem OpenGaps.map (h : OpenGaps n tables queued memory old)
    {change : JournalEntry → JournalEntry} (hchange : KeepsGaps change queued) :
    OpenGaps n tables (queued.map change) memory old where
  names := h.names.map hchange
  fresh id hid := by
    rw [gapsAfter_map hchange]
    exact h.fresh id hid
  durable := h.durable
  known b hb := by
    rw [gapsAfter_map hchange]
    exact h.known b hb
  unknown hnone := by
    rw [(h.unknown hnone).1]
    exact ⟨rfl, (h.unknown hnone).2⟩

variable {durable : SortedDict String SourceTables} {skip : Nat}
  {journal journal' : AvailabilityJournal} {key : String}

theorem QueueSound.withNextId (h : QueueSound durable skip journal) (hle : journal.nextId ≤ n) :
    QueueSound durable skip { journal with nextId := n } where
  within := h.within
  numbered := h.numbered
  ended := h.ended
  noGap := h.noGap
  checkpoints := h.checkpoints
  given := h.given
  ofKey := h.ofKey
  gaps key := (h.gaps key).mono hle

/-- Another state of a source, in memory only. -/
theorem QueueSound.store (h : QueueSound durable skip journal)
    (hopen : NotClosed journal.nextId (recordedGaps durable skip journal a.sourceId) a.gapId)
    (hpaired : a.unavailableSince = none → a.gapId = none) :
    QueueSound durable skip (journal.store a) where
  within := h.within
  numbered := h.numbered
  ended := h.ended
  noGap := h.noGap
  checkpoints := h.checkpoints
  given := h.given
  ofKey key b hget := by
    rw [AvailabilityJournal.store, SortedDict.get?_insert] at hget
    split at hget
    · next hkey =>
      obtain rfl := Option.some.inj hget
      exact hkey.symm
    · exact h.ofKey key b hget
  gaps key := by
    show OpenGaps _ _ (journal.queued skip key) ((journal.sources.insert a.sourceId a).get? key) _
    rw [SortedDict.get?_insert]
    split
    · next hkey =>
      rw [hkey]
      exact (h.gaps a.sourceId).store hopen hpaired
    · exact h.gaps key

/-- A checkpoint is not changed any more. -/
theorem QueueSound.letGo (h : QueueSound durable skip journal)
    {checkpoints : SortedDict String Nat}
    (hold : ∀ key number, checkpoints.get? key = some number →
      journal.pendingCheckpoints.get? key = some number) :
    QueueSound durable skip { journal with pendingCheckpoints := checkpoints } where
  within := h.within
  numbered := h.numbered
  ended := h.ended
  noGap := h.noGap
  checkpoints key number hget := h.checkpoints key number (hold key number hget)
  given key number hget := h.given key number (hold key number hget)
  ofKey := h.ofKey
  gaps := h.gaps

theorem get?_erase_eq_some {checkpoints : SortedDict String Nat} {source : String} {number : Nat}
    (h : (checkpoints.erase source).get? key = some number) :
    checkpoints.get? key = some number := by
  rw [SortedDict.get?_erase] at h
  split at h
  · cases h
  · exact h

/-- The call leaves a sound queue, also where it raises. -/
def LeavesSound {α : Type} (durable : SortedDict String SourceTables) (skip : Nat)
    (leaves : α → Prop) : AvailabilityJournal.Result α → Prop
  | .ok result => leaves result
  | .error journal => QueueSound durable skip journal

/-- The state is the one that the journal has of a source. -/
structure Stored (durable : SortedDict String SourceTables) (skip : Nat) (key : String)
    (result : AvailabilityJournal × Availability) : Prop where
  sound : QueueSound durable skip result.1
  stored : result.1.sources.get? key = some result.2

/-- What an entry of a state needs: the gaps that it names are open. -/
structure Emits (durable : SortedDict String SourceTables) (skip : Nat)
    (journal : AvailabilityJournal) (a : Availability) (gap : Option GapChange) : Prop where
  unsaid : NotClosed journal.nextId (recordedGaps durable skip journal a.sourceId) a.gapId
  names : NotClosed journal.nextId (recordedGaps durable skip journal a.sourceId)
    (gap.map GapChange.gapId)
  said : NotClosed journal.nextId (upsertGap (recordedGaps durable skip journal a.sourceId) gap)
    a.gapId
  paired : a.unavailableSince = none → a.gapId = none

variable {gap : Option GapChange} {isTransition : Bool}

/-- A new entry at the end of the queue. -/
theorem QueueSound.append (h : QueueSound durable skip journal)
    (hemits : Emits durable skip journal a gap) (hcheckpoint : isTransition = false → gap = none) :
    LeavesSound durable skip (Stored durable skip a.sourceId)
      (journal.append a gap isTransition) := by
  have hold : ∀ key number,
      (if isTransition then journal.pendingCheckpoints.erase a.sourceId
        else journal.pendingCheckpoints).get? key = some number →
      journal.pendingCheckpoints.get? key = some number := by
    intro key number hget
    split at hget
    · exact get?_erase_eq_some hget
    · exact hget
  rcases hresult : journal.append a gap isTransition with full | ⟨journal', a'⟩
  · -- the queue is full: the state is in memory without an entry
    unfold AvailabilityJournal.append at hresult
    dsimp only at hresult
    split at hresult
    · obtain rfl := Except.error.inj hresult
      exact (h.store hemits.unsaid hemits.paired).letGo hold
    · cases hresult
  · have happended := appended_of_append hresult
    have hstate : a'.sourceId = a.sourceId := congrArg AvailabilityState.sourceId happended.state
    have hgapId : a'.gapId = a.gapId := congrArg AvailabilityState.gapId happended.state
    have hsince : a'.unavailableSince = a.unavailableSince :=
      congrArg AvailabilityState.unavailableSince happended.state
    have hown := happended.queued_own h.within rfl
    have hsource := happended.get?_sources
    have hmem : ∀ other, other ∈ journal'.pending ↔ other ∈ journal.pending ∨
        other = a.entry journal.nextNumber gap isTransition := by
      intro other
      rw [happended.pending]
      simp
    have hsound : QueueSound durable skip journal' := {
      within := by
        rw [happended.pending, List.length_append]
        exact h.within.trans (Nat.le_add_right _ _)
      numbered := by
        intro other hother
        rw [happended.nextNumber]
        rcases (hmem other).mp hother with hother | rfl
        · have := h.numbered other hother
          omega
        · exact Nat.lt_succ_self _
      ended := by
        intro other hother
        rcases (hmem other).mp hother with hother | rfl
        · exact h.ended other hother
        · rfl
      noGap := by
        intro other hother hother'
        rcases (hmem other).mp hother with hother | rfl
        · exact h.noGap other hother hother'
        · exact hcheckpoint hother'
      checkpoints := by
        intro key number hget other hother hnumber
        rw [happended.pendingCheckpoints] at hget
        have hlast : key = a.sourceId → isTransition = false → number = journal.nextNumber →
            other.state.sourceId = key ∧ other.isTransition = false := by
          intro hkey htransition hnew
          rcases (hmem other).mp hother with hother | rfl
          · have := h.numbered other hother
            omega
          · exact ⟨hkey.symm, htransition⟩
        have hbefore : journal.pendingCheckpoints.get? key = some number →
            other.state.sourceId = key ∧ other.isTransition = false := by
          intro hget
          rcases (hmem other).mp hother with hother | rfl
          · exact h.checkpoints key number hget other hother hnumber
          · have hgiven := h.given key number hget
            have hnew : journal.nextNumber = number := hnumber
            omega
        cases isTransition with
        | true => exact hbefore (get?_erase_eq_some hget)
        | false =>
          rw [if_neg Bool.false_ne_true, SortedDict.get?_insert] at hget
          split at hget
          · next hkey => exact hlast hkey rfl (Option.some.inj hget).symm
          · exact hbefore hget
      given := by
        intro key number hget
        rw [happended.pendingCheckpoints] at hget
        rw [happended.nextNumber]
        have hbefore : journal.pendingCheckpoints.get? key = some number →
            number < journal.nextNumber + 1 := by
          intro hget
          have := h.given key number hget
          omega
        cases isTransition with
        | true => exact hbefore (get?_erase_eq_some hget)
        | false =>
          rw [if_neg Bool.false_ne_true, SortedDict.get?_insert] at hget
          split at hget
          · cases hget
            exact Nat.lt_succ_self _
          · exact hbefore hget
      ofKey := by
        intro key b hget
        rw [hsource] at hget
        split at hget
        · next hkey =>
          obtain rfl := Option.some.inj hget
          rw [hstate, hkey]
        · exact h.ofKey key b hget
      gaps := by
        intro key
        rw [happended.nextId, happended.previous, hsource]
        split
        · next hkey =>
          rw [hkey, hown]
          have hstored : OpenGaps journal.nextId (durable.get? a.sourceId)
              (journal.queued skip a.sourceId) (some a') (journal.previous.get? a.sourceId) := by
            refine (h.gaps a.sourceId).store ?_ ?_
            · rw [hgapId]
              exact hemits.unsaid
            · rw [hsince, hgapId]
              exact hemits.paired
          refine hstored.append hgapId.symm hemits.names ?_
          rw [hgapId]
          exact hemits.said
        · next hkey =>
          rw [happended.queued_other h.within rfl hkey]
          exact h.gaps key }
    exact ⟨hsound, by rw [hsource, if_pos rfl]⟩

/-- A checkpoint that is changed where it stands in the queue. -/
theorem QueueSound.coalesce (h : QueueSound durable skip journal) {number : Nat}
    (hget : journal.pendingCheckpoints.get? a.sourceId = some number) (hhealthy : a.gapId = none)
    (hpaired : a.unavailableSince = none → a.gapId = none) :
    QueueSound durable skip (journal.coalesce a number) := by
  have hstore : QueueSound durable skip
      (journal.store { a with checkpointAt := a.observedAt }) := by
    refine h.store ?_ hpaired
    show NotClosed _ _ a.gapId
    rw [hhealthy]
    exact .none _ _
  let change : JournalEntry → JournalEntry := fun entry =>
    if entry.number = number then entry.withState { a with checkpointAt := a.observedAt } else entry
  have hchange : ∀ entry, (entry.number = number ∧ change entry =
      entry.withState { a with checkpointAt := a.observedAt }) ∨ change entry = entry := by
    intro entry
    by_cases hnumber : entry.number = number
    · exact Or.inl ⟨hnumber, if_pos hnumber⟩
    · exact Or.inr (if_neg hnumber)
  have hnumber : ∀ entry, (change entry).number = entry.number := by
    intro entry
    rcases hchange entry with ⟨-, heq⟩ | heq
    · rw [heq]
      rfl
    · rw [heq]
  have hsource : ∀ entry ∈ journal.pending,
      (change entry).state.sourceId = entry.state.sourceId := by
    intro entry hentry
    rcases hchange entry with ⟨hn, heq⟩ | heq
    · rw [heq, (h.checkpoints _ _ hget entry hentry hn).1]
      rfl
    · rw [heq]
  have hpending : ∀ entry, entry ∈ (journal.coalesce a number).pending →
      ∃ first ∈ journal.pending, change first = entry := by
    intro entry hentry
    exact List.mem_map.mp hentry
  exact {
    within := by
      show skip ≤ (journal.pending.map change).length
      rw [List.length_map]
      exact h.within
    numbered := by
      intro entry hentry
      obtain ⟨first, hfirst, rfl⟩ := hpending entry hentry
      rw [hnumber]
      exact h.numbered first hfirst
    ended := by
      intro entry hentry
      obtain ⟨first, hfirst, rfl⟩ := hpending entry hentry
      rcases hchange first with ⟨-, heq⟩ | heq
      · rw [heq]
        rfl
      · rw [heq]
        exact h.ended first hfirst
    noGap := by
      intro entry hentry htransition
      obtain ⟨first, hfirst, rfl⟩ := hpending entry hentry
      rcases hchange first with ⟨hn, heq⟩ | heq
      · rw [heq]
        exact h.noGap first hfirst (h.checkpoints _ _ hget first hfirst hn).2
      · rw [heq] at htransition ⊢
        exact h.noGap first hfirst htransition
    checkpoints := by
      intro key other hother entry hentry hn
      obtain ⟨first, hfirst, rfl⟩ := hpending entry hentry
      rw [hnumber] at hn
      obtain ⟨hkey, htransition⟩ := h.checkpoints key other hother first hfirst hn
      refine ⟨(hsource first hfirst).trans hkey, ?_⟩
      rcases hchange first with ⟨-, heq⟩ | heq
      · rw [heq]
        rfl
      · rw [heq]
        exact htransition
    given := h.given
    ofKey := hstore.ofKey
    gaps := by
      intro key
      have hkeeps : KeepsGaps change (journal.queued skip key) := by
        intro entry hentry
        have hpend : entry ∈ journal.pending :=
          List.mem_of_mem_drop (List.mem_of_mem_filter hentry)
        rcases hchange entry with ⟨hn, heq⟩ | heq
        · rw [heq]
          exact ⟨rfl, Or.inr hhealthy⟩
        · rw [heq]
          exact ⟨rfl, Or.inl rfl⟩
      have hqueued : (journal.coalesce a number).queued skip key =
          (journal.queued skip key).map change := by
        show entriesOf key ((journal.pending.map change).drop skip) = _
        rw [← List.map_drop, entriesOf, List.filter_map]
        refine congrArg _ (List.filter_congr fun entry hentry => ?_)
        show decide ((change entry).state.sourceId = key) = _
        rw [hsource entry (List.mem_of_mem_drop hentry)]
      rw [hqueued]
      exact (hstore.gaps key).map hkeeps }

/-- An entry, or a checkpoint that is changed. -/
theorem QueueSound.emit (h : QueueSound durable skip journal)
    (hemits : Emits durable skip journal a gap)
    (hcheckpoint : isTransition = false → gap = none ∧ a.gapId = none) :
    LeavesSound durable skip (Stored durable skip a.sourceId)
      (journal.emit a gap isTransition) := by
  have happend := h.append hemits fun hfalse => (hcheckpoint hfalse).1
  unfold AvailabilityJournal.emit
  split
  · next number hget =>
    refine ⟨h.coalesce hget (hcheckpoint rfl).2 hemits.paired, ?_⟩
    show (journal.coalesce a number).sources.get? a.sourceId = _
    rw [get?_coalesce, if_pos rfl]
  · exact happend

/-! ## Calls -/

theorem LeavesSound.bind {α β : Type} {leaves : α → Prop} {finally' : β → Prop}
    {call : AvailabilityJournal.Result α} {next : α → AvailabilityJournal.Result β}
    (h : LeavesSound durable skip leaves call)
    (hnext : ∀ x, leaves x → LeavesSound durable skip finally' (next x)) :
    LeavesSound durable skip finally' (call >>= next) := by
  cases call with
  | ok x => exact hnext x h
  | error journal => exact h

/-- What is known of a source in memory. -/
theorem Stored.known (h : Stored durable skip key (journal, a)) : a.sourceId = key ∧
    NotClosed journal.nextId (recordedGaps durable skip journal a.sourceId) a.gapId ∧
    (a.unavailableSince = none → a.gapId = none) := by
  have hkey := h.sound.ofKey key a h.stored
  obtain ⟨hopen, hpaired⟩ := (h.sound.gaps key).known a h.stored
  refine ⟨hkey, ?_, hpaired⟩
  rw [hkey]
  exact hopen

/-- An entry that opens a gap or names the open one. -/
theorem notClosed_opened {id : Nat} (hid : NotClosed n gaps (some id)) (reason : Option String)
    (started : Nat) :
    NotClosed n (upsertGap gaps (some ⟨id, reason, started, none⟩)) (some id) := by
  rintro _ ⟨⟩
  refine ⟨(hid id rfl).1, fun row hrow => ?_⟩
  rw [upsertGap, get?_upsertRow, if_pos rfl] at hrow
  obtain rfl := Option.some.inj hrow
  rfl

theorem QueueSound.markUnavailable (h : QueueSound durable skip journal)
    (hopen : NotClosed journal.nextId (recordedGaps durable skip journal a.sourceId) a.gapId)
    (now : Nat) (reason : String) (since : Option Nat) :
    LeavesSound durable skip (Stored durable skip a.sourceId)
      (journal.markUnavailable a now reason since) := by
  unfold AvailabilityJournal.markUnavailable
  dsimp only
  split
  · next hsome =>
    have hpaired : a.unavailableSince = none → a.gapId = none := by
      intro hnone
      rw [hnone] at hsome
      cases hsome
    exact ⟨h.store hopen hpaired, by rw [AvailabilityJournal.store, SortedDict.get?_insert,
      if_pos rfl]⟩
  · rcases hid : a.gapId with - | id
    · -- a gap of its own, under the next id
      have hnext := h.withNextId (Nat.le_succ journal.nextId)
      have hnew : NotClosed (journal.nextId + 1)
          (recordedGaps durable skip journal a.sourceId) (some journal.nextId) := by
        rintro _ ⟨⟩
        refine ⟨Nat.lt_succ_self _, fun row hrow => ?_⟩
        rw [recordedGaps, (h.gaps a.sourceId).fresh _ le_rfl] at hrow
        cases hrow
      refine hnext.emit ⟨hnew, hnew, notClosed_opened hnew _ _, ?_⟩ ?_
      · rintro ⟨⟩
      · rintro ⟨⟩
    · rw [hid] at hopen
      have hsame := h.withNextId (le_refl journal.nextId)
      refine hsame.emit ⟨hopen, hopen, notClosed_opened hopen _ _, ?_⟩ ?_
      · rintro ⟨⟩
      · rintro ⟨⟩

/-- `ensure`: the source is in memory then. -/
theorem QueueSound.ensure (h : QueueSound durable skip journal) (key : String) (now : Nat) :
    LeavesSound durable skip (Stored durable skip key) (journal.ensure key now) := by
  unfold AvailabilityJournal.ensure
  cases hget : journal.sources.get? key with
  | some a => exact ⟨h, hget⟩
  | none =>
    obtain ⟨hqueued, hold⟩ := (h.gaps key).unknown hget
    have hfirst : (journal.firstState key now).1.sourceId = key ∧
        journal.nextId ≤ (journal.firstState key now).2.2.2 ∧
        NotClosed journal.nextId (gapsOf (durable.get? key))
          (journal.firstState key now).1.gapId := by
      unfold AvailabilityJournal.firstState
      cases hprevious : journal.previous.get? key with
      | none => exact ⟨rfl, Nat.le_succ _, .none _ _⟩
      | some state =>
        refine ⟨rfl, ?_, hold state hprevious⟩
        dsimp only
        split <;> omega
    obtain ⟨hkey, hle, hopen⟩ := hfirst
    rcases hstate : journal.firstState key now with ⟨a, since, reason, nextId⟩
    rw [hstate] at hkey hle hopen
    obtain rfl : a.sourceId = key := hkey
    refine (h.withNextId hle).markUnavailable ?_ now reason (some since)
    have hnone : recordedGaps durable skip { journal with nextId := nextId } a.sourceId =
        gapsOf (durable.get? a.sourceId) := by
      show gapsAfter _ (journal.queued skip a.sourceId) = _
      rw [hqueued]
      rfl
    rw [hnone]
    exact hopen.mono hle

/-- The open gap of a source is closed. -/
theorem notClosed_closedGap (hopen : NotClosed n gaps a.gapId) (now : Nat) :
    NotClosed n gaps ((AvailabilityJournal.closedGap a now).map GapChange.gapId) := by
  unfold AvailabilityJournal.closedGap
  split
  · next id _ hid =>
    rw [hid] at hopen
    exact hopen
  · exact .none _ _

/-- An entry of a source that has no gap any more. -/
theorem emits_closed (hopen : NotClosed journal.nextId (recordedGaps durable skip journal
    a.sourceId) a.gapId) (now : Nat) (hsource : b.sourceId = a.sourceId) (hgap : b.gapId = none) :
    Emits durable skip journal b (AvailabilityJournal.closedGap a now) where
  unsaid := by
    rw [hgap]
    exact .none _ _
  names := by
    rw [hsource]
    exact notClosed_closedGap hopen now
  said := by
    rw [hgap]
    exact .none _ _
  paired _ := hgap

theorem QueueSound.suspend (h : QueueSound durable skip journal) (key : String) (now : Nat) :
    LeavesSound durable skip (QueueSound durable skip) (journal.suspend key now) := by
  refine (h.ensure key now).bind ?_
  rintro ⟨journal, a⟩ hstored
  obtain ⟨-, hopen, -⟩ := hstored.known
  show LeavesSound _ _ _ (if a.dormant then .ok journal else _)
  split
  · exact hstored.sound
  · let b : Availability := { a with
      observedAt := now
      unavailableSince := none
      gapId := none
      reason := some "DORMANT_LIFECYCLE"
      dormant := true }
    refine (hstored.sound.emit (a := b) (emits_closed hopen now rfl rfl) ?_).bind ?_
    · rintro ⟨⟩
    · rintro ⟨journal, a⟩ hstored
      exact hstored.sound

theorem QueueSound.resume (h : QueueSound durable skip journal) (key : String) (now : Nat) :
    LeavesSound durable skip (QueueSound durable skip) (journal.resume key now) := by
  refine (h.ensure key now).bind ?_
  rintro ⟨journal, a⟩ hstored
  obtain ⟨-, hopen, -⟩ := hstored.known
  show LeavesSound _ _ _ (if a.dormant then _ else .ok journal)
  split
  · have hnext := hstored.sound.withNextId (Nat.le_succ journal.nextId)
    let b : Availability :=
      { a with dormant := false, eligibleSince := now, eligibilityId := journal.nextId }
    refine (hnext.markUnavailable (a := b) (hopen.mono (Nat.le_succ _)) now
      "LIFECYCLE_RESUMED" none).bind ?_
    rintro ⟨journal, a⟩ hstored
    exact hstored.sound
  · exact hstored.sound

theorem QueueSound.unavailable (h : QueueSound durable skip journal) (key : String) (now : Nat)
    (reason : String) (since : Option Nat) :
    LeavesSound durable skip (QueueSound durable skip)
      (journal.unavailable key now reason since) := by
  refine (h.ensure key now).bind ?_
  rintro ⟨journal, a⟩ hstored
  obtain ⟨-, hopen, -⟩ := hstored.known
  refine (hstored.sound.markUnavailable hopen now reason since).bind ?_
  rintro ⟨journal, a⟩ hstored
  exact hstored.sound

theorem QueueSound.failure (h : QueueSound durable skip journal) (key : String) (now : Nat)
    (error : String) (since : Option Nat) :
    LeavesSound durable skip (QueueSound durable skip) (journal.failure key now error since) := by
  refine (h.ensure key now).bind ?_
  rintro ⟨journal, a⟩ hstored
  obtain ⟨-, hopen, -⟩ := hstored.known
  let b : Availability :=
    { a with failures := a.failures + 1, lastError := some error, lastErrorAt := some now }
  refine (hstored.sound.markUnavailable (a := b) hopen now error since).bind ?_
  rintro ⟨journal, b⟩ hstored
  -- the entry of the failure itself names no gap
  obtain ⟨-, hopen, hpaired⟩ := hstored.known
  have hemits : Emits durable skip journal b none := ⟨hopen, .none _ _, hopen, hpaired⟩
  refine (hstored.sound.emit hemits ?_).bind ?_
  · rintro ⟨⟩
  · rintro ⟨journal, a⟩ hstored
    exact hstored.sound

theorem QueueSound.valid (h : QueueSound durable skip journal) (key : String) (now : Nat)
    (checkpoint : Bool) :
    LeavesSound durable skip (QueueSound durable skip) (journal.valid key now checkpoint) := by
  refine (h.ensure key now).bind ?_
  rintro ⟨journal, a⟩ hstored
  obtain ⟨-, hopen, hpaired⟩ := hstored.known
  show LeavesSound _ _ _ (if a.unavailableSince.isSome then _ else if _ then _ else .ok _)
  split
  · let b : Availability := { a with
      observedAt := now
      lastValid := some now
      unavailableSince := none
      gapId := none
      reason := none
      recoveries := a.recoveries + 1 }
    refine (hstored.sound.emit (a := b) (emits_closed hopen now rfl rfl) ?_).bind ?_
    · rintro ⟨⟩
    · rintro ⟨journal, a⟩ hstored
      exact hstored.sound
  · next hhealthy =>
    have hnone : a.gapId = none := hpaired (by simpa using hhealthy)
    let b : Availability := { a with observedAt := now, lastValid := some now }
    split
    · have hemits : Emits durable skip journal b none := ⟨hopen, .none _ _, hopen, hpaired⟩
      refine (hstored.sound.emit hemits fun _ => ⟨rfl, hnone⟩).bind ?_
      · rintro ⟨journal, a⟩ hstored
        exact hstored.sound
    · exact hstored.sound.store hopen hpaired

/-- **A call names no gap that is closed**, also where the queue is full. -/
theorem QueueSound.after (h : QueueSound durable skip journal) (op : JournalOp) :
    QueueSound durable skip (op.after journal) := by
  have hrun : LeavesSound durable skip (QueueSound durable skip) (op.run journal) := by
    cases op with
    | ensure key now =>
      refine (h.ensure key now).bind ?_
      rintro ⟨journal, a⟩ hstored
      exact hstored.sound
    | suspend key now => exact h.suspend key now
    | resume key now => exact h.resume key now
    | unavailable key now reason since => exact h.unavailable key now reason since
    | failure key now error since => exact h.failure key now error since
    | valid key now checkpoint => exact h.valid key now checkpoint
  rw [JournalOp.after]
  cases hresult : op.run journal with
  | ok journal =>
    rw [hresult] at hrun
    exact hrun
  | error journal =>
    rw [hresult] at hrun
    exact hrun

/-! ## Acknowledging -/

/-- An entry that the durable state has leaves the queue. -/
theorem QueueSound.popFront (h : QueueSound durable (skip + 1) journal) :
    QueueSound durable skip journal.popFront := by
  obtain ⟨entry, rest, hpending⟩ : ∃ entry rest, journal.pending = entry :: rest := by
    cases hpending : journal.pending with
    | nil =>
      have hle := h.within
      rw [hpending] at hle
      cases hle
    | cons entry rest => exact ⟨entry, rest, rfl⟩
  have hpop : journal.popFront = { journal with
      pending := rest
      pendingCheckpoints :=
        if journal.pendingCheckpoints.get? entry.state.sourceId = some entry.number then
          journal.pendingCheckpoints.erase entry.state.sourceId
        else journal.pendingCheckpoints } := by
    rw [AvailabilityJournal.popFront, hpending]
  have hold : ∀ key number, journal.popFront.pendingCheckpoints.get? key = some number →
      journal.pendingCheckpoints.get? key = some number := by
    intro key number hget
    rw [hpop] at hget
    dsimp only at hget
    split at hget
    · exact get?_erase_eq_some hget
    · exact hget
  have hmem : ∀ other ∈ journal.popFront.pending, other ∈ journal.pending := by
    intro other hother
    rw [hpop] at hother
    rw [hpending]
    exact List.mem_cons_of_mem _ hother
  exact {
    within := by
      have hle := h.within
      rw [hpending, List.length_cons] at hle
      rw [hpop]
      exact Nat.le_of_succ_le_succ hle
    numbered := by
      intro other hother
      have hnumber := h.numbered other (hmem other hother)
      rw [hpop]
      exact hnumber
    ended := fun other hother => h.ended other (hmem other hother)
    noGap := fun other hother => h.noGap other (hmem other hother)
    checkpoints := fun key number hget other hother =>
      h.checkpoints key number (hold key number hget) other (hmem other hother)
    given := by
      intro key number hget
      have hgiven := h.given key number (hold key number hget)
      rw [hpop]
      exact hgiven
    ofKey := by
      rw [hpop]
      exact h.ofKey
    gaps := by
      intro key
      have hgaps := h.gaps key
      have hqueued : journal.popFront.queued skip key = journal.queued (skip + 1) key := by
        rw [AvailabilityJournal.queued, AvailabilityJournal.queued, hpop, hpending,
          List.drop_succ_cons]
      rw [hqueued, hpop]
      exact hgaps }

theorem QueueSound.acknowledge : ∀ {count : Nat} {journal : AvailabilityJournal},
    QueueSound durable count journal → QueueSound durable 0 (journal.acknowledge count)
  | 0, _, h => h
  | _ + 1, _, h => h.popFront.acknowledge

end MarketDataRecorder
