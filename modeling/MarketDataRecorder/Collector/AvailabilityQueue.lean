import MarketDataRecorder.Collector.AvailabilityCatalog

/-!
# The queue of the journal

The calls of the journal, and what each of them and an acknowledgement does to the queue: an entry
is added at the end, or the pending checkpoint of the source is changed where it stands.

* `Appended.queued_own`, `queued_coalesce_own` — the entries of the source after a new one and a
  changed one
* `Registered` — where the checkpoint stands that can still be changed
* `registered_popFront` — entries that were committed leave the queue
* `run_eq_ok` — a call has room for what it emits, or raises
-/

namespace MarketDataRecorder

/-! ## Calls -/

inductive JournalOp where
  | ensure (key : String) (now : Nat)
  | suspend (key : String) (now : Nat)
  | resume (key : String) (now : Nat)
  | unavailable (key : String) (now : Nat) (reason : String) (since : Option Nat)
  | failure (key : String) (now : Nat) (error : String) (since : Option Nat)
  | valid (key : String) (now : Nat) (checkpoint : Bool)
  deriving DecidableEq

namespace JournalOp

def key : JournalOp → String
  | ensure key _ | suspend key _ | resume key _ | unavailable key _ _ _ | failure key _ _ _
  | valid key _ _ => key

def now : JournalOp → Nat
  | ensure _ now | suspend _ now | resume _ now | unavailable _ now _ _ | failure _ now _ _
  | valid _ now _ => now

def run (journal : AvailabilityJournal) : JournalOp → AvailabilityJournal.Result AvailabilityJournal
  | ensure key now => do return (← journal.ensure key now).1
  | suspend key now => journal.suspend key now
  | resume key now => journal.resume key now
  | unavailable key now reason since => journal.unavailable key now reason since
  | failure key now error since => journal.failure key now error since
  | valid key now checkpoint => journal.valid key now checkpoint

/-- The journal after an operation, which the full queue can have ended early. -/
def after (op : JournalOp) (journal : AvailabilityJournal) : AvailabilityJournal :=
  match op.run journal with
  | .ok journal => journal
  | .error journal => journal

/-- The entries that a call puts into the queue. -/
def emits (journal : AvailabilityJournal) (op : JournalOp) : Nat :=
  match journal.sources.get? op.key with
  | none =>
    -- a source that is seen first is unavailable, which is an entry of its own
    match op with
    | ensure _ _ | resume _ _ | unavailable _ _ _ _ => 1
    | suspend _ _ | failure _ _ _ _ | valid _ _ _ => 2
  | some a =>
    match op with
    | ensure _ _ => 0
    | suspend _ _ => if a.dormant then 0 else 1
    | resume _ _ => if a.dormant && a.unavailableSince.isNone then 1 else 0
    | unavailable _ _ _ _ => if a.unavailableSince.isNone then 1 else 0
    | failure _ _ _ _ => if a.unavailableSince.isNone then 2 else 1
    | valid _ now checkpoint =>
      if a.unavailableSince.isSome then 1
      else if checkpoint && decide (a.checkpointAt + 10000000000 ≤ now) &&
          (journal.pendingCheckpoints.get? a.sourceId).isNone then 1
      else 0

/-- The queue has room for them. -/
def hasRoom (journal : AvailabilityJournal) (op : JournalOp) : Bool :=
  op.emits journal = 0 || journal.pending.length + op.emits journal ≤ journal.capacity

end JournalOp

/-! ## The entries of a source -/

/-- The entries of a source. -/
def entriesOf (sourceId : String) (entries : List JournalEntry) : List JournalEntry :=
  entries.filter fun entry => entry.state.sourceId = sourceId

/-- The entries of a source are taken batch by batch. -/
theorem entriesOf_append (sourceId : String) (entries later : List JournalEntry) :
    entriesOf sourceId (entries ++ later) = entriesOf sourceId entries ++
      entriesOf sourceId later :=
  List.filter_append _ _

/-- The rows of a source after entries of it. -/
def persistAll (tables : Option SourceTables) (entries : List JournalEntry) : Option SourceTables :=
  entries.foldl (fun tables entry => some (writeEntry tables entry)) tables

/-- **A source's rows after a batch are made of its own entries alone.** -/
theorem get?_foldl_insert (sourceId : String) : ∀ (batch : List JournalEntry)
    (sources : SortedDict String SourceTables),
    (batch.foldl (fun sources entry => sources.insert entry.state.sourceId
      (writeEntry (sources.get? entry.state.sourceId) entry)) sources).get? sourceId =
      persistAll (sources.get? sourceId) (entriesOf sourceId batch)
  | [], _ => rfl
  | entry :: batch, sources => by
    have hcons : entriesOf sourceId (entry :: batch) =
        if decide (entry.state.sourceId = sourceId) = true then entry :: entriesOf sourceId batch
        else entriesOf sourceId batch := List.filter_cons
    rw [List.foldl_cons, get?_foldl_insert sourceId batch, SortedDict.get?_insert, hcons]
    by_cases hsource : sourceId = entry.state.sourceId
    · rw [if_pos hsource, if_pos (decide_eq_true hsource.symm), ← hsource]
      rfl
    · have hne : ¬ decide (entry.state.sourceId = sourceId) = true :=
        fun h => hsource (of_decide_eq_true h).symm
      rw [if_neg hsource, if_neg hne]

/-- Persisting a batch writes each source's own entries. -/
theorem get?_persist (catalog : AvailabilityCatalog) (batch : List JournalEntry)
    (watermark : Option (Nat × Nat)) (sourceId : String) :
    (catalog.persist batch watermark).sources.get? sourceId =
      persistAll (catalog.sources.get? sourceId) (entriesOf sourceId batch) :=
  get?_foldl_insert sourceId batch catalog.sources

/-- The entries of a source that the durable state does not have. -/
def AvailabilityJournal.queued (journal : AvailabilityJournal) (skip : Nat) (sourceId : String) :
    List JournalEntry :=
  entriesOf sourceId (journal.pending.drop skip)

/-- The checkpoint of a source that can still be changed is the last entry of the source. -/
structure Registered (pending : List JournalEntry) (sourceId : String) (number : Nat)
    (before : List JournalEntry) (entry : JournalEntry) (later : List JournalEntry) : Prop where
  split : pending = before ++ entry :: later
  hasNumber : entry.number = number
  ofSource : entry.state.sourceId = sourceId
  checkpoint : entry.isTransition = false
  noGap : entry.gap = none
  unique : ∀ other ∈ before ++ later, other.number ≠ number
  last : ∀ other ∈ later, other.state.sourceId ≠ sourceId

variable {skip : Nat} {journal journal' : AvailabilityJournal} {a a' : Availability}
  {sourceId : String}

/-- An entry stays registered when another source's comes behind it. -/
theorem Registered.append {pending before later : List JournalEntry} {entry other : JournalEntry}
    {number : Nat} (h : Registered pending sourceId number before entry later)
    (hnumber : other.number ≠ number) (hsource : other.state.sourceId ≠ sourceId) :
    Registered (pending ++ [other]) sourceId number before entry (later ++ [other]) where
  split := by rw [h.split, List.append_assoc, List.cons_append]
  hasNumber := h.hasNumber
  ofSource := h.ofSource
  checkpoint := h.checkpoint
  noGap := h.noGap
  unique x hx := by
    rcases List.mem_append.mp hx with hx | hx
    · exact h.unique x (List.mem_append_left _ hx)
    rcases List.mem_append.mp hx with hx | hx
    · exact h.unique x (List.mem_append_right _ hx)
    · rw [List.mem_singleton.mp hx]
      exact hnumber
  last x hx := by
    rcases List.mem_append.mp hx with hx | hx
    · exact h.last x hx
    · rw [List.mem_singleton.mp hx]
      exact hsource

/-- A registered number was given before. -/
theorem Registered.number_lt {pending before later : List JournalEntry} {entry : JournalEntry}
    {number bound : Nat} (h : Registered pending sourceId number before entry later)
    (hbound : ∀ other ∈ pending, other.number < bound) : number < bound := by
  rw [← h.hasNumber]
  refine hbound entry ?_
  rw [h.split]
  simp

/-! ## A new entry -/

/-- The journal after a new entry. -/
structure Appended (journal : AvailabilityJournal) (a : Availability) (isTransition : Bool)
    (entry : JournalEntry) (journal' : AvailabilityJournal) (a' : Availability) : Prop where
  state : a'.toAvailabilityState = a.toAvailabilityState
  sources : journal'.sources = journal.sources.insert a.sourceId a'
  pending : journal'.pending = journal.pending ++ [entry]
  selectionId : journal'.selectionId = journal.selectionId
  previous : journal'.previous = journal.previous
  nextId : journal'.nextId = journal.nextId
  nextNumber : journal'.nextNumber = journal.nextNumber + 1
  pendingCheckpoints : journal'.pendingCheckpoints =
    if isTransition then journal.pendingCheckpoints.erase a.sourceId
    else journal.pendingCheckpoints.insert a.sourceId journal.nextNumber
  capacity : journal'.capacity = journal.capacity

/-- **What an append does**: one entry at the end, under the next number. -/
theorem appended_of_append {gap : Option GapChange} {isTransition : Bool}
    (h : journal.append a gap isTransition = .ok (journal', a')) :
    Appended journal a isTransition (a.entry journal.nextNumber gap isTransition) journal' a' := by
  unfold AvailabilityJournal.append at h
  dsimp only at h
  split at h
  · cases h
  · obtain ⟨rfl, rfl⟩ := Prod.mk.inj (Except.ok.inj h)
    refine ⟨rfl, rfl, rfl, rfl, rfl, rfl, rfl, ?_, rfl⟩
    cases isTransition <;> rfl

section

variable {entry : JournalEntry} {isTransition : Bool}

/-- An append changes its own source only. -/
theorem Appended.get?_sources (h : Appended journal a isTransition entry journal' a')
    (other : String) : journal'.sources.get? other =
      if other = a.sourceId then some a' else journal.sources.get? other := by
  rw [h.sources, SortedDict.get?_insert]

/-- The source's queue grows by the entry. -/
theorem Appended.queued_own (h : Appended journal a isTransition entry journal' a')
    (hskip : skip ≤ journal.pending.length) (hstate : entry.state.sourceId = a.sourceId) :
    journal'.queued skip a.sourceId = journal.queued skip a.sourceId ++ [entry] := by
  rw [AvailabilityJournal.queued, h.pending, List.drop_append_of_le_length hskip, entriesOf_append]
  have hone : entriesOf a.sourceId [entry] = [entry] := by simp [entriesOf, hstate]
  rw [hone, AvailabilityJournal.queued]

/-- The other queues stay as they are. -/
theorem Appended.queued_other (h : Appended journal a isTransition entry journal' a')
    (hskip : skip ≤ journal.pending.length) (hstate : entry.state.sourceId = a.sourceId)
    {other : String} (hne : other ≠ a.sourceId) :
    journal'.queued skip other = journal.queued skip other := by
  rw [AvailabilityJournal.queued, h.pending, List.drop_append_of_le_length hskip, entriesOf_append]
  have hnone : entriesOf other [entry] = [] := by simp [entriesOf, hstate, hne.symm]
  rw [hnone, List.append_nil, AvailabilityJournal.queued]

/-- The appended entry is registered. -/
theorem Appended.registered (h : Appended journal a isTransition entry journal' a')
    (hnumber : entry.number = journal.nextNumber) (hstate : entry.state.sourceId = a.sourceId)
    (htransition : entry.isTransition = isTransition) (hgap : isTransition = false →
    entry.gap = none)
    (hnumbers : ∀ other ∈ journal.pending, other.number < journal.nextNumber)
    (hregistered : ∀ other number, journal.pendingCheckpoints.get? other = some number →
      ∃ before first later, Registered journal.pending other number before first later)
    (other : String) (number : Nat) (hget : journal'.pendingCheckpoints.get? other = some number) :
    ∃ before first later, Registered journal'.pending other number before first later := by
  have hold : other ≠ a.sourceId → journal.pendingCheckpoints.get? other = some number →
      ∃ before first later, Registered journal'.pending other number before first later := by
    intro hne hget
    obtain ⟨before, first, later, hfirst⟩ := hregistered other number hget
    rw [h.pending]
    refine ⟨before, first, later ++ [entry], hfirst.append ?_ ?_⟩
    · have := hfirst.number_lt hnumbers
      omega
    · rw [hstate]
      exact hne.symm
  rw [h.pendingCheckpoints] at hget
  cases isTransition with
  | true =>
    rw [if_pos rfl, SortedDict.get?_erase] at hget
    split at hget
    · cases hget
    · next hne => exact hold hne hget
  | false =>
    rw [if_neg Bool.false_ne_true, SortedDict.get?_insert] at hget
    split at hget
    · next hown =>
      obtain rfl := Option.some.inj hget
      refine ⟨journal.pending, entry, [], h.pending, hnumber, ?_, htransition, hgap rfl, ?_, ?_⟩
      · rw [hstate, hown]
      · intro x hx
        rw [List.append_nil] at hx
        exact (hnumbers x hx).ne
      · intro x hx
        cases hx
    · next hne => exact hold hne hget

end

/-! ## A checkpoint that is changed -/

/-- The entry of a checkpoint with another state. -/
def JournalEntry.withState (entry : JournalEntry) (a : Availability) : JournalEntry :=
  { entry with
    state := a.toAvailabilityState
    intervalEnded := a.intervalEnded
    isTransition := false }

/-- **A checkpoint is coalesced into its registered entry**, in its place. -/
theorem pending_coalesce {before later : List JournalEntry} {entry : JournalEntry} {number : Nat}
    (h : Registered journal.pending sourceId number before entry later) :
    (journal.coalesce a number).pending = before ++ entry.withState a :: later := by
  have hkeep : ∀ entries : List JournalEntry, (∀ other ∈ entries, other.number ≠ number) →
      entries.map (fun other => if other.number = number then other.withState a else other) =
        entries := by
    intro entries hne
    calc entries.map (fun other => if other.number = number then other.withState a else other)
        = entries.map id := List.map_congr_left fun other hother => if_neg (hne other hother)
      _ = entries := List.map_id _
  have hbefore := hkeep before fun other hother => h.unique other (List.mem_append_left _ hother)
  have hlater := hkeep later fun other hother => h.unique other (List.mem_append_right _ hother)
  show journal.pending.map
    (fun other => if other.number = number then other.withState a else other) =
    before ++ entry.withState a :: later
  rw [h.split, List.map_append, List.map_cons, hbefore, hlater, if_pos h.hasNumber]

/-- Skipping into a queue skips the entry, or stops before it. -/
theorem drop_split {before later : List JournalEntry} (entry : JournalEntry) (skip : Nat) :
    (before ++ entry :: later).drop skip =
      if skip ≤ before.length then before.drop skip ++ entry :: later
      else later.drop (skip - before.length - 1) := by
  rw [List.drop_append]
  split
  · next hle => rw [Nat.sub_eq_zero_of_le hle, List.drop_zero]
  · next hlt =>
    rw [List.drop_eq_nil_of_le (by omega), List.nil_append]
    obtain ⟨k, hk⟩ : ∃ k, skip - before.length = k + 1 := ⟨skip - before.length - 1, by omega⟩
    rw [hk, List.drop_succ_cons, Nat.add_sub_cancel]

theorem entriesOf_eq_nil {entries : List JournalEntry}
    (h : ∀ entry ∈ entries, entry.state.sourceId ≠ sourceId) : entriesOf sourceId entries = [] := by
  rw [entriesOf, List.filter_eq_nil_iff]
  intro entry hentry
  rw [decide_eq_true_eq]
  exact h entry hentry

/-- The entries of a source end with the entry where none of it follows. -/
theorem entriesOf_split {before later : List JournalEntry} {entry : JournalEntry}
    (hsource : entry.state.sourceId = sourceId)
    (hlast : ∀ other ∈ later, other.state.sourceId ≠ sourceId) :
    entriesOf sourceId (before ++ entry :: later) = entriesOf sourceId before ++ [entry] := by
  have hcons : entry :: later = [entry] ++ later := rfl
  rw [hcons, entriesOf_append, entriesOf_append, entriesOf_eq_nil hlast, List.append_nil]
  have hone : entriesOf sourceId [entry] = [entry] := by simp [entriesOf, hsource]
  rw [hone]

/-- The entry is none of another source's. -/
theorem entriesOf_split_other {before later : List JournalEntry} {entry : JournalEntry}
    {other : String} (hsource : entry.state.sourceId ≠ other) :
    entriesOf other (before ++ entry :: later) = entriesOf other (before ++ later) := by
  have hcons : entry :: later = [entry] ++ later := rfl
  have hnone : entriesOf other [entry] = [] := by simp [entriesOf, hsource]
  rw [hcons, entriesOf_append, entriesOf_append, entriesOf_append, hnone, List.nil_append]

/-- The queue of a source with a pending checkpoint ends with it. -/
theorem queued_coalesce_own {before later : List JournalEntry} {entry : JournalEntry} {number : Nat}
    (h : Registered journal.pending a.sourceId number before entry later)
    (hskip : skip ≤ before.length) :
    ∃ entries, journal.queued skip a.sourceId = entries ++ [entry] ∧
      (journal.coalesce a number).queued skip a.sourceId = entries ++ [entry.withState a] := by
  rw [AvailabilityJournal.queued, AvailabilityJournal.queued, pending_coalesce h,
    h.split, drop_split,
    drop_split, if_pos hskip, if_pos hskip, entriesOf_split h.ofSource h.last]
  have hstate : (entry.withState a).state.sourceId = a.sourceId := rfl
  rw [entriesOf_split hstate h.last]
  exact ⟨_, rfl, rfl⟩

/-- Coalescing changes no other source's queue. -/
theorem queued_coalesce_other {before later : List JournalEntry}
    {entry : JournalEntry} {number : Nat}
    (h : Registered journal.pending a.sourceId number before entry later) {other : String}
    (hne : other ≠ a.sourceId) :
    (journal.coalesce a number).queued skip other = journal.queued skip other := by
  rw [AvailabilityJournal.queued, AvailabilityJournal.queued, pending_coalesce h,
    h.split, drop_split,
    drop_split]
  have hstate : (entry.withState a).state.sourceId ≠ other := fun heq => hne heq.symm
  have hsource : entry.state.sourceId ≠ other := by
    rw [h.ofSource]
    exact hne.symm
  by_cases hskip : skip ≤ before.length
  · rw [if_pos hskip, if_pos hskip, entriesOf_split_other hstate, entriesOf_split_other hsource]
  · rw [if_neg hskip, if_neg hskip]

/-- The coalesced entry stays registered. -/
theorem Registered.withState {before later : List JournalEntry}
    {entry : JournalEntry} {number : Nat}
    (h : Registered journal.pending sourceId number before entry later)
    (hid : a.sourceId = sourceId) :
    Registered (before ++ entry.withState a :: later) sourceId number before (entry.withState a)
      later where
  split := rfl
  hasNumber := h.hasNumber
  ofSource := hid
  checkpoint := rfl
  noGap := h.noGap
  unique := h.unique
  last := h.last

/-- A registered checkpoint of another source is where it was. -/
theorem Registered.coalesce_other {before later : List JournalEntry} {entry : JournalEntry}
    {number : Nat} (h : Registered journal.pending a.sourceId number before entry later)
    {other : String} {otherNumber : Nat} {first last : List JournalEntry}
    {otherEntry : JournalEntry}
    (hother : Registered journal.pending other otherNumber first otherEntry last)
    (hne : other ≠ a.sourceId) :
    ∃ first' last', Registered (journal.coalesce a number).pending other otherNumber
      first' otherEntry
      last' := by
  have hdiffer : ∀ x : JournalEntry, x.number = number → x ∈ journal.pending → x = entry := by
    intro x hx hmem
    rw [h.split] at hmem
    rcases List.mem_append.mp hmem with hmem | hmem
    · exact absurd hx (h.unique x (List.mem_append_left _ hmem))
    rcases List.mem_cons.mp hmem with rfl | hmem
    · rfl
    · exact absurd hx (h.unique x (List.mem_append_right _ hmem))
  have hmap : (journal.coalesce a number).pending = journal.pending.map fun x =>
    if x.number = number then x.withState a else x := rfl
  have hsource : ∀ x ∈ journal.pending,
      (if x.number = number then x.withState a else x).state.sourceId = x.state.sourceId := by
    intro x hmem
    split
    · next hx =>
      rw [hdiffer x hx hmem, h.ofSource]
      rfl
    · rfl
  have hnumber : ∀ x : JournalEntry,
      (if x.number = number then x.withState a else x).number = x.number := by
    intro x
    split <;> rfl
  have hmem : ∀ x, x ∈ first ∨ x = otherEntry ∨ x ∈ last → x ∈ journal.pending := by
    intro x hx
    rw [hother.split]
    rcases hx with hx | rfl | hx <;> simp_all
  have hentry : otherEntry.number ≠ number := by
    intro heq
    have hsame := hdiffer otherEntry heq (hmem otherEntry (Or.inr (Or.inl rfl)))
    rw [← hother.ofSource, hsame, h.ofSource] at hne
    exact hne rfl
  refine ⟨first.map fun x => if x.number = number then x.withState a else x,
    last.map fun x => if x.number = number then x.withState a else x, ?_⟩
  refine ⟨?_, hother.hasNumber, hother.ofSource, hother.checkpoint, hother.noGap, ?_, ?_⟩
  · rw [hmap, hother.split, List.map_append, List.map_cons, if_neg hentry]
  · intro x hx
    rw [← List.map_append] at hx
    obtain ⟨y, hy, rfl⟩ := List.mem_map.mp hx
    rw [hnumber]
    exact hother.unique y hy
  · intro x hx
    obtain ⟨y, hy, rfl⟩ := List.mem_map.mp hx
    rw [hsource y (hmem y (Or.inr (Or.inr hy)))]
    exact hother.last y hy

/-- Coalescing changes its own source only. -/
theorem get?_coalesce (a : Availability) (number : Nat) (other : String) :
    (journal.coalesce a number).sources.get? other =
      if other = a.sourceId then some { a with checkpointAt := a.observedAt }
      else journal.sources.get? other :=
  SortedDict.get?_insert _ _ _ _

/-! ## Acknowledging -/

/-- A checkpoint that can be changed stays in the queue. -/
theorem registered_popFront {entry : JournalEntry} {rest : List JournalEntry}
    (hpending : journal.pending = entry :: rest)
    (hregistered : ∀ key number, journal.pendingCheckpoints.get? key = some number →
      ∃ before first later, Registered journal.pending key number before first later)
    (key : String) (number : Nat)
    (hget : journal.popFront.pendingCheckpoints.get? key = some number) :
    journal.pendingCheckpoints.get? key = some number ∧
      ∃ before first later, Registered journal.popFront.pending key number before first later := by
  have hafter : journal.popFront.pending = rest := by
    rw [AvailabilityJournal.popFront, hpending]
  have hkept : journal.pendingCheckpoints.get? key = some number ∧
      (key = entry.state.sourceId → number ≠ entry.number) := by
    rw [AvailabilityJournal.popFront, hpending] at hget
    dsimp only at hget
    split at hget
    · next hentry =>
      rw [SortedDict.get?_erase] at hget
      split at hget
      · cases hget
      · next hne => exact ⟨hget, fun heq => absurd heq hne⟩
    · next hentry =>
      refine ⟨hget, fun hkey hnumber => hentry ?_⟩
      rw [← hkey, hget, hnumber]
  obtain ⟨before, first, later, hfirst⟩ := hregistered key number hkept.1
  have hsplit := hfirst.split
  rw [hpending] at hsplit
  cases before with
  | nil =>
    obtain ⟨rfl, -⟩ := List.cons.inj hsplit
    exact absurd hfirst.hasNumber.symm (hkept.2 hfirst.ofSource.symm)
  | cons head before =>
    obtain ⟨rfl, hrest⟩ := List.cons.inj hsplit
    refine ⟨hkept.1, before, first, later, ?_⟩
    exact {
      split := hafter.trans hrest
      hasNumber := hfirst.hasNumber
      ofSource := hfirst.ofSource
      checkpoint := hfirst.checkpoint
      noGap := hfirst.noGap
      unique := fun other hmem => hfirst.unique other (List.mem_cons_of_mem _ hmem)
      last := hfirst.last }

/-! ## Room in the queue -/

/-- An append succeeds where there is room. -/
theorem exists_append (a : Availability) (gap : Option GapChange) (isTransition : Bool)
    (hroom : journal.pending.length < journal.capacity) :
    ∃ next b, journal.append a gap isTransition = .ok (next, b) := by
  unfold AvailabilityJournal.append
  rw [if_neg (by omega)]
  exact ⟨_, _, rfl⟩

/-- A checkpoint needs room where none is pending. -/
theorem exists_emit_checkpoint (hroom : journal.pendingCheckpoints.get? a.sourceId = none →
    journal.pending.length < journal.capacity) :
    ∃ next b, journal.emit a none false = .ok (next, b) := by
  unfold AvailabilityJournal.emit
  split
  · exact ⟨_, _, rfl⟩
  · next hnot =>
    refine exists_append a none false (hroom ?_)
    cases hget : journal.pendingCheckpoints.get? a.sourceId with
    | none => rfl
    | some number => exact absurd hget (hnot number rfl)

/-- What a part of a call leaves for the rest of it: a state, and a queue with so many
entries more. -/
structure LeavesRoom (journal : AvailabilityJournal) (count : Nat) (next : AvailabilityJournal) :
    Prop where
  pending : next.pending.length = journal.pending.length + count
  capacity : next.capacity = journal.capacity

/-- A source becomes unavailable where there is room for the change. -/
theorem exists_markUnavailable (a : Availability) (now : Nat) (reason : String) (since : Option Nat)
    (hroom : a.unavailableSince = none → journal.pending.length < journal.capacity) :
    ∃ next b, journal.markUnavailable a now reason since = .ok (next, b) ∧
      LeavesRoom journal (if a.unavailableSince.isNone then 1 else 0) next := by
  unfold AvailabilityJournal.markUnavailable
  dsimp only
  cases hsince : a.unavailableSince with
  | some started => exact ⟨_, _, rfl, rfl, rfl⟩
  | none =>
    have hemit : ∀ (nextId : Nat) (b : Availability) (gap : Option GapChange), ∃ next c,
        { journal with nextId := nextId }.emit b gap true = .ok (next, c) ∧
          LeavesRoom journal 1 next := by
      intro nextId b gap
      obtain ⟨next, c, hnext⟩ :=
        @exists_append { journal with nextId := nextId } b gap true (hroom hsince)
      have hafter := appended_of_append hnext
      refine ⟨next, c, hnext, ?_, hafter.capacity⟩
      rw [hafter.pending, List.length_append]
      rfl
    exact hemit _ _ _

/-- A source that is known stays as it is; one that is seen first is unavailable. -/
theorem exists_ensure (key : String) (now : Nat)
    (hroom : journal.sources.get? key = none → journal.pending.length < journal.capacity) :
    ∃ next a, journal.ensure key now = .ok (next, a) ∧
      (∀ b, journal.sources.get? key = some b → next = journal ∧ a = b) ∧
      (journal.sources.get? key = none → LeavesRoom journal 1 next ∧
        a.unavailableSince.isSome = true ∧ a.dormant = false) := by
  unfold AvailabilityJournal.ensure
  cases hget : journal.sources.get? key with
  | some a =>
    refine ⟨_, _, rfl, fun b hb => ⟨rfl, Option.some.inj hb⟩, ?_⟩
    rintro ⟨⟩
  | none =>
    dsimp only
    set first := journal.firstState key now with hfirst
    have hfresh : first.1.unavailableSince = none ∧ first.1.dormant = false := by
      rw [hfirst]
      unfold AvailabilityJournal.firstState
      dsimp only
      split <;> exact ⟨rfl, rfl⟩
    obtain ⟨next, a, hmark, hleaves⟩ :=
      @exists_markUnavailable { journal with nextId := first.2.2.2 } first.1 now first.2.2.1
        (some first.2.1) fun _ => hroom hget
    refine ⟨next, a, hmark, by rintro b ⟨⟩, fun _ => ⟨?_, ?_⟩⟩
    · rw [hfresh.1] at hleaves
      exact ⟨hleaves.pending, hleaves.capacity⟩
    · unfold AvailabilityJournal.markUnavailable at hmark
      simp only [hfresh.1, Option.isSome_none, Bool.false_eq_true, if_false] at hmark
      have hstate : ∀ (nextId : Nat) (b : Availability) (gap : Option GapChange),
          { journal with nextId := nextId }.emit b gap true = .ok (next, a) →
            a.unavailableSince = b.unavailableSince ∧ a.dormant = b.dormant := by
        intro nextId b gap hemit
        have hafter := (@appended_of_append { journal with nextId := nextId } next b a gap true
          hemit).state
        exact ⟨congrArg AvailabilityState.unavailableSince hafter,
          congrArg AvailabilityState.dormant hafter⟩
      split at hmark
      all_goals
        obtain ⟨hsince, hawake⟩ := hstate _ _ _ hmark
        exact ⟨by rw [hsince]; rfl, hawake.trans hfresh.2⟩

/-- A call with room comes past `ensure`. -/
theorem exists_ensure_of_hasRoom {op : JournalOp} (h : op.hasRoom journal = true) :
    (op.emits journal = 0 ∨ journal.pending.length + op.emits journal ≤ journal.capacity) ∧
    ∃ middle a, journal.ensure op.key op.now = .ok (middle, a) ∧
      (∀ b, journal.sources.get? op.key = some b → middle = journal ∧ a = b) ∧
      (journal.sources.get? op.key = none → LeavesRoom journal 1 middle ∧
        a.unavailableSince.isSome = true ∧ a.dormant = false) := by
  rw [JournalOp.hasRoom, Bool.or_eq_true, decide_eq_true_eq, decide_eq_true_eq] at h
  refine ⟨h, exists_ensure op.key op.now fun hget => ?_⟩
  have hfirst : 1 ≤ op.emits journal := by
    unfold JournalOp.emits
    rw [hget]
    cases op <;> simp
  omega

/-- A suspension succeeds where there is room. -/
theorem exists_suspend {key : String} {now : Nat}
    (h : (JournalOp.suspend key now).hasRoom journal = true) :
    ∃ next, journal.suspend key now = .ok next := by
  obtain ⟨h, middle, a, hensure, hknown, hseen⟩ := exists_ensure_of_hasRoom h
  change journal.ensure key now = _ at hensure
  unfold AvailabilityJournal.suspend
  rw [hensure]
  simp only [bind, Except.bind]
  by_cases hdormant : a.dormant = true
  · rw [if_pos hdormant]
    exact ⟨_, rfl⟩
  · rw [if_neg hdormant]
    have hroom : middle.pending.length < middle.capacity := by
      cases hget : journal.sources.get? key with
      | some b =>
        obtain ⟨rfl, rfl⟩ := hknown b hget
        simp [JournalOp.emits, JournalOp.key, hget, hdormant] at h
        omega
      | none =>
        obtain ⟨hleaves, -, -⟩ := hseen hget
        have hpending := hleaves.pending
        have hcapacity := hleaves.capacity
        simp [JournalOp.emits, JournalOp.key, hget] at h
        omega
    obtain ⟨next, b, hnext⟩ := @exists_append middle { a with
      observedAt := now
      unavailableSince := none
      gapId := none
      reason := some "DORMANT_LIFECYCLE"
      dormant := true } (AvailabilityJournal.closedGap a now) true hroom
    refine ⟨next, ?_⟩
    have hemit : middle.emit { a with
      observedAt := now
      unavailableSince := none
      gapId := none
      reason := some "DORMANT_LIFECYCLE"
      dormant := true } (AvailabilityJournal.closedGap a now) true = .ok (next, b) := hnext
    rw [hemit]
    rfl

/-- A resumption succeeds where there is room. -/
theorem exists_resume {key : String} {now : Nat}
    (h : (JournalOp.resume key now).hasRoom journal = true) :
    ∃ next, journal.resume key now = .ok next := by
  obtain ⟨h, middle, a, hensure, hknown, hseen⟩ := exists_ensure_of_hasRoom h
  change journal.ensure key now = _ at hensure
  unfold AvailabilityJournal.resume
  rw [hensure]
  simp only [bind, Except.bind]
  by_cases hdormant : a.dormant = true
  · rw [if_pos hdormant]
    have hroom : a.unavailableSince = none → middle.pending.length < middle.capacity := by
      intro hnone
      cases hget : journal.sources.get? key with
      | some b =>
        obtain ⟨rfl, rfl⟩ := hknown b hget
        simp [JournalOp.emits, JournalOp.key, hget, hdormant, hnone] at h
        omega
      | none =>
        obtain ⟨-, -, hawake⟩ := hseen hget
        rw [hawake] at hdormant
        cases hdormant
    obtain ⟨next, b, hnext, -⟩ :=
      @exists_markUnavailable { middle with nextId := middle.nextId + 1 }
        { a with dormant := false, eligibleSince := now, eligibilityId := middle.nextId } now
        "LIFECYCLE_RESUMED" none hroom
    rw [hnext]
    exact ⟨_, rfl⟩
  · rw [if_neg hdormant]
    exact ⟨_, rfl⟩

/-- An unavailability is recorded where there is room. -/
theorem exists_unavailable {key : String} {now : Nat} {reason : String} {since : Option Nat}
    (h : (JournalOp.unavailable key now reason since).hasRoom journal = true) :
    ∃ next, journal.unavailable key now reason since = .ok next := by
  obtain ⟨h, middle, a, hensure, hknown, hseen⟩ := exists_ensure_of_hasRoom h
  change journal.ensure key now = _ at hensure
  unfold AvailabilityJournal.unavailable
  rw [hensure]
  simp only [bind, Except.bind]
  have hroom : a.unavailableSince = none → middle.pending.length < middle.capacity := by
    intro hnone
    cases hget : journal.sources.get? key with
    | some b =>
      obtain ⟨rfl, rfl⟩ := hknown b hget
      simp [JournalOp.emits, JournalOp.key, hget, hnone] at h
      omega
    | none =>
      obtain ⟨-, hsome, -⟩ := hseen hget
      rw [hnone] at hsome
      cases hsome
  obtain ⟨next, b, hnext, -⟩ := exists_markUnavailable a now reason since hroom
  rw [hnext]
  exact ⟨_, rfl⟩

/-- A failure is recorded where there is room. -/
theorem exists_failure {key : String} {now : Nat} {error : String} {since : Option Nat}
    (h : (JournalOp.failure key now error since).hasRoom journal = true) :
    ∃ next, journal.failure key now error since = .ok next := by
  obtain ⟨h, middle, a, hensure, hknown, hseen⟩ := exists_ensure_of_hasRoom h
  change journal.ensure key now = _ at hensure
  unfold AvailabilityJournal.failure
  rw [hensure]
  simp only [bind, Except.bind]
  have hroom : middle.pending.length + (if a.unavailableSince.isNone then 1 else 0) <
      middle.capacity := by
    cases hget : journal.sources.get? key with
    | some b =>
      obtain ⟨rfl, rfl⟩ := hknown b hget
      simp only [JournalOp.emits, JournalOp.key, hget] at h
      split at h <;> split <;> simp_all
      omega
    | none =>
      obtain ⟨hleaves, hsome, -⟩ := hseen hget
      have hpending := hleaves.pending
      have hcapacity := hleaves.capacity
      have hnot : a.unavailableSince.isNone = false := by simpa using hsome
      rw [hnot, if_neg Bool.false_ne_true]
      simp [JournalOp.emits, JournalOp.key, hget] at h
      omega
  obtain ⟨marked, b, hmark, hleaves⟩ := @exists_markUnavailable middle
    { a with failures := a.failures + 1, lastError := some error, lastErrorAt := some now } now
      error
    since fun _ => by omega
  have hpending := hleaves.pending
  have hcapacity := hleaves.capacity
  dsimp only at hpending
  obtain ⟨next, c, hnext⟩ := @exists_append marked b none true (by omega)
  have hemit : marked.emit b none true = .ok (next, c) := hnext
  rw [hmark]
  dsimp only
  rw [hemit]
  exact ⟨_, rfl⟩

/-- A valid observation is recorded where there is room. -/
theorem exists_valid {key : String} {now : Nat} {checkpoint : Bool}
    (h : (JournalOp.valid key now checkpoint).hasRoom journal = true) :
    ∃ next, journal.valid key now checkpoint = .ok next := by
  obtain ⟨h, middle, a, hensure, hknown, hseen⟩ := exists_ensure_of_hasRoom h
  change journal.ensure key now = _ at hensure
  unfold AvailabilityJournal.valid
  rw [hensure]
  simp only [bind, Except.bind]
  by_cases hunavailable : a.unavailableSince.isSome = true
  · rw [if_pos hunavailable]
    have hroom : middle.pending.length < middle.capacity := by
      cases hget : journal.sources.get? key with
      | some b =>
        obtain ⟨rfl, rfl⟩ := hknown b hget
        simp [JournalOp.emits, JournalOp.key, hget, hunavailable] at h
        omega
      | none =>
        obtain ⟨hleaves, -, -⟩ := hseen hget
        have hpending := hleaves.pending
        have hcapacity := hleaves.capacity
        simp [JournalOp.emits, JournalOp.key, hget] at h
        omega
    have hemit : ∀ (b : Availability) (gap : Option GapChange),
        ∃ next c, middle.emit b gap true = .ok (next, c) :=
      fun b gap => exists_append b gap true hroom
    obtain ⟨next, c, hnext⟩ := hemit { a with
        observedAt := now
        lastValid := some now
        unavailableSince := none
        gapId := none
        reason := none
        recoveries := a.recoveries + 1 }
      (AvailabilityJournal.closedGap { a with observedAt := now, lastValid := some now } now)
    rw [hnext]
    exact ⟨_, rfl⟩
  · rw [if_neg hunavailable]
    by_cases hdue : (checkpoint && decide (a.checkpointAt + 10000000000 ≤ now)) = true
    · rw [if_pos hdue]
      obtain ⟨b, hget⟩ : ∃ b, journal.sources.get? key = some b := by
        cases hget : journal.sources.get? key with
        | some b => exact ⟨b, rfl⟩
        | none => exact absurd (hseen hget).2.1 hunavailable
      obtain ⟨rfl, rfl⟩ := hknown b hget
      obtain ⟨next, c, hnext⟩ := exists_emit_checkpoint
        (a := { a with observedAt := now, lastValid := some now }) fun hnone => by
          change middle.pendingCheckpoints.get? a.sourceId = none at hnone
          simp only [JournalOp.emits, JournalOp.key, hget, if_neg hunavailable, hdue, hnone,
            Option.isNone_none, Bool.and_true, if_true] at h
          omega
      rw [hnext]
      exact ⟨_, rfl⟩
    · rw [if_neg hdue]
      exact ⟨_, rfl⟩

/-- A call that has room for what it emits does not raise. -/
theorem exists_run {op : JournalOp} (h : op.hasRoom journal = true) :
    ∃ next, op.run journal = .ok next := by
  cases op with
  | ensure key now =>
    obtain ⟨-, middle, a, hensure, -⟩ := exists_ensure_of_hasRoom h
    change journal.ensure key now = _ at hensure
    exact ⟨middle, by rw [JournalOp.run, hensure]; rfl⟩
  | suspend key now => exact exists_suspend h
  | resume key now => exact exists_resume h
  | unavailable key now reason since => exact exists_unavailable h
  | failure key now error since => exact exists_failure h
  | valid key now checkpoint => exact exists_valid h

end MarketDataRecorder
