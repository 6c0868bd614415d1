import Mathlib.Logic.Function.Basic
import Mathlib.Tactic.ByContra
import MarketDataRecorder.Collector.AvailabilityQueue

/-!
# The availability ledger

What the rows of `collector/availability.py` are for: a journal without a queue, that writes every
change into the rows at once. A source has one eligibility interval at a time and one gap; what is
closed stays as it is.

* `AvailabilityLedger` — the calls of the journal, each change written at once
* `SourceSound` — the rows of a source and what is known of it
* `AvailabilityLedger.Sound.apply` — a call that does not come to a suspended source keeps them
-/

namespace MarketDataRecorder

structure AvailabilityLedger where
  selectionId : Nat
  sources : SortedDict String Availability
  nextId : Nat
  rows : String → Option SourceTables

namespace AvailabilityLedger

variable (l : AvailabilityLedger)

/-- Remember a state of a source. -/
def remember (a : Availability) : AvailabilityLedger :=
  { l with sources := l.sources.insert a.sourceId a }

/-- Write a state of a source into its rows. -/
def record (a : Availability) (gap : Option GapChange) : AvailabilityLedger × Availability :=
  let a := { a with checkpointAt := a.observedAt }
  ({ l.remember a with
      rows := Function.update l.rows a.sourceId
        (some (writeEntry (l.rows a.sourceId) (a.entry 0 gap true))) }, a)

/-- `unavailable`, of a source with its state. -/
def markUnavailable (a : Availability) (now : Nat) (reason : String) (since : Option Nat) :
    AvailabilityLedger × Availability :=
  let a := { a with observedAt := now }
  if a.unavailableSince.isSome then (l.remember a, a)
  else
    let started := since.getD now
    let gapId := a.gapId.getD l.nextId
    let nextId := if a.gapId.isSome then l.nextId else l.nextId + 1
    let a := { a with unavailableSince := some started, gapId := some gapId, reason := some reason }
    { l with nextId := nextId }.record a (some ⟨gapId, some reason, started, none⟩)

/-- `ensure`, of a process that starts without a history. -/
def ensure (key : String) (now : Nat) : AvailabilityLedger × Availability :=
  match l.sources.get? key with
  | some a => (l, a)
  | none =>
    { l with nextId := l.nextId + 1 }.markUnavailable
      { sourceId := key
        selectionId := l.selectionId
        observedAt := now
        eligibleSince := now
        eligibilityId := l.nextId } now "STARTUP_UNKNOWN" (some now)

/-- `suspend`. -/
def suspend (key : String) (now : Nat) : AvailabilityLedger :=
  let (l, a) := l.ensure key now
  if a.dormant then l
  else
    let gap := AvailabilityJournal.closedGap a now
    (l.record { a with
      observedAt := now
      unavailableSince := none
      gapId := none
      reason := some "DORMANT_LIFECYCLE"
      dormant := true } gap).1

/-- `resume`. -/
def resume (key : String) (now : Nat) : AvailabilityLedger :=
  let (l, a) := l.ensure key now
  if a.dormant then
    ({ l with nextId := l.nextId + 1 }.markUnavailable
      { a with dormant := false, eligibleSince := now, eligibilityId := l.nextId } now
      "LIFECYCLE_RESUMED" none).1
  else l

/-- `unavailable`. -/
def unavailable (key : String) (now : Nat) (reason : String) (since : Option Nat) :
    AvailabilityLedger :=
  let (l, a) := l.ensure key now
  (l.markUnavailable a now reason since).1

/-- `failure`. -/
def failure (key : String) (now : Nat) (error : String) (since : Option Nat) :
    AvailabilityLedger :=
  let (l, a) := l.ensure key now
  let (l, a) := l.markUnavailable
    { a with failures := a.failures + 1, lastError := some error, lastErrorAt := some now } now
      error
    since
  (l.record a none).1

/-- `valid`. -/
def valid (key : String) (now : Nat) (checkpoint : Bool) : AvailabilityLedger :=
  let (l, a) := l.ensure key now
  let a := { a with observedAt := now, lastValid := some now }
  if a.unavailableSince.isSome then
    let gap := AvailabilityJournal.closedGap a now
    (l.record { a with
      unavailableSince := none
      gapId := none
      reason := none
      recoveries := a.recoveries + 1 } gap).1
  else if checkpoint && decide (a.checkpointAt + 10000000000 ≤ now) then (l.record a none).1
  else l.remember a

/-- A call. -/
def apply : JournalOp → AvailabilityLedger
  | .ensure key now => (l.ensure key now).1
  | .suspend key now => l.suspend key now
  | .resume key now => l.resume key now
  | .unavailable key now reason since => l.unavailable key now reason since
  | .failure key now error since => l.failure key now error since
  | .valid key now checkpoint => l.valid key now checkpoint

end AvailabilityLedger

/-! ## Rows that are closed -/

/-- What is closed in one table is the same in the other. -/
def KeepsClosed {ε : Type} (before after : SortedDict Nat (AvailabilityRow ε)) : Prop :=
  ∀ id row, before.get? id = some row → row.ended ≠ none → after.get? id = some row

theorem KeepsClosed.refl {ε : Type} (rows : SortedDict Nat (AvailabilityRow ε)) :
    KeepsClosed rows rows :=
  fun _ _ hrow _ => hrow

theorem KeepsClosed.trans {ε : Type} {first second third : SortedDict Nat (AvailabilityRow ε)}
    (h : KeepsClosed first second) (h' : KeepsClosed second third) : KeepsClosed first third :=
  fun id row hrow hended => h' id row (h id row hrow hended) hended

/-- The eligibility intervals of a source: the current one is closed exactly while the source is
dormant, and all others are. Ids from a number on were not given yet. -/
structure TidyLifecycle (n id : Nat) (dormant : Bool)
    (rows : SortedDict Nat AvailabilityInterval) : Prop where
  below : id < n
  fresh : ∀ other, n ≤ other → rows.get? other = none
  current : ∃ row, rows.get? id = some row ∧ (row.ended = none ↔ dormant = false)
  others : ∀ other row, rows.get? other = some row → other ≠ id → row.ended ≠ none

/-- The gaps of a source: the one of its state is open, and no other. -/
structure TidyGaps (n : Nat) (gapId : Option Nat) (rows : SortedDict Nat AvailabilityGap) :
    Prop where
  fresh : ∀ other, n ≤ other → rows.get? other = none
  current : ∀ id, gapId = some id → ∃ row, rows.get? id = some row
  openIff : ∀ id row, rows.get? id = some row → (row.ended = none ↔ gapId = some id)

variable {n m id started : Nat} {dormant : Bool} {gapId : Option Nat}
  {rows : SortedDict Nat AvailabilityInterval} {gaps : SortedDict Nat AvailabilityGap}
  {change : GapChange}

theorem TidyLifecycle.mono (h : TidyLifecycle n id dormant rows) (hle : n ≤ m) :
    TidyLifecycle m id dormant rows :=
  ⟨h.below.trans_le hle, fun other hother => h.fresh other (hle.trans hother), h.current, h.others⟩

theorem TidyGaps.mono (h : TidyGaps n gapId gaps) (hle : n ≤ m) : TidyGaps m gapId gaps :=
  ⟨fun other hother => h.fresh other (hle.trans hother), h.current, h.openIff⟩

/-- An open row is written again, or closed. -/
theorem TidyLifecycle.rewrite (h : TidyLifecycle n id false rows) {ended : Option Nat}
    (hended : ended = none ↔ dormant = false) :
    TidyLifecycle n id dormant (upsertRow rows id started ended ()) ∧
      KeepsClosed rows (upsertRow rows id started ended ()) := by
  obtain ⟨row, hrow, hopen⟩ := h.current
  refine ⟨⟨h.below, fun other hother => ?_, ?_, fun other row' hrow' hne => ?_⟩,
    fun other row' hrow' hclosed => ?_⟩
  · have hbelow := h.below
    rw [get?_upsertRow, if_neg (by omega)]
    exact h.fresh other hother
  · refine ⟨_, by rw [get?_upsertRow, if_pos rfl], hended⟩
  · rw [get?_upsertRow, if_neg hne] at hrow'
    exact h.others other row' hrow' hne
  · rw [get?_upsertRow, if_neg]
    · exact hrow'
    · rintro rfl
      obtain rfl := Option.some.inj (hrow.symm.trans hrow')
      exact hclosed (hopen.mpr rfl)

/-- A new interval is opened where no other one is open. -/
theorem TidyLifecycle.open (hfresh : ∀ other, n ≤ other → rows.get? other = none)
    (hclosed : ∀ other row, rows.get? other = some row → row.ended ≠ none) :
    TidyLifecycle (n + 1) n false (upsertRow rows n started none ()) ∧
      KeepsClosed rows (upsertRow rows n started none ()) ∧
      (upsertRow rows n started none ()).get? n = some ⟨started, none, ()⟩ := by
  have hnew := hfresh n le_rfl
  refine ⟨⟨Nat.lt_succ_self n, fun other hother => ?_, ⟨⟨started, none, ()⟩, ?_, by simp⟩,
    fun other row hrow hne => ?_⟩, fun other row hrow hended => ?_, ?_⟩
  · rw [get?_upsertRow, if_neg (by omega)]
    exact hfresh other (by omega)
  · rw [get?_upsertRow, if_pos rfl, hnew]
    rfl
  · rw [get?_upsertRow, if_neg hne] at hrow
    exact hclosed other row hrow
  · rw [get?_upsertRow, if_neg]
    · exact hrow
    · rintro rfl
      rw [hnew] at hrow
      cases hrow
  · rw [get?_upsertRow, if_pos rfl, hnew]
    rfl

/-- A gap is opened where none is. -/
theorem TidyGaps.open (h : TidyGaps n none gaps) :
    TidyGaps (n + 1) (some n) (upsertRow gaps n started none change) ∧
      KeepsClosed gaps (upsertRow gaps n started none change) := by
  have hnew := h.fresh n le_rfl
  refine ⟨⟨fun other hother => ?_, fun id hid => ?_, fun id row hrow => ?_⟩,
    fun other row hrow hended => ?_⟩
  · rw [get?_upsertRow, if_neg (by omega)]
    exact h.fresh other (by omega)
  · obtain rfl := Option.some.inj hid
    exact ⟨_, by rw [get?_upsertRow, if_pos rfl]⟩
  · rw [get?_upsertRow] at hrow
    split at hrow
    · next hid =>
      obtain rfl := Option.some.inj hrow
      simp [hid]
    · next hid =>
      have hopen := h.openIff id row hrow
      simp [hopen, Ne.symm hid]
  · rw [get?_upsertRow, if_neg]
    · exact hrow
    · rintro rfl
      rw [hnew] at hrow
      cases hrow

/-- The gap that is open is closed. -/
theorem TidyGaps.close (h : TidyGaps n (some id) gaps) {ended : Nat} :
    TidyGaps n none (upsertRow gaps id started (some ended) change) ∧
      KeepsClosed gaps (upsertRow gaps id started (some ended) change) := by
  obtain ⟨row, hrow⟩ := h.current id rfl
  have hopen := h.openIff id row hrow
  refine ⟨⟨fun other hother => ?_, by simp, fun other row' hrow' => ?_⟩,
    fun other row' hrow' hclosed => ?_⟩
  · have hknown : other ≠ id := by
      rintro rfl
      rw [h.fresh other hother] at hrow
      cases hrow
    rw [get?_upsertRow, if_neg hknown]
    exact h.fresh other hother
  · rw [get?_upsertRow] at hrow'
    split at hrow'
    · obtain rfl := Option.some.inj hrow'
      simp
    · next hne =>
      have hother := h.openIff other row' hrow'
      simp [hother, Ne.symm hne]
  · rw [get?_upsertRow, if_neg]
    · exact hrow'
    · rintro rfl
      obtain rfl := Option.some.inj (hrow.symm.trans hrow')
      exact hclosed (hopen.mpr rfl)

/-- What holds of the rows of a source and its state. A dormant source has no gap. -/
structure SourceSound (n : Nat) (a : Availability) (tables : SourceTables) : Prop where
  paired : a.gapId = none ↔ a.unavailableSince = none
  asleep : a.dormant = true → a.unavailableSince = none
  lifecycle : TidyLifecycle n a.eligibilityId a.dormant tables.lifecycle
  gaps : TidyGaps n a.gapId tables.gaps

/-- The eligibility intervals of a source, where it has rows. -/
def eligibilityOf (tables : Option SourceTables) : SortedDict Nat AvailabilityInterval :=
  (tables.map SourceTables.lifecycle).getD .empty

/-- The gaps of a source, where it has rows. -/
def gapsOf (tables : Option SourceTables) : SortedDict Nat AvailabilityGap :=
  (tables.map SourceTables.gaps).getD .empty

/-- What is closed in the rows of a source stays. -/
def RowsKeepClosed (before after : Option SourceTables) : Prop :=
  KeepsClosed (eligibilityOf before) (eligibilityOf after) ∧
    KeepsClosed (gapsOf before) (gapsOf after)

theorem RowsKeepClosed.refl (tables : Option SourceTables) : RowsKeepClosed tables tables :=
  ⟨.refl _, .refl _⟩

theorem RowsKeepClosed.trans {first second third : Option SourceTables}
    (h : RowsKeepClosed first second) (h' : RowsKeepClosed second third) :
    RowsKeepClosed first third :=
  ⟨h.1.trans h'.1, h.2.trans h'.2⟩

namespace AvailabilityLedger

/-- What holds of all sources. -/
structure Sound (l : AvailabilityLedger) : Prop where
  known : ∀ key a, l.sources.get? key = some a → a.sourceId = key ∧
    ∃ tables, l.rows key = some tables ∧ SourceSound l.nextId a tables
  unknown : ∀ key, l.sources.get? key = none → l.rows key = none

/-- A call that writes nothing of a suspended source, or wakes it. -/
def leavesAsleep (a : Availability) : JournalOp → Bool
  | .unavailable _ _ _ _ | .failure _ _ _ _ => false
  | .valid _ now checkpoint => !(checkpoint && decide (a.checkpointAt + 10000000000 ≤ now))
  | _ => true

/-- A call that does not write into the interval of a suspended source. -/
def awake (sources : SortedDict String Availability) (op : JournalOp) : Bool :=
  match sources.get? op.key with
  | none => true
  | some a => !a.dormant || leavesAsleep a op

variable {l : AvailabilityLedger} {a : Availability} {tables : SourceTables}

/-- What a part of a call leaves. -/
structure Leaves (l : AvailabilityLedger) (key : String)
    (result : AvailabilityLedger × Availability) :
    Prop where
  sound : result.1.Sound
  stored : result.1.sources.get? key = some result.2
  keeps : ∀ other, RowsKeepClosed (l.rows other) (result.1.rows other)

theorem Sound.source (h : l.Sound) {key : String} (hget : l.sources.get? key = some a) :
    a.sourceId = key ∧ ∃ tables, l.rows a.sourceId = some tables ∧
      SourceSound l.nextId a tables := by
  obtain ⟨hid, tables, htables, hsound⟩ := h.known key a hget
  exact ⟨hid, tables, hid ▸ htables, hsound⟩

/-- Another state of a source that its rows agree with. -/
theorem Sound.remember (h : l.Sound) (hrows : l.rows a.sourceId = some tables)
    (ha : SourceSound l.nextId a tables) : Leaves l a.sourceId (l.remember a, a) where
  sound := by
    refine ⟨fun key b hget => ?_, fun key hget => ?_⟩
    · rw [AvailabilityLedger.remember, SortedDict.get?_insert] at hget
      split at hget
      · next hkey =>
        obtain rfl := Option.some.inj hget
        exact ⟨hkey.symm, tables, hkey ▸ hrows, ha⟩
      · exact h.known key b hget
    · rw [AvailabilityLedger.remember, SortedDict.get?_insert] at hget
      split at hget
      · cases hget
      · exact h.unknown key hget
  stored := by rw [AvailabilityLedger.remember, SortedDict.get?_insert, if_pos rfl]
  keeps other := .refl _

/-- A state that is written: its rows agree with it, and keep what is closed. -/
theorem Sound.record (h : l.Sound) {n : Nat} (hle : l.nextId ≤ n) {gap : Option GapChange}
    (ha : SourceSound n a (writeEntry (l.rows a.sourceId) (a.entry 0 gap true)))
    (hkeeps : RowsKeepClosed (l.rows a.sourceId)
      (some (writeEntry (l.rows a.sourceId) (a.entry 0 gap true)))) :
    Leaves l a.sourceId ({ l with nextId := n }.record a gap) where
  sound := by
    refine ⟨fun key b hget => ?_, fun key hget => ?_⟩
    · simp only [AvailabilityLedger.record, AvailabilityLedger.remember,
        SortedDict.get?_insert] at hget
      split at hget
      · next hkey =>
        obtain rfl := Option.some.inj hget
        refine ⟨hkey.symm, _, ?_, ⟨ha.paired, ha.asleep, ha.lifecycle, ha.gaps⟩⟩
        rw [AvailabilityLedger.record, hkey]
        exact Function.update_self _ _ _
      · next hkey =>
        obtain ⟨hid, tables, hrows, hb⟩ := h.known key b hget
        refine ⟨hid, tables, ?_, ⟨hb.paired, hb.asleep, hb.lifecycle.mono hle, hb.gaps.mono hle⟩⟩
        rw [AvailabilityLedger.record]
        exact (Function.update_of_ne hkey _ _).trans hrows
    · simp only [AvailabilityLedger.record, AvailabilityLedger.remember,
        SortedDict.get?_insert] at hget
      split at hget
      · cases hget
      · next hkey =>
        rw [AvailabilityLedger.record]
        exact (Function.update_of_ne hkey _ _).trans (h.unknown key hget)
  stored := by
    rw [AvailabilityLedger.record]
    exact (SortedDict.get?_insert _ _ _ _).trans (if_pos rfl)
  keeps other := by
    by_cases hkey : other = a.sourceId
    · rw [hkey]
      have hself : ({ l with nextId := n }.record a gap).1.rows a.sourceId =
          some (writeEntry (l.rows a.sourceId) (a.entry 0 gap true)) := Function.update_self _ _ _
      rw [hself]
      exact hkeeps
    · have hother : ({ l with nextId := n }.record a gap).1.rows other = l.rows other :=
        Function.update_of_ne hkey _ _
      rw [hother]
      exact .refl _

/-! ## What a call leaves -/

/-- The state of a source that has just become unavailable. -/
def openedState (a : Availability) (gapId now : Nat) (reason : String) (since : Option Nat) :
    Availability :=
  { a with
    observedAt := now
    unavailableSince := some (since.getD now)
    gapId := some gapId
    reason := some reason }

/-- A source without a gap gets a new one. -/
theorem markUnavailable_eq (hpaired : a.gapId = none) (hhealthy : a.unavailableSince = none)
    (now : Nat) (reason : String) (since : Option Nat) :
    l.markUnavailable a now reason since =
      { l with nextId := l.nextId + 1 }.record (openedState a l.nextId now reason since)
        (some ⟨l.nextId, some reason, since.getD now, none⟩) := by
  simp [markUnavailable, openedState, hpaired, hhealthy]

/-- The entry of an awake source leaves its eligibility interval open. -/
theorem writeEntry_lifecycle {n : Nat} (hs : TidyLifecycle n a.eligibilityId false tables.lifecycle)
    (gap : Option GapChange) :
    TidyLifecycle n a.eligibilityId a.dormant
        (writeEntry (some tables) (a.entry 0 gap true)).lifecycle ∧
      KeepsClosed tables.lifecycle (writeEntry (some tables) (a.entry 0 gap true)).lifecycle := by
  refine hs.rewrite ?_
  show a.intervalEnded = none ↔ a.dormant = false
  rw [AvailabilityState.intervalEnded]
  cases a.dormant <;> simp

/-- `unavailable`, of an awake source. -/
theorem Sound.markUnavailable (h : l.Sound) (hrows : l.rows a.sourceId = some tables)
    (ha : SourceSound l.nextId a tables) (hawake : a.dormant = false) (now : Nat) (reason : String)
    (since : Option Nat) :
    Leaves l a.sourceId (l.markUnavailable a now reason since) ∧
      (l.markUnavailable a now reason since).2.dormant = false ∧
      (l.markUnavailable a now reason since).2.sourceId = a.sourceId := by
  by_cases hhealthy : a.unavailableSince = none
  · have hgap : a.gapId = none := ha.paired.mpr hhealthy
    rw [markUnavailable_eq hgap hhealthy]
    obtain ⟨hlifecycle, hclosed⟩ := @writeEntry_lifecycle
      (openedState a l.nextId now reason since) tables l.nextId (hawake ▸ ha.lifecycle)
      (some ⟨l.nextId, some reason, since.getD now, none⟩)
    have hgaps := ha.gaps
    rw [hgap] at hgaps
    obtain ⟨htidy, hkept⟩ := @TidyGaps.open l.nextId (since.getD now) tables.gaps
      ⟨l.nextId, some reason, since.getD now, none⟩ hgaps
    have hwritten : l.rows (openedState a l.nextId now reason since).sourceId = some tables := hrows
    have hleaves : Leaves l (openedState a l.nextId now reason since).sourceId
        ({ l with nextId := l.nextId + 1 }.record (openedState a l.nextId now reason since)
          (some ⟨l.nextId, some reason, since.getD now, none⟩)) := by
      refine h.record (Nat.le_succ _) ?_ ?_
      · rw [hwritten]
        exact ⟨by simp [openedState], fun hdormant => absurd (hawake.symm.trans hdormant) (by simp),
          hlifecycle.mono (Nat.le_succ _), htidy⟩
      · rw [hwritten]
        exact ⟨hclosed, hkept⟩
    exact ⟨hleaves, hawake, rfl⟩
  · have hsome : a.unavailableSince.isSome = true := by
      rw [Option.isSome_iff_ne_none]
      exact hhealthy
    have heq : l.markUnavailable a now reason since =
        (l.remember { a with observedAt := now }, { a with observedAt := now }) := by
      rw [AvailabilityLedger.markUnavailable]
      exact if_pos hsome
    rw [heq]
    have hleaves : Leaves l { a with observedAt := now }.sourceId
        (l.remember { a with observedAt := now }, { a with observedAt := now }) :=
      h.remember hrows ⟨ha.paired, ha.asleep, ha.lifecycle, ha.gaps⟩
    exact ⟨hleaves, hawake, rfl⟩

/-- A source that opens an eligibility interval with its first gap: one that is seen first, or that
wakes. -/
theorem Sound.opens (h : l.Sound) (hgap : a.gapId = none) (hhealthy : a.unavailableSince = none)
    (hnew : a.eligibilityId = l.nextId) (hawake : a.dormant = false)
    (hfresh : ∀ other, l.nextId ≤ other → (eligibilityOf (l.rows a.sourceId)).get? other = none)
    (hclosed : ∀ other row, (eligibilityOf (l.rows a.sourceId)).get? other = some row →
      row.ended ≠ none)
    (hgaps : TidyGaps l.nextId none (gapsOf (l.rows a.sourceId)))
    (now : Nat) (reason : String) (since : Option Nat) :
    Leaves l a.sourceId ({ l with nextId := l.nextId + 1 }.markUnavailable a now reason since) ∧
      ({ l with nextId := l.nextId + 1 }.markUnavailable a now reason since).2.dormant = false ∧
      (eligibilityOf (({ l with nextId := l.nextId + 1 }.markUnavailable a now reason
        since).1.rows a.sourceId)).get? l.nextId = some ⟨a.eligibleSince, none, ()⟩ := by
  rw [markUnavailable_eq hgap hhealthy]
  dsimp only
  have hended : (openedState a (l.nextId + 1) now reason since).intervalEnded = none := by
    show (if a.dormant = true then _ else none) = none
    rw [hawake]
    rfl
  have hwrites : (writeEntry (l.rows a.sourceId)
      ((openedState a (l.nextId + 1) now reason since).entry 0
        (some ⟨l.nextId + 1, some reason, since.getD now, none⟩) true)).lifecycle =
      upsertRow (eligibilityOf (l.rows a.sourceId)) l.nextId a.eligibleSince none () := by
    rw [← hnew, ← hended]
    rfl
  obtain ⟨htidy, hkept, hopened⟩ := @TidyLifecycle.open l.nextId a.eligibleSince _ hfresh hclosed
  obtain ⟨hgapTidy, hgapKept⟩ :=
    @TidyGaps.open (l.nextId + 1) (since.getD now) _
      ⟨l.nextId + 1, some reason, since.getD now, none⟩ (hgaps.mono (Nat.le_succ _))
  rw [← hwrites] at htidy hkept hopened
  have hleaves : Leaves l (openedState a (l.nextId + 1) now reason since).sourceId
      ({ l with nextId := l.nextId + 1 + 1 }.record
        (openedState a (l.nextId + 1) now reason since)
        (some ⟨l.nextId + 1, some reason, since.getD now, none⟩)) := by
    refine h.record (by omega) ?_ ⟨hkept, hgapKept⟩
    refine ⟨by simp [openedState], fun hdormant => absurd (hawake.symm.trans hdormant) (by simp),
      ?_, hgapTidy⟩
    show TidyLifecycle _ a.eligibilityId a.dormant _
    rw [hnew, hawake]
    exact htidy.mono (by omega)
  refine ⟨hleaves, hawake, ?_⟩
  have hself : ({ l with nextId := l.nextId + 1 + 1 }.record
      (openedState a (l.nextId + 1) now reason since)
      (some ⟨l.nextId + 1, some reason, since.getD now, none⟩)).1.rows a.sourceId =
      some (writeEntry (l.rows a.sourceId) ((openedState a (l.nextId + 1) now reason since).entry 0
        (some ⟨l.nextId + 1, some reason, since.getD now, none⟩) true)) :=
    Function.update_self _ _ _
  rw [hself]
  exact hopened

/-- `ensure`: the source as it was, or seen first. -/
theorem Sound.ensure (h : l.Sound) (key : String) (now : Nat) :
    Leaves l key (l.ensure key now) ∧
      (l.sources.get? key = none → (l.ensure key now).2.dormant = false) ∧
      (∀ a, l.sources.get? key = some a → l.ensure key now = (l, a)) := by
  cases hget : l.sources.get? key with
  | some a =>
    have heq : l.ensure key now = (l, a) := by rw [AvailabilityLedger.ensure, hget]
    rw [heq]
    refine ⟨⟨h, hget, fun _ => .refl _⟩, by simp, fun b hb => ?_⟩
    rw [Option.some.inj hb]
  | none =>
    have hrows := h.unknown key hget
    rw [AvailabilityLedger.ensure, hget]
    dsimp only
    obtain ⟨hleaves, hawake, -⟩ := h.opens (a := {
        sourceId := key
        selectionId := l.selectionId
        observedAt := now
        eligibleSince := now
        eligibilityId := l.nextId }) rfl rfl rfl rfl
      (by rw [hrows]; exact fun _ _ => rfl) (by rw [hrows]; rintro _ _ ⟨⟩)
      (by rw [hrows]; exact ⟨fun _ _ => rfl, by simp, by rintro _ _ ⟨⟩⟩) now "STARTUP_UNKNOWN"
      (some now)
    exact ⟨hleaves, fun _ => hawake, by simp⟩

theorem Leaves.of_eq {id key : String} {result : AvailabilityLedger × Availability}
    (h : Leaves l id result) (hid : id = key) : Leaves l key result := by
  subst hid
  exact h

theorem Leaves.trans {key : String} {first second : AvailabilityLedger × Availability}
    (h : Leaves l key first) (h' : Leaves first.1 key second) : Leaves l key second :=
  ⟨h'.sound, h'.stored, fun other => (h.keeps other).trans (h'.keeps other)⟩

/-- The gap of a state is closed, where it has one. -/
theorem TidyGaps.closed {n : Nat} {rows : SortedDict Nat AvailabilityGap}
    (h : TidyGaps n a.gapId rows) (hpaired : a.gapId = none ↔ a.unavailableSince = none)
    (now : Nat) :
    TidyGaps n none (upsertGap rows (AvailabilityJournal.closedGap a now)) ∧
      KeepsClosed rows (upsertGap rows (AvailabilityJournal.closedGap a now)) := by
  cases hgap : a.gapId with
  | none =>
    rw [AvailabilityJournal.closedGap, hpaired.mp hgap, hgap]
    rw [hgap] at h
    exact ⟨h, .refl _⟩
  | some id =>
    obtain ⟨since, hsince⟩ : ∃ since, a.unavailableSince = some since := by
      cases hsince : a.unavailableSince with
      | none =>
        rw [hpaired.mpr hsince] at hgap
        cases hgap
      | some since => exact ⟨since, rfl⟩
    rw [AvailabilityJournal.closedGap, hsince, hgap]
    rw [hgap] at h
    exact h.close

/-- A state that is written again. -/
theorem Sound.recordSame (h : l.Sound) (hrows : l.rows a.sourceId = some tables)
    (ha : SourceSound l.nextId a tables) (hawake : a.dormant = false) :
    Leaves l a.sourceId (l.record a none) := by
  obtain ⟨hlifecycle, hclosed⟩ := writeEntry_lifecycle (hawake ▸ ha.lifecycle) none
  refine h.record (le_refl _) ?_ ?_
  · rw [hrows]
    exact ⟨ha.paired, ha.asleep, hlifecycle, ha.gaps⟩
  · rw [hrows]
    exact ⟨hclosed, .refl _⟩

/-- A state that is written without the gap of the one before, awake or dormant. -/
theorem Sound.recordClosed {b : Availability} (h : l.Sound)
    (hrows : l.rows a.sourceId = some tables)
    (ha : SourceSound l.nextId a tables) (hawake : a.dormant = false)
    (hsource : b.sourceId = a.sourceId)
    (hid : b.eligibilityId = a.eligibilityId) (hgap : b.gapId = none)
    (hhealthy : b.unavailableSince = none) (now : Nat) :
    Leaves l a.sourceId (l.record b (AvailabilityJournal.closedGap a now)) := by
  have hlifecycle' : TidyLifecycle l.nextId b.eligibilityId false tables.lifecycle := by
    rw [hid, ← hawake]
    exact ha.lifecycle
  obtain ⟨hlifecycle, hclosed⟩ :=
    writeEntry_lifecycle hlifecycle' (AvailabilityJournal.closedGap a now)
  obtain ⟨hgaps, hgapsClosed⟩ := TidyGaps.closed ha.gaps ha.paired now
  have hwritten : l.rows b.sourceId = some tables := by rw [hsource, hrows]
  have hleaves : Leaves l b.sourceId (l.record b (AvailabilityJournal.closedGap a now)) := by
    refine h.record (le_refl _) ?_ ?_
    · rw [hwritten]
      exact ⟨by rw [hgap, hhealthy], fun _ => hhealthy, hlifecycle, hgap ▸ hgaps⟩
    · rw [hwritten]
      exact ⟨hclosed, hgapsClosed⟩
  rw [← hsource]
  exact hleaves

/-- A source after `ensure`, awake where the call is not for a suspended one. -/
theorem Sound.ensure_awake (h : l.Sound) (key : String) (now : Nat)
    (hawake : ∀ a, l.sources.get? key = some a → a.dormant = false) :
    (l.ensure key now).2.dormant = false := by
  obtain ⟨-, hseen, hknown⟩ := h.ensure key now
  cases hget : l.sources.get? key with
  | none => exact hseen hget
  | some a =>
    rw [hknown a hget]
    exact hawake a hget

theorem Sound.suspend (h : l.Sound) (key : String) (now : Nat) :
    (l.suspend key now).Sound ∧ ∀ other, RowsKeepClosed (l.rows other)
      ((l.suspend key now).rows other) := by
  obtain ⟨hensured, -, -⟩ := h.ensure key now
  rw [AvailabilityLedger.suspend]
  dsimp only
  split
  · exact ⟨hensured.sound, hensured.keeps⟩
  next hdormant =>
  obtain ⟨hid, tables, hrows, ha⟩ := hensured.sound.source hensured.stored
  have hleaves := hensured.sound.recordClosed (b := { (l.ensure key now).2 with
      observedAt := now
      unavailableSince := none
      gapId := none
      reason := some "DORMANT_LIFECYCLE"
      dormant := true }) hrows ha (by simpa using hdormant) rfl rfl rfl rfl now
  have hboth := hensured.trans (hleaves.of_eq hid)
  exact ⟨hboth.sound, hboth.keeps⟩

theorem Sound.unavailable (h : l.Sound) (key : String) (now : Nat) (reason : String)
    (since : Option Nat) (hawake : ∀ a, l.sources.get? key = some a → a.dormant = false) :
    (l.unavailable key now reason since).Sound ∧
      ∀ other, RowsKeepClosed (l.rows other) ((l.unavailable key now reason since).rows other) := by
  obtain ⟨hensured, -, -⟩ := h.ensure key now
  obtain ⟨hid, tables, hrows, ha⟩ := hensured.sound.source hensured.stored
  obtain ⟨hleaves, -, -⟩ :=
    hensured.sound.markUnavailable hrows ha (h.ensure_awake key now hawake) now reason since
  have hboth := hensured.trans (hleaves.of_eq hid)
  exact ⟨hboth.sound, hboth.keeps⟩

theorem Sound.failure (h : l.Sound) (key : String) (now : Nat) (error : String)
    (since : Option Nat) (hawake : ∀ a, l.sources.get? key = some a → a.dormant = false) :
    (l.failure key now error since).Sound ∧
      ∀ other, RowsKeepClosed (l.rows other) ((l.failure key now error since).rows other) := by
  obtain ⟨hensured, -, -⟩ := h.ensure key now
  obtain ⟨hid, tables, hrows, ha⟩ := hensured.sound.source hensured.stored
  obtain ⟨hleaves, hstays, -⟩ := hensured.sound.markUnavailable
    (a := { (l.ensure key now).2 with
      failures := (l.ensure key now).2.failures + 1
      lastError := some error
      lastErrorAt := some now }) hrows ⟨ha.paired, ha.asleep, ha.lifecycle, ha.gaps⟩
    (h.ensure_awake key now hawake) now error since
  obtain ⟨hid', tables', hrows', ha'⟩ := hleaves.sound.source hleaves.stored
  have hagain := hleaves.sound.recordSame hrows' ha' hstays
  have hall := (hensured.trans (hleaves.of_eq hid)).trans (hagain.of_eq (hid'.trans hid))
  exact ⟨hall.sound, hall.keeps⟩

theorem Sound.valid (h : l.Sound) (key : String) (now : Nat) (checkpoint : Bool)
    (hawake : ∀ a, l.sources.get? key = some a → a.dormant = true →
      (checkpoint && decide (a.checkpointAt + 10000000000 ≤ now)) = false) :
    (l.valid key now checkpoint).Sound ∧
      ∀ other, RowsKeepClosed (l.rows other) ((l.valid key now checkpoint).rows other) := by
  obtain ⟨hensured, hseen, hknown⟩ := h.ensure key now
  obtain ⟨hid, tables, hrows, ha⟩ := hensured.sound.source hensured.stored
  have ha' : SourceSound (l.ensure key now).1.nextId { (l.ensure key now).2 with
      observedAt := now
      lastValid := some now } tables := ⟨ha.paired, ha.asleep, ha.lifecycle, ha.gaps⟩
  rw [AvailabilityLedger.valid]
  dsimp only
  split
  · next hunavailable =>
    have hstays : (l.ensure key now).2.dormant = false := by
      cases hdormant : (l.ensure key now).2.dormant with
      | false => rfl
      | true =>
        rw [ha.asleep hdormant] at hunavailable
        cases hunavailable
    have hleaves := hensured.sound.recordClosed (b := { (l.ensure key now).2 with
        observedAt := now
        lastValid := some now
        unavailableSince := none
        gapId := none
        reason := none
        recoveries := (l.ensure key now).2.recoveries + 1 })
      (a := { (l.ensure key now).2 with observedAt := now, lastValid := some now })
      hrows ha' hstays rfl rfl rfl rfl now
    have hboth := hensured.trans (hleaves.of_eq hid)
    exact ⟨hboth.sound, hboth.keeps⟩
  split
  · next hdue =>
    have hstays : (l.ensure key now).2.dormant = false := by
      cases hget : l.sources.get? key with
      | none => exact hseen hget
      | some a =>
        rw [hknown a hget] at hdue ⊢
        cases hdormant : a.dormant with
        | false => rfl
        | true =>
          rw [hawake a hget hdormant] at hdue
          cases hdue
    have hleaves := hensured.sound.recordSame
      (a := { (l.ensure key now).2 with observedAt := now, lastValid := some now }) hrows ha' hstays
    have hboth := hensured.trans (hleaves.of_eq hid)
    exact ⟨hboth.sound, hboth.keeps⟩
  · have hleaves := hensured.sound.remember
      (a := { (l.ensure key now).2 with observedAt := now, lastValid := some now }) hrows ha'
    have hboth := hensured.trans (hleaves.of_eq hid)
    exact ⟨hboth.sound, hboth.keeps⟩

/-- `resume`. A suspended source gets a new interval. -/
theorem Sound.resume (h : l.Sound) (key : String) (now : Nat) :
    (l.resume key now).Sound ∧
      (∀ other, RowsKeepClosed (l.rows other) ((l.resume key now).rows other)) ∧
      ∀ a, l.sources.get? key = some a → a.dormant = true →
        (eligibilityOf (l.rows key)).get? l.nextId = none ∧
          (eligibilityOf ((l.resume key now).rows key)).get? l.nextId = some ⟨now, none, ()⟩ := by
  obtain ⟨hensured, hseen, hknown⟩ := h.ensure key now
  obtain ⟨hid, tables, hrows, ha⟩ := hensured.sound.source hensured.stored
  rw [AvailabilityLedger.resume]
  dsimp only
  split
  · next hdormant =>
    obtain ⟨a, hget⟩ : ∃ a, l.sources.get? key = some a := by
      cases hget : l.sources.get? key with
      | none =>
        rw [hseen hget] at hdormant
        cases hdormant
      | some a => exact ⟨a, rfl⟩
    have heq := hknown a hget
    rw [heq] at hensured hid hrows ha hdormant ⊢
    dsimp only at hid hrows ha hdormant ⊢
    have hhealthy := ha.asleep hdormant
    have hgap : a.gapId = none := ha.paired.mpr hhealthy
    have hgaps := ha.gaps
    rw [hgap] at hgaps
    obtain ⟨row, hrow, hrowOpen⟩ := ha.lifecycle.current
    have hclosed : ∀ other row, tables.lifecycle.get? other = some row → row.ended ≠ none := by
      intro other row' hrow'
      by_cases hother : other = a.eligibilityId
      · rw [hother, hrow] at hrow'
        obtain rfl := Option.some.inj hrow'
        rw [ne_eq, hrowOpen, hdormant]
        simp
      · exact ha.lifecycle.others other row' hrow' hother
    obtain ⟨hleaves, -, hopened⟩ := h.opens (a := { a with
        dormant := false
        eligibleSince := now
        eligibilityId := l.nextId }) hgap hhealthy rfl rfl
      (by dsimp only; rw [hrows]; exact ha.lifecycle.fresh)
      (by dsimp only; rw [hrows]; exact hclosed) (by dsimp only; rw [hrows]; exact hgaps) now
      "LIFECYCLE_RESUMED" none
    refine ⟨hleaves.sound, hleaves.keeps, fun b hb _ => ?_⟩
    rw [← hid]
    refine ⟨?_, hopened⟩
    rw [hrows]
    exact ha.lifecycle.fresh _ le_rfl
  · next hawake =>
    refine ⟨hensured.sound, hensured.keeps, fun a hget hdormant => ?_⟩
    rw [hknown a hget] at hawake
    exact absurd hdormant hawake

/-- **A call** that does not come to a suspended source keeps the rows sound, and what is closed. -/
theorem Sound.apply (h : l.Sound) {op : JournalOp} (hawake : awake l.sources op = true) :
    (l.apply op).Sound ∧ ∀ other, RowsKeepClosed (l.rows other) ((l.apply op).rows other) := by
  have hknown : ∀ a, l.sources.get? op.key = some a → a.dormant = true →
      leavesAsleep a op = true := by
    intro a hget hdormant
    rw [awake, hget] at hawake
    simpa [hdormant] using hawake
  cases op with
  | ensure key now => exact ⟨(h.ensure key now).1.sound, (h.ensure key now).1.keeps⟩
  | suspend key now => exact h.suspend key now
  | resume key now => exact ⟨(h.resume key now).1, (h.resume key now).2.1⟩
  | unavailable key now reason since =>
    refine h.unavailable key now reason since fun a hget => ?_
    by_contra hdormant
    cases hknown a hget (by simpa using hdormant)
  | failure key now error since =>
    refine h.failure key now error since fun a hget => ?_
    by_contra hdormant
    cases hknown a hget (by simpa using hdormant)
  | valid key now checkpoint =>
    refine h.valid key now checkpoint fun a hget hdormant => ?_
    have hnot : (!(checkpoint && decide (a.checkpointAt + 10000000000 ≤ now))) = true :=
      hknown a hget hdormant
    rwa [Bool.not_eq_true'] at hnot

/-- At most one gap of a source is open. -/
theorem Sound.gap_unique (h : l.Sound) {key : String} {first second : Nat}
    {row row' : AvailabilityGap} (hfirst : (gapsOf (l.rows key)).get? first = some row)
    (hsecond : (gapsOf (l.rows key)).get? second = some row') (hopen : row.ended = none)
    (hopen' : row'.ended = none) : first = second := by
  cases hget : l.sources.get? key with
  | none =>
    rw [h.unknown key hget] at hfirst
    cases hfirst
  | some a =>
    obtain ⟨-, tables, hrows, ha⟩ := h.known key a hget
    rw [hrows] at hfirst hsecond
    have hone := (ha.gaps.openIff first row hfirst).mp hopen
    have htwo := (ha.gaps.openIff second row' hsecond).mp hopen'
    exact Option.some.inj (hone.symm.trans htwo)

/-- The gap of a source is open exactly while it is unavailable, and has the id of its state. -/
theorem Sound.gap_open_iff (h : l.Sound) {key : String} (hget : l.sources.get? key = some a)
    {id : Nat}
    {row : AvailabilityGap} (hrow : (gapsOf (l.rows key)).get? id = some row) :
    row.ended = none ↔ a.unavailableSince.isSome = true ∧ a.gapId = some id := by
  obtain ⟨-, tables, hrows, ha⟩ := h.known key a hget
  rw [hrows] at hrow
  rw [ha.gaps.openIff id row hrow]
  refine ⟨fun hgap => ⟨?_, hgap⟩, fun hboth => hboth.2⟩
  rw [Option.isSome_iff_ne_none, ne_eq, ← ha.paired, hgap]
  exact Option.some_ne_none id

/-- A source that is unavailable has a gap that is open. -/
theorem Sound.exists_gap (h : l.Sound) {key : String} (hget : l.sources.get? key = some a)
    (hunavailable : a.unavailableSince.isSome = true) :
    ∃ id row, a.gapId = some id ∧ (gapsOf (l.rows key)).get? id = some row ∧ row.ended = none := by
  obtain ⟨-, tables, hrows, ha⟩ := h.known key a hget
  cases hgap : a.gapId with
  | none =>
    rw [ha.paired.mp hgap] at hunavailable
    cases hunavailable
  | some id =>
    obtain ⟨row, hrow⟩ := ha.gaps.current id hgap
    have hfound : (gapsOf (l.rows key)).get? id = some row := by
      rw [hrows]
      exact hrow
    exact ⟨id, row, rfl, hfound, (h.gap_open_iff hget hfound).mpr ⟨hunavailable, hgap⟩⟩

/-- The calls that end a gap: the source answers again, or is suspended. -/
def recovers : JournalOp → Bool
  | .valid _ _ _ | .suspend _ _ => true
  | _ => false

theorem rows_record (b : Availability) (gap : Option GapChange) :
    gapsOf ((l.record b gap).1.rows b.sourceId) = upsertGap (gapsOf (l.rows b.sourceId)) gap := by
  rw [AvailabilityLedger.record]
  dsimp only
  rw [Function.update_self]
  rfl

/-- **Such a call closes the gap** of a source that is unavailable, at the time of the call. -/
theorem Sound.closes (h : l.Sound) {op : JournalOp} (hop : recovers op = true)
    (hget : l.sources.get? op.key = some a) (hunavailable : a.unavailableSince.isSome = true) :
    ∃ id row since, (gapsOf (l.rows op.key)).get? id = some row ∧ row.ended = none ∧
      a.unavailableSince = some since ∧ (gapsOf ((l.apply op).rows op.key)).get? id =
        some ⟨row.started, some op.now, ⟨id, a.reason, since, some op.now⟩⟩ := by
  obtain ⟨hid, tables, -, ha⟩ := h.known op.key a hget
  obtain ⟨id, row, hgap, hrow, hopen⟩ := h.exists_gap hget hunavailable
  obtain ⟨since, hsince⟩ := Option.isSome_iff_exists.mp hunavailable
  have hensure : ∀ now, l.ensure op.key now = (l, a) := by
    intro now
    rw [AvailabilityLedger.ensure, hget]
  have hwritten : ∀ (b : Availability) (now : Nat), b.sourceId = a.sourceId →
      (gapsOf ((l.record b (some ⟨id, a.reason, since, some now⟩)).1.rows op.key)).get? id =
        some ⟨row.started, some now, ⟨id, a.reason, since, some now⟩⟩ := by
    intro b now hb
    have hkey : op.key = b.sourceId := by rw [hb, hid]
    rw [hkey, rows_record, upsertGap, get?_upsertRow, if_pos rfl, ← hkey, hrow]
    rfl
  refine ⟨id, row, since, hrow, hopen, hsince, ?_⟩
  cases op with
  | valid key now checkpoint =>
    have hclosed : AvailabilityJournal.closedGap { a with observedAt := now, lastValid := some now }
        now = some ⟨id, a.reason, since, some now⟩ := by
      simp only [AvailabilityJournal.closedGap, hsince, hgap]
    show (gapsOf ((l.valid key now checkpoint).rows key)).get? id = _
    rw [AvailabilityLedger.valid, show l.ensure key now = (l, a) from hensure now]
    dsimp only
    rw [if_pos hunavailable, hclosed]
    exact hwritten _ now rfl
  | suspend key now =>
    have hawake : ¬ a.dormant = true := by
      intro hdormant
      rw [ha.asleep hdormant] at hunavailable
      cases hunavailable
    have hclosed : AvailabilityJournal.closedGap a now = some ⟨id, a.reason, since, some now⟩ := by
      simp only [AvailabilityJournal.closedGap, hsince, hgap]
    show (gapsOf ((l.suspend key now).rows key)).get? id = _
    rw [AvailabilityLedger.suspend, show l.ensure key now = (l, a) from hensure now]
    dsimp only
    rw [if_neg hawake, hclosed]
    exact hwritten _ now rfl
  | ensure key now => cases hop
  | resume key now => cases hop
  | unavailable key now reason since => cases hop
  | failure key now error since => cases hop

end AvailabilityLedger

end MarketDataRecorder
