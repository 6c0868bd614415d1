import MarketDataRecorder.Audit.ReconnectBoundaries

/-!
# Catalogs that an audit can read

An audit turns the discontinuity events into intervals. It parses every evidence of the table, and
it converts the time of a STARTED event with an identity, and that of a COMPLETED event whose gap
was started before it. Where a conversion fails, there is no audit.

* `auditIntervals_isOk_iff` — when there are intervals
-/

namespace MarketDataRecorder

/-! ## What has to be there -/

/-- A STARTED event of the gap. -/
def OpenedBy (allowLegacySymbol : Bool) (events : List EventDocument) (gap : GapIdentity) : Prop :=
  ∃ event ∈ events, event.eventType = startedType ∧
    auditIdentity allowLegacySymbol event.evidence = some gap

/-- The times that an event is read for are integers. -/
def EventReadable (allowLegacySymbol : Bool) (before : List EventDocument) (event : EventDocument) :
    Prop :=
  ∀ gap, auditIdentity allowLegacySymbol event.evidence = some gap →
    (event.eventType = startedType →
      (evidenceTime event.evidence "gap_started_at_utc_ns").isSome = true) ∧
    (event.eventType = completedType → OpenedBy allowLegacySymbol before gap →
      (evidenceTime event.evidence "gap_ended_at_utc_ns").isSome = true)

def TimesReadable (allowLegacySymbol : Bool) (events : List EventDocument) : Prop :=
  ∀ before event after, events = before ++ event :: after →
    EventReadable allowLegacySymbol before event

/-- `json.loads` returns a value for every evidence, and every time that is read is an integer. -/
def AuditCatalog.Readable [Json.Reader] (catalog : AuditCatalog) : Prop :=
  ∃ events, catalog.events.operationalEvents = some events ∧
    TimesReadable catalog.legacyIdentitySchema events

/-! ## One event -/

variable {allowLegacySymbol : Bool}

theorem startedType_ne_completedType : startedType ≠ completedType := by decide

theorem gap_completeInterval {evidence : Value} {interval completed : CatalogGapInterval}
    (h : completeInterval evidence interval = some completed) : completed.gap = interval.gap := by
  obtain ⟨endedAt, -, hcompleted⟩ := Option.bind_eq_some_iff.mp h
  obtain rfl := Option.some.inj hcompleted
  rfl

theorem isSome_completeInterval {evidence : Value} {interval : CatalogGapInterval} :
    (completeInterval evidence interval).isSome = true ↔
      (evidenceTime evidence "gap_ended_at_utc_ns").isSome = true := by
  unfold completeInterval
  cases evidenceTime evidence "gap_ended_at_utc_ns" <;> simp

/-- A completion keeps the gaps. -/
theorem gaps_completeNewest {gap : GapIdentity} {evidence : Value} :
    ∀ {intervals completed : List CatalogGapInterval},
      completeNewest gap evidence intervals = some completed →
        completed.map CatalogGapInterval.gap = intervals.map CatalogGapInterval.gap
  | [], completed, h => by
    obtain rfl := Option.some.inj h
    rfl
  | interval :: rest, completed, h => by
    rw [completeNewest] at h
    split at h
    · obtain ⟨first, hfirst, rfl⟩ := Option.map_eq_some_iff.mp h
      rw [List.map_cons, List.map_cons, gap_completeInterval hfirst]
    · obtain ⟨rest', hrest, rfl⟩ := Option.map_eq_some_iff.mp h
      rw [List.map_cons, List.map_cons, gaps_completeNewest hrest]

/-- A completion reads its time where the gap has an interval. -/
theorem isSome_completeNewest {gap : GapIdentity} {evidence : Value} :
    ∀ {intervals : List CatalogGapInterval},
      (completeNewest gap evidence intervals).isSome = true ↔
        (gap ∈ intervals.map CatalogGapInterval.gap →
          (evidenceTime evidence "gap_ended_at_utc_ns").isSome = true)
  | [] => by simp [completeNewest]
  | interval :: rest => by
    rw [completeNewest, List.map_cons, List.mem_cons]
    split
    · next hgap =>
      rw [Option.isSome_map, isSome_completeInterval]
      simp [hgap]
    · next hgap =>
      rw [Option.isSome_map, isSome_completeNewest, or_iff_right (fun h => hgap h.symm)]

/-- The gaps with an interval after an event. -/
theorem gaps_addEvent {intervals intervals' : List CatalogGapInterval} {event : EventDocument}
    (h : addEvent allowLegacySymbol intervals event = some intervals') (gap : GapIdentity) :
    gap ∈ intervals'.map CatalogGapInterval.gap ↔
      gap ∈ intervals.map CatalogGapInterval.gap ∨ OpenedBy allowLegacySymbol [event] gap := by
  simp only [OpenedBy, List.mem_singleton, exists_eq_left]
  unfold addEvent at h
  split at h
  · next hidentity =>
    obtain rfl := Option.some.inj h
    simp [hidentity]
  · next gap' hidentity =>
    rw [hidentity, Option.some.injEq]
    split at h
    · next hstarted =>
      obtain ⟨interval, hinterval, rfl⟩ := Option.map_eq_some_iff.mp h
      obtain ⟨startedAt, -, hinterval⟩ := Option.bind_eq_some_iff.mp hinterval
      obtain rfl := Option.some.inj hinterval
      rw [List.map_cons, List.mem_cons, or_comm]
      simp [hstarted, eq_comm]
    · next hstarted =>
      simp only [hstarted, false_and, or_false]
      split at h
      · rw [gaps_completeNewest h]
      · obtain rfl := Option.some.inj h
        exact Iff.rfl

/-- An event is added where the times that it is read for are integers. -/
theorem isSome_addEvent {intervals : List CatalogGapInterval} {before : List EventDocument}
    {event : EventDocument}
    (hgaps : ∀ gap, gap ∈ intervals.map CatalogGapInterval.gap ↔
      OpenedBy allowLegacySymbol before gap) :
    (addEvent allowLegacySymbol intervals event).isSome = true ↔
      EventReadable allowLegacySymbol before event := by
  unfold addEvent EventReadable
  cases hidentity : auditIdentity allowLegacySymbol event.evidence with
  | none => simp
  | some gap =>
    simp only [Option.some.injEq, forall_eq', ← hgaps]
    by_cases hstarted : event.eventType = startedType
    · rw [if_pos hstarted, Option.isSome_map]
      have hnot : event.eventType ≠ completedType := fun h =>
        startedType_ne_completedType (hstarted.symm.trans h)
      simp only [hstarted, startedType_ne_completedType, true_implies, false_implies, and_true,
        startedInterval]
      cases evidenceTime event.evidence "gap_started_at_utc_ns" <;> simp
    · rw [if_neg hstarted]
      by_cases hcompleted : event.eventType = completedType
      · rw [if_pos hcompleted, isSome_completeNewest]
        simp only [hcompleted, startedType_ne_completedType.symm, true_implies, false_implies,
          true_and]
      · rw [if_neg hcompleted]
        simp [hstarted, hcompleted]

/-! ## All events -/

theorem isSome_foldlM_addEvent : ∀ (events before : List EventDocument)
    (intervals : List CatalogGapInterval),
    (∀ gap, gap ∈ intervals.map CatalogGapInterval.gap ↔ OpenedBy allowLegacySymbol before gap) →
    ((events.foldlM (addEvent allowLegacySymbol) intervals).isSome = true ↔
      ∀ middle event after, events = middle ++ event :: after →
        EventReadable allowLegacySymbol (before ++ middle) event)
  | [], before, intervals, _ => by simp
  | event :: events, before, intervals, hgaps => by
    have hstep : (addEvent allowLegacySymbol intervals event).isSome = true ↔
        EventReadable allowLegacySymbol before event := isSome_addEvent hgaps
    rw [List.foldlM_cons]
    cases hadd : addEvent allowLegacySymbol intervals event with
    | none =>
      rw [hadd] at hstep
      have hnot : ¬ EventReadable allowLegacySymbol before event := fun h => by
        simpa using hstep.mpr h
      refine iff_of_false (by simp) fun h => hnot ?_
      simpa using h [] event events rfl
    | some intervals' =>
      rw [hadd] at hstep
      have hreadable : EventReadable allowLegacySymbol before event := hstep.mp rfl
      have hgaps' : ∀ gap, gap ∈ intervals'.map CatalogGapInterval.gap ↔
          OpenedBy allowLegacySymbol (before ++ [event]) gap := by
        intro gap
        rw [gaps_addEvent hadd, hgaps]
        simp only [OpenedBy, List.mem_append, or_and_right, exists_or]
      show (events.foldlM (addEvent allowLegacySymbol) intervals').isSome = true ↔ _
      rw [isSome_foldlM_addEvent events _ intervals' hgaps']
      constructor
      · rintro h middle event' after hevents
        cases middle with
        | nil =>
          obtain ⟨rfl, rfl⟩ := List.cons.inj hevents
          simpa using hreadable
        | cons first middle =>
          obtain ⟨rfl, rfl⟩ := List.cons.inj hevents
          simpa using h middle event' after rfl
      · rintro h middle event' after rfl
        simpa using h (event :: middle) event' after rfl

theorem isSome_catalogIntervals {events : List EventDocument} :
    (catalogIntervals allowLegacySymbol events).isSome = true ↔
      TimesReadable allowLegacySymbol events := by
  rw [catalogIntervals, Option.isSome_map,
    isSome_foldlM_addEvent events [] [] (by simp [OpenedBy])]
  rfl

/-- **There are intervals exactly without a Catalog, or with one that can be read.** -/
theorem auditIntervals_isOk_iff [Json.Reader] {catalog : Option AuditCatalog} :
    (∃ intervals, auditIntervals catalog = .ok intervals) ↔
      ∀ c, catalog = some c → c.Readable := by
  cases catalog with
  | none => exact iff_of_true ⟨[], rfl⟩ (by simp)
  | some catalog =>
    simp only [Option.some.injEq, forall_eq', AuditCatalog.Readable, auditIntervals]
    cases catalog.events.operationalEvents with
    | none => simp
    | some events =>
      simp only [Option.some.injEq, exists_eq_left', ← isSome_catalogIntervals]
      cases catalogIntervals catalog.legacyIdentitySchema events <;> simp

end MarketDataRecorder
