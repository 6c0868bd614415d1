import MarketDataRecorder.Orderbook.Reconstructor
import MarketDataRecorder.Replay.Reader

/-!
# Checkpoint seek

A replay from a checkpoint passes over the rows that the checkpoint covers. Beside the replay of the
whole stream it is a filter, and the book that it leads to is the same.

* `offerAll_filter` — a synchronized book does not need the updates that are covered already
* `checkpoint_seek` — the seek and the full replay
-/

namespace MarketDataRecorder

open ExternalSort

/-! ## Books -/

namespace LocalBookReconstructor

/-- Updates offered one after another, up to one that is not applied. -/
def offerAll (r : LocalBookReconstructor) :
    List DepthUpdate → Except String (LocalBookReconstructor × Bool)
  | [] => .ok (r, true)
  | update :: updates => do
    let (r, applied) ← r.offer update
    if applied then offerAll r updates else return (r, false)

/-- `from_checkpoint`, on the reconstructor that the constructor gives. -/
def fromCheckpoint (book : OrderBook) (intervals : List UnreliableInterval)
    (bootstrapBufferCapacity bootstrapBufferWarningCount : Nat) :
    Except String LocalBookReconstructor := do
  let restored ← create book.market book.symbol bootstrapBufferCapacity
    bootstrapBufferWarningCount none
  return { restored with
    book := some book
    state := .synchronized
    unreliableIntervals := intervals }

/-- The reconstructor is reliable with this book, which is of its market and symbol. -/
structure Synchronized (r : LocalBookReconstructor) (book : OrderBook) : Prop where
  state : r.state = .synchronized
  held : r.book = some book
  market : book.market = r.market
  symbol : book.symbol = r.symbol

variable {r s : LocalBookReconstructor} {book : OrderBook} {update : DepthUpdate}

theorem Synchronized.of_sameBook (h : r.Synchronized book) (hsame : SameBook r s) :
    s.Synchronized book :=
  ⟨hsame.state.trans h.state, hsame.book.trans h.held, h.market.trans hsame.market.symm,
    h.symbol.trans hsame.symbol.symm⟩

/-- The book behind an update that is applied to it, or covered by it. -/
def advance (book : OrderBook) (update : DepthUpdate) : OrderBook :=
  if update.finalUpdateId ≤ book.updateId then book else book.applyUpdate update

theorem le_updateId_advance (book : OrderBook) (update : DepthUpdate) :
    book.updateId ≤ (advance book update).updateId ∧
      update.finalUpdateId ≤ (advance book update).updateId := by
  unfold advance
  split
  · next hcovered => exact ⟨le_rfl, hcovered⟩
  · next hnew =>
    rw [OrderBook.applyUpdate_updateId]
    omega

/-- An update of the market and symbol that the book covers or that follows it. -/
structure Accepts (r : LocalBookReconstructor) (book : OrderBook) (update : DepthUpdate) :
    Prop where
  market : update.market = r.market
  symbol : update.symbol = r.symbol
  follows : book.updateId < update.finalUpdateId → r.gapReason book.updateId update = none

theorem Accepts.congr (h : r.Accepts book update) (hmarket : s.market = r.market)
    (hsymbol : s.symbol = r.symbol) : s.Accepts book update := by
  refine ⟨h.market.trans hmarket.symm, h.symbol.trans hsymbol.symm, fun hnew => ?_⟩
  rw [← h.follows hnew, gapReason, gapReason, hmarket]

theorem offer_of_synchronized (h : r.Synchronized book) (hmarket : update.market = r.market)
    (hsymbol : update.symbol = r.symbol) : r.offer update = r.applyLive update := by
  rw [offer, checkIdentity_eq_ok.mpr ⟨hmarket, hsymbol⟩]
  simp only [bind, Except.bind, h.state, if_true]

/-- What a synchronized reconstructor takes, and the book that it has then. -/
theorem offer_of_accepts (h : r.Synchronized book) (ha : r.Accepts book update) :
    ∃ s, r.offer update = .ok (s, true) ∧ s.Synchronized (advance book update) ∧
      s.market = r.market ∧ s.symbol = r.symbol := by
  rw [offer_of_synchronized h ha.market ha.symbol]
  obtain ⟨⟨s, applied⟩, hlive, hcases⟩ := applyLive_cases h.held (ha.market.trans h.market.symm)
    (ha.symbol.trans h.symbol.symm)
  rw [hlive]
  cases hcases with
  | stale hcovered hsame =>
    refine ⟨s, rfl, ?_, hsame.market, hsame.symbol⟩
    rw [advance, if_pos hcovered]
    exact h.of_sameBook hsame
  | gap hnew hreason _ =>
    rw [ha.follows hnew] at hreason
    cases hreason
  | applied hnew _ hsame =>
    refine ⟨s, rfl, ?_, hsame.market, hsame.symbol⟩
    rw [advance, if_neg (by omega)]
    exact ⟨hsame.state.trans h.state, hsame.book, h.market.trans hsame.market.symm,
      h.symbol.trans hsame.symbol.symm⟩

theorem accepts_of_offer (h : r.Synchronized book) (hoffer : r.offer update = .ok (s, true)) :
    r.Accepts book update := by
  obtain ⟨_, hidentity, -⟩ := except_bind_eq_ok hoffer
  obtain ⟨hmarket, hsymbol⟩ := checkIdentity_eq_ok.mp hidentity
  refine ⟨hmarket, hsymbol, fun hnew => ?_⟩
  rw [offer_of_synchronized h hmarket hsymbol] at hoffer
  obtain ⟨⟨s', applied⟩, hlive, hcases⟩ := applyLive_cases h.held (hmarket.trans h.market.symm)
    (hsymbol.trans h.symbol.symm)
  rw [hlive] at hoffer
  obtain ⟨rfl, rfl⟩ := Prod.mk.inj (Except.ok.inj hoffer)
  cases hcases with
  | stale hcovered _ => omega
  | applied _ hreason _ => exact hreason

theorem offerAll_cons {updates : List DepthUpdate} {t : LocalBookReconstructor}
    (h : r.Synchronized book) (hall : r.offerAll (update :: updates) = .ok (t, true)) :
    ∃ s : LocalBookReconstructor, r.Accepts book update ∧ s.Synchronized (advance book update) ∧
      s.market = r.market ∧ s.symbol = r.symbol ∧ s.offerAll updates = .ok (t, true) := by
  obtain ⟨⟨s, applied⟩, hoffer, hrest⟩ := except_bind_eq_ok hall
  cases applied with
  | false => cases hrest
  | true =>
    have ha := accepts_of_offer h hoffer
    obtain ⟨s', hoffer', hs', hmarket, hsymbol⟩ := offer_of_accepts h ha
    obtain ⟨rfl, -⟩ := Prod.mk.inj (Except.ok.inj (hoffer'.symm.trans hoffer))
    exact ⟨s', ha, hs', hmarket, hsymbol, hrest⟩

/-- The updates before a synchronized book are all covered by it. -/
theorem finalUpdateId_le_of_offerAll {t : LocalBookReconstructor} :
    ∀ {updates : List DepthUpdate} {r : LocalBookReconstructor} {book last : OrderBook},
      r.Synchronized book → r.offerAll updates = .ok (t, true) → t.book = some last →
      book.updateId ≤ last.updateId ∧ ∀ update ∈ updates, update.finalUpdateId ≤ last.updateId
  | [], r, book, last, h, hall, hlast => by
    obtain ⟨rfl, -⟩ := Prod.mk.inj (Except.ok.inj hall)
    obtain rfl := Option.some.inj (h.held.symm.trans hlast)
    simp
  | update :: updates, r, book, last, h, hall, hlast => by
    obtain ⟨s, -, hs, -, -, hrest⟩ := offerAll_cons h hall
    obtain ⟨hle, hforall⟩ := finalUpdateId_le_of_offerAll hs hrest hlast
    obtain ⟨hbook, hupdate⟩ := le_updateId_advance book update
    exact ⟨hbook.trans hle, List.forall_mem_cons.mpr ⟨hupdate.trans hle, hforall⟩⟩

theorem offerAll_append {t : LocalBookReconstructor} :
    ∀ {before after : List DepthUpdate} {r m : LocalBookReconstructor},
      r.offerAll before = .ok (m, true) → r.offerAll (before ++ after) = .ok (t, true) →
      m.offerAll after = .ok (t, true)
  | [], after, r, m, hbefore, hall => by
    obtain ⟨rfl, -⟩ := Prod.mk.inj (Except.ok.inj hbefore)
    exact hall
  | update :: before, after, r, m, hbefore, hall => by
    obtain ⟨⟨s, applied⟩, hoffer, hrest⟩ := except_bind_eq_ok hbefore
    cases applied with
    | false => cases hrest
    | true =>
      obtain ⟨⟨s', applied'⟩, hoffer', hrest'⟩ := except_bind_eq_ok hall
      obtain ⟨rfl, rfl⟩ := Prod.mk.inj (Except.ok.inj (hoffer'.symm.trans hoffer))
      exact offerAll_append hrest hrest'

/-- Two reconstructors with one book end with one book, when one of them is not offered what the
book covers already. -/
theorem offerAll_filter {covered : Nat} {t : LocalBookReconstructor} :
    ∀ {updates : List DepthUpdate} {r s : LocalBookReconstructor} {book : OrderBook},
      r.Synchronized book → s.Synchronized book → s.market = r.market → s.symbol = r.symbol →
      covered ≤ book.updateId → r.offerAll updates = .ok (t, true) →
      ∃ u last, s.offerAll (updates.filter fun update => covered < update.finalUpdateId) =
        .ok (u, true) ∧ t.Synchronized last ∧ u.Synchronized last
  | [], r, s, book, hr, hs, _, _, _, hall => by
    obtain ⟨rfl, -⟩ := Prod.mk.inj (Except.ok.inj hall)
    exact ⟨s, book, rfl, hr, hs⟩
  | update :: updates, r, s, book, hr, hs, hmarket, hsymbol, hcovered, hall => by
    obtain ⟨r', ha, hr', hmarket', hsymbol', hrest⟩ := offerAll_cons hr hall
    have hcovered' := hcovered.trans (le_updateId_advance book update).1
    by_cases hnew : covered < update.finalUpdateId
    · obtain ⟨s', hoffer, hs', hms, hss⟩ := offer_of_accepts hs (ha.congr hmarket hsymbol)
      obtain ⟨u, last, hu, hlast, hlast'⟩ := offerAll_filter hr' hs'
        (hms.trans (hmarket.trans hmarket'.symm))
          (hss.trans (hsymbol.trans hsymbol'.symm)) hcovered'
        hrest
      refine ⟨u, last, ?_, hlast, hlast'⟩
      rw [List.filter_cons_of_pos (by simpa using hnew), offerAll, hoffer]
      exact hu
    · -- the update is covered, so the book of the other side is still the same
      have hsame : advance book update = book := by rw [advance, if_pos (by omega)]
      rw [hsame] at hr'
      obtain ⟨u, last, hu, hlast, hlast'⟩ := offerAll_filter hr' hs (hmarket.trans hmarket'.symm)
        (hsymbol.trans hsymbol'.symm) hcovered hrest
      refine ⟨u, last, ?_, hlast, hlast'⟩
      rw [List.filter_cons_of_neg (by simpa using hnew)]
      exact hu

end LocalBookReconstructor

/-! ## Rows -/

/-- The query without its checkpoint. -/
def ReplayQuery.full (query : ReplayQuery) : ReplayQuery :=
  { query with
    checkpointId := none
    checkpointId_ne := by simp }

/-- The row is matched and lies in the range of the query. -/
def ReplayQuery.Reaches (query : ReplayQuery) (row : ReplayRow) : Prop :=
  query.matchesRow row = true ∧
    ∃ reading ∈ expectedReading query row, query.inRange reading.eventTimeNs = true

def seekError : String := "checkpoint seek encountered depth data without final_update_id"

section

variable {query : ReplayQuery} {checkpoint : CheckpointDescriptor} {row : ReplayRow}
  {datasetVersion : String}

/-- What a row does in a seek, when it makes no trouble in the full replay. -/
theorem selectRow_of_full {document : Option ReplayDocument}
    (h : selectRow datasetVersion query.full none row = .ok document) :
    (query.Reaches row ∧ row.finalUpdateId = none ∧
      selectRow datasetVersion query (some checkpoint) row = .error seekError) ∨
    ((query.Reaches row → row.finalUpdateId ≠ none) ∧
      selectRow datasetVersion query (some checkpoint) row =
        .ok (wanted query (some checkpoint) row)) := by
  have hselect : ∀ d, selectRow datasetVersion query (some checkpoint) row = .ok d →
      selectRow datasetVersion query (some checkpoint) row =
        .ok (wanted query (some checkpoint) row) := fun d hd => by rw [← selectRow_eq_ok hd, hd]
  unfold selectRow at h
  split at h
  · cases h
  next hversion =>
  split at h
  · next hmatch =>
    have hmatch' : query.matchesRow row = false := hmatch
    refine Or.inr ⟨fun hreach => ?_, hselect none ?_⟩
    · cases hmatch'.symm.trans hreach.1
    · rw [selectRow, if_neg hversion, if_pos hmatch']
  next hmatch =>
  have hmatch' : ¬ query.matchesRow row = false := hmatch
  split at h
  · cases h
  · next hreading =>
    have hreading' : resolveClock query.clock query.missingExchangeTime row = .ok none := hreading
    refine Or.inr ⟨fun hreach => ?_, hselect none ?_⟩
    · obtain ⟨-, reading, hexpected, -⟩ := hreach
      rw [← resolveClock_eq_ok hreading'] at hexpected
      cases hexpected
    · rw [selectRow, if_neg hversion, if_neg hmatch', hreading']
  · next reading hreading =>
    have hreading' : resolveClock query.clock query.missingExchangeTime row = .ok (some reading) :=
      hreading
    have hexpected : expectedReading query row = some reading :=
      (resolveClock_eq_ok hreading').symm
    split at h
    · next hrange =>
      have hrange' : query.inRange reading.eventTimeNs = false := hrange
      refine Or.inr ⟨fun hreach => ?_, hselect none ?_⟩
      · obtain ⟨-, reading', hmem, hin⟩ := hreach
        obtain rfl : reading = reading' := Option.some.inj (hexpected.symm.trans hmem)
        rw [hrange'] at hin
        cases hin
      · rw [selectRow, if_neg hversion, if_neg hmatch', hreading']
        exact if_pos hrange'
    next hrange =>
    have hrange' : ¬ query.inRange reading.eventTimeNs = false := hrange
    -- The row is in range: with a checkpoint its final id decides.
    cases hfinal : row.finalUpdateId with
    | none =>
      refine Or.inl ⟨⟨by simpa using hmatch', reading, hexpected, by simpa using hrange'⟩, rfl, ?_⟩
      rw [selectRow, if_neg hversion, if_neg hmatch', hreading']
      simp only [if_neg hrange', afterCheckpoint, hfinal]
      rfl
    | some id =>
      refine Or.inr ⟨fun _ => by simp, ?_⟩
      by_cases hlater : checkpoint.updateId < id
      · refine hselect document ?_
        rw [selectRow, if_neg hversion, if_neg hmatch', hreading']
        simp only [if_neg hrange', afterCheckpoint, hfinal, hlater, decide_true]
        exact h
      · refine hselect none ?_
        rw [selectRow, if_neg hversion, if_neg hmatch', hreading']
        simp only [if_neg hrange', afterCheckpoint, hfinal, hlater, decide_false]

/-- The seek asks for the rows of the full query that continue the checkpoint. -/
theorem wanted_eq_filter :
    wanted query (some checkpoint) row = (wanted query.full none row).filter fun document =>
      document.row.finalUpdateId.any fun id => checkpoint.updateId < id := by
  have hfull : wanted query.full none row =
      if query.matchesRow row then (expectedReading query row).bind fun reading =>
        if query.inRange reading.eventTimeNs = true ∧ continuesCheckpoint none row = true ∧
            ¬ (row.unreliable = true ∧ query.gapPolicy = .exclude) then
          some (documentOf query reading row)
        else none
      else none := rfl
  rw [hfull, wanted]
  by_cases hmatch : query.matchesRow row = true
  · rw [if_pos hmatch, if_pos hmatch]
    cases expectedReading query row with
    | none => rfl
    | some reading =>
      rw [Option.bind_some, Option.bind_some]
      by_cases hlater : continuesCheckpoint (some checkpoint) row = true
      · by_cases hkeep : query.inRange reading.eventTimeNs = true ∧
            ¬ (row.unreliable = true ∧ query.gapPolicy = .exclude)
        · rw [if_pos ⟨hkeep.1, hlater, hkeep.2⟩, if_pos ⟨hkeep.1, rfl, hkeep.2⟩]
          exact (if_pos hlater).symm
        · rw [if_neg fun h => hkeep ⟨h.1, h.2.2⟩, if_neg fun h => hkeep ⟨h.1, h.2.2⟩]
          rfl
      · rw [if_neg fun h => hlater h.2.1]
        split
        · exact (if_neg hlater).symm
        · rfl
  · rw [if_neg hmatch, if_neg hmatch]
    rfl

/-! ## The seek beside the full replay -/

/-- The events behind a checkpoint. -/
def eventsAfter (updateId : Nat) (events : List ReplayEvent) : List ReplayEvent :=
  events.filter fun e => e.row.finalUpdateId.any fun id => updateId < id

theorem mem_selectedPartitions_rows {build : OpenedBuild} (hrow : row ∈ build.rows)
    (hmatch : query.matchesRow row = true) :
    row ∈ (query.selectedPartitions build.partitions).flatMap Partition.rows := by
  obtain ⟨p, hp, hmem⟩ := List.mem_flatMap.mp hrow
  obtain ⟨hmarket, hstream⟩ := build.placed p hp row hmem
  rw [ReplayQuery.matchesRow, hmarket, hstream, Bool.and_eq_true] at hmatch
  exact List.mem_flatMap.mpr ⟨p, List.mem_filter.mpr ⟨hp, hmatch.1⟩, hmem⟩

theorem wantedDocuments_eq_filter (build : OpenedBuild) :
    wantedDocuments build query (some checkpoint) = (wantedDocuments build query.full none).filter
      fun d => d.row.finalUpdateId.any fun id => checkpoint.updateId < id := by
  rw [wantedDocuments, wantedDocuments, List.filter_filterMap]
  exact List.filterMap_congr fun row _ => wanted_eq_filter

theorem map_sorted_eq_eventsAfter (build : OpenedBuild) :
    (sorted ReplayDocument.orderKey (wantedDocuments build query (some checkpoint))).map
      (eventOf build query) =
    eventsAfter checkpoint.updateId
      ((sorted ReplayDocument.orderKey (wantedDocuments build query.full none)).map
        (eventOf build query.full)) := by
  rw [wantedDocuments_eq_filter, sorted_filter, eventsAfter, List.filter_map]
  rfl

variable {build : OpenedBuild} {runSize : Nat} {fanIn : FanIn} {events : List ReplayEvent}

/-- No row makes trouble in a full replay that returns. -/
theorem exists_selectRow_of_full (hfull : replay runSize fanIn build query.full = .ok events)
    (hrow : row ∈ (query.selectedPartitions build.partitions).flatMap Partition.rows) :
    ∃ document, selectRow build.summary.datasetVersion query.full none row = .ok document := by
  obtain ⟨_, hnone, hfull⟩ := except_bind_eq_ok hfull
  obtain ⟨found, hfound, -⟩ := except_bind_eq_ok hfull
  obtain rfl := Except.ok.inj hnone
  exact Fallible.exists_of_mapM_ok hfound hrow

theorem replay_seek_eq_ok (hcheckpoint : query.checkpointFor build.checkpoints =
    .ok (some checkpoint))
    (hfull : replay runSize fanIn build query.full = .ok events)
    (hids : ∀ row ∈ build.rows, query.Reaches row → row.finalUpdateId ≠ none) :
    replay runSize fanIn build query = .ok (eventsAfter checkpoint.updateId events) := by
  have hreturns : ∃ events', replay runSize fanIn build query = .ok events' := by
    have hrows : ∀ row ∈ (query.selectedPartitions build.partitions).flatMap Partition.rows,
        ∃ d, selectRow build.summary.datasetVersion query (some checkpoint) row = .ok d := by
      intro row hrow
      obtain ⟨document, hdocument⟩ := exists_selectRow_of_full hfull hrow
      rcases selectRow_of_full hdocument with ⟨hreach, hnone, -⟩ | ⟨-, hselect⟩
      · exact absurd hnone (hids row (mem_rows_of_mem_selectedPartitions hrow) hreach)
      · exact ⟨_, hselect⟩
    obtain ⟨found, hfound⟩ := Fallible.exists_mapM_ok hrows
    rw [replay, hcheckpoint]
    simp only [bind, Except.bind, hfound]
    exact ⟨_, rfl⟩
  obtain ⟨events', hevents'⟩ := hreturns
  obtain ⟨found, hfound, rfl⟩ := replay_eq_ok hevents'
  obtain ⟨_, hnone, rfl⟩ := replay_eq_ok hfull
  obtain rfl := Except.ok.inj (hcheckpoint.symm.trans hfound)
  obtain rfl := Except.ok.inj hnone
  rw [hevents', map_sorted_eq_eventsAfter]

theorem replay_seek_eq_error
    (hcheckpoint : query.checkpointFor build.checkpoints = .ok (some checkpoint))
    (hfull : replay runSize fanIn build query.full = .ok events)
    (hmissing : ∃ row ∈ build.rows, query.Reaches row ∧ row.finalUpdateId = none) :
    replay runSize fanIn build query = .error seekError := by
  obtain ⟨row, hrow, hreach, hnone⟩ := hmissing
  have hselected := mem_selectedPartitions_rows hrow hreach.1
  have herror : ∀ row' ∈ (query.selectedPartitions build.partitions).flatMap Partition.rows, ∀ e,
      selectRow build.summary.datasetVersion query (some checkpoint) row' = .error e →
      e = seekError := by
    intro row' hrow' e he
    obtain ⟨document, hdocument⟩ := exists_selectRow_of_full hfull hrow'
    rcases selectRow_of_full hdocument with ⟨-, -, hselect⟩ | ⟨-, hselect⟩
    · exact Except.error.inj (he.symm.trans hselect)
    · cases he.symm.trans hselect
  rw [replay, hcheckpoint]
  cases hfound : ((query.selectedPartitions build.partitions).flatMap Partition.rows).mapM
      (selectRow build.summary.datasetVersion query (some checkpoint)) with
  | error e =>
    obtain ⟨row', hrow', he⟩ := Fallible.exists_of_mapM_error hfound
    simp only [bind, Except.bind, hfound, herror row' hrow' e he]
  | ok found =>
    obtain ⟨d, hd⟩ := Fallible.exists_of_mapM_ok hfound hselected
    obtain ⟨document, hdocument⟩ := exists_selectRow_of_full hfull hselected
    rcases selectRow_of_full hdocument with ⟨-, -, hselect⟩ | ⟨hids, -⟩
    · cases hd.symm.trans hselect
    · exact absurd hnone (hids hreach)

/-- The updates of events; an event without one is passed over. -/
def updatesOf (updateOf : ReplayRow → Option DepthUpdate) (events : List ReplayEvent) :
    List DepthUpdate :=
  events.filterMap fun e => updateOf e.row

theorem updatesOf_eventsAfter {updateOf : ReplayRow → Option DepthUpdate}
    (hupdate : ∀ row update, updateOf row = some update →
      row.finalUpdateId = some update.finalUpdateId) (covered : Nat) (events : List ReplayEvent) :
    updatesOf updateOf (eventsAfter covered events) =
      (updatesOf updateOf events).filter fun update => covered < update.finalUpdateId := by
  rw [updatesOf, updatesOf, eventsAfter, List.filterMap_filter, List.filter_filterMap]
  refine List.filterMap_congr fun e _ => ?_
  cases hrow : updateOf e.row with
  | none => simp
  | some update =>
    rw [hupdate e.row update hrow, Option.any_some]
    rfl

end

/--
A checkpoint seek beside the full replay of its query. Where every row that is reached carries a
final update id, the seek yields exactly the events of the full replay behind the checkpoint, in
their order, and they lead from the checkpoint's book to the book of the full replay; where a
reached row carries none, the seek is refused.
-/
theorem checkpoint_seek (build : OpenedBuild) (query : ReplayQuery)
    (checkpoint : CheckpointDescriptor) (runSize : Nat) (fanIn : FanIn) (events : List ReplayEvent)
    (hcheckpoint : query.checkpointFor build.checkpoints = .ok (some checkpoint))
    (hfull : replay runSize fanIn build query.full = .ok events) :
    ((∀ row ∈ build.rows, query.Reaches row → row.finalUpdateId ≠ none) →
      replay runSize fanIn build query = .ok (eventsAfter checkpoint.updateId events)) ∧
    ((∃ row ∈ build.rows, query.Reaches row ∧ row.finalUpdateId = none) →
      replay runSize fanIn build query = .error seekError) ∧
    ∀ (updateOf : ReplayRow → Option DepthUpdate), (∀ row update, updateOf row = some update →
        row.finalUpdateId = some update.finalUpdateId) →
      ∀ before after, events = before ++ after →
      ∀ (start middle last restored : LocalBookReconstructor) (first book : OrderBook),
        start.Synchronized first →
        start.offerAll (updatesOf updateOf before) = .ok (middle, true) →
        middle.Synchronized book → book.updateId = checkpoint.updateId →
        start.offerAll (updatesOf updateOf events) = .ok (last, true) →
        restored.Synchronized book →
        ∃ sought final, restored.offerAll
            (updatesOf updateOf (eventsAfter checkpoint.updateId events)) = .ok (sought, true) ∧
          last.Synchronized final ∧ sought.Synchronized final := by
  refine ⟨replay_seek_eq_ok hcheckpoint hfull, replay_seek_eq_error hcheckpoint hfull, ?_⟩
  intro updateOf hupdate before after hevents start middle last restored first book hstart hbefore
    hmiddle hid hall hrestored
  subst hevents
  have hsplit : updatesOf updateOf (before ++ after) =
      updatesOf updateOf before ++ updatesOf updateOf after := List.filterMap_append
  rw [hsplit] at hall
  have hafter := LocalBookReconstructor.offerAll_append hbefore hall
  -- nothing before the checkpoint goes beyond it
  have hcovered := (LocalBookReconstructor.finalUpdateId_le_of_offerAll hstart
    hbefore hmiddle.held).2
  have hnone : (updatesOf updateOf before).filter
      (fun update => decide (checkpoint.updateId < update.finalUpdateId)) = [] := by
    rw [List.filter_eq_nil_iff]
    intro update hmem
    have := hcovered update hmem
    simp only [decide_eq_true_eq]
    omega
  rw [updatesOf_eventsAfter hupdate, hsplit, List.filter_append, hnone, List.nil_append]
  exact LocalBookReconstructor.offerAll_filter hmiddle hrestored
    (hrestored.market.symm.trans hmiddle.market) (hrestored.symbol.symm.trans hmiddle.symbol)
    hid.ge hafter

/-- A build of depth rows, with a checkpoint at update 150. -/
def depthBuild (rows : List ReplayRow)
    (hrows : ∀ row ∈ rows, row.market = "um_perpetual" ∧ row.stream = "diff_depth")
    (hplaces : (rows.map ReplayRow.place).Nodup) : OpenedBuild where
  summary := ⟨"build", "normalized-dataset.v2"⟩
  partitions := [⟨"um_perpetual", "diff_depth", rows⟩]
  checkpoints := [⟨"checkpoint", "um_perpetual", "BTCUSDT", 150⟩]
  placed := by simpa using hrows
  places_nodup := by simpa using hplaces

def seekQuery : ReplayQuery where
  markets := ["um_perpetual"]
  streams := ["diff_depth"]
  checkpointId := some "checkpoint"
  symbol_ne := btcusdt_ne
  range := openRange

/-- Two depth rows, one up to the checkpoint and one behind it. -/
def sampleDepthBuild : OpenedBuild :=
  depthBuild [sampleRow "diff_depth" 1 [("final_update_id", 170)],
    sampleRow "diff_depth" 0 [("final_update_id", 150)]] (by simp [sampleRow]) (by decide)

/-- A depth row and the row of a server shutdown. -/
def shutdownBuild : OpenedBuild :=
  depthBuild [sampleRow "diff_depth" 0 [("final_update_id", 170)], sampleRow "diff_depth" 1 []]
    (by simp [sampleRow]) (by decide)

def sampleDepthEvent (ordinal finalUpdateId : Nat) : ReplayEvent where
  datasetVersion := "normalized-dataset.v2"
  buildId := "build"
  orderVersion := replayOrderVersion
  clock := .receiveTime
  eventTimeNs := 1000 + ordinal
  usedReceiveTimeFallback := false
  isUnreliable := false
  row := sampleRow "diff_depth" ordinal [("final_update_id", finalUpdateId)]

def seekUpdate (first last previous : Nat) (h : first ≤ last) : DepthUpdate where
  market := .umPerpetual
  symbol := "BTCUSDT"
  firstUpdateId := first
  finalUpdateId := last
  previousFinalUpdateId := some previous
  bids := []
  asks := [sampleLevel]
  receiveTimeUtcNs := 1000
  market_mem := by decide
  symbol_ne := btcusdt_ne
  first_le_final := h
  previous_spot := by rintro ⟨⟩
  previous_futures := fun _ => rfl

/-- The updates of the sample rows. -/
def seekUpdateOf (row : ReplayRow) : Option DepthUpdate :=
  [seekUpdate 141 150 140 (by decide), seekUpdate 151 170 150 (by decide)].find? fun update =>
    row.finalUpdateId = some update.finalUpdateId

theorem finalUpdateId_of_seekUpdateOf (row : ReplayRow) (update : DepthUpdate)
    (h : seekUpdateOf row = some update) : row.finalUpdateId = some update.finalUpdateId := by
  simpa using List.find?_some h

/-- A book without levels. -/
def emptyBook (updateId : Nat) : OrderBook :=
  ⟨.umPerpetual, "BTCUSDT", updateId, .empty, .empty, none, none⟩

/-- The book at the checkpoint. -/
def seekBook : OrderBook := (emptyBook 140).applyUpdate (seekUpdate 141 150 140 (by decide))

/-- A reconstructor that is synchronized with a book. -/
def seekReconstructor (book : OrderBook) : LocalBookReconstructor :=
  { sampleReconstructor with market := .umPerpetual, state := .synchronized, book := some book }

theorem synchronized_seekReconstructor {book : OrderBook} (hmarket : book.market = .umPerpetual)
    (hsymbol : book.symbol = "BTCUSDT") : (seekReconstructor book).Synchronized book :=
  ⟨rfl, rfl, hmarket, hsymbol⟩

/-- The seek yields the event behind the checkpoint, which leads from the checkpoint's book to one
at its id; and with the row of a server shutdown it is refused. -/
theorem checkpoint_seek_sample :
    replay 1 ⟨2, le_rfl⟩ sampleDepthBuild seekQuery = .ok [sampleDepthEvent 1 170] ∧
      replay 1 ⟨2, le_rfl⟩ shutdownBuild seekQuery = .error seekError ∧
      ∃ sought final, (seekReconstructor seekBook).offerAll
          (updatesOf seekUpdateOf [sampleDepthEvent 1 170]) = .ok (sought, true) ∧
        sought.Synchronized final ∧ final.updateId = 170 := by
  have hfull : replay 1 ⟨2, le_rfl⟩ sampleDepthBuild seekQuery.full =
      .ok [sampleDepthEvent 0 150, sampleDepthEvent 1 170] := by decide +kernel
  have hids : ∀ row ∈ sampleDepthBuild.rows, seekQuery.Reaches row → row.finalUpdateId ≠ none := by
    intro row hrow _
    have hrows : sampleDepthBuild.rows = [sampleRow "diff_depth" 1 [("final_update_id", 170)],
      sampleRow "diff_depth" 0 [("final_update_id", 150)]] := rfl
    rw [hrows] at hrow
    rcases List.mem_cons.mp hrow with rfl | hrow
    · decide
    · rw [List.mem_singleton.mp hrow]
      decide
  obtain ⟨events, hshutdown⟩ : ∃ events,
      replay 1 ⟨2, le_rfl⟩ shutdownBuild seekQuery.full = .ok events := ⟨_, rfl⟩
  have hseek := checkpoint_seek sampleDepthBuild seekQuery
    ⟨"checkpoint", "um_perpetual", "BTCUSDT", 150⟩ 1 ⟨2, le_rfl⟩ _ rfl hfull
  have hrefused := (checkpoint_seek shutdownBuild seekQuery
    ⟨"checkpoint", "um_perpetual", "BTCUSDT", 150⟩ 1 ⟨2, le_rfl⟩ _ rfl hshutdown).2.1
      ⟨sampleRow "diff_depth" 1 [], by simp [OpenedBuild.rows, shutdownBuild, depthBuild],
        ⟨rfl, _, rfl, rfl⟩, rfl⟩
  refine ⟨hseek.1 hids, hrefused, ?_⟩
  have hstart := @synchronized_seekReconstructor (emptyBook 140) rfl rfl
  obtain ⟨middle, hbefore, hmiddle⟩ : ∃ middle, (seekReconstructor (emptyBook 140)).offerAll
      (updatesOf seekUpdateOf [sampleDepthEvent 0 150]) = .ok (middle, true) ∧
        middle.Synchronized seekBook :=
    ⟨_, rfl, rfl, rfl, rfl, rfl⟩
  obtain ⟨last, hall, hlast⟩ : ∃ last, (seekReconstructor (emptyBook 140)).offerAll
      (updatesOf seekUpdateOf [sampleDepthEvent 0 150, sampleDepthEvent 1 170]) = .ok (last, true) ∧
        last.Synchronized (seekBook.applyUpdate (seekUpdate 151 170 150 (by decide))) :=
    ⟨_, rfl, rfl, rfl, rfl, rfl⟩
  obtain ⟨sought, final, hsought, hfinal, hsame⟩ := hseek.2.2 seekUpdateOf
    finalUpdateId_of_seekUpdateOf [sampleDepthEvent 0 150] [sampleDepthEvent 1 170]
      rfl _ middle last
    _ _ _ hstart hbefore hmiddle rfl hall (synchronized_seekReconstructor rfl rfl)
  obtain rfl := Option.some.inj (hlast.held.symm.trans hfinal.held)
  exact ⟨sought, _, hsought, hsame, rfl⟩

/-- The row of a server shutdown has no final update id, and refuses the seek. -/
theorem shutdown_row_refuses_seek :
    (replay 1 ⟨2, le_rfl⟩ shutdownBuild seekQuery.full).toOption.isSome = true ∧
      sampleRow "diff_depth" 1 [] ∈ shutdownBuild.rows ∧
      (sampleRow "diff_depth" 1 []).finalUpdateId = none ∧
      replay 1 ⟨2, le_rfl⟩ shutdownBuild seekQuery = .error seekError := by
  refine ⟨by decide, ?_, rfl, rfl⟩
  simp [OpenedBuild.rows, shutdownBuild, depthBuild]

end MarketDataRecorder
