import MarketDataRecorder.Lib.GoodRuns
import MarketDataRecorder.Orderbook.BookRuns

/-!
# Unreliable intervals

A gap opens an interval, and the snapshot that makes the book reliable again is to close it. The
reconstructor knows of a resync by its state, which `restart_bootstrap` forgets, and closes the last
interval only, which is not the only open one where a snapshot finds another gap behind it.

* `Opens`, `Closes` — what a call does to the intervals
* `IntervalHistory.Tracks` — what the intervals are to say
* `IntervalHistory.tracks_iff` — the runs in which they do
-/

namespace MarketDataRecorder

namespace UnreliableInterval

/-- An interval without an end. -/
def isOpen (interval : UnreliableInterval) : Bool := interval.endedAtUpdateId.isNone

/-- An interval as a resync at an id leaves it. -/
def closeAt (updateId : Nat) (interval : UnreliableInterval) : UnreliableInterval :=
  if interval.isOpen then { interval with endedAtUpdateId := some updateId } else interval

end UnreliableInterval

/-! ## Buffered updates that follow -/

/-- Updates that are covered by the book or follow it, from an id on. -/
def followAll (market : Market) : Nat → List DepthUpdate → Bool
  | _, [] => true
  | updateId, update :: updates =>
    if update.finalUpdateId ≤ updateId then followAll market updateId updates
    else if (if market = .spot then update.firstUpdateId ≤ updateId + 1
        else update.previousFinalUpdateId = some updateId) then
      followAll market update.finalUpdateId updates
    else false

namespace LocalBookReconstructor

variable {r s : LocalBookReconstructor}

@[simp] theorem recordAudit_unreliableIntervals (r : LocalBookReconstructor)
    (audit : QualityAudit) :
    (r.recordAudit audit).unreliableIntervals = r.unreliableIntervals := rfl

@[simp] theorem auditBook_unreliableIntervals (r : LocalBookReconstructor) (book : OrderBook) :
    (r.auditBook book).unreliableIntervals = r.unreliableIntervals := by
  unfold auditBook
  by_cases hempty : book.isEmpty = true
  · rw [if_pos hempty]
    split <;> rfl
  · rw [if_neg hempty]
    split <;> rfl

/-- One open interval behind the others. -/
def Opens (before after : List UnreliableInterval) : Prop :=
  ∃ interval, interval.isOpen = true ∧ interval.complete = false ∧ after = before ++ [interval]

/-- What an update does to the id and to the intervals of a reliable book. -/
theorem applyLive_intervals {book : OrderBook} {update : DepthUpdate} {applied : Bool}
    (hbook : r.book = some book) (hmarket : update.market = book.market)
    (hsymbol : update.symbol = book.symbol) (h : r.applyLive update = .ok (s, applied)) :
    if applied then
      s.unreliableIntervals = r.unreliableIntervals ∧ ∃ next, s.book = some next ∧
        next.market = book.market ∧ next.symbol = book.symbol ∧
        ∀ updates, followAll r.market book.updateId (update :: updates) =
          followAll r.market next.updateId updates
    else Opens r.unreliableIntervals s.unreliableIntervals ∧
      ∀ updates, followAll r.market book.updateId (update :: updates) = false := by
  rw [applyLive, hbook] at h
  dsimp only at h
  by_cases hcovered : update.finalUpdateId ≤ book.updateId
  · rw [if_pos hcovered] at h
    obtain ⟨rfl, rfl⟩ := Prod.mk.inj (Except.ok.inj h)
    refine ⟨rfl, book, hbook, rfl, rfl, fun updates => ?_⟩
    rw [followAll, if_pos hcovered]
  · rw [if_neg hcovered] at h
    have hfollows : ∀ updates, followAll r.market book.updateId (update :: updates) =
        if r.gapReason book.updateId update = none then
          followAll r.market update.finalUpdateId updates
        else false := by
      intro updates
      have hnone : (if r.market = .spot then update.firstUpdateId ≤ book.updateId + 1
          else update.previousFinalUpdateId = some book.updateId) ↔
          r.gapReason book.updateId update = none := by
        rw [gapReason_eq_none_iff]
        by_cases hspot : r.market = .spot <;> simp [hspot]
      rw [followAll, if_neg hcovered]
      simp only [hnone]
    cases hreason : r.gapReason book.updateId update with
    | some reason =>
      rw [hreason] at h
      obtain ⟨rfl, rfl⟩ := Prod.mk.inj (Except.ok.inj h)
      refine ⟨⟨_, ?_, ?_, rfl⟩, fun updates => ?_⟩
      · rfl
      · rfl
      · rw [hfollows, hreason]
        rfl
    | none =>
      rw [hreason] at h
      dsimp only at h
      rw [apply_eq_ok hmarket hsymbol] at h
      obtain ⟨rfl, rfl⟩ := Prod.mk.inj (Except.ok.inj h)
      refine ⟨auditBook_unreliableIntervals _ _, book.applyUpdate update,
        (sameBook_auditBook _ _).book, rfl, rfl, fun updates => ?_⟩
      rw [hfollows, hreason]
      rfl

/-- What the updates behind a bridge do to the intervals. -/
theorem applyBuffered_intervals : ∀ {updates : List DepthUpdate} {r s : LocalBookReconstructor}
    {book : OrderBook} {applied : Bool}, r.book = some book →
    (∀ update ∈ updates, update.market = book.market ∧ update.symbol = book.symbol) →
    book.market = r.market →
    r.applyBuffered updates = .ok (s, applied) →
    followAll r.market book.updateId updates = applied ∧
      if applied then s.unreliableIntervals = r.unreliableIntervals
      else Opens r.unreliableIntervals s.unreliableIntervals
  | [], r, s, book, applied, _, _, _, h => by
    obtain ⟨rfl, rfl⟩ := Prod.mk.inj (Except.ok.inj h)
    exact ⟨rfl, rfl⟩
  | update :: updates, r, s, book, applied, hbook, hown, hmarket, h => by
    rw [List.forall_mem_cons] at hown
    obtain ⟨⟨middle, taken⟩, hlive, hcases⟩ := applyLive_cases hbook hown.1.1 hown.1.2
    have hintervals := applyLive_intervals hbook hown.1.1 hown.1.2 hlive
    have hsame : middle.market = r.market := by
      cases hcases with
      | stale _ hsame => exact hsame.market
      | gap _ _ hsame => exact hsame.market
      | applied _ _ hsame => exact hsame.market
    rw [applyBuffered, hlive] at h
    cases taken with
    | false =>
      obtain ⟨hopens, hfollows⟩ := hintervals
      obtain ⟨rfl, rfl⟩ := Prod.mk.inj (Except.ok.inj h)
      exact ⟨hfollows updates, hopens⟩
    | true =>
      obtain ⟨hkept, next, hnext, hnextMarket, hnextSymbol, hfollows⟩ := hintervals
      have hrest := applyBuffered_intervals hnext
        (by rw [hnextMarket, hnextSymbol]; exact hown.2)
        (hnextMarket.trans (hmarket.trans hsame.symm)) h
      rw [hkept, hsame] at hrest
      rw [hfollows]
      exact hrest

/-- A snapshot that the buffer bridges: its first update, and the others behind it. -/
structure Bridged (r : LocalBookReconstructor) (snapshot : BookSnapshot) (first : DepthUpdate)
    (rest : List DepthUpdate) : Prop where
  market : snapshot.market = r.market
  symbol : snapshot.symbol = r.symbol
  candidates : (r.buffer.filter fun update =>
    r.bootstrapTarget snapshot ≤ update.finalUpdateId) = first :: rest
  covers : first.firstUpdateId ≤ r.bootstrapTarget snapshot ∧
    r.bootstrapTarget snapshot ≤ first.finalUpdateId

/-- The update of a bridge and those behind it are in the buffer. -/
theorem Bridged.length_lt {snapshot : BookSnapshot} {first : DepthUpdate} {rest : List DepthUpdate}
    (h : r.Bridged snapshot first rest) : rest.length < r.buffer.length := by
  have hle := List.length_filter_le
    (fun update : DepthUpdate => decide (r.bootstrapTarget snapshot ≤ update.finalUpdateId))
    r.buffer
  rw [h.candidates, List.length_cons] at hle
  omega

/-- What `_close_unreliable_interval` leaves, where only the last interval may be open. -/
theorem closeUnreliableInterval_intervals (book : OrderBook)
    (hclosed : ∀ interval ∈ r.unreliableIntervals.dropLast, interval.isOpen = false) :
    (r.closeUnreliableInterval book).unreliableIntervals =
      r.unreliableIntervals.map (UnreliableInterval.closeAt book.updateId) := by
  unfold closeUnreliableInterval
  rcases List.eq_nil_or_concat r.unreliableIntervals with hnil | ⟨before, latest, hconcat⟩
  · rw [hnil]
    exact hnil
  · rw [List.concat_eq_append] at hconcat
    rw [hconcat, List.dropLast_concat] at hclosed
    have hbefore : before.map (UnreliableInterval.closeAt book.updateId) = before := by
      rw [List.map_congr_left (g := id), List.map_id]
      intro interval hmem
      simp [UnreliableInterval.closeAt, hclosed interval hmem]
    rw [hconcat, List.getLast?_concat, List.map_append, hbefore]
    dsimp only
    by_cases hopen : latest.endedAtUpdateId = none
    · rw [if_pos hopen, List.dropLast_concat]
      simp [UnreliableInterval.closeAt, UnreliableInterval.isOpen, hopen]
    · rw [if_neg hopen]
      have hended : latest.isOpen = false := by
        rw [UnreliableInterval.isOpen, Option.isNone_eq_false_iff, Option.isSome_iff_ne_none]
        exact hopen
      simp [UnreliableInterval.closeAt, hended, hconcat]

/-- What `synchronize` does to the state and to the intervals. -/
theorem synchronize_intervals {snapshot : BookSnapshot} {next : LocalBookReconstructor}
    {result : SynchronizeResult}
    (hown : ∀ update ∈ r.buffer, update.market = r.market ∧ update.symbol = r.symbol)
    (hclosed : ∀ interval ∈ r.unreliableIntervals.dropLast, interval.isOpen = false)
    (h : r.synchronize snapshot = .ok (next, result)) :
    match result with
    | .synchronized => next.state = .synchronized ∧
        (∃ first rest, r.Bridged snapshot first rest ∧
          followAll r.market first.finalUpdateId rest = true) ∧
        ∃ book, next.book = some book ∧ next.unreliableIntervals =
          if r.state = .resyncRequired then
            r.unreliableIntervals.map (UnreliableInterval.closeAt book.updateId)
          else r.unreliableIntervals
    | .sequenceGap => next.state = .resyncRequired ∧
        (∃ first rest, r.Bridged snapshot first rest ∧
          followAll r.market first.finalUpdateId rest = false) ∧
        Opens r.unreliableIntervals next.unreliableIntervals
    | _ => next.state = r.state ∧ next.unreliableIntervals = r.unreliableIntervals ∧
        ∀ first rest, ¬ r.Bridged snapshot first rest := by
  have hstates := synchronize_cases hown h
  unfold synchronize at h
  cases hidentity : r.checkIdentity snapshot.market snapshot.symbol with
  | error e =>
    rw [hidentity] at h
    cases h
  | ok u =>
  obtain ⟨hmarket, hsymbol⟩ := checkIdentity_eq_ok.mp hidentity
  rw [hidentity] at h
  simp only [bind, Except.bind] at h
  -- Two ways to need more events: nothing buffered, or nothing behind the target.
  by_cases hempty : r.buffer = []
  · rw [if_pos hempty] at h
    obtain ⟨rfl, rfl⟩ := Prod.mk.inj (Except.ok.inj h)
    refine ⟨rfl, rfl, fun first rest hbridged => ?_⟩
    have hcandidates := hbridged.candidates
    rw [hempty] at hcandidates
    cases hcandidates
  · rw [if_neg hempty] at h
    have hfiltered : (r.buffer.filter fun update =>
        r.bootstrapTarget snapshot ≤ update.finalUpdateId).Sublist r.buffer := List.filter_sublist
    cases hcandidates : r.buffer.filter fun update =>
        r.bootstrapTarget snapshot ≤ update.finalUpdateId with
    | nil =>
      rw [hcandidates] at h
      obtain ⟨rfl, rfl⟩ := Prod.mk.inj (Except.ok.inj h)
      refine ⟨rfl, rfl, fun first rest hbridged => ?_⟩
      rw [hbridged.candidates] at hcandidates
      cases hcandidates
    | cons first rest =>
      rw [hcandidates] at h hfiltered
      dsimp only at h
      -- Only a bridging first candidate is applied, and there a gap may follow.
      by_cases hbridges : first.firstUpdateId ≤ r.bootstrapTarget snapshot ∧
          r.bootstrapTarget snapshot ≤ first.finalUpdateId
      · have hbridged : r.Bridged snapshot first rest := ⟨hmarket, hsymbol, hcandidates, hbridges⟩
        rw [if_neg (not_not.mpr hbridges)] at h
        have hfirst := hown first (hfiltered.mem List.mem_cons_self)
        rw [apply_eq_ok (hfirst.1.trans hmarket.symm) (hfirst.2.trans hsymbol.symm)] at h
        dsimp only at h
        set book := (OrderBook.ofSnapshot snapshot).applyUpdate first with hbook
        set start : LocalBookReconstructor := { r with
          book := some book
          state := .synchronized
          buffer := []
          bootstrapBufferWarned := false
          bootstrapBufferOverflowed := false } with hstart
        have hsame := sameBook_auditBook start book
        have hrest : ∀ update ∈ rest, update.market = book.market ∧
          update.symbol = book.symbol := by
          intro update hmem
          have hupdate := hown update (hfiltered.mem (List.mem_cons_of_mem _ hmem))
          exact ⟨hupdate.1.trans hmarket.symm, hupdate.2.trans hsymbol.symm⟩
        cases hlast : (start.auditBook book).applyBuffered rest with
        | error e =>
          rw [hlast] at h
          cases h
        | ok outcome =>
        obtain ⟨last, applied⟩ := outcome
        rw [hlast] at h
        obtain ⟨hfollows, hintervals⟩ := applyBuffered_intervals hsame.book hrest
          (hmarket.trans hsame.market.symm) hlast
        rw [auditBook_unreliableIntervals, hsame.market] at *
        cases applied with
        | false =>
          obtain ⟨rfl, rfl⟩ := Prod.mk.inj (Except.ok.inj h)
          exact ⟨hstates.2.2.1, ⟨first, rest, hbridged, hfollows⟩, hintervals⟩
        | true =>
          obtain ⟨rfl, rfl⟩ := Prod.mk.inj (Except.ok.inj h)
          obtain ⟨chain, hholds, -⟩ := hstates.2.2
          obtain ⟨final, hfinal, -⟩ := hholds.book
          refine ⟨hholds.state, ⟨first, rest, hbridged, hfollows⟩, final, hfinal, ?_⟩
          have hlastBook : last.book = some final := by
            rw [← hfinal, (sameBook_closeResync last _).book]
          have hkept : last.unreliableIntervals = r.unreliableIntervals := hintervals
          by_cases hresync : r.state = .resyncRequired
          · rw [if_pos hresync]
            simp only [closeResync, hresync, decide_true, hlastBook,
              recordAudit_unreliableIntervals]
            rw [closeUnreliableInterval_intervals final (by rw [hkept]; exact hclosed), hkept]
          · rw [if_neg hresync]
            simp only [closeResync, hresync, decide_false]
            exact hkept
      · rw [if_pos hbridges] at h
        obtain ⟨rfl, rfl⟩ := Prod.mk.inj (Except.ok.inj h)
        refine ⟨rfl, rfl, fun first' rest' hbridged => ?_⟩
        have hcons := hbridged.candidates
        rw [hcandidates] at hcons
        obtain ⟨rfl, -⟩ := List.cons.inj hcons
        exact hbridges hbridged.covers

/-- A snapshot that the buffer bridges is taken. -/
theorem synchronize_eq_ok {snapshot : BookSnapshot} {first : DepthUpdate} {rest : List DepthUpdate}
    (hown : ∀ update ∈ r.buffer, update.market = r.market ∧ update.symbol = r.symbol)
    (hbridged : r.Bridged snapshot first rest) :
    ∃ outcome, r.synchronize snapshot = .ok outcome := by
  have hmem : ∀ update ∈ first :: rest, update ∈ r.buffer := by
    intro update hupdate
    rw [← hbridged.candidates] at hupdate
    exact (List.mem_filter.mp hupdate).1
  have hempty : r.buffer ≠ [] := List.ne_nil_of_mem (hmem first List.mem_cons_self)
  have hfirst := hown first (hmem first List.mem_cons_self)
  unfold synchronize
  rw [checkIdentity_eq_ok.mpr ⟨hbridged.market, hbridged.symbol⟩]
  simp only [bind, Except.bind]
  rw [if_neg hempty, hbridged.candidates]
  dsimp only
  rw [if_neg (not_not.mpr hbridged.covers),
    apply_eq_ok (hfirst.1.trans hbridged.market.symm) (hfirst.2.trans hbridged.symbol.symm)]
  dsimp only
  set book := (OrderBook.ofSnapshot snapshot).applyUpdate first with hbook
  set start : LocalBookReconstructor := { r with
    book := some book
    state := .synchronized
    buffer := []
    bootstrapBufferWarned := false
    bootstrapBufferOverflowed := false } with hstart
  have hsame := sameBook_auditBook start book
  have hholds : (start.auditBook book).Holds snapshot [first] := by
    refine Holds.sameBook ?_ hsame
    refine ⟨rfl, rfl, rfl, hbridged.market, hbridged.symbol, book, rfl, Built.bridge ?_⟩
    rw [Bridges, BookSnapshot.target, hbridged.market]
    exact hbridged.covers
  have hrest : ∀ update ∈ rest, update.market = (start.auditBook book).market ∧
      update.symbol = (start.auditBook book).symbol := by
    intro update hupdate
    rw [hsame.market, hsame.symbol]
    exact hown update (hmem update (List.mem_cons_of_mem _ hupdate))
  obtain ⟨next, applied, hlast, -⟩ := hholds.applyBuffered hsame.book hrest
  rw [hlast]
  cases applied with
  | true => exact ⟨_, rfl⟩
  | false => exact ⟨_, rfl⟩

/-- What `offer` does to the state and to the intervals. -/
theorem offer_intervals {update : DepthUpdate} {next : LocalBookReconstructor} {applied : Bool}
    (hbook : r.state = .synchronized → ∃ book, r.book = some book ∧ book.market = r.market ∧
      book.symbol = r.symbol)
    (h : r.offer update = .ok (next, applied)) :
    next.state = r.state ∧ next.unreliableIntervals = r.unreliableIntervals ∨
      r.state = .synchronized ∧ next.state = .resyncRequired ∧
        Opens r.unreliableIntervals next.unreliableIntervals := by
  unfold offer at h
  cases hidentity : r.checkIdentity update.market update.symbol with
  | error e =>
    rw [hidentity] at h
    cases h
  | ok u =>
  obtain ⟨hmarket, hsymbol⟩ := checkIdentity_eq_ok.mp hidentity
  rw [hidentity] at h
  simp only [bind, Except.bind] at h
  by_cases hstate : r.state = .synchronized
  · rw [if_pos hstate] at h
    obtain ⟨book, hget, hown, hownSymbol⟩ := hbook hstate
    have hupdate := hmarket.trans hown.symm
    have hupdateSymbol := hsymbol.trans hownSymbol.symm
    have hintervals := applyLive_intervals hget hupdate hupdateSymbol h
    obtain ⟨result, hlive, hcases⟩ := applyLive_cases hget hupdate hupdateSymbol
    rw [h] at hlive
    obtain rfl := Except.ok.inj hlive
    cases hcases with
    | stale _ hsame => exact .inl ⟨hsame.state, hintervals.1⟩
    | gap _ _ hsame => exact .inr ⟨hstate, hsame.state, hintervals.1⟩
    | applied _ _ hsame => exact .inl ⟨hsame.state, hintervals.1⟩
  · rw [if_neg hstate] at h
    refine .inl ?_
    split at h
    · obtain ⟨rfl, rfl⟩ := Prod.mk.inj (Except.ok.inj h)
      exact ⟨rfl, rfl⟩
    · split at h
      · obtain ⟨rfl, rfl⟩ := Prod.mk.inj (Except.ok.inj h)
        exact ⟨rfl, rfl⟩
      · split at h
        · obtain ⟨rfl, rfl⟩ := Prod.mk.inj (Except.ok.inj h)
          exact ⟨rfl, rfl⟩
        · obtain ⟨rfl, rfl⟩ := Prod.mk.inj (Except.ok.inj h)
          exact ⟨rfl, rfl⟩

theorem create_intervals {market : Market} {symbol : String} {capacity warningCount : Nat}
    {limit : Option Nat}
    (h : LocalBookReconstructor.create market symbol capacity warningCount limit = .ok r) :
    r.state = .buffering ∧ r.unreliableIntervals = [] := by
  unfold LocalBookReconstructor.create at h
  split at h
  · cases h
  · split at h
    · cases h
    · split at h
      · cases h
      · obtain rfl := Except.ok.inj h
        exact ⟨rfl, rfl⟩

end LocalBookReconstructor

/-! ## Runs -/

/-- A reconstructor with whether it was ever reliable, and with what it was before the last call. -/
structure IntervalHistory where
  history : BookHistory
  onceReliable : Bool
  previous : LocalBookReconstructor

namespace IntervalHistory

open LocalBookReconstructor

def reconstructor (h : IntervalHistory) : LocalBookReconstructor := h.history.reconstructor

def fresh (r : LocalBookReconstructor) : IntervalHistory := ⟨⟨r, none, []⟩, false, r⟩

/-- A snapshot that a book is made of makes the book reliable, if only until the next gap. -/
def makesReliable (h : IntervalHistory) (call : DepthCall) : Bool :=
  match h.reconstructor.perform call with
  | .ok (_, some .synchronized) => true
  | .ok (_, some .sequenceGap) => true
  | _ => false

def next (h : IntervalHistory) (call : DepthCall) : IntervalHistory :=
  ⟨h.history.next call, h.onceReliable || h.makesReliable call, h.reconstructor⟩

/-- What the intervals are to say. -/
structure Tracks (h : IntervalHistory) : Prop where
  open_iff : (∃ interval ∈ h.reconstructor.unreliableIntervals, interval.isOpen = true) ↔
    h.reconstructor.state ≠ .synchronized ∧ h.onceReliable = true
  closedBefore : ∀ interval ∈ h.reconstructor.unreliableIntervals.dropLast,
    interval.isOpen = false
  closedByResync : h.previous.state ≠ .synchronized → h.reconstructor.state = .synchronized →
    ∃ book, h.reconstructor.book = some book ∧ h.reconstructor.unreliableIntervals =
      h.previous.unreliableIntervals.map (UnreliableInterval.closeAt book.updateId)
  incomplete : ∀ interval ∈ h.reconstructor.unreliableIntervals, interval.complete = false

/-- A call behind which the intervals are wrong: the bootstrap is restarted while the book is
reliable, or a snapshot is bridged while an interval is open, after a restart or with another gap
behind it. -/
def Misses (h : IntervalHistory) : DepthCall → Prop
  | .offer _ => False
  | .restartBootstrap => h.reconstructor.state = .synchronized
  | .synchronize snapshot =>
    (∃ interval ∈ h.reconstructor.unreliableIntervals, interval.isOpen = true) ∧
      ∃ first rest, h.reconstructor.Bridged snapshot first rest ∧
        (h.reconstructor.state = .buffering ∨
          followAll h.reconstructor.market first.finalUpdateId rest = false)

/-- What the calls keep beside that. -/
structure Kept (h : IntervalHistory) : Prop where
  sound : h.history.Sound
  once : h.reconstructor.state ≠ .buffering → h.onceReliable = true

variable {h : IntervalHistory}

theorem Kept.buffer_eq_nil (hk : h.Kept) (hstate : h.reconstructor.state = .synchronized) :
    h.reconstructor.buffer = [] := by
  obtain ⟨_, _, -, hholds, -⟩ := hk.sound.reliable hstate
  exact hholds.buffer

theorem Kept.book (hk : h.Kept) (hstate : h.reconstructor.state = .synchronized) :
    ∃ book, h.reconstructor.book = some book ∧ book.market = h.reconstructor.market ∧
      book.symbol = h.reconstructor.symbol := by
  obtain ⟨snapshot, _, -, hholds, -⟩ := hk.sound.reliable hstate
  obtain ⟨book, hbook, hbuilt⟩ := hholds.book
  obtain ⟨hmarket, hsymbol⟩ := hbuilt.identity
  exact ⟨book, hbook, hmarket.trans hholds.market, hsymbol.trans hholds.symbol⟩

/-- An interval is open. -/
def HasOpen (h : IntervalHistory) : Prop :=
  ∃ interval ∈ h.reconstructor.unreliableIntervals, interval.isOpen = true

/-- What a call can do. -/
inductive Effect (h : IntervalHistory) (call : DepthCall) : Prop
  | stays (hstate : (h.next call).reconstructor.state = h.reconstructor.state)
      (hintervals : (h.next call).reconstructor.unreliableIntervals =
        h.reconstructor.unreliableIntervals)
      (honce : (h.next call).onceReliable = h.onceReliable) (hnot : ¬ h.Misses call)
  | gap (hreliable : h.reconstructor.state = .synchronized)
      (hstate : (h.next call).reconstructor.state = .resyncRequired)
      (hopens : Opens h.reconstructor.unreliableIntervals
        (h.next call).reconstructor.unreliableIntervals)
      (honce : (h.next call).onceReliable = h.onceReliable) (hnot : ¬ h.Misses call)
  | restarted (hstate : (h.next call).reconstructor.state = .buffering)
      (hintervals : (h.next call).reconstructor.unreliableIntervals =
        h.reconstructor.unreliableIntervals)
      (honce : (h.next call).onceReliable = h.onceReliable)
      (hmisses : h.Misses call ↔ h.reconstructor.state = .synchronized)
  | resynced {book : OrderBook} (hunreliable : h.reconstructor.state ≠ .synchronized)
      (hstate : (h.next call).reconstructor.state = .synchronized)
      (hbook : (h.next call).reconstructor.book = some book)
      (hintervals : (h.next call).reconstructor.unreliableIntervals =
        if h.reconstructor.state = .resyncRequired then
          h.reconstructor.unreliableIntervals.map (UnreliableInterval.closeAt book.updateId)
        else h.reconstructor.unreliableIntervals)
      (honce : (h.next call).onceReliable = true)
      (hmisses : h.Misses call ↔ h.HasOpen ∧ h.reconstructor.state = .buffering)
  | regapped (hunreliable : h.reconstructor.state ≠ .synchronized)
      (hstate : (h.next call).reconstructor.state = .resyncRequired)
      (hopens : Opens h.reconstructor.unreliableIntervals
        (h.next call).reconstructor.unreliableIntervals)
      (honce : (h.next call).onceReliable = true) (hmisses : h.Misses call ↔ h.HasOpen)

theorem next_of_perform {call : DepthCall} {r : LocalBookReconstructor}
    {result : Option SynchronizeResult} (h : IntervalHistory)
    (hperform : h.reconstructor.perform call = .ok (r, result)) :
    (h.next call).reconstructor = r ∧ (h.next call).onceReliable =
      (h.onceReliable || (result = some .synchronized || result = some .sequenceGap)) := by
  have hhistory : h.history.reconstructor.perform call = .ok (r, result) := hperform
  constructor
  · simp only [next, reconstructor, BookHistory.next, hhistory]
  · simp only [next, makesReliable, hperform]
    cases result with
    | none => rfl
    | some result => cases result <;> rfl

theorem next_of_refused {call : DepthCall} {e : String} (h : IntervalHistory)
    (hperform : h.reconstructor.perform call = .error e) :
    (h.next call).reconstructor = h.reconstructor ∧
      (h.next call).onceReliable = h.onceReliable := by
  have hhistory : h.history.reconstructor.perform call = .error e := hperform
  constructor
  · simp only [next, reconstructor, BookHistory.next, hhistory]
  · simp only [next, makesReliable, hperform, Bool.or_false]

/-- A snapshot bridges one buffer in one way. -/
theorem misses_synchronize_iff {snapshot : BookSnapshot} {first : DepthUpdate}
    {rest : List DepthUpdate} (hbridged : h.reconstructor.Bridged snapshot first rest) :
    h.Misses (.synchronize snapshot) ↔ h.HasOpen ∧ (h.reconstructor.state = .buffering ∨
      followAll h.reconstructor.market first.finalUpdateId rest = false) := by
  constructor
  · rintro ⟨hopen, first', rest', hbridged', hmisses⟩
    have hcons := hbridged.candidates
    rw [hbridged'.candidates] at hcons
    obtain ⟨rfl, rfl⟩ := List.cons.inj hcons
    exact ⟨hopen, hmisses⟩
  · rintro ⟨hopen, hmisses⟩
    exact ⟨hopen, first, rest, hbridged, hmisses⟩

/-- **What a call does** to the state and to the intervals. -/
theorem Kept.effect (hk : h.Kept)
    (hclosed : ∀ interval ∈ h.reconstructor.unreliableIntervals.dropLast,
      interval.isOpen = false) (call : DepthCall) : Effect h call := by
  -- A refused call leaves everything as it is.
  have hrefused : ∀ e, h.reconstructor.perform call = .error e → ¬ h.Misses call →
      Effect h call := by
    intro e hperform hnot
    obtain ⟨hsame, honce⟩ := next_of_refused h hperform
    exact .stays (by rw [hsame]) (by rw [hsame]) honce hnot
  cases call with
  | offer update =>
    cases hoffer : h.reconstructor.offer update with
    | error e =>
      refine hrefused e ?_ id
      rw [perform, hoffer]
      rfl
    | ok outcome =>
      obtain ⟨r, applied⟩ := outcome
      have hperform : h.reconstructor.perform (.offer update) = .ok (r, none) := by
        rw [perform, hoffer]
        rfl
      obtain ⟨hnext, honce⟩ := next_of_perform h hperform
      rcases offer_intervals hk.book hoffer with ⟨hstate, hintervals⟩ | ⟨hsync, hstate, hopens⟩
      · exact .stays (by rw [hnext, hstate]) (by rw [hnext, hintervals])
          (by simpa using honce) id
      · exact .gap hsync (by rw [hnext, hstate]) (by rw [hnext]; exact hopens)
          (by simpa using honce) id
  | restartBootstrap =>
    have hperform : h.reconstructor.perform .restartBootstrap =
        .ok (h.reconstructor.restartBootstrap, none) := rfl
    obtain ⟨hnext, honce⟩ := next_of_perform h hperform
    exact .restarted (by rw [hnext]; rfl) (by rw [hnext]; rfl) (by simpa using honce) Iff.rfl
  | synchronize snapshot =>
    have hown : ∀ update ∈ h.reconstructor.buffer, update.market = h.reconstructor.market ∧
        update.symbol = h.reconstructor.symbol := hk.sound.own
    cases hsync : h.reconstructor.synchronize snapshot with
    | error e =>
      refine hrefused e (by rw [perform, hsync]; rfl) ?_
      rintro ⟨-, first, rest, hbridged, -⟩
      obtain ⟨outcome, houtcome⟩ := synchronize_eq_ok hown hbridged
      rw [hsync] at houtcome
      cases houtcome
    | ok outcome =>
      obtain ⟨r, result⟩ := outcome
      have hperform : h.reconstructor.perform (.synchronize snapshot) = .ok (r, some result) := by
        rw [perform, hsync]
        rfl
      obtain ⟨hnext, honce⟩ := next_of_perform h hperform
      have hcases := synchronize_intervals hown hclosed hsync
      have hunreliable : ∀ {first rest}, h.reconstructor.Bridged snapshot first rest →
          h.reconstructor.state ≠ .synchronized := by
        intro first rest hbridged hstate
        have hcandidates := hbridged.candidates
        rw [hk.buffer_eq_nil hstate] at hcandidates
        cases hcandidates
      cases result with
      | synchronized =>
        obtain ⟨hstate, ⟨first, rest, hbridged, hfollows⟩, book, hbook, hintervals⟩ := hcases
        refine .resynced (hunreliable hbridged) (by rw [hnext, hstate]) (by rw [hnext, hbook])
          (by rw [hnext, hintervals]) (by simpa using honce) ?_
        rw [misses_synchronize_iff hbridged, hfollows]
        simp
      | sequenceGap =>
        obtain ⟨hstate, ⟨first, rest, hbridged, hfollows⟩, hopens⟩ := hcases
        refine .regapped (hunreliable hbridged) (by rw [hnext, hstate])
          (by rw [hnext]; exact hopens) (by simpa using honce) ?_
        rw [misses_synchronize_iff hbridged, hfollows]
        simp
      | snapshotTooOld =>
        obtain ⟨hstate, hintervals, hnone⟩ := hcases
        refine .stays (by rw [hnext, hstate]) (by rw [hnext, hintervals]) (by simpa using honce) ?_
        rintro ⟨-, first, rest, hbridged, -⟩
        exact hnone first rest hbridged
      | needMoreEvents =>
        obtain ⟨hstate, hintervals, hnone⟩ := hcases
        refine .stays (by rw [hnext, hstate]) (by rw [hnext, hintervals]) (by simpa using honce) ?_
        rintro ⟨-, first, rest, hbridged, -⟩
        exact hnone first rest hbridged

theorem hasOpen_append_of_opens {h' : IntervalHistory}
    (hopens : Opens h.reconstructor.unreliableIntervals h'.reconstructor.unreliableIntervals) :
    h'.HasOpen := by
  obtain ⟨interval, hopen, -, heq⟩ := hopens
  exact ⟨interval, by rw [heq]; exact List.mem_append_right _ (List.mem_singleton_self _), hopen⟩

/-- Behind an interval that was opened, the others come before. -/
theorem dropLast_of_opens {before after : List UnreliableInterval} (hopens : Opens before after) :
    after.dropLast = before := by
  obtain ⟨interval, -, -, rfl⟩ := hopens
  exact List.dropLast_concat

/-- Closing leaves no interval open. -/
theorem isOpen_closeAt (updateId : Nat) (interval : UnreliableInterval) :
    (interval.closeAt updateId).isOpen = false := by
  unfold UnreliableInterval.closeAt
  by_cases hopen : interval.isOpen = true
  · rw [if_pos hopen]
    rfl
  · rw [if_neg hopen]
    exact Bool.eq_false_iff.mpr hopen

theorem complete_closeAt (updateId : Nat) (interval : UnreliableInterval) :
    (interval.closeAt updateId).complete = interval.complete := by
  unfold UnreliableInterval.closeAt
  split <;> rfl

theorem map_closeAt_of_not_open {intervals : List UnreliableInterval} (updateId : Nat)
    (hclosed : ∀ interval ∈ intervals, interval.isOpen = false) :
    intervals.map (UnreliableInterval.closeAt updateId) = intervals := by
  rw [List.map_congr_left (g := id), List.map_id]
  intro interval hmem
  simp [UnreliableInterval.closeAt, hclosed interval hmem]

theorem not_hasOpen_iff :
    ¬ h.HasOpen ↔ ∀ interval ∈ h.reconstructor.unreliableIntervals, interval.isOpen = false := by
  simp [HasOpen]

/-- **A call that does not miss an interval.** -/
theorem Tracks.next (ht : h.Tracks) (hk : h.Kept) {call : DepthCall} (hnot : ¬ h.Misses call) :
    (h.next call).Tracks := by
  have hprevious : (h.next call).previous = h.reconstructor := rfl
  cases hk.effect ht.closedBefore call with
  | stays hstate hintervals honce _ =>
    refine ⟨?_, ?_, ?_, ?_⟩
    · rw [hstate, hintervals, honce]
      exact ht.open_iff
    · rw [hintervals]
      exact ht.closedBefore
    · rw [hprevious, hstate]
      exact fun hunreliable hreliable => absurd hreliable hunreliable
    · rw [hintervals]
      exact ht.incomplete
  -- A reliable book has no open interval, so the one that opens is the only one.
  | gap hreliable hstate hopens honce _ =>
    have hnone : ¬ h.HasOpen := fun hopen => (ht.open_iff.mp hopen).1 hreliable
    refine ⟨?_, ?_, ?_, ?_⟩
    · rw [hstate, honce]
      exact ⟨fun _ => ⟨by decide, hk.once (by rw [hreliable]; decide)⟩,
        fun _ => hasOpen_append_of_opens hopens⟩
    · rw [dropLast_of_opens hopens]
      exact not_hasOpen_iff.mp hnone
    · rw [hstate]
      rintro - ⟨⟩
    · obtain ⟨interval, -, hcomplete, heq⟩ := hopens
      rw [heq]
      intro other hother
      rcases List.mem_append.mp hother with hother | hother
      · exact ht.incomplete other hother
      · rw [List.mem_singleton.mp hother]
        exact hcomplete
  -- A restart out of a reliable book is the missed case: excluded here.
  | restarted hstate hintervals honce hmisses =>
    have hunreliable : h.reconstructor.state ≠ .synchronized := fun heq => hnot (hmisses.mpr heq)
    refine ⟨?_, ?_, ?_, ?_⟩
    · rw [hstate, hintervals, honce, ht.open_iff]
      exact ⟨fun hopen => ⟨by decide, hopen.2⟩, fun hopen => ⟨hunreliable, hopen.2⟩⟩
    · rw [hintervals]
      exact ht.closedBefore
    · rw [hstate]
      rintro - ⟨⟩
    · rw [hintervals]
      exact ht.incomplete
  | @resynced book hunreliable hstate hbook hintervals honce hmisses =>
    -- Whether it is a resync or the first bridge, every interval is closed from here on.
    have hclosing : (IntervalHistory.next h call).reconstructor.unreliableIntervals =
        h.reconstructor.unreliableIntervals.map (UnreliableInterval.closeAt book.updateId) := by
      rw [hintervals]
      by_cases hresync : h.reconstructor.state = .resyncRequired
      · rw [if_pos hresync]
      · have hbuffering : h.reconstructor.state = .buffering := by
          cases hs : h.reconstructor.state with
          | buffering => rfl
          | synchronized => exact absurd hs hunreliable
          | resyncRequired => exact absurd hs hresync
        have hnone : ¬ h.HasOpen := fun hopen => hnot (hmisses.mpr ⟨hopen, hbuffering⟩)
        rw [if_neg hresync, map_closeAt_of_not_open _ (not_hasOpen_iff.mp hnone)]
    have hallClosed : ∀ interval ∈
        (IntervalHistory.next h call).reconstructor.unreliableIntervals,
        interval.isOpen = false := by
      rw [hclosing]
      intro interval hmem
      obtain ⟨other, -, rfl⟩ := List.mem_map.mp hmem
      exact isOpen_closeAt _ _
    refine ⟨?_, ?_, ?_, ?_⟩
    · rw [hstate]
      constructor
      · rintro ⟨interval, hmem, hopen⟩
        rw [hallClosed interval hmem] at hopen
        cases hopen
      · rintro ⟨hne, -⟩
        exact absurd rfl hne
    · exact fun interval hmem => hallClosed interval (List.mem_of_mem_dropLast hmem)
    · exact fun _ _ => ⟨book, hbook, hclosing⟩
    · rw [hclosing]
      intro interval hmem
      obtain ⟨other, hother, rfl⟩ := List.mem_map.mp hmem
      rw [complete_closeAt]
      exact ht.incomplete other hother
  -- A second gap over an open interval is the other missed case.
  | regapped hunreliable hstate hopens honce hmisses =>
    have hnone : ¬ h.HasOpen := fun hopen => hnot (hmisses.mpr hopen)
    refine ⟨?_, ?_, ?_, ?_⟩
    · rw [hstate, honce]
      exact ⟨fun _ => ⟨by decide, rfl⟩, fun _ => hasOpen_append_of_opens hopens⟩
    · rw [dropLast_of_opens hopens]
      exact not_hasOpen_iff.mp hnone
    · rw [hstate]
      rintro - ⟨⟩
    · obtain ⟨interval, -, hcomplete, heq⟩ := hopens
      rw [heq]
      intro other hother
      rcases List.mem_append.mp hother with hother | hother
      · exact ht.incomplete other hother
      · rw [List.mem_singleton.mp hother]
        exact hcomplete

/-- **A call that misses an interval** leaves the intervals wrong. -/
theorem Tracks.not_next (ht : h.Tracks) (hk : h.Kept) {call : DepthCall}
    (hmisses : h.Misses call) : ¬ (h.next call).Tracks := by
  intro hnext
  cases hk.effect ht.closedBefore call with
  | stays _ _ _ hnot => exact hnot hmisses
  | gap _ _ _ _ hnot => exact hnot hmisses
  | restarted hstate hintervals honce hiff =>
    have hreliable := hiff.mp hmisses
    have honce' := hk.once (by rw [hreliable]; decide)
    have hopen := hnext.open_iff.mpr ⟨by rw [hstate]; decide, by rw [honce, honce']⟩
    rw [hintervals] at hopen
    exact (ht.open_iff.mp hopen).1 hreliable
  | resynced hunreliable hstate hbook hintervals honce hiff =>
    obtain ⟨hopen, hbuffering⟩ := hiff.mp hmisses
    rw [if_neg (by rw [hbuffering]; decide)] at hintervals
    have hstill : (IntervalHistory.next h call).HasOpen := by
      unfold HasOpen
      rw [hintervals]
      exact hopen
    exact (hnext.open_iff.mp hstill).1 hstate
  | regapped hunreliable hstate hopens honce hiff =>
    have hclosed := hnext.closedBefore
    rw [dropLast_of_opens hopens] at hclosed
    exact not_hasOpen_iff.mpr hclosed (hiff.mp hmisses)

theorem Kept.next (hk : h.Kept) (ht : h.Tracks) (call : DepthCall) : (h.next call).Kept := by
  refine ⟨hk.sound.next call, ?_⟩
  cases hk.effect ht.closedBefore call with
  | stays hstate _ honce _ =>
    rw [hstate, honce]
    exact hk.once
  | gap hreliable _ _ honce _ =>
    rw [honce]
    exact fun _ => hk.once (by rw [hreliable]; decide)
  | restarted hstate _ _ _ =>
    rw [hstate]
    exact fun hne => absurd rfl hne
  | resynced _ _ _ _ honce _ => exact fun _ => honce
  | regapped _ _ _ honce _ => exact fun _ => honce

/-- **The unreliable intervals.** In every state of a run they say what they are to say exactly
where no call of the run misses one. -/
theorem tracks_iff {market : Market} {symbol : String} {capacity warningCount : Nat}
    {limit : Option Nat} {r : LocalBookReconstructor}
    (hcreate : LocalBookReconstructor.create market symbol capacity warningCount limit = .ok r)
    (calls : List DepthCall) :
    (∀ before after, calls = before ++ after → (before.foldl next (fresh r)).Tracks) ↔
      ∀ before call after, calls = before ++ call :: after →
        ¬ (before.foldl next (fresh r)).Misses call := by
  have hsound := BookHistory.sound_create hcreate
  obtain ⟨hstate, hintervals⟩ := create_intervals hcreate
  have hkept : (fresh r).Kept := ⟨hsound, fun hne => absurd hstate hne⟩
  have htracks : (fresh r).Tracks := by
    have hnil : (fresh r).reconstructor.unreliableIntervals = [] := hintervals
    refine ⟨?_, ?_, ?_, ?_⟩
    · rw [hnil]
      constructor
      · rintro ⟨_, hmem, -⟩
        cases hmem
      · rintro ⟨-, honce⟩
        cases honce
    · rw [hnil]
      exact fun _ hmem => absurd hmem List.not_mem_nil
    · exact fun hunreliable hreliable => absurd hreliable hunreliable
    · rw [hnil]
      exact fun _ hmem => absurd hmem List.not_mem_nil
  refine GoodRuns.good_iff hkept htracks ?_ ?_ calls
  · exact fun h call hk ht hnot => ⟨hk.next ht call, ht.next hk hnot⟩
  · exact fun h call hk ht hmisses => ht.not_next hk hmisses

/-- An update that leaves out the ids from 13 to 19. -/
def gapUpdate : DepthUpdate := { sampleUpdate with
  firstUpdateId := 20
  finalUpdateId := 25
  first_le_final := by decide }

/-- A bridge, a gap, and a snapshot that the update behind the gap bridges. -/
def resyncCalls : List DepthCall :=
  [.offer sampleUpdate, .synchronize sampleSnapshot, .offer gapUpdate,
    .synchronize { sampleSnapshot with lastUpdateId := 20 }]

/-- The interval of the gap is closed by the resync, at the id of the new book. -/
theorem tracks_resyncCalls :
    (resyncCalls.foldl next (fresh sampleReconstructor)).Tracks ∧
      (resyncCalls.foldl next (fresh sampleReconstructor)).reconstructor.unreliableIntervals.map
        UnreliableInterval.endedAtUpdateId = [some 25] := by
  have hcreate : LocalBookReconstructor.create .spot "BTCUSDT" 2 1 none =
      .ok sampleReconstructor := rfl
  refine ⟨(tracks_iff hcreate resyncCalls).mpr ?_ resyncCalls [] (List.append_nil _).symm,
    by decide +kernel⟩
  rintro before call after hsplit
  rcases before with _ | ⟨first, _ | ⟨second, _ | ⟨third, _ | ⟨fourth, rest⟩⟩⟩⟩
  · obtain ⟨rfl, -⟩ := List.cons.inj hsplit
    exact id
  · obtain ⟨hfirst, hsplit⟩ := List.cons.inj hsplit
    obtain ⟨rfl, -⟩ := List.cons.inj hsplit
    rw [← hfirst]
    rintro ⟨⟨interval, hmem, -⟩, -⟩
    have hnil : ([DepthCall.offer sampleUpdate].foldl next
        (fresh sampleReconstructor)).reconstructor.unreliableIntervals = [] := by decide
    rw [hnil] at hmem
    cases hmem
  · obtain ⟨-, hsplit⟩ := List.cons.inj hsplit
    obtain ⟨-, hsplit⟩ := List.cons.inj hsplit
    obtain ⟨rfl, -⟩ := List.cons.inj hsplit
    exact id
  · simp only [resyncCalls, List.cons_append, List.nil_append, List.cons.injEq] at hsplit
    obtain ⟨rfl, rfl, rfl, rfl, -⟩ := hsplit
    have hgap : ([DepthCall.offer sampleUpdate, .synchronize sampleSnapshot,
        .offer gapUpdate].foldl next (fresh sampleReconstructor)).reconstructor.state =
          .resyncRequired ∧
        ([DepthCall.offer sampleUpdate, .synchronize sampleSnapshot,
          .offer gapUpdate].foldl next (fresh sampleReconstructor)).reconstructor.buffer.length =
            1 := by
      decide +kernel
    -- there is one update behind the gap, so nothing follows the bridge
    rintro ⟨-, first, rest, hbridged, hbuffering | hfollows⟩
    · rw [hgap.1] at hbuffering
      cases hbuffering
    · have hlength := hbridged.length_lt
      rw [hgap.2] at hlength
      obtain rfl : rest = [] := List.length_eq_zero_iff.mp (by omega)
      cases hfollows
  · have hlength := congrArg List.length hsplit
    simp [resyncCalls] at hlength

/-- A gap, a restart of the bootstrap, and the first bridge once more. -/
def restartCalls : List DepthCall :=
  [.offer sampleUpdate, .synchronize sampleSnapshot, .offer gapUpdate, .restartBootstrap,
    .offer sampleUpdate, .synchronize sampleSnapshot]

/-- The interval of the gap stays open although the book is reliable again. -/
theorem restart_leaves_interval_open : ¬ ∀ calls : List DepthCall,
    (calls.foldl next (fresh sampleReconstructor)).Tracks := by
  intro h
  have hopen : (restartCalls.foldl next
      (fresh sampleReconstructor)).reconstructor.unreliableIntervals.any
        UnreliableInterval.isOpen = true := by decide +kernel
  have hreliable : (restartCalls.foldl next (fresh sampleReconstructor)).reconstructor.state =
      .synchronized := by decide +kernel
  exact ((h restartCalls).open_iff.mp (List.any_eq_true.mp hopen)).1 hreliable

end IntervalHistory

end MarketDataRecorder
