import MarketDataRecorder.Orderbook.Model

/-!
# The reconstructor

`orderbook/reconstructor.py`: updates are buffered until a snapshot bridges them, and are applied to
its book from then on. An update that does not follow makes the book unreliable; it is the first one
of the next buffer.

* `LocalBookReconstructor.offer`, `synchronize`, `restartBootstrap` — the calls
* `LocalBookReconstructor.applyLive_cases` — what an update does to a book
-/

namespace MarketDataRecorder

inductive ReconstructionState where
  | buffering
  | synchronized
  | resyncRequired
  deriving DecidableEq, Repr

inductive SynchronizeResult where
  | synchronized
  | snapshotTooOld
  | needMoreEvents
  | sequenceGap
  deriving DecidableEq, Repr

structure QualityAudit where
  kind : String
  market : Market
  updateId : Option Nat
  detail : String
  deriving DecidableEq

structure UnreliableInterval where
  market : Market
  reason : String
  lastReliableUpdateId : Nat
  offendingFirstUpdateId : Nat
  offendingFinalUpdateId : Nat
  startedAtReceiveTimeUtcNs : Nat
  endedAtUpdateId : Option Nat := none
  complete : Bool := false
  deriving DecidableEq

structure LocalBookReconstructor where
  market : Market
  symbol : String
  bootstrapBufferCapacity : Nat
  bootstrapBufferWarningCount : Nat
  auditHistoryLimit : Option Nat
  state : ReconstructionState
  buffer : List DepthUpdate
  book : Option OrderBook
  bootstrapBufferWarned : Bool
  bootstrapBufferOverflowed : Bool
  audits : List QualityAudit
  unreliableIntervals : List UnreliableInterval

namespace LocalBookReconstructor

/-- `__init__`, with the warning count of its ratio. -/
def create (market : Market) (symbol : String) (bootstrapBufferCapacity : Nat)
    (bootstrapBufferWarningCount : Nat) (auditHistoryLimit : Option Nat) :
    Except String LocalBookReconstructor :=
  if market ∉ bookMarkets ∨ symbol = "" then
    .error "order book requires a Binance Spot/USD-M product"
  else if bootstrapBufferCapacity < 2 then
    .error "bootstrap buffer capacity must be at least two"
  else if auditHistoryLimit = some 0 then .error "audit history limit must be positive"
  else .ok {
    market := market
    symbol := symbol
    bootstrapBufferCapacity := bootstrapBufferCapacity
    bootstrapBufferWarningCount := bootstrapBufferWarningCount
    auditHistoryLimit := auditHistoryLimit
    state := .buffering
    buffer := []
    book := none
    bootstrapBufferWarned := false
    bootstrapBufferOverflowed := false
    audits := []
    unreliableIntervals := [] }

variable (r : LocalBookReconstructor)

/-- `_record_audit`: a bounded history drops its oldest entries. -/
def recordAudit (audit : QualityAudit) : LocalBookReconstructor :=
  let audits := r.audits ++ [audit]
  { r with audits := match r.auditHistoryLimit with
      | none => audits
      | some limit => audits.drop (audits.length - limit) }

/-- `is_reliable`. -/
def isReliable : Bool := r.state = .synchronized

/-- `reliable_update_id`. -/
def reliableUpdateId : Option Nat :=
  if r.isReliable then r.book.map OrderBook.updateId else none

/-- `_check_identity`. -/
def checkIdentity (market : Market) (symbol : String) : Except String Unit :=
  if market ≠ r.market ∨ symbol ≠ r.symbol then
    .error "Spot and USD-M reconstruction inputs cannot be mixed"
  else .ok ()

/-- `_audit_book`. -/
def auditBook (book : OrderBook) : LocalBookReconstructor :=
  let r := if book.isEmpty then
      r.recordAudit ⟨"empty_book_side", r.market, book.updateId,
        "one or both local book sides are empty"⟩
    else r
  if book.isCrossed then
    r.recordAudit ⟨"crossed_book", r.market, book.updateId,
      "best bid is greater than or equal to best ask"⟩
  else r

/-- `_mark_gap`. -/
def markGap (book : OrderBook) (update : DepthUpdate) (reason : String) : LocalBookReconstructor :=
  let interval : UnreliableInterval :=
    { market := r.market
      reason := reason
      lastReliableUpdateId := book.updateId
      offendingFirstUpdateId := update.firstUpdateId
      offendingFinalUpdateId := update.finalUpdateId
      startedAtReceiveTimeUtcNs := update.receiveTimeUtcNs }
  let r := { r with unreliableIntervals := r.unreliableIntervals ++ [interval] }
  { r.recordAudit ⟨"sequence_gap", r.market, book.updateId, reason⟩ with
    state := .resyncRequired
    buffer := [update] }

/-- Why an update that is not covered yet does not follow the book. -/
def gapReason (updateId : Nat) (update : DepthUpdate) : Option String :=
  if r.market = .spot then
    if updateId + 1 < update.firstUpdateId then some "spot_first_update_id_exceeds_local_plus_one"
    else none
  else if update.previousFinalUpdateId ≠ some updateId then some "usdm_pu_does_not_equal_previous_u"
  else none

/-- `_apply_live`. -/
def applyLive (update : DepthUpdate) : Except String (LocalBookReconstructor × Bool) :=
  match r.book with
  | none => .error "no snapshot-backed order book"
  | some book =>
    if update.finalUpdateId ≤ book.updateId then
      .ok (r.recordAudit ⟨"duplicate_or_stale_depth", r.market, update.finalUpdateId,
        "absolute update already covered by the local book"⟩, true)
    else match r.gapReason book.updateId update with
      | some reason => .ok (r.markGap book update reason, false)
      | none => do
        let book ← book.apply update
        return ({ r with book := some book }.auditBook book, true)

/-- `offer`: whether the update was applied. -/
def offer (update : DepthUpdate) : Except String (LocalBookReconstructor × Bool) := do
  r.checkIdentity update.market update.symbol
  if r.state = .synchronized then r.applyLive update
  else if r.bootstrapBufferOverflowed then return (r, false)
  else if r.bootstrapBufferCapacity ≤ r.buffer.length then
    return ({ r with buffer := [], bootstrapBufferOverflowed := true }.recordAudit
      ⟨"bootstrap_buffer_overflow", r.market, update.finalUpdateId,
        "bounded bootstrap buffer exhausted; discard invalid bootstrap state and restart " ++
          "connection plus snapshot"⟩, false)
  else
    let r := { r with buffer := r.buffer ++ [update] }
    if r.bootstrapBufferWarned = false ∧ r.bootstrapBufferWarningCount ≤ r.buffer.length then
      return ({ r with bootstrapBufferWarned := true }.recordAudit
        ⟨"bootstrap_buffer_near_capacity", r.market, update.finalUpdateId,
          s!"bootstrap buffer reached {r.buffer.length}/{r.bootstrapBufferCapacity} events"⟩, false)
    else return (r, false)

/-- The id that the first update on a snapshot has to cover. -/
def bootstrapTarget (snapshot : BookSnapshot) : Nat :=
  if r.market = .spot then snapshot.lastUpdateId + 1 else snapshot.lastUpdateId

/-- The updates behind the first one of a bridge, up to one that does not follow. -/
def applyBuffered (r : LocalBookReconstructor) :
    List DepthUpdate → Except String (LocalBookReconstructor × Bool)
  | [] => .ok (r, true)
  | update :: updates => do
    let (r, applied) ← r.applyLive update
    if applied then applyBuffered r updates
    else return ({ r with buffer := r.buffer ++ updates }, false)

/-- `_close_unreliable_interval`. -/
def closeUnreliableInterval (book : OrderBook) : LocalBookReconstructor :=
  match r.unreliableIntervals.getLast? with
  | none => r
  | some latest =>
    if latest.endedAtUpdateId = none then
      { r with unreliableIntervals := r.unreliableIntervals.dropLast ++
          [{ latest with endedAtUpdateId := some book.updateId }] }
    else r

/-- What a bridge from an unreliable book ends with. -/
def closeResync (wasResync : Bool) : LocalBookReconstructor :=
  match wasResync, r.book with
  | true, some book =>
    (r.closeUnreliableInterval book).recordAudit ⟨"orderbook_resync", r.market, book.updateId,
      "snapshot and buffered depth restored a reliable book"⟩
  | _, _ => r

/-- `synchronize`. -/
def synchronize (snapshot : BookSnapshot) :
    Except String (LocalBookReconstructor × SynchronizeResult) := do
  r.checkIdentity snapshot.market snapshot.symbol
  if r.buffer = [] then return (r, .needMoreEvents)
  else match r.buffer.filter fun update => r.bootstrapTarget snapshot ≤ update.finalUpdateId with
    -- Everything buffered lies behind the snapshot and is dropped.
    | [] => return ({ r with buffer := [] }, .needMoreEvents)
    | first :: candidates =>
      if ¬ (first.firstUpdateId ≤ r.bootstrapTarget snapshot ∧
          r.bootstrapTarget snapshot ≤ first.finalUpdateId) then
        -- The buffer is kept: a newer snapshot may still bridge to it.
        return (r, .snapshotTooOld)
      else
        let book ← (OrderBook.ofSnapshot snapshot).apply first
        let bridged := { r with
          book := some book
          state := .synchronized
          buffer := []
          bootstrapBufferWarned := false
          bootstrapBufferOverflowed := false }
        let (next, applied) ← (bridged.auditBook book).applyBuffered candidates
        if applied then return (next.closeResync (r.state = .resyncRequired), .synchronized)
        else return (next, .sequenceGap)

/-- `restart_bootstrap`. -/
def restartBootstrap : LocalBookReconstructor :=
  { r with
    state := .buffering
    buffer := []
    book := none
    bootstrapBufferWarned := false
    bootstrapBufferOverflowed := false }

/-! ## What is left alone -/

/-- Two reconstructors that differ in their audits, intervals and warnings only. -/
structure SameBook (r s : LocalBookReconstructor) : Prop where
  market : s.market = r.market
  symbol : s.symbol = r.symbol
  capacity : s.bootstrapBufferCapacity = r.bootstrapBufferCapacity
  state : s.state = r.state
  buffer : s.buffer = r.buffer
  book : s.book = r.book
  overflowed : s.bootstrapBufferOverflowed = r.bootstrapBufferOverflowed

variable {r} {s t : LocalBookReconstructor}

theorem SameBook.refl (r : LocalBookReconstructor) : SameBook r r :=
  ⟨rfl, rfl, rfl, rfl, rfl, rfl, rfl⟩

theorem SameBook.trans (h : SameBook r s) (h' : SameBook s t) : SameBook r t :=
  ⟨h'.market.trans h.market, h'.symbol.trans h.symbol, h'.capacity.trans h.capacity,
    h'.state.trans h.state, h'.buffer.trans h.buffer, h'.book.trans h.book,
    h'.overflowed.trans h.overflowed⟩

theorem sameBook_recordAudit (r : LocalBookReconstructor) (audit : QualityAudit) :
    SameBook r (r.recordAudit audit) :=
  ⟨rfl, rfl, rfl, rfl, rfl, rfl, rfl⟩

theorem sameBook_auditBook (r : LocalBookReconstructor) (book : OrderBook) :
    SameBook r (r.auditBook book) := by
  unfold auditBook
  by_cases hempty : book.isEmpty = true
  · rw [if_pos hempty]
    split
    · exact (sameBook_recordAudit r _).trans (sameBook_recordAudit _ _)
    · exact sameBook_recordAudit r _
  · rw [if_neg hempty]
    split
    · exact sameBook_recordAudit r _
    · exact SameBook.refl r

theorem sameBook_closeResync (r : LocalBookReconstructor) (wasResync : Bool) :
    SameBook r (r.closeResync wasResync) := by
  unfold closeResync
  split
  · next book _ =>
    refine SameBook.trans ?_ (sameBook_recordAudit _ _)
    unfold closeUnreliableInterval
    split
    · exact SameBook.refl r
    · split
      · exact ⟨rfl, rfl, rfl, rfl, rfl, rfl, rfl⟩
      · exact SameBook.refl r
  · exact SameBook.refl r

theorem checkIdentity_eq_ok {market : Market} {symbol : String} :
    r.checkIdentity market symbol = .ok () ↔ market = r.market ∧ symbol = r.symbol := by
  unfold checkIdentity
  split
  · next h =>
    constructor
    · rintro ⟨⟩
    · rintro ⟨hmarket, hsymbol⟩
      exact absurd h (by simp [hmarket, hsymbol])
  · next h =>
    rw [not_or, not_not, not_not] at h
    exact ⟨fun _ => h, fun _ => rfl⟩

/-! ## One update -/

/-- The three things an update can do to a book. -/
inductive Applied (r : LocalBookReconstructor) (book : OrderBook) (update : DepthUpdate) :
    LocalBookReconstructor × Bool → Prop
  | stale {s : LocalBookReconstructor} (hcovered : update.finalUpdateId ≤ book.updateId)
      (hsame : SameBook r s) : Applied r book update (s, true)
  | gap {s : LocalBookReconstructor} {reason : String}
      (hnew : book.updateId < update.finalUpdateId)
      (hreason : r.gapReason book.updateId update = some reason)
      (hsame : SameBook { r with state := .resyncRequired, buffer := [update] } s) :
      Applied r book update (s, false)
  | applied {s : LocalBookReconstructor} (hnew : book.updateId < update.finalUpdateId)
      (hreason : r.gapReason book.updateId update = none)
      (hsame : SameBook { r with book := some (book.applyUpdate update) } s) :
      Applied r book update (s, true)

theorem apply_eq_ok {book : OrderBook} {update : DepthUpdate}
    (hmarket : update.market = book.market)
    (hsymbol : update.symbol = book.symbol) :
    book.apply update = .ok (book.applyUpdate update) := by
  rw [OrderBook.apply, if_neg (by simp [hmarket, hsymbol])]

/-- **What an update does** to the book of its market and symbol. -/
theorem applyLive_cases {book : OrderBook} {update : DepthUpdate} (hbook : r.book = some book)
    (hmarket : update.market = book.market) (hsymbol : update.symbol = book.symbol) :
    ∃ result, r.applyLive update = .ok result ∧ Applied r book update result := by
  rw [applyLive, hbook]
  dsimp only
  by_cases hcovered : update.finalUpdateId ≤ book.updateId
  · rw [if_pos hcovered]
    exact ⟨_, rfl, .stale hcovered (sameBook_recordAudit r _)⟩
  · rw [if_neg hcovered]
    have hnew : book.updateId < update.finalUpdateId := by omega
    cases hreason : r.gapReason book.updateId update with
    | some reason =>
      exact ⟨_, rfl, .gap hnew hreason ⟨rfl, rfl, rfl, rfl, rfl, rfl, rfl⟩⟩
    | none =>
      dsimp only
      rw [apply_eq_ok hmarket hsymbol]
      exact ⟨_, rfl, .applied hnew hreason (sameBook_auditBook _ _)⟩

end LocalBookReconstructor

end MarketDataRecorder
