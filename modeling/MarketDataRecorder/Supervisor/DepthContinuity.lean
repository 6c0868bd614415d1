import MarketDataRecorder.Orderbook.BookRuns
import MarketDataRecorder.Orderbook.Parser
import MarketDataRecorder.Spool.ReferenceCodec

/-!
# Continuity without a book

`supervisor/depth_continuity.py`: the sequencing rules of the reconstructor over the ids alone. It
reads the ids from the metadata of an envelope where they are there, and from its payload otherwise.

* `Simulates` — a checker and a reconstructor that have seen the same inputs
* `continuity_agrees` — **they agree after every step**
-/

namespace MarketDataRecorder

/-! ## The checker -/

/-- `_Sequence`. -/
structure DepthSequence where
  first : Nat
  last : Nat
  previous : Option Int
  received : Nat
  deriving DecidableEq

structure DepthContinuity where
  market : Market
  capacity : Nat
  buffer : List DepthSequence
  reliableUpdateId : Option Nat
  bootstrapBufferOverflowed : Bool
  warned : Bool
  audits : List QualityAudit

namespace DepthContinuity

/-- `__init__`. -/
def create (market : Market) (capacity : Nat) : Except String DepthContinuity :=
  if capacity < 2 then .error "bootstrap buffer capacity must be at least two"
  else .ok {
    market := market
    capacity := capacity
    buffer := []
    reliableUpdateId := none
    bootstrapBufferOverflowed := false
    warned := false
    audits := [] }

variable (c : DepthContinuity)

/-- `is_reliable`. -/
def isReliable : Bool := c.reliableUpdateId.isSome

/-- `deque(maxlen=256)`. -/
@[irreducible]
def keptAudits (audits : List QualityAudit) : List QualityAudit :=
  audits.drop (audits.length - 256)

/-- `_audit`. -/
def audit (kind : String) (update : DepthSequence) (detail : String) : DepthContinuity :=
  { c with audits := keptAudits (c.audits ++ [⟨kind, c.market, some update.last, detail⟩]) }

def firstName : NonEmptyText := ⟨"U", by decide⟩
theorem lastName_fits : 1 ≤ "u".length ∧ "u".length ≤ 256 := by decide

def lastName : NonEmptyText := ⟨"u", lastName_fits⟩
def previousName : NonEmptyText := ⟨"pu", by decide⟩

/-- An integer of the metadata. -/
def sequenceInt (envelope : EventEnvelope) (name : NonEmptyText) : Option Int :=
  match envelope.sequenceValue name with
  | some (.int i) => some i
  | _ => none

/-- The ids of the metadata, where they are complete. -/
def metadataSequence (market : Market) (envelope : EventEnvelope) : Option DepthSequence :=
  match sequenceInt envelope firstName, sequenceInt envelope lastName with
  | some first, some last =>
    let previous := sequenceInt envelope previousName
    if 0 ≤ first ∧ first ≤ last ∧ (market = .spot ∨ previous.any fun id => 0 ≤ id) then
      some ⟨first.toNat, last.toNat, previous, envelope.receiveTimeUtcNs⟩
    else none
  | _, _ => none

/-- The ids of an envelope. -/
def sequenceOf (market : Market) (envelope : EventEnvelope) : Except BookError DepthSequence :=
  match metadataSequence market envelope with
  | some update => .ok update
  | none => do
    let parsed ← depthUpdateFromEnvelope envelope
    if parsed.symbol ≠ envelope.symbol.val then
      throw (.data "depth payload identity differs from envelope")
    else return ⟨parsed.firstUpdateId, parsed.finalUpdateId,
      parsed.previousFinalUpdateId.map Int.ofNat, envelope.receiveTimeUtcNs⟩

/-- Why an update that is not covered yet does not follow. -/
def gapReason (current : Nat) (update : DepthSequence) : Option String :=
  if c.market = .spot ∧ current + 1 < update.first then
    some "spot_first_update_id_exceeds_local_plus_one"
  else if c.market ≠ .spot ∧ update.previous ≠ some (Int.ofNat current) then
    some "usdm_pu_does_not_equal_previous_u"
  else none

/-- `_apply`. -/
def apply (update : DepthSequence) : Except String (DepthContinuity × Bool) :=
  match c.reliableUpdateId with
  | none => .error "no snapshot-backed depth sequence"
  | some current =>
    if update.last ≤ current then
      .ok (c.audit "duplicate_or_stale_depth" update "update already covered", true)
    else match c.gapReason current update with
      | some reason =>
        .ok ({ c with reliableUpdateId := none, buffer := [update] }.audit "sequence_gap" update
          reason, false)
      | none => .ok ({ c with reliableUpdateId := some update.last }, true)

/-- `offer`, of the ids of an envelope. -/
def offerSequence (update : DepthSequence) : Except String DepthContinuity :=
  if c.isReliable then (c.apply update).map Prod.fst
  else if c.bootstrapBufferOverflowed then .ok c
  else if c.capacity ≤ c.buffer.length then
    .ok ({ c with buffer := [], bootstrapBufferOverflowed := true }.audit
      "bootstrap_buffer_overflow"
      update "bounded sequence buffer exhausted")
  else
    let c := { c with buffer := c.buffer ++ [update] }
    if c.warned = false ∧ max 1 (c.capacity * 3 / 4) ≤ c.buffer.length then
      .ok ({ c with warned := true }.audit "bootstrap_buffer_near_capacity" update
        "sequence buffer near capacity")
    else .ok c

/-- `offer`. -/
def offer (envelope : EventEnvelope) : Except BookError DepthContinuity := do
  let update ← sequenceOf c.market envelope
  (c.offerSequence update).mapError .other

/-- `invalidate`. -/
def invalidate (receivedAt : Nat) : DepthContinuity :=
  let current := c.reliableUpdateId.getD 0
  { c with reliableUpdateId := none, buffer := [] }.audit "sequence_gap"
    ⟨current, current, none, receivedAt⟩ "malformed_depth_cannot_establish_continuity"

/-- The updates behind the first one of a bridge, up to one that does not follow. -/
def applyBuffered (c : DepthContinuity) :
    List DepthSequence → Except String (DepthContinuity × Bool)
  | [] => .ok (c, true)
  | update :: updates => do
    let (c, applied) ← c.apply update
    if applied then applyBuffered c updates
    else return ({ c with buffer := c.buffer ++ updates }, false)

/-- `synchronize`, of the id of a snapshot. -/
def synchronizeAt (lastUpdateId : Nat) : Except String (DepthContinuity × SynchronizeResult) :=
  if c.buffer = [] then .ok (c, .needMoreEvents)
  else
    let target := lastUpdateId + if c.market = .spot then 1 else 0
    match c.buffer.filter fun update => target ≤ update.last with
    | [] => .ok ({ c with buffer := [] }, .needMoreEvents)
    | first :: candidates =>
      if ¬ (first.first ≤ target ∧ target ≤ first.last) then .ok (c, .snapshotTooOld)
      else do
        let bridged := { c with
          buffer := []
          warned := false
          bootstrapBufferOverflowed := false
          reliableUpdateId := some first.last }
        let (next, applied) ← bridged.applyBuffered candidates
        return (next, if applied then .synchronized else .sequenceGap)

def malformedFlag : NonEmptyText := ⟨"malformed", by decide⟩

/-- `synchronize`. -/
def synchronize (envelope : EventEnvelope) :
    Except String (DepthContinuity × SynchronizeResult) :=
  if malformedFlag ∈ envelope.captureFlags then .error "malformed depth snapshot"
  else do
    let snapshot ← snapshotFromEnvelope envelope
    c.synchronizeAt snapshot.lastUpdateId

/-- `"malformed" in capture_flags`. -/
def IsMalformed (envelope : EventEnvelope) : Prop := malformedFlag ∈ envelope.captureFlags

instance (envelope : EventEnvelope) : Decidable (IsMalformed envelope) :=
  inferInstanceAs (Decidable (_ ∈ _))

end DepthContinuity

/-! ## Inputs -/

/-- The ids of an update. -/
def DepthUpdate.sequence (update : DepthUpdate) : DepthSequence :=
  ⟨update.firstUpdateId, update.finalUpdateId, update.previousFinalUpdateId.map Int.ofNat,
    update.receiveTimeUtcNs⟩

/-- An envelope with the metadata that the extractor writes: the ids of the update. -/
structure HasMetadata (envelope : EventEnvelope) (update : DepthUpdate) : Prop where
  first : DepthContinuity.sequenceInt envelope DepthContinuity.firstName =
    some (Int.ofNat update.firstUpdateId)
  last : DepthContinuity.sequenceInt envelope DepthContinuity.lastName =
    some (Int.ofNat update.finalUpdateId)
  previous : DepthContinuity.sequenceInt envelope DepthContinuity.previousName =
    update.previousFinalUpdateId.map Int.ofNat

/-- An envelope of an update: its payload is that of the update, and so is its metadata, unless that
is left to the payload. -/
structure Carries (envelope : EventEnvelope) (update : DepthUpdate) : Prop where
  parsed : depthUpdateFromEnvelope (logicalEnvelope envelope) = .ok update
  metadata : HasMetadata envelope update ∨
    DepthContinuity.metadataSequence update.market envelope = none ∧
      depthUpdateFromEnvelope envelope = .ok update ∧ update.symbol = envelope.symbol.val

/-- One input, as it is given to the checker and to the reconstructor. -/
inductive DepthInput where
  | update (envelope : EventEnvelope) (update : DepthUpdate)
  | snapshot (envelope : EventEnvelope) (snapshot : BookSnapshot)

/-- A well-formed input of a market and a symbol. -/
def DepthInput.WellFormed (market : Market) (symbol : String) : DepthInput → Prop
  | .update envelope offered => Carries envelope offered ∧ offered.market = market ∧
      offered.symbol = symbol
  | .snapshot envelope offered => DepthContinuity.malformedFlag ∉ envelope.captureFlags ∧
      snapshotFromEnvelope envelope = .ok offered ∧ offered.market = market ∧
      offered.symbol = symbol

/-- What one input does to the checker. -/
def DepthContinuity.feed (c : DepthContinuity) :
    DepthInput → Except String (DepthContinuity × Option SynchronizeResult)
  | .update envelope _ =>
    ((c.offer envelope).mapError BookError.text).map fun next => (next, none)
  | .snapshot envelope _ => (c.synchronize envelope).map fun p => (p.1, some p.2)

/-- What one input does to the reconstructor. -/
def LocalBookReconstructor.feed (r : LocalBookReconstructor) :
    DepthInput → Except String (LocalBookReconstructor × Option SynchronizeResult)
  | .update _ update => r.perform (.offer update)
  | .snapshot _ snapshot => r.perform (.synchronize snapshot)

/-- All inputs, with the results of the snapshots. -/
def feedAll {σ : Type} (feed : σ → DepthInput → Except String (σ × Option SynchronizeResult)) :
    σ → List DepthInput → Except String (σ × List SynchronizeResult)
  | s, [] => .ok (s, [])
  | s, input :: inputs => do
    let (s, result) ← feed s input
    let (s, results) ← feedAll feed s inputs
    return (s, result.toList ++ results)

/-! ## The simulation -/

/-- A checker and a reconstructor that have seen the same inputs. -/
structure Simulates (c : DepthContinuity) (r : LocalBookReconstructor) : Prop where
  market : c.market = r.market
  capacity : c.capacity = r.bootstrapBufferCapacity
  buffer : c.buffer = r.buffer.map DepthUpdate.sequence
  overflowed : c.bootstrapBufferOverflowed = r.bootstrapBufferOverflowed
  reliable : c.reliableUpdateId = r.reliableUpdateId
  own : ∀ update ∈ r.buffer, update.market = r.market ∧ update.symbol = r.symbol
  book : r.state = .synchronized →
    ∃ book, r.book = some book ∧ book.market = r.market ∧ book.symbol = r.symbol
  idle : r.state = .synchronized → r.buffer = []

namespace Simulates

variable {c : DepthContinuity} {r : LocalBookReconstructor} {update : DepthUpdate}

/-- A synchronized book is reliable at its own id. -/
theorem reliableUpdateId_of_synchronized {book : OrderBook} (hstate : r.state = .synchronized)
    (hbook : r.book = some book) : r.reliableUpdateId = some book.updateId := by
  rw [LocalBookReconstructor.reliableUpdateId, LocalBookReconstructor.isReliable, hstate, hbook]
  rfl

/-- A book that is not synchronized is reliable nowhere. -/
theorem reliableUpdateId_of_not_synchronized (hstate : r.state ≠ .synchronized) :
    r.reliableUpdateId = none := by
  rw [LocalBookReconstructor.reliableUpdateId, LocalBookReconstructor.isReliable,
    if_neg (by simpa using hstate)]

/-- Checker and book are reliable together. -/
theorem isReliable_eq (h : Simulates c r) : c.isReliable = r.isReliable := by
  rw [DepthContinuity.isReliable, h.reliable]
  by_cases hstate : r.state = .synchronized
  · obtain ⟨book, hbook, -⟩ := h.book hstate
    rw [reliableUpdateId_of_synchronized hstate hbook, LocalBookReconstructor.isReliable, hstate]
    rfl
  · rw [reliableUpdateId_of_not_synchronized hstate, LocalBookReconstructor.isReliable]
    simp [hstate]

/-- The audits of the two are not compared. -/
theorem sameBook {s : LocalBookReconstructor} (h : Simulates c r)
    (hsame : LocalBookReconstructor.SameBook r s) : Simulates c s where
  market := h.market.trans hsame.market.symm
  capacity := h.capacity.trans hsame.capacity.symm
  buffer := by rw [h.buffer, hsame.buffer]
  overflowed := h.overflowed.trans hsame.overflowed.symm
  reliable := by
    rw [h.reliable, LocalBookReconstructor.reliableUpdateId,
      LocalBookReconstructor.reliableUpdateId,
      LocalBookReconstructor.isReliable, LocalBookReconstructor.isReliable, hsame.state, hsame.book]
  own := by
    rw [hsame.buffer, hsame.market, hsame.symbol]
    exact h.own
  book := by
    rw [hsame.state, hsame.book, hsame.market, hsame.symbol]
    exact h.book
  idle := by
    rw [hsame.state, hsame.buffer]
    exact h.idle

/-- An audit is seen by the checker alone. -/
theorem audit (h : Simulates c r) (kind : String) (sequence : DepthSequence) (detail : String) :
    Simulates (c.audit kind sequence detail) r :=
  ⟨h.market, h.capacity, h.buffer, h.overflowed, h.reliable, h.own, h.book, h.idle⟩

/-- Both have the same rule for what follows. -/
theorem gapReason_eq (h : Simulates c r) (updateId : Nat) :
    c.gapReason updateId update.sequence = r.gapReason updateId update := by
  have hprevious : update.sequence.previous = some (Int.ofNat updateId) ↔
      update.previousFinalUpdateId = some updateId := by
    rw [DepthUpdate.sequence]
    dsimp only
    rw [Option.map_eq_some_iff]
    constructor
    · rintro ⟨previous, hsome, heq⟩
      rw [hsome, Int.ofNat.inj heq]
    · intro hsome
      exact ⟨updateId, hsome, rfl⟩
  unfold DepthContinuity.gapReason LocalBookReconstructor.gapReason
  rw [h.market]
  by_cases hspot : r.market = .spot
  · simp only [hspot, true_and, if_true, ne_eq, not_true_eq_false, false_and, if_false]
    rfl
  · simp only [hspot, false_and, if_false, ne_eq, not_false_eq_true, true_and, hprevious]

/-- **One update on a reliable book.** -/
theorem apply (h : Simulates c r) (hstate : r.state = .synchronized)
    (hown : update.market = r.market ∧ update.symbol = r.symbol) :
    ∃ c' r' applied, c.apply update.sequence = .ok (c', applied) ∧
      r.applyLive update = .ok (r', applied) ∧ Simulates c' r' ∧ r'.market = r.market ∧
      r'.symbol = r.symbol ∧ (applied = true ↔ r'.state = .synchronized) := by
  obtain ⟨book, hbook, hmarket, hsymbol⟩ := h.book hstate
  have hreliable : c.reliableUpdateId = some book.updateId :=
    h.reliable.trans (reliableUpdateId_of_synchronized hstate hbook)
  obtain ⟨⟨r', applied⟩, hlive, hcases⟩ := LocalBookReconstructor.applyLive_cases hbook
    (hown.1.trans hmarket.symm) (hown.2.trans hsymbol.symm)
  have hlast : update.sequence.last = update.finalUpdateId := rfl
  rw [DepthContinuity.apply, hreliable]
  dsimp only
  cases hcases with
  | stale hcovered hsame =>
    rw [if_pos (by rw [hlast]; exact hcovered)]
    exact ⟨_, r', true, rfl, hlive, (h.audit _ _ _).sameBook hsame, hsame.market, hsame.symbol,
      fun _ => hsame.state.trans hstate, fun _ => rfl⟩
  | @gap _ reason hnew hreason hsame =>
    rw [if_neg (by rw [hlast]; omega), h.gapReason_eq, hreason]
    refine ⟨_, r', false, rfl, hlive, ?_, hsame.market, hsame.symbol, by rintro ⟨⟩, ?_⟩
    · refine sameBook (audit ?_ _ _ _) hsame
      refine ⟨h.market, h.capacity, rfl, h.overflowed, ?_, ?_, by rintro ⟨⟩, by rintro ⟨⟩⟩
      · exact (reliableUpdateId_of_not_synchronized (by rintro ⟨⟩)).symm
      · intro other hother
        rw [List.mem_singleton.mp hother]
        exact hown
    · intro hsynchronized
      rw [hsame.state] at hsynchronized
      cases hsynchronized
  | applied hnew hreason hsame =>
    rw [if_neg (by rw [hlast]; omega), h.gapReason_eq, hreason]
    refine ⟨_, r', true, rfl, hlive, sameBook ?_ hsame, hsame.market, hsame.symbol,
      fun _ => hsame.state.trans hstate, fun _ => rfl⟩
    refine ⟨h.market, h.capacity, h.buffer, h.overflowed, ?_, h.own, ?_, h.idle⟩
    · rw [@reliableUpdateId_of_synchronized { r with book := some (book.applyUpdate update) } _
        hstate
        rfl]
      rfl
    · exact fun _ => ⟨_, rfl, hmarket, hsymbol⟩

/-- The updates behind a bridge. -/
theorem applyBuffered :
    ∀ {updates : List DepthUpdate} {c : DepthContinuity} {r : LocalBookReconstructor},
      Simulates c r → r.state = .synchronized →
      (∀ update ∈ updates, update.market = r.market ∧ update.symbol = r.symbol) →
      ∃ c' r' applied, c.applyBuffered (updates.map DepthUpdate.sequence) = .ok (c', applied) ∧
        r.applyBuffered updates = .ok (r', applied) ∧ Simulates c' r' ∧ r'.market = r.market ∧
        r'.symbol = r.symbol
  | [], c, r, h, _, _ => ⟨c, r, true, rfl, rfl, h, rfl, rfl⟩
  | update :: updates, c, r, h, hstate, hown => by
    rw [List.forall_mem_cons] at hown
    obtain ⟨c', r', applied, hc, hr, hnext, hmarket, hsymbol, happlied⟩ := h.apply hstate hown.1
    have hrest : ∀ other ∈ updates, other.market = r'.market ∧ other.symbol = r'.symbol := by
      rw [hmarket, hsymbol]
      exact hown.2
    rw [List.map_cons, DepthContinuity.applyBuffered, LocalBookReconstructor.applyBuffered, hc, hr]
    cases applied with
    | true =>
      obtain ⟨c'', r'', applied, hc', hr', hlast, hm, hs⟩ :=
        hnext.applyBuffered (happlied.mp rfl) hrest
      exact ⟨c'', r'', applied, hc', hr', hlast, hm.trans hmarket, hs.trans hsymbol⟩
    | false =>
      have hresync : r'.state ≠ .synchronized := fun hs => Bool.false_ne_true (happlied.mpr hs)
      refine ⟨_, _, false, rfl, rfl, ?_, hmarket, hsymbol⟩
      refine ⟨hnext.market, hnext.capacity, ?_, hnext.overflowed, hnext.reliable, ?_, hnext.book,
        fun hs => absurd hs hresync⟩
      · dsimp only
        rw [hnext.buffer, List.map_append]
      · intro other hother
        rcases List.mem_append.mp hother with hother | hother
        · exact hnext.own other hother
        · exact hrest other hother

/-- **An update**, offered to both. -/
theorem offer (h : Simulates c r) (hown : update.market = r.market ∧ update.symbol = r.symbol) :
    ∃ c' r' applied, c.offerSequence update.sequence = .ok c' ∧
      r.offer update = .ok (r', applied) ∧ Simulates c' r' ∧ r'.market = r.market ∧
      r'.symbol = r.symbol := by
  rw [LocalBookReconstructor.offer, LocalBookReconstructor.checkIdentity_eq_ok.mpr hown,
    DepthContinuity.offerSequence, h.isReliable_eq]
  simp only [bind, Except.bind]
  by_cases hstate : r.state = .synchronized
  · have hreliable : r.isReliable = true := decide_eq_true hstate
    obtain ⟨c', r', applied, hc, hr, hnext, hmarket, hsymbol, -⟩ := h.apply hstate hown
    rw [if_pos hstate, if_pos hreliable, hc, hr]
    exact ⟨c', r', applied, rfl, rfl, hnext, hmarket, hsymbol⟩
  · have hreliable : ¬ r.isReliable = true := by
      rw [LocalBookReconstructor.isReliable, decide_eq_true_eq]
      exact hstate
    rw [if_neg hstate, if_neg hreliable]
    by_cases hoverflowed : r.bootstrapBufferOverflowed = true
    · rw [if_pos hoverflowed, if_pos (h.overflowed.trans hoverflowed)]
      exact ⟨c, r, false, rfl, rfl, h, rfl, rfl⟩
    · rw [if_neg hoverflowed, if_neg (by rw [h.overflowed]; exact hoverflowed)]
      have hlength : c.buffer.length = r.buffer.length := by rw [h.buffer, List.length_map]
      by_cases hfull : r.bootstrapBufferCapacity ≤ r.buffer.length
      · rw [if_pos hfull, if_pos (by rw [h.capacity, hlength]; exact hfull)]
        refine ⟨_, _, false, rfl, rfl, ?_, rfl, rfl⟩
        refine sameBook (audit ?_ _ _ _) (LocalBookReconstructor.sameBook_recordAudit _ _)
        refine ⟨h.market, h.capacity, rfl, rfl, h.reliable, ?_, fun hs => absurd hs hstate,
          fun hs => absurd hs hstate⟩
        exact fun _ hother => absurd hother List.not_mem_nil
      · rw [if_neg hfull, if_neg (by rw [h.capacity, hlength]; exact hfull)]
        have hbuffered : Simulates { c with buffer := c.buffer ++ [update.sequence] }
            { r with buffer := r.buffer ++ [update] } := by
          refine ⟨h.market, h.capacity, ?_, h.overflowed, h.reliable, ?_,
            fun hs => absurd hs hstate, fun hs => absurd hs hstate⟩
          · dsimp only
            rw [h.buffer, List.map_append]
            rfl
          · intro other hother
            rcases List.mem_append.mp hother with hother | hother
            · exact h.own other hother
            · rw [List.mem_singleton.mp hother]
              exact hown
        -- the warnings of the two are not compared
        split
        · have hwarned : Simulates
              { c with buffer := c.buffer ++ [update.sequence], warned := true }
              { r with buffer := r.buffer ++ [update] } := by
            obtain ⟨hm, hcap, hb, ho, hr, hown', hbook, hidle⟩ := hbuffered
            exact ⟨hm, hcap, hb, ho, hr, hown', hbook, hidle⟩
          split
          · exact ⟨_, _, false, rfl, rfl, (hwarned.audit _ _ _).sameBook
              ⟨rfl, rfl, rfl, rfl, rfl, rfl, rfl⟩, rfl, rfl⟩
          · exact ⟨_, _, false, rfl, rfl, hwarned.audit _ _ _, rfl, rfl⟩
        · split
          · exact ⟨_, _, false, rfl, rfl, hbuffered.sameBook
              ⟨rfl, rfl, rfl, rfl, rfl, rfl, rfl⟩, rfl, rfl⟩
          · exact ⟨_, _, false, rfl, rfl, hbuffered, rfl, rfl⟩

/-- Both filter their buffers by the same ids. -/
theorem map_filter_sequence (h : Simulates c r) (target : Nat) :
    c.buffer.filter (fun update => target ≤ update.last) =
      (r.buffer.filter fun update => target ≤ update.finalUpdateId).map DepthUpdate.sequence := by
  rw [h.buffer, List.filter_map]
  rfl

/-- What a bridge starts with. -/
theorem bridge (h : Simulates c r) {snapshot : BookSnapshot} {first : DepthUpdate}
    (hown : snapshot.market = r.market ∧ snapshot.symbol = r.symbol) :
    Simulates { c with
        buffer := []
        warned := false
        bootstrapBufferOverflowed := false
        reliableUpdateId := some first.sequence.last }
      { r with
        book := some ((OrderBook.ofSnapshot snapshot).applyUpdate first)
        state := .synchronized
        buffer := []
        bootstrapBufferWarned := false
        bootstrapBufferOverflowed := false } where
  market := h.market
  capacity := h.capacity
  buffer := rfl
  overflowed := rfl
  reliable := rfl
  own := fun _ hother => absurd hother List.not_mem_nil
  book := fun _ => ⟨_, rfl, hown⟩
  idle := fun _ => rfl

/-- **A snapshot**, given to both. -/
theorem synchronize (h : Simulates c r) {snapshot : BookSnapshot}
    (hown : snapshot.market = r.market ∧ snapshot.symbol = r.symbol) :
    ∃ c' r' result, c.synchronizeAt snapshot.lastUpdateId = .ok (c', result) ∧
      r.synchronize snapshot = .ok (r', result) ∧ Simulates c' r' ∧ r'.market = r.market ∧
      r'.symbol = r.symbol := by
  rw [LocalBookReconstructor.synchronize, LocalBookReconstructor.checkIdentity_eq_ok.mpr hown,
    DepthContinuity.synchronizeAt]
  simp only [bind, Except.bind]
  by_cases hempty : r.buffer = []
  · rw [if_pos hempty, if_pos (by rw [h.buffer, hempty]; rfl)]
    exact ⟨c, r, .needMoreEvents, rfl, rfl, h, rfl, rfl⟩
  · rw [if_neg hempty, if_neg (by rw [h.buffer, List.map_eq_nil_iff]; exact hempty)]
    have htarget : (snapshot.lastUpdateId + if c.market = .spot then 1 else 0) =
        r.bootstrapTarget snapshot := by
      rw [LocalBookReconstructor.bootstrapTarget, h.market]
      split
      · rfl
      · rfl
    have hidle : r.state ≠ .synchronized := fun hs => hempty (h.idle hs)
    rw [htarget, h.map_filter_sequence]
    have hcandidates : ∀ update ∈ r.buffer.filter (fun update =>
        r.bootstrapTarget snapshot ≤ update.finalUpdateId),
        update.market = r.market ∧ update.symbol = r.symbol :=
      fun update hmem => h.own update (List.mem_of_mem_filter hmem)
    cases hfilter : r.buffer.filter fun update =>
        r.bootstrapTarget snapshot ≤ update.finalUpdateId with
    | nil =>
      refine ⟨_, _, .needMoreEvents, rfl, rfl, ?_, rfl, rfl⟩
      exact ⟨h.market, h.capacity, rfl, h.overflowed, h.reliable,
        fun _ hother => absurd hother List.not_mem_nil, h.book, fun _ => rfl⟩
    | cons first candidates =>
      rw [hfilter, List.forall_mem_cons] at hcandidates
      rw [List.map_cons]
      dsimp only
      by_cases hbridges : first.firstUpdateId ≤ r.bootstrapTarget snapshot ∧
          r.bootstrapTarget snapshot ≤ first.finalUpdateId
      · have hsequence : first.sequence.first ≤ r.bootstrapTarget snapshot ∧
            r.bootstrapTarget snapshot ≤ first.sequence.last := hbridges
        rw [if_neg (not_not.mpr hbridges), if_neg (not_not.mpr hsequence),
          LocalBookReconstructor.apply_eq_ok (hcandidates.1.1.trans hown.1.symm)
            (hcandidates.1.2.trans hown.2.symm)]
        dsimp only
        have hbridge := @bridge c r h snapshot first hown
        set bridged := LocalBookReconstructor.auditBook _ _ with hbridged
        have hsame : LocalBookReconstructor.SameBook _ bridged :=
          LocalBookReconstructor.sameBook_auditBook _ _
        obtain ⟨c', r', applied, hc, hr, hlast, hmarket, hsymbol⟩ :=
          (hbridge.sameBook hsame).applyBuffered hsame.state (by
            rw [hsame.market, hsame.symbol]
            exact hcandidates.2)
        rw [hc, hr]
        have hm : r'.market = r.market := hmarket.trans hsame.market
        have hs : r'.symbol = r.symbol := hsymbol.trans hsame.symbol
        cases applied with
        | true =>
          have hclose := LocalBookReconstructor.sameBook_closeResync r'
            (decide (r.state = .resyncRequired))
          exact ⟨c', _, .synchronized, rfl, rfl, hlast.sameBook hclose, hclose.market.trans hm,
            hclose.symbol.trans hs⟩
        | false => exact ⟨c', r', .sequenceGap, rfl, rfl, hlast, hm, hs⟩
      · have hsequence : ¬ (first.sequence.first ≤ r.bootstrapTarget snapshot ∧
            r.bootstrapTarget snapshot ≤ first.sequence.last) := hbridges
        rw [if_pos hbridges, if_pos hsequence]
        exact ⟨c, r, .snapshotTooOld, rfl, rfl, h, rfl, rfl⟩

end Simulates

/-! ## Runs -/

/-- The checker reads of a record the ids that the book reads. -/
theorem sequenceOf_carries {envelope : EventEnvelope} {update : DepthUpdate}
    (h : Carries envelope update) :
    DepthContinuity.sequenceOf update.market envelope = .ok update.sequence := by
  have hreceived : update.receiveTimeUtcNs = envelope.receiveTimeUtcNs := by
    have hlogical : (logicalEnvelope envelope).receiveTimeUtcNs = envelope.receiveTimeUtcNs := by
      unfold logicalEnvelope
      split
      · split
        · rfl
        · rfl
      · rfl
    exact (depthUpdateFromEnvelope_eq_ok h.parsed).2.trans hlogical
  rcases h.metadata with ⟨hfirst, hlast, hprevious⟩ | ⟨hnone, hparsed, hsymbol⟩
  · have hcomplete : (0 : Int) ≤ Int.ofNat update.firstUpdateId ∧
        Int.ofNat update.firstUpdateId ≤ Int.ofNat update.finalUpdateId ∧
        (update.market = .spot ∨
          (update.previousFinalUpdateId.map Int.ofNat).any fun id => (0 : Int) ≤ id) := by
      refine ⟨Int.natCast_nonneg _, Int.ofNat_le.mpr update.first_le_final, ?_⟩
      by_cases hspot : update.market = .spot
      · exact Or.inl hspot
      · obtain ⟨previous, hprevious⟩ :=
          Option.isSome_iff_exists.mp (update.previous_futures hspot)
        refine Or.inr ?_
        rw [hprevious]
        simp
    rw [DepthContinuity.sequenceOf, DepthContinuity.metadataSequence, hfirst, hlast, hprevious]
    dsimp only
    rw [if_pos hcomplete, ← hreceived]
    rfl
  · rw [DepthContinuity.sequenceOf, hnone, hparsed]
    simp only [bind, Except.bind]
    rw [if_neg (not_not.mpr hsymbol), ← hreceived]
    rfl

/-- What the checker and the reconstructor agree on. -/
structure Agree (c : DepthContinuity) (r : LocalBookReconstructor) : Prop where
  reliable : c.isReliable = r.isReliable
  updateId : c.reliableUpdateId = r.reliableUpdateId
  buffer : c.buffer = r.buffer.map DepthUpdate.sequence
  overflowed : c.bootstrapBufferOverflowed = r.bootstrapBufferOverflowed

/-- One well-formed input. -/
theorem Simulates.feed {c : DepthContinuity} {r : LocalBookReconstructor} (h : Simulates c r)
    {input : DepthInput} (hinput : input.WellFormed r.market r.symbol) :
    ∃ c' r' result, c.feed input = .ok (c', result) ∧ r.feed input = .ok (r', result) ∧
      Simulates c' r' ∧ r'.market = r.market ∧ r'.symbol = r.symbol := by
  cases input with
  | update envelope offered =>
    obtain ⟨hcarries, hmarket, hsymbol⟩ := hinput
    obtain ⟨c', r', applied, hc, hr, hnext, hm, hs⟩ := h.offer ⟨hmarket, hsymbol⟩
    have hoffer : c.offer envelope = .ok c' := by
      rw [DepthContinuity.offer, h.market, ← hmarket, sequenceOf_carries hcarries]
      show (c.offerSequence offered.sequence).mapError BookError.other = .ok c'
      rw [hc]
      rfl
    refine ⟨c', r', none, ?_, ?_, hnext, hm, hs⟩
    · rw [DepthContinuity.feed, hoffer]
      rfl
    · rw [LocalBookReconstructor.feed, LocalBookReconstructor.perform, hr]
      rfl
  | snapshot envelope offered =>
    obtain ⟨hflags, hparsed, hmarket, hsymbol⟩ := hinput
    obtain ⟨c', r', result, hc, hr, hnext, hm, hs⟩ := h.synchronize ⟨hmarket, hsymbol⟩
    refine ⟨c', r', some result, ?_, ?_, hnext, hm, hs⟩
    · rw [DepthContinuity.feed, DepthContinuity.synchronize, if_neg hflags, hparsed]
      simp only [bind, Except.bind, hc]
      rfl
    · rw [LocalBookReconstructor.feed, LocalBookReconstructor.perform, hr]
      rfl

/-- **Checker and book agree over every run**, one input after another. -/
theorem Simulates.feedAll :
    ∀ {inputs : List DepthInput} {c : DepthContinuity} {r : LocalBookReconstructor},
      Simulates c r → (∀ input ∈ inputs, input.WellFormed r.market r.symbol) →
      ∃ c' r' results, MarketDataRecorder.feedAll DepthContinuity.feed c inputs =
          .ok (c', results) ∧
        MarketDataRecorder.feedAll LocalBookReconstructor.feed r inputs = .ok (r', results) ∧
        Simulates c' r'
  | [], c, r, h, _ => ⟨c, r, [], rfl, rfl, h⟩
  | input :: inputs, c, r, h, hinputs => by
    rw [List.forall_mem_cons] at hinputs
    obtain ⟨c', r', result, hc, hr, hnext, hm, hs⟩ := h.feed hinputs.1
    obtain ⟨c'', r'', results, hc', hr', hlast⟩ := hnext.feedAll (by
      rw [hm, hs]
      exact hinputs.2)
    refine ⟨c'', r'', result.toList ++ results, ?_, ?_, hlast⟩
    · rw [MarketDataRecorder.feedAll, hc]
      simp only [bind, Except.bind, hc']
      rfl
    · rw [MarketDataRecorder.feedAll, hr]
      simp only [bind, Except.bind, hr']
      rfl

/-- A new checker and a new book agree. -/
theorem simulates_create {market : Market} {symbol : String} {capacity warningCount : Nat}
    {limit : Option Nat} {c : DepthContinuity} {r : LocalBookReconstructor}
    (hc : DepthContinuity.create market capacity = .ok c)
    (hr : LocalBookReconstructor.create market symbol capacity warningCount limit = .ok r) :
    Simulates c r ∧ r.market = market ∧ r.symbol = symbol := by
  unfold DepthContinuity.create at hc
  unfold LocalBookReconstructor.create at hr
  split at hc
  · cases hc
  · obtain rfl := Except.ok.inj hc
    split at hr
    · cases hr
    · split at hr
      · cases hr
      · obtain rfl := Except.ok.inj hr
        refine ⟨⟨rfl, rfl, rfl, rfl, rfl, ?_, by rintro ⟨⟩, fun _ => rfl⟩, rfl, rfl⟩
        exact fun _ hother => absurd hother List.not_mem_nil

/-- **The checker and the reconstructor agree** after every step of well-formed inputs, and on the
result of every snapshot. -/
theorem continuity_agrees {market : Market} {symbol : String} {capacity warningCount : Nat}
    {limit : Option Nat} {c : DepthContinuity} {r : LocalBookReconstructor}
    (hc : DepthContinuity.create market capacity = .ok c)
    (hr : LocalBookReconstructor.create market symbol capacity warningCount limit = .ok r)
    {inputs : List DepthInput} (hinputs : ∀ input ∈ inputs, input.WellFormed market symbol)
    (steps : Nat) :
    ∃ c' r' results,
      feedAll DepthContinuity.feed c (inputs.take steps) = .ok (c', results) ∧
      feedAll LocalBookReconstructor.feed r (inputs.take steps) = .ok (r', results) ∧
      Agree c' r' := by
  obtain ⟨hsimulates, hmarket, hsymbol⟩ := simulates_create hc hr
  have htaken : ∀ input ∈ inputs.take steps, input.WellFormed r.market r.symbol := by
    rw [hmarket, hsymbol]
    exact fun input hmem => hinputs input (List.mem_of_mem_take hmem)
  obtain ⟨c', r', results, hc', hr', hlast⟩ := hsimulates.feedAll htaken
  exact ⟨c', r', results, hc', hr',
    ⟨hlast.isReliable_eq, hlast.reliable, hlast.buffer, hlast.overflowed⟩⟩

/-! ## Updates and a snapshot -/

def sampleDepthEnvelope (stream : NonEmptyText)
    (sequence : SortedDict NonEmptyText SequenceValue) (payload : Value) : EventEnvelope where
  market := .spot
  symbol := ⟨"BTCUSDT", btcusdt_fits⟩
  stream := stream
  module := ⟨"m", moduleName_fits⟩
  connectionId := ⟨"c", by decide⟩
  collectorInstanceId := ⟨"i", by decide⟩
  collectorVersion := ⟨"v", by decide⟩
  receiveTimeUtcNs := 7
  receiveMonotonicNs := 7
  exchangeEventTime := none
  exchangeTransactionTime := none
  exchangeTradeTime := none
  sourceSequence := sequence
  payloadEncoding := ⟨"utf-8-json", EventEnvelope.utf8Json_fits⟩
  rawPayload := Json.canonical payload
  captureFlags := []

theorem wireDocument_sample {stream : NonEmptyText}
    {sequence : SortedDict NonEmptyText SequenceValue} {payload : Value} (h : Json.Plain payload) :
    wireDocument (sampleDepthEnvelope stream sequence payload) = .ok payload := by
  have hloads : Json.loads (sampleDepthEnvelope stream sequence payload).rawPayload =
    some payload :=
    Json.loads_canonical h
  have hencoding : (sampleDepthEnvelope stream sequence payload).payloadEncoding.val ≠
      "utf-8-json-combined.v1" := by
    show "utf-8-json" ≠ "utf-8-json-combined.v1"
    decide
  rw [wireDocument, hloads]
  dsimp only
  rw [if_neg hencoding]

section

variable {first last : Nat}

def sampleUpdateDocument (first last : Nat) : Value :=
  .dict [("U", .int first), ("a", .list []), ("b", .list []), ("s", .str "BTCUSDT"),
    ("u", .int last)]

def sampleUpdateEnvelope (first last : Nat) : EventEnvelope :=
  sampleDepthEnvelope ⟨"diff_depth", diffDepth_fits⟩
    (.ofItems [(DepthContinuity.firstName, .int first), (DepthContinuity.lastName, .int last)])
    (sampleUpdateDocument first last)

theorem spot_without_previous : Market.spot = .spot → (none : Option Nat) = none := fun _ => rfl

theorem futures_with_previous : Market.spot ≠ .spot → (none : Option Nat).isSome :=
  fun h => absurd rfl h

def sampleDepthUpdate (first last : Nat) (h : first ≤ last) : DepthUpdate where
  market := .spot
  symbol := "BTCUSDT"
  firstUpdateId := first
  finalUpdateId := last
  previousFinalUpdateId := none
  bids := []
  asks := []
  receiveTimeUtcNs := 7
  market_mem := spot_mem_bookMarkets
  symbol_ne := btcusdt_ne
  first_le_final := h
  previous_spot := spot_without_previous
  previous_futures := futures_with_previous

theorem plain_sampleUpdateDocument : Json.Plain (sampleUpdateDocument first last) := by
  refine ⟨?_, trivial, trivial, trivial, trivial, trivial, trivial⟩
  simp only [List.pairwise_cons, List.mem_cons, List.not_mem_nil, or_false, forall_eq_or_imp,
    forall_eq, List.Pairwise.nil, and_true, false_imp_iff, implies_true]
  decide

theorem depthUpdateFromEnvelope_sample (h : first ≤ last) :
    depthUpdateFromEnvelope (sampleUpdateEnvelope first last) =
      .ok (sampleDepthUpdate first last h) := by
  have hdocument : wireDocument (sampleUpdateEnvelope first last) =
      .ok (sampleUpdateDocument first last) := wireDocument_sample plain_sampleUpdateDocument
  have hupdate : depthUpdateOfDocument (sampleUpdateEnvelope first last)
      (sampleUpdateDocument first last) = .ok (sampleDepthUpdate first last h) := by
    show DepthUpdate.make .spot "BTCUSDT" first last none [] [] 7 = _
    have hmarket : ¬ (Market.spot ∉ bookMarkets ∨ "BTCUSDT" = "") := by decide
    have hspot : ¬ (Market.spot = .spot ∧ (none : Option Nat).isSome) := by decide
    have hfutures : ¬ (Market.spot ≠ .spot ∧ (none : Option Nat) = none) := by decide
    rw [DepthUpdate.make, dif_neg hmarket, dif_neg (not_lt.mpr h), dif_neg hspot, dif_neg hfutures]
    rfl
  have hstream : ¬ (sampleUpdateEnvelope first last).stream.val ≠ "diff_depth" := not_not.mpr rfl
  rw [depthUpdateFromEnvelope, if_neg hstream, hdocument]
  show (depthUpdateOfDocument _ _).mapError BookError.data = _
  rw [hupdate]
  rfl

/-- The ids are in the metadata, and nothing else is. -/
theorem sequenceValue_sample (first last : Nat) (name : NonEmptyText) :
    (sampleUpdateEnvelope first last).sequenceValue name =
      if name = DepthContinuity.lastName then some (.int last)
      else if name = DepthContinuity.firstName then some (.int first)
      else none := by
  show ((SortedDict.empty.insert DepthContinuity.firstName (SequenceValue.int first)).insert
    DepthContinuity.lastName (SequenceValue.int last)).get? name = _
  rw [SortedDict.get?_insert, SortedDict.get?_insert, SortedDict.get?_empty]
  split_ifs <;> rfl

/-- An update below is carried by its record. -/
theorem carries_sample (h : first ≤ last) :
    Carries (sampleUpdateEnvelope first last) (sampleDepthUpdate first last h) := by
  have hlogical : logicalEnvelope (sampleUpdateEnvelope first last) =
      sampleUpdateEnvelope first last := by
    rw [logicalEnvelope, sequenceValue_sample]
    rfl
  refine ⟨?_, .inl ⟨?_, ?_, ?_⟩⟩
  · rw [hlogical]
    exact depthUpdateFromEnvelope_sample h
  · rw [DepthContinuity.sequenceInt, sequenceValue_sample]
    rfl
  · rw [DepthContinuity.sequenceInt, sequenceValue_sample]
    rfl
  · rw [DepthContinuity.sequenceInt, sequenceValue_sample]
    rfl

theorem depthSnapshot_fits : 1 ≤ "depth_snapshot".length ∧ "depth_snapshot".length ≤ 256 := by
  decide

def sampleSnapshotDocument (lastUpdateId : Nat) : Value :=
  .dict [("response", .dict [("model",
    .dict [("asks", .list []), ("bids", .list []), ("lastUpdateId", .int lastUpdateId)])])]

def sampleSnapshotEnvelope (lastUpdateId : Nat) : EventEnvelope :=
  sampleDepthEnvelope ⟨"depth_snapshot", depthSnapshot_fits⟩ .empty
    (sampleSnapshotDocument lastUpdateId)

def sampleDepthSnapshot (lastUpdateId : Nat) : BookSnapshot where
  market := .spot
  symbol := "BTCUSDT"
  lastUpdateId := lastUpdateId
  bids := []
  asks := []
  market_mem := spot_mem_bookMarkets
  symbol_ne := btcusdt_ne

theorem plain_sampleSnapshotDocument (lastUpdateId : Nat) :
    Json.Plain (sampleSnapshotDocument lastUpdateId) := by
  refine ⟨List.pairwise_singleton _ _, ⟨List.pairwise_singleton _ _, ⟨?_, ?_⟩, trivial⟩, trivial⟩
  · simp only [List.pairwise_cons, List.mem_cons, List.not_mem_nil, or_false, forall_eq_or_imp,
      forall_eq, List.Pairwise.nil, and_true, false_imp_iff, implies_true]
    decide
  · exact ⟨trivial, trivial, trivial, trivial⟩

theorem snapshotFromEnvelope_sample (lastUpdateId : Nat) :
    snapshotFromEnvelope (sampleSnapshotEnvelope lastUpdateId) =
      .ok (sampleDepthSnapshot lastUpdateId) := by
  have hloads : Json.loads (sampleSnapshotEnvelope lastUpdateId).rawPayload =
      some (sampleSnapshotDocument lastUpdateId) :=
    Json.loads_canonical (plain_sampleSnapshotDocument lastUpdateId)
  have hstream : ¬ (sampleSnapshotEnvelope lastUpdateId).stream.val ≠ "depth_snapshot" :=
    not_not.mpr rfl
  have hmarket : ¬ (Market.spot ∉ bookMarkets ∨ "BTCUSDT" = "") := by decide
  rw [snapshotFromEnvelope, if_neg hstream, hloads]
  show BookSnapshot.make .spot "BTCUSDT" lastUpdateId [] [] = _
  rw [BookSnapshot.make, dif_neg hmarket]
  rfl

end

/-- The update of the ids from the first one on. -/
def sampleUpdateInput (first width : Nat) : DepthInput :=
  .update (sampleUpdateEnvelope first (first + width))
    (sampleDepthUpdate first (first + width) (Nat.le_add_right first width))

theorem wellFormed_sampleUpdateInput (first width : Nat) :
    (sampleUpdateInput first width).WellFormed .spot "BTCUSDT" :=
  ⟨carries_sample (Nat.le_add_right first width), rfl, rfl⟩

/-- A bridge, a live update, a gap, and more updates than the buffer holds. -/
def sampleDepthInputs : List DepthInput :=
  [sampleUpdateInput 9 3, .snapshot (sampleSnapshotEnvelope 10) (sampleDepthSnapshot 10),
   sampleUpdateInput 13 2, sampleUpdateInput 20 2, sampleUpdateInput 23 1, sampleUpdateInput 25 1]

theorem sampleDepthInputs_wellFormed :
    ∀ input ∈ sampleDepthInputs, input.WellFormed .spot "BTCUSDT" := by
  simp only [sampleDepthInputs, List.forall_mem_cons]
  exact ⟨wellFormed_sampleUpdateInput 9 3,
    ⟨List.not_mem_nil, snapshotFromEnvelope_sample 10, rfl, rfl⟩,
    wellFormed_sampleUpdateInput 13 2, wellFormed_sampleUpdateInput 20 2,
    wellFormed_sampleUpdateInput 23 1, wellFormed_sampleUpdateInput 25 1,
    fun _ h => absurd h List.not_mem_nil⟩

/-- The id and the flag after each stage. -/
def sampleDepthStages : List (Nat × Option Nat × Bool) :=
  [(3, some 15, false), (4, none, false), (6, none, true)]

/-- The two machines agree after a stage, and their id and flag are those of the stage. -/
def StageAgrees (stage : Nat × Option Nat × Bool) : Prop :=
  ∃ c' r' results,
    feedAll DepthContinuity.feed ⟨.spot, 2, [], none, false, false, []⟩
      (sampleDepthInputs.take stage.1) = .ok (c', results) ∧
    feedAll LocalBookReconstructor.feed sampleReconstructor
      (sampleDepthInputs.take stage.1) = .ok (r', results) ∧
    Agree c' r' ∧ r'.reliableUpdateId = stage.2.1 ∧ r'.bootstrapBufferOverflowed = stage.2.2

theorem continuity_agrees_sample :
    StageAgrees (3, some 15, false) ∧ StageAgrees (4, none, false) ∧
      StageAgrees (6, none, true) := by
  suffices hall : ∀ stage ∈ sampleDepthStages, StageAgrees stage from
    ⟨hall _ (by decide), hall _ (by decide), hall _ (by decide)⟩
  intro stage hstage
  obtain ⟨c', r', results, hc, hr, hagree⟩ := @continuity_agrees .spot "BTCUSDT" 2 1 none
    ⟨.spot, 2, [], none, false, false, []⟩ sampleReconstructor rfl rfl _
    sampleDepthInputs_wellFormed stage.1
  have hrun : ∀ stage ∈ sampleDepthStages,
      (feedAll DepthContinuity.feed ⟨.spot, 2, [], none, false, false, []⟩
        (sampleDepthInputs.take stage.1)).toOption.map
          (fun p => (p.1.reliableUpdateId, p.1.bootstrapBufferOverflowed)) = some stage.2 := by
    decide +kernel
  have hvalue := hrun stage hstage
  rw [hc] at hvalue
  obtain ⟨hid, hoverflowed⟩ := Prod.mk.inj (Option.some.inj hvalue)
  exact ⟨c', r', results, hc, hr, hagree, hagree.updateId.symm.trans hid,
    hagree.overflowed.symm.trans hoverflowed⟩

end MarketDataRecorder
