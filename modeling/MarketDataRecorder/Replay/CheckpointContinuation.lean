import MarketDataRecorder.Normalize.Candidate
import MarketDataRecorder.Orderbook.BookMapping
import MarketDataRecorder.Orderbook.IntervalRuns
import MarketDataRecorder.Replay.AcceptedCheckpoints
import MarketDataRecorder.Replay.CheckpointSeek

/-!
# Going on from a checkpoint

`save` and `restore` of `orderbook/checkpoint.py`. The reconstructor that a checkpoint gives has the
book and the intervals of the one that was saved, and the updates that come later do the same to
both, until one of them is synchronized anew.

The file is kept as its text, and what `uuid4` and the clock give are chosen by the caller.

* `LocalBookReconstructor.Restorable` — what holds of every reconstructor
* `LocalBookReconstructor.Continues.offer` — one update does the same to both
* `checkpoint_continues` — what is saved, restored and continued
-/

namespace MarketDataRecorder

/-! ## Saving -/

/-- `asdict` of an interval. -/
def intervalValue (interval : UnreliableInterval) : Value := .dict [
  ("complete", .bool interval.complete),
  ("ended_at_update_id", match interval.endedAtUpdateId with
    | none => .null
    | some id => .int id),
  ("last_reliable_update_id", .int interval.lastReliableUpdateId),
  ("market", .str interval.market.text),
  ("offending_final_update_id", .int interval.offendingFinalUpdateId),
  ("offending_first_update_id", .int interval.offendingFirstUpdateId),
  ("reason", .str interval.reason),
  ("started_at_receive_time_utc_ns", .int interval.startedAtReceiveTimeUtcNs)]

/-- What `save` is given, with the id that it makes and the time that it takes. -/
structure CheckpointRequest where
  checkpointId : String
  createdAtUtcNs : Nat
  collectorVersion : String
  sourceChunkHashes : List String
  checkpointId_ne : checkpointId ≠ ""

/-- The document of a checkpoint, under its own hash. -/
def savedDocument (book : OrderBook) (intervals : List UnreliableInterval)
    (request : CheckpointRequest) : Value :=
  let start := [
    ("algorithm_version", Value.str reconstructorVersion),
    ("book", book.canonicalMapping),
    ("book_hash", .str (Checksum.sha256Hex
      (Json.asciiBytes (Json.encodeValue book.canonicalMapping)))),
    ("checkpoint_id", .str request.checkpointId)]
  let rest := [
    ("collector_version", Value.str request.collectorVersion),
    ("created_at_utc_ns", .int request.createdAtUtcNs),
    ("schema_version", .str checkpointSchema),
    ("source_chunk_hashes", .list ((sortedSet request.sourceChunkHashes).map .str)),
    ("unreliable_intervals", .list (intervals.map intervalValue))]
  .dict (start ++ ("checkpoint_sha256", .str (documentHash (.dict (start ++ rest)))) :: rest)

/-- `save`: the text of the file. -/
def saveCheckpoint (r : LocalBookReconstructor) (request : CheckpointRequest) :
    Except String (List Char) :=
  if r.isReliable = false then .error "cannot checkpoint an unreliable order book"
  else if request.collectorVersion = "" then .error "collector version is required"
  else if request.sourceChunkHashes = [] then .error "at least one source chunk hash is required"
  else if request.sourceChunkHashes.any fun hash => !isDigest hash then
    .error "source chunk hashes must be lowercase SHA-256"
  else match r.book with
    | none => .error "order book is not synchronized and reliable"
    | some book =>
      .ok (JsonText.renderValue (savedDocument book r.unreliableIntervals request))

/-- `restore`, of the text of a file: `from_checkpoint` on a reconstructor with its
default buffer. -/
def restoreReconstructor (text : List Char) : Except String LocalBookReconstructor := do
  let restored ← restoreCheckpoint (Json.decode text)
  LocalBookReconstructor.fromCheckpoint restored.1 restored.2 8192 6144

/-! ## What is restored -/

/-- An interval reads back from its document. -/
theorem checkpointInterval_intervalValue {interval : UnreliableInterval}
    (hmarket : interval.market ∈ bookMarkets) (hreason : interval.reason ≠ "")
    (hcomplete : interval.complete = false) :
    checkpointInterval (intervalValue interval) = some interval := by
  obtain ⟨market, reason, last, first, final, started, ended, complete⟩ := interval
  obtain rfl : complete = false := hcomplete
  have hfields : ∀ ended, checkpointInterval (intervalValue
      ⟨market, reason, last, first, final, started, ended, false⟩) = (do
        let market ← Market.ofText? market.text
        guard (market ∈ bookMarkets ∧ reason ≠ "")
        return ⟨market, reason, last, first, final, started, ended, false⟩) := by
    intro ended
    cases ended <;> rfl
  rw [hfields, Market.ofText?_text]
  have hguard : market ∈ bookMarkets ∧ reason ≠ "" := ⟨hmarket, hreason⟩
  simp [guard, hguard.1, hguard.2]

/-- Intervals read back one by one. -/
theorem mapM_intervalValue {intervals : List UnreliableInterval}
    (h : ∀ interval ∈ intervals, checkpointInterval (intervalValue interval) = some interval) :
    (intervals.map intervalValue).mapM checkpointInterval = some intervals := by
  induction intervals with
  | nil => rfl
  | cons interval intervals ih =>
    rw [List.forall_mem_cons] at h
    rw [List.map_cons, List.mapM_cons, h.1, ih h.2]
    rfl

theorem mapM_textOfValue (texts : List String) :
    (texts.map Value.str).mapM textOfValue = some texts := by
  induction texts with
  | nil => rfl
  | cons text texts ih =>
    rw [List.map_cons, List.mapM_cons, ih]
    rfl

theorem mem_sortedSet {texts : List String} {text : String} : text ∈ sortedSet texts ↔
    text ∈ texts := by
  simp [sortedSet]

/-- An object is of JSON values where its keys are in order and its values are. -/
theorem plain_dict {items : List (String × Value)} (keys : List String)
    (hkeys : items.map Prod.fst = keys) (hsorted : keys.Pairwise (· < ·))
    (hvalues : ∀ item ∈ items, Json.Plain item.2) : Json.Plain (.dict items) := by
  subst hkeys
  exact ⟨List.pairwise_map.mp hsorted, Json.plainMembers_iff.mpr hvalues⟩

theorem plain_list {xs : List Value} (h : ∀ x ∈ xs, Json.Plain x) : Json.Plain (.list xs) :=
  Json.plainElements_iff.mpr h

theorem plain_levelValue (level : ℚ × ℚ) : Json.Plain (levelValue level) :=
  ⟨trivial, trivial, trivial⟩

/-- A book is written in JSON values only. -/
theorem plain_canonicalMapping (book : OrderBook) : Json.Plain book.canonicalMapping := by
  refine plain_dict ["asks", "bids", "market", "schema_version", "symbol", "update_id"] rfl
    (by decide)
    ?_
  have hlevels : ∀ levels : List (ℚ × ℚ), Json.Plain (.list (levels.map levelValue)) := by
    intro levels
    refine plain_list fun x hx => ?_
    obtain ⟨level, -, rfl⟩ := List.mem_map.mp hx
    exact plain_levelValue level
  simp only [List.forall_mem_cons]
  exact ⟨hlevels _, hlevels _, trivial, trivial, trivial, trivial, by simp⟩

theorem plain_intervalValue (interval : UnreliableInterval) :
    Json.Plain (intervalValue interval) := by
  refine plain_dict ["complete", "ended_at_update_id", "last_reliable_update_id", "market",
    "offending_final_update_id", "offending_first_update_id", "reason",
    "started_at_receive_time_utc_ns"] rfl (by decide) ?_
  simp only [List.forall_mem_cons]
  refine ⟨trivial, ?_, trivial, trivial, trivial, trivial, trivial, trivial, by simp⟩
  cases interval.endedAtUpdateId <;> trivial

/-- A checkpoint is written in JSON values only. -/
theorem plain_savedDocument (book : OrderBook) (intervals : List UnreliableInterval)
    (request : CheckpointRequest) : Json.Plain (savedDocument book intervals request) := by
  refine plain_dict ["algorithm_version", "book", "book_hash", "checkpoint_id", "checkpoint_sha256",
    "collector_version", "created_at_utc_ns", "schema_version", "source_chunk_hashes",
    "unreliable_intervals"] rfl (by decide) ?_
  simp only [List.cons_append, List.nil_append, List.forall_mem_cons]
  refine ⟨trivial, plain_canonicalMapping book, trivial, trivial, trivial, trivial,
    trivial, trivial,
    plain_list ?_, plain_list ?_, by simp⟩
  · intro x hx
    obtain ⟨text, -, rfl⟩ := List.mem_map.mp hx
    trivial
  · intro x hx
    obtain ⟨interval, -, rfl⟩ := List.mem_map.mp hx
    exact plain_intervalValue interval

/-- What `save` demands of its inputs. -/
structure CheckpointRequest.Valid (request : CheckpointRequest) : Prop where
  version : request.collectorVersion ≠ ""
  hashes : request.sourceChunkHashes ≠ []
  digests : ∀ hash ∈ request.sourceChunkHashes, isDigest hash = true

/-- A checkpoint passes the check on where it comes from. -/
theorem validProvenance_savedDocument {book : OrderBook} {intervals : List UnreliableInterval}
    {request : CheckpointRequest} (h : request.Valid) :
    validProvenance (savedDocument book intervals request) = true := by
  have hid : (savedDocument book intervals request).get? "checkpoint_id" =
      some (.str request.checkpointId) := rfl
  have hversion : (savedDocument book intervals request).get? "collector_version" =
      some (.str request.collectorVersion) := rfl
  have hcreated : (savedDocument book intervals request).get? "created_at_utc_ns" =
      some (.int (.ofNat request.createdAtUtcNs)) := rfl
  have hlist : sourceHashes (savedDocument book intervals request) =
      ((sortedSet request.sourceChunkHashes).map Value.str).mapM textOfValue := rfl
  have hne : sortedSet request.sourceChunkHashes ≠ [] := by
    obtain ⟨hash, hmem⟩ := List.exists_mem_of_ne_nil _ h.hashes
    exact List.ne_nil_of_mem (mem_sortedSet.mpr hmem)
  have hdigests : (sortedSet request.sourceChunkHashes).all isDigest = true :=
    List.all_eq_true.mpr fun hash hmem => h.digests hash (mem_sortedSet.mp hmem)
  rw [validProvenance, hid, hversion, hcreated, hlist, mapM_textOfValue]
  simp [request.checkpointId_ne, h.version, hne, hdigests]

/-- What is written is restored: the book and the intervals. -/
theorem restoreCheckpoint_savedDocument {book : OrderBook} {intervals : List UnreliableInterval}
    {request : CheckpointRequest} (hrequest : request.Valid) (hbook : book.WellFormed)
    (hintervals : ∀ interval ∈ intervals, checkpointInterval (intervalValue interval) =
    some interval) :
    restoreCheckpoint (some (savedDocument book intervals request)) = .ok (book, intervals) := by
  have hdict : (savedDocument book intervals request).isDict = true := rfl
  have hschema : (savedDocument book intervals request).get? "schema_version" =
      some (.str checkpointSchema) := rfl
  have halgorithm : (savedDocument book intervals request).get? "algorithm_version" =
      some (.str reconstructorVersion) := rfl
  have hsha : (savedDocument book intervals request).get? "checkpoint_sha256" = some (.str
      (documentHash (withoutKey (savedDocument book intervals request) "checkpoint_sha256"))) :=
    rfl
  obtain ⟨items, hitems⟩ : ∃ items, book.canonicalMapping = .dict items := ⟨_, rfl⟩
  have hmapping := OrderBook.fromMapping_canonicalMapping hbook
  rw [hitems] at hmapping
  have hget : (savedDocument book intervals request).get? "book" = some (.dict items) :=
    congrArg some hitems
  have hhash : (savedDocument book intervals request).get? "book_hash" =
      some (.str book.logicalHash) := rfl
  have hlist : checkpointIntervals ((savedDocument book intervals request).get?
      "unreliable_intervals") = (intervals.map intervalValue).mapM checkpointInterval := rfl
  rw [restoreCheckpoint]
  simp only [hdict, hschema, halgorithm, validProvenance_savedDocument hrequest, hsha, hget,
    hmapping, hhash, hlist, mapM_intervalValue hintervals, Bool.true_eq_false, ne_eq,
    not_true_eq_false, if_false]

/-! ## Every reconstructor -/

namespace LocalBookReconstructor

/-- A reconstructor as its constructor, a checkpoint and calls can make it. -/
inductive Reachable : LocalBookReconstructor → Prop
  | create {market : Market} {symbol : String} {capacity warningCount : Nat} {limit : Option Nat}
      {r : LocalBookReconstructor} (h : create market symbol capacity warningCount limit = .ok r) :
      Reachable r
  | restored {file : Option Value} {book : OrderBook} {intervals : List UnreliableInterval}
      {capacity warningCount : Nat} {r : LocalBookReconstructor}
      (hfile : restoreCheckpoint file = .ok (book, intervals))
      (h : fromCheckpoint book intervals capacity warningCount = .ok r) : Reachable r
  | call {r s : LocalBookReconstructor} {call : DepthCall} {result : Option SynchronizeResult}
      (h : Reachable r) (hcall : r.perform call = .ok (s, result)) : Reachable s

/-- An interval that a checkpoint can keep. -/
structure KeptInterval (interval : UnreliableInterval) : Prop where
  market_mem : interval.market ∈ bookMarkets
  reason_ne : interval.reason ≠ ""
  complete : interval.complete = false

/-- What holds of every reconstructor: a checkpoint can keep it. -/
structure Restorable (r : LocalBookReconstructor) : Prop where
  market_mem : r.market ∈ bookMarkets
  book : ∀ book, r.book = some book →
    book.WellFormed ∧ book.market = r.market ∧ book.symbol = r.symbol
  reliable : r.state = .synchronized → ∃ book, r.book = some book
  intervals : ∀ interval ∈ r.unreliableIntervals, KeptInterval interval

variable {r s : LocalBookReconstructor}

/-- Audits, buffers and warnings are not kept. -/
theorem Restorable.congr (h : Restorable r) (hsame : SameBook r s)
    (hintervals : s.unreliableIntervals = r.unreliableIntervals) : Restorable s where
  market_mem := by
    rw [hsame.market]
    exact h.market_mem
  book := by
    rw [hsame.book, hsame.market, hsame.symbol]
    exact h.book
  reliable := by
    rw [hsame.state, hsame.book]
    exact h.reliable
  intervals := by
    rw [hintervals]
    exact h.intervals

/-- A sequence gap has a reason. -/
theorem gapReason_ne {updateId : Nat} {update : DepthUpdate} {reason : String}
    (h : r.gapReason updateId update = some reason) : reason ≠ "" := by
  unfold gapReason at h
  split at h
  · split at h
    · rw [← Option.some.inj h]
      decide
    · cases h
  · split at h
    · rw [← Option.some.inj h]
      decide
    · cases h

/-- A live update leaves the book restorable. -/
theorem Restorable.applyLive (h : Restorable r) {update : DepthUpdate} {applied : Bool}
    (hrun : r.applyLive update = .ok (s, applied)) : Restorable s := by
  unfold LocalBookReconstructor.applyLive at hrun
  cases hbook : r.book with
  | none =>
    rw [hbook] at hrun
    cases hrun
  | some book =>
    rw [hbook] at hrun
    dsimp only at hrun
    obtain ⟨hwell, hmarket, hsymbol⟩ := h.book book hbook
    by_cases hcovered : update.finalUpdateId ≤ book.updateId
    · rw [if_pos hcovered] at hrun
      obtain ⟨rfl, -⟩ := Prod.mk.inj (Except.ok.inj hrun)
      exact h.congr (sameBook_recordAudit r _) rfl
    rw [if_neg hcovered] at hrun
    cases hreason : r.gapReason book.updateId update with
    | some reason =>
      rw [hreason] at hrun
      obtain ⟨rfl, -⟩ := Prod.mk.inj (Except.ok.inj hrun)
      refine ⟨h.market_mem, h.book, by rintro ⟨⟩, fun interval hmem => ?_⟩
      rcases List.mem_append.mp hmem with hmem | hmem
      · exact h.intervals interval hmem
      · rw [List.mem_singleton.mp hmem]
        exact ⟨h.market_mem, gapReason_ne hreason, rfl⟩
    | none =>
      rw [hreason] at hrun
      obtain ⟨next, hnext, hrun⟩ := except_bind_eq_ok hrun
      obtain ⟨rfl, -⟩ := Prod.mk.inj (Except.ok.inj hrun)
      have hnextEq : next = book.applyUpdate update := by
        unfold OrderBook.apply at hnext
        split at hnext
        · cases hnext
        · exact (Except.ok.inj hnext).symm
      have hafter : Restorable { r with book := some next } := by
        refine ⟨h.market_mem, fun other hother => ?_, fun _ => ⟨next, rfl⟩, h.intervals⟩
        rw [← Option.some.inj hother, hnextEq]
        exact ⟨hwell.applyUpdate update, hmarket, hsymbol⟩
      exact hafter.congr (sameBook_auditBook _ _) (auditBook_unreliableIntervals _ _)

/-- So do the updates of the buffer. -/
theorem Restorable.applyBuffered : ∀ {updates : List DepthUpdate} {r s : LocalBookReconstructor}
    {applied : Bool}, Restorable r → r.applyBuffered updates = .ok (s, applied) → Restorable s
  | [], _, _, _, h, hrun => by
    obtain ⟨rfl, -⟩ := Prod.mk.inj (Except.ok.inj hrun)
    exact h
  | update :: updates, r, s, applied, h, hrun => by
    obtain ⟨⟨middle, taken⟩, hlive, hrun⟩ := except_bind_eq_ok hrun
    have hmiddle := h.applyLive hlive
    cases taken with
    | true => exact hmiddle.applyBuffered hrun
    | false =>
      obtain ⟨rfl, -⟩ := Prod.mk.inj (Except.ok.inj hrun)
      exact ⟨hmiddle.market_mem, hmiddle.book, hmiddle.reliable, hmiddle.intervals⟩

/-- Closing the intervals of a resynchronization leaves the book restorable. -/
theorem Restorable.closeResync (h : Restorable r) (wasResync : Bool) :
    Restorable (r.closeResync wasResync) := by
  have hsame := sameBook_closeResync r wasResync
  refine ⟨by rw [hsame.market]; exact h.market_mem,
    by rw [hsame.book, hsame.market, hsame.symbol]; exact h.book,
    by rw [hsame.state, hsame.book]; exact h.reliable, ?_⟩
  unfold LocalBookReconstructor.closeResync
  split
  · next book _ =>
    rw [recordAudit_unreliableIntervals, closeUnreliableInterval]
    split
    · exact h.intervals
    · next latest hlatest =>
      split
      · intro interval hmem
        rcases List.mem_append.mp hmem with hmem | hmem
        · exact h.intervals interval (List.dropLast_subset _ hmem)
        · have hkept := h.intervals latest (List.mem_of_getLast? hlatest)
          rw [List.mem_singleton.mp hmem]
          exact ⟨hkept.market_mem, hkept.reason_ne, hkept.complete⟩
      · exact h.intervals
  · exact h.intervals

/-- **A synchronization leaves the book restorable.** -/
theorem Restorable.synchronize (h : Restorable r) {snapshot : BookSnapshot}
    {result : SynchronizeResult}
    (hrun : r.synchronize snapshot = .ok (s, result)) : Restorable s := by
  obtain ⟨_, hidentity, hrun⟩ := except_bind_eq_ok hrun
  obtain ⟨hmarket, hsymbol⟩ := checkIdentity_eq_ok.mp hidentity
  split at hrun
  · obtain ⟨rfl, -⟩ := Prod.mk.inj (Except.ok.inj hrun)
    exact h
  split at hrun
  · obtain ⟨rfl, -⟩ := Prod.mk.inj (Except.ok.inj hrun)
    exact ⟨h.market_mem, h.book, h.reliable, h.intervals⟩
  · next first candidates _ =>
    split at hrun
    · obtain ⟨rfl, -⟩ := Prod.mk.inj (Except.ok.inj hrun)
      exact h
    obtain ⟨book, hbook, hrun⟩ := except_bind_eq_ok hrun
    obtain ⟨⟨next, applied⟩, hbuffered, hrun⟩ := except_bind_eq_ok hrun
    have hbookEq : book = (OrderBook.ofSnapshot snapshot).applyUpdate first := by
      unfold OrderBook.apply at hbook
      split at hbook
      · cases hbook
      · exact (Except.ok.inj hbook).symm
    have hbridged : Restorable { r with
        book := some book
        state := .synchronized
        buffer := []
        bootstrapBufferWarned := false
        bootstrapBufferOverflowed := false } := by
      refine ⟨h.market_mem, fun other hother => ?_, fun _ => ⟨book, rfl⟩, h.intervals⟩
      rw [← Option.some.inj hother, hbookEq]
      exact ⟨(OrderBook.wellFormed_ofSnapshot snapshot).applyUpdate first, hmarket, hsymbol⟩
    have hnext := (hbridged.congr (sameBook_auditBook _ _)
      (auditBook_unreliableIntervals _ _)).applyBuffered hbuffered
    cases applied with
    | true =>
      obtain ⟨rfl, -⟩ := Prod.mk.inj (Except.ok.inj hrun)
      exact hnext.closeResync _
    | false =>
      obtain ⟨rfl, -⟩ := Prod.mk.inj (Except.ok.inj hrun)
      exact hnext

/-- An update that comes to a reconstructor without a reliable book: it is kept or let go. -/
theorem offer_buffering (hstate : r.state ≠ .synchronized) {update : DepthUpdate}
    (hidentity : r.checkIdentity update.market update.symbol = .ok ()) :
    ∃ s, r.offer update = .ok (s, false) ∧ s.market = r.market ∧ s.symbol = r.symbol ∧
      s.state = r.state ∧ s.book = r.book ∧ s.unreliableIntervals = r.unreliableIntervals := by
  unfold offer
  rw [hidentity]
  simp only [bind, Except.bind]
  rw [if_neg hstate]
  split
  · exact ⟨_, rfl, rfl, rfl, rfl, rfl, rfl⟩
  · split
    · exact ⟨_, rfl, rfl, rfl, rfl, rfl, rfl⟩
    · split
      · exact ⟨_, rfl, rfl, rfl, rfl, rfl, rfl⟩
      · exact ⟨_, rfl, rfl, rfl, rfl, rfl, rfl⟩

/-- **An offered update leaves the book restorable.** -/
theorem Restorable.offer (h : Restorable r) {update : DepthUpdate} {applied : Bool}
    (hrun : r.offer update = .ok (s, applied)) : Restorable s := by
  obtain ⟨_, hidentity, hlive⟩ := except_bind_eq_ok hrun
  by_cases hstate : r.state = .synchronized
  · rw [if_pos hstate] at hlive
    exact h.applyLive hlive
  · obtain ⟨next, hnext, hmarket, hsymbol, hsame, hbook, hintervals⟩ :=
      offer_buffering hstate hidentity
    obtain ⟨rfl, -⟩ := Prod.mk.inj (Except.ok.inj (hnext.symm.trans hrun))
    refine ⟨by rw [hmarket]; exact h.market_mem, by rw [hbook, hmarket, hsymbol]; exact h.book,
      by rw [hsame, hbook]; exact h.reliable, by rw [hintervals]; exact h.intervals⟩

/-- A new book is restorable and of its market and symbol. -/
theorem create_restorable {market : Market} {symbol : String} {capacity warningCount : Nat}
    {limit : Option Nat} (h : create market symbol capacity warningCount limit = .ok r) :
    Restorable r ∧ r.market = market ∧ r.symbol = symbol := by
  unfold create at h
  split at h
  · cases h
  next hidentity =>
  split at h
  · cases h
  split at h
  · cases h
  rw [not_or, not_not] at hidentity
  obtain rfl := Except.ok.inj h
  exact ⟨⟨hidentity.1, by rintro book ⟨⟩, by rintro ⟨⟩, by rintro interval ⟨⟩⟩, rfl, rfl⟩

/-- `from_checkpoint` keeps the book and the intervals. -/
theorem fromCheckpoint_eq_ok {book : OrderBook} {intervals : List UnreliableInterval}
    {capacity warningCount : Nat}
    (h : fromCheckpoint book intervals capacity warningCount = .ok r) :
    r.market = book.market ∧ r.symbol = book.symbol ∧ r.state = .synchronized ∧ r.book = some book ∧
      r.unreliableIntervals = intervals := by
  obtain ⟨created, hcreated, h⟩ := except_bind_eq_ok h
  obtain ⟨-, hmarket, hsymbol⟩ := create_restorable hcreated
  rw [← Except.ok.inj h]
  exact ⟨hmarket, hsymbol, rfl, rfl, rfl⟩

/-- A book of a document is well formed. -/
theorem wellFormed_fromMapping {value : Value} {book : OrderBook}
    (h : OrderBook.fromMapping value = .ok book) : book.WellFormed := by
  unfold OrderBook.fromMapping at h
  split at h
  · cases h
  · obtain ⟨snapshot, -, h⟩ := except_bind_eq_ok h
    rw [← Except.ok.inj h]
    exact OrderBook.wellFormed_ofSnapshot snapshot

/-- An interval that is read back can be written again. -/
theorem keptInterval_checkpointInterval {value : Value} {interval : UnreliableInterval}
    (h : checkpointInterval value = some interval) : KeptInterval interval := by
  unfold checkpointInterval at h
  split at h
  · next marketText reason _ _ =>
    obtain ⟨market, -, h⟩ := Option.bind_eq_some_iff.mp h
    obtain ⟨_, hguard, h⟩ := Option.bind_eq_some_iff.mp h
    obtain ⟨last, -, h⟩ := Option.bind_eq_some_iff.mp h
    obtain ⟨first, -, h⟩ := Option.bind_eq_some_iff.mp h
    obtain ⟨final, -, h⟩ := Option.bind_eq_some_iff.mp h
    obtain ⟨started, -, h⟩ := Option.bind_eq_some_iff.mp h
    have hkept : market ∈ bookMarkets ∧ reason ≠ "" := by
      by_contra hnot
      rw [guard, if_neg hnot] at hguard
      cases hguard
    -- the end of the interval does not matter here
    dsimp only at h
    split at h
    all_goals
      obtain ⟨ended, -, h⟩ := Option.bind_eq_some_iff.mp h
      rw [← Option.some.inj h]
      exact ⟨hkept.1, hkept.2, rfl⟩
  · cases h

/-- So can the intervals of a whole checkpoint. -/
theorem keptInterval_mapM : ∀ {items : List Value} {intervals : List UnreliableInterval},
    items.mapM checkpointInterval = some intervals → ∀ interval ∈ intervals, KeptInterval interval
  | [], _, h => by
    rw [← Option.some.inj h]
    rintro interval ⟨⟩
  | value :: items, intervals, h => by
    rw [List.mapM_cons] at h
    obtain ⟨first, hfirst, h⟩ := Option.bind_eq_some_iff.mp h
    obtain ⟨rest, hrest, h⟩ := Option.bind_eq_some_iff.mp h
    rw [← Option.some.inj h, List.forall_mem_cons]
    exact ⟨keptInterval_checkpointInterval hfirst, keptInterval_mapM hrest⟩

/-- What `restore` takes from a document can be kept again. -/
theorem restorable_restored {file : Option Value} {book : OrderBook}
    {intervals : List UnreliableInterval} {capacity warningCount : Nat}
    (hfile : restoreCheckpoint file = .ok (book, intervals))
    (h : fromCheckpoint book intervals capacity warningCount = .ok r) : Restorable r := by
  obtain ⟨hmarket, hsymbol, hstate, hbook, hintervals⟩ := fromCheckpoint_eq_ok h
  obtain ⟨document, rfl, hrestored⟩ := restored_of_restoreCheckpoint hfile
  obtain ⟨items, hitems, hmapping⟩ := hrestored.mapping
  have hwell := wellFormed_fromMapping hmapping
  obtain ⟨found, hfound⟩ := hrestored.intervals
  have hfoundEq : found = intervals := by
    rw [restoreCheckpoint] at hfile
    have hprovenance : validProvenance document = true := by
      by_contra hnot
      rw [Bool.not_eq_true] at hnot
      simp [hrestored.isDict, hrestored.schema, hrestored.algorithm, hnot] at hfile
    simp only [hrestored.isDict, hrestored.schema, hrestored.algorithm, hprovenance,
      hrestored.checkpointSha256, hitems, hmapping, hrestored.bookHash, hfound, Bool.true_eq_false,
      ne_eq, not_true_eq_false, if_false] at hfile
    exact (Prod.mk.inj (Except.ok.inj hfile)).2
  refine ⟨by rw [hmarket]; exact hwell.market_mem, fun other hother => ?_, fun _ =>
    ⟨book, hbook⟩, ?_⟩
  · obtain rfl := Option.some.inj (hbook.symm.trans hother)
    exact ⟨hwell, hmarket.symm, hsymbol.symm⟩
  · rw [hintervals, ← hfoundEq]
    unfold checkpointIntervals at hfound
    split at hfound
    · rw [← Option.some.inj hfound]
      rintro interval ⟨⟩
    · exact keptInterval_mapM hfound
    · cases hfound

/-- **Every reachable book is restorable.** -/
theorem Reachable.restorable (h : Reachable r) : Restorable r := by
  induction h with
  | create h => exact (create_restorable h).1
  | restored hfile h => exact restorable_restored hfile h
  | @call r s call result _ hcall ih =>
    cases call with
    | offer update =>
      unfold perform at hcall
      dsimp only at hcall
      cases hoffer : r.offer update with
      | error e =>
        rw [hoffer] at hcall
        cases hcall
      | ok outcome =>
        rw [hoffer] at hcall
        obtain ⟨rfl, -⟩ := Prod.mk.inj (Except.ok.inj hcall)
        exact ih.offer hoffer
    | synchronize snapshot =>
      unfold perform at hcall
      dsimp only at hcall
      cases hsynchronize : r.synchronize snapshot with
      | error e =>
        rw [hsynchronize] at hcall
        cases hcall
      | ok outcome =>
        rw [hsynchronize] at hcall
        obtain ⟨rfl, -⟩ := Prod.mk.inj (Except.ok.inj hcall)
        exact ih.synchronize hsynchronize
    | restartBootstrap =>
      obtain ⟨rfl, -⟩ := Prod.mk.inj (Except.ok.inj hcall)
      exact ⟨ih.market_mem, by rintro book ⟨⟩, by rintro ⟨⟩, ih.intervals⟩

/-! ## Going on -/

/-- Two reconstructors of one book with one state and one list of intervals. -/
structure Continues (r s : LocalBookReconstructor) : Prop where
  market : s.market = r.market
  symbol : s.symbol = r.symbol
  state : s.state = r.state
  book : s.book = r.book
  intervals : s.unreliableIntervals = r.unreliableIntervals

theorem Continues.symm (h : Continues r s) : Continues s r :=
  ⟨h.market.symm, h.symbol.symm, h.state.symm, h.book.symm, h.intervals.symm⟩

theorem Continues.trans {t : LocalBookReconstructor} (h : Continues r s) (h' : Continues s t) :
    Continues r t :=
  ⟨h'.market.trans h.market, h'.symbol.trans h.symbol, h'.state.trans h.state, h'.book.trans h.book,
    h'.intervals.trans h.intervals⟩

/-- Equal books with equal intervals go on alike. -/
theorem SameBook.continues (h : SameBook r s)
    (hintervals : s.unreliableIntervals = r.unreliableIntervals) : Continues r s :=
  ⟨h.market, h.symbol, h.state, h.book, hintervals⟩

/-- Two calls go on alike: both fail, or both leave reconstructors that continue each other. -/
inductive Alike : Except String (LocalBookReconstructor × Bool) →
    Except String (LocalBookReconstructor × Bool) → Prop
  | failed (e : String) : Alike (.error e) (.error e)
  | done {r s : LocalBookReconstructor} (h : Continues r s) (applied : Bool) :
    Alike (.ok (r, applied)) (.ok (s, applied))

/-- What answers alike goes on alike, also where both raise. -/
theorem Alike.after {first second : Except String (LocalBookReconstructor × Bool)}
    (halike : Alike first second) (h : Continues r s) :
    Continues ((first.toOption.map Prod.fst).getD r) ((second.toOption.map Prod.fst).getD s) := by
  cases halike with
  | failed e => exact h
  | done hafter applied => exact hafter

/-- **Books that go on alike answer a live update alike.** -/
theorem Continues.applyLive (h : Continues r s) (update : DepthUpdate) :
    Alike (r.applyLive update) (s.applyLive update) := by
  unfold LocalBookReconstructor.applyLive
  rw [h.book]
  cases hbook : r.book with
  | none => exact .failed _
  | some book =>
    dsimp only
    by_cases hcovered : update.finalUpdateId ≤ book.updateId
    · rw [if_pos hcovered, if_pos hcovered]
      refine .done ?_ true
      have hfirst := (sameBook_recordAudit r ⟨"duplicate_or_stale_depth", r.market,
        update.finalUpdateId, "absolute update already covered by the local book"⟩).continues rfl
      have hsecond := (sameBook_recordAudit s ⟨"duplicate_or_stale_depth", s.market,
        update.finalUpdateId, "absolute update already covered by the local book"⟩).continues rfl
      exact (hfirst.symm.trans h).trans hsecond
    rw [if_neg hcovered, if_neg hcovered]
    have hgap : s.gapReason book.updateId update = r.gapReason book.updateId update := by
      rw [gapReason, gapReason, h.market]
    rw [hgap]
    cases r.gapReason book.updateId update with
    | some reason =>
      refine .done ?_ false
      refine ⟨h.market, h.symbol, rfl, h.book, ?_⟩
      show s.unreliableIntervals ++ [_] = r.unreliableIntervals ++ [_]
      rw [h.intervals, h.market]
    | none =>
      dsimp only
      cases book.apply update with
      | error e => exact .failed e
      | ok next =>
        refine .done ?_ true
        have hfirst := (sameBook_auditBook { r with book := some next } next).continues
          (auditBook_unreliableIntervals _ _)
        have hsecond := (sameBook_auditBook { s with book := some next } next).continues
          (auditBook_unreliableIntervals _ _)
        have hmiddle : Continues { r with book := some next } { s with book := some next } :=
          ⟨h.market, h.symbol, h.state, rfl, h.intervals⟩
        exact (hfirst.symm.trans hmiddle).trans hsecond

/-- **An update** does the same to both. -/
theorem Continues.offer (h : Continues r s) (update : DepthUpdate) :
    Alike (r.offer update) (s.offer update) := by
  have hidentity : s.checkIdentity update.market update.symbol =
      r.checkIdentity update.market update.symbol := by
    rw [checkIdentity, checkIdentity, h.market, h.symbol]
  cases hcheck : r.checkIdentity update.market update.symbol with
  | error e =>
    unfold LocalBookReconstructor.offer
    rw [hidentity, hcheck]
    exact .failed e
  | ok u =>
    by_cases hstate : r.state = .synchronized
    · have hother : s.state = .synchronized := h.state.trans hstate
      unfold LocalBookReconstructor.offer
      rw [hidentity, hcheck]
      simp only [bind, Except.bind]
      rw [if_pos hstate, if_pos hother]
      exact h.applyLive update
    · have hother : s.state ≠ .synchronized := fun heq => hstate (h.state.symm.trans heq)
      obtain ⟨r', hr', hmarket, hsymbol, hsame, hbook, hintervals⟩ := offer_buffering hstate hcheck
      obtain ⟨s', hs', hmarket', hsymbol', hsame', hbook', hintervals'⟩ :=
        offer_buffering hother (hidentity.trans hcheck)
      rw [hr', hs']
      have hfirst : Continues r r' := ⟨hmarket, hsymbol, hsame, hbook, hintervals⟩
      have hsecond : Continues s s' := ⟨hmarket', hsymbol', hsame', hbook', hintervals'⟩
      exact .done ((hfirst.symm.trans h).trans hsecond) false

/-- Updates offered one after another; one that is refused leaves the reconstructor as it is. -/
def offerEach (r : LocalBookReconstructor) (updates : List DepthUpdate) : LocalBookReconstructor :=
  updates.foldl (fun r update => ((r.offer update).toOption.map Prod.fst).getD r) r

/-- So they do for any updates, one after another. -/
theorem Continues.offerEach {updates : List DepthUpdate} :
    ∀ {r s : LocalBookReconstructor}, Continues r s →
      Continues (r.offerEach updates) (s.offerEach updates) := by
  induction updates with
  | nil => exact fun h => h
  | cons update updates ih =>
    intro r s h
    refine ih (r := ((r.offer update).toOption.map Prod.fst).getD r)
      (s := ((s.offer update).toOption.map Prod.fst).getD s) ?_
    exact (h.offer update).after h

end LocalBookReconstructor

/-- A reliable reconstructor is saved, and the text is restored to one that continues it. -/
theorem exists_restored {r : LocalBookReconstructor} (h : r.Reachable)
    (hreliable : r.isReliable = true)
    {request : CheckpointRequest} (hrequest : request.Valid) :
    ∃ text restored, saveCheckpoint r request = .ok text ∧
      restoreReconstructor text = .ok restored ∧
      r.Continues restored := by
  have hrestorable := h.restorable
  have hstate : r.state = .synchronized := of_decide_eq_true hreliable
  obtain ⟨book, hbook⟩ := hrestorable.reliable hstate
  obtain ⟨hwell, hmarket, hsymbol⟩ := hrestorable.book book hbook
  have hdigests : (request.sourceChunkHashes.any fun hash => !isDigest hash) = false := by
    rw [List.any_eq_false]
    intro hash hmem
    rw [hrequest.digests hash hmem]
    decide
  have hsave : saveCheckpoint r request =
      .ok (JsonText.renderValue (savedDocument book r.unreliableIntervals request)) := by
    rw [saveCheckpoint, hreliable, hdigests, hbook]
    simp [hrequest.version, hrequest.hashes]
  have hintervals : ∀ interval ∈ r.unreliableIntervals,
      checkpointInterval (intervalValue interval) = some interval := by
    intro interval hmem
    have hkept := hrestorable.intervals interval hmem
    exact checkpointInterval_intervalValue hkept.market_mem hkept.reason_ne hkept.complete
  have hrestore : restoreCheckpoint
      (Json.decode (JsonText.renderValue (savedDocument book r.unreliableIntervals request))) =
        .ok (book, r.unreliableIntervals) := by
    rw [JsonText.decode_renderValue (plain_savedDocument book r.unreliableIntervals request)]
    exact restoreCheckpoint_savedDocument hrequest hwell hintervals
  have hcreated : ∃ restored, LocalBookReconstructor.fromCheckpoint book r.unreliableIntervals 8192
      6144 = .ok restored := by
    have hidentity : ¬ (book.market ∉ bookMarkets ∨ book.symbol = "") := by
      rintro (hnot | hempty)
      · exact hnot hwell.market_mem
      · exact hwell.symbol_ne hempty
    unfold LocalBookReconstructor.fromCheckpoint LocalBookReconstructor.create
    rw [if_neg hidentity, if_neg (by decide), if_neg (by decide)]
    exact ⟨_, rfl⟩
  obtain ⟨restored, hrestored⟩ := hcreated
  refine ⟨_, restored, hsave, ?_, ?_⟩
  · rw [restoreReconstructor, hrestore]
    exact hrestored
  · obtain ⟨hrestoredMarket, hrestoredSymbol, hrestoredState, hrestoredBook, hrestoredIntervals⟩ :=
      LocalBookReconstructor.fromCheckpoint_eq_ok hrestored
    exact ⟨hrestoredMarket.trans hmarket, hrestoredSymbol.trans hsymbol,
      hrestoredState.trans hstate.symm, hrestoredBook.trans hbook.symm, hrestoredIntervals⟩

/-- **Going on from a checkpoint** is going on with the reconstructor that was saved, whatever
updates come before it is synchronized anew; and the mapping of a book, however its numbers are
spelled, is decoded to the book. -/
theorem checkpoint_continues :
    (∀ (r : LocalBookReconstructor) (request : CheckpointRequest), r.Reachable →
      r.isReliable = true → request.Valid → ∃ text restored, saveCheckpoint r request = .ok text ∧
        restoreReconstructor text = .ok restored ∧ ∀ updates : List DepthUpdate,
          (restored.offerEach updates).book = (r.offerEach updates).book ∧
          (restored.offerEach updates).book.map OrderBook.logicalHash =
            (r.offerEach updates).book.map OrderBook.logicalHash ∧
          (restored.offerEach updates).state = (r.offerEach updates).state ∧
          (restored.offerEach updates).unreliableIntervals =
            (r.offerEach updates).unreliableIntervals) ∧
    ∀ (snapshot : BookSnapshot) (updates : List DepthUpdate),
      OrderBook.fromMapping ((OrderBook.ofSnapshot snapshot).applyAll updates).canonicalMapping =
        .ok ((OrderBook.ofSnapshot snapshot).applyAll updates) ∧
      ∀ (bids asks : List (String × String)) (bidLevels askLevels : List (ℚ × ℚ)),
        OrderBook.Spells bids bidLevels → OrderBook.Spells asks askLevels →
        bidLevels.Perm ((OrderBook.ofSnapshot snapshot).applyAll updates).bids.items →
        askLevels.Perm ((OrderBook.ofSnapshot snapshot).applyAll updates).asks.items →
        OrderBook.fromMapping
            (((OrderBook.ofSnapshot snapshot).applyAll updates).mappingWith bids asks) =
          .ok ((OrderBook.ofSnapshot snapshot).applyAll updates) := by
  refine ⟨fun r request hreachable hreliable hrequest => ?_, fun snapshot updates => ?_⟩
  · obtain ⟨text, restored, hsave, hrestore, hcontinues⟩ :=
      exists_restored hreachable hreliable hrequest
    refine ⟨text, restored, hsave, hrestore, fun updates => ?_⟩
    have hafter := @LocalBookReconstructor.Continues.offerEach updates _ _ hcontinues
    exact ⟨hafter.book, by rw [hafter.book], hafter.state, hafter.intervals⟩
  · have hwell := (OrderBook.wellFormed_ofSnapshot snapshot).applyAll updates
    refine ⟨OrderBook.fromMapping_canonicalMapping hwell, ?_⟩
    intro bids asks bidLevels askLevels hbids hasks hbidLevels haskLevels
    exact OrderBook.fromMapping_spelled hwell hbids hbidLevels hasks haskLevels

/-- The reconstructor behind any calls. -/
theorem BookHistory.reachable_after (calls : List DepthCall) : ∀ {history : BookHistory},
    history.reconstructor.Reachable → (history.after calls).reconstructor.Reachable := by
  induction calls with
  | nil => exact fun h => h
  | cons call calls ih =>
    intro history h
    refine @ih (history.next call) ?_
    unfold BookHistory.next
    split
    · exact h
    · next hcall => exact .call h hcall

def sampleRequest : CheckpointRequest where
  checkpointId := "checkpoint"
  createdAtUtcNs := 1
  collectorVersion := "1"
  sourceChunkHashes := [String.ofList (List.replicate 64 'a')]
  checkpointId_ne := by decide

/-- The book that the sample calls leave. -/
def sampleBook : OrderBook := (OrderBook.ofSnapshot sampleSnapshot).applyAll [sampleUpdate]

/-- A checkpoint is followed by an update, and its levels are spelled in other ways. -/
theorem checkpoint_continues_sample :
    (∃ text restored book,
      saveCheckpoint
        ((BookHistory.mk sampleReconstructor none []).after sampleDepthCalls).reconstructor
        sampleRequest = .ok text ∧ restoreReconstructor text = .ok restored ∧
      (restored.offerEach [liveUpdate]).book = some book ∧ book.updateId = 15 ∧
      (restored.offerEach [liveUpdate]).isReliable = true) ∧
    OrderBook.fromMapping
      (sampleBook.mappingWith [("\u0661.50", "20e-1")] [("\u2003+15E-1", "2_.0\u3000")]) =
        .ok sampleBook := by
  set r := ((BookHistory.mk sampleReconstructor none []).after
    sampleDepthCalls).reconstructor with hr
  have hreachable : r.Reachable :=
    BookHistory.reachable_after sampleDepthCalls
      (@LocalBookReconstructor.Reachable.create .spot "BTCUSDT" 2 1 none sampleReconstructor rfl)
  have hreliable : r.isReliable = true := by
    rw [hr]
    decide +kernel
  constructor
  · obtain ⟨text, restored, hsave, hrestore, hsame⟩ :=
      checkpoint_continues.1 r sampleRequest hreachable
      hreliable ⟨by decide, by decide, by decide⟩
    obtain ⟨hbook, -, hstate, -⟩ := hsame [liveUpdate]
    have hlive : ((r.offerEach [liveUpdate]).book.map OrderBook.updateId,
        (r.offerEach [liveUpdate]).state) = (some 15, .synchronized) := by
      rw [hr]
      decide +kernel
    obtain ⟨hid, hsynchronized⟩ := Prod.mk.inj hlive
    obtain ⟨book, hlast, hid⟩ := Option.map_eq_some_iff.mp hid
    exact ⟨text, restored, book, hsave, hrestore, hbook.trans hlast, hid,
      decide_eq_true (hstate.trans hsynchronized)⟩
  · have hspelled : levelDecimals ("\u0661.50", "20e-1") = .ok (3 / 2, 2) ∧
        levelDecimals ("\u2003+15E-1", "2_.0\u3000") = .ok (3 / 2, 2) := by
      constructor <;> with_unfolding_all rfl
    have hitems : sampleBook.bids.items = [(3 / 2, 2)] ∧ sampleBook.asks.items = [(3 / 2, 2)] := by
      decide +kernel
    refine (checkpoint_continues.2 sampleSnapshot [sampleUpdate]).2 _ _ _ _
      (.cons hspelled.1 .nil) (.cons hspelled.2 .nil) ?_ ?_
    · exact List.Perm.of_eq hitems.1.symm
    · exact List.Perm.of_eq hitems.2.symm

end MarketDataRecorder
