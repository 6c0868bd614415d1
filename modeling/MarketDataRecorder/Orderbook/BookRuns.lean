import MarketDataRecorder.Orderbook.Reconstructor

/-!
# Runs of the reconstructor

A reliable book is made of the last snapshot that was accepted and of a chain of updates: the first
one bridges the snapshot, and every other one follows the one before it. The chain leaves out none
of the updates that the book was given but those that were covered when their turn came.

* `Built` — such a book
* `acceptedUpdates` — the updates that a book is to accept
* `BookHistory.Sound` — what every call preserves
* `reliable_book_sound` — **what a reliable book is**, and what it does with the next update
-/

namespace MarketDataRecorder

/-! ## Chains -/

/-- The id that the first update on a snapshot has to reach. -/
def BookSnapshot.target (snapshot : BookSnapshot) : Nat :=
  if snapshot.market = .spot then snapshot.lastUpdateId + 1 else snapshot.lastUpdateId

/-- An update that bridges a snapshot. -/
def Bridges (snapshot : BookSnapshot) (update : DepthUpdate) : Prop :=
  update.firstUpdateId ≤ snapshot.target ∧ snapshot.target ≤ update.finalUpdateId

/-- An update that follows an id. -/
structure Follows (market : Market) (updateId : Nat) (update : DepthUpdate) : Prop where
  new : updateId < update.finalUpdateId
  spot : market = .spot → update.firstUpdateId ≤ updateId + 1
  futures : market ≠ .spot → update.previousFinalUpdateId = some updateId

/-- A book made of a snapshot and a chain of updates. -/
inductive Built (snapshot : BookSnapshot) : List DepthUpdate → OrderBook → Prop
  | bridge {update : DepthUpdate} (h : Bridges snapshot update) :
      Built snapshot [update] ((OrderBook.ofSnapshot snapshot).applyUpdate update)
  | follow {chain : List DepthUpdate} {book : OrderBook} {update : DepthUpdate}
      (hbuilt : Built snapshot chain book) (h : Follows snapshot.market book.updateId update) :
      Built snapshot (chain ++ [update]) (book.applyUpdate update)

namespace Built

variable {snapshot : BookSnapshot} {chain : List DepthUpdate} {book : OrderBook}

/-- A book built from a snapshot is of its market and symbol. -/
theorem identity (h : Built snapshot chain book) :
    book.market = snapshot.market ∧ book.symbol = snapshot.symbol := by
  induction h with
  | bridge => exact ⟨rfl, rfl⟩
  | follow _ _ ih => exact ih

/-- A book built by a chain is the chain applied to the snapshot. -/
theorem eq_foldl (h : Built snapshot chain book) :
    book = chain.foldl OrderBook.applyUpdate (OrderBook.ofSnapshot snapshot) := by
  induction h with
  | bridge => rfl
  | follow _ _ ih =>
    rw [List.foldl_append, ← ih]
    rfl

/-- The last update of the chain gives the book its id. -/
theorem getLast? (h : Built snapshot chain book) :
    chain.getLast?.map DepthUpdate.finalUpdateId = some book.updateId := by
  cases h with
  | bridge => rfl
  | follow =>
    rw [List.getLast?_concat]
    rfl

/-- On the spot market every id behind the snapshot is in the range of an update. -/
theorem covers (h : Built snapshot chain book) (hspot : snapshot.market = .spot) :
    ∀ id, snapshot.lastUpdateId < id → id ≤ book.updateId →
      ∃ update ∈ chain, update.firstUpdateId ≤ id ∧ id ≤ update.finalUpdateId := by
  induction h with
  | @bridge update hbridge =>
    intro id hlt hle
    rw [Bridges, BookSnapshot.target, if_pos hspot] at hbridge
    refine ⟨update, List.mem_singleton_self _, ?_, hle⟩
    have hfirst := hbridge.1
    omega
  | @follow chain book update _ hfollows ih =>
    intro id hlt hle
    by_cases hold : id ≤ book.updateId
    · obtain ⟨other, hmem, hrange⟩ := ih id hlt hold
      exact ⟨other, List.mem_append_left _ hmem, hrange⟩
    · have hfirst := hfollows.spot hspot
      refine ⟨update, List.mem_append_right _ (List.mem_singleton_self _), ?_, hle⟩
      omega

/-- On a futures market the first update straddles the snapshot, and every other one names the one
before it. -/
theorem links (h : Built snapshot chain book) (hfutures : snapshot.market ≠ .spot) :
    (∃ first rest, chain = first :: rest ∧ first.firstUpdateId ≤ snapshot.lastUpdateId ∧
      snapshot.lastUpdateId ≤ first.finalUpdateId) ∧
    chain.IsChain fun previous update =>
      update.previousFinalUpdateId = some previous.finalUpdateId := by
  induction h with
  | @bridge update hbridge =>
    rw [Bridges, BookSnapshot.target, if_neg hfutures] at hbridge
    exact ⟨⟨update, [], rfl, hbridge⟩, List.isChain_singleton _⟩
  | @follow chain book update hbuilt hfollows ih =>
    obtain ⟨⟨first, rest, rfl, hstraddles⟩, hchain⟩ := ih
    refine ⟨⟨first, rest ++ [update], rfl, hstraddles⟩, ?_⟩
    refine List.isChain_append.mpr ⟨hchain, List.isChain_singleton _, ?_⟩
    intro last hlast head hhead
    obtain rfl : update = head := Option.some.inj hhead
    have hid := hbuilt.getLast?
    rw [hlast] at hid
    rw [hfollows.futures hfutures, ← Option.some.inj hid]

end Built

/-! ## The updates that a book is to accept -/

/-- One more update behind a chain: the first one has to reach the snapshot, and every other one has
to go beyond the chain. -/
def acceptUpdate (snapshot : BookSnapshot) (chain : List DepthUpdate) (update : DepthUpdate) :
    List DepthUpdate :=
  match chain.getLast? with
  | none => if snapshot.target ≤ update.finalUpdateId then [update] else []
  | some last => if update.finalUpdateId ≤ last.finalUpdateId then chain else chain ++ [update]

/-- Of the updates that a book is given, those that are not covered when their turn comes. -/
def acceptedUpdates (snapshot : BookSnapshot) (given : List DepthUpdate) : List DepthUpdate :=
  given.foldl (acceptUpdate snapshot) []

/-- The updates from the first one on that is not covered and does not follow. -/
def fromGap (market : Market) : Nat → List DepthUpdate → List DepthUpdate
  | _, [] => []
  | id, update :: updates =>
    if update.finalUpdateId ≤ id then fromGap market id updates
    else if market = .spot ∧ update.firstUpdateId ≤ id + 1 ∨
        market ≠ .spot ∧ update.previousFinalUpdateId = some id then
      fromGap market update.finalUpdateId updates
    else update :: updates

/-- What is left of the updates on a snapshot when one of them does not follow. -/
def behindGap (snapshot : BookSnapshot) (given : List DepthUpdate) : List DepthUpdate :=
  match given.filter fun update => snapshot.target ≤ update.finalUpdateId with
  | [] => []
  | first :: rest => fromGap snapshot.market first.finalUpdateId rest

section

variable {snapshot : BookSnapshot} {chain given : List DepthUpdate} {update : DepthUpdate}

/-- What is accepted is decided update by update. -/
theorem acceptedUpdates_append (given more : List DepthUpdate) :
    acceptedUpdates snapshot (given ++ more) =
      more.foldl (acceptUpdate snapshot) (acceptedUpdates snapshot given) := by
  rw [acceptedUpdates, List.foldl_append]
  rfl

/-- Behind an update, what is not newer is dropped. -/
theorem acceptUpdate_of_last {id : Nat}
    (hlast : chain.getLast?.map DepthUpdate.finalUpdateId = some id) (update : DepthUpdate) :
    acceptUpdate snapshot chain update =
      if update.finalUpdateId ≤ id then chain else chain ++ [update] := by
  obtain ⟨last, hget, rfl⟩ := Option.map_eq_some_iff.mp hlast
  rw [acceptUpdate, hget]

/-- A chain, once it is begun, has reached the snapshot. -/
def Reaches (snapshot : BookSnapshot) (chain : List DepthUpdate) : Prop :=
  ∀ last, chain.getLast? = some last → snapshot.target ≤ last.finalUpdateId

/-- Accepting an update keeps the end of the chain at the snapshot's target or behind it. -/
theorem Reaches.acceptUpdate (h : Reaches snapshot chain) (update : DepthUpdate) :
    Reaches snapshot (acceptUpdate snapshot chain update) := by
  unfold MarketDataRecorder.acceptUpdate
  split
  · split
    · next htarget =>
      intro last hlast
      obtain rfl : update = last := Option.some.inj hlast
      exact htarget
    · intro last hlast
      cases hlast
  · next last hlast =>
    split
    · exact h
    · next hnew =>
      intro other hother
      rw [List.getLast?_concat] at hother
      obtain rfl := Option.some.inj hother
      have hreaches := h last hlast
      omega

/-- An update that ends before the snapshot is not accepted. -/
theorem acceptUpdate_of_old (h : Reaches snapshot chain)
    (hold : ¬ snapshot.target ≤ update.finalUpdateId) :
    acceptUpdate snapshot chain update = chain := by
  unfold acceptUpdate
  split
  · next hnone => rw [if_neg hold, List.getLast?_eq_none_iff.mp hnone]
  · next last hlast =>
    have hreaches := h last hlast
    rw [if_pos (by omega)]

/-- **Filtering the buffer by the target accepts the same updates.** -/
theorem foldl_acceptUpdate_filter : ∀ (given : List DepthUpdate) {chain : List DepthUpdate},
    Reaches snapshot chain →
      (given.filter fun update => snapshot.target ≤ update.finalUpdateId).foldl
          (acceptUpdate snapshot) chain =
        given.foldl (acceptUpdate snapshot) chain
  | [], _, _ => rfl
  | update :: given, chain, h => by
    rw [List.foldl_cons]
    by_cases hreaches : snapshot.target ≤ update.finalUpdateId
    · rw [List.filter_cons_of_pos (by simpa using hreaches), List.foldl_cons,
        foldl_acceptUpdate_filter given (h.acceptUpdate update)]
    · rw [List.filter_cons_of_neg (by simpa using hreaches), acceptUpdate_of_old h hreaches,
        foldl_acceptUpdate_filter given h]

/-- The updates in front of the snapshot can be left out at once. -/
theorem acceptedUpdates_filter (given : List DepthUpdate) :
    acceptedUpdates snapshot
        (given.filter fun update => snapshot.target ≤ update.finalUpdateId) =
      acceptedUpdates snapshot given :=
  foldl_acceptUpdate_filter given fun last hlast => by cases hlast

/-- The accepted updates are given ones, in their order. -/
theorem sublist_foldl_acceptUpdate : ∀ (given : List DepthUpdate) (chain : List DepthUpdate),
    (given.foldl (acceptUpdate snapshot) chain).Sublist (chain ++ given)
  | [], chain => by rw [List.append_nil]; exact List.Sublist.refl _
  | update :: given, chain => by
    have hone : (acceptUpdate snapshot chain update).Sublist (chain ++ [update]) := by
      unfold acceptUpdate
      split
      · split
        · exact List.sublist_append_right _ _
        · exact List.nil_sublist _
      · split
        · exact List.sublist_append_left _ _
        · exact List.Sublist.refl _
    have hrest := sublist_foldl_acceptUpdate given (acceptUpdate snapshot chain update)
    rw [List.foldl_cons]
    refine hrest.trans ?_
    rw [List.append_cons]
    exact hone.append (List.Sublist.refl given)

theorem sublist_fromGap (market : Market) : ∀ (given : List DepthUpdate) (id : Nat),
    (fromGap market id given).Sublist given
  | [], _ => List.Sublist.refl _
  | update :: given, id => by
    unfold fromGap
    split
    · exact (sublist_fromGap market given id).cons _
    · split
      · exact (sublist_fromGap market given _).cons _
      · exact List.Sublist.refl _

theorem sublist_behindGap (given : List DepthUpdate) :
    (behindGap snapshot given).Sublist given := by
  unfold behindGap
  split
  · exact List.nil_sublist _
  · next first rest hcandidates =>
    refine (sublist_fromGap _ rest _).trans ((List.sublist_cons_self first rest).trans ?_)
    rw [← hcandidates]
    exact List.filter_sublist

end

/-! ## Calls -/

inductive DepthCall where
  | offer (update : DepthUpdate)
  | synchronize (snapshot : BookSnapshot)
  | restartBootstrap

/-- What a call leaves, and the result of a snapshot. -/
def LocalBookReconstructor.perform (r : LocalBookReconstructor) :
    DepthCall → Except String (LocalBookReconstructor × Option SynchronizeResult)
  | .offer update => (r.offer update).map fun p => (p.1, none)
  | .synchronize snapshot => (r.synchronize snapshot).map fun p => (p.1, some p.2)
  | .restartBootstrap => .ok (r.restartBootstrap, none)

/-- A reconstructor with the last snapshot that it accepted, and the updates that it was given for
its book: those offered since the bootstrap began, or since the update that did not follow. -/
structure BookHistory where
  reconstructor : LocalBookReconstructor
  accepted : Option BookSnapshot := none
  given : List DepthUpdate := []

namespace BookHistory

/-- A snapshot is accepted when a book is made of it. -/
def acceptedBy (history : BookHistory) : DepthCall → Option SynchronizeResult → Option BookSnapshot
  | .synchronize snapshot, some .synchronized => some snapshot
  | .synchronize snapshot, some .sequenceGap => some snapshot
  | _, _ => history.accepted

/-- The updates given, by a call that leaves a reconstructor. -/
def givenBy (history : BookHistory) (next : LocalBookReconstructor) :
    DepthCall → Option SynchronizeResult → List DepthUpdate
  | .offer update, _ =>
    -- an update that does not follow ends the book, and is the first one for the next
    if history.reconstructor.isReliable ∧ next.isReliable = false then [update]
    else history.given ++ [update]
  | .synchronize snapshot, some .sequenceGap => behindGap snapshot history.given
  | .synchronize _, some .needMoreEvents =>
    -- a snapshot in front of which all the updates end makes them useless
    if history.reconstructor.isReliable then history.given else []
  | .synchronize _, _ => history.given
  | .restartBootstrap, _ => []

/-- One call; a call that is refused leaves everything as it was. -/
def next (history : BookHistory) (call : DepthCall) : BookHistory :=
  match history.reconstructor.perform call with
  | .error _ => history
  | .ok (r, result) => ⟨r, history.acceptedBy call result, history.givenBy r call result⟩

/-- The calls one after the other. -/
def after (history : BookHistory) (calls : List DepthCall) : BookHistory := calls.foldl next history

end BookHistory

/-- The update that a call offers. -/
def DepthCall.update? : DepthCall → Option DepthUpdate
  | .offer update => some update
  | _ => none

/-! ## What a call preserves -/

namespace LocalBookReconstructor

variable {r s : LocalBookReconstructor}

/-- No gap is found exactly where the market's rule on ids holds. -/
theorem gapReason_eq_none_iff {updateId : Nat} {update : DepthUpdate} :
    r.gapReason updateId update = none ↔
      (r.market = .spot → update.firstUpdateId ≤ updateId + 1) ∧
      (r.market ≠ .spot → update.previousFinalUpdateId = some updateId) := by
  unfold gapReason
  by_cases hspot : r.market = .spot
  · rw [if_pos hspot]
    simp [hspot]
  · rw [if_neg hspot]
    simp [hspot]

/-- A book of the reconstructor's own market and symbol. -/
structure Holds (r : LocalBookReconstructor) (snapshot : BookSnapshot)
    (chain : List DepthUpdate) : Prop where
  state : r.state = .synchronized
  buffer : r.buffer = []
  overflowed : r.bootstrapBufferOverflowed = false
  market : snapshot.market = r.market
  symbol : snapshot.symbol = r.symbol
  book : ∃ book, r.book = some book ∧ Built snapshot chain book

/-- What holds of a book holds of an equal one. -/
theorem Holds.sameBook {snapshot : BookSnapshot} {chain : List DepthUpdate}
    (h : r.Holds snapshot chain) (hsame : SameBook r s) : s.Holds snapshot chain where
  state := hsame.state.trans h.state
  buffer := hsame.buffer.trans h.buffer
  overflowed := hsame.overflowed.trans h.overflowed
  market := h.market.trans hsame.market.symm
  symbol := h.symbol.trans hsame.symbol.symm
  book := by
    rw [hsame.book]
    exact h.book

/-- The chain of a book ends with the id of the book. -/
theorem Holds.last {snapshot : BookSnapshot} {chain : List DepthUpdate} {book : OrderBook}
    (h : r.Holds snapshot chain) (hbook : r.book = some book) :
    chain.getLast?.map DepthUpdate.finalUpdateId = some book.updateId := by
  obtain ⟨other, hother, hbuilt⟩ := h.book
  obtain rfl : book = other := Option.some.inj (hbook.symm.trans hother)
  exact hbuilt.getLast?

/-- **No gap is found behind a newer update exactly where it follows.** -/
theorem gapReason_eq_none_iff_follows {updateId : Nat} {update : DepthUpdate}
    (hnew : updateId < update.finalUpdateId) :
    r.gapReason updateId update = none ↔ Follows r.market updateId update := by
  rw [gapReason_eq_none_iff]
  exact ⟨fun h => ⟨hnew, h.1, h.2⟩, fun h => ⟨h.spot, h.futures⟩⟩

/-- **One update on a reliable book**: it is covered, it is the next one of the chain, or the book
is not reliable any more. -/
theorem Holds.applyLive {snapshot : BookSnapshot} {chain : List DepthUpdate} {update : DepthUpdate}
    {book : OrderBook} (h : r.Holds snapshot chain) (hbook : r.book = some book)
    (hmarket : update.market = r.market) (hsymbol : update.symbol = r.symbol) :
    ∃ next applied, r.applyLive update = .ok (next, applied) ∧ next.market = r.market ∧
      next.symbol = r.symbol ∧ next.bootstrapBufferOverflowed = false ∧
      if applied then
        (update.finalUpdateId ≤ book.updateId ∨ Follows r.market book.updateId update) ∧
          next.Holds snapshot (acceptUpdate snapshot chain update) ∧
          next.book = some
            (if update.finalUpdateId ≤ book.updateId then book else book.applyUpdate update)
      else book.updateId < update.finalUpdateId ∧ ¬ Follows r.market book.updateId update ∧
        next.state = .resyncRequired ∧ next.buffer = [update] := by
  obtain ⟨other, hother, hbuilt⟩ := h.book
  obtain rfl : book = other := Option.some.inj (hbook.symm.trans hother)
  obtain ⟨hown, hownSymbol⟩ := hbuilt.identity
  obtain ⟨⟨next, applied⟩, hlive, hcases⟩ := applyLive_cases hbook
    (hmarket.trans (h.market.symm.trans hown.symm))
    (hsymbol.trans (h.symbol.symm.trans hownSymbol.symm))
  have haccept := @acceptUpdate_of_last snapshot chain _ (h.last hbook) update
  refine ⟨next, applied, hlive, ?_⟩
  cases hcases with
  | stale hcovered hsame =>
    rw [if_pos hcovered] at haccept
    refine ⟨hsame.market, hsame.symbol, hsame.overflowed.trans h.overflowed,
      Or.inl hcovered, ?_, ?_⟩
    · rw [haccept]
      exact h.sameBook hsame
    · rw [if_pos hcovered, hsame.book, hbook]
  | gap hnew hreason hsame =>
    refine ⟨hsame.market, hsame.symbol, hsame.overflowed.trans h.overflowed, hnew, ?_, hsame.state,
      hsame.buffer⟩
    rw [← gapReason_eq_none_iff_follows hnew, hreason]
    exact Option.some_ne_none _
  | applied hnew hreason hsame =>
    have hfollows := (gapReason_eq_none_iff_follows hnew).mp hreason
    have hnot : ¬ update.finalUpdateId ≤ book.updateId := by omega
    rw [if_neg hnot] at haccept
    refine ⟨hsame.market, hsame.symbol, hsame.overflowed.trans h.overflowed,
      Or.inr hfollows, ?_, ?_⟩
    · rw [haccept]
      refine Holds.sameBook (r := _) ?_ hsame
      refine ⟨h.state, h.buffer, h.overflowed, h.market, h.symbol, _, rfl, hbuilt.follow ?_⟩
      rw [h.market]
      exact hfollows
    · rw [if_neg hnot, hsame.book]

/-- The updates behind a bridge: they leave a reliable book of the chain that they make longer, or a
buffer that begins with the first of them that does not follow. -/
theorem Holds.applyBuffered {snapshot : BookSnapshot} :
    ∀ {updates chain : List DepthUpdate} {r : LocalBookReconstructor} {book : OrderBook},
      r.Holds snapshot chain → r.book = some book →
      (∀ update ∈ updates, update.market = r.market ∧ update.symbol = r.symbol) →
      ∃ next applied, r.applyBuffered updates = .ok (next, applied) ∧ next.market = r.market ∧
        next.symbol = r.symbol ∧ next.bootstrapBufferOverflowed = false ∧
        if applied then next.Holds snapshot (updates.foldl (acceptUpdate snapshot) chain)
        else next.state = .resyncRequired ∧
          next.buffer = fromGap r.market book.updateId updates
  | [], chain, r, book, h, _, _ => ⟨r, true, rfl, rfl, rfl, h.overflowed, h⟩
  | update :: updates, chain, r, book, h, hbook, hown => by
    rw [List.forall_mem_cons] at hown
    obtain ⟨middle, applied, hlive, hmarket, hsymbol, hoverflowed, hcases⟩ :=
      h.applyLive hbook hown.1.1 hown.1.2
    rw [LocalBookReconstructor.applyBuffered, hlive, fromGap]
    cases applied with
    | false =>
      obtain ⟨hnew, hnot, hstate, hbuffer⟩ := hcases
      have hlink : ¬ (r.market = .spot ∧ update.firstUpdateId ≤ book.updateId + 1 ∨
          r.market ≠ .spot ∧ update.previousFinalUpdateId = some book.updateId) := by
        rintro (⟨hspot, hfirst⟩ | ⟨hfutures, hprevious⟩)
        · exact hnot ⟨hnew, fun _ => hfirst, fun h => absurd hspot h⟩
        · exact hnot ⟨hnew, fun h => absurd h hfutures, fun _ => hprevious⟩
      refine ⟨{ middle with buffer := middle.buffer ++ updates }, false, rfl, hmarket, hsymbol,
        hoverflowed, hstate, ?_⟩
      rw [if_neg (by omega), if_neg hlink]
      show middle.buffer ++ updates = _
      rw [hbuffer]
      rfl
    | true =>
      obtain ⟨hfollows, hmiddle, hbook'⟩ := hcases
      have hrest : ∀ other ∈ updates,
          other.market = middle.market ∧ other.symbol = middle.symbol := by
        rw [hmarket, hsymbol]
        exact hown.2
      obtain ⟨next, applied, hnext, hm, hs, ho, hresult⟩ := hmiddle.applyBuffered hbook' hrest
      refine ⟨next, applied, hnext, hm.trans hmarket, hs.trans hsymbol, ho, ?_⟩
      cases applied with
      | true => exact hresult
      | false =>
        refine ⟨hresult.1, ?_⟩
        rw [hresult.2, hmarket]
        by_cases hcovered : update.finalUpdateId ≤ book.updateId
        · rw [if_pos hcovered, if_pos hcovered]
        · have hfollows := hfollows.resolve_left hcovered
          have hlink : r.market = .spot ∧ update.firstUpdateId ≤ book.updateId + 1 ∨
              r.market ≠ .spot ∧ update.previousFinalUpdateId = some book.updateId := by
            by_cases hspot : r.market = .spot
            · exact Or.inl ⟨hspot, hfollows.spot hspot⟩
            · exact Or.inr ⟨hspot, hfollows.futures hspot⟩
          rw [if_neg hcovered, if_neg hcovered, if_pos hlink, OrderBook.applyUpdate_updateId]

/-- What a snapshot does: it is not taken, or the buffer is made a book of it, as
far as that goes. -/
theorem synchronize_cases {snapshot : BookSnapshot}
    (hown : ∀ update ∈ r.buffer, update.market = r.market ∧ update.symbol = r.symbol)
    {next : LocalBookReconstructor} {result : SynchronizeResult}
    (h : r.synchronize snapshot = .ok (next, result)) :
    next.market = r.market ∧ next.symbol = r.symbol ∧
      match result with
      | .synchronized => ∃ chain, next.Holds snapshot chain ∧ r.buffer ≠ [] ∧
          chain = acceptedUpdates snapshot r.buffer
      | .sequenceGap => next.state = .resyncRequired ∧ r.buffer ≠ [] ∧
          next.bootstrapBufferOverflowed = false ∧ next.buffer = behindGap snapshot r.buffer
      | .snapshotTooOld => next = r
      | .needMoreEvents => (r.buffer = [] → next = r) ∧ next.state = r.state ∧
        next.buffer = [] := by
  unfold synchronize at h
  cases hidentity : r.checkIdentity snapshot.market snapshot.symbol with
  | error e =>
    rw [hidentity] at h
    cases h
  | ok u =>
  obtain ⟨hmarket, hsymbol⟩ := checkIdentity_eq_ok.mp hidentity
  have htarget : r.bootstrapTarget snapshot = snapshot.target := by
    rw [bootstrapTarget, BookSnapshot.target, hmarket]
  rw [hidentity, htarget] at h
  simp only [bind, Except.bind] at h
  by_cases hempty : r.buffer = []
  · rw [if_pos hempty] at h
    obtain ⟨rfl, rfl⟩ := Prod.mk.inj (Except.ok.inj h)
    exact ⟨rfl, rfl, fun _ => rfl, rfl, hempty⟩
  · rw [if_neg hempty] at h
    -- The buffer is filtered first; accepting gives the same chain either way.
    have hfiltered : (r.buffer.filter fun update =>
        snapshot.target ≤ update.finalUpdateId).Sublist r.buffer := List.filter_sublist
    have haccepted := @acceptedUpdates_filter snapshot r.buffer
    have hbehind : behindGap snapshot r.buffer = _ := rfl
    rw [behindGap] at hbehind
    cases hcandidates : r.buffer.filter fun update =>
        snapshot.target ≤ update.finalUpdateId with
    | nil =>
      rw [hcandidates] at h
      obtain ⟨rfl, rfl⟩ := Prod.mk.inj (Except.ok.inj h)
      exact ⟨rfl, rfl, fun hnil => absurd hnil hempty, rfl, rfl⟩
    | cons first candidates =>
      rw [hcandidates] at h hfiltered haccepted
      dsimp only at h
      by_cases hbridges : first.firstUpdateId ≤ snapshot.target ∧
          snapshot.target ≤ first.finalUpdateId
      · rw [if_neg (not_not.mpr hbridges)] at h
        have hfirst := hown first (hfiltered.mem List.mem_cons_self)
        rw [apply_eq_ok (hfirst.1.trans hmarket.symm) (hfirst.2.trans hsymbol.symm)] at h
        dsimp only at h
        set bridged := auditBook _ _ with hbridged
        have hsame := sameBook_auditBook { r with
          book := some ((OrderBook.ofSnapshot snapshot).applyUpdate first)
          state := .synchronized
          buffer := []
          bootstrapBufferWarned := false
          bootstrapBufferOverflowed := false } ((OrderBook.ofSnapshot snapshot).applyUpdate first)
        have hholds : bridged.Holds snapshot [first] := by
          refine Holds.sameBook ?_ (sameBook_auditBook _ _)
          exact ⟨rfl, rfl, rfl, hmarket, hsymbol, _, rfl, Built.bridge hbridges⟩
        have hbook : bridged.book = some ((OrderBook.ofSnapshot snapshot).applyUpdate first) :=
          hsame.book
        have hrest : ∀ update ∈ candidates,
            update.market = bridged.market ∧ update.symbol = bridged.symbol := by
          intro update hmem
          rw [hbridged, hsame.market, hsame.symbol]
          exact hown update (hfiltered.mem (List.mem_cons_of_mem _ hmem))
        obtain ⟨last, applied, hlast, hm, hs, ho, hresult⟩ := hholds.applyBuffered hbook hrest
        rw [hlast] at h
        cases applied with
        | false =>
          obtain ⟨rfl, rfl⟩ := Prod.mk.inj (Except.ok.inj h)
          refine ⟨hm.trans hsame.market, hs.trans hsame.symbol, hresult.1, hempty, ho, ?_⟩
          have hbridgedMarket : bridged.market = snapshot.market :=
            hsame.market.trans hmarket.symm
          rw [hresult.2, hbridgedMarket, behindGap, hcandidates]
          rfl
        | true =>
          obtain ⟨rfl, rfl⟩ := Prod.mk.inj (Except.ok.inj h)
          have hclose := sameBook_closeResync last (decide (r.state = .resyncRequired))
          refine ⟨hclose.market.trans (hm.trans hsame.market),
            hclose.symbol.trans (hs.trans hsame.symbol), _, hresult.sameBook hclose, hempty, ?_⟩
          have hone : acceptUpdate snapshot [] first = [first] := if_pos hbridges.2
          rw [← haccepted, acceptedUpdates, List.foldl_cons, hone]
      · rw [if_pos hbridges] at h
        obtain ⟨rfl, rfl⟩ := Prod.mk.inj (Except.ok.inj h)
        exact ⟨rfl, rfl, rfl⟩

end LocalBookReconstructor

namespace BookHistory

/-- **What every call preserves.** The buffer has the updates given, until it has overflowed. -/
structure Sound (history : BookHistory) : Prop where
  own : ∀ update ∈ history.reconstructor.buffer,
    update.market = history.reconstructor.market ∧ update.symbol = history.reconstructor.symbol
  waiting : history.reconstructor.state ≠ .synchronized → history.reconstructor.buffer =
    if history.reconstructor.bootstrapBufferOverflowed then [] else history.given
  reliable : history.reconstructor.state = .synchronized →
    ∃ snapshot chain, history.accepted = some snapshot ∧
      history.reconstructor.Holds snapshot chain ∧
      chain = acceptedUpdates snapshot history.given

variable {history : BookHistory}

theorem isReliable_eq_true {r : LocalBookReconstructor} :
    r.isReliable = true ↔ r.state = .synchronized := decide_eq_true_iff

theorem isReliable_eq_false {r : LocalBookReconstructor} :
    r.isReliable = false ↔ r.state ≠ .synchronized := decide_eq_false_iff_not

/-- **An offer keeps the history sound**, applied or not. -/
theorem Sound.offer (h : history.Sound) {update : DepthUpdate} {next : LocalBookReconstructor}
    {applied : Bool} (hoffer : history.reconstructor.offer update = .ok (next, applied)) :
    Sound ⟨next, history.accepted, history.givenBy next (.offer update) none⟩ := by
  set r := history.reconstructor with hr
  unfold LocalBookReconstructor.offer at hoffer
  cases hidentity : r.checkIdentity update.market update.symbol with
  | error e =>
    rw [hidentity] at hoffer
    cases hoffer
  | ok u =>
  obtain ⟨hmarket, hsymbol⟩ := LocalBookReconstructor.checkIdentity_eq_ok.mp hidentity
  rw [hidentity] at hoffer
  simp only [bind, Except.bind] at hoffer
  -- A synchronized book applies the update; any other one buffers it.
  by_cases hstate : r.state = .synchronized
  · rw [if_pos hstate] at hoffer
    obtain ⟨snapshot, chain, haccepted, hholds, hchain⟩ := h.reliable hstate
    obtain ⟨book, hbook, -⟩ := hholds.book
    obtain ⟨next', applied', hlive, hm, hs, ho, hcases⟩ := hholds.applyLive hbook hmarket hsymbol
    obtain ⟨rfl, rfl⟩ := Prod.mk.inj (Except.ok.inj (hlive.symm.trans hoffer))
    cases applied' with
    | false =>
      obtain ⟨-, -, hresync, hbuffer⟩ := hcases
      have hnot : next'.state ≠ .synchronized := by
        rw [hresync]
        rintro ⟨⟩
      refine ⟨?_, ?_, fun hsynchronized => absurd hsynchronized hnot⟩
      · intro other hother
        rw [hbuffer] at hother
        rw [List.mem_singleton.mp hother, hm, hs]
        exact ⟨hmarket, hsymbol⟩
      · intro _
        rw [hbuffer, ho]
        show [update] = if r.isReliable ∧ next'.isReliable = false then [update] else _
        rw [if_pos ⟨isReliable_eq_true.mpr hstate, isReliable_eq_false.mpr hnot⟩]
    | true =>
      obtain ⟨-, hnext, -⟩ := hcases
      have hgiven : history.givenBy next' (.offer update) none = history.given ++ [update] := by
        refine if_neg fun h => ?_
        exact isReliable_eq_false.mp h.2 hnext.state
      refine ⟨?_, fun hnot => absurd hnext.state hnot, fun _ => ⟨snapshot, _, haccepted, hnext, ?_⟩⟩
      · rw [hnext.buffer]
        exact fun _ hmem => absurd hmem List.not_mem_nil
      · dsimp only
        rw [hgiven, acceptedUpdates_append, ← hchain]
        rfl
  · rw [if_neg hstate] at hoffer
    have hgiven : history.givenBy next (.offer update) none = history.given ++ [update] :=
      if_neg fun h => hstate (isReliable_eq_true.mp h.1)
    rw [hgiven]
    -- A full buffer is dropped as a whole, and nothing is buffered behind it.
    by_cases hoverflowed : r.bootstrapBufferOverflowed = true
    · rw [if_pos hoverflowed] at hoffer
      obtain ⟨rfl, rfl⟩ := Prod.mk.inj (Except.ok.inj hoffer)
      refine ⟨h.own, fun _ => ?_, fun hs => absurd hs hstate⟩
      have hwaiting := h.waiting hstate
      rw [← hr, if_pos hoverflowed] at hwaiting
      rw [if_pos hoverflowed, hwaiting]
    · rw [if_neg hoverflowed] at hoffer
      by_cases hfull : r.bootstrapBufferCapacity ≤ r.buffer.length
      · rw [if_pos hfull] at hoffer
        obtain ⟨rfl, rfl⟩ := Prod.mk.inj (Except.ok.inj hoffer)
        exact ⟨fun _ hmem => absurd hmem List.not_mem_nil, fun _ => rfl,
          fun hs => absurd hs hstate⟩
      · rw [if_neg hfull] at hoffer
        have hbuffered : next.market = r.market ∧ next.symbol = r.symbol ∧
            next.state = r.state ∧ next.buffer = r.buffer ++ [update] ∧
            next.bootstrapBufferOverflowed = r.bootstrapBufferOverflowed := by
          split at hoffer
          · obtain ⟨rfl, -⟩ := Prod.mk.inj (Except.ok.inj hoffer)
            exact ⟨rfl, rfl, rfl, rfl, rfl⟩
          · obtain ⟨rfl, -⟩ := Prod.mk.inj (Except.ok.inj hoffer)
            exact ⟨rfl, rfl, rfl, rfl, rfl⟩
        obtain ⟨hm, hs, hnext, hbuffer, ho⟩ := hbuffered
        refine ⟨?_, ?_, fun hsynchronized => absurd (hnext.symm.trans hsynchronized) hstate⟩
        · rw [hbuffer, hm, hs]
          intro other hother
          rcases List.mem_append.mp hother with hother | hother
          · exact h.own other hother
          · rw [List.mem_singleton.mp hother]
            exact ⟨hmarket, hsymbol⟩
        · intro _
          have hwaiting := h.waiting hstate
          rw [← hr, if_neg hoverflowed] at hwaiting
          rw [hbuffer, ho, if_neg hoverflowed, hwaiting]

/-- **A synchronization keeps the history sound**, whatever its result. -/
theorem Sound.synchronize (h : history.Sound) {snapshot : BookSnapshot}
    {next : LocalBookReconstructor} {result : SynchronizeResult}
    (hsync : history.reconstructor.synchronize snapshot = .ok (next, result)) :
    Sound ⟨next, history.acceptedBy (.synchronize snapshot) (some result),
      history.givenBy next (.synchronize snapshot) (some result)⟩ := by
  obtain ⟨hm, hs, hcases⟩ := LocalBookReconstructor.synchronize_cases h.own hsync
  -- a buffer with updates is not that of a reliable book, and has not overflowed
  have hbuffer : history.reconstructor.buffer ≠ [] →
      history.reconstructor.buffer = history.given := by
    intro hne
    have hstate : history.reconstructor.state ≠ .synchronized := by
      intro hstate
      obtain ⟨_, _, -, hholds, -⟩ := h.reliable hstate
      exact hne hholds.buffer
    have hwaiting := h.waiting hstate
    split at hwaiting
    · exact absurd hwaiting hne
    · exact hwaiting
  cases result with
  | synchronized =>
    obtain ⟨chain, hchain, hne, haccepted⟩ := hcases
    refine ⟨?_, fun hnot => absurd hchain.state hnot,
      fun _ => ⟨snapshot, chain, rfl, hchain, ?_⟩⟩
    · rw [hchain.buffer]
      exact fun _ hmem => absurd hmem List.not_mem_nil
    · rw [haccepted, hbuffer hne]
      rfl
  | sequenceGap =>
    obtain ⟨hresync, hne, ho, hbehind⟩ := hcases
    have hnot : next.state ≠ .synchronized := by
      rw [hresync]
      rintro ⟨⟩
    refine ⟨?_, fun _ => ?_, fun hsynchronized => absurd hsynchronized hnot⟩
    · intro update hmem
      rw [hm, hs]
      rw [hbehind] at hmem
      exact h.own update ((sublist_behindGap _).mem hmem)
    · rw [hbehind, ho, hbuffer hne]
      rfl
  | snapshotTooOld =>
    rw [hcases]
    exact h
  | needMoreEvents =>
    obtain ⟨hsame, hstate, hempty⟩ := hcases
    refine ⟨?_, fun hnot => ?_, fun hsynchronized => ?_⟩
    · rw [hempty]
      exact fun _ hmem => absurd hmem List.not_mem_nil
    · have hgiven : history.givenBy next (.synchronize snapshot) (some .needMoreEvents) = [] := by
        refine if_neg fun hreliable => hnot ?_
        rw [hstate]
        exact isReliable_eq_true.mp hreliable
      rw [hempty, hgiven, ite_self]
    · -- a reliable book has no buffer, so nothing was dropped
      obtain ⟨other, chain, haccepted, hholds, hchain⟩ :=
        h.reliable (hstate.symm.trans hsynchronized)
      have hgiven : history.givenBy next (.synchronize snapshot) (some .needMoreEvents) =
          history.given := if_pos (isReliable_eq_true.mpr hholds.state)
      dsimp only
      rw [hgiven, hsame hholds.buffer]
      exact ⟨other, chain, haccepted, hholds, hchain⟩

/-- Every call keeps the history sound. -/
theorem Sound.next (h : history.Sound) (call : DepthCall) : (history.next call).Sound := by
  unfold BookHistory.next
  cases hperform : history.reconstructor.perform call with
  | error e => exact h
  | ok outcome =>
    obtain ⟨r, result⟩ := outcome
    cases call with
    | offer update =>
      cases hoffer : history.reconstructor.offer update with
      | error e =>
        rw [LocalBookReconstructor.perform, hoffer] at hperform
        cases hperform
      | ok p =>
        rw [LocalBookReconstructor.perform, hoffer] at hperform
        obtain ⟨rfl, rfl⟩ := Prod.mk.inj (Except.ok.inj hperform)
        exact h.offer hoffer
    | synchronize snapshot =>
      cases hsync : history.reconstructor.synchronize snapshot with
      | error e =>
        rw [LocalBookReconstructor.perform, hsync] at hperform
        cases hperform
      | ok p =>
        rw [LocalBookReconstructor.perform, hsync] at hperform
        obtain ⟨rfl, rfl⟩ := Prod.mk.inj (Except.ok.inj hperform)
        exact h.synchronize hsync
    | restartBootstrap =>
      obtain ⟨rfl, rfl⟩ := Prod.mk.inj (Except.ok.inj hperform)
      refine ⟨fun _ hmem => absurd hmem List.not_mem_nil, fun _ => rfl, ?_⟩
      rintro ⟨⟩

/-- Every run keeps the history sound. -/
theorem Sound.after :
    ∀ (calls : List DepthCall) {history : BookHistory}, history.Sound → (history.after calls).Sound
  | [], _, h => h
  | call :: calls, _, h => Sound.after calls (h.next call)

/-- The history of a new book is sound. -/
theorem sound_create {market : Market} {symbol : String} {capacity warningCount : Nat}
    {limit : Option Nat} {r : LocalBookReconstructor}
    (hcreate : LocalBookReconstructor.create market symbol capacity warningCount limit = .ok r) :
    Sound ⟨r, none, []⟩ := by
  unfold LocalBookReconstructor.create at hcreate
  split at hcreate
  · cases hcreate
  · split at hcreate
    · cases hcreate
    · split at hcreate
      · cases hcreate
      · obtain rfl := Except.ok.inj hcreate
        refine ⟨fun _ hmem => absurd hmem List.not_mem_nil, fun _ => rfl, ?_⟩
        rintro ⟨⟩

/-! ## Offered updates -/

/-- What is given grows by the call's own update. -/
theorem sublist_givenBy (next : LocalBookReconstructor) (call : DepthCall)
    (result : Option SynchronizeResult) :
    (history.givenBy next call result).Sublist (history.given ++ call.update?.toList) := by
  unfold givenBy
  split
  · split
    · exact List.sublist_append_right _ _
    · exact List.Sublist.refl _
  · exact (sublist_behindGap _).trans (List.sublist_append_left _ _)
  · split
    · exact List.sublist_append_left _ _
    · exact List.nil_sublist _
  · exact List.sublist_append_left _ _
  · exact List.nil_sublist _

/-- The updates given are among those that the calls offer, in their order. -/
theorem sublist_given_after : ∀ (calls : List DepthCall) (history : BookHistory),
    (history.after calls).given.Sublist (history.given ++ calls.filterMap DepthCall.update?)
  | [], history => by rw [List.filterMap_nil, List.append_nil]; exact List.Sublist.refl _
  | call :: calls, history => by
    have hone : (history.next call).given.Sublist (history.given ++ call.update?.toList) := by
      unfold BookHistory.next
      split
      · exact List.sublist_append_left _ _
      · exact sublist_givenBy _ _ _
    have hcons : (call :: calls).filterMap DepthCall.update? =
        call.update?.toList ++ calls.filterMap DepthCall.update? := by
      rw [List.filterMap_cons]
      cases call.update? <;> rfl
    rw [hcons, ← List.append_assoc]
    exact (sublist_given_after calls (history.next call)).trans
      (hone.append (List.Sublist.refl _))

end BookHistory

/-! ## Reliable books -/

/-- **What a reliable book does with the next update**: it passes over one that is covered, applies
one that follows, and ends at any other one. -/
theorem LocalBookReconstructor.Holds.offer {r : LocalBookReconstructor} {snapshot : BookSnapshot}
    {chain : List DepthUpdate} {book : OrderBook} {update : DepthUpdate}
    (h : r.Holds snapshot chain) (hbook : r.book = some book) (hmarket : update.market = r.market)
    (hsymbol : update.symbol = r.symbol) :
    ∃ next applied, r.offer update = .ok (next, applied) ∧ next.isReliable = applied ∧
      (applied = true ↔
        update.finalUpdateId ≤ book.updateId ∨ Follows r.market book.updateId update) ∧
      (applied = true → next.reliableUpdateId = some (max book.updateId update.finalUpdateId)) := by
  obtain ⟨next, applied, hlive, -, -, -, hcases⟩ := h.applyLive hbook hmarket hsymbol
  have hoffer : r.offer update = .ok (next, applied) := by
    have hidentity := checkIdentity_eq_ok.mpr ⟨hmarket, hsymbol⟩
    rw [LocalBookReconstructor.offer, hidentity]
    show (if r.state = .synchronized then r.applyLive update else _) = _
    rw [if_pos h.state, hlive]
  refine ⟨next, applied, hoffer, ?_⟩
  cases applied with
  | false =>
    obtain ⟨hnew, hnot, hstate, -⟩ := hcases
    refine ⟨?_, iff_of_false Bool.false_ne_true ?_, fun h => absurd h Bool.false_ne_true⟩
    · rw [BookHistory.isReliable_eq_false, hstate]
      rintro ⟨⟩
    · rintro (hcovered | hfollows)
      · omega
      · exact hnot hfollows
  | true =>
    obtain ⟨hfollows, hnext, hbook'⟩ := hcases
    have hreliable := BookHistory.isReliable_eq_true.mpr hnext.state
    refine ⟨hreliable, iff_of_true rfl hfollows, fun _ => ?_⟩
    rw [reliableUpdateId, if_pos hreliable, hbook', Option.map_some]
    split
    · next hcovered => rw [max_eq_left hcovered]
    · next hnew => rw [max_eq_right (by omega), OrderBook.applyUpdate_updateId]

/-- **What a reliable book is**, after any calls: the levels of the last accepted snapshot, overlaid
in order by a contiguous chain: of the updates that were given for it all that were not covered when
their turn came. -/
theorem reliable_book_sound {market : Market} {symbol : String} {capacity warningCount : Nat}
    {limit : Option Nat} {r : LocalBookReconstructor}
    (hcreate : LocalBookReconstructor.create market symbol capacity warningCount limit = .ok r)
    (calls : List DepthCall) {history : BookHistory}
    (hhistory : (BookHistory.mk r none []).after calls = history)
    (hreliable : history.reconstructor.isReliable = true) :
    ∃ snapshot chain book, history.accepted = some snapshot ∧
      history.reconstructor.book = some book ∧ chain = acceptedUpdates snapshot history.given ∧
      chain.Sublist (calls.filterMap DepthCall.update?) ∧
      book.bids = OrderBook.overlay (OrderBook.ofSnapshot snapshot).bids
        (chain.map DepthUpdate.bids) ∧
      book.asks = OrderBook.overlay (OrderBook.ofSnapshot snapshot).asks
        (chain.map DepthUpdate.asks) ∧
      chain.getLast?.map DepthUpdate.finalUpdateId = some book.updateId ∧
      history.reconstructor.reliableUpdateId = some book.updateId ∧
      (snapshot.market = .spot → ∀ id, snapshot.lastUpdateId < id → id ≤ book.updateId →
        ∃ update ∈ chain, update.firstUpdateId ≤ id ∧ id ≤ update.finalUpdateId) ∧
      (snapshot.market ≠ .spot →
        (∃ first rest, chain = first :: rest ∧ first.firstUpdateId ≤ snapshot.lastUpdateId ∧
          snapshot.lastUpdateId ≤ first.finalUpdateId) ∧
        chain.IsChain fun previous update =>
          update.previousFinalUpdateId = some previous.finalUpdateId) ∧
      ∀ update : DepthUpdate, update.market = history.reconstructor.market →
        update.symbol = history.reconstructor.symbol →
        ∃ next applied, history.reconstructor.offer update = .ok (next, applied) ∧
          next.isReliable = applied ∧
          (applied = true ↔ update.finalUpdateId ≤ book.updateId ∨
            Follows history.reconstructor.market book.updateId update) ∧
          (applied = true →
            next.reliableUpdateId = some (max book.updateId update.finalUpdateId)) := by
  have hsound : history.Sound := by
    rw [← hhistory]
    exact BookHistory.Sound.after calls (BookHistory.sound_create hcreate)
  have hgiven : history.given.Sublist (calls.filterMap DepthCall.update?) := by
    rw [← hhistory]
    exact BookHistory.sublist_given_after calls _
  obtain ⟨snapshot, chain, haccepted, hholds, hchain⟩ :=
    hsound.reliable (of_decide_eq_true hreliable)
  obtain ⟨book, hbook, hbuilt⟩ := hholds.book
  refine ⟨snapshot, chain, book, haccepted, hbook, hchain, ?_, ?_, ?_, hbuilt.getLast?, ?_,
    hbuilt.covers, hbuilt.links, fun update hmarket hsymbol => hholds.offer hbook hmarket hsymbol⟩
  · rw [hchain]
    exact (sublist_foldl_acceptUpdate history.given []).trans hgiven
  · rw [hbuilt.eq_foldl, OrderBook.bids_foldl_apply]
  · rw [hbuilt.eq_foldl, OrderBook.asks_foldl_apply]
  · rw [LocalBookReconstructor.reliableUpdateId, if_pos hreliable, hbook, Option.map_some]

/-! ## A bridged snapshot -/

def sampleLevel : Level := ⟨("1.5", "2"), by decide +kernel⟩

theorem btcusdt_ne : "BTCUSDT" ≠ "" := by decide

theorem spot_mem_bookMarkets : Market.spot ∈ bookMarkets := by decide

def sampleSnapshot : BookSnapshot where
  market := .spot
  symbol := "BTCUSDT"
  lastUpdateId := 10
  bids := [sampleLevel]
  asks := []
  market_mem := spot_mem_bookMarkets
  symbol_ne := btcusdt_ne

def sampleUpdate : DepthUpdate where
  market := .spot
  symbol := "BTCUSDT"
  firstUpdateId := 9
  finalUpdateId := 12
  previousFinalUpdateId := none
  bids := []
  asks := [sampleLevel]
  receiveTimeUtcNs := 7
  market_mem := spot_mem_bookMarkets
  symbol_ne := btcusdt_ne
  first_le_final := by decide
  previous_spot := fun _ => rfl
  previous_futures := fun h => absurd rfl h

def sampleReconstructor : LocalBookReconstructor where
  market := .spot
  symbol := "BTCUSDT"
  bootstrapBufferCapacity := 2
  bootstrapBufferWarningCount := 1
  auditHistoryLimit := none
  state := .buffering
  buffer := []
  book := none
  bootstrapBufferWarned := false
  bootstrapBufferOverflowed := false
  audits := []
  unreliableIntervals := []

def sampleDepthCalls : List DepthCall := [.offer sampleUpdate, .synchronize sampleSnapshot]

/-- The update behind the sample. -/
def liveUpdate : DepthUpdate where
  market := .spot
  symbol := "BTCUSDT"
  firstUpdateId := 13
  finalUpdateId := 15
  previousFinalUpdateId := none
  bids := [sampleLevel]
  asks := []
  receiveTimeUtcNs := 8
  market_mem := spot_mem_bookMarkets
  symbol_ne := btcusdt_ne
  first_le_final := by decide
  previous_spot := fun _ => rfl
  previous_futures := fun h => absurd rfl h

/-- A snapshot, its bridge, the bridge once more, and a live update. -/
def liveDepthCalls : List DepthCall :=
  [.offer sampleUpdate, .synchronize sampleSnapshot, .offer sampleUpdate, .offer liveUpdate]

theorem reliable_book_sound_sample :
    ∃ book : OrderBook,
      ((BookHistory.mk sampleReconstructor none []).after liveDepthCalls).accepted =
        some sampleSnapshot ∧
      ((BookHistory.mk sampleReconstructor none []).after liveDepthCalls).reconstructor.book =
        some book ∧
      book.bids = OrderBook.overlay (OrderBook.ofSnapshot sampleSnapshot).bids
        [sampleUpdate.bids, liveUpdate.bids] ∧
      ((BookHistory.mk sampleReconstructor none []).after
        liveDepthCalls).reconstructor.reliableUpdateId = some 15 := by
  obtain ⟨snapshot, chain, book, haccepted, hbook, hchain, -, hbids, -, hlast, hid, -⟩ :=
    @reliable_book_sound .spot "BTCUSDT" 2 1 none sampleReconstructor (by rfl) liveDepthCalls _ rfl
      (by decide +kernel)
  have hsample : ((BookHistory.mk sampleReconstructor none []).after liveDepthCalls).accepted =
      some sampleSnapshot := by with_unfolding_all rfl
  have hgiven : ((BookHistory.mk sampleReconstructor none []).after liveDepthCalls).given =
      [sampleUpdate, sampleUpdate, liveUpdate] := by with_unfolding_all rfl
  obtain rfl : sampleSnapshot = snapshot := Option.some.inj (hsample.symm.trans haccepted)
  obtain rfl : chain = [sampleUpdate, liveUpdate] := by
    rw [hchain, hgiven]
    rfl
  have h15 : 15 = book.updateId := Option.some.inj hlast
  exact ⟨book, hsample, hbook, hbids, by rw [hid, h15]⟩

end MarketDataRecorder
