import MarketDataRecorder.Orderbook.Model

/-!
# Best prices and levels

`OrderBook` keeps the best price of each side beside the levels, and computes it anew only where a
level of the best price was deleted. The best price kept is the best one of the levels, and the
levels are what the last quantity given for each price says.

* `lastQuantity` — the last writer of a price
* `IsBestPrice` — what the best price of a side is
* `OrderBook.applyAll_exact` — both, after any updates
-/

namespace MarketDataRecorder

/-! ## The last writer -/

/-- The last quantity that levels give for a price. -/
def lastQuantity (levels : List (ℚ × ℚ)) (price : ℚ) : Option ℚ :=
  (levels.reverse.find? fun level => level.1 = price).map Prod.snd

/-- The quantity that a price has after levels, where zero takes it out. -/
def quantityAfter (before : Option ℚ) (levels : List (ℚ × ℚ)) (price : ℚ) : Option ℚ :=
  match lastQuantity levels price with
  | none => before
  | some quantity => if quantity = 0 then none else some quantity

theorem get?_setLevel (side : BookSide) (level : ℚ × ℚ) (price : ℚ) :
    (setLevel side level).get? price = quantityAfter (side.get? price) [level] price := by
  obtain ⟨written, quantity⟩ := level
  by_cases hprice : price = written
  · subst hprice
    by_cases hzero : quantity = 0 <;> simp [setLevel, quantityAfter, lastQuantity, hzero]
  · have hne : ¬ written = price := fun h => hprice h.symm
    by_cases hzero : quantity = 0 <;>
      simp [setLevel, quantityAfter, lastQuantity, hzero, hprice, hne]

theorem quantityAfter_cons (before : Option ℚ) (level : ℚ × ℚ) (levels : List (ℚ × ℚ)) (price : ℚ) :
    quantityAfter before (level :: levels) price =
      quantityAfter (quantityAfter before [level] price) levels price := by
  simp only [quantityAfter, lastQuantity, List.reverse_cons, List.find?_append]
  cases (levels.reverse.find? fun level => decide (level.1 = price)) with
  | none => simp
  | some found => simp

/-- The levels of a side are the last writers of their prices. -/
theorem get?_foldl_setLevel (levels : List (ℚ × ℚ)) (side : BookSide) (price : ℚ) :
    (levels.foldl setLevel side).get? price = quantityAfter (side.get? price) levels price := by
  induction levels generalizing side with
  | nil => rfl
  | cons level levels ih =>
    rw [List.foldl_cons, ih, get?_setLevel, ← quantityAfter_cons _ level levels]

theorem mem_keys_setLevel {side : BookSide} {level : ℚ × ℚ} {price : ℚ} :
    price ∈ (setLevel side level).keys ↔
      if price = level.1 then level.2 ≠ 0 else price ∈ side.keys := by
  rw [SortedDict.mem_keys, SortedDict.mem_keys]
  obtain ⟨written, quantity⟩ := level
  by_cases hprice : price = written
  · subst hprice
    by_cases hzero : quantity = 0 <;> simp [setLevel, hzero]
  · by_cases hzero : quantity = 0 <;> simp [setLevel, hzero, hprice]

/-! ## The best price of a side -/

/-- The best price of a side: the highest bid, the lowest ask, none of an empty side. -/
def IsBestPrice (isBid : Bool) (side : BookSide) : Option ℚ → Prop
  | none => side.items = []
  | some price => price ∈ side.keys ∧ ∀ other ∈ side.keys, isBetter isBid other price = false

theorem keys_eq_nil {side : BookSide} : side.keys = [] ↔ side.items = [] := List.map_eq_nil_iff

theorem items_eq_nil_iff {side : BookSide} : side.items = [] ↔ ∀ price, price ∉ side.keys := by
  rw [← keys_eq_nil, List.eq_nil_iff_forall_not_mem]

theorem pairwise_keys (side : BookSide) : side.keys.Pairwise (· < ·) :=
  List.pairwise_map.mpr side.sorted

theorem isBestPrice_recompute (side : BookSide) (isBid : Bool) :
    IsBestPrice isBid side (recomputeBestPrice side isBid) := by
  have hsorted := pairwise_keys side
  cases isBid with
  | false =>
    cases hkeys : side.keys with
    | nil => simpa [recomputeBestPrice, hkeys, IsBestPrice] using keys_eq_nil.mp hkeys
    | cons first rest =>
      rw [hkeys] at hsorted
      have hfirst := (List.pairwise_cons.mp hsorted).1
      simp only [recomputeBestPrice, hkeys, IsBestPrice, isBetter, Bool.false_eq_true, if_false,
        List.head?_cons, decide_eq_false_iff_not, not_lt]
      refine ⟨List.mem_cons_self, fun other hother => ?_⟩
      rcases List.mem_cons.mp hother with rfl | hrest
      · exact le_refl _
      · exact (hfirst other hrest).le
  | true =>
    rcases List.eq_nil_or_concat side.keys with hkeys | ⟨rest, last, hkeys⟩
    · simpa [recomputeBestPrice, hkeys, IsBestPrice] using keys_eq_nil.mp hkeys
    · rw [List.concat_eq_append] at hkeys
      rw [hkeys] at hsorted
      have hlast := (List.pairwise_append.mp hsorted).2.2
      simp only [recomputeBestPrice, hkeys, IsBestPrice, isBetter, if_true,
        List.getLast?_concat, decide_eq_false_iff_not, not_lt]
      refine ⟨List.mem_append_right _ (List.mem_singleton_self _), fun other hother => ?_⟩
      rcases List.mem_append.mp hother with hrest | hother
      · exact (hlast other hrest last (List.mem_singleton_self _)).le
      · exact (List.mem_singleton.mp hother).le

/-! ## What the levels of an update do to it -/

theorem not_isBetter_trans {isBid : Bool} {other price best : ℚ}
    (h : isBetter isBid other best = false) (hbetter : isBetter isBid price best = true) :
    isBetter isBid other price = false := by
  cases isBid <;> simp only [isBetter, Bool.false_eq_true, if_false, if_true,
    decide_eq_false_iff_not, decide_eq_true_eq, not_lt] at *
  · exact hbetter.le.trans h
  · exact h.trans hbetter.le

@[simp] theorem isBetter_self (isBid : Bool) (price : ℚ) : isBetter isBid price price = false := by
  cases isBid <;> simp [isBetter]

/-- As long as no level of the best price was deleted, the best price is the one of the side. -/
def TracksBest (isBid : Bool) (state : BookSide × Option ℚ × Bool) : Prop :=
  state.2.2 = false → IsBestPrice isBid state.1 state.2.1

theorem TracksBest.applyLevel {isBid : Bool} {state : BookSide × Option ℚ × Bool}
    (h : TracksBest isBid state) (level : ℚ × ℚ) :
    TracksBest isBid (applyLevel isBid state level) := by
  obtain ⟨side, best, deleted⟩ := state
  obtain ⟨price, quantity⟩ := level
  unfold TracksBest at h ⊢
  simp only [MarketDataRecorder.applyLevel]
  by_cases hzero : quantity = 0
  · -- A deleted level: the best price stays where it is another one.
    rw [if_pos hzero]
    simp only [Bool.or_eq_false_iff, decide_eq_false_iff_not]
    rintro ⟨hdeleted, hother⟩
    have hbest := h hdeleted
    cases best with
    | none =>
      simp only [IsBestPrice, items_eq_nil_iff, mem_keys_setLevel] at hbest ⊢
      intro p
      split
      · simp [hzero]
      · exact hbest p
    | some best =>
      have hne : best ≠ price := fun hb => hother (by rw [hb])
      obtain ⟨hmem, hmax⟩ := hbest
      refine ⟨by rw [mem_keys_setLevel, if_neg hne]; exact hmem, fun p hp => ?_⟩
      rw [mem_keys_setLevel] at hp
      split at hp
      · exact absurd hzero hp
      · exact hmax p hp
  · rw [if_neg hzero]
    intro hdeleted
    have hbest := h hdeleted
    -- A written level: it is the best price itself, or leaves it.
    have hwritten : price ∈ (setLevel side (price, quantity)).keys := by
      rw [mem_keys_setLevel, if_pos rfl]
      exact hzero
    cases best with
    | none =>
      simp only [Option.all_none, if_true]
      refine ⟨hwritten, fun p hp => ?_⟩
      rw [mem_keys_setLevel] at hp
      split at hp
      · next heq => rw [heq, isBetter_self]
      · exact absurd hp (items_eq_nil_iff.mp hbest p)
    | some best =>
      obtain ⟨hmem, hmax⟩ := hbest
      rw [Option.all_some]
      by_cases hbetter : isBetter isBid price best = true
      · rw [if_pos hbetter]
        refine ⟨hwritten, fun p hp => ?_⟩
        rw [mem_keys_setLevel] at hp
        split at hp
        · next heq => rw [heq, isBetter_self]
        · exact not_isBetter_trans (hmax p hp) hbetter
      · rw [if_neg hbetter]
        refine ⟨?_, fun p hp => ?_⟩
        · rw [mem_keys_setLevel]
          split
          · exact hzero
          · exact hmem
        · rw [mem_keys_setLevel] at hp
          split at hp
          · next heq => rw [heq]; exact Bool.eq_false_iff.mpr hbetter
          · exact hmax p hp

theorem TracksBest.foldl {isBid : Bool} (levels : List (ℚ × ℚ)) :
    ∀ {state : BookSide × Option ℚ × Bool}, TracksBest isBid state →
      TracksBest isBid (levels.foldl (MarketDataRecorder.applyLevel isBid) state) := by
  induction levels with
  | nil => exact fun h => h
  | cons level levels ih => exact fun h => ih (h.applyLevel level)

/-- `_apply_side` keeps the best price of a side. -/
theorem isBestPrice_applySide {isBid : Bool} {side : BookSide} {best : Option ℚ}
    (h : IsBestPrice isBid side best) (levels : List Level) :
    IsBestPrice isBid (applySide side levels best isBid).1
      (applySide side levels best isBid).2 := by
  have htracks := TracksBest.foldl (validatedLevels levels)
    (show TracksBest isBid (side, best, false) from fun _ => h)
  unfold applySide
  revert htracks
  generalize (validatedLevels levels).foldl (MarketDataRecorder.applyLevel isBid)
    (side, best, false) = state
  obtain ⟨after, kept, deleted⟩ := state
  intro htracks
  dsimp only
  cases deleted with
  | true => exact isBestPrice_recompute after isBid
  | false =>
    have hkept : IsBestPrice isBid after kept := htracks rfl
    rw [if_neg (by decide)]
    by_cases hempty : after.items = []
    · rw [if_pos hempty]
      exact hempty
    · rw [if_neg hempty]
      cases kept with
      | none => exact absurd hkept hempty
      | some price =>
        dsimp only
        rw [if_pos hkept.1]
        exact hkept

/-! ## Books -/

namespace OrderBook

/-- The best prices that a book keeps are those of its levels. -/
structure BestPricesExact (book : OrderBook) : Prop where
  bid : IsBestPrice true book.bids book.bestBidPrice
  ask : IsBestPrice false book.asks book.bestAskPrice

theorem bestPricesExact_ofSnapshot (snapshot : BookSnapshot) :
    (ofSnapshot snapshot).BestPricesExact :=
  ⟨isBestPrice_recompute _ _, isBestPrice_recompute _ _⟩

theorem BestPricesExact.applyUpdate {book : OrderBook} (h : book.BestPricesExact)
    (update : DepthUpdate) : (book.applyUpdate update).BestPricesExact :=
  ⟨isBestPrice_applySide h.bid _, isBestPrice_applySide h.ask _⟩

/-- A book after updates; one that `apply` refuses leaves it as it is. -/
def applyAll (book : OrderBook) (updates : List DepthUpdate) : OrderBook :=
  updates.foldl (fun book update => (book.apply update).toOption.getD book) book

/-- The updates of the market and the symbol of a book. -/
def accepted (market : Market) (symbol : String) (updates : List DepthUpdate) : List DepthUpdate :=
  updates.filter fun update => update.market = market ∧ update.symbol = symbol

theorem applyAll_eq (updates : List DepthUpdate) : ∀ book : OrderBook,
    book.applyAll updates =
      (accepted book.market book.symbol updates).foldl OrderBook.applyUpdate book := by
  induction updates with
  | nil => exact fun _ => rfl
  | cons update updates ih =>
    intro book
    have hcons : book.applyAll (update :: updates) =
        ((book.apply update).toOption.getD book).applyAll updates := rfl
    by_cases hsame : update.market = book.market ∧ update.symbol = book.symbol
    · have happly : book.apply update = .ok (book.applyUpdate update) :=
        if_neg (by simp [hsame])
      rw [hcons, happly, accepted, List.filter_cons_of_pos (by simpa using hsame)]
      exact ih (book.applyUpdate update)
    · have happly : book.apply update = .error "cannot apply a different market or symbol" :=
        if_pos (by tauto)
      rw [hcons, happly, accepted, List.filter_cons_of_neg (by simpa using hsame)]
      exact ih book

theorem BestPricesExact.applyAll {book : OrderBook} (h : book.BestPricesExact)
    (updates : List DepthUpdate) : (book.applyAll updates).BestPricesExact := by
  rw [applyAll_eq]
  generalize accepted book.market book.symbol updates = chain
  induction chain generalizing book with
  | nil => exact h
  | cons update chain ih => exact ih (h.applyUpdate update)

/-- The levels overlaid one after the other are the levels of all updates. -/
theorem overlay_eq (side : BookSide) (updates : List (List Level)) :
    overlay side updates = (updates.flatMap validatedLevels).foldl setLevel side := by
  rw [overlay, List.foldl_flatMap]

/-- The best level of a side, with its quantity. -/
theorem exists_bestLevel {isBid : Bool} {side : BookSide} {best : Option ℚ}
    (h : IsBestPrice isBid side best) :
    (best.bind fun price => (side.get? price).map (price, ·)) = none ∧ best = none ∧
        side.items = [] ∨
      ∃ level, (best.bind fun price => (side.get? price).map (price, ·)) = some level ∧
        best = some level.1 ∧ level ∈ side.items ∧
        ∀ other ∈ side.items, isBetter isBid other.1 level.1 = false := by
  cases best with
  | none => exact .inl ⟨rfl, rfl, h⟩
  | some price =>
    obtain ⟨hmem, hmax⟩ := h
    obtain ⟨quantity, hget⟩ := SortedDict.mem_keys.mp hmem
    refine .inr ⟨(price, quantity), by simp [hget], rfl, SortedDict.get?_eq_some_iff.mp hget, ?_⟩
    rintro other hother
    exact hmax other.1 (List.mem_map_of_mem hother)

/-- **The best prices and the levels of a book**, after a snapshot and any updates. -/
theorem applyAll_exact (snapshot : BookSnapshot) (updates : List DepthUpdate) :
    let book := (ofSnapshot snapshot).applyAll updates
    let chain := accepted snapshot.market snapshot.symbol updates
    (∀ price, book.bids.get? price = quantityAfter none (validatedLevels snapshot.bids ++
      chain.flatMap fun update => validatedLevels update.bids) price) ∧
    (∀ price, book.asks.get? price = quantityAfter none (validatedLevels snapshot.asks ++
      chain.flatMap fun update => validatedLevels update.asks) price) ∧
    (book.bestBid = none ∧ book.bestBidPrice = none ∧ book.bids.items = [] ∨
      ∃ bid, book.bestBid = some bid ∧ book.bestBidPrice = some bid.1 ∧ bid ∈ book.bids.items ∧
        ∀ level ∈ book.bids.items, level.1 ≤ bid.1) ∧
    (book.bestAsk = none ∧ book.bestAskPrice = none ∧ book.asks.items = [] ∨
      ∃ ask, book.bestAsk = some ask ∧ book.bestAskPrice = some ask.1 ∧ ask ∈ book.asks.items ∧
        ∀ level ∈ book.asks.items, ask.1 ≤ level.1) := by
  intro book chain
  have hbook : book = chain.foldl applyUpdate (ofSnapshot snapshot) := applyAll_eq _ _
  have hexact : book.BestPricesExact := (bestPricesExact_ofSnapshot snapshot).applyAll updates
  have hbids : book.bids = (validatedLevels snapshot.bids ++
      chain.flatMap fun update => validatedLevels update.bids).foldl setLevel .empty := by
    rw [hbook, bids_foldl_apply, overlay_eq, List.flatMap_map, List.foldl_append]
    rfl
  have hasks : book.asks = (validatedLevels snapshot.asks ++
      chain.flatMap fun update => validatedLevels update.asks).foldl setLevel .empty := by
    rw [hbook, asks_foldl_apply, overlay_eq, List.flatMap_map, List.foldl_append]
    rfl
  refine ⟨fun price => ?_, fun price => ?_, ?_, ?_⟩
  · rw [hbids, get?_foldl_setLevel]
    rfl
  · rw [hasks, get?_foldl_setLevel]
    rfl
  · simpa [isBetter, bestBid] using exists_bestLevel hexact.bid
  · simpa [isBetter, bestAsk] using exists_bestLevel hexact.ask

end OrderBook

end MarketDataRecorder
