import MarketDataRecorder.Lib.Fallible
import MarketDataRecorder.Orderbook.BestPrice
import MarketDataRecorder.Orderbook.CanonicalDecimal

/-!
# Books and their mappings

A book that snapshots and updates made is the one that `from_mapping` makes of its mapping, however
the numbers of the mapping are spelled. The best prices are not written: they are computed again,
and are those that the book had.

* `OrderBook.WellFormed` — what holds of every book
* `OrderBook.fromMapping_spelled` — any spelling of the levels gives the book back
* `OrderBook.fromMapping_canonicalMapping` — so does the canonical one
-/

namespace MarketDataRecorder

/-! ## Levels -/

/-- A price and a quantity that a text has spelled. -/
structure IsLevel (level : ℚ × ℚ) : Prop where
  price : IsDecimal level.1
  quantity : IsDecimal level.2
  positive : 0 < level.1

theorem isLevel_of_levelDecimals {texts : String × String} {level : ℚ × ℚ}
    (h : levelDecimals texts = .ok level) : IsLevel level := by
  obtain ⟨price, hprice, h⟩ := except_bind_eq_ok h
  obtain ⟨quantity, hquantity, h⟩ := except_bind_eq_ok h
  rw [← Except.ok.inj h]
  exact ⟨isDecimal_of_decimalValue hprice, isDecimal_of_decimalValue hquantity,
    decimalValue_pos hprice⟩

theorem levelDecimals_decimals (level : Level) : levelDecimals level.val = .ok level.decimals := by
  have hget : (levelDecimals level.val).toOption = some level.decimals :=
    (Option.some_get level.property).symm
  cases hlevel : levelDecimals level.val with
  | error e =>
    rw [hlevel] at hget
    cases hget
  | ok decimals =>
    rw [hlevel] at hget
    rw [Option.some.inj hget]

theorem isLevel_validatedLevels {levels : List Level} :
    ∀ level ∈ validatedLevels levels, IsLevel level := by
  intro level hlevel
  obtain ⟨texts, -, rfl⟩ := List.mem_map.mp hlevel
  exact isLevel_of_levelDecimals (levelDecimals_decimals texts)

/-! ## Sides -/

/-- The levels of a side were spelled, and none has the quantity zero. -/
def SideWellFormed (side : BookSide) : Prop :=
  ∀ price quantity, side.get? price = some quantity → IsLevel (price, quantity) ∧ quantity ≠ 0

theorem SideWellFormed.setLevel {side : BookSide} (h : SideWellFormed side) {level : ℚ × ℚ}
    (hlevel : IsLevel level) : SideWellFormed (setLevel side level) := by
  intro price quantity hget
  rw [MarketDataRecorder.setLevel] at hget
  split at hget
  · rw [SortedDict.get?_erase] at hget
    split at hget
    · cases hget
    · exact h price quantity hget
  · next hzero =>
    rw [SortedDict.get?_insert] at hget
    split at hget
    · next hprice =>
      obtain rfl := Option.some.inj hget
      rw [hprice]
      exact ⟨hlevel, hzero⟩
    · exact h price quantity hget

theorem SideWellFormed.foldl {levels : List (ℚ × ℚ)} (hlevels : ∀ level ∈ levels, IsLevel level) :
    ∀ {side : BookSide}, SideWellFormed side →
      SideWellFormed (levels.foldl MarketDataRecorder.setLevel side) := by
  induction levels with
  | nil => exact fun h => h
  | cons level levels ih =>
    intro side h
    rw [List.forall_mem_cons] at hlevels
    exact ih hlevels.2 (h.setLevel hlevels.1)

theorem sideWellFormed_empty : SideWellFormed .empty := by
  rintro price quantity ⟨⟩

/-- The levels of a side, in any order, make the side. -/
theorem foldl_setLevel_items {side : BookSide} (h : SideWellFormed side) {levels : List (ℚ × ℚ)}
    (hperm : levels.Perm side.items) : levels.foldl setLevel .empty = side := by
  refine SortedDict.ext_get? fun price => ?_
  rw [get?_foldl_setLevel, quantityAfter, lastQuantity]
  have hmem : ∀ level, level ∈ levels.reverse ↔ side.get? level.1 = some level.2 := by
    intro level
    rw [List.mem_reverse, hperm.mem_iff, SortedDict.get?_eq_some_iff]
  cases hfind : levels.reverse.find? fun level => decide (level.1 = price) with
  | none =>
    rw [Option.map_none]
    cases hget : side.get? price with
    | none => rfl
    | some quantity =>
      have hnot := List.find?_eq_none.mp hfind (price, quantity) ((hmem _).mpr hget)
      simp at hnot
  | some level =>
    have hprice : level.1 = price := by simpa using List.find?_some hfind
    have hget := (hmem level).mp (List.mem_of_find?_eq_some hfind)
    rw [Option.map_some, ← hprice, hget]
    exact if_neg (h level.1 level.2 hget).2

/-- A side has one best price. -/
theorem isBestPrice_unique {isBid : Bool} {side : BookSide} {first second : Option ℚ}
    (h : IsBestPrice isBid side first) (h' : IsBestPrice isBid side second) : first = second := by
  cases first with
  | none =>
    cases second with
    | none => rfl
    | some price => exact absurd h'.1 (items_eq_nil_iff.mp h price)
  | some price =>
    cases second with
    | none => exact absurd h.1 (items_eq_nil_iff.mp h' price)
    | some other =>
      have hle := h.2 other h'.1
      have hge := h'.2 price h.1
      cases isBid <;> simp only [isBetter, Bool.false_eq_true, if_false, if_true,
        decide_eq_false_iff_not, not_lt] at hle hge
      · rw [le_antisymm hle hge]
      · rw [le_antisymm hge hle]

/-! ## Books -/

namespace OrderBook

/-- What holds of a book that snapshots and updates made. -/
structure WellFormed (book : OrderBook) : Prop where
  market_mem : book.market ∈ bookMarkets
  symbol_ne : book.symbol ≠ ""
  bids : SideWellFormed book.bids
  asks : SideWellFormed book.asks
  best : book.BestPricesExact

theorem wellFormed_ofSnapshot (snapshot : BookSnapshot) : (ofSnapshot snapshot).WellFormed where
  market_mem := snapshot.market_mem
  symbol_ne := snapshot.symbol_ne
  bids := sideWellFormed_empty.foldl isLevel_validatedLevels
  asks := sideWellFormed_empty.foldl isLevel_validatedLevels
  best := bestPricesExact_ofSnapshot snapshot

theorem WellFormed.applyUpdate {book : OrderBook} (h : book.WellFormed) (update : DepthUpdate) :
    (book.applyUpdate update).WellFormed where
  market_mem := h.market_mem
  symbol_ne := h.symbol_ne
  bids := by
    rw [applyUpdate_bids]
    exact h.bids.foldl isLevel_validatedLevels
  asks := by
    rw [applyUpdate_asks]
    exact h.asks.foldl isLevel_validatedLevels
  best := h.best.applyUpdate update

theorem WellFormed.applyAll {book : OrderBook} (h : book.WellFormed) (updates : List DepthUpdate) :
    (book.applyAll updates).WellFormed := by
  rw [applyAll_eq]
  generalize accepted book.market book.symbol updates = chain
  induction chain generalizing book with
  | nil => exact h
  | cons update chain ih => exact ih (h.applyUpdate update)

/-- Texts that spell levels. -/
def Spells (texts : List (String × String)) (levels : List (ℚ × ℚ)) : Prop :=
  List.Forall₂ (fun text level => levelDecimals text = .ok level) texts levels

theorem Spells.levelsOf {texts : List (String × String)} {levels : List (ℚ × ℚ)}
    (h : Spells texts levels) :
    ∃ result, MarketDataRecorder.levelsOf texts = .ok result ∧ validatedLevels result = levels := by
  induction h with
  | nil => exact ⟨[], rfl, rfl⟩
  | cons hlevel _ ih =>
    obtain ⟨rest, hrest, hvalid⟩ := ih
    rw [MarketDataRecorder.levelsOf]
    split
    · next e he =>
      rw [hlevel] at he
      cases he
    · rw [hrest]
      refine ⟨_, rfl, ?_⟩
      rw [validatedLevels, List.map_cons, ← hvalid]
      congr 1
      exact Except.ok.inj ((levelDecimals_decimals _).symm.trans hlevel)

theorem spells_canonical {levels : List (ℚ × ℚ)} (h : ∀ level ∈ levels, IsLevel level) :
    Spells (levels.map fun level => (canonicalDecimal level.1, canonicalDecimal level.2))
      levels := by
  induction levels with
  | nil => exact .nil
  | cons level levels ih =>
    rw [List.forall_mem_cons] at h
    refine .cons ?_ (ih h.2)
    rw [levelDecimals, decimalValue_canonicalDecimal h.1.price fun _ => h.1.positive,
      decimalValue_canonicalDecimal h.1.quantity (by rintro ⟨⟩)]
    rfl

/-- A mapping of a book with its levels spelled by texts. -/
def mappingWith (book : OrderBook) (bids asks : List (String × String)) : Value :=
  let pair (text : String × String) : Value := .list [.str text.1, .str text.2]
  .dict [
    ("asks", .list (asks.map pair)),
    ("bids", .list (bids.map pair)),
    ("market", .str book.market.text),
    ("schema_version", .str "logical-orderbook.v1"),
    ("symbol", .str book.symbol),
    ("update_id", .int book.updateId)]

theorem mapM_mappingLevel (texts : List (String × String)) :
    (texts.map fun text : String × String => Value.list [.str text.1, .str text.2]).mapM
      mappingLevel =
      some texts := by
  induction texts with
  | nil => rfl
  | cons text texts ih =>
    rw [List.map_cons, List.mapM_cons, ih]
    rfl

theorem bookFields_mappingWith (book : OrderBook) (bids asks : List (String × String)) :
    bookFields (book.mappingWith bids asks) =
      some (book.market, book.symbol, book.updateId, bids, asks) := by
  have hfields : bookFields (book.mappingWith bids asks) = (do
      let market ← Market.ofText? book.market.text
      let bids ← (bids.map fun text : String × String =>
        Value.list [.str text.1, .str text.2]).mapM mappingLevel
      let asks ← (asks.map fun text : String × String =>
        Value.list [.str text.1, .str text.2]).mapM mappingLevel
      return (market, book.symbol, book.updateId, bids, asks)) := rfl
  rw [hfields, Market.ofText?_text, mapM_mappingLevel, mapM_mappingLevel]
  rfl

/-- **Any spelling** of the levels of a book, in any order, gives the book back. -/
theorem fromMapping_spelled {book : OrderBook} (h : book.WellFormed)
    {bids asks : List (String × String)} {bidLevels askLevels : List (ℚ × ℚ)}
    (hbids : Spells bids bidLevels) (hbidLevels : bidLevels.Perm book.bids.items)
    (hasks : Spells asks askLevels) (haskLevels : askLevels.Perm book.asks.items) :
    fromMapping (book.mappingWith bids asks) = .ok book := by
  obtain ⟨bidResult, hbidResult, hbidValid⟩ := hbids.levelsOf
  obtain ⟨askResult, haskResult, haskValid⟩ := hasks.levelsOf
  have hidentity : ¬ (book.market ∉ bookMarkets ∨ book.symbol = "") := by
    rintro (hmarket | hsymbol)
    · exact hmarket h.market_mem
    · exact h.symbol_ne hsymbol
  have hmade : BookSnapshot.make book.market book.symbol book.updateId bids asks = .ok {
      market := book.market
      symbol := book.symbol
      lastUpdateId := book.updateId
      bids := bidResult
      asks := askResult
      market_mem := h.market_mem
      symbol_ne := h.symbol_ne } := by
    unfold BookSnapshot.make
    rw [dif_neg hidentity, hbidResult, haskResult]
    rfl
  have hbidSide : (validatedLevels bidResult).foldl setLevel .empty = book.bids := by
    rw [hbidValid]
    exact foldl_setLevel_items h.bids hbidLevels
  have haskSide : (validatedLevels askResult).foldl setLevel .empty = book.asks := by
    rw [haskValid]
    exact foldl_setLevel_items h.asks haskLevels
  unfold fromMapping
  rw [bookFields_mappingWith]
  dsimp only
  rw [hmade]
  refine congrArg Except.ok ?_
  rw [ofSnapshot]
  dsimp only
  rw [hbidSide, haskSide, isBestPrice_unique (isBestPrice_recompute book.bids true) h.best.bid,
    isBestPrice_unique (isBestPrice_recompute book.asks false) h.best.ask]

/-- The levels of a side as they were spelled. -/
theorem isLevel_items {side : BookSide} (h : SideWellFormed side) :
    ∀ level ∈ side.items, IsLevel level :=
  fun level hlevel => (h level.1 level.2 (SortedDict.get?_eq_some_iff.mpr hlevel)).1

/-- **The canonical mapping** gives the book back. -/
theorem fromMapping_canonicalMapping {book : OrderBook} (h : book.WellFormed) :
    fromMapping book.canonicalMapping = .ok book := by
  have hbids : ∀ level ∈ book.bids.items.reverse, IsLevel level :=
    fun level hlevel => isLevel_items h.bids level (List.mem_reverse.mp hlevel)
  have hmapping : book.canonicalMapping = book.mappingWith
      (book.bids.items.reverse.map fun level =>
        (canonicalDecimal level.1, canonicalDecimal level.2))
      (book.asks.items.map fun level => (canonicalDecimal level.1, canonicalDecimal level.2)) := by
    simp only [canonicalMapping, mappingWith, List.map_map]
    rfl
  rw [hmapping]
  exact fromMapping_spelled h (spells_canonical hbids) (List.reverse_perm _)
    (spells_canonical (isLevel_items h.asks)) (List.Perm.refl _)

end OrderBook

end MarketDataRecorder
