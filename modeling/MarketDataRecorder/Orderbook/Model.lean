import MarketDataRecorder.Domain.Event
import MarketDataRecorder.Lib.Decimal

/-!
# The logical order book

`orderbook/model.py`: snapshots, updates, and the book they make. A price level is a pair of texts
that denote a positive price and a quantity; a quantity of zero takes the level out of the book.

* `OrderBook.apply` — what an update does to a book
* `OrderBook.bids_foldl_apply` — what a chain of updates does to one
-/

namespace MarketDataRecorder

/-! ## Price levels -/

/-- `decimal_value`. -/
def decimalValue (value : String) (positive : Bool) : Except String ℚ :=
  match Decimal.ofText? value with
  | none => .error s!"invalid decimal value: {value}"
  | some parsed =>
    let qualifier := if positive then "positive" else "non-negative"
    match parsed with
    | none => .error s!"decimal value must be {qualifier}: {value}"
    | some decimal =>
      if (if positive then decimal ≤ 0 else decimal < 0) then
        .error s!"decimal value must be {qualifier}: {value}"
      else .ok decimal

/-- The price and the quantity of a level. -/
def levelDecimals (level : String × String) : Except String (ℚ × ℚ) := do
  return (← decimalValue level.1 true, ← decimalValue level.2 false)

/-- A level with a valid price and a valid quantity. -/
abbrev Level := { level : String × String // (levelDecimals level).toOption.isSome }

def Level.decimals (level : Level) : ℚ × ℚ := (levelDecimals level.val).toOption.get level.property

/-- `validated_levels`. -/
def validatedLevels (levels : List Level) : List (ℚ × ℚ) := levels.map Level.decimals

/-- The levels of texts, as the constructors check them. -/
def levelsOf : List (String × String) → Except String (List Level)
  | [] => .ok []
  | level :: levels =>
    match h : levelDecimals level with
    | .error e => .error e
    | .ok _ => do
      let rest ← levelsOf levels
      return ⟨level, by rw [h]; rfl⟩ :: rest

/-! ## Inputs -/

/-- The markets that have a book. -/
def bookMarkets : List Market := [.spot, .umPerpetual, .umDelivery, .cmPerpetual, .cmDelivery]

structure BookSnapshot where
  market : Market
  symbol : String
  lastUpdateId : Nat
  bids : List Level
  asks : List Level
  market_mem : market ∈ bookMarkets
  symbol_ne : symbol ≠ ""

structure DepthUpdate where
  market : Market
  symbol : String
  firstUpdateId : Nat
  finalUpdateId : Nat
  previousFinalUpdateId : Option Nat
  bids : List Level
  asks : List Level
  receiveTimeUtcNs : Nat
  market_mem : market ∈ bookMarkets
  symbol_ne : symbol ≠ ""
  first_le_final : firstUpdateId ≤ finalUpdateId
  previous_spot : market = .spot → previousFinalUpdateId = none
  previous_futures : market ≠ .spot → previousFinalUpdateId.isSome

/-! ## The book -/

/-- One side of a book: the quantity of each price. -/
abbrev BookSide := SortedDict ℚ ℚ

/-- `_replace`, and what `_apply_side` does to the prices. -/
def setLevel (side : BookSide) (level : ℚ × ℚ) : BookSide :=
  if level.2 = 0 then side.erase level.1 else side.insert level.1 level.2

/-- `_recompute_best_price`. -/
def recomputeBestPrice (side : BookSide) (isBid : Bool) : Option ℚ :=
  if isBid then side.keys.getLast? else side.keys.head?

structure OrderBook where
  market : Market
  symbol : String
  updateId : Nat
  bids : BookSide
  asks : BookSide
  bestBidPrice : Option ℚ
  bestAskPrice : Option ℚ
  deriving DecidableEq

/-- A price is better than the best one so far. -/
def isBetter (isBid : Bool) (price best : ℚ) : Bool := if isBid then best < price else price < best

/-- What `_apply_side` goes through the levels with: the side, the best price, and whether a level
of the best price was deleted. -/
def applyLevel (isBid : Bool) (state : BookSide × Option ℚ × Bool) (level : ℚ × ℚ) :
    BookSide × Option ℚ × Bool :=
  let (side, best, deleted) := state
  if level.2 = 0 then (setLevel side level, best, deleted || best = some level.1)
  else
    (setLevel side level,
      if best.all fun best => isBetter isBid level.1 best then some level.1 else best, deleted)

/-- `_apply_side`. -/
def applySide (side : BookSide) (levels : List Level) (best : Option ℚ) (isBid : Bool) :
    BookSide × Option ℚ :=
  let (side, best, deleted) := (validatedLevels levels).foldl (applyLevel isBid) (side, best, false)
  (side,
    if deleted then recomputeBestPrice side isBid
    else if side.items = [] then none
    else match best with
      | none => recomputeBestPrice side isBid
      | some price => if price ∈ side.keys then some price else recomputeBestPrice side isBid)

namespace OrderBook

/-- `__init__`. -/
def ofSnapshot (snapshot : BookSnapshot) : OrderBook :=
  let bids := (validatedLevels snapshot.bids).foldl setLevel .empty
  let asks := (validatedLevels snapshot.asks).foldl setLevel .empty
  { market := snapshot.market
    symbol := snapshot.symbol
    updateId := snapshot.lastUpdateId
    bids := bids
    asks := asks
    bestBidPrice := recomputeBestPrice bids true
    bestAskPrice := recomputeBestPrice asks false }

/-- `apply`, to an update of the market and the symbol of the book. -/
def applyUpdate (book : OrderBook) (update : DepthUpdate) : OrderBook :=
  let (bids, bestBidPrice) := applySide book.bids update.bids book.bestBidPrice true
  let (asks, bestAskPrice) := applySide book.asks update.asks book.bestAskPrice false
  { book with
    updateId := update.finalUpdateId
    bids := bids
    asks := asks
    bestBidPrice := bestBidPrice
    bestAskPrice := bestAskPrice }

/-- `apply`. -/
def apply (book : OrderBook) (update : DepthUpdate) : Except String OrderBook :=
  if update.market ≠ book.market ∨ update.symbol ≠ book.symbol then
    .error "cannot apply a different market or symbol"
  else .ok (book.applyUpdate update)

variable (book : OrderBook)

def bestBid : Option (ℚ × ℚ) := book.bestBidPrice.bind fun price =>
  (book.bids.get? price).map (price, ·)

def bestAsk : Option (ℚ × ℚ) := book.bestAskPrice.bind fun price =>
  (book.asks.get? price).map (price, ·)

def isEmpty : Bool := book.bids.items = [] ∨ book.asks.items = []

def isCrossed : Bool :=
  match book.bestBid, book.bestAsk with
  | some bid, some ask => ask.1 ≤ bid.1
  | _, _ => false

/-! ## Chains of updates -/

/-- The levels of a side overlaid in order. -/
def overlay (side : BookSide) (updates : List (List Level)) : BookSide :=
  updates.foldl (fun side levels => (validatedLevels levels).foldl setLevel side) side

theorem foldl_applyLevel_fst (isBid : Bool) (levels : List (ℚ × ℚ)) :
    ∀ state : BookSide × Option ℚ × Bool,
      (levels.foldl (applyLevel isBid) state).1 = levels.foldl setLevel state.1 := by
  induction levels with
  | nil => exact fun _ => rfl
  | cons level levels ih =>
    rintro ⟨side, best, deleted⟩
    have hfst : (applyLevel isBid (side, best, deleted) level).1 = setLevel side level := by
      simp only [applyLevel]
      split <;> rfl
    rw [List.foldl_cons, List.foldl_cons, ih, hfst]

theorem applySide_fst (side : BookSide) (levels : List Level) (best : Option ℚ) (isBid : Bool) :
    (applySide side levels best isBid).1 = (validatedLevels levels).foldl setLevel side :=
  foldl_applyLevel_fst isBid _ _

variable {book}

@[simp] theorem applyUpdate_updateId (update : DepthUpdate) :
    (book.applyUpdate update).updateId = update.finalUpdateId := rfl

theorem applyUpdate_bids (update : DepthUpdate) :
    (book.applyUpdate update).bids = (validatedLevels update.bids).foldl setLevel book.bids :=
  applySide_fst _ _ _ _

theorem applyUpdate_asks (update : DepthUpdate) :
    (book.applyUpdate update).asks = (validatedLevels update.asks).foldl setLevel book.asks :=
  applySide_fst _ _ _ _

theorem bids_foldl_apply (chain : List DepthUpdate) :
    (chain.foldl applyUpdate book).bids = overlay book.bids (chain.map DepthUpdate.bids) := by
  induction chain generalizing book with
  | nil => rfl
  | cons update chain ih =>
    rw [List.foldl_cons, ih, applyUpdate_bids]
    rfl

theorem asks_foldl_apply (chain : List DepthUpdate) :
    (chain.foldl applyUpdate book).asks = overlay book.asks (chain.map DepthUpdate.asks) := by
  induction chain generalizing book with
  | nil => rfl
  | cons update chain ih =>
    rw [List.foldl_cons, ih, applyUpdate_asks]
    rfl

end OrderBook

end MarketDataRecorder
