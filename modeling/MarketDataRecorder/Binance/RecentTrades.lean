import Mathlib.Tactic
import MarketDataRecorder.Lib.Number

/-!
# Compaction of recent trades

`binance/recent_trades.py`: the pages of one source overlap, and only the trades that are new or
have changed are kept of each. What was seen last of a trade is in a bounded cache; a trade that
fell out of it is emitted again.

Two rows are compared as dictionaries, so that `1`, `1.0` and `true` are one content. Whether a row
that holds a `NaN` is equal to a later one depends on the parser of the pages: `oneNaN` says whether
it has one object for every `NaN`.

* `RecentTradesCompactor.observe` — one page
* `TradesFollow` — what the cache and the changes so far say about the trades seen
* `RecentTradesCompactor.compacts` — the changes of all pages
-/

namespace MarketDataRecorder

/-! ## Trades -/

/-- A row of a page that was validated: its id and its time are integers that are not negative. -/
structure TradeRow where
  document : Value
  id : Nat
  time : Nat
  id_eq : document.get? "id" = some (.int id)
  time_eq : document.get? "time" = some (.int time)

/-- `previous == row`. -/
def TradeRow.same (oneNaN : Bool) (previous row : TradeRow) : Bool :=
  previous.document.same oneNaN row.document

/-- A row stands for another one: it is the same, or its content is equal. A row with a `NaN` need
not be equal to itself. -/
def TradeRow.StandsFor (oneNaN : Bool) (row other : TradeRow) : Prop :=
  row = other ∨ row.same oneNaN other = true

variable {oneNaN : Bool}

/-- What stands for a row stands for those it is equal to. -/
theorem TradeRow.StandsFor.trans_same {row other last : TradeRow} (h : row.StandsFor oneNaN other)
    (hsame : other.same oneNaN last = true) : row.StandsFor oneNaN last := by
  right
  rcases h with rfl | h
  · exact hsame
  · exact Value.same_trans h hsame

/-- The last row of an id. -/
def latestRow (rows : List TradeRow) (id : Nat) : Option TradeRow :=
  rows.reverse.find? fun row => row.id = id

theorem latestRow_concat (rows : List TradeRow) (row : TradeRow) (id : Nat) :
    latestRow (rows ++ [row]) id = if row.id = id then some row else latestRow rows id := by
  rw [latestRow, List.reverse_append, List.reverse_singleton, List.singleton_append,
    List.find?_cons]
  by_cases h : row.id = id <;> simp [h, latestRow]

/-! ## The cache -/

/-- What was seen last of each trade, and when it was seen first; the oldest entry comes first. -/
abbrev TradeCache := List (TradeRow × Nat)

def TradeCache.get? (cache : TradeCache) (id : Nat) : Option (TradeRow × Nat) :=
  cache.find? fun entry => entry.1.id = id

/-- An entry is stored at the end, and the oldest one leaves a cache that is too long. -/
def TradeCache.store (cache : TradeCache) (capacity : Nat) (row : TradeRow) (firstSeen : Nat) :
    TradeCache :=
  let stored := cache.filter (fun entry => entry.1.id ≠ row.id) ++ [(row, firstSeen)]
  if capacity < stored.length then stored.tail else stored

structure TradeChange where
  trade : TradeRow
  firstObservedUtcNs : Nat
  observedUtcNs : Nat
  sameIdChanged : Bool

/-- One row of a page: the cache behind it, and its change. -/
def observeRow (oneNaN : Bool) (capacity receivedNs : Nat) (cache : TradeCache) (row : TradeRow) :
    TradeCache × List TradeChange :=
  let previous := cache.get? row.id
  let firstSeen := previous.elim receivedNs Prod.snd
  (cache.store capacity row firstSeen,
    if previous.any fun previous => previous.1.same oneNaN row then []
    else [⟨row, firstSeen, receivedNs, previous.isSome⟩])

/-- The rows of a page. -/
def observeRows (oneNaN : Bool) (capacity receivedNs : Nat) (cache : TradeCache) :
    List TradeRow → TradeCache × List TradeChange
  | [] => (cache, [])
  | row :: rows =>
    let (cache, change) := observeRow oneNaN capacity receivedNs cache row
    let (cache, changes) := observeRows oneNaN capacity receivedNs cache rows
    (cache, change ++ changes)

theorem observeRows_append (capacity receivedNs : Nat) (later : List TradeRow) :
    ∀ (earlier : List TradeRow) (cache : TradeCache),
      observeRows oneNaN capacity receivedNs cache (earlier ++ later) =
        let (between, changes) := observeRows oneNaN capacity receivedNs cache earlier
        let (after, more) := observeRows oneNaN capacity receivedNs between later
        (after, changes ++ more)
  | [], cache => rfl
  | row :: earlier, cache => by
    simp only [List.cons_append, observeRows]
    rw [observeRows_append capacity receivedNs later earlier, List.append_assoc]

/-! ## Pages -/

/-- The capacities that hold the window of a request. -/
abbrev WindowCapacity := { capacity : Nat // 1000 ≤ capacity }

structure RecentTradesCompactor where
  capacity : WindowCapacity
  rows : TradeCache
  lastMaxId : Option Nat

structure WindowGap where
  firstUnobservedId : Nat
  lastUnobservedId : Nat
  reason : String := "recent_window_did_not_overlap"

structure TradePoll where
  returnedCount : Nat
  empty : Bool
  minId : Option Nat
  maxId : Option Nat
  minTradeTimeMs : Option Nat
  maxTradeTimeMs : Option Nat
  receivedUtcNs : Nat
  initialWindow : Bool
  windowGap : Option WindowGap

structure CompactTrades where
  schemaVersion : String := "recent-trades-compact.v1"
  changes : List TradeChange
  poll : TradePoll
  responseListReconstructible : Bool := false
  cacheCapacity : Nat

namespace RecentTradesCompactor

/-- `__init__`. -/
def create (capacity : Nat) : Except String RecentTradesCompactor :=
  if h : 1000 ≤ capacity then .ok ⟨⟨capacity, h⟩, [], none⟩
  else .error "recent-trade cache must hold the requested 1000-trade window"

def fresh (capacity : WindowCapacity) : RecentTradesCompactor := ⟨capacity, [], none⟩

/-- `observe`. -/
def observe (oneNaN : Bool) (c : RecentTradesCompactor) (trades : List TradeRow)
    (receivedNs : Nat) :
    RecentTradesCompactor × CompactTrades :=
  let ids := trades.map TradeRow.id
  let times := trades.map TradeRow.time
  let gap : Option WindowGap :=
    match ids.min?, c.lastMaxId with
    | some lowest, some highest =>
      -- Ids between the last page and this one were never seen.
      if highest + 1 < lowest then
        some { firstUnobservedId := highest + 1, lastUnobservedId := lowest - 1 }
      else none
    | _, _ => none
  let (rows, changes) := observeRows oneNaN c.capacity receivedNs c.rows trades
  ({ c with
      rows := rows
      lastMaxId := match ids.max? with
        | some highest => some (max highest (c.lastMaxId.getD 0))
        | none => c.lastMaxId },
    { changes := changes
      poll := {
        returnedCount := trades.length
        empty := trades.isEmpty
        minId := ids.min?
        maxId := ids.max?
        minTradeTimeMs := times.min?
        maxTradeTimeMs := times.max?
        receivedUtcNs := receivedNs
        initialWindow := c.lastMaxId.isNone
        windowGap := gap }
      cacheCapacity := c.capacity })

/-- The pages of a source, each with the time it was received at. -/
def observeAll (oneNaN : Bool) (c : RecentTradesCompactor) :
    List (List TradeRow × Nat) → RecentTradesCompactor × List CompactTrades
  | [] => (c, [])
  | (trades, receivedNs) :: pages =>
    let (c, compact) := c.observe oneNaN trades receivedNs
    let (c, compacts) := observeAll oneNaN c pages
    (c, compact :: compacts)

end RecentTradesCompactor

/-! ## What the cache and the changes follow -/

/-- The rows seen so far, the rows emitted of them, and the cache. -/
structure TradesFollow (oneNaN : Bool) (seen emitted : List TradeRow) (cache : TradeCache) :
    Prop where
  cached : ∀ entry ∈ cache, latestRow seen entry.1.id = some entry.1
  folded : ∀ id, Option.Rel (TradeRow.StandsFor oneNaN) (latestRow emitted id) (latestRow seen id)

theorem TradeCache.mem_store {cache : TradeCache} {capacity : Nat} {row : TradeRow}
    {firstSeen : Nat} {entry : TradeRow × Nat}
    (h : entry ∈ cache.store capacity row firstSeen) :
    entry = (row, firstSeen) ∨ entry ∈ cache ∧ entry.1.id ≠ row.id := by
  have hmem : entry ∈ cache.filter (fun entry => entry.1.id ≠ row.id) ++ [(row, firstSeen)] := by
    simp only [TradeCache.store] at h
    split at h
    · exact List.mem_of_mem_tail h
    · exact h
  rcases List.mem_append.mp hmem with hkept | hnew
  · exact .inr (by simpa using List.mem_filter.mp hkept)
  · exact .inl (List.mem_singleton.mp hnew)

theorem TradeCache.get?_eq_some {cache : TradeCache} {id : Nat} {entry : TradeRow × Nat}
    (h : cache.get? id = some entry) : entry ∈ cache ∧ entry.1.id = id :=
  ⟨List.mem_of_find?_eq_some h, by simpa using List.find?_some h⟩

namespace TradesFollow

variable {seen emitted : List TradeRow} {cache : TradeCache}

/-- A cached trade was seen last as it is cached. -/
theorem latestRow_of_get? (h : TradesFollow oneNaN seen emitted cache) {id : Nat}
    {entry : TradeRow × Nat}
    (hget : cache.get? id = some entry) : latestRow seen id = some entry.1 := by
  obtain ⟨hmem, rfl⟩ := TradeCache.get?_eq_some hget
  exact h.cached entry hmem

/-- **What is emitted of a row**: nothing of one that is cached as it is, the row otherwise. -/
theorem observeRow_trades (h : TradesFollow oneNaN seen emitted cache) (capacity receivedNs : Nat)
    (row : TradeRow) :
    (observeRow oneNaN capacity receivedNs cache row).2.map TradeChange.trade =
      if (cache.get? row.id).isSome ∧
        (latestRow seen row.id).any (fun last => last.same oneNaN row) then [] else [row] := by
  simp only [observeRow]
  cases hget : cache.get? row.id with
  | none => simp
  | some previous =>
    rw [h.latestRow_of_get? hget]
    by_cases hsame : previous.1.same oneNaN row = true <;> simp [hsame]

/-- What was emitted last of a trade stands for a row that is equal to the one seen last. -/
theorem folded_of_same (h : TradesFollow oneNaN seen emitted cache) {row : TradeRow}
    (hsame : (latestRow seen row.id).any (fun last => last.same oneNaN row) = true) :
    Option.Rel (TradeRow.StandsFor oneNaN) (latestRow emitted row.id) (some row) := by
  obtain ⟨last, hlast, hequal⟩ := (Option.any_eq_true _ _).mp hsame
  have hfolded := h.folded row.id
  rw [hlast] at hfolded
  generalize latestRow emitted row.id = shown at hfolded ⊢
  cases hfolded with
  | some hstands => exact .some (hstands.trans_same hequal)

theorem observeRow (h : TradesFollow oneNaN seen emitted cache) (capacity receivedNs : Nat)
    (row : TradeRow) :
    TradesFollow oneNaN (seen ++ [row])
      (emitted ++ (observeRow oneNaN capacity receivedNs cache row).2.map TradeChange.trade)
      (MarketDataRecorder.observeRow oneNaN capacity receivedNs cache row).1 := by
  constructor
  · rintro entry hentry
    rw [latestRow_concat]
    rcases TradeCache.mem_store hentry with rfl | ⟨hmem, hne⟩
    · rw [if_pos rfl]
    · rw [if_neg (Ne.symm hne)]
      exact h.cached entry hmem
  · intro id
    rw [h.observeRow_trades, latestRow_concat]
    split
    · next hsame =>
      -- Nothing is emitted: the row is equal to the one seen last.
      rw [List.append_nil]
      split
      · next hid =>
        subst hid
        exact h.folded_of_same hsame.2
      · exact h.folded id
    · rw [latestRow_concat]
      split
      · exact .some (.inl rfl)
      · exact h.folded id

theorem observeRows (capacity receivedNs : Nat) : ∀ (rows : List TradeRow)
    {seen emitted : List TradeRow} {cache : TradeCache}, TradesFollow oneNaN seen emitted cache →
      TradesFollow oneNaN (seen ++ rows)
        (emitted ++ (observeRows oneNaN capacity receivedNs cache rows).2.map TradeChange.trade)
        (MarketDataRecorder.observeRows oneNaN capacity receivedNs cache rows).1
  | [], _, _, _, h => by simpa [MarketDataRecorder.observeRows] using h
  | row :: rows, _, _, _, h => by
    have hrows := observeRows capacity receivedNs rows (h.observeRow capacity receivedNs row)
    simpa [MarketDataRecorder.observeRows] using hrows

end TradesFollow

namespace RecentTradesCompactor

/-- The rows of pages. -/
def rowsOf (pages : List (List TradeRow × Nat)) : List TradeRow := pages.flatMap Prod.fst

/-- The trades that pages emit, in order. -/
def emittedBy (compacts : List CompactTrades) : List TradeRow :=
  compacts.flatMap fun compact => compact.changes.map TradeChange.trade

/-- What a compactor holds after the rows seen. -/
structure After (oneNaN : Bool) (seen emitted : List TradeRow) (c : RecentTradesCompactor) :
    Prop where
  follows : TradesFollow oneNaN seen emitted c.rows
  lastMaxId : c.lastMaxId = (seen.map TradeRow.id).max?

theorem max?_append (xs ys : List Nat) :
    (xs ++ ys).max? = match ys.max? with
      | some y => some (max y (xs.max?.getD 0))
      | none => xs.max? := by
  cases hys : ys.max? with
  | none => simp [List.max?_eq_none_iff.mp hys]
  | some y =>
    obtain ⟨hy, hley⟩ := List.max?_eq_some_iff.mp hys
    dsimp only
    rw [List.max?_eq_some_iff]
    cases hxs : xs.max? with
    | none => simpa [List.max?_eq_none_iff.mp hxs] using ⟨hy, hley⟩
    | some x =>
      obtain ⟨hx, hlex⟩ := List.max?_eq_some_iff.mp hxs
      rw [Option.getD_some]
      constructor
      · rcases Nat.le_total x y with h | h
        · rw [max_eq_left h]
          exact List.mem_append_right _ hy
        · rw [max_eq_right h]
          exact List.mem_append_left _ hx
      · rintro b hb
        rcases List.mem_append.mp hb with hb | hb
        · exact (hlex b hb).trans (le_max_right _ _)
        · exact (hley b hb).trans (le_max_left _ _)

theorem After.observe {seen emitted : List TradeRow} {c : RecentTradesCompactor}
    (h : After oneNaN seen emitted c) (trades : List TradeRow) (receivedNs : Nat) :
    After oneNaN (seen ++ trades)
      (emitted ++ (c.observe oneNaN trades receivedNs).2.changes.map TradeChange.trade)
      (c.observe oneNaN trades receivedNs).1 := by
  refine ⟨h.follows.observeRows c.capacity receivedNs trades, ?_⟩
  rw [List.map_append, max?_append, ← h.lastMaxId]
  rfl

theorem After.observeAll : ∀ (pages : List (List TradeRow × Nat)) {seen emitted : List TradeRow}
    {c : RecentTradesCompactor}, After oneNaN seen emitted c →
      After oneNaN (seen ++ rowsOf pages) (emitted ++ emittedBy (c.observeAll oneNaN pages).2)
        (c.observeAll oneNaN pages).1
  | [], _, _, _, h => by simpa [rowsOf, emittedBy, RecentTradesCompactor.observeAll] using h
  | (trades, receivedNs) :: pages, _, _, _, h => by
    have hpages := (h.observe trades receivedNs).observeAll pages
    simpa [rowsOf, emittedBy, RecentTradesCompactor.observeAll] using hpages

theorem capacity_observeAll : ∀ (pages : List (List TradeRow × Nat)) (c : RecentTradesCompactor),
    (c.observeAll oneNaN pages).1.capacity = c.capacity
  | [], _ => rfl
  | (trades, receivedNs) :: pages, c =>
    (capacity_observeAll pages (c.observe oneNaN trades receivedNs).1).trans rfl

theorem after_fresh (capacity : WindowCapacity) : After oneNaN [] [] (fresh capacity) := by
  refine ⟨⟨?_, fun _ => .none⟩, rfl⟩
  rintro entry hentry
  exact absurd hentry List.not_mem_nil

/-- An id between the highest one of earlier rows and the lowest one of a page that no row has. -/
def Unobserved (seen trades : List TradeRow) (id : Nat) : Prop :=
  ∃ highest lowest, (seen.map TradeRow.id).max? = some highest ∧
    (trades.map TradeRow.id).min? = some lowest ∧ highest < id ∧ id < lowest ∧
    ∀ row ∈ seen ++ trades, row.id ≠ id

theorem After.windowGap_eq {seen emitted : List TradeRow} {c : RecentTradesCompactor}
    (h : After oneNaN seen emitted c) (trades : List TradeRow) (receivedNs : Nat) :
    (c.observe oneNaN trades receivedNs).2.poll.windowGap =
      match (trades.map TradeRow.id).min?, (seen.map TradeRow.id).max? with
      | some lowest, some highest =>
        if highest + 1 < lowest then
          some { firstUnobservedId := highest + 1, lastUnobservedId := lowest - 1 }
        else none
      | _, _ => none := by
  rw [← h.lastMaxId]
  rfl

/-- The ids of the gap that a page reports are those that were not observed. -/
theorem After.mem_windowGap {seen emitted : List TradeRow} {c : RecentTradesCompactor}
    (h : After oneNaN seen emitted c) (trades : List TradeRow) (receivedNs : Nat) (id : Nat) :
    (∃ gap, (c.observe oneNaN trades receivedNs).2.poll.windowGap = some gap ∧
      gap.firstUnobservedId ≤ id ∧ id ≤ gap.lastUnobservedId) ↔ Unobserved seen trades id := by
  rw [h.windowGap_eq]
  unfold Unobserved
  cases hlowest : (trades.map TradeRow.id).min? with
  | none => simp
  | some lowest =>
    cases hhighest : (seen.map TradeRow.id).max? with
    | none => simp
    | some highest =>
      have hle := (List.max?_eq_some_iff.mp hhighest).2
      have hge := (List.min?_eq_some_iff.mp hlowest).2
      have hunseen : highest < id → id < lowest → ∀ row ∈ seen ++ trades, row.id ≠ id := by
        rintro habove hbelow row hrow rfl
        rcases List.mem_append.mp hrow with hrow | hrow
        · have := hle row.id (List.mem_map_of_mem hrow)
          omega
        · have := hge row.id (List.mem_map_of_mem hrow)
          omega
      dsimp only
      constructor
      · rintro ⟨gap, hsome, hfirst, hlast⟩
        split at hsome
        · obtain rfl := Option.some.inj hsome
          dsimp only at hfirst hlast
          have hbelow : id < lowest := by omega
          exact ⟨highest, lowest, rfl, rfl, hfirst, hbelow, hunseen hfirst hbelow⟩
        · cases hsome
      · rintro ⟨highest', lowest', hh, hl, habove, hbelow, -⟩
        obtain rfl := Option.some.inj hh
        obtain rfl := Option.some.inj hl
        rw [if_pos (by omega)]
        exact ⟨_, rfl, habove, by dsimp only; omega⟩

/-- A gap that is reported has an id. -/
theorem After.windowGap_le {seen emitted : List TradeRow} {c : RecentTradesCompactor}
    (h : After oneNaN seen emitted c) {trades : List TradeRow} {receivedNs : Nat} {gap : WindowGap}
    (hgap : (c.observe oneNaN trades receivedNs).2.poll.windowGap = some gap) :
    gap.firstUnobservedId ≤ gap.lastUnobservedId := by
  rw [h.windowGap_eq] at hgap
  split at hgap
  · split at hgap
    · obtain rfl := Option.some.inj hgap
      dsimp only
      omega
    · cases hgap
  · cases hgap

/-- **Compaction.** After any pages, the changes emitted fold to the last content of every trade; of
a further page, a row is emitted unless it is cached and its content is the one seen last; and a gap
is reported where there are ids between the highest one so far and the lowest one of the page that
were not observed, and holds these. -/
theorem compacts (oneNaN : Bool) (capacity : WindowCapacity) (pages : List (List TradeRow × Nat))
    (trades : List TradeRow) (receivedNs : Nat) :
    let c := ((fresh capacity).observeAll oneNaN pages).1
    let page := (c.observe oneNaN trades receivedNs).2
    (∀ id, Option.Rel (TradeRow.StandsFor oneNaN)
      (latestRow (emittedBy ((fresh capacity).observeAll oneNaN pages).2) id)
      (latestRow (rowsOf pages) id)) ∧
    (∀ earlier row later, trades = earlier ++ row :: later →
      let cache := (observeRows oneNaN capacity receivedNs c.rows earlier).1
      ∃ before change after, page.changes = before ++ change ++ after ∧
        before = (observeRows oneNaN capacity receivedNs c.rows earlier).2 ∧
        change.map TradeChange.trade =
          if (cache.get? row.id).isSome ∧
            (latestRow (rowsOf pages ++ earlier) row.id).any (fun last => last.same oneNaN row)
          then [] else [row]) ∧
    (page.poll.windowGap.isSome ↔ ∃ id, Unobserved (rowsOf pages) trades id) ∧
    (∀ gap, page.poll.windowGap = some gap → ∀ id,
      gap.firstUnobservedId ≤ id ∧ id ≤ gap.lastUnobservedId ↔
        Unobserved (rowsOf pages) trades id) := by
  intro c page
  -- Everything is said of the cache after the pages, whatever they were.
  have hafter : After oneNaN (rowsOf pages) (emittedBy ((fresh capacity).observeAll oneNaN pages).2)
    c :=
    (after_fresh capacity).observeAll pages
  have hcapacity : c.capacity = capacity := capacity_observeAll pages (fresh capacity)
  refine ⟨hafter.follows.folded, ?_, ?_, ?_⟩
  · rintro earlier row later rfl
    have hcache := hafter.follows.observeRows capacity receivedNs earlier
    let next := observeRow oneNaN capacity receivedNs
      (observeRows oneNaN capacity receivedNs c.rows earlier).1 row
    refine ⟨_, next.2, (observeRows oneNaN capacity receivedNs next.1 later).2, ?_, rfl, ?_⟩
    · rw [List.append_assoc]
      have hchanges : page.changes =
          (observeRows oneNaN capacity receivedNs c.rows (earlier ++ row :: later)).2 := by
        rw [← hcapacity]
        rfl
      rw [hchanges, observeRows_append]
      rfl
    · exact hcache.observeRow_trades capacity receivedNs row
  · constructor
    · intro hsome
      obtain ⟨gap, hgap⟩ := Option.isSome_iff_exists.mp hsome
      have hle := hafter.windowGap_le hgap
      exact ⟨_, (hafter.mem_windowGap trades receivedNs _).mp ⟨gap, hgap, le_refl _, hle⟩⟩
    · rintro ⟨id, hid⟩
      obtain ⟨gap, hgap, -⟩ := (hafter.mem_windowGap trades receivedNs id).mpr hid
      exact Option.isSome_iff_exists.mpr ⟨gap, hgap⟩
  · intro gap hgap id
    rw [← hafter.mem_windowGap trades receivedNs id]
    constructor
    · rintro hid
      exact ⟨gap, hgap, hid⟩
    · rintro ⟨gap', hgap', hid⟩
      have hgap'' : page.poll.windowGap = some gap' := hgap'
      rw [hgap] at hgap''
      obtain rfl := Option.some.inj hgap''
      exact hid

/-! ### Overlapping pages -/

def sampleTrade (id : Nat) (price : String) (isBuyerMaker : Value) : TradeRow where
  document := .dict [("id", .int id), ("isBuyerMaker", isBuyerMaker), ("price", .str price),
    ("time", .int (1000 + id : Nat))]
  id := id
  time := 1000 + id
  id_eq := rfl
  time_eq := rfl

/-- The second page has the second trade again, with `1.0` for `true`, and the first one at another
price. -/
def samplePages : List (List TradeRow × Nat) :=
  [([sampleTrade 1 "10.0" (.bool true), sampleTrade 2 "10.5" (.bool true)], 10),
   ([sampleTrade 2 "10.5" (.other "1.0"), sampleTrade 1 "11.0" (.bool true),
     sampleTrade 3 "10.5" (.other "NaN")], 20)]

theorem compacts_sample :
    let observed := (fresh ⟨1000, le_refl 1000⟩).observeAll false samplePages
    let page := (observed.1.observe false [sampleTrade 6 "12.0" .null] 30).2
    (emittedBy observed.2).map (fun row => (row.id, row.document.get? "price")) =
      [(1, some (.str "10.0")), (2, some (.str "10.5")), (1, some (.str "11.0")),
       (3, some (.str "10.5"))] ∧
    (∀ id, Option.Rel (TradeRow.StandsFor false) (latestRow (emittedBy observed.2) id)
      (latestRow (rowsOf samplePages) id)) ∧
    (page.poll.windowGap.map fun gap => (gap.firstUnobservedId, gap.lastUnobservedId)) =
      some (4, 5) ∧
    ∃ id, Unobserved (rowsOf samplePages) [sampleTrade 6 "12.0" .null] id := by
  intro observed page
  have hcompacts := compacts false ⟨1000, le_refl 1000⟩ samplePages [sampleTrade 6 "12.0" .null] 30
  exact ⟨by with_unfolding_all rfl, hcompacts.1, by with_unfolding_all rfl,
    hcompacts.2.2.1.mp (by with_unfolding_all rfl)⟩

end RecentTradesCompactor

end MarketDataRecorder
