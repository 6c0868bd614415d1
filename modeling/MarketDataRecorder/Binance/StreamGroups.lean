import MarketDataRecorder.Audit.ReconnectBoundaries
import MarketDataRecorder.Lib.Cbor
import Mathlib.Data.Prod.Lex

/-!
# Stream groups

`stream_groups` of `binance/public_websocket.py`: the sources that share a WebSocket connection. The
frames of a group are one stream of the recorder, under the name of the group.
-/

namespace MarketDataRecorder

/-- What `stream_groups` reads of a `Source`. -/
structure Source where
  market : Market
  symbol : String
  stream : String
  transport : String
  endpoint : String
  deriving DecidableEq

/-- `text.rsplit("/", 1)`; `none` where there is no slash. -/
def rsplitSlash (text : String) : Option (String × String) :=
  let reversed := text.toList.reverse
  if '/' ∈ reversed then
    some (String.ofList (((reversed.dropWhile (· ≠ '/')).drop 1).reverse),
      String.ofList (reversed.takeWhile (· ≠ '/')).reverse)
  else none

/-- `text.rsplit("/", 1)[0]`. -/
def rsplitHead (text : String) : String := ((rsplitSlash text).map Prod.fst).getD text

/-- `StreamGroup`. -/
structure StreamGroup where
  root : String
  route : String
  name : String
  sources : List Source
  wireNames : List String
  deriving DecidableEq

/-- `isolate_hot` for a source. -/
def isHot (isolateHot : Bool) (source : Source) : Bool :=
  isolateHot && source.market ∈ [Market.spot, .umPerpetual] &&
    source.symbol ∈ ["BTCUSDT", "ETHUSDT"] &&
    source.stream ∈ ["trade", "agg_trade", "book_ticker", "diff_depth", "rpi_depth"]

/-- The slices of `limit` members, as many as `fuel` allows. -/
def slices {α : Type} (limit : Nat) : Nat → List α → List (List α)
  | 0, _ | _, [] => []
  | fuel + 1, members => members.take limit :: slices limit fuel (members.drop limit)

/-- The root and the route of an endpoint. -/
def routeOf (endpoint : String) : String × String :=
  if endpoint.endsWith "/market" || endpoint.endsWith "/public" then
    (rsplitSlash endpoint).getD (endpoint, "")
  else (endpoint, "")

/-- The name of a group. -/
def groupName (route : String) (selected : List Source) : String :=
  let identity := Checksum.sha256Hex
    (Cbor.utf8 (String.intercalate "\x00" (selected.map Source.endpoint)))
  "ws_" ++ ((if route = "" then "market" else route) ++ "_" ++
    String.ofList (identity.toList.take 16))

/-- A group of some members of an endpoint; `none` where a member has no wire name. -/
def streamGroup (endpoint : String) (selected : List Source) : Option StreamGroup := do
  let wireNames ← selected.mapM fun source => (rsplitSlash source.endpoint).map Prod.snd
  let (root, route) := routeOf endpoint
  return ⟨root, route, groupName route selected, selected, wireNames⟩

/-- `stream_groups`. -/
def streamGroups (sources : List Source) (limit : Nat) (isolateHot : Bool) :
    Except String (List StreamGroup) :=
  if limit < 1 ∨ 1024 < limit then .error "combined-stream limit must be between 1 and 1024"
  else
    let groups : SortedDict (Lex (String × Bool)) (List Source) :=
      SortedDict.groupItems
        ((sources.filter fun source => source.transport = "ws").map fun source =>
        (toLex (rsplitHead source.endpoint, isHot isolateHot source), source))
    let selections := groups.items.flatMap fun group =>
      let members := group.2.insertionSort fun a b => a.endpoint ≤ b.endpoint
      (slices limit members.length members).map fun selected => ((ofLex group.1).1, selected)
    match selections.mapM fun s => streamGroup s.1 s.2 with
    | none => .error "list index out of range"
    | some groups => .ok groups

/-! ## The names -/

end MarketDataRecorder
