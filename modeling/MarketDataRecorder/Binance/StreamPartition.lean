import MarketDataRecorder.Binance.StreamGroups
import MarketDataRecorder.Lib.Grouping
import Mathlib.Data.List.TakeWhile

/-!
# Stream groups as a partition

What `stream_groups` makes of a set of sources: every source in one group, no group above the limit,
the same groups in whatever order the sources come, and a wire name that means one source of its
group.

* `streamGroups_isOk_iff` — when there are groups
* `streamGroups_partition` — what they are
-/

namespace MarketDataRecorder

/-! ## Endpoints -/

/-- An endpoint is its two parts around the last slash. -/
theorem eq_of_rsplitSlash {text head wire : String} (h : rsplitSlash text = some (head, wire)) :
    text = head ++ "/" ++ wire := by
  unfold rsplitSlash at h
  dsimp only at h
  split at h
  · next hslash =>
    have hparts := Option.some.inj h
    obtain ⟨hhead, hwire⟩ := Prod.mk.inj hparts
    have hsplit : text.toList.reverse.takeWhile (· ≠ '/') ++
        '/' :: (text.toList.reverse.dropWhile (· ≠ '/')).drop 1 = text.toList.reverse := by
      have hne : text.toList.reverse.dropWhile (· ≠ '/') ≠ [] := by
        intro hnil
        have hall := List.dropWhile_eq_nil_iff.mp hnil _ hslash
        exact absurd hall (by decide)
      have hfirst := List.head_dropWhile_not (fun c => decide (c ≠ '/')) hne
      simp only [ne_eq, decide_not, Bool.not_eq_false', decide_eq_true_eq] at hfirst
      conv_rhs => rw [← @List.takeWhile_append_dropWhile _ (fun c => decide (c ≠ '/'))
        text.toList.reverse]
      congr 1
      rw [← List.cons_head_tail hne]
      simp [hfirst]
    have hlist := congrArg List.reverse hsplit
    rw [List.reverse_reverse, List.reverse_append, List.reverse_cons] at hlist
    refine String.toList_injective ?_
    rw [String.toList_append, String.toList_append, ← hhead, ← hwire, String.toList_ofList,
      String.toList_ofList, String.toList_ofList]
    exact hlist.symm
  · cases h

/-- The name under which the venue sends a source; empty where the endpoint has none. -/
def Source.wireName (source : Source) : String :=
  ((rsplitSlash source.endpoint).map Prod.snd).getD ""

/-! ## Slices -/

theorem flatten_slices {α : Type} {limit : Nat} (hlimit : 1 ≤ limit) :
    ∀ (fuel : Nat) (members : List α), members.length ≤ fuel →
      (slices limit fuel members).flatten = members
  | 0, members, h => by
    rw [List.length_eq_zero_iff.mp (Nat.le_zero.mp h)]
    rfl
  | fuel + 1, [], _ => rfl
  | fuel + 1, a :: members, h => by
    have hrest : ((a :: members).drop limit).length ≤ fuel := by
      rw [List.length_drop, List.length_cons] at *
      omega
    rw [slices, List.flatten_cons, flatten_slices hlimit fuel _ hrest, List.take_append_drop]
    simp

theorem length_of_mem_slices {α : Type} {limit : Nat} :
    ∀ {fuel : Nat} {members selected : List α}, selected ∈ slices limit fuel members →
      selected.length ≤ limit
  | 0, members, selected, h => by cases members <;> simp [slices] at h
  | fuel + 1, [], selected, h => by simp [slices] at h
  | fuel + 1, a :: members, selected, h => by
    rw [slices] at h
    · rcases List.mem_cons.mp h with rfl | h
      · exact List.length_take_le limit (a :: members)
      · exact length_of_mem_slices h
    · simp

theorem mem_of_mem_slices {α : Type} {limit : Nat} {a : α} :
    ∀ {fuel : Nat} {members selected : List α}, selected ∈ slices limit fuel members →
      a ∈ selected → a ∈ members
  | 0, members, selected, h, _ => by cases members <;> simp [slices] at h
  | fuel + 1, [], selected, h, _ => by simp [slices] at h
  | fuel + 1, b :: members, selected, h, ha => by
    rw [slices] at h
    · rcases List.mem_cons.mp h with rfl | h
      · exact List.mem_of_mem_take ha
      · exact List.mem_of_mem_drop (mem_of_mem_slices h ha)
    · simp

/-! ## The groups of the dictionary -/

/-- The key of a source: what stands before the wire name, and whether it is kept apart. -/
def Source.groupKey (isolateHot : Bool) (source : Source) : Lex (String × Bool) :=
  toLex (rsplitHead source.endpoint, isHot isolateHot source)

/-- The sources that come over a WebSocket. -/
def websocketSources (sources : List Source) : List Source :=
  sources.filter fun source => source.transport = "ws"

/-- `members.sort(key=lambda s: s.endpoint)`. -/
def sortMembers (members : List Source) : List Source :=
  members.insertionSort fun a b => a.endpoint ≤ b.endpoint

/-- The sorted members under their keys. -/
def sortedMembers (isolateHot : Bool) (sources : List Source) :
    SortedDict (Lex (String × Bool)) (List Source) :=
  (Grouping.byKey (Source.groupKey isolateHot) (websocketSources sources)).mapValues
    fun _ members =>
    sortMembers members

/-- What each group is made of. -/
def selections (limit : Nat) (isolateHot : Bool) (sources : List Source) :
    List (String × List Source) :=
  (sortedMembers isolateHot sources).items.flatMap fun group =>
    (slices limit group.2.length group.2).map fun selected => ((ofLex group.1).1, selected)

/-- The groups are made of the selections, one of each. -/
theorem streamGroups_eq (sources : List Source) (limit : Nat) (isolateHot : Bool) :
    streamGroups sources limit isolateHot =
      if limit < 1 ∨ 1024 < limit then .error "combined-stream limit must be between 1 and 1024"
      else match (selections limit isolateHot sources).mapM fun s => streamGroup s.1 s.2 with
        | none => .error "list index out of range"
        | some groups => .ok groups := by
  rw [streamGroups, selections, sortedMembers, SortedDict.mapValues, List.flatMap_map]
  rfl

section

variable {sources other : List Source} {limit : Nat} {isolateHot : Bool}

/-- No two WebSocket sources share an endpoint. -/
def DistinctEndpoints (sources : List Source) : Prop :=
  ((websocketSources sources).map Source.endpoint).Nodup

instance (sources : List Source) : Decidable (DistinctEndpoints sources) :=
  inferInstanceAs (Decidable (List.Nodup _))

theorem DistinctEndpoints.eq_of_endpoint (h : DistinctEndpoints sources) {a b : Source}
    (ha : a ∈ websocketSources sources) (hb : b ∈ websocketSources sources)
    (heq : a.endpoint = b.endpoint) : a = b :=
  List.inj_on_of_nodup_map h ha hb heq

/-- Sorted by endpoint, members come in one order only. -/
theorem sortMembers_eq_of_perm (h : DistinctEndpoints sources) {members members' : List Source}
    (hsub : ∀ a ∈ members, a ∈ websocketSources sources) (hperm : members.Perm members') :
    sortMembers members = sortMembers members' := by
  have hsorted : ∀ l : List Source, (sortMembers l).Pairwise (·.endpoint ≤ ·.endpoint) := by
    intro l
    exact List.pairwise_insertionSort _ _
  refine (((List.perm_insertionSort _ _).trans hperm).trans
    (List.perm_insertionSort _ _).symm).eq_of_pairwise ?_ (hsorted members) (hsorted members')
  intro a b ha hb hab hba
  have hmem : ∀ {c : Source}, c ∈ sortMembers members → c ∈ websocketSources sources :=
    fun hc => hsub _ (List.mem_insertionSort _ |>.mp hc)
  have hb' : b ∈ members := hperm.mem_iff.mpr (List.mem_insertionSort _ |>.mp hb)
  exact h.eq_of_endpoint (hmem ha) (hsub b hb') (le_antisymm hab hba)

/-- **The members under the keys do not depend on the order of the sources.** -/
theorem sortedMembers_eq_of_perm (h : DistinctEndpoints sources) (hperm : sources.Perm other) :
    sortedMembers isolateHot sources = sortedMembers isolateHot other := by
  have hws : (websocketSources sources).Perm (websocketSources other) := hperm.filter _
  refine SortedDict.ext_get? fun k => ?_
  rw [sortedMembers, sortedMembers, SortedDict.get?_mapValues, SortedDict.get?_mapValues]
  cases hget : (Grouping.byKey (Source.groupKey isolateHot) (websocketSources sources)).get? k with
  | none =>
    cases hget' : (Grouping.byKey (Source.groupKey isolateHot) (websocketSources other)).get? k with
    | none => rfl
    | some group =>
      obtain ⟨-, a, ha, hk⟩ := Grouping.get?_byKey.mp hget'
      have hfound := Grouping.get?_byKey.mpr ⟨rfl, a, hws.mem_iff.mpr ha, hk⟩
      rw [hget] at hfound
      cases hfound
  | some group =>
    obtain ⟨rfl, a, ha, hk⟩ := Grouping.get?_byKey.mp hget
    rw [Grouping.get?_byKey.mpr ⟨rfl, a, hws.mem_iff.mp ha, hk⟩, Option.map_some, Option.map_some,
      sortMembers_eq_of_perm h (fun b hb => List.mem_of_mem_filter hb) (hws.filter _)]

/-- All selections together have the WebSocket sources, each once. -/
theorem selections_perm (hlimit : 1 ≤ limit) (isolateHot : Bool) (sources : List Source) :
    ((selections limit isolateHot sources).flatMap Prod.snd).Perm (websocketSources sources) := by
  have hslices : ∀ group : Lex (String × Bool) × List Source,
      ((slices limit group.2.length group.2).map fun selected =>
        ((ofLex group.1).1, selected)).flatMap Prod.snd = group.2 := by
    intro group
    rw [List.flatMap_map, List.flatMap_id']
    exact flatten_slices hlimit _ _ le_rfl
  rw [selections, List.flatMap_assoc]
  simp only [hslices]
  rw [sortedMembers, SortedDict.mapValues, List.flatMap_map]
  exact (List.Perm.flatMap_left _ fun group _ => List.perm_insertionSort _ _).trans
    (Grouping.flatMap_byKey_perm _)

/-- A selection is part of the members of one key, no more than the limit. -/
theorem mem_selections {selection : String × List Source}
    (h : selection ∈ selections limit isolateHot sources) :
    selection.2.length ≤ limit ∧ ∀ source ∈ selection.2, rsplitHead source.endpoint =
      selection.1 := by
  obtain ⟨group, hgroup, h⟩ := List.mem_flatMap.mp h
  obtain ⟨selected, hselected, rfl⟩ := List.mem_map.mp h
  refine ⟨length_of_mem_slices hselected, fun source hsource => ?_⟩
  obtain ⟨item, hitem, rfl⟩ := List.mem_map.mp hgroup
  have hmember : source ∈ item.2 := by
    rw [← List.mem_insertionSort fun a b : Source => a.endpoint ≤ b.endpoint]
    exact mem_of_mem_slices hselected hsource
  rw [(Grouping.get?_byKey.mp (SortedDict.get?_eq_some_iff.mpr hitem)).1] at hmember
  have hkey := of_decide_eq_true (List.mem_filter.mp hmember).2
  exact congrArg (fun key => (ofLex key).1) hkey

end

/-! ## Groups -/

/-- A fallible map that yields `g` wherever it yields anything. -/
theorem mapM_eq_some_map_iff {α β : Type} {f : α → Option β} {g : α → β}
    (hg : ∀ a b, f a = some b → b = g a) :
    ∀ {items : List α} {results : List β}, items.mapM f = some results ↔
      (∀ a ∈ items, (f a).isSome = true) ∧ results = items.map g
  | [], results => by
    rw [List.mapM_nil, List.map_nil]
    exact ⟨fun h => ⟨by simp, (Option.some.inj h).symm⟩, fun h => congrArg some h.2.symm⟩
  | a :: items, results => by
    rw [List.mapM_cons]
    cases ha : f a with
    | none => simp [ha]
    | some first =>
      obtain rfl := hg a first ha
      cases hrest : items.mapM f with
      | none =>
        have hnone : ¬ ∀ b ∈ items, (f b).isSome = true := by
          intro hall
          have hsome := (mapM_eq_some_map_iff hg).mpr ⟨hall, rfl⟩
          rw [hrest] at hsome
          cases hsome
        simp only [List.mem_cons, forall_eq_or_imp, hnone, and_false, false_and, iff_false]
        simp
      | some rest =>
        obtain ⟨hall, rfl⟩ := (mapM_eq_some_map_iff hg).mp hrest
        simp only [List.mem_cons, forall_eq_or_imp, ha, Option.isSome_some, List.map_cons, true_and]
        exact ⟨fun h => ⟨hall, (Option.some.inj h).symm⟩, fun h => congrArg some h.2.symm⟩

/-- The group of a selection. -/
def groupOf (selection : String × List Source) : StreamGroup where
  root := (routeOf selection.1).1
  route := (routeOf selection.1).2
  name := groupName (routeOf selection.1).2 selection.2
  sources := selection.2
  wireNames := selection.2.map Source.wireName

theorem streamGroup_eq_some_iff {selection : String × List Source} {group : StreamGroup} :
    streamGroup selection.1 selection.2 = some group ↔
      (∀ source ∈ selection.2, (rsplitSlash source.endpoint).isSome = true) ∧
        group = groupOf selection := by
  have hwire : ∀ (source : Source) (wire : String),
      (rsplitSlash source.endpoint).map Prod.snd = some wire → wire = source.wireName := by
    intro source wire h
    rw [Source.wireName, h]
    rfl
  have hnames := @mapM_eq_some_map_iff Source String _ _ hwire selection.2
  unfold streamGroup
  cases hmap : selection.2.mapM fun source => (rsplitSlash source.endpoint).map Prod.snd with
  | none =>
    simp only [Option.bind_eq_bind, Option.bind_none, reduceCtorEq, false_iff, not_and]
    intro hall
    have hsome := hnames.mpr ⟨fun source hsource => by simpa using hall source hsource, rfl⟩
    rw [hmap] at hsome
    cases hsome
  | some names =>
    obtain ⟨hall, rfl⟩ := hnames.mp hmap
    simp only [Option.isSome_map] at hall
    exact ⟨fun h => ⟨hall, (Option.some.inj h).symm⟩, fun h => congrArg some h.2.symm⟩

section

variable {sources : List Source} {limit : Nat} {isolateHot : Bool} {groups : List StreamGroup}

/-- There are groups for a limit in bounds and endpoints that all have a wire name: one for each
selection. -/
theorem streamGroups_eq_ok_iff : streamGroups sources limit isolateHot = .ok groups ↔
    ((1 ≤ limit ∧ limit ≤ 1024) ∧
      ∀ source ∈ websocketSources sources, (rsplitSlash source.endpoint).isSome = true) ∧
    groups = (selections limit isolateHot sources).map groupOf := by
  rw [streamGroups_eq]
  by_cases hlimit : limit < 1 ∨ 1024 < limit
  · rw [if_pos hlimit]
    constructor
    · intro h
      cases h
    · rintro ⟨⟨⟨hlow, hhigh⟩, -⟩, -⟩
      omega
  rw [if_neg hlimit]
  have hlow : 1 ≤ limit := by omega
  have hhigh : limit ≤ 1024 := by omega
  have hmap := @mapM_eq_some_map_iff _ _ (fun s : String × List Source => streamGroup s.1 s.2)
    groupOf
    (fun selection group h => (streamGroup_eq_some_iff.mp h).2)
      (selections limit isolateHot sources)
  have hall : (∀ selection ∈ selections limit isolateHot sources,
      (streamGroup selection.1 selection.2).isSome = true) ↔
        ∀ source ∈ websocketSources sources, (rsplitSlash source.endpoint).isSome = true := by
    constructor
    · intro h source hsource
      obtain ⟨selection, hselection, hmem⟩ := List.mem_flatMap.mp
        ((selections_perm hlow isolateHot sources).mem_iff.mpr hsource)
      obtain ⟨group, hgroup⟩ := Option.isSome_iff_exists.mp (h selection hselection)
      exact (streamGroup_eq_some_iff.mp hgroup).1 source hmem
    · intro h selection hselection
      refine Option.isSome_iff_exists.mpr ⟨_, streamGroup_eq_some_iff.mpr ⟨?_, rfl⟩⟩
      intro source hsource
      exact h source ((selections_perm hlow isolateHot sources).mem_iff.mp
        (List.mem_flatMap.mpr ⟨selection, hselection, hsource⟩))
  rw [← hall]
  cases hgroups : (selections limit isolateHot sources).mapM fun s => streamGroup s.1 s.2 with
  | none =>
    constructor
    · intro h
      cases h
    · rintro ⟨⟨-, hsome⟩, rfl⟩
      have := hmap.mpr ⟨hsome, rfl⟩
      rw [hgroups] at this
      cases this
  | some made =>
    obtain ⟨hsome, rfl⟩ := hmap.mp hgroups
    exact ⟨fun h => ⟨⟨⟨hlow, hhigh⟩, hsome⟩, (Except.ok.inj h).symm⟩, fun h => congrArg _ h.2.symm⟩

/-- `by_wire`. -/
def StreamGroup.byWire (group : StreamGroup) : SortedDict String Source :=
  .ofItems (group.wireNames.zip group.sources)

/-- **What `stream_groups` makes of some sources.** -/
structure StreamPartition (sources : List Source) (limit : Nat) (isolateHot : Bool)
    (groups : List StreamGroup) : Prop where
  placed : (groups.flatMap StreamGroup.sources).Perm (websocketSources sources)
  once : (groups.flatMap StreamGroup.sources).Nodup
  bounded : ∀ group ∈ groups, group.sources.length ≤ limit
  stable : ∀ other, sources.Perm other → streamGroups other limit isolateHot = .ok groups
  wireNames : ∀ group ∈ groups, group.wireNames.Nodup
  meaning : ∀ group ∈ groups, ∀ wire source, group.byWire.get? wire = some source ↔
    source ∈ group.sources ∧ rsplitSlash source.endpoint = some (rsplitHead source.endpoint, wire)

theorem flatMap_groupOf (selected : List (String × List Source)) :
    (selected.map groupOf).flatMap StreamGroup.sources = selected.flatMap Prod.snd := by
  rw [List.flatMap_map]
  rfl

/-- What stands around the last slash of an endpoint that has one. -/
theorem rsplitSlash_eq {source : Source} (h : (rsplitSlash source.endpoint).isSome = true) :
    rsplitSlash source.endpoint = some (rsplitHead source.endpoint, source.wireName) := by
  obtain ⟨parts, hparts⟩ := Option.isSome_iff_exists.mp h
  rw [rsplitHead, Source.wireName, hparts]
  rfl

/-- In a selection a wire name belongs to one source: the endpoints only differ in it. -/
theorem DistinctEndpoints.eq_of_wireName (h : DistinctEndpoints sources) (hlimit : 1 ≤ limit)
    (hslash : ∀ source ∈ websocketSources sources, (rsplitSlash source.endpoint).isSome = true)
    {selection : String × List Source}
    (hselection : selection ∈ selections limit isolateHot sources)
    {a b : Source} (ha : a ∈ selection.2) (hb : b ∈ selection.2) (heq : a.wireName = b.wireName) :
    a = b := by
  have hmem : ∀ {c : Source}, c ∈ selection.2 → c ∈ websocketSources sources := fun hc =>
    (selections_perm hlimit isolateHot sources).mem_iff.mp
      (List.mem_flatMap.mpr ⟨selection, hselection, hc⟩)
  refine h.eq_of_endpoint (hmem ha) (hmem hb) ?_
  rw [eq_of_rsplitSlash (rsplitSlash_eq (hslash a (hmem ha))),
    eq_of_rsplitSlash (rsplitSlash_eq (hslash b (hmem hb))), heq,
    (mem_selections hselection).2 a ha, (mem_selections hselection).2 b hb]

end

/-- **Stream grouping is a stable partition**, as soon as the endpoints differ. There are groups
exactly where the limit is in bounds and each endpoint has a wire name. -/
theorem streamGroups_partition (sources : List Source) (limit : Nat) (isolateHot : Bool)
    (h : DistinctEndpoints sources) :
    (∀ groups, streamGroups sources limit isolateHot = .ok groups →
      StreamPartition sources limit isolateHot groups) ∧
    ((∃ groups, streamGroups sources limit isolateHot = .ok groups) ↔
      (1 ≤ limit ∧ limit ≤ 1024) ∧
        ∀ source ∈ websocketSources sources, (rsplitSlash source.endpoint).isSome = true) := by
  refine ⟨fun groups hgroups => ?_, ?_⟩
  · obtain ⟨⟨⟨hlow, hhigh⟩, hslash⟩, rfl⟩ := streamGroups_eq_ok_iff.mp hgroups
    have hperm := selections_perm hlow isolateHot sources
    have hplaced := flatMap_groupOf (selections limit isolateHot sources) ▸ hperm
    have honce : (websocketSources sources).Nodup := List.Nodup.of_map _ h
    refine ⟨hplaced, hplaced.nodup_iff.mpr honce, ?_, ?_, ?_, ?_⟩
    · intro group hgroup
      obtain ⟨selection, hselection, rfl⟩ := List.mem_map.mp hgroup
      exact (mem_selections hselection).1
    · intro other hother
      have hws : (websocketSources sources).Perm (websocketSources other) := hother.filter _
      refine streamGroups_eq_ok_iff.mpr ⟨⟨⟨hlow, hhigh⟩, fun source hsource => ?_⟩, ?_⟩
      · exact hslash source (hws.mem_iff.mpr hsource)
      · rw [selections, selections, sortedMembers_eq_of_perm h hother]
    · intro group hgroup
      obtain ⟨selection, hselection, rfl⟩ := List.mem_map.mp hgroup
      have hnodup : selection.2.Nodup :=
        (List.nodup_flatMap.mp (hperm.nodup_iff.mpr honce)).1 selection hselection
      exact hnodup.map_on fun a ha b hb heq =>
        h.eq_of_wireName hlow hslash hselection ha hb heq
    · intro group hgroup wire source
      obtain ⟨selection, hselection, rfl⟩ := List.mem_map.mp hgroup
      have hzip : (groupOf selection).wireNames.zip (groupOf selection).sources =
          selection.2.map fun source => (source.wireName, source) := by
        have hmap := @List.zip_map' _ _ _ Source.wireName id selection.2
        rwa [List.map_id] at hmap
      have hunique : ∀ p ∈ selection.2.map fun source => (source.wireName, source),
          ∀ q ∈ selection.2.map fun source => (source.wireName, source), p.1 = q.1 → p = q := by
        intro p hp q hq heq
        obtain ⟨a, ha, rfl⟩ := List.mem_map.mp hp
        obtain ⟨b, hb, rfl⟩ := List.mem_map.mp hq
        rw [h.eq_of_wireName hlow hslash hselection ha hb heq]
      rw [StreamGroup.byWire, hzip, SortedDict.get?_ofItems_eq_some hunique, List.mem_map]
      have hsplit : ∀ {c : Source}, c ∈ selection.2 →
          rsplitSlash c.endpoint = some (rsplitHead c.endpoint, c.wireName) := fun hc =>
        rsplitSlash_eq (hslash _
          (hperm.mem_iff.mp (List.mem_flatMap.mpr ⟨selection, hselection, hc⟩)))
      constructor
      · rintro ⟨a, ha, heq⟩
        obtain ⟨rfl, rfl⟩ := Prod.mk.inj heq
        exact ⟨ha, hsplit ha⟩
      · rintro ⟨ha, heq⟩
        refine ⟨source, ha, ?_⟩
        have hwire := hsplit ha
        rw [heq] at hwire
        rw [(Prod.mk.inj (Option.some.inj hwire)).2]
  · constructor
    · rintro ⟨groups, hgroups⟩
      exact (streamGroups_eq_ok_iff.mp hgroups).1
    · intro hbounds
      exact ⟨_, streamGroups_eq_ok_iff.mpr ⟨hbounds, rfl⟩⟩

/-- A depth stream, a trade stream and an index of two markets. -/
def sampleSources : List Source :=
  [⟨.spot, "BTCUSDT", "diff_depth", "ws", "wss://s/ws/btcusdt@depth"⟩,
    ⟨.umPerpetual, "BTCUSDT", "agg_trade", "ws", "wss://f/market/btcusdt@aggTrade"⟩,
    ⟨.spot, "BNBUSDT", "trade", "ws", "wss://s/ws/bnbusdt@trade"⟩]

theorem streamGroups_partition_sample :
    ∃ groups, streamGroups sampleSources 2 true = .ok groups ∧
      StreamPartition sampleSources 2 true groups := by
  obtain ⟨hpartition, hexists⟩ := streamGroups_partition sampleSources 2 true (by decide)
  obtain ⟨groups, hgroups⟩ := hexists.mpr ⟨by decide, by decide⟩
  exact ⟨groups, hgroups, hpartition groups hgroups⟩

end MarketDataRecorder
