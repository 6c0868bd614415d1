import MarketDataRecorder.Catalog.RemoteArchive

/-!
# Agreement of the lifecycles

A chunk, its archive on this host and its remote authority each have a lifecycle of their own, and
a call moves two or more of them. They agree: an archived chunk is in the state that its transaction
gives it, a remotely authorized one is sealed, no chunk has two owners, and the recorded transitions
of a chunk are a path to its state. A move of a chunk keeps the agreement under three conditions,
one for each kind of owner that the chunk may have.
-/

namespace MarketDataRecorder

/-! ## Paths -/

/-- A step of a lifecycle: the creation, a self-loop or an allowed transition. -/
def LifecycleStep : Option ChunkState → ChunkState → Prop
  | none, toState => toState = .active
  | some fromState, toState => fromState = toState ∨ toState ∈ allowedTransitions fromState

/-- Events that lead from a state to another. -/
def LifecyclePath : Option ChunkState → List (LifecycleEvent ChunkState) → Option ChunkState → Prop
  | fromState, [], toState => fromState = toState
  | fromState, event :: rest, toState =>
    event.fromState = fromState ∧ LifecycleStep fromState event.toState ∧
      LifecyclePath (some event.toState) rest toState

theorem LifecyclePath.append {middle toState : Option ChunkState} :
    ∀ {fromState : Option ChunkState} {events more : List (LifecycleEvent ChunkState)},
      LifecyclePath fromState events middle → LifecyclePath middle more toState →
        LifecyclePath fromState (events ++ more) toState
  | _, [], _, hfirst, hmore => by
    cases hfirst
    exact hmore
  | _, _ :: _, _, ⟨hfrom, hstep, hrest⟩, hmore => ⟨hfrom, hstep, hrest.append hmore⟩

/-- A chunk that has a state keeps one, and an event gives it one. -/
theorem LifecyclePath.isSome {toState : Option ChunkState} :
    ∀ {fromState : Option ChunkState} {events : List (LifecycleEvent ChunkState)},
      LifecyclePath fromState events toState → fromState.isSome = true ∨ events ≠ [] →
        toState.isSome = true
  | _, [], h, hsome => by
    cases h
    exact hsome.resolve_right fun hc => hc rfl
  | _, _ :: _, ⟨_, _, hrest⟩, _ => hrest.isSome (Or.inl rfl)

namespace ArchiveTables

/-- The recorded transitions of a chunk. -/
def transitionsOf (tables : ArchiveTables) (chunkId : String) : List (LifecycleEvent ChunkState) :=
  tables.chunkTransitions.filter fun event => event.owner = chunkId

/-! ## Agreement -/

/-- **What the lifecycles agree on.** -/
structure LifecycleAgreement (tables : ArchiveTables) : Prop where
  archived : ∀ id row, tables.archiveTransactions.get? id = some row →
    tables.state row.chunkId = some (archiveChunkStates row.state)
  authorized : ∀ id row, tables.remoteTransactions.get? id = some row →
    tables.state row.receipt.chunkId = some .sealed
  oneOwner : ∀ id row id' row', tables.archiveTransactions.get? id = some row →
    tables.remoteTransactions.get? id' = some row' → row.chunkId ≠ row'.receipt.chunkId
  connected : ∀ chunkId,
    LifecyclePath none (tables.transitionsOf chunkId) (tables.state chunkId)

variable (identitySha256 : RemoteArchiveReceipt → String)

/-- The agreement, and what keeps it. -/
structure LifecycleInvariant (tables : ArchiveTables) : Prop extends LifecycleAgreement tables where
  created : ∀ chunkId, (tables.state chunkId).isSome =
    hasEvent tables.chunkTransitions (createKey chunkId)
  oneArchive : ∀ id row id' row', tables.archiveTransactions.get? id = some row →
    tables.archiveTransactions.get? id' = some row' → row.chunkId = row'.chunkId → id = id'
  remoteValid : ∀ id row, tables.remoteTransactions.get? id = some row →
    row.receipt.receiptId = id ∧ remoteRowValid identitySha256 tables row = true
  remoteOwned : ∀ event ∈ tables.remoteEvents,
    (tables.remoteTransactions.get? event.owner).isSome = true

/-! ## What moves -/

/-- One chunk goes along a path, with its creation first where it is new; the others stay. -/
structure Moves (tables tables' : ArchiveTables) (chunkId : String)
    (events : List (LifecycleEvent ChunkState)) : Prop where
  transitions : tables'.chunkTransitions = tables.chunkTransitions ++ events
  owned : ∀ event ∈ events, event.owner = chunkId
  path : LifecyclePath (tables.state chunkId) events (tables'.state chunkId)
  others : ∀ other, other ≠ chunkId → tables'.chunks.get? other = tables.chunks.get? other
  creates : tables.state chunkId = none → events ≠ [] →
    hasEvent events (createKey chunkId) = true
  genuine : ∀ other, hasEvent events (createKey other) = true →
    (tables.state other).isSome = true ∨ other = chunkId

variable {identitySha256} {tables tables' : ArchiveTables} {chunkId : String}
  {events : List (LifecycleEvent ChunkState)} {now : Int}

theorem Moves.state_of_ne (h : Moves tables tables' chunkId events) {other : String}
    (hne : other ≠ chunkId) : tables'.state other = tables.state other := by
  rw [state, state, h.others other hne]

theorem Moves.connected (h : Moves tables tables' chunkId events)
    (hpath : ∀ c, LifecyclePath none (tables.transitionsOf c) (tables.state c)) (c : String) :
    LifecyclePath none (tables'.transitionsOf c) (tables'.state c) := by
  rw [transitionsOf, h.transitions, List.filter_append]
  by_cases hc : c = chunkId
  · subst hc
    have hall : events.filter (fun event => event.owner = c) = events :=
      List.filter_eq_self.mpr fun event hevent => by simpa using h.owned event hevent
    rw [hall]
    exact (hpath c).append h.path
  · have hnone : events.filter (fun event => event.owner = c) = [] := by
      rw [List.filter_eq_nil_iff]
      intro event hevent
      simpa [h.owned event hevent] using Ne.symm hc
    rw [hnone, List.append_nil, h.state_of_ne hc]
    exact hpath c

theorem Moves.created (h : Moves tables tables' chunkId events)
    (hcreated : ∀ c, (tables.state c).isSome = hasEvent tables.chunkTransitions (createKey c))
    (c : String) : (tables'.state c).isSome = hasEvent tables'.chunkTransitions (createKey c) := by
  rw [h.transitions, hasEvent_append, ← hcreated c]
  by_cases hc : c = chunkId
  · subst hc
    cases hold : tables.state c with
    | some old => simpa using h.path.isSome (Or.inl (by rw [hold]; rfl))
    | none =>
      by_cases hnil : events = []
      · have hpath : none = tables'.state c := by
          have hpath := h.path
          rwa [hnil, hold] at hpath
        rw [← hpath, hnil]
        rfl
      · rw [h.creates hold hnil, h.path.isSome (Or.inr hnil)]
        rfl
  · rw [h.state_of_ne hc]
    cases hnew : hasEvent events (createKey c) with
    | false => simp
    | true => simpa using (h.genuine c hnew).resolve_right hc

/-! ## One call -/

/-- The states in front of an archive: no owner has such a chunk. -/
def Early (chunkState : Option ChunkState) : Prop :=
  chunkState ∈ [none, some .active, some .recovered, some .sealing]

instance (chunkState : Option ChunkState) : Decidable (Early chunkState) :=
  inferInstanceAs (Decidable (_ ∈ _))

theorem not_early_sealed : ¬ Early (some .sealed) := by decide

theorem not_early_archive (archiveState : ArchiveState) :
    ¬ Early (some (archiveChunkStates archiveState)) := by
  cases archiveState <;> decide

/-- A row stays valid while its chunk and its events stay. -/
theorem remoteRowValid_of_eq {row : RemoteArchiveTransaction}
    (h : remoteRowValid identitySha256 tables row = true)
    (hchunk : tables'.chunks.get? row.receipt.chunkId = tables.chunks.get? row.receipt.chunkId)
    (hevents : tables'.remoteEvents.filter (fun event => event.owner = row.receipt.receiptId) =
      tables.remoteEvents.filter fun event => event.owner = row.receipt.receiptId) :
    remoteRowValid identitySha256 tables' row = true := by
  unfold remoteRowValid at h ⊢
  rw [hchunk, hevents]
  exact h

namespace LifecycleInvariant

variable (h : LifecycleInvariant identitySha256 tables)
include h

/-- A move of a chunk that no archive or authority has, or that keeps its row. -/
theorem of_early (chunkId : String) (hm : Moves tables tables' chunkId events)
    (hrow : tables'.chunks.get? chunkId = tables.chunks.get? chunkId ∨
      Early (tables.state chunkId))
    (harchive : tables'.archiveTransactions = tables.archiveTransactions)
    (hremote : tables'.remoteTransactions = tables.remoteTransactions)
    (hevents : tables'.remoteEvents = tables.remoteEvents) :
    LifecycleInvariant identitySha256 tables' := by
  have hkeep : ∀ other, ¬ Early (tables.state other) →
      tables'.chunks.get? other = tables.chunks.get? other := by
    intro other hnot
    by_cases ho : other = chunkId
    · subst ho
      exact hrow.resolve_right hnot
    · exact hm.others other ho
  constructor
  · constructor
    · intro id row hget
      rw [harchive] at hget
      have hstate := h.archived id row hget
      rw [state, hkeep row.chunkId (by rw [hstate]; exact not_early_archive row.state)]
      exact hstate
    · intro id row hget
      rw [hremote] at hget
      have hstate := h.authorized id row hget
      rw [state, hkeep row.receipt.chunkId (by rw [hstate]; exact not_early_sealed)]
      exact hstate
    · rw [harchive, hremote]
      exact h.oneOwner
    · exact hm.connected h.connected
  · exact hm.created h.created
  · rw [harchive]
    exact h.oneArchive
  · rw [hremote]
    intro id row hget
    obtain ⟨hid, hvalid⟩ := h.remoteValid id row hget
    have hstate := h.authorized id row hget
    refine ⟨hid, remoteRowValid_of_eq hvalid ?_ (by rw [hevents])⟩
    exact hkeep row.receipt.chunkId (by rw [hstate]; exact not_early_sealed)
  · rw [hevents, hremote]
    exact h.remoteOwned

/-- A move of a chunk together with the transaction that owns it. -/
theorem of_archive {transactionId : String} {row : ArchiveTransaction}
    (hm : Moves tables tables' row.chunkId events)
    (hstate : tables'.state row.chunkId = some (archiveChunkStates row.state))
    (hfree : tables.remoteTransactionForChunk row.chunkId = none)
    (hone : ∀ id old, tables.archiveTransactions.get? id = some old →
      old.chunkId = row.chunkId → id = transactionId)
    (harchive : tables'.archiveTransactions = tables.archiveTransactions.insert transactionId row)
    (hremote : tables'.remoteTransactions = tables.remoteTransactions)
    (hevents : tables'.remoteEvents = tables.remoteEvents) :
    LifecycleInvariant identitySha256 tables' := by
  rw [remoteTransactionForChunk_eq_none] at hfree
  have hget : ∀ id, tables'.archiveTransactions.get? id =
      if id = transactionId then some row else tables.archiveTransactions.get? id := by
    intro id
    rw [harchive, SortedDict.get?_insert]
  -- the other transactions have other chunks
  have hother : ∀ id old, tables.archiveTransactions.get? id = some old → id ≠ transactionId →
      old.chunkId ≠ row.chunkId := fun id old hold hne hc => hne (hone id old hold hc)
  have hsealed : ∀ id remote, tables.remoteTransactions.get? id = some remote →
      tables'.chunks.get? remote.receipt.chunkId = tables.chunks.get? remote.receipt.chunkId :=
    fun id remote hr => hm.others _ (hfree id remote hr)
  constructor
  · constructor
    · intro id old hold
      rw [hget] at hold
      by_cases hid : id = transactionId
      · rw [if_pos hid] at hold
        cases hold
        exact hstate
      · rw [if_neg hid] at hold
        rw [hm.state_of_ne (hother id old hold hid)]
        exact h.archived id old hold
    · intro id remote hr
      rw [hremote] at hr
      rw [state, hsealed id remote hr]
      exact h.authorized id remote hr
    · intro id old id' remote hold hr
      rw [hget] at hold
      rw [hremote] at hr
      by_cases hid : id = transactionId
      · rw [if_pos hid] at hold
        cases hold
        exact Ne.symm (hfree id' remote hr)
      · rw [if_neg hid] at hold
        exact h.oneOwner id old id' remote hold hr
    · exact hm.connected h.connected
  · exact hm.created h.created
  · intro id old id' old' hold hold' heq
    rw [hget] at hold hold'
    by_cases hid : id = transactionId <;> by_cases hid' : id' = transactionId
    · rw [hid, hid']
    · rw [if_pos hid] at hold
      rw [if_neg hid'] at hold'
      cases hold
      exact absurd heq.symm (hother id' old' hold' hid')
    · rw [if_neg hid] at hold
      rw [if_pos hid'] at hold'
      cases hold'
      exact absurd heq (hother id old hold hid)
    · rw [if_neg hid] at hold
      rw [if_neg hid'] at hold'
      exact h.oneArchive id old id' old' hold hold' heq
  · intro id remote hr
    rw [hremote] at hr
    obtain ⟨hid, hvalid⟩ := h.remoteValid id remote hr
    exact ⟨hid, remoteRowValid_of_eq hvalid (hsealed id remote hr) (by rw [hevents])⟩
  · rw [hevents, hremote]
    exact h.remoteOwned

/-- A change of the authorities that leaves the chunks and archives alone. -/
theorem of_remote {receiptId : String} {row : RemoteArchiveTransaction}
    {event : LifecycleEvent RemoteArchiveState}
    (howner : event.owner = receiptId)
    (hid : row.receipt.receiptId = receiptId)
    (hfree : tables.archiveTransactionForChunk row.receipt.chunkId = none)
    (hvalid : remoteRowValid identitySha256
      { tables with remoteEvents := tables.remoteEvents ++ [event] } row = true) :
    LifecycleInvariant identitySha256 {
      tables with
      remoteTransactions := tables.remoteTransactions.insert receiptId row
      remoteEvents := tables.remoteEvents ++ [event] } := by
  rw [archiveTransactionForChunk_eq_none] at hfree
  have hsource : (tables.chunks.get? row.receipt.chunkId).map
    (ChunkRow.source row.receipt.chunkId) =
      some row.receipt.requiredChunk := by
    simp only [remoteRowValid, decide_eq_true_eq] at hvalid
    exact hvalid.2.2.2.2.2.2.2.1
  have hsealed : tables.state row.receipt.chunkId = some .sealed := by
    obtain ⟨chunk, hchunk, hrequired⟩ := Option.map_eq_some_iff.mp hsource
    rw [state, hchunk, Option.map_some]
    exact congrArg ChunkSource.state hrequired
  constructor
  · constructor
    · exact h.archived
    · intro id remote hr
      simp only [SortedDict.get?_insert] at hr
      by_cases hc : id = receiptId
      · rw [if_pos hc] at hr
        cases hr
        exact hsealed
      · rw [if_neg hc] at hr
        exact h.authorized id remote hr
    · intro id archive id' remote ha hr
      simp only [SortedDict.get?_insert] at hr
      by_cases hc : id' = receiptId
      · rw [if_pos hc] at hr
        cases hr
        exact hfree id archive ha
      · rw [if_neg hc] at hr
        exact h.oneOwner id archive id' remote ha hr
    · exact h.connected
  · exact h.created
  · exact h.oneArchive
  · intro id remote hr
    simp only [SortedDict.get?_insert] at hr
    by_cases hc : id = receiptId
    · rw [if_pos hc] at hr
      cases hr
      exact ⟨hid.trans hc.symm, hvalid⟩
    · rw [if_neg hc] at hr
      obtain ⟨hreceipt, hrest⟩ := h.remoteValid id remote hr
      refine ⟨hreceipt, remoteRowValid_of_eq hrest rfl ?_⟩
      -- the event belongs to another receipt
      rw [List.filter_append, List.filter_singleton, howner, hreceipt]
      simp [Ne.symm hc]
  · intro e he
    simp only [SortedDict.get?_insert]
    rcases List.mem_append.mp he with he | he
    · split
      · rfl
      · exact h.remoteOwned e he
    · rw [List.mem_singleton.mp he, if_pos howner]
      rfl

end LifecycleInvariant

end ArchiveTables

end MarketDataRecorder
