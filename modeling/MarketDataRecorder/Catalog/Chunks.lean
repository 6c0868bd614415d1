import MarketDataRecorder.Lib.SortedDict
import MarketDataRecorder.Spool.Format

/-!
# Chunk lifecycle

`storage/catalog/types.py` and `storage/catalog/chunks.py`: the lifecycle of a Raw chunk in the
Catalog. Every call is one transaction, so it is a function from one Catalog to the next, or an
error that leaves the Catalog as it was. Clock readings and the verification queue are left out.
-/

namespace MarketDataRecorder

/-! ## States -/

/-- `ChunkState`. -/
inductive ChunkState where
  | active
  | recovered
  | sealing
  | sealed
  | archiveCopying
  | archiveVerifying
  | archivedVerified
  | localDeletePending
  | localDeleted
  | quarantined
  deriving DecidableEq, Repr

def ChunkState.text : ChunkState → String
  | .active => "ACTIVE"
  | .recovered => "RECOVERED"
  | .sealing => "SEALING"
  | .sealed => "SEALED"
  | .archiveCopying => "ARCHIVE_COPYING"
  | .archiveVerifying => "ARCHIVE_VERIFYING"
  | .archivedVerified => "ARCHIVED_VERIFIED"
  | .localDeletePending => "LOCAL_DELETE_PENDING"
  | .localDeleted => "LOCAL_DELETED"
  | .quarantined => "QUARANTINED"

/-- `ALLOWED_TRANSITIONS`. -/
def allowedTransitions : ChunkState → List ChunkState
  | .active => [.recovered, .sealing, .quarantined]
  | .recovered => [.sealing, .quarantined]
  | .sealing => [.sealed, .quarantined]
  | .sealed => [.archiveCopying]
  | .archiveCopying => [.archiveVerifying]
  | .archiveVerifying => [.archivedVerified]
  | .archivedVerified => [.localDeletePending]
  | .localDeletePending => [.localDeleted]
  | .localDeleted => []
  | .quarantined => []

/-! ## Rows -/

/-- UUIDs in the order of their texts. -/
instance : LinearOrder UUID :=
  LinearOrder.lift' (fun u => u.val.map UInt8.toNat) fun _ _ h =>
    Subtype.ext (List.map_injective_iff.mpr (fun _ _ => UInt8.toNat_inj.mp) h)

/-- A row of `chunks`. -/
structure ChunkRow where
  state : ChunkState
  partialPath : Option String
  sealedPath : Option String := none
  manifestPath : Option String := none
  recordCount : Nat := 0
  uncompressedBytes : Option Nat := none
  storedBytes : Option Nat := none
  uncompressedSha256 : Option String := none
  storedSha256 : Option String := none
  createdAtUtcNs : Int
  deriving DecidableEq

/-- The texts `create:{chunk_id}`, `sealing:{chunk_id}`, `sealed:{chunk_id}`,
`recover:{chunk_id}:{size}:{valid_end}`, `quarantine:{chunk_id}:{size}:{issue}`, and others. -/
inductive IdempotencyKey where
  | create (chunkId : UUID)
  | sealing (chunkId : UUID)
  | sealed (chunkId : UUID)
  | recover (chunkId : UUID) (fileSize validEnd : Nat)
  | quarantine (chunkId : UUID) (fileSize : Nat) (issue : ScanIssue)
  | other (text : String)
  deriving DecidableEq

/-- A row of `chunk_transitions`. -/
structure TransitionRow where
  chunkId : UUID
  fromState : Option ChunkState
  toState : ChunkState
  evidence : Value
  idempotencyKey : IdempotencyKey
  deriving DecidableEq

/-- A row of `quarantined_artifacts`, under its `artifact_id`. -/
structure QuarantinedArtifact where
  relativePath : String
  reason : String
  sha256 : String
  deriving DecidableEq

/-- The tables that a chunk goes through; transitions in the order of their ids. -/
structure ChunkTables where
  chunks : SortedDict UUID ChunkRow := .empty
  transitions : List TransitionRow := []
  quarantinedArtifacts : SortedDict String QuarantinedArtifact := .empty
  deriving DecidableEq

namespace ChunkTables

variable (tables : ChunkTables)

/-- `Catalog.state`. -/
def state (chunkId : UUID) : Option ChunkState := (tables.chunks.get? chunkId).map ChunkRow.state

def hasKey (key : IdempotencyKey) : Bool :=
  tables.transitions.any fun row => row.idempotencyKey = key

/-- `INSERT OR IGNORE INTO chunk_transitions`. -/
def insertTransition (row : TransitionRow) : ChunkTables :=
  if tables.hasKey row.idempotencyKey then tables
  else { tables with transitions := tables.transitions ++ [row] }

/-- `register_active`. -/
def registerActive (chunkId : UUID) (partialPath : String) (createdAtUtcNs : Int) : ChunkTables :=
  let tables :=
    if (tables.chunks.get? chunkId).isSome then tables
    else
      { tables with
        chunks := tables.chunks.insert chunkId
          { state := .active, partialPath := some partialPath, createdAtUtcNs := createdAtUtcNs } }
  tables.insertTransition {
    chunkId := chunkId
    fromState := none
    toState := .active
    evidence := .dict []
    idempotencyKey := .create chunkId }

/-- `transition`: `update` are the `fields` that change with the state. -/
def transition (chunkId : UUID) (toState : ChunkState) (idempotencyKey : IdempotencyKey)
    (evidence : Value) (update : ChunkRow → ChunkRow := id) : Except String ChunkTables :=
  if tables.hasKey idempotencyKey then .ok tables
  else match tables.chunks.get? chunkId with
    | none => .error s!"unknown chunk {uuidText chunkId}"
    | some row =>
      let recorded : TransitionRow :=
        { chunkId, fromState := some row.state, toState, evidence, idempotencyKey }
      if row.state = toState then
        .ok { tables with transitions := tables.transitions ++ [recorded] }
      else if toState ∉ allowedTransitions row.state then
        .error s!"invalid transition {row.state.text} -> {toState.text}"
      else
        .ok {
          tables with
          chunks := tables.chunks.insert chunkId { update row with state := toState }
          transitions := tables.transitions ++ [recorded] }

/-- `latest_transition_evidence`. -/
def latestTransitionEvidence (chunkId : UUID) (toState : ChunkState) : Option Value :=
  ((tables.transitions.filter fun row => row.chunkId = chunkId ∧
    row.toState = toState).getLast?).map
    TransitionRow.evidence

/-- `register_quarantined_artifact`. -/
def registerQuarantinedArtifact (artifactId relativePath reason sha256 : String) : ChunkTables :=
  if (tables.quarantinedArtifacts.get? artifactId).isSome then tables
  else
    { tables with
      quarantinedArtifacts :=
        tables.quarantinedArtifacts.insert artifactId ⟨relativePath, reason, sha256⟩ }

/-! ## What the calls do -/

variable {tables} {chunkId : UUID}

theorem hasKey_iff {key : IdempotencyKey} :
    tables.hasKey key = true ↔ ∃ row ∈ tables.transitions, row.idempotencyKey = key := by
  simp [hasKey]

@[simp] theorem insertTransition_chunks (row : TransitionRow) :
    (tables.insertTransition row).chunks = tables.chunks := by
  unfold insertTransition
  split <;> rfl

@[simp] theorem insertTransition_quarantinedArtifacts (row : TransitionRow) :
    (tables.insertTransition row).quarantinedArtifacts = tables.quarantinedArtifacts := by
  unfold insertTransition
  split <;> rfl

theorem mem_insertTransition {row new : TransitionRow}
    (h : row ∈ (tables.insertTransition new).transitions) :
    row ∈ tables.transitions ∨ row = new := by
  unfold insertTransition at h
  split at h
  · exact Or.inl h
  · simpa using h

theorem mem_insertTransition_of_mem {row : TransitionRow} (h : row ∈ tables.transitions)
    (new : TransitionRow) : row ∈ (tables.insertTransition new).transitions := by
  unfold insertTransition
  split
  · exact h
  · exact List.mem_append_left _ h

/-- A chunk that has a row keeps its state; one that has none is active then. -/
theorem registerActive_state (partialPath : String) (createdAtUtcNs : Int) (other : UUID) :
    (tables.registerActive chunkId partialPath createdAtUtcNs).state other =
      if other = chunkId ∧ tables.state chunkId = none then some .active
      else tables.state other := by
  simp only [registerActive, state, insertTransition_chunks, Option.map_eq_none_iff]
  by_cases hrow : (tables.chunks.get? chunkId).isSome = true
  · rw [if_pos hrow, if_neg]
    rintro ⟨-, hnone⟩
    rw [hnone] at hrow
    cases hrow
  · rw [if_neg hrow, SortedDict.get?_insert]
    have hnone : tables.chunks.get? chunkId = none := by simpa using hrow
    by_cases ho : other = chunkId
    · rw [if_pos ho, if_pos ⟨ho, hnone⟩]
      rfl
    · rw [if_neg ho, if_neg fun h => ho h.1]

theorem mem_registerActive {partialPath : String} {createdAtUtcNs : Int} {row : TransitionRow}
    (h : row ∈ (tables.registerActive chunkId partialPath createdAtUtcNs).transitions) :
    row ∈ tables.transitions ∨
      (row.idempotencyKey = .create chunkId ∧ row.toState = .active) := by
  unfold registerActive at h
  rcases mem_insertTransition h with h | rfl
  · refine Or.inl ?_
    revert h
    split <;> exact id
  · exact Or.inr ⟨rfl, rfl⟩

theorem mem_registerActive_of_mem {row : TransitionRow} (h : row ∈ tables.transitions)
    (partialPath : String) (createdAtUtcNs : Int) :
    row ∈ (tables.registerActive chunkId partialPath createdAtUtcNs).transitions := by
  unfold registerActive
  refine mem_insertTransition_of_mem ?_ _
  split <;> exact h

theorem hasKey_insertTransition (row : TransitionRow) :
    (tables.insertTransition row).hasKey row.idempotencyKey = true := by
  unfold insertTransition
  split
  · assumption
  · exact hasKey_iff.mpr ⟨row, List.mem_append_right _ (List.mem_singleton_self row), rfl⟩

/-- A chunk is registered once. -/
theorem registerActive_again (partialPath : String) (createdAtUtcNs : Int) (partialPath' : String)
    (createdAtUtcNs' : Int) :
    (tables.registerActive chunkId partialPath createdAtUtcNs).registerActive chunkId partialPath'
        createdAtUtcNs' =
      tables.registerActive chunkId partialPath createdAtUtcNs := by
  have hrow : ((tables.registerActive chunkId partialPath createdAtUtcNs).chunks.get?
      chunkId).isSome = true := by
    have hstate : ((tables.registerActive chunkId partialPath createdAtUtcNs).state
        chunkId).isSome = true := by
      rw [registerActive_state]
      cases tables.state chunkId with
      | none => simp
      | some old => simp
    simpa [state] using hstate
  have hkey : (tables.registerActive chunkId partialPath createdAtUtcNs).hasKey
      (.create chunkId) = true := hasKey_insertTransition _
  rw [registerActive.eq_1 (tables.registerActive chunkId partialPath createdAtUtcNs)]
  simp only [hrow, if_true]
  rw [insertTransition, if_pos hkey]

@[simp] theorem registerQuarantinedArtifact_chunks (artifactId path reason sha256 : String) :
    (tables.registerQuarantinedArtifact artifactId path reason sha256).chunks = tables.chunks := by
  unfold registerQuarantinedArtifact
  split <;> rfl

@[simp] theorem registerQuarantinedArtifact_transitions (artifactId path reason sha256 : String) :
    (tables.registerQuarantinedArtifact artifactId path reason sha256).transitions =
      tables.transitions := by
  unfold registerQuarantinedArtifact
  split <;> rfl

@[simp] theorem registerQuarantinedArtifact_state (artifactId path reason sha256 : String)
    (other : UUID) :
    (tables.registerQuarantinedArtifact artifactId path reason sha256).state other =
      tables.state other := by
  simp [state]

section

variable {toState : ChunkState} {key : IdempotencyKey} {evidence : Value}
  {update : ChunkRow → ChunkRow} {tables' : ChunkTables}

/-- **What a transition has done**: nothing where its key is there, else one row and the state. -/
theorem transition_eq_ok (h : tables.transition chunkId toState key evidence update = .ok tables') :
    (tables.hasKey key = true ∧ tables' = tables) ∨
      (tables.hasKey key = false ∧ ∃ row, tables.chunks.get? chunkId = some row ∧
        (row.state = toState ∨ toState ∈ allowedTransitions row.state) ∧
        tables'.transitions = tables.transitions ++
          [⟨chunkId, some row.state, toState, evidence, key⟩] ∧
        tables'.quarantinedArtifacts = tables.quarantinedArtifacts ∧
        ∀ other, tables'.chunks.get? other =
          if other = chunkId ∧ row.state ≠ toState then some { update row with state := toState }
          else tables.chunks.get? other) := by
  unfold transition at h
  split at h
  · next hkey => exact Or.inl ⟨hkey, by simpa using h.symm⟩
  · next hkey =>
    refine Or.inr ⟨by simpa using hkey, ?_⟩
    split at h
    · cases h
    · next row hrow =>
      simp only at h
      split at h
      · next hsame =>
        simp only [Except.ok.injEq] at h
        subst h
        exact ⟨row, hrow, Or.inl hsame, rfl, rfl, fun other => by simp [hsame]⟩
      · next hne =>
        split at h
        · cases h
        · next hallowed =>
          simp only [Except.ok.injEq] at h
          subst h
          refine ⟨row, hrow, Or.inr (not_not.mp hallowed), rfl, rfl, ?_⟩
          intro other
          rw [SortedDict.get?_insert]
          by_cases ho : other = chunkId
          · rw [if_pos ho, if_pos ⟨ho, hne⟩]
          · rw [if_neg ho, if_neg fun h => ho h.1]

/-- Other chunks keep their state. -/
theorem transition_state_of_ne
    (h : tables.transition chunkId toState key evidence update = .ok tables') {other : UUID}
    (hne : other ≠ chunkId) : tables'.state other = tables.state other := by
  rcases transition_eq_ok h with ⟨-, rfl⟩ | ⟨-, row, -, -, -, -, hchunks⟩
  · rfl
  · rw [state, state, hchunks, if_neg fun hc => hne hc.1]

/-- No row is lost, and the only new one is that of the transition. -/
theorem mem_transition (h : tables.transition chunkId toState key evidence update = .ok tables')
    (row : TransitionRow) :
    (row ∈ tables.transitions → row ∈ tables'.transitions) ∧
      (row ∈ tables'.transitions → row ∈ tables.transitions ∨
        (row.chunkId = chunkId ∧ row.toState = toState ∧ row.evidence = evidence ∧
          row.idempotencyKey = key)) := by
  rcases transition_eq_ok h with ⟨-, rfl⟩ | ⟨-, old, -, -, hrows, -, -⟩
  · exact ⟨id, Or.inl⟩
  · rw [hrows]
    refine ⟨List.mem_append_left _, ?_⟩
    intro hrow
    rcases List.mem_append.mp hrow with hrow | hrow
    · exact Or.inl hrow
    · rw [List.mem_singleton.mp hrow]
      exact Or.inr ⟨rfl, rfl, rfl, rfl⟩

/-- A row with the key of the transition is there afterwards. -/
theorem exists_key_of_transition
    (h : tables.transition chunkId toState key evidence update = .ok tables') :
    ∃ row ∈ tables'.transitions, row.idempotencyKey = key := by
  rcases transition_eq_ok h with ⟨hkey, rfl⟩ | ⟨-, old, -, -, hrows, -, -⟩
  · exact hasKey_iff.mp hkey
  · exact ⟨_, by rw [hrows]; exact List.mem_append_right _ (List.mem_singleton_self _), rfl⟩

/-- A transition that is allowed, or no transition at all, succeeds. -/
theorem exists_transition {old : ChunkState} (hstate : tables.state chunkId = some old)
    (hallowed : old = toState ∨ toState ∈ allowedTransitions old) :
    ∃ tables', tables.transition chunkId toState key evidence update = .ok tables' := by
  obtain ⟨row, hrow, rfl⟩ := Option.map_eq_some_iff.mp hstate
  unfold transition
  split
  · exact ⟨_, rfl⟩
  · simp only [hrow]
    split
    · exact ⟨_, rfl⟩
    · next hne =>
      rw [if_neg (not_not.mpr (hallowed.resolve_left hne))]
      exact ⟨_, rfl⟩

end

end ChunkTables

end MarketDataRecorder
