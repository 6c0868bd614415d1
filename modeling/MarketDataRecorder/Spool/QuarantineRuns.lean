import MarketDataRecorder.Spool.RecoveryRuns

/-!
# The quarantine over crashes and reruns

`_quarantine` moves a file out of the directory that a rerun scans and then registers it. If no
attempt crashes between these two writes, and no two damaged files have one digest, every file of
the quarantine is registered (`recoverPartials_registers`). A crash between them leaves a file that
no later attempt looks for (`recoverPartials_forgets_moved`).
-/

namespace MarketDataRecorder

open Durable

/-! ## Quarantined chunks and artifacts in the Catalog -/

section

variable {tables tables' : ChunkTables} {chunkId other : UUID} {toState : ChunkState}
  {key : IdempotencyKey} {evidence : Value} {update : ChunkRow → ChunkRow}

/-- No transition leads out of the quarantine. -/
theorem ChunkTables.transition_keeps_quarantined
    (h : tables.transition chunkId toState key evidence update = .ok tables')
    (hstate : tables.state other = some .quarantined) :
    tables'.state other = some .quarantined := by
  rcases transition_eq_ok h with ⟨-, rfl⟩ | ⟨-, row, hrow, hallowed, -, -, hchunks⟩
  · exact hstate
  · rw [state, hchunks]
    by_cases hother : other = chunkId ∧ row.state ≠ toState
    · obtain ⟨rfl, hne⟩ := hother
      have hq : row.state = .quarantined := by simpa [state, hrow] using hstate
      rw [hq] at hne hallowed
      rcases hallowed with hsame | hmem
      · exact absurd hsame hne
      · simp [allowedTransitions] at hmem
    · rw [if_neg hother]
      exact hstate

/-- A transition whose key is new leads to its state. -/
theorem ChunkTables.transition_state
    (h : tables.transition chunkId toState key evidence update = .ok tables')
    (hkey : tables.hasKey key = false) : tables'.state chunkId = some toState := by
  rcases transition_eq_ok h with ⟨hhas, -⟩ | ⟨-, row, hrow, -, -, -, hchunks⟩
  · rw [hkey] at hhas
    cases hhas
  · rw [state, hchunks]
    by_cases hsame : row.state = toState
    · rw [if_neg (fun hc => hc.2 hsame), hrow, Option.map_some, hsame]
    · rw [if_pos ⟨rfl, hsame⟩]
      rfl

/-- A transition registers no file. -/
theorem ChunkTables.transition_quarantinedArtifacts
    (h : tables.transition chunkId toState key evidence update = .ok tables') :
    tables'.quarantinedArtifacts = tables.quarantinedArtifacts := by
  rcases transition_eq_ok h with ⟨-, rfl⟩ | ⟨-, -, -, -, -, hartifacts, -⟩
  · rfl
  · exact hartifacts

@[simp] theorem ChunkTables.registerActive_quarantinedArtifacts (path : String)
    (createdAtUtcNs : Int) :
    (tables.registerActive chunkId path createdAtUtcNs).quarantinedArtifacts =
      tables.quarantinedArtifacts := by
  unfold registerActive
  rw [insertTransition_quarantinedArtifacts]
  split <;> rfl

/-- The first registration of an artifact stays. -/
theorem ChunkTables.registerQuarantinedArtifact_get? (tables : ChunkTables)
    (artifactId path reason sha256 k : String) :
    (tables.registerQuarantinedArtifact artifactId path reason sha256).quarantinedArtifacts.get? k =
      if k = artifactId ∧ tables.quarantinedArtifacts.get? artifactId = none then
        some ⟨path, reason, sha256⟩
      else tables.quarantinedArtifacts.get? k := by
  unfold registerQuarantinedArtifact
  cases hget : tables.quarantinedArtifacts.get? artifactId with
  | some row => simp
  | none =>
    simp only [Option.isSome_none, Bool.false_eq_true, if_false, and_true]
    rw [SortedDict.get?_insert]

end

/-! ## The invariant -/

section

variable (codec : Codec)

/-- A file that recovery puts into the quarantine. -/
def Damaged (bytes : Bytes) : Prop :=
  (scanChunk codec bytes).header = none ∨
    ((scanChunk codec bytes).issue ≠ .none ∧ (scanChunk codec bytes).issue ≠ .truncatedTail)

/-- The path of a file in the quarantine, which keeps the name it had. -/
def quarantinePath (name : String) (bytes : Bytes) : String :=
  "data/quarantine/" ++ quarantineName name (codec.sha256Hex bytes)

/-- The row that a file of this name asks for. -/
def quarantineRow (name : String) (bytes : Bytes) : QuarantinedArtifact :=
  ⟨quarantinePath codec name bytes, quarantineReason (scanChunk codec bytes),
    codec.sha256Hex bytes⟩

/-- A file of the quarantine is registered, and its chunk is quarantined. -/
def Accounted (tables : ChunkTables) (destination : String) (bytes : Bytes) : Prop :=
  ∃ name, destination = quarantineName name (codec.sha256Hex bytes) ∧
    tables.quarantinedArtifacts.get? (codec.sha256Hex bytes) =
      some (quarantineRow codec name bytes) ∧
    ∀ header, (scanChunk codec bytes).header = some header →
      tables.state header.chunkId = some .quarantined

/-- The quarantine fits the Catalog, and every damaged file has a digest of its own. -/
structure QuarantineFits (disk : Disk) : Prop where
  accounted : ∀ {destination : String} {bytes : Bytes},
    disk.quarantine.get? destination = some bytes →
    Accounted codec disk.catalog.toChunkTables destination bytes
  /-- The row of a quarantine transition stands for a quarantined chunk. -/
  keys : ∀ row ∈ disk.catalog.transitions, ∀ chunkId fileSize issue,
    row.idempotencyKey = .quarantine chunkId fileSize issue →
    disk.catalog.state chunkId = some .quarantined
  /-- No other artifact is registered under the digest of a damaged file. -/
  unclaimed : ∀ {name : String} {bytes : Bytes}, isPartialName name →
    disk.active.get? name = some bytes → Damaged codec bytes →
    disk.catalog.quarantinedArtifacts.get? (codec.sha256Hex bytes) = none ∨
      disk.catalog.quarantinedArtifacts.get? (codec.sha256Hex bytes) =
        some (quarantineRow codec name bytes)
  distinct : ∀ {name name' : String} {bytes bytes' : Bytes}, isPartialName name →
    isPartialName name' → disk.active.get? name = some bytes →
    disk.active.get? name' = some bytes' → Damaged codec bytes → Damaged codec bytes' →
    codec.sha256Hex bytes = codec.sha256Hex bytes' → name = name'

/-- The invariant of a recovery that started at `origin`: damaged files are as they were. -/
structure Quarantining (origin disk : Disk) : Prop extends QuarantineFits codec disk where
  same : ∀ {name : String} {bytes : Bytes}, disk.active.get? name = some bytes →
    Damaged codec bytes → origin.active.get? name = some bytes
  source : ∀ {destination : String} {bytes : Bytes},
    disk.quarantine.get? destination = some bytes →
    origin.quarantine.get? destination = some bytes ∨
      ∃ name, isPartialName name = true ∧ origin.active.get? name = some bytes ∧
        destination = quarantineName name (codec.sha256Hex bytes)

end

section

variable {codec : Codec} {origin disk : Disk} {tables : ChunkTables} {name : String}
  {bytes : Bytes} {header : ChunkHeader}

/-- A registered file stays registered. -/
theorem Accounted.mono {tables tables' : ChunkTables} {destination : String}
    (h : Accounted codec tables destination bytes)
    (hartifacts : ∀ k row, tables.quarantinedArtifacts.get? k = some row →
      tables'.quarantinedArtifacts.get? k = some row)
    (hstates : ∀ chunkId, tables.state chunkId = some .quarantined →
      tables'.state chunkId = some .quarantined) :
    Accounted codec tables' destination bytes := by
  obtain ⟨name, hname, hrow, hchunk⟩ := h
  exact ⟨name, hname, hartifacts _ _ hrow, fun header hh => hstates _ (hchunk header hh)⟩

/-- What the truncation of a file leaves is not damaged. -/
theorem not_damaged_take_validEnd (hh : (scanChunk codec bytes).header = some header) :
    ¬ Damaged codec (bytes.take (scanChunk codec bytes).validEnd) := by
  obtain ⟨hclean, hheader⟩ := scanChunk_take_validEnd hh
  rintro (hnone | ⟨hissue, -⟩)
  · rw [hheader] at hnone
    cases hnone
  · exact hissue hclean

/-! ## What each write preserves -/

/-- The Catalog calls of recovery but the registration of an artifact. -/
theorem Quarantining.withTables (h : Quarantining codec origin disk)
    (hartifacts : tables.quarantinedArtifacts = disk.catalog.quarantinedArtifacts)
    (hstates : ∀ chunkId, disk.catalog.state chunkId = some .quarantined →
      tables.state chunkId = some .quarantined)
    (hrows : ∀ row ∈ tables.transitions, row ∈ disk.catalog.transitions ∨
      ∀ chunkId fileSize issue, row.idempotencyKey = .quarantine chunkId fileSize issue →
        tables.state chunkId = some .quarantined) :
    Quarantining codec origin (disk.withTables tables) where
  accounted := by
    intro destination bytes hb
    refine (h.accounted hb).mono ?_ hstates
    intro k row hrow
    rw [Disk.withTables_tables, hartifacts]
    exact hrow
  keys := by
    intro row hrow chunkId fileSize issue hkey
    rcases hrows row hrow with hold | hnew
    · exact hstates _ (h.keys row hold _ _ _ hkey)
    · exact hnew _ _ _ hkey
  unclaimed := by
    intro name bytes hn hb hdamaged
    show tables.quarantinedArtifacts.get? _ = none ∨ tables.quarantinedArtifacts.get? _ = some _
    rw [hartifacts]
    exact h.unclaimed hn hb hdamaged
  distinct := h.distinct
  same := h.same
  source := h.source

/-- Registering an active chunk keeps the files accounted for. -/
theorem Quarantining.registerActive (h : Quarantining codec origin disk) (chunkId : UUID)
    (path : String) (createdAtUtcNs : Int) :
    Quarantining codec origin
      (disk.withTables (disk.catalog.registerActive chunkId path createdAtUtcNs)) := by
  refine h.withTables (by simp) ?_ ?_
  · intro other hstate
    rw [ChunkTables.registerActive_state, if_neg, hstate]
    rintro ⟨rfl, hnone⟩
    rw [hnone] at hstate
    cases hstate
  · intro row hrow
    rcases ChunkTables.mem_registerActive hrow with hold | ⟨hkey, -⟩
    · exact Or.inl hold
    · refine Or.inr fun c s i hq => ?_
      rw [hkey] at hq
      cases hq

/-- A transition of recovery keeps the invariant; one to the quarantine gets the chunk there. -/
theorem Quarantining.transition (h : Quarantining codec origin disk) {chunkId : UUID}
    {toState : ChunkState} {key : IdempotencyKey} {evidence : Value}
    (ht : disk.catalog.toChunkTables.transition chunkId toState key evidence = .ok tables)
    (hkey : ∀ c s i, key = .quarantine c s i → c = chunkId ∧ toState = .quarantined) :
    Quarantining codec origin (disk.withTables tables) ∧
      ((∃ s i, key = .quarantine chunkId s i) → tables.state chunkId = some .quarantined) := by
  have hq : (∃ s i, key = .quarantine chunkId s i) →
      tables.state chunkId = some .quarantined := by
    rintro ⟨s, i, rfl⟩
    obtain rfl := (hkey _ _ _ rfl).2
    by_cases hhas : disk.catalog.toChunkTables.hasKey (.quarantine chunkId s i) = true
    · obtain ⟨row, hrow, hrowKey⟩ := ChunkTables.hasKey_iff.mp hhas
      exact ChunkTables.transition_keeps_quarantined ht (h.keys row hrow _ _ _ hrowKey)
    · exact ChunkTables.transition_state ht (by simpa using hhas)
  refine ⟨?_, hq⟩
  refine h.withTables (ChunkTables.transition_quarantinedArtifacts ht) ?_ ?_
  · exact fun other => ChunkTables.transition_keeps_quarantined ht
  · intro row hrow
    rcases (ChunkTables.mem_transition ht row).2 hrow with hold | ⟨-, -, -, hrowKey⟩
    · exact Or.inl hold
    · refine Or.inr fun c s i hcsi => ?_
      rw [hrowKey] at hcsi
      obtain ⟨rfl, -⟩ := hkey c s i hcsi
      exact hq ⟨s, i, hcsi⟩

/-- A truncation leaves a clean file. -/
theorem Quarantining.truncate (name : String) (h : Quarantining codec origin disk)
    (hh : (scanChunk codec bytes).header = some header) :
    Quarantining codec origin
      { disk with
        active := disk.active.insert name (bytes.take (scanChunk codec bytes).validEnd) } := by
  have hfile : ∀ {name' bytes'}, (disk.active.insert name
      (bytes.take (scanChunk codec bytes).validEnd)).get? name' = some bytes' →
      Damaged codec bytes' → disk.active.get? name' = some bytes' := by
    intro name' bytes' hb' hdamaged
    rw [SortedDict.get?_insert] at hb'
    split at hb'
    · rw [← Option.some.inj hb'] at hdamaged
      exact absurd hdamaged (not_damaged_take_validEnd hh)
    · exact hb'
  exact
    { accounted := h.accounted
      keys := h.keys
      unclaimed := fun hn hb hdamaged => h.unclaimed hn (hfile hb hdamaged) hdamaged
      distinct := fun hn hn' hb hb' hd hd' =>
        h.distinct hn hn' (hfile hb hd) (hfile hb' hd') hd hd'
      same := fun hb hdamaged => h.same (hfile hb hdamaged) hdamaged
      source := h.source }

/-- A damaged file leaves the active directory. -/
theorem Quarantining.erase (h : Quarantining codec origin disk) (name : String) :
    Quarantining codec origin { disk with active := disk.active.erase name } := by
  have hfile : ∀ {name' bytes'}, (disk.active.erase name).get? name' = some bytes' →
      disk.active.get? name' = some bytes' := by
    intro name' bytes' hb'
    rw [SortedDict.get?_erase] at hb'
    split at hb'
    · cases hb'
    · exact hb'
  exact
    { accounted := h.accounted
      keys := h.keys
      unclaimed := fun hn hb hdamaged => h.unclaimed hn (hfile hb) hdamaged
      distinct := fun hn hn' hb hb' hd hd' => h.distinct hn hn' (hfile hb) (hfile hb') hd hd'
      same := fun hb hdamaged => h.same (hfile hb) hdamaged
      source := h.source }

/-- The registration of an artifact under a digest that is registered already. -/
theorem Quarantining.register_again (h : Quarantining codec origin disk)
    {digest path reason sha256 : String} {row : QuarantinedArtifact}
    (hrow : disk.catalog.quarantinedArtifacts.get? digest = some row) :
    Quarantining codec origin
      (disk.withTables (disk.catalog.registerQuarantinedArtifact digest path reason sha256)) := by
  have hsame : disk.catalog.registerQuarantinedArtifact digest path reason sha256 =
      disk.catalog.toChunkTables := by
    rw [ChunkTables.registerQuarantinedArtifact, hrow]
    rfl
  rw [hsame]
  exact h

/--
The move of a damaged file and its registration. Behind the move alone the file would stand in the
quarantine without a row.
-/
theorem Quarantining.move_register (h : Quarantining codec origin disk) (hn : isPartialName name)
    (hb : disk.active.get? name = some bytes) (hdamaged : Damaged codec bytes)
    (hchunk : ∀ header, (scanChunk codec bytes).header = some header →
      disk.catalog.state header.chunkId = some .quarantined) :
    Quarantining codec origin
      (Disk.withTables
        { disk with
          active := disk.active.erase name
          quarantine :=
            disk.quarantine.insert (quarantineName name (codec.sha256Hex bytes)) bytes }
        (disk.catalog.registerQuarantinedArtifact (codec.sha256Hex bytes)
          (quarantinePath codec name bytes) (quarantineReason (scanChunk codec bytes))
          (codec.sha256Hex bytes))) := by
  have hgone := h.erase name
  have hget := disk.catalog.toChunkTables.registerQuarantinedArtifact_get? (codec.sha256Hex bytes)
    (quarantinePath codec name bytes) (quarantineReason (scanChunk codec bytes))
    (codec.sha256Hex bytes)
  -- the row is that of this file, whether it was there or is new
  have hown : (disk.catalog.registerQuarantinedArtifact (codec.sha256Hex bytes)
      (quarantinePath codec name bytes) (quarantineReason (scanChunk codec bytes))
      (codec.sha256Hex bytes)).quarantinedArtifacts.get? (codec.sha256Hex bytes) =
        some (quarantineRow codec name bytes) := by
    rw [hget]
    rcases h.unclaimed hn hb hdamaged with hnone | hrow
    · rw [if_pos ⟨rfl, hnone⟩]
      rfl
    · rw [if_neg, hrow]
      rintro ⟨-, hnone⟩
      rw [hrow] at hnone
      cases hnone
  -- Every row that was there stays.
  have hkeep : ∀ k row, disk.catalog.quarantinedArtifacts.get? k = some row →
      (disk.catalog.registerQuarantinedArtifact (codec.sha256Hex bytes)
        (quarantinePath codec name bytes) (quarantineReason (scanChunk codec bytes))
        (codec.sha256Hex bytes)).quarantinedArtifacts.get? k = some row := by
    intro k row hrow
    rw [hget, if_neg, hrow]
    rintro ⟨rfl, hnone⟩
    rw [hrow] at hnone
    cases hnone
  exact
    { accounted := by
        intro destination bytes' hb'
        rw [Disk.withTables_quarantine, SortedDict.get?_insert] at hb'
        split at hb'
        · next hdest =>
          cases hb'
          refine ⟨name, hdest, hown, fun header hh => ?_⟩
          rw [Disk.withTables_tables, ChunkTables.registerQuarantinedArtifact_state]
          exact hchunk header hh
        · refine (h.accounted hb').mono hkeep fun chunkId hstate => ?_
          rw [Disk.withTables_tables, ChunkTables.registerQuarantinedArtifact_state]
          exact hstate
      keys := by
        intro row hrow chunkId fileSize issue hkey
        rw [Disk.withTables_tables, ChunkTables.registerQuarantinedArtifact_transitions] at hrow
        rw [Disk.withTables_tables, ChunkTables.registerQuarantinedArtifact_state]
        exact h.keys row hrow _ _ _ hkey
      unclaimed := by
        intro name' bytes' hn' hb' hdamaged'
        have hold := hgone.unclaimed hn' hb' hdamaged'
        rw [Disk.withTables_tables, hget, if_neg]
        · exact hold
        · -- another damaged file has another digest
          rintro ⟨hdigest, -⟩
          have hb'' : (disk.active.erase name).get? name' = some bytes' := hb'
          rw [SortedDict.get?_erase] at hb''
          split at hb''
          · cases hb''
          · next hne => exact hne (h.distinct hn' hn hb'' hb hdamaged' hdamaged hdigest)
      distinct := hgone.distinct
      same := hgone.same
      source := by
        intro destination bytes' hb'
        rw [Disk.withTables_quarantine, SortedDict.get?_insert] at hb'
        split at hb'
        · next hdest =>
          cases hb'
          exact Or.inr ⟨name, hn, h.same hb hdamaged, hdest⟩
        · exact h.source hb' }

/-! ## The programs -/

/-- The invariant, except right behind a move. -/
def QuarantiningUnlessMoved (codec : Codec) (origin : Disk) (last : Option DiskWrite)
    (disk : Disk) : Prop :=
  (∀ name destination, last ≠ some (.moveToQuarantine name destination)) →
    Quarantining codec origin disk

/-- An invariant that holds, holds unless the last write was a move. -/
theorem Quarantining.unlessMoved (h : Quarantining codec origin disk) (last : Option DiskWrite) :
    QuarantiningUnlessMoved codec origin last disk := fun _ => h

/-- A program keeps the invariant, except right behind a move. -/
def KeepsQuarantining {α : Type} (codec : Codec) (origin : Disk) (program : DiskProgram α)
    (last : Option DiskWrite) (disk : Disk) : Prop :=
  wp DiskWrite.apply (fun _ _ disk => Quarantining codec origin disk)
    (fun _ _ disk => Quarantining codec origin disk) (QuarantiningUnlessMoved codec origin) program
    last disk

/-- **A damaged file is moved, and then registered**: only between the two is it neither. -/
theorem keepsQuarantining_quarantine (h : Quarantining codec origin disk)
    (hn : isPartialName name) (hb : disk.active.get? name = some bytes)
    (hdamaged : Damaged codec bytes)
    (hchunk : ∀ header, (scanChunk codec bytes).header = some header →
      disk.catalog.state header.chunkId = some .quarantined) (last : Option DiskWrite) :
    KeepsQuarantining codec origin
      (quarantine codec name bytes (quarantineReason (scanChunk codec bytes))) last disk := by
  unfold KeepsQuarantining quarantine moveAside
  simp only [wp_bind, wp_read]
  cases hq : disk.quarantine.get? (quarantineName name (codec.sha256Hex bytes)) with
  | none =>
    rw [wp_perform, DiskWrite.apply_moveToQuarantine hb]
    refine ⟨h.unlessMoved _, ?_⟩
    simp only [wp_commitTables, wp_pure]
    refine ⟨fun hmoved => absurd rfl (hmoved _ _), ?_⟩
    exact h.move_register hn hb hdamaged hchunk
  | some existing =>
    simp only
    split
    · exact h
    · next hdigest =>
      rw [wp_perform, DiskWrite.apply_unlinkActive]
      refine ⟨h.unlessMoved _, ?_⟩
      have hgone := h.erase name
      simp only [wp_commitTables, wp_pure]
      refine ⟨hgone.unlessMoved _, ?_⟩
      -- the content is there already, and so is its row
      obtain ⟨name', -, hrow, -⟩ := h.accounted hq
      rw [not_not.mp hdigest] at hrow
      exact hgone.register_again hrow

/-- A torn tail moves no file. -/
theorem keepsQuarantining_recoverTail (h : Quarantining codec origin disk)
    (hb : disk.active.get? name = some bytes)
    (hh : (scanChunk codec bytes).header = some header) (last : Option DiskWrite) :
    KeepsQuarantining codec origin (recoverTail codec name header (scanChunk codec bytes)) last
      disk := by
  have hcut := h.truncate name hh
  unfold KeepsQuarantining recoverTail
  rw [wp_bind, wp_perform, DiskWrite.apply_truncateActive hb]
  refine ⟨h.unlessMoved _, ?_⟩
  simp only [recoverTailRecorded, wp_bind, verifyTruncated, wp_read, SortedDict.get?_insert,
    if_true, Option.getD_some, ScanResult.isClean, (scanChunk_take_validEnd hh).1, decide_true,
    wp_pure, wp_commitTables]
  split
  · exact hcut
  · next tables ht =>
    exact ⟨hcut.unlessMoved _, (hcut.transition ht (fun _ _ _ hkey => by cases hkey)).1⟩

/-- A damaged chunk is moved and registered. -/
theorem keepsQuarantining_recoverCorrupt (h : Quarantining codec origin disk)
    (hn : isPartialName name) (hb : disk.active.get? name = some bytes)
    (hh : (scanChunk codec bytes).header = some header) (hdamaged : Damaged codec bytes)
    (last : Option DiskWrite) :
    KeepsQuarantining codec origin
      (recoverCorrupt codec name bytes header (scanChunk codec bytes)) last disk := by
  unfold KeepsQuarantining recoverCorrupt
  rw [wp_bind, wp_commitTables]
  split
  · exact h
  · next tables ht =>
    obtain ⟨hkept, hstate⟩ := h.transition ht (by
      intro c s i hkey
      cases hkey
      exact ⟨rfl, rfl⟩)
    refine ⟨h.unlessMoved _, keepsQuarantining_quarantine hkept hn hb hdamaged ?_ _⟩
    intro header' hh'
    rw [hh] at hh'
    cases hh'
    exact hstate ⟨_, _, rfl⟩

/-- A partial file is recovered by one of the three ways. -/
theorem keepsQuarantining_recoverChunk (h : Quarantining codec origin disk)
    (hn : isPartialName name) (hb : disk.active.get? name = some bytes)
    (hh : (scanChunk codec bytes).header = some header) (last : Option DiskWrite) :
    KeepsQuarantining codec origin
      (recoverChunk codec name bytes header (scanChunk codec bytes)) last disk := by
  have hregistered := h.registerActive header.chunkId (activePath name) header.createdAtUtcNs
  unfold KeepsQuarantining recoverChunk
  rw [wp_bind, wp_commitTables]
  refine ⟨h.unlessMoved _, ?_⟩
  by_cases hnone : (scanChunk codec bytes).issue = .none
  · rw [if_pos hnone]
    exact hregistered
  · rw [if_neg hnone]
    by_cases hissue : (scanChunk codec bytes).issue = .truncatedTail
    · rw [if_pos (by simp [ScanResult.isTailTruncatable, hissue, hh])]
      exact keepsQuarantining_recoverTail hregistered hb hh _
    · rw [if_neg (by simp [ScanResult.isTailTruncatable, hissue])]
      exact keepsQuarantining_recoverCorrupt hregistered hn hb hh (Or.inr ⟨hnone, hissue⟩) _

/-- One round of the loop. -/
theorem keepsQuarantining_recoverPartial (h : Quarantining codec origin disk)
    (hn : isPartialName name) (hb : disk.active.get? name = some bytes)
    (last : Option DiskWrite) :
    KeepsQuarantining codec origin (recoverPartial codec name bytes) last disk := by
  unfold recoverPartial
  split
  · next hnone =>
    refine keepsQuarantining_quarantine h hn hb (Or.inl hnone) ?_ _
    intro header hh
    rw [hnone] at hh
    cases hh
  · next header hh => exact keepsQuarantining_recoverChunk h hn hb hh _

/-- The partial files are recovered one after another. -/
theorem keepsQuarantining_recoverNames {stop : Nat → Bool} :
    ∀ {names : List String} {round : Nat} {last : Option DiskWrite} {disk : Disk},
      (∀ name ∈ names, isPartialName name) → Quarantining codec origin disk →
        KeepsQuarantining codec origin (recoverNames codec stop round names) last disk
  | [], _, _, _, _, h => h
  | name :: rest, round, last, disk, hnames, h => by
    unfold KeepsQuarantining recoverNames
    split
    · exact h
    · rw [wp_read]
      split
      · exact h
      · next bytes hb =>
        obtain ⟨hn, hrest⟩ := List.forall_mem_cons.mp hnames
        rw [wp_bind]
        refine wp_mono (keepsQuarantining_recoverPartial h hn hb last) ?_ (fun _ _ _ h => h)
          fun _ _ h => h
        intro action last' disk' h'
        rw [wp_bind]
        exact keepsQuarantining_recoverNames hrest h'

/-- **A whole call keeps the invariant**, except right behind a move. -/
theorem keepsQuarantining_recoverPartials (h : Quarantining codec origin disk)
    (stop : Nat → Bool) (last : Option DiskWrite) :
    KeepsQuarantining codec origin (recoverPartials codec stop) last disk :=
  keepsQuarantining_recoverNames (fun _ hname => (List.mem_filter.mp hname).2) h

/-! ## Attempts -/

/-- No attempt crashes between the move of a file and its registration. -/
def NoMoveUnregistered (codec : Codec) : List Attempt → Disk → Prop
  | [], _ => True
  | attempt :: rest, disk =>
    (∀ name destination,
        (attempt.cut codec disk).lastWrite ≠ some (.moveToQuarantine name destination)) ∧
      NoMoveUnregistered codec rest (attempt.cut codec disk).state

/-- An attempt keeps the invariant where it does not stop right behind a move. -/
theorem quarantining_cut (h : Quarantining codec origin disk) {attempt : Attempt}
    (hcrash : ∀ name destination,
      (attempt.cut codec disk).lastWrite ≠ some (.moveToQuarantine name destination)) :
    Quarantining codec origin (attempt.cut codec disk).state := by
  rcases crashAt_of_wp (keepsQuarantining_recoverPartials h attempt.stop none) attempt.writes with
    ⟨-, hend⟩ | ⟨-, hend⟩ | hend
  · exact hend
  · exact hend
  · exact hend hcrash

/-- **Attempts that do not stop there keep it, however many there are.** -/
theorem quarantining_afterAttempts :
    ∀ (attempts : List Attempt) {disk : Disk}, Quarantining codec origin disk →
      NoMoveUnregistered codec attempts disk →
        Quarantining codec origin (afterAttempts codec attempts disk)
  | [], _, h, _ => h
  | _ :: rest, _, h, hcrash =>
    quarantining_afterAttempts rest (quarantining_cut h hcrash.1) hcrash.2

/-- A disk that fits is where recovery begins. -/
theorem QuarantineFits.quarantining (h : QuarantineFits codec disk) :
    Quarantining codec disk disk where
  toQuarantineFits := h
  same := fun hb _ => hb
  source := fun hb => Or.inl hb

/--
**Every file of the quarantine is registered**, if no attempt crashes between a move and its
registration: under the path that keeps its name and with its reason, and its chunk is quarantined.
-/
theorem recoverPartials_registers {attempts : List Attempt} (hfits : QuarantineFits codec origin)
    (hcrash : NoMoveUnregistered codec attempts origin) {destination : String}
    (hb : (afterAttempts codec attempts origin).quarantine.get? destination = some bytes) :
    (origin.quarantine.get? destination = some bytes ∨
        ∃ name, isPartialName name = true ∧ origin.active.get? name = some bytes ∧
          destination = quarantineName name (codec.sha256Hex bytes)) ∧
      (afterAttempts codec attempts origin).catalog.quarantinedArtifacts.get?
          (codec.sha256Hex bytes) =
        some ⟨"data/quarantine/" ++ destination, quarantineReason (scanChunk codec bytes),
          codec.sha256Hex bytes⟩ ∧
      ∀ header, (scanChunk codec bytes).header = some header →
        (afterAttempts codec attempts origin).catalog.state header.chunkId =
          some .quarantined := by
  have hend := quarantining_afterAttempts attempts hfits.quarantining hcrash
  obtain ⟨name, rfl, hrow, hchunk⟩ := hend.accounted hb
  exact ⟨hend.source hb, hrow, hchunk⟩

end

/-! ## A crash behind the move -/

/-- A disk with one partial that ends before its header. -/
def headerlessDisk : Disk where
  active := SortedDict.empty.insert "sample.bmdr.partial" []

theorem headerlessDisk_active (name : String) :
    headerlessDisk.active.get? name = if name = "sample.bmdr.partial" then some [] else none := by
  simp [headerlessDisk]

theorem headerlessDisk_sample : headerlessDisk.active.get? "sample.bmdr.partial" = some [] := by
  rw [headerlessDisk_active, if_pos rfl]

/-- An empty file has no header. -/
theorem scan_empty_header (codec : Codec) : (scanChunk codec []).header = none := by
  cases hh : (scanChunk codec []).header with
  | none => rfl
  | some header =>
    obtain ⟨headerBytes, c, hbytes, happ⟩ := exists_headerBytes_of_scanChunk hh
    obtain ⟨n, -, hlen, -⟩ := hbytes
    rw [(List.append_eq_nil_iff.mp happ.symm).1, fixedHeaderSize] at hlen
    simp at hlen
    omega

theorem quarantineFits_headerlessDisk (codec : Codec) : QuarantineFits codec headerlessDisk where
  accounted := fun hb => nomatch hb
  keys := fun _ hrow => nomatch hrow
  unclaimed := fun _ _ _ => Or.inl rfl
  distinct := by
    intro name name' bytes bytes' _ _ hb hb' _ _ _
    rw [headerlessDisk_active] at hb hb'
    split at hb
    · split at hb'
      · next h h' => exact h.trans h'.symm
      · cases hb'
    · cases hb

section

variable (codec : Codec)

/-- The disk behind the move. -/
def movedDisk : Disk where
  quarantine := SortedDict.empty.insert
    (quarantineName "sample.bmdr.partial" (codec.sha256Hex [])) []

theorem apply_move_headerlessDisk :
    (DiskWrite.moveToQuarantine "sample.bmdr.partial"
      (quarantineName "sample.bmdr.partial" (codec.sha256Hex []))).apply headerlessDisk =
        movedDisk codec := by
  rw [DiskWrite.apply_moveToQuarantine headerlessDisk_sample]
  rfl

/-- A call on that disk, behind its move. -/
theorem crashedAfter_cut_of_headerless (writes : Nat) :
    (crashedAfter (writes + 1)).cut codec headerlessDisk =
      (commitTables (fun tables =>
        .ok (tables.registerQuarantinedArtifact (codec.sha256Hex [])
          ("data/quarantine/" ++ quarantineName "sample.bmdr.partial" (codec.sha256Hex []))
          (quarantineReason (scanChunk codec [])) (codec.sha256Hex []))) >>= fun _ =>
        (pure [⟨activePath "sample.bmdr.partial", "quarantined",
          quarantineReason (scanChunk codec [])⟩] : DiskProgram (List RecoveryAction))).crashAt
          DiskWrite.apply writes
          (some (.moveToQuarantine "sample.bmdr.partial"
            (quarantineName "sample.bmdr.partial" (codec.sha256Hex [])))) (movedDisk codec) := by
  have hnames : headerlessDisk.active.keys.filter isPartialName = ["sample.bmdr.partial"] :=
    filter_isPartialName_sample
  have hq : headerlessDisk.quarantine.get?
      (quarantineName "sample.bmdr.partial" (codec.sha256Hex [])) = none := rfl
  simp only [Attempt.cut, crashedAfter, recoverPartials, hnames, recoverNames,
    headerlessDisk_sample,
    recoverPartial, scan_empty_header, quarantine, moveAside, hq, crashAt_read, read_bind,
    perform_bind, write_bind, crashAt_write_succ, apply_move_headerlessDisk, Bool.false_eq_true,
    if_false]
  rfl

/-- A call on a disk without partials does nothing. -/
theorem crashedAfter_movedDisk (writes : Nat) :
    ((crashedAfter writes).cut codec (movedDisk codec)).state = movedDisk codec := rfl

end

/-- One crash, behind the move: the next call runs to its end and does not find the file. -/
theorem recoverPartials_forgets_moved :
    QuarantineFits referenceCodec headerlessDisk ∧
      (afterAttempts referenceCodec [crashedAfter 1, crashedAfter 9] headerlessDisk).quarantine.get?
        (quarantineName "sample.bmdr.partial" (referenceCodec.sha256Hex [])) = some [] ∧
      (afterAttempts referenceCodec [crashedAfter 1, crashedAfter 9]
        headerlessDisk).catalog.quarantinedArtifacts.get? (referenceCodec.sha256Hex []) = none := by
  have hafter : afterAttempts referenceCodec [crashedAfter 1, crashedAfter 9] headerlessDisk =
      movedDisk referenceCodec := by
    have hfirst : ((crashedAfter 1).cut referenceCodec headerlessDisk).state =
        movedDisk referenceCodec := by
      rw [crashedAfter_cut_of_headerless referenceCodec 0, crashAt_zero]
    rw [afterAttempts, afterAttempts, afterAttempts, hfirst, crashedAfter_movedDisk]
  rw [hafter]
  refine ⟨quarantineFits_headerlessDisk referenceCodec, ?_, rfl⟩
  rw [movedDisk, SortedDict.get?_insert, if_pos rfl]

/-! ## A crash in front of a move -/

/-- A chunk whose only frame has a flag that no version knows. -/
def flaggedChunk : Bytes :=
  encodedHeader referenceCodec sampleHeader ++ [0, 0, 0, 1, 0, 1, 0, 0, 0, 0, 0, 0]

/-- A disk with that chunk, and a partial that ends before its header. -/
def twoDamagedDisk : Disk where
  active := (SortedDict.empty.insert "sample.bmdr.partial" flaggedChunk).insert
    "empty.bmdr.partial" []

/-- What stands in the active directory of that disk. -/
theorem twoDamagedDisk_active {name : String} {bytes : Bytes}
    (h : twoDamagedDisk.active.get? name = some bytes) :
    name = "empty.bmdr.partial" ∧ bytes = [] ∨
      name = "sample.bmdr.partial" ∧ bytes = flaggedChunk := by
  rw [twoDamagedDisk, SortedDict.get?_insert, SortedDict.get?_insert] at h
  split at h
  · next hname => exact .inl ⟨hname, (Option.some.inj h).symm⟩
  · split at h
    · next hname => exact .inr ⟨hname, (Option.some.inj h).symm⟩
    · cases h

theorem sha256Hex_flaggedChunk :
    referenceCodec.sha256Hex [] ≠ referenceCodec.sha256Hex flaggedChunk := by
  decide +kernel

/-- A disk with a headerless and a damaged partial fits. -/
theorem quarantineFits_twoDamagedDisk : QuarantineFits referenceCodec twoDamagedDisk where
  accounted := fun hb => nomatch hb
  keys := fun _ hrow => nomatch hrow
  unclaimed := fun _ _ _ => Or.inl rfl
  distinct := by
    intro name name' bytes bytes' _ _ hb hb' _ _ hdigest
    rcases twoDamagedDisk_active hb with ⟨rfl, rfl⟩ | ⟨rfl, rfl⟩
    · rcases twoDamagedDisk_active hb' with ⟨rfl, -⟩ | ⟨-, rfl⟩
      · rfl
      · exact absurd hdigest sha256Hex_flaggedChunk
    · rcases twoDamagedDisk_active hb' with ⟨-, rfl⟩ | ⟨rfl, -⟩
      · exact absurd hdigest.symm sha256Hex_flaggedChunk
      · rfl

def DiskWrite.isMove : DiskWrite → Bool
  | moveToQuarantine _ _ => true
  | _ => false

/-- The first call crashes in front of its second move, and the second one runs to its end. -/
def sampleAttempts : List Attempt := [crashedAfter 4, crashedAfter 9]

/-- Neither attempt below stops between a move and its registration. -/
theorem noMoveUnregistered_sampleAttempts :
    NoMoveUnregistered referenceCodec sampleAttempts twoDamagedDisk := by
  have hlast : ((crashedAfter 4).cut referenceCodec twoDamagedDisk).lastWrite.any
        DiskWrite.isMove = false ∧
      ((crashedAfter 9).cut referenceCodec
        ((crashedAfter 4).cut referenceCodec twoDamagedDisk).state).lastWrite.any
          DiskWrite.isMove = false := by
    decide +kernel
  have hmove : ∀ {last : Option DiskWrite}, last.any DiskWrite.isMove = false →
      ∀ name destination, last ≠ some (.moveToQuarantine name destination) := by
    rintro last hfalse name destination rfl
    cases hfalse
  exact ⟨hmove hlast.1, hmove hlast.2, trivial⟩

/-- Both files are in the quarantine and registered, and the chunk of the second one is
quarantined. -/
theorem recoverPartials_registers_sample :
    (∀ file ∈ [("empty.bmdr.partial", []), ("sample.bmdr.partial", flaggedChunk)],
      (afterAttempts referenceCodec sampleAttempts
          twoDamagedDisk).catalog.quarantinedArtifacts.get? (referenceCodec.sha256Hex file.2) =
        some ⟨"data/quarantine/" ++ quarantineName file.1 (referenceCodec.sha256Hex file.2),
          quarantineReason (scanChunk referenceCodec file.2),
          referenceCodec.sha256Hex file.2⟩) ∧
    (afterAttempts referenceCodec sampleAttempts twoDamagedDisk).catalog.state
      sampleHeader.chunkId = some .quarantined := by
  have hmoved : ∀ file ∈ [("empty.bmdr.partial", []), ("sample.bmdr.partial", flaggedChunk)],
      (afterAttempts referenceCodec sampleAttempts twoDamagedDisk).quarantine.get?
        (quarantineName file.1 (referenceCodec.sha256Hex file.2)) = some file.2 := by
    decide +kernel
  have hregisters := fun file hfile => recoverPartials_registers quarantineFits_twoDamagedDisk
    noMoveUnregistered_sampleAttempts (hmoved file hfile)
  refine ⟨fun file hfile => (hregisters file hfile).2.1, ?_⟩
  refine (hregisters ("sample.bmdr.partial", flaggedChunk) (by simp)).2.2 sampleHeader ?_
  exact (statistics_of_header headerBytes_sampleHeader _).2

end MarketDataRecorder
