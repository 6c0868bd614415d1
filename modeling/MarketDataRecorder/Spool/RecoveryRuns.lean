import MarketDataRecorder.Spool.Manifest
import MarketDataRecorder.Spool.Recovery

/-!
# Recovery over crashes and reruns

`recover_partials` cuts a torn tail off before the Catalog hears of it. If no attempt crashes
between these two writes, every file that lost bytes has a RECOVERED row that counts them
(`recoverPartials_tailRecorded`). A crash between them leaves a clean file and no row, and the
rerun takes the file for one that was always clean (`recoverPartials_forgets_tail`).
-/

namespace MarketDataRecorder

open Durable

section

variable {codec : Codec} {b : Bytes} {header : ChunkHeader}

/-! ## Scans of a truncated file -/

/-- A scan measures the whole file. -/
theorem scanChunk_fileSize (codec : Codec) (b : Bytes) :
    (scanChunk codec b).fileSize = b.length := by
  cases hd : decodeChunkHeader codec (.ofList b) with
  | error e => simp [scanChunk, scanChunkStream, hd]
  | ok p =>
    obtain ⟨header, headerBytes, s⟩ := p
    obtain ⟨hbytes, hrest⟩ := headerBytes_of_decodeChunkHeader hd
    rw [scanChunk, scanChunkStream_of_header hbytes hrest]
    cases (frameScan codec header s.rest).stop <;> rfl

/-- What truncation to the valid end leaves is clean, with the same header. -/
theorem scanChunk_take_validEnd (h : (scanChunk codec b).header = some header) :
    (scanChunk codec (b.take (scanChunk codec b).validEnd)).issue = .none ∧
      (scanChunk codec (b.take (scanChunk codec b).validEnd)).header = some header := by
  obtain ⟨headerBytes, c, hbytes, rfl⟩ := exists_headerBytes_of_scanChunk h
  rw [take_validEnd hbytes]
  exact ⟨(issue_eq_none_iff hbytes _).mpr (by rw [frameScan_take_consumed]),
    (statistics_of_header hbytes _).2⟩

/-- The valid end lies in the file. -/
theorem scanChunk_validEnd_le (h : (scanChunk codec b).header = some header) :
    (scanChunk codec b).validEnd ≤ b.length := by
  obtain ⟨headerBytes, c, hbytes, rfl⟩ := exists_headerBytes_of_scanChunk h
  rw [validEnd_of_header hbytes, List.length_append]
  exact Nat.add_le_add_left ((frameReader codec header).scan_consumed_le c) _

end

/-! ## The invariant -/

section

variable (codec : Codec)

/-- The Catalog fits the partials on disk. -/
structure Consistent (disk : Disk) : Prop where
  /-- The partials are different chunks. -/
  distinct : ∀ {name name' : String} {bytes bytes' : Bytes} {header header' : ChunkHeader},
    isPartialName name → isPartialName name' → disk.active.get? name = some bytes →
    disk.active.get? name' = some bytes' → (scanChunk codec bytes).header = some header →
    (scanChunk codec bytes').header = some header' → header.chunkId = header'.chunkId →
    name = name'
  /-- A torn chunk was not sealed, archived or quarantined. -/
  torn : ∀ {name : String} {bytes : Bytes} {header : ChunkHeader}, isPartialName name →
    disk.active.get? name = some bytes → (scanChunk codec bytes).header = some header →
    (scanChunk codec bytes).issue = .truncatedTail →
    disk.catalog.state header.chunkId = none ∨ disk.catalog.state header.chunkId = some .active ∨
      disk.catalog.state header.chunkId = some .recovered
  /-- The rows of earlier recoveries are theirs. -/
  keys : ∀ row ∈ disk.catalog.transitions, ∀ chunkId fileSize validEnd,
    row.idempotencyKey = .recover chunkId fileSize validEnd →
    row.chunkId = chunkId ∧ row.toState = .recovered ∧
      row.evidence = tailEvidence fileSize validEnd

end

/-- The row that the removal of a tail leaves. -/
def TailRecorded (tables : ChunkTables) (chunkId : UUID) (fileSize validEnd : Nat) : Prop :=
  ∃ row ∈ tables.transitions, row.chunkId = chunkId ∧ row.toState = .recovered ∧
    row.evidence = tailEvidence fileSize validEnd

/-- A file that was torn is cut at its valid end, and the Catalog knows. -/
def CutAndRecorded (codec : Codec) (bytes bytes' : Bytes) (tables : ChunkTables) : Prop :=
  ∃ header, (scanChunk codec bytes).header = some header ∧
    (scanChunk codec bytes).issue = .truncatedTail ∧
    bytes' = bytes.take (scanChunk codec bytes).validEnd ∧
    TailRecorded tables header.chunkId bytes.length (scanChunk codec bytes).validEnd

/-- Every partial that is left is as it was, or cut and recorded. -/
structure Evidenced (codec : Codec) (origin disk : Disk) : Prop where
  kept : ∀ {name : String} {bytes bytes' : Bytes}, isPartialName name →
    origin.active.get? name = some bytes → disk.active.get? name = some bytes' →
    bytes' = bytes ∨ CutAndRecorded codec bytes bytes' disk.catalog.toChunkTables
  noneNew : ∀ {name : String}, isPartialName name → origin.active.get? name = none →
    disk.active.get? name = none

section

variable {codec : Codec} {origin disk disk' : Disk} {tables : ChunkTables} {name : String}
  {bytes : Bytes} {header : ChunkHeader}

/-- A recorded cut stays recorded. -/
theorem CutAndRecorded.mono {bytes bytes' : Bytes} {tables tables' : ChunkTables}
    (h : CutAndRecorded codec bytes bytes' tables)
    (hrows : ∀ row ∈ tables.transitions, row ∈ tables'.transitions) :
    CutAndRecorded codec bytes bytes' tables' := by
  obtain ⟨header, hheader, hissue, hbytes, row, hrow, hrest⟩ := h
  exact ⟨header, hheader, hissue, hbytes, row, hrows row hrow, hrest⟩

/-- Consistency is about headers, torn files and rows. -/
theorem Consistent.mono (h : Consistent codec disk)
    (hfiles : ∀ {name bytes}, isPartialName name → disk'.active.get? name = some bytes →
      ∃ old, disk.active.get? name = some old ∧
        (scanChunk codec bytes).header = (scanChunk codec old).header ∧
        (bytes = old ∨ (scanChunk codec bytes).issue = .none))
    (hstates : ∀ {name bytes header}, isPartialName name → disk'.active.get? name = some bytes →
      (scanChunk codec bytes).header = some header →
      (scanChunk codec bytes).issue = .truncatedTail →
      disk'.catalog.state header.chunkId = disk.catalog.state header.chunkId ∨
        disk'.catalog.state header.chunkId = some .active)
    (hrows : ∀ row ∈ disk'.catalog.transitions, row ∈ disk.catalog.transitions ∨
      ∀ chunkId fileSize validEnd, row.idempotencyKey = .recover chunkId fileSize validEnd →
        row.chunkId = chunkId ∧ row.toState = .recovered ∧
          row.evidence = tailEvidence fileSize validEnd) :
    Consistent codec disk' where
  distinct := by
    intro name name' bytes bytes' header header' hn hn' hb hb' hh hh' hid
    obtain ⟨old, hold, hsame, -⟩ := hfiles hn hb
    obtain ⟨old', hold', hsame', -⟩ := hfiles hn' hb'
    exact h.distinct hn hn' hold hold' (hsame ▸ hh) (hsame' ▸ hh') hid
  torn := by
    intro name bytes header hn hb hh hissue
    obtain ⟨old, hold, -, hbytes⟩ := hfiles hn hb
    obtain rfl : bytes = old := by
      refine hbytes.resolve_right ?_
      rw [hissue]
      simp
    rcases hstates hn hb hh hissue with hstate | hstate
    · rw [hstate]
      exact h.torn hn hold hh hissue
    · exact Or.inr (Or.inl hstate)
  keys := by
    intro row hrow
    rcases hrows row hrow with hold | hnew
    · exact h.keys row hold
    · exact hnew

/-! ## What each write preserves -/

/-- A disk is evidence of itself. -/
theorem Evidenced.refl (codec : Codec) (disk : Disk) : Evidenced codec disk disk where
  kept := by
    intro name bytes bytes' _ hb hb'
    rw [hb] at hb'
    exact Or.inl (Option.some.inj hb').symm
  noneNew := fun _ h => h

/-- Files may disappear, and rows may be added. -/
theorem Evidenced.mono (h : Evidenced codec origin disk)
    (hfiles : ∀ {name bytes}, disk'.active.get? name = some bytes →
      disk.active.get? name = some bytes)
    (hrows : ∀ row ∈ disk.catalog.transitions, row ∈ disk'.catalog.transitions) :
    Evidenced codec origin disk' where
  kept := by
    intro name bytes bytes' hn hb hb'
    rcases h.kept hn hb (hfiles hb') with hsame | hcut
    · exact Or.inl hsame
    · exact Or.inr (hcut.mono hrows)
  noneNew := by
    intro name hn hnone
    cases hb : disk'.active.get? name with
    | none => rfl
    | some bytes =>
      have hold := hfiles hb
      rw [h.noneNew hn hnone] at hold
      cases hold

/-- The invariant of a recovery that started at `origin`. -/
structure Recovering (codec : Codec) (origin disk : Disk) : Prop where
  consistent : Consistent codec disk
  evidenced : Evidenced codec origin disk

/-- Registering an active chunk loses no evidence. -/
theorem Recovering.registerActive (h : Recovering codec origin disk) (chunkId : UUID)
    (path : String) (createdAtUtcNs : Int) :
    Recovering codec origin
      (disk.withTables (disk.catalog.registerActive chunkId path createdAtUtcNs)) where
  consistent := by
    refine h.consistent.mono (fun _ hb => ⟨_, hb, rfl, Or.inl rfl⟩) ?_ ?_
    · intro name bytes header _ _ _ _
      rw [Disk.withTables_tables, ChunkTables.registerActive_state]
      split
      · exact Or.inr rfl
      · exact Or.inl rfl
    · intro row hrow
      rcases ChunkTables.mem_registerActive hrow with hold | ⟨hkey, -⟩
      · exact Or.inl hold
      · refine Or.inr fun c s v hrecover => ?_
        rw [hkey] at hrecover
        cases hrecover
  evidenced := h.evidenced.mono id fun _ hrow => ChunkTables.mem_registerActive_of_mem hrow _ _

/-- Nor does registering a quarantined file. -/
theorem Recovering.registerQuarantinedArtifact (h : Recovering codec origin disk)
    (artifactId path reason sha256 : String) :
    Recovering codec origin
      (disk.withTables
        (disk.catalog.registerQuarantinedArtifact artifactId path reason sha256)) where
  consistent := by
    refine h.consistent.mono (fun _ hb => ⟨_, hb, rfl, Or.inl rfl⟩) ?_ ?_
    · intro name bytes header _ _ _ _
      simp
    · intro row hrow
      exact Or.inl (by simpa using hrow)
  evidenced := h.evidenced.mono id fun _ hrow => by simpa using hrow

/-- A file leaves the active directory. -/
theorem Recovering.erase (h : Recovering codec origin disk) (name : String)
    (quarantined : SortedDict String Bytes) :
    Recovering codec origin
      { disk with active := disk.active.erase name, quarantine := quarantined } := by
  have hfiles : ∀ {name' bytes}, (disk.active.erase name).get? name' = some bytes →
      disk.active.get? name' = some bytes := by
    intro name' bytes hb
    rw [SortedDict.get?_erase] at hb
    split at hb
    · cases hb
    · exact hb
  constructor
  · exact h.consistent.mono (fun _ hb => ⟨_, hfiles hb, rfl, Or.inl rfl⟩)
      (fun _ _ _ _ => Or.inl rfl) fun _ hrow => Or.inl hrow
  · exact h.evidenced.mono hfiles fun _ hrow => hrow

/-- The chunk of a file that is not torn is quarantined. -/
theorem Recovering.transition_quarantined (h : Recovering codec origin disk)
    (hn : isPartialName name) (hb : disk.active.get? name = some bytes)
    (hh : (scanChunk codec bytes).header = some header)
    (hissue : (scanChunk codec bytes).issue ≠ .truncatedTail) {fileSize : Nat}
    {issue : ScanIssue} {evidence : Value}
    (ht : disk.catalog.toChunkTables.transition header.chunkId .quarantined
      (.quarantine header.chunkId fileSize issue) evidence = .ok tables) :
    Recovering codec origin (disk.withTables tables) where
  consistent := by
    refine h.consistent.mono (fun _ hb => ⟨_, hb, rfl, Or.inl rfl⟩) ?_ ?_
    · intro name' bytes' header' hn' hb' hh' hissue'
      refine Or.inl (ChunkTables.transition_state_of_ne ht ?_)
      intro hid
      obtain rfl := h.consistent.distinct hn' hn hb' hb hh' hh hid
      have hsame : bytes' = bytes := Option.some.inj (hb'.symm.trans hb)
      exact hissue (hsame ▸ hissue')
    · intro row hrow
      rcases (ChunkTables.mem_transition ht row).2 hrow with hold | ⟨-, -, -, hkey⟩
      · exact Or.inl hold
      · refine Or.inr fun c s v hrecover => ?_
        rw [hkey] at hrecover
        cases hrecover
  evidenced := h.evidenced.mono id fun row => (ChunkTables.mem_transition ht row).1

/--
The tail of a torn file is cut off and then recorded. In between the file is clean already, and
only its row is missing.
-/
theorem Recovering.transition_recovered (h : Recovering codec origin disk)
    (hn : isPartialName name) (hb : disk.active.get? name = some bytes)
    (hh : (scanChunk codec bytes).header = some header)
    (hissue : (scanChunk codec bytes).issue = .truncatedTail)
    (ht : disk.catalog.toChunkTables.transition header.chunkId .recovered
      (.recover header.chunkId bytes.length (scanChunk codec bytes).validEnd)
      (tailEvidence bytes.length (scanChunk codec bytes).validEnd) = .ok tables) :
    Recovering codec origin
      { disk.withTables tables with
        active := disk.active.insert name (bytes.take (scanChunk codec bytes).validEnd) } := by
  obtain ⟨hclean, hheader⟩ := scanChunk_take_validEnd hh
  -- The only new transition is the recovery, and its key names the cut.
  have hkeys : ∀ row ∈ tables.transitions, row ∈ disk.catalog.transitions ∨
      ∀ chunkId fileSize validEnd, row.idempotencyKey = .recover chunkId fileSize validEnd →
        row.chunkId = chunkId ∧ row.toState = .recovered ∧
          row.evidence = tailEvidence fileSize validEnd := by
    intro row hrow
    rcases (ChunkTables.mem_transition ht row).2 hrow with hold | ⟨hid, hto, hevidence, hkey⟩
    · exact Or.inl hold
    · refine Or.inr fun c s v hrecover => ?_
      rw [hkey] at hrecover
      cases hrecover
      exact ⟨hid, hto, hevidence⟩
  have hrecorded : TailRecorded tables header.chunkId bytes.length
      (scanChunk codec bytes).validEnd := by
    obtain ⟨row, hrow, hkey⟩ := ChunkTables.exists_key_of_transition ht
    rcases hkeys row hrow with hold | hnew
    · exact ⟨row, hrow, h.consistent.keys row hold _ _ _ hkey⟩
    · exact ⟨row, hrow, hnew _ _ _ hkey⟩
  -- Every file but this one is as it was.
  have hfile : ∀ {name' bytes'}, (disk.active.insert name
      (bytes.take (scanChunk codec bytes).validEnd)).get? name' = some bytes' →
      (name' = name ∧ bytes' = bytes.take (scanChunk codec bytes).validEnd) ∨
        (name' ≠ name ∧ disk.active.get? name' = some bytes') := by
    intro name' bytes' hb'
    rw [SortedDict.get?_insert] at hb'
    split at hb'
    · next hname => exact Or.inl ⟨hname, (Option.some.inj hb').symm⟩
    · next hname => exact Or.inr ⟨hname, hb'⟩
  constructor
  · refine h.consistent.mono ?_ ?_ hkeys
    · intro name' bytes' hn' hb'
      rcases hfile hb' with ⟨rfl, rfl⟩ | ⟨-, hold⟩
      · exact ⟨bytes, hb, hheader.trans hh.symm, Or.inr hclean⟩
      · exact ⟨bytes', hold, rfl, Or.inl rfl⟩
    · intro name' bytes' header' hn' hb' hh' hissue'
      rcases hfile hb' with ⟨-, rfl⟩ | ⟨hname, hold⟩
      · rw [hclean] at hissue'
        cases hissue'
      · refine Or.inl (ChunkTables.transition_state_of_ne ht ?_)
        intro hid
        exact hname (h.consistent.distinct hn' hn hold hb hh' hh hid)
  · constructor
    · intro name' first bytes' hn' hfirst hb'
      rcases hfile hb' with ⟨rfl, rfl⟩ | ⟨-, hold⟩
      · -- a file that was cut before is clean, so this one is as it was
        obtain rfl : bytes = first := by
          rcases h.evidenced.kept hn' hfirst hb with hsame | ⟨header', hh', -, rfl, -⟩
          · exact hsame
          · rw [(scanChunk_take_validEnd hh').1] at hissue
            cases hissue
        exact Or.inr ⟨header, hh, hissue, rfl, hrecorded⟩
      · rcases h.evidenced.kept hn' hfirst hold with hsame | hcut
        · exact Or.inl hsame
        · exact Or.inr (hcut.mono fun row => (ChunkTables.mem_transition ht row).1)
    · intro name' hn' hnone
      show (disk.active.insert name _).get? name' = none
      have hne : name' ≠ name := by
        rintro rfl
        rw [h.evidenced.noneNew hn' hnone] at hb
        cases hb
      rw [SortedDict.get?_insert, if_neg hne]
      exact h.evidenced.noneNew hn' hnone

/-! ## The programs -/

/-- The invariant, except right behind a truncation. -/
def RecoveringUnlessCut (codec : Codec) (origin : Disk) (last : Option DiskWrite) (disk : Disk) :
    Prop :=
  (∀ name size, last ≠ some (.truncateActive name size)) → Recovering codec origin disk

/-- An invariant that holds, holds unless the last write was a cut. -/
theorem Recovering.unlessCut (h : Recovering codec origin disk) (last : Option DiskWrite) :
    RecoveringUnlessCut codec origin last disk := fun _ => h

/-- A program keeps the invariant, except right behind a truncation. -/
def KeepsRecovering {α : Type} (codec : Codec) (origin : Disk) (program : DiskProgram α)
    (last : Option DiskWrite) (disk : Disk) : Prop :=
  wp DiskWrite.apply (fun _ _ disk => Recovering codec origin disk)
    (fun _ _ disk => Recovering codec origin disk) (RecoveringUnlessCut codec origin) program last
    disk

/-- A quarantined file keeps its bytes. -/
theorem keepsRecovering_quarantine (h : Recovering codec origin disk)
    (hb : disk.active.get? name = some bytes) (reason : String) (last : Option DiskWrite) :
    KeepsRecovering codec origin (quarantine codec name bytes reason) last disk := by
  unfold KeepsRecovering quarantine moveAside
  simp only [wp_bind, wp_read]
  cases hq : disk.quarantine.get? (quarantineName name (codec.sha256Hex bytes)) with
  | none =>
    rw [wp_perform, DiskWrite.apply_moveToQuarantine hb]
    refine ⟨h.unlessCut _, ?_⟩
    have hmoved := h.erase name
      (disk.quarantine.insert (quarantineName name (codec.sha256Hex bytes)) bytes)
    simp only [wp_commitTables, wp_pure]
    exact ⟨hmoved.unlessCut _, hmoved.registerQuarantinedArtifact _ _ _ _⟩
  | some existing =>
    simp only
    split
    · exact h
    · rw [wp_perform, DiskWrite.apply_unlinkActive]
      refine ⟨h.unlessCut _, ?_⟩
      have hgone := h.erase name disk.quarantine
      simp only [wp_commitTables, wp_pure]
      exact ⟨hgone.unlessCut _, hgone.registerQuarantinedArtifact _ _ _ _⟩

/-- **A torn tail is cut, and then recorded**: only between the two is it neither. -/
theorem keepsRecovering_recoverTail (h : Recovering codec origin disk) (hn : isPartialName name)
    (hb : disk.active.get? name = some bytes)
    (hh : (scanChunk codec bytes).header = some header)
    (hissue : (scanChunk codec bytes).issue = .truncatedTail)
    (hstate : disk.catalog.state header.chunkId = some .active ∨
      disk.catalog.state header.chunkId = some .recovered) (last : Option DiskWrite) :
    KeepsRecovering codec origin (recoverTail codec name header (scanChunk codec bytes)) last
      disk := by
  unfold KeepsRecovering recoverTail
  rw [wp_bind, wp_perform, DiskWrite.apply_truncateActive hb]
  refine ⟨h.unlessCut _, ?_⟩
  -- the rescan is clean and the transition is allowed, so nothing is raised in between
  obtain ⟨old, hold, hallowed⟩ : ∃ old, disk.catalog.state header.chunkId = some old ∧
      (old = .recovered ∨ ChunkState.recovered ∈ allowedTransitions old) := by
    rcases hstate with hstate | hstate
    · exact ⟨_, hstate, Or.inr (by decide)⟩
    · exact ⟨_, hstate, Or.inl rfl⟩
  obtain ⟨tables, ht⟩ : ∃ tables, disk.catalog.toChunkTables.transition header.chunkId .recovered
      (.recover header.chunkId (scanChunk codec bytes).fileSize (scanChunk codec bytes).validEnd)
      (tailEvidence (scanChunk codec bytes).fileSize (scanChunk codec bytes).validEnd) =
      .ok tables := ChunkTables.exists_transition hold hallowed
  simp only [recoverTailRecorded, wp_bind, verifyTruncated, wp_read, SortedDict.get?_insert,
    if_true, Option.getD_some,
    ScanResult.isClean, (scanChunk_take_validEnd hh).1, decide_true, wp_pure, wp_commitTables, ht]
  refine ⟨fun hcut => absurd rfl (hcut _ _), ?_⟩
  rw [scanChunk_fileSize] at ht
  exact h.transition_recovered hn hb hh hissue ht

/-- A damaged file is moved whole. -/
theorem keepsRecovering_recoverCorrupt (h : Recovering codec origin disk)
    (hn : isPartialName name) (hb : disk.active.get? name = some bytes)
    (hh : (scanChunk codec bytes).header = some header)
    (hissue : (scanChunk codec bytes).issue ≠ .truncatedTail) (last : Option DiskWrite) :
    KeepsRecovering codec origin
      (recoverCorrupt codec name bytes header (scanChunk codec bytes)) last disk := by
  unfold KeepsRecovering recoverCorrupt
  rw [wp_bind, wp_commitTables]
  split
  · exact h
  · next tables ht =>
    have hquarantined := h.transition_quarantined hn hb hh hissue ht
    exact ⟨h.unlessCut _, keepsRecovering_quarantine hquarantined hb _ _⟩

/-- A partial file is recovered by one of the three ways. -/
theorem keepsRecovering_recoverChunk (h : Recovering codec origin disk) (hn : isPartialName name)
    (hb : disk.active.get? name = some bytes)
    (hh : (scanChunk codec bytes).header = some header) (last : Option DiskWrite) :
    KeepsRecovering codec origin
      (recoverChunk codec name bytes header (scanChunk codec bytes)) last disk := by
  have hregistered := h.registerActive header.chunkId (activePath name) header.createdAtUtcNs
  unfold KeepsRecovering recoverChunk
  rw [wp_bind, wp_commitTables]
  refine ⟨h.unlessCut _, ?_⟩
  by_cases hnone : (scanChunk codec bytes).issue = .none
  · rw [if_pos hnone]
    exact hregistered
  · rw [if_neg hnone]
    by_cases hissue : (scanChunk codec bytes).issue = .truncatedTail
    · rw [if_pos (by simp [ScanResult.isTailTruncatable, hissue, hh])]
      refine keepsRecovering_recoverTail hregistered hn hb hh hissue ?_ _
      rw [Disk.withTables_tables, ChunkTables.registerActive_state]
      rcases h.consistent.torn hn hb hh hissue with hstate | hstate | hstate
      · exact Or.inl (if_pos ⟨rfl, hstate⟩)
      · exact Or.inl (by simp [hstate])
      · exact Or.inr (by simp [hstate])
    · rw [if_neg (by simp [ScanResult.isTailTruncatable, hissue])]
      exact keepsRecovering_recoverCorrupt hregistered hn hb hh hissue _

/-- One round of the loop. -/
theorem keepsRecovering_recoverPartial (h : Recovering codec origin disk)
    (hn : isPartialName name) (hb : disk.active.get? name = some bytes)
    (last : Option DiskWrite) :
    KeepsRecovering codec origin (recoverPartial codec name bytes) last disk := by
  unfold recoverPartial
  split
  · exact keepsRecovering_quarantine h hb _ _
  · next header hh => exact keepsRecovering_recoverChunk h hn hb hh _

/-- The partial files are recovered one after another. -/
theorem keepsRecovering_recoverNames {stop : Nat → Bool} :
    ∀ {names : List String} {round : Nat} {last : Option DiskWrite} {disk : Disk},
      (∀ name ∈ names, isPartialName name) → Recovering codec origin disk →
        KeepsRecovering codec origin (recoverNames codec stop round names) last disk
  | [], _, _, _, _, h => h
  | name :: rest, round, last, disk, hnames, h => by
    unfold KeepsRecovering recoverNames
    split
    · exact h
    · rw [wp_read]
      split
      · exact h
      · next bytes hb =>
        obtain ⟨hn, hrest⟩ := List.forall_mem_cons.mp hnames
        rw [wp_bind]
        refine wp_mono (keepsRecovering_recoverPartial h hn hb last) ?_ (fun _ _ _ h => h)
          fun _ _ h => h
        intro action last' disk' h'
        rw [wp_bind]
        exact keepsRecovering_recoverNames hrest h'

/-- **A whole call keeps the invariant**, except right behind a truncation. -/
theorem keepsRecovering_recoverPartials (h : Recovering codec origin disk) (stop : Nat → Bool)
    (last : Option DiskWrite) :
    KeepsRecovering codec origin (recoverPartials codec stop) last disk :=
  keepsRecovering_recoverNames (fun _ hname => (List.mem_filter.mp hname).2) h

/-! ## Attempts -/

/-- A call of `recover_partials` that a crash ends after so many writes, if they are that many. -/
structure Attempt where
  stop : Nat → Bool
  writes : Nat

def Attempt.cut (codec : Codec) (attempt : Attempt) (disk : Disk) : Cut DiskWrite Disk :=
  (recoverPartials codec attempt.stop).crashAt DiskWrite.apply attempt.writes none disk

/-- The disk after some attempts. -/
def afterAttempts (codec : Codec) : List Attempt → Disk → Disk
  | [], disk => disk
  | attempt :: rest, disk => afterAttempts codec rest (attempt.cut codec disk).state

/-- No attempt crashes between the truncation of a file and the Catalog transition behind it. -/
def NoCutUnrecorded (codec : Codec) : List Attempt → Disk → Prop
  | [], _ => True
  | attempt :: rest, disk =>
    (∀ name size, (attempt.cut codec disk).lastWrite ≠ some (.truncateActive name size)) ∧
      NoCutUnrecorded codec rest (attempt.cut codec disk).state

/-- An attempt keeps the invariant where it does not stop right behind a cut. -/
theorem recovering_cut (h : Recovering codec origin disk) {attempt : Attempt}
    (hcrash : ∀ name size,
      (attempt.cut codec disk).lastWrite ≠ some (.truncateActive name size)) :
    Recovering codec origin (attempt.cut codec disk).state := by
  rcases crashAt_of_wp (keepsRecovering_recoverPartials h attempt.stop none) attempt.writes with
    ⟨-, hend⟩ | ⟨-, hend⟩ | hend
  · exact hend
  · exact hend
  · exact hend hcrash

/-- **Attempts that do not stop there keep it, however many there are.** -/
theorem recovering_afterAttempts :
    ∀ (attempts : List Attempt) {disk : Disk}, Recovering codec origin disk →
      NoCutUnrecorded codec attempts disk →
        Recovering codec origin (afterAttempts codec attempts disk)
  | [], _, h, _ => h
  | _ :: rest, _, h, hcrash => recovering_afterAttempts rest (recovering_cut h hcrash.1) hcrash.2

/-! ## Evidence of every cut -/

/-- The evidence counts the bytes that were removed. -/
theorem tailEvidence_truncatedBytes (fileSize validEnd : Nat) :
    (tailEvidence fileSize validEnd).get? "truncated_bytes" =
      some (.int (fileSize - validEnd)) := by
  simp [tailEvidence, Value.get?, Value.findItem]

/-- A RECOVERED row makes the recovery evidence of the seal. -/
theorem exists_latestTransitionEvidence {tables : ChunkTables} {chunkId : UUID}
    {toState : ChunkState} {row : TransitionRow} (hrow : row ∈ tables.transitions)
    (hid : row.chunkId = chunkId) (hto : row.toState = toState) :
    ∃ evidence, tables.latestTransitionEvidence chunkId toState = some evidence := by
  have hmem : row ∈ tables.transitions.filter
      fun row => row.chunkId = chunkId ∧ row.toState = toState :=
    List.mem_filter.mpr ⟨hrow, by simp [hid, hto]⟩
  unfold ChunkTables.latestTransitionEvidence
  cases hlast : (tables.transitions.filter
      fun row => row.chunkId = chunkId ∧ row.toState = toState).getLast? with
  | none =>
    rw [List.getLast?_eq_none_iff.mp hlast] at hmem
    cases hmem
  | some last => exact ⟨last.evidence, rfl⟩

/-- A manifest with recovery evidence is not complete. -/
theorem not_complete_of_recovery (evidence : VerifiedChunkEvidence) (relativePath : String)
    (storedBytes : Nat) (storedSha256 : String) (recovery : Value) (forcedFlags : Finset String)
    (processBoundary : Bool) (sealedAt : Nat) :
    (manifest evidence relativePath storedBytes storedSha256 (some recovery) forcedFlags
      processBoundary sealedAt).complete = false := by
  rw [Bool.eq_false_iff, Ne, manifest_complete_iff]
  intro hempty
  have hmem : "recovered_tail" ∈ manifestFlags evidence (some recovery) forcedFlags :=
    sealFlags_subset_manifestFlags (by simp [sealFlags])
  have hboth : "recovered_tail" ∈
      manifestFlags evidence (some recovery) forcedFlags ∩ incompleteFlags :=
    Finset.mem_inter.mpr ⟨hmem, by simp [incompleteFlags]⟩
  rw [hempty] at hboth
  cases hboth

/--
**Every file that lost bytes is accounted for**, if no attempt crashes between a truncation and
its transition: its chunk has a RECOVERED row that counts the bytes removed, so that no manifest
sealed from it is complete.
-/
theorem recoverPartials_tailRecorded {attempts : List Attempt} (hcons : Consistent codec origin)
    (hcrash : NoCutUnrecorded codec attempts origin) {bytes' : Bytes} (hn : isPartialName name)
    (hb : origin.active.get? name = some bytes)
    (hb' : (afterAttempts codec attempts origin).active.get? name = some bytes')
    (hcut : bytes' ≠ bytes) :
    ∃ header, (scanChunk codec bytes).header = some header ∧
      bytes' = bytes.take (scanChunk codec bytes).validEnd ∧
      (∃ row ∈ (afterAttempts codec attempts origin).catalog.transitions,
        row.chunkId = header.chunkId ∧ row.toState = .recovered ∧
          row.evidence.get? "truncated_bytes" = some (.int (bytes.length - bytes'.length))) ∧
      ∃ recovery, (afterAttempts codec attempts origin).catalog.latestTransitionEvidence
          header.chunkId .recovered = some recovery ∧
        ∀ evidence relativePath storedBytes storedSha256 forcedFlags processBoundary sealedAt,
          (manifest evidence relativePath storedBytes storedSha256 (some recovery) forcedFlags
            processBoundary sealedAt).complete = false := by
  have hend := recovering_afterAttempts attempts ⟨hcons, Evidenced.refl codec origin⟩ hcrash
  rcases hend.evidenced.kept hn hb hb' with hsame | ⟨header, hh, -, rfl, row, hrow, hid, hto, hev⟩
  · exact absurd hsame hcut
  · have hlen : (bytes.take (scanChunk codec bytes).validEnd).length =
        (scanChunk codec bytes).validEnd := by
      rw [List.length_take, Nat.min_eq_left (scanChunk_validEnd_le hh)]
    refine ⟨header, hh, rfl, ⟨row, hrow, hid, hto, ?_⟩, ?_⟩
    · rw [hev, tailEvidence_truncatedBytes, hlen]
    · obtain ⟨recovery, hrecovery⟩ := exists_latestTransitionEvidence hrow hid hto
      exact ⟨recovery, hrecovery, fun _ _ _ _ _ _ _ => not_complete_of_recovery _ _ _ _ _ _ _ _⟩

end

/-! ## A crash behind the truncation -/

/-- A disk with one torn partial. -/
def tornDisk : Disk where
  active := SortedDict.empty.insert "sample.bmdr.partial" tornSampleChunk

theorem tornDisk_active (name : String) :
    tornDisk.active.get? name =
      if name = "sample.bmdr.partial" then some tornSampleChunk else none := by
  simp [tornDisk]

/-- The chunk below has a torn tail behind one whole frame. -/
theorem scan_tornSampleChunk :
    (scanChunk referenceCodec tornSampleChunk).header = some sampleHeader ∧
      (scanChunk referenceCodec tornSampleChunk).issue = .truncatedTail ∧
      tornSampleChunk.take (scanChunk referenceCodec tornSampleChunk).validEnd = sampleChunk := by
  obtain ⟨hstop, -, hconsumed⟩ := frameScan_append_byte frameScan_sampleFrames.1 0
  refine ⟨(statistics_of_header headerBytes_sampleHeader _).2,
    (issue_eq_truncatedTail_iff headerBytes_sampleHeader _).mpr ⟨_, hstop⟩, ?_⟩
  rw [tornSampleChunk, take_validEnd headerBytes_sampleHeader, tornSampleFrames, hconsumed,
    List.take_left, sampleChunk]

theorem sampleChunk_ne_tornSampleChunk : sampleChunk ≠ tornSampleChunk := by
  intro hsame
  have hlen := congrArg List.length hsame
  simp [tornSampleChunk, tornSampleFrames, sampleChunk] at hlen

theorem scan_sampleChunk :
    (scanChunk referenceCodec sampleChunk).header = some sampleHeader ∧
      (scanChunk referenceCodec sampleChunk).issue = .none :=
  ⟨(statistics_of_header headerBytes_sampleHeader _).2,
    (issue_eq_none_iff headerBytes_sampleHeader _).mpr frameScan_sampleFrames.1⟩

/-- A disk with that chunk is consistent with its Catalog. -/
theorem consistent_tornDisk : Consistent referenceCodec tornDisk where
  distinct := by
    intro name name' bytes bytes' header header' _ _ hb hb' _ _ _
    rw [tornDisk_active] at hb hb'
    split at hb
    · split at hb'
      · next h h' => exact h.trans h'.symm
      · cases hb'
    · cases hb
  torn := fun _ _ _ _ => Or.inl rfl
  keys := fun _ hrow => nomatch hrow

/-- A call that nothing stops, crashed after so many writes. -/
def crashedAfter (writes : Nat) : Attempt := ⟨fun _ => false, writes⟩

section

variable {codec : Codec} {disk : Disk} {name : String} {bytes : Bytes} {header : ChunkHeader}

/-- A call on a disk with one partial is the round of that partial. -/
theorem crashedAfter_cut_of_single (hnames : disk.active.keys.filter isPartialName = [name])
    (hb : disk.active.get? name = some bytes)
    (hh : (scanChunk codec bytes).header = some header) (writes : Nat) :
    (crashedAfter writes).cut codec disk =
      (recoverChunk codec name bytes header (scanChunk codec bytes) >>= fun action =>
        pure [action]).crashAt DiskWrite.apply writes none disk := by
  simp [Attempt.cut, crashedAfter, recoverPartials, hnames, recoverNames, hb, recoverPartial, hh]

/-- The disk with a chunk registered. -/
def registered (disk : Disk) (name : String) (header : ChunkHeader) : Disk :=
  disk.withTables
    (disk.catalog.registerActive header.chunkId (activePath name) header.createdAtUtcNs)

/-- The disk behind a truncation. -/
def cutBehind (codec : Codec) (disk : Disk) (name : String) (header : ChunkHeader)
    (bytes : Bytes) : Disk :=
  { registered disk name header with
    active := disk.active.insert name (bytes.take (scanChunk codec bytes).validEnd) }

/-- A call on a torn partial behind its first two writes, the registration and the truncation. -/
theorem crashedAfter_cut_of_torn (hnames : disk.active.keys.filter isPartialName = [name])
    (hb : disk.active.get? name = some bytes)
    (hh : (scanChunk codec bytes).header = some header)
    (hissue : (scanChunk codec bytes).issue = .truncatedTail) (writes : Nat) :
    (crashedAfter (writes + 2)).cut codec disk =
      (recoverTailRecorded codec name header (scanChunk codec bytes) >>= fun action =>
        pure [action]).crashAt DiskWrite.apply writes
          (some (.truncateActive name (scanChunk codec bytes).validEnd))
          (cutBehind codec disk name header bytes) := by
  have htail : (scanChunk codec bytes).isTailTruncatable = true := by
    simp [ScanResult.isTailTruncatable, hissue, hh]
  have hcut : (DiskWrite.truncateActive name (scanChunk codec bytes).validEnd).apply
      (registered disk name header) = cutBehind codec disk name header bytes := by
    have hb' : (registered disk name header).active.get? name = some bytes := hb
    rw [DiskWrite.apply_truncateActive hb']
    rfl
  rw [crashedAfter_cut_of_single hnames hb hh, ← hcut]
  simp only [recoverChunk, commitTables, hissue, htail, recoverTail, read_bind, perform_bind,
    write_bind, if_true, reduceCtorEq, if_false, crashAt_read, crashAt_write_succ]
  rfl

/-- The third write of a call on a torn partial is the transition. -/
theorem crashAt_recoverTailRecorded {scan : ScanResult} {tables : ChunkTables}
    (hb : disk.active.get? name = some bytes) (hclean : (scanChunk codec bytes).issue = .none)
    (ht : disk.catalog.toChunkTables.transition header.chunkId .recovered
      (.recover header.chunkId scan.fileSize scan.validEnd)
      (tailEvidence scan.fileSize scan.validEnd) = .ok tables) (last : Option DiskWrite) :
    (recoverTailRecorded codec name header scan >>= fun action =>
        pure [action]).crashAt DiskWrite.apply 1 last disk =
      ⟨some (.commit { disk.catalog with toChunkTables := tables }), disk.withTables tables⟩ := by
  simp only [recoverTailRecorded, verifyTruncated, hb, Option.getD_some, ScanResult.isClean,
    hclean, decide_true, if_true, commitTables, read_bind, pure_bind, perform_bind, write_bind,
    crashAt_read, ht, crashAt_write_succ, crashAt_zero]
  rfl

/-- A call on a torn partial that no crash cuts short: its last write is the transition. -/
theorem crashedAfter_three_of_torn (hnames : disk.active.keys.filter isPartialName = [name])
    (hb : disk.active.get? name = some bytes)
    (hh : (scanChunk codec bytes).header = some header)
    (hissue : (scanChunk codec bytes).issue = .truncatedTail)
    (hstate : disk.catalog.state header.chunkId = none) :
    ∃ tables, (crashedAfter 3).cut codec disk =
      ⟨some (.commit { (cutBehind codec disk name header bytes).catalog with
          toChunkTables := tables }),
        (cutBehind codec disk name header bytes).withTables tables⟩ := by
  have hactive : (cutBehind codec disk name header bytes).catalog.state header.chunkId =
      some .active := by
    show (disk.catalog.registerActive _ _ _).state _ = _
    rw [ChunkTables.registerActive_state, if_pos ⟨rfl, hstate⟩]
  obtain ⟨tables, ht⟩ : ∃ tables,
      (cutBehind codec disk name header bytes).catalog.toChunkTables.transition
      header.chunkId .recovered
      (.recover header.chunkId (scanChunk codec bytes).fileSize (scanChunk codec bytes).validEnd)
      (tailEvidence (scanChunk codec bytes).fileSize (scanChunk codec bytes).validEnd) =
      .ok tables := ChunkTables.exists_transition hactive (Or.inr (by decide))
  have hcut : (cutBehind codec disk name header bytes).active.get? name =
      some (bytes.take (scanChunk codec bytes).validEnd) := by
    rw [cutBehind, SortedDict.get?_insert, if_pos rfl]
  exact ⟨tables, (crashedAfter_cut_of_torn hnames hb hh hissue 1).trans
    (crashAt_recoverTailRecorded hcut (scanChunk_take_validEnd hh).1 ht _)⟩

/-- A call on a clean partial whose chunk is registered changes nothing. -/
theorem crashedAfter_cut_of_clean (hnames : disk.active.keys.filter isPartialName = [name])
    (hb : disk.active.get? name = some bytes)
    (hh : (scanChunk codec bytes).header = some header)
    (hissue : (scanChunk codec bytes).issue = .none)
    (hagain : disk.catalog.registerActive header.chunkId (activePath name) header.createdAtUtcNs =
      disk.catalog.toChunkTables) (writes : Nat) :
    ((crashedAfter writes).cut codec disk).state = disk := by
  rw [crashedAfter_cut_of_single hnames hb hh]
  simp only [recoverChunk, commitTables, hissue, if_true, read_bind, perform_bind, pure_bind,
    write_bind, crashAt_read, hagain]
  cases writes with
  | zero => rfl
  | succ n => rfl

end

theorem isPartialName_sample : isPartialName "sample.bmdr.partial" = true := by decide +kernel

theorem filter_isPartialName_sample :
    ["sample.bmdr.partial"].filter isPartialName = ["sample.bmdr.partial"] := by
  rw [List.filter_cons_of_pos isPartialName_sample, List.filter_nil]

theorem names_tornDisk : tornDisk.active.keys.filter isPartialName = ["sample.bmdr.partial"] :=
  filter_isPartialName_sample

theorem tornDisk_sample : tornDisk.active.get? "sample.bmdr.partial" = some tornSampleChunk := by
  rw [tornDisk_active, if_pos rfl]

/-- The torn disk after the registration and the truncation. -/
def cutDisk : Disk :=
  cutBehind referenceCodec tornDisk "sample.bmdr.partial" sampleHeader tornSampleChunk

theorem cutDisk_active : cutDisk.active.get? "sample.bmdr.partial" = some sampleChunk := by
  rw [cutDisk, cutBehind, SortedDict.get?_insert, if_pos rfl, scan_tornSampleChunk.2.2]

/-- The rerun finds a clean file: it registers the chunk once more, and that is all. -/
theorem crashedAfter_cutDisk (writes : Nat) :
    ((crashedAfter writes).cut referenceCodec cutDisk).state = cutDisk := by
  have hkeys : cutDisk.active.keys = ["sample.bmdr.partial"] := by
    simp [cutDisk, cutBehind, tornDisk, SortedDict.keys, SortedDict.insert, SortedDict.insertItem]
  have hnames : cutDisk.active.keys.filter isPartialName = ["sample.bmdr.partial"] := by
    rw [hkeys, filter_isPartialName_sample]
  exact crashedAfter_cut_of_clean hnames cutDisk_active scan_sampleChunk.1 scan_sampleChunk.2
    (ChunkTables.registerActive_again _ _ _ _) writes

/-- The run of one call that no crash cuts short. -/
theorem recoverPartials_tailRecorded_sample :
    ∃ header, (scanChunk referenceCodec tornSampleChunk).header = some header ∧
      sampleChunk = tornSampleChunk.take (scanChunk referenceCodec tornSampleChunk).validEnd ∧
      (∃ row ∈ (afterAttempts referenceCodec [crashedAfter 3] tornDisk).catalog.transitions,
        row.chunkId = header.chunkId ∧ row.toState = .recovered ∧
          row.evidence.get? "truncated_bytes" =
            some (.int (tornSampleChunk.length - sampleChunk.length))) ∧
      ∃ recovery,
        (afterAttempts referenceCodec [crashedAfter 3] tornDisk).catalog.latestTransitionEvidence
            header.chunkId .recovered = some recovery ∧
        ∀ evidence relativePath storedBytes storedSha256 forcedFlags processBoundary sealedAt,
          (manifest evidence relativePath storedBytes storedSha256 (some recovery) forcedFlags
            processBoundary sealedAt).complete = false := by
  obtain ⟨hh, hissue, -⟩ := scan_tornSampleChunk
  obtain ⟨tables, hcut⟩ := crashedAfter_three_of_torn names_tornDisk tornDisk_sample hh hissue rfl
  refine recoverPartials_tailRecorded consistent_tornDisk ?_ isPartialName_sample tornDisk_sample
    ?_ ?_
  · refine ⟨?_, trivial⟩
    rw [hcut]
    rintro name size hlast
    cases hlast
  · rw [afterAttempts, afterAttempts, hcut]
    exact cutDisk_active
  · exact sampleChunk_ne_tornSampleChunk

/-- A crash behind the truncation: the rerun takes the file for a clean one. -/
theorem recoverPartials_forgets_tail :
    ¬ ∀ (codec : Codec) (origin : Disk) (attempts : List Attempt) (name : String)
        (bytes bytes' : Bytes), Consistent codec origin → isPartialName name →
      origin.active.get? name = some bytes →
      (afterAttempts codec attempts origin).active.get? name = some bytes' → bytes' ≠ bytes →
      ∃ header, (scanChunk codec bytes).header = some header ∧
        ∃ row ∈ (afterAttempts codec attempts origin).catalog.transitions,
          row.chunkId = header.chunkId ∧ row.toState = .recovered ∧
            row.evidence.get? "truncated_bytes" =
              some (.int (bytes.length - bytes'.length)) := by
  intro hall
  have hafter : afterAttempts referenceCodec [crashedAfter 2, crashedAfter 9] tornDisk =
      cutDisk := by
    have hfirst : ((crashedAfter 2).cut referenceCodec tornDisk).state = cutDisk := by
      rw [crashedAfter_cut_of_torn names_tornDisk tornDisk_sample scan_tornSampleChunk.1
        scan_tornSampleChunk.2.1 0, crashAt_zero, cutDisk]
    rw [afterAttempts, afterAttempts, afterAttempts, hfirst, crashedAfter_cutDisk]
  obtain ⟨header, -, row, hrow, -, hto, -⟩ := hall referenceCodec tornDisk
    [crashedAfter 2, crashedAfter 9] "sample.bmdr.partial" tornSampleChunk sampleChunk
    consistent_tornDisk isPartialName_sample tornDisk_sample
    (by rw [hafter, cutDisk_active])
    sampleChunk_ne_tornSampleChunk
  rw [hafter] at hrow
  rcases ChunkTables.mem_registerActive hrow with hold | ⟨-, hactive⟩
  · cases hold
  · rw [hactive] at hto
    cases hto

end MarketDataRecorder
