import MarketDataRecorder.Archive.LocalDeletion
import MarketDataRecorder.Archive.Reservation

/-!
# Attempts at an archive

A reserved archive is attempted over and over, each attempt cut off anywhere, and between attempts
the target comes and goes. As long as the source is there, what the target holds may change too;
that the attempts come to their end is said of runs in which it keeps what they have published.
-/

namespace MarketDataRecorder

/-! ## Runs -/

inductive AttemptEvent where
  /-- `_advance`, cut off after this many writes. -/
  | attempt (clock : ArchiveClock) (writes : Nat)
  | targetChanged (external : SortedDict String Bytes) (targetValid : Bool)

section

variable (lib : ArchiveLibrary) (target : ArchiveTarget) (identity : ArchiveIdentity)

/-- What the clock of a host reads. -/
def ArchiveClock.Valid (clock : ArchiveClock) : Prop := 0 ≤ clock.verifiedAt ∧ 0 ≤ clock.deletedAt

instance (clock : ArchiveClock) : Decidable clock.Valid := inferInstanceAs (Decidable (_ ∧ _))

def AttemptEvent.step (disk : ArchiveDisk) : AttemptEvent → Option ArchiveDisk
  | attempt clock writes =>
    if clock.Valid then
      some ((advance lib target identity.transactionId clock).crashAt ArchiveWrite.apply writes none
        disk).state
    else none
  | targetChanged external targetValid =>
    if (disk.internal.get? identity.sourceRelativePath).isSome ∨ external = disk.external then
      some { disk with external := external, targetValid := targetValid }
    else none

/-- The attempts behind a reservation that left this disk. -/
def attemptSystem (reserved : ArchiveDisk) : TransitionSystem ArchiveDisk AttemptEvent where
  initial disk := disk = reserved
  step := AttemptEvent.step lib target identity

/-- The target keeps the artifact and the external manifest; its other files may change. -/
def KeepsPublished (disk : ArchiveDisk) : AttemptEvent → Prop
  | .attempt _ _ => True
  | .targetChanged external _ =>
    external.get? identity.targetRelativePath = disk.external.get? identity.targetRelativePath ∧
      external.get? identity.externalManifestRelativePath =
        disk.external.get? identity.externalManifestRelativePath

/-! ## What is claimed of them -/

/-- The reserved bytes are in the source, or a copy that validates is committed. -/
def SourceOrCopy (stored : Option Bytes) (disk : ArchiveDisk) : Prop :=
  disk.internal.get? identity.sourceRelativePath = stored ∨
    (∃ row, disk.catalog.tables.archiveTransactions.get? identity.transactionId = some row ∧
      (row.state = .localDeletePending ∨ row.state = .localDeleted)) ∧
    validateExternalFiles lib target identity disk = .ok ()

/-- What an attempt unlinks is the source, pending its deletion, of a copy that validates. -/
def UnlinksRevalidated (disk : ArchiveDisk) (clock : ArchiveClock) : Prop :=
  ∀ writes path, ((advance lib target identity.transactionId clock).crashAt
    ArchiveWrite.apply writes
      none disk).satisfies fun last disk' =>
    last = some (.unlinkInternal path) →
      path = identity.sourceRelativePath ∧
      (∃ row, disk'.catalog.tables.archiveTransactions.get? identity.transactionId = some row ∧
        row.state = .localDeletePending) ∧
      validateExternalCommit lib target identity disk' = .ok ()

/-- An attempt from a disk has ended in `LOCAL_DELETED`, with everything counted once. -/
structure ArchiveEnded (disk : ArchiveDisk) (ended : Except String ArchiveResult × ArchiveDisk) :
    Prop where
  result : ∃ result, ended.1 = .ok result ∧ result.state = .localDeleted
  row : ∃ row, ended.2.catalog.tables.archiveTransactions.get? identity.transactionId = some row ∧
    row.state = .localDeleted
  source : ended.2.internal.get? identity.sourceRelativePath = none
  copy : validateExternalFiles lib target identity ended.2 = .ok ()
  manifest : ∀ bytes, disk.external.get? identity.externalManifestRelativePath = some bytes →
    ended.2.external.get? identity.externalManifestRelativePath = some bytes
  archived : batchCount ended.2 (archivedBatch identity.transactionId) = 1
  deleted : batchCount ended.2 (deletedBatch identity.transactionId) = 1

/-- The temporary copy is exact, where an attempt would go on from it. -/
def TemporaryReady (disk : ArchiveDisk) : Prop :=
  ∀ row, disk.catalog.tables.archiveTransactions.get? identity.transactionId = some row →
    TemporaryExact lib identity disk row

/-- An attempt, not cut off. -/
def rerun (clock : ArchiveClock) (disk : ArchiveDisk) : Except String ArchiveResult × ArchiveDisk :=
  (advance lib target identity.transactionId clock).run ArchiveWrite.apply disk

/-- **Where reruns come from here**: to the end, at the latest behind one that removed a copy. -/
structure RerunsEnd (disk : ArchiveDisk) (clock : ArchiveClock) : Prop where
  ready : TemporaryReady lib identity disk →
    ArchiveEnded lib target identity disk (rerun lib target identity clock disk)
  rejected : ¬ TemporaryReady lib identity disk →
    (∃ e, (rerun lib target identity clock disk).1 = .error e) ∧
      ∀ clock' : ArchiveClock, clock'.Valid →
        ArchiveEnded lib target identity disk
          (rerun lib target identity clock' (rerun lib target identity clock disk).2)

end

/-! ## Safety -/

section

variable {lib : ArchiveLibrary} {target : ArchiveTarget} {identity : ArchiveIdentity}
  {disk disk' reserved : ArchiveDisk} {event : AttemptEvent} {stored : Bytes}

theorem ArchiveSafe.of_last {last : Option ArchiveWrite}
    (h : ArchiveSafe lib target identity stored last disk) :
    ArchiveSafe lib target identity stored none disk := by
  obtain ⟨row, htracks, hsource, -⟩ := h
  exact ⟨row, htracks, hsource, by rintro path ⟨⟩⟩

theorem archiveSafe_step (hmarket : identity.market ≠ "") (hstream : identity.stream ≠ "")
    (h : ArchiveSafe lib target identity stored none disk)
    (hstep : event.step lib target identity disk = some disk') :
    ArchiveSafe lib target identity stored none disk' := by
  cases event with
  | attempt clock writes =>
    simp only [AttemptEvent.step] at hstep
    split at hstep
    · next hclock =>
      cases Option.some.inj hstep
      rcases Durable.crashAt_of_wp (safe_advance hmarket hstream hclock.2 h) writes with
        ⟨-, h⟩ | ⟨-, h⟩ | h
      · exact ArchiveSafe.of_last h
      · exact ArchiveSafe.of_last h
      · exact ArchiveSafe.of_last h
    · cases hstep
  | targetChanged external targetValid =>
    simp only [AttemptEvent.step] at hstep
    split at hstep
    · next hguard =>
      cases Option.some.inj hstep
      obtain ⟨row, htracks, hsource, -⟩ := h
      refine ⟨row, htracks.of_catalog rfl, ?_, by rintro path ⟨⟩⟩
      rcases hsource with hheld | hcopy
      · exact Or.inl hheld
      · -- with the source gone, the files are the same
        rcases hguard with hsome | rfl
        · rw [hcopy.1] at hsome
          cases hsome
        · exact Or.inr hcopy
    · cases hstep

theorem ArchiveSafe.sourceOrCopy (h : ArchiveSafe lib target identity stored none disk) :
    SourceOrCopy lib target identity (some stored) disk := by
  obtain ⟨row, htracks, hsource, -⟩ := h
  rcases hsource with hheld | hcopy
  · exact Or.inl hheld.1
  · exact Or.inr ⟨⟨row, htracks.row_eq, hcopy.2.1⟩, hcopy.2.2⟩

theorem ArchiveSafe.unlinksRevalidated (hmarket : identity.market ≠ "")
    (hstream : identity.stream ≠ "") (h : ArchiveSafe lib target identity stored none disk)
    {clock : ArchiveClock} (hclock : clock.Valid) :
    UnlinksRevalidated lib target identity disk clock := by
  intro writes path
  have hcut : ((advance lib target identity.transactionId clock).crashAt ArchiveWrite.apply writes
      none disk).satisfies (ArchiveSafe lib target identity stored) := by
    rcases Durable.crashAt_of_wp (safe_advance hmarket hstream hclock.2 h) writes with
      ⟨-, h⟩ | ⟨-, h⟩ | h
    · exact h
    · exact h
    · exact h
  intro hlast
  obtain ⟨row, htracks, -, hrevalidated⟩ := hcut
  obtain ⟨hpath, hstate, hcommit⟩ := hrevalidated path hlast
  exact ⟨hpath, ⟨row, htracks.row_eq, hstate⟩, hcommit⟩

end

/-! ## Convergence -/

namespace ArchiveSource

variable {lib : ArchiveLibrary} {target : ArchiveTarget} {identity : ArchiveIdentity}
  {source : ArchiveSource lib target identity} {disk disk' : ArchiveDisk} {event : AttemptEvent}
  {manifest : Option Bytes} {valid : Bool} {row : ArchiveTransaction} {clock : ArchiveClock}

theorem Healthy.withManifest (h : source.Healthy manifest valid disk row) :
    source.Healthy (disk.external.get? identity.externalManifestRelativePath) valid disk row :=
  ⟨h.tracks, h.rawManifest, h.sourceFile, h.targetFiles, fun _ hbytes => hbytes, h.valid⟩

/-- The target may come and go, and change files that no state speaks of. -/
theorem Healthy.targetChanged {external : SortedDict String Bytes} {targetValid : Bool}
    (h : source.Healthy manifest valid disk row)
    (hkeeps : KeepsPublished identity disk (.targetChanged external targetValid)) :
    source.Healthy manifest targetValid
      { disk with external := external, targetValid := targetValid } row := by
  obtain ⟨hartifact, hmanifest⟩ := hkeeps
  have hpublished : ∀ time, source.Published disk time →
      source.Published { disk with external := external, targetValid := targetValid } time := by
    rintro time ⟨hpos, hbytes, hdocument⟩
    exact ⟨hpos, by rw [hartifact]; exact hbytes, hmanifest.trans hdocument⟩
  refine ⟨h.tracks.of_catalog rfl, h.rawManifest, h.sourceFile, ?_,
    fun bytes hbytes => hmanifest.trans (h.kept bytes hbytes), rfl⟩
  have htarget := h.targetFiles
  cases hstate : row.state with
  | copying =>
    rw [hstate] at htarget
    exact ⟨hartifact.trans htarget.1, hmanifest.trans htarget.2⟩
  | verifying =>
    rw [hstate] at htarget
    refine ⟨fun bytes hbytes => htarget.1 bytes (hartifact.symm.trans hbytes), ?_⟩
    rcases htarget.2 with hnone | ⟨time, htime⟩
    · exact Or.inl (hmanifest.trans hnone)
    · exact Or.inr ⟨time, hpublished time htime⟩
  | verified | localDeletePending | localDeleted =>
    rw [hstate] at htarget
    obtain ⟨time, htime⟩ := htarget
    exact ⟨time, hpublished time htime⟩

theorem Healthy.crashAt (h : source.Healthy manifest valid disk row) (hclock : clock.Valid)
    (writes : Nat) :
    ∃ row', source.Healthy manifest valid ((advance lib target identity.transactionId clock).crashAt
      ArchiveWrite.apply writes none disk).state row' := by
  have hconverges := @converges_advance lib target identity source disk manifest _ _ row none clock
    hclock.2 hclock.1 h Iff.rfl
  rcases Durable.crashAt_of_wp hconverges writes with ⟨-, -, -, row', h', -⟩ | ⟨-, row', h', -⟩ | h'
  · exact ⟨row', h'⟩
  · exact ⟨row', h'⟩
  · exact h'

theorem healthy_step (h : ∃ valid row, source.Healthy none valid disk row)
    (hkeeps : KeepsPublished identity disk event)
    (hstep : event.step lib target identity disk = some disk') :
    ∃ valid row, source.Healthy none valid disk' row := by
  obtain ⟨valid, row, h⟩ := h
  cases event with
  | attempt clock writes =>
    simp only [AttemptEvent.step] at hstep
    split at hstep
    · next hclock =>
      cases Option.some.inj hstep
      exact ⟨valid, h.crashAt hclock writes⟩
    · cases hstep
  | targetChanged external targetValid =>
    simp only [AttemptEvent.step] at hstep
    split at hstep
    · cases Option.some.inj hstep
      exact ⟨targetValid, row, h.targetChanged hkeeps⟩
    · cases hstep

/-- What is published stays as it is. -/
theorem Healthy.manifest_kept (h : source.Healthy manifest valid disk row)
    (hkeeps : KeepsPublished identity disk event)
    (hstep : event.step lib target identity disk = some disk') {bytes : Bytes}
    (hbytes : disk.external.get? identity.externalManifestRelativePath = some bytes) :
    disk'.external.get? identity.externalManifestRelativePath = some bytes := by
  cases event with
  | attempt clock writes =>
    simp only [AttemptEvent.step] at hstep
    split at hstep
    · next hclock =>
      cases Option.some.inj hstep
      obtain ⟨row', h'⟩ := h.withManifest.crashAt hclock writes
      exact h'.kept bytes hbytes
    · cases hstep
  | targetChanged external targetValid =>
    simp only [AttemptEvent.step] at hstep
    split at hstep
    · cases Option.some.inj hstep
      exact hkeeps.2.trans hbytes
    · cases hstep

theorem Healthy.temporaryReady_iff (h : source.Healthy manifest valid disk row) :
    TemporaryReady lib identity disk ↔ TemporaryExact lib identity disk row := by
  constructor
  · intro hready
    exact hready row h.tracks.row_eq
  · intro hexact row' hrow'
    cases h.tracks.row_eq.symm.trans hrow'
    exact hexact

/-- A rerun on a target that is there ends, or has removed the copy that kept it from that. -/
theorem Healthy.rerun (h : source.Healthy manifest true disk row) (hclock : clock.Valid) :
    (TemporaryExact lib identity disk row ∧
      (∃ result, (rerun lib target identity clock disk).1 = .ok result ∧
        result.state = .localDeleted) ∧
      ∃ row', source.Healthy manifest true
        (MarketDataRecorder.rerun lib target identity clock disk).2
        row' ∧ row'.state = .localDeleted) ∨
    (¬ TemporaryExact lib identity disk row ∧
      (∃ e, (MarketDataRecorder.rerun lib target identity clock disk).1 = .error e) ∧
      ∃ row', source.Healthy manifest true
        (MarketDataRecorder.rerun lib target identity clock disk).2
        row' ∧ TemporaryExact lib identity
          (MarketDataRecorder.rerun lib target identity clock disk).2 row') := by
  have hconverges := @converges_advance lib target identity source disk manifest _ _ row none clock
    hclock.2 hclock.1 h Iff.rfl
  obtain ⟨hok, herror⟩ := Durable.run_of_wp hconverges
  cases hresult : (MarketDataRecorder.rerun lib target identity clock disk).1 with
  | ok result =>
    obtain ⟨-, hexact, hstate, row', h', hrow'⟩ := hok result hresult
    exact Or.inl ⟨hexact, ⟨result, rfl, hstate⟩, row', h', hrow'⟩
  | error e =>
    obtain ⟨-, row', h', hrejected⟩ := herror e hresult
    obtain ⟨hnot, hexact⟩ := hrejected rfl
    exact Or.inr ⟨hnot, ⟨e, rfl⟩, row', h', hexact⟩

/-- At the end everything is there, and counted once. -/
theorem Healthy.archiveEnded {ended : Except String ArchiveResult × ArchiveDisk}
    (h : source.Healthy (disk.external.get? identity.externalManifestRelativePath)
    valid ended.2 row)
    (hstate : row.state = .localDeleted)
    (hresult : ∃ result, ended.1 = .ok result ∧ result.state = .localDeleted) :
    ArchiveEnded lib target identity disk ended := by
  have hsource := h.sourceFile
  have htarget := h.targetFiles
  rw [hstate] at hsource htarget
  obtain ⟨time, hpublished⟩ := htarget
  refine ⟨hresult, ⟨row, h.tracks.row_eq, hstate⟩, hsource, hpublished.validateExternalFiles,
    fun bytes hbytes => h.kept bytes hbytes, ?_, h.tracks.deletedOnce.2.2 hstate⟩
  refine h.tracks.archivedOnce.2.2 ?_
  rw [hstate]
  decide

theorem Healthy.rerunsEnd (h : source.Healthy manifest true disk row) (hclock : clock.Valid) :
    RerunsEnd lib target identity disk clock := by
  have hkept := h.withManifest
  constructor
  · intro hready
    rcases hkept.rerun hclock with ⟨-, hresult, row', h', hstate⟩ | ⟨hnot, -⟩
    · exact h'.archiveEnded hstate hresult
    · exact absurd (h.temporaryReady_iff.mp hready) hnot
  · intro hnot
    rcases hkept.rerun hclock with ⟨hexact, -⟩ | ⟨-, herror, row', h', hexact⟩
    · exact absurd (h.temporaryReady_iff.mpr hexact) hnot
    · refine ⟨herror, fun clock' hclock' => ?_⟩
      rcases h'.rerun hclock' with ⟨-, hresult, row'', h'', hstate⟩ | ⟨hnot', -⟩
      · exact h''.archiveEnded hstate hresult
      · exact absurd hexact hnot'

end ArchiveSource

/-! ## The archive of a chunk -/

section

variable {lib : ArchiveLibrary} {target : ArchiveTarget} {chunkId : String} {chunk : ChunkRow}
  {now : Int} {disk reserved : ArchiveDisk} {row : ArchiveTransaction}

/--
**Archiving loses no Raw and comes to its end.** Behind a new reservation: in every state that is
reached the reserved bytes are in the source, or a copy that validates is committed, and attempts
unlink the source only behind a revalidation; and where the target keeps what was published, the
external manifest stays as it is, and reruns end with everything counted once.
-/
theorem archive_of_reserve
    (hreserve : (reserve lib target chunkId chunk now).run ArchiveWrite.apply disk =
      (.ok row, reserved))
    (hfresh : FreshArchive disk row.toArchiveIdentity)
    (hreads : ∀ rawBytes raw,
      disk.internal.get? row.sourceManifestRelativePath = some rawBytes →
        lib.loads rawBytes = some raw →
          ReadsBack lib target row.toArchiveIdentity rawBytes raw) :
    (∀ disk', (attemptSystem lib target row.toArchiveIdentity reserved).Reachable
        (fun _ _ => True) disk' →
      SourceOrCopy lib target row.toArchiveIdentity
        (reserved.internal.get? row.sourceRelativePath) disk' ∧
      ∀ clock : ArchiveClock, clock.Valid →
        UnlinksRevalidated lib target row.toArchiveIdentity disk' clock) ∧
    ∀ disk', (attemptSystem lib target row.toArchiveIdentity reserved).Reachable
        (KeepsPublished row.toArchiveIdentity) disk' →
      (∀ event disk'' bytes, KeepsPublished row.toArchiveIdentity disk' event →
        event.step lib target row.toArchiveIdentity disk' = some disk'' →
          disk'.external.get? row.externalManifestRelativePath = some bytes →
            disk''.external.get? row.externalManifestRelativePath = some bytes) ∧
      (disk'.targetValid = true → ∀ clock : ArchiveClock, clock.Valid →
        RerunsEnd lib target row.toArchiveIdentity disk' clock) := by
  obtain ⟨source, hhealthy, hstored, hstate⟩ := exists_healthy_of_reserve hreserve hfresh hreads
  have hsafe : ArchiveSafe lib target row.toArchiveIdentity source.stored none reserved := by
    refine ⟨row, hhealthy.tracks, Or.inl ⟨hstored, ?_⟩, by rintro path ⟨⟩⟩
    rw [hstate]
    decide
  constructor
  · intro disk' hreach
    have h : ArchiveSafe lib target row.toArchiveIdentity source.stored none disk' := by
      refine hreach.invariant ?_ ?_
      · rintro s rfl
        exact hsafe
      · exact fun s event t h _ hstep => archiveSafe_step source.market source.stream h hstep
    refine ⟨?_, fun clock hclock => h.unlinksRevalidated source.market source.stream hclock⟩
    rw [hstored]
    exact h.sourceOrCopy
  · intro disk' hreach
    have h : ∃ valid row', source.Healthy none valid disk' row' := by
      refine hreach.invariant (I := fun s => ∃ valid row', source.Healthy none valid s row') ?_ ?_
      · rintro s rfl
        exact ⟨_, row, hhealthy⟩
      · exact fun s event t h hkeeps hstep => ArchiveSource.healthy_step h hkeeps hstep
    obtain ⟨valid, row', h⟩ := h
    refine ⟨fun event disk'' bytes hkeeps hstep hbytes => h.manifest_kept hkeeps hstep hbytes, ?_⟩
    intro hvalid clock hclock
    cases h.valid.symm.trans hvalid
    exact h.rerunsEnd hclock

end

/-! ## Two runs -/

instance (identity : ArchiveIdentity) (disk : ArchiveDisk) (event : AttemptEvent) :
    Decidable (KeepsPublished identity disk event) :=
  match event with
  | .attempt _ _ => inferInstanceAs (Decidable True)
  | .targetChanged _ _ => inferInstanceAs (Decidable (_ ∧ _))

/-- The digits of a number are read back, and they are digits. -/
theorem ofDecimal_decimal {fuel n : Nat} {digits : Bytes} (h : n < fuel) :
    ofDecimal 0 (decimal fuel n digits) = ofDecimal n digits := by
  induction fuel generalizing n digits with
  | zero => omega
  | succ fuel ih =>
    rw [decimal]
    split
    · next hlt =>
      simp only [ofDecimal, List.foldl_cons, UInt8.toNat_ofNat', Nat.reducePow]
      rw [show 0 * 10 + ((48 + n) % 256 - 48) = n by omega]
    · next hge =>
      rw [ih (by omega)]
      simp only [ofDecimal, List.foldl_cons, UInt8.toNat_ofNat', Nat.reducePow]
      rw [show n / 10 * 10 + ((48 + n % 10) % 256 - 48) = n by omega]

theorem isDigit_decimal {fuel n : Nat} {digits : Bytes} (h : ∀ d ∈ digits, isDigit d = true) :
    ∀ d ∈ decimal fuel n digits, isDigit d = true := by
  induction fuel generalizing n digits with
  | zero => exact h
  | succ fuel ih =>
    rw [decimal]
    split
    · next hlt =>
      intro d hd
      rcases List.mem_cons.mp hd with rfl | hd
      · simp only [isDigit, UInt8.toNat_ofNat', Bool.and_eq_true, decide_eq_true_eq, Nat.reducePow]
        omega
      · exact h d hd
    · refine ih fun d hd => ?_
      rcases List.mem_cons.mp hd with rfl | hd
      · simp only [isDigit, UInt8.toNat_ofNat', Bool.and_eq_true, decide_eq_true_eq, Nat.reducePow]
        omega
      · exact h d hd

theorem loads_sampleLibrary (bytes : Bytes) :
    sampleLibrary.loads bytes =
      if bytes = sampleManifestBytes then some sampleManifest
      else if bytes.take sampleExternalHead.length = sampleExternalHead then
        if (bytes.drop sampleExternalHead.length).dropWhile isDigit = sampleExternalTail then
          some (sampleExternal
            (ofDecimal 0 ((bytes.drop sampleExternalHead.length).takeWhile isDigit)))
        else none
      else none :=
  rfl

theorem readsBack_sample :
    ReadsBack sampleLibrary sampleTarget sampleArchive sampleManifestBytes sampleManifest := by
  refine ⟨fun bytes => List.flatten_singleton, rfl, fun verifiedAt hpos => ?_⟩
  have hdocument : externalDocument sampleLibrary sampleTarget sampleArchive sampleManifestBytes
      sampleManifest verifiedAt = sampleExternal verifiedAt := rfl
  have hdumps : sampleLibrary.dumps (sampleExternal verifiedAt) = sampleExternalHead ++
      (decimal (verifiedAt.toNat + 1) verifiedAt.toNat [] ++ sampleExternalTail) := by
    rfl
  rw [hdocument, hdumps, loads_sampleLibrary]
  -- the second field of the documents differs, so they begin differently
  have hne : sampleExternalHead ++ (decimal (verifiedAt.toNat + 1) verifiedAt.toNat [] ++
      sampleExternalTail) ≠ sampleManifestBytes := by
    intro hc
    have hthird := congrArg (fun bytes => bytes[2]?) hc
    have hlong : 2 < sampleExternalHead.length := by decide +kernel
    have hhead : sampleExternalHead[2]? = some 97 := by decide +kernel
    have hmanifest : sampleManifestBytes[2]? = some 99 := by decide +kernel
    simp only [List.getElem?_append_left hlong, hhead, hmanifest] at hthird
    exact absurd hthird (by decide)
  have hall := @isDigit_decimal (verifiedAt.toNat + 1) verifiedAt.toNat [] (by simp)
  have htail : sampleExternalTail.takeWhile isDigit = [] ∧
      sampleExternalTail.dropWhile isDigit = sampleExternalTail := by decide +kernel
  have hread : ofDecimal 0 (decimal (verifiedAt.toNat + 1) verifiedAt.toNat []) =
      verifiedAt.toNat := ofDecimal_decimal (Nat.lt_succ_self _)
  rw [if_neg hne, List.take_left, if_pos rfl, List.drop_left, List.dropWhile_append_of_pos hall,
    htail.2, if_pos rfl, List.takeWhile_append_of_pos hall, htail.1, List.append_nil, hread,
    Int.toNat_of_nonneg hpos]

def sampleSealed : ChunkRow where
  state := .sealed
  partialPath := none
  sealedPath := some sampleArchive.sourceRelativePath
  manifestPath := some sampleArchive.sourceManifestRelativePath
  recordCount := 0
  uncompressedBytes := some 3
  storedBytes := some 12
  uncompressedSha256 := some sampleUncompressedSha256
  storedSha256 := some sampleStoredSha256
  createdAtUtcNs := 0

def sealedDisk : ArchiveDisk where
  internal := (SortedDict.empty.insert sampleArchive.sourceRelativePath sampleStored).insert
    sampleArchive.sourceManifestRelativePath sampleManifestBytes
  catalog := { tables := { chunks := SortedDict.empty.insert sampleArchive.chunkId sampleSealed } }

def sampleReservation : Except String ArchiveTransaction × ArchiveDisk :=
  (reserve sampleLibrary sampleTarget sampleArchive.chunkId sampleSealed 0).run ArchiveWrite.apply
    sealedDisk

def sampleTransaction : ArchiveTransaction where
  toArchiveIdentity := sampleArchive
  state := .copying
  createdAtUtcNs := 0
  updatedAtUtcNs := 0

theorem sampleReservation_fst : sampleReservation.1 = .ok sampleTransaction := by
  have hrow : sampleReservation.1.toOption = some sampleTransaction := by decide +kernel
  cases hresult : sampleReservation.1 with
  | error e =>
    rw [hresult] at hrow
    cases hrow
  | ok row =>
    rw [hresult] at hrow
    rw [Option.some.inj hrow]

theorem freshArchive_sealedDisk : FreshArchive sealedDisk sampleArchive where
  unowned := rfl
  keys _ _ := ⟨rfl, rfl⟩
  archived := rfl
  deleted := rfl
  artifact := rfl
  manifest := rfl

theorem archive_of_reserve_sample :
    ∃ reserved, sampleReservation = (.ok sampleTransaction, reserved) ∧
      RerunsEnd sampleLibrary sampleTarget sampleArchive reserved sampleClock := by
  have hreserve : sampleReservation = (.ok sampleTransaction, sampleReservation.2) := by
    rw [← sampleReservation_fst]
  have hreads : ∀ rawBytes raw,
      sealedDisk.internal.get? sampleTransaction.sourceManifestRelativePath = some rawBytes →
        sampleLibrary.loads rawBytes = some raw →
          ReadsBack sampleLibrary sampleTarget sampleArchive rawBytes raw := by
    intro rawBytes raw hbytes hloads
    have hstored : sealedDisk.internal.get? sampleTransaction.sourceManifestRelativePath =
        some sampleManifestBytes := by decide +kernel
    rw [← Option.some.inj (hstored.symm.trans hbytes)] at hloads ⊢
    rw [loads_sampleLibrary, if_pos rfl] at hloads
    rw [← Option.some.inj hloads]
    exact readsBack_sample
  have hruns := archive_of_reserve hreserve freshArchive_sealedDisk hreads
  have hvalid : sampleReservation.2.targetValid = true := by decide +kernel
  exact ⟨_, hreserve, (hruns.2 _ (TransitionSystem.Reachable.of_initial rfl)).2 hvalid sampleClock
    (by decide)⟩

/--
An attempt stops with the temporary copy made, the volume loses its bytes, the next attempt rejects
the copy and removes it, and the one behind that stops in its copying.
-/
def rejectedRun : Option ArchiveDisk :=
  (attemptSystem sampleLibrary sampleTarget sampleArchive sampleReservation.2).performAllowed
    (fun disk event => decide (KeepsPublished sampleArchive disk event)) sampleReservation.2
    [.attempt sampleClock 3,
     .targetChanged (SortedDict.empty.insert sampleArchive.targetTempRelativePath []) true,
     .attempt sampleClock 99,
     .attempt sampleClock 1]

/-- What a rerun from there returns. -/
def rejectedResult (disk : ArchiveDisk) : Bool × Option ArchiveState :=
  (disk.targetValid, match (rerun sampleLibrary sampleTarget sampleArchive sampleClock disk).1 with
    | .ok result => some result.state
    | .error _ => none)

theorem not_archiveEnded_of_rejected :
    ¬ ∀ disk, (attemptSystem sampleLibrary sampleTarget sampleArchive
        sampleReservation.2).Reachable (KeepsPublished sampleArchive) disk →
      disk.targetValid = true → ∀ clock : ArchiveClock, clock.Valid →
        ArchiveEnded sampleLibrary sampleTarget sampleArchive disk
          (rerun sampleLibrary sampleTarget sampleArchive clock disk) := by
  intro hclaim
  have hend : rejectedRun.map rejectedResult = some (true, none) := by decide +kernel
  obtain ⟨disk, hdisk, hresult⟩ := Option.map_eq_some_iff.mp hend
  obtain ⟨hvalid, hstate⟩ := Prod.mk.inj hresult
  have hreach : (attemptSystem sampleLibrary sampleTarget sampleArchive
      sampleReservation.2).Reachable (KeepsPublished sampleArchive) disk :=
    ⟨_, rfl, TransitionSystem.run_of_performAllowed (fun _ _ => of_decide_eq_true) hdisk⟩
  obtain ⟨result, hok, -⟩ := (hclaim disk hreach hvalid sampleClock (by decide)).result
  simp only [hok] at hstate
  cases hstate

end MarketDataRecorder
