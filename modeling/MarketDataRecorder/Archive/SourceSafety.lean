import MarketDataRecorder.Archive.Transaction

/-!
# The source is not lost

Along a transaction the internal source holds the bytes that were reserved, until it is unlinked
behind a revalidation of the external copy. Up to that moment the files of the target may be
anything: what an attempt finds there it validates.
-/

namespace MarketDataRecorder

section

variable (lib : ArchiveLibrary) (target : ArchiveTarget) (identity : ArchiveIdentity)
  (stored : Bytes)

/-- The source is there. -/
def SourceHeld (disk : ArchiveDisk) (row : ArchiveTransaction) : Prop :=
  disk.internal.get? identity.sourceRelativePath = some stored ∧ row.state ≠ .localDeleted

/-- The source is gone, and the external copy is committed. -/
def CopyCommitted (disk : ArchiveDisk) (row : ArchiveTransaction) : Prop :=
  disk.internal.get? identity.sourceRelativePath = none ∧
    (row.state = .localDeletePending ∨ row.state = .localDeleted) ∧
    validateExternalFiles lib target identity disk = .ok ()

/-- An unlink is the one of the source, of a copy that validates. -/
def Revalidated (last : Option ArchiveWrite) (disk : ArchiveDisk) (row : ArchiveTransaction) :
    Prop :=
  ∀ path, last = some (.unlinkInternal path) →
    path = identity.sourceRelativePath ∧ row.state = .localDeletePending ∧
      validateExternalCommit lib target identity disk = .ok ()

/-- **What holds at every moment**: the source, or the committed copy. -/
def ArchiveSafe (last : Option ArchiveWrite) (disk : ArchiveDisk) : Prop :=
  ∃ row, ArchiveTracks identity disk row ∧
    (SourceHeld identity stored disk row ∨ CopyCommitted lib target identity disk row) ∧
    Revalidated lib target identity last disk row

/-- In front of the deletion the source is held, and nothing was unlinked. -/
def BeforeDeletion (row : ArchiveTransaction) (last : Option ArchiveWrite) (disk : ArchiveDisk) :
    Prop :=
  ArchiveTracks identity disk row ∧ SourceHeld identity stored disk row ∧
    ∀ path, last ≠ some (.unlinkInternal path)

def Safe {α : Type} (p : ArchiveProgram α) (last : Option ArchiveWrite) (disk : ArchiveDisk) :
    Prop :=
  Durable.wp ArchiveWrite.apply (fun _ => ArchiveSafe lib target identity stored)
    (fun _ => ArchiveSafe lib target identity stored) (ArchiveSafe lib target identity stored) p
    last disk

end

section

variable {lib : ArchiveLibrary} {target : ArchiveTarget} {identity : ArchiveIdentity}
  {stored : Bytes} {row : ArchiveTransaction} {last : Option ArchiveWrite}
  {disk disk' : ArchiveDisk}

theorem revalidated_of_ne (h : ∀ path, last ≠ some (.unlinkInternal path)) :
    Revalidated lib target identity last disk row := fun path hlast => absurd hlast (h path)

theorem commit_ne_unlink (catalog : ArchiveCatalog) (forceSync : Bool) (path : String) :
    some (ArchiveWrite.commit catalog forceSync) ≠ some (.unlinkInternal path) := by
  rintro ⟨⟩

theorem BeforeDeletion.safe (h : BeforeDeletion identity stored row last disk) :
    ArchiveSafe lib target identity stored last disk :=
  ⟨row, h.1, Or.inl h.2.1, revalidated_of_ne h.2.2⟩

theorem offTarget_beforeDeletion : OffTarget (BeforeDeletion identity stored row) := by
  rintro op last disk hop ⟨htracks, hheld, -⟩
  obtain ⟨external, heq⟩ := ArchiveWrite.apply_eq_of_isExternal hop disk
  rw [heq]
  refine ⟨htracks.of_catalog rfl, hheld, fun path hlast => ?_⟩
  rw [Option.some.inj hlast] at hop
  cases hop

theorem safe_bind {α β : Type} {p : ArchiveProgram α} {f : α → ArchiveProgram β}
    (h : BeforeDeletion identity stored row last disk)
    (hp : Durable.Keeps ArchiveWrite.apply (BeforeDeletion identity stored row) p)
    (hf : ∀ a last disk, BeforeDeletion identity stored row last disk →
      Safe lib target identity stored (f a) last disk) :
    Safe lib target identity stored (p >>= f) last disk := by
  unfold Safe
  rw [Durable.wp_bind]
  exact Durable.wp_mono (hp last disk h) hf (fun _ _ _ h => h.safe) fun _ _ h => h.safe

theorem SameFiles.sourceHeld (h : SameFiles disk disk')
    (hheld : SourceHeld identity stored disk row)
    {row' : ArchiveTransaction} (hstate : row'.state ≠ .localDeleted) :
    SourceHeld identity stored disk' row' := by
  refine ⟨?_, hstate⟩
  rw [h.internal]
  exact hheld.1

theorem validateExternalFiles_congr (h : disk'.external = disk.external) :
    validateExternalFiles lib target identity disk' =
      validateExternalFiles lib target identity disk := by
  rw [validateExternalFiles, validateExternalFiles, h]

theorem SameFiles.copyCommitted (h : SameFiles disk disk')
    (hcopy : CopyCommitted lib target identity disk row) {row' : ArchiveTransaction}
    (hstate : row'.state = .localDeletePending ∨ row'.state = .localDeleted) :
    CopyCommitted lib target identity disk' row' := by
  refine ⟨?_, hstate, ?_⟩
  · rw [h.internal]
    exact hcopy.1
  · rw [validateExternalFiles_congr h.external]
    exact hcopy.2.2

theorem validateExternalFiles_of_commit
    (h : validateExternalCommit lib target identity disk = .ok ()) :
    validateExternalFiles lib target identity disk = .ok () := by
  obtain ⟨-, -, hfiles⟩ := except_bind_eq_ok h
  exact hfiles

/-! ## The steps of an attempt -/

variable {clock : ArchiveClock} (hmarket : identity.market ≠ "") (hstream : identity.stream ≠ "")
  (hdeletedAt : 0 ≤ clock.deletedAt)

/-- The end of an attempt reads the row back. -/
theorem safe_archiveResult (h : ArchiveSafe lib target identity stored last disk)
    (deletedBytes : Int) :
    Safe lib target identity stored (archiveResult identity.transactionId deletedBytes) last disk :=
  (keeps_archiveCheck _).bind (fun _ => Durable.keeps_pure _) last disk h

include hmarket hstream hdeletedAt in
/-- Behind the deletion, or behind finding the source deleted, the copy stays committed. -/
theorem safe_recordDeletion (h : ArchiveTracks identity disk row)
    (hstate : row.state = .localDeletePending) (hcopy : CopyCommitted lib target identity disk row)
    (hlast : ∀ path, last ≠ some (.unlinkInternal path)) (deletedBytes : Int) :
    Safe lib target identity stored (do
      recordMetricBatch (deletedMetric row clock.deletedAt)
      commitArchive true fun tables =>
        tables.transitionArchive identity.transactionId .localDeleted
          (deletedKey identity.transactionId) (.dict [("source_absent", .bool true)]) none
          (some clock.deletedAt) clock.now
      archiveResult identity.transactionId deletedBytes) last disk := by
  have hsafe : ∀ last disk, ArchiveTracks identity disk row →
      CopyCommitted lib target identity disk row →
        (∀ path, last ≠ some (.unlinkInternal path)) →
          ArchiveSafe lib target identity stored last disk :=
    fun last disk htracks hcopy hlast => ⟨row, htracks, Or.inr hcopy, revalidated_of_ne hlast⟩
  unfold Safe
  rw [Durable.wp_bind]
  refine h.wp_deletedMetric hstate hmarket hstream hdeletedAt (hsafe last disk h hcopy hlast) ?_
  intro last' disk' hfiles htracks hone hcases
  have hcopy' := hfiles.copyCommitted hcopy (Or.inl hstate)
  have hlast' : ∀ path, last' ≠ some (.unlinkInternal path) := by
    rcases hcases with rfl | ⟨catalog, rfl⟩
    · exact hlast
    · exact commit_ne_unlink catalog false
  rw [Durable.wp_bind]
  refine htracks.wp_transition true (by rw [hstate]; decide) (by simp)
    (by rintro ⟨⟩) (fun _ => hone)
    (hsafe last' disk' htracks hcopy' hlast') ?_
  intro catalog disk'' hfiles' htracks'
  refine safe_archiveResult ⟨_, htracks', Or.inr ?_, ?_⟩ deletedBytes
  · exact hfiles'.copyCommitted hcopy' (Or.inr rfl)
  · exact revalidated_of_ne (commit_ne_unlink catalog true)

/-- **The deletion** unlinks the source of a copy that validates, or finds it deleted. -/
theorem safe_deleteSource (h : ArchiveTracks identity disk row)
    (hstate : row.state = .localDeletePending)
    (hsource : SourceHeld identity stored disk row ∨ CopyCommitted lib target identity disk row)
    (hlast : ∀ path, last ≠ some (.unlinkInternal path))
    (hexternal : validateExternalCommit lib target identity disk = .ok ()) :
    Durable.wp ArchiveWrite.apply
      (fun _ last disk => ArchiveTracks identity disk row ∧
        CopyCommitted lib target identity disk row ∧ ∀ path, last ≠ some (.unlinkInternal path))
      (fun _ => ArchiveSafe lib target identity stored)
      (ArchiveSafe lib target identity stored) (deleteSource lib row) last disk := by
  have hsafe : ArchiveSafe lib target identity stored last disk :=
    ⟨row, h, hsource, revalidated_of_ne hlast⟩
  have hfiles := validateExternalFiles_of_commit hexternal
  unfold deleteSource
  simp only [Durable.wp_bind, Durable.wp_look, congrArg ArchiveIdentity.sourceRelativePath h.same]
  split
  · next habsent => exact ⟨h, ⟨habsent, Or.inl hstate, hfiles⟩, hlast⟩
  · next bytes hbytes =>
    simp only [Durable.wp_bind, wp_archiveCheck]
    split
    · exact hsafe
    · have hgone := ArchiveWrite.apply_unlinkInternal hbytes
      have htracks : ArchiveTracks identity
          ((ArchiveWrite.unlinkInternal identity.sourceRelativePath).apply disk) row :=
        h.of_catalog (by rw [hgone])
      have hcopy : CopyCommitted lib target identity
          ((ArchiveWrite.unlinkInternal identity.sourceRelativePath).apply disk) row := by
        rw [hgone]
        exact ⟨by simp, Or.inl hstate, hfiles⟩
      refine ⟨hsafe, ⟨row, htracks, Or.inr hcopy, ?_⟩, htracks.of_catalog rfl,
        hcopy, by rintro path ⟨⟩⟩
      intro path hpath
      cases hpath
      refine ⟨rfl, hstate, ?_⟩
      rw [hgone]
      exact hexternal

include hmarket hstream hdeletedAt in
theorem safe_advanceDeletePending (h : ArchiveTracks identity disk row)
    (hstate : row.state = .localDeletePending)
    (hsource : SourceHeld identity stored disk row ∨ CopyCommitted lib target identity disk row)
    (hlast : ∀ path, last ≠ some (.unlinkInternal path)) :
    Safe lib target identity stored
      (advanceDeletePending lib target identity.transactionId clock) last disk := by
  have hsafe : ArchiveSafe lib target identity stored last disk :=
    ⟨row, h, hsource, revalidated_of_ne hlast⟩
  unfold Safe advanceDeletePending
  simp only [Durable.wp_bind, wp_archiveCheck, h.required, h.same]
  split
  · exact hsafe
  next hexternal =>
  refine Durable.wp_mono (safe_deleteSource h hstate hsource hlast hexternal) ?_
    (fun _ _ _ h => h) fun _ _ h => h
  rintro deletedBytes last' disk' ⟨htracks, hcopy, hlast'⟩
  have hrest := @safe_recordDeletion lib target identity stored row last' disk' clock hmarket
    hstream hdeletedAt htracks hstate hcopy hlast' deletedBytes
  simpa only [Safe, Durable.wp_bind] using hrest

include hmarket hstream hdeletedAt in
theorem safe_advanceVerified (h : BeforeDeletion identity stored row last disk)
    (hstate : row.state = .verified) :
    Safe lib target identity stored (advanceVerified lib target identity.transactionId clock) last
      disk := by
  obtain ⟨htracks, hheld, hlast⟩ := h
  obtain ⟨verifiedAt, hverified, hpos⟩ := htracks.verified (by rw [hstate])
  have htime : rowVerifiedAt row = .ok verifiedAt := by
    simp [rowVerifiedAt, hverified, not_lt.mpr hpos]
  unfold Safe advanceVerified
  simp only [Durable.wp_bind, wp_archiveCheck, htracks.required, htime]
  refine htracks.wp_archivedMetric hstate hmarket hstream hpos
    (BeforeDeletion.safe ⟨htracks, hheld, hlast⟩) ?_
  intro last' disk' hfiles htracks' hone hcases
  have hheld' := hfiles.sourceHeld hheld hheld.2
  have hlast' : ∀ path, last' ≠ some (.unlinkInternal path) := by
    rcases hcases with rfl | ⟨catalog, rfl⟩
    · exact hlast
    · exact commit_ne_unlink catalog false
  refine htracks'.wp_transition true (by rw [hstate]; decide) (by simp)
    (fun _ => hone) (by rintro ⟨⟩)
    (BeforeDeletion.safe ⟨htracks', hheld', hlast'⟩) ?_
  intro catalog disk'' hfiles' htracks''
  exact safe_advanceDeletePending hmarket hstream hdeletedAt htracks'' rfl
    (Or.inl (hfiles'.sourceHeld hheld' (by rintro ⟨⟩))) (commit_ne_unlink catalog true)

include hmarket hstream hdeletedAt in
theorem safe_advanceVerifying (h : BeforeDeletion identity stored row last disk)
    (hstate : row.state = .verifying) :
    Safe lib target identity stored (advanceVerifying lib target identity.transactionId clock) last
      disk := by
  refine safe_bind h (keeps_archiveCheck _) fun found last disk h => ?_
  refine safe_bind h (offTarget_beforeDeletion.verifyAndCommitExternal lib target _ _)
    fun document last disk h => ?_
  unfold Safe
  simp only [Durable.wp_bind, wp_archiveCheck]
  split
  · exact h.safe
  next verifiedAt hverifiedAt =>
  have hpos : 0 ≤ verifiedAt := by
    unfold requiredInt at hverifiedAt
    split at hverifiedAt
    · split at hverifiedAt
      · cases hverifiedAt
      · next hnonneg =>
        cases Except.ok.inj hverifiedAt
        omega
    · cases hverifiedAt
  refine h.1.wp_transition false (by rw [hstate]; decide) ⟨verifiedAt, rfl, hpos⟩
    (by rintro ⟨⟩) (by rintro ⟨⟩)
    h.safe ?_
  intro catalog disk' hfiles htracks
  exact safe_advanceVerified hmarket hstream hdeletedAt
    ⟨htracks, hfiles.sourceHeld h.2.1 (by rintro ⟨⟩), commit_ne_unlink catalog false⟩ rfl

include hmarket hstream hdeletedAt in
theorem safe_advanceCopying (h : BeforeDeletion identity stored row last disk)
    (hstate : row.state = .copying) :
    Safe lib target identity stored (advanceCopying lib target identity.transactionId clock) last
      disk := by
  refine safe_bind h (keeps_archiveCheck _) fun found last disk h => ?_
  refine safe_bind h (offTarget_beforeDeletion.copyArtifact lib _) fun _ last disk h => ?_
  unfold Safe
  rw [Durable.wp_bind]
  refine h.1.wp_transition false (by rw [hstate]; decide) (by simp) (by rintro ⟨⟩)
    (by rintro ⟨⟩) h.safe ?_
  intro catalog disk' hfiles htracks
  exact safe_advanceVerifying hmarket hstream hdeletedAt
    ⟨htracks, hfiles.sourceHeld h.2.1 (by rintro ⟨⟩), commit_ne_unlink catalog false⟩ rfl

include hmarket hstream hdeletedAt in
/-- **An attempt** is safe wherever it stops. -/
theorem safe_advance (h : ArchiveSafe lib target identity stored none disk) :
    Safe lib target identity stored (advance lib target identity.transactionId clock)
      none disk := by
  obtain ⟨row, htracks, hsource, hlast⟩ := h
  have hbefore : row.state ≠ .localDeletePending → row.state ≠ .localDeleted →
      BeforeDeletion identity stored row none disk := by
    intro hpending hdeleted
    refine ⟨htracks, hsource.resolve_right fun hcopy => ?_, by rintro path ⟨⟩⟩
    exact hcopy.2.1.elim hpending hdeleted
  unfold Safe advance
  simp only [Durable.wp_bind, wp_archiveCheck, htracks.required]
  cases hstate : row.state with
  | copying =>
    exact safe_advanceCopying hmarket hstream hdeletedAt
      (hbefore (by rw [hstate]; decide) (by rw [hstate]; decide)) hstate
  | verifying =>
    exact safe_advanceVerifying hmarket hstream hdeletedAt
      (hbefore (by rw [hstate]; decide) (by rw [hstate]; decide)) hstate
  | verified =>
    exact safe_advanceVerified hmarket hstream hdeletedAt
      (hbefore (by rw [hstate]; decide) (by rw [hstate]; decide)) hstate
  | localDeletePending =>
    exact safe_advanceDeletePending hmarket hstream hdeletedAt htracks hstate hsource
      (by rintro path ⟨⟩)
  | localDeleted => exact safe_archiveResult ⟨row, htracks, hsource, hlast⟩ 0

end

end MarketDataRecorder
