import MarketDataRecorder.Archive.SourceSafety
import MarketDataRecorder.Archive.Target

/-!
# Archiving comes to its end

On a target that keeps what the attempts published, every attempt finds the files in a state that
its branch expects, and goes on from there: to the end, if the target is there and a temporary copy
that it finds is exact. A temporary copy that is not exact is removed, and the attempt behind that
comes to the end.
-/

namespace MarketDataRecorder

/-! ## What is archived -/

section

variable (lib : ArchiveLibrary) (target : ArchiveTarget) (identity : ArchiveIdentity)

def Exact (bytes : Bytes) : Prop :=
  (bytes.length : Int) = identity.storedBytes ∧ lib.sha256Hex bytes = identity.storedSha256

/-- The paths on the target. -/
def targetPaths : List String :=
  [identity.targetRelativePath, identity.targetTempRelativePath,
   identity.externalManifestRelativePath, manifestPartialPath identity]

/-- The temporary copy, where it is all there is, is exact. -/
def TemporaryExact (disk : ArchiveDisk) (row : ArchiveTransaction) : Prop :=
  row.state = .verifying → disk.external.get? identity.targetRelativePath = none →
    ∀ bytes, disk.external.get? identity.targetTempRelativePath = some bytes →
      Exact lib identity bytes

/-- What is written is read back: the pieces of a file, and the documents of an archive. -/
structure ReadsBack (rawBytes : Bytes) (raw : Value) : Prop where
  flatten : ∀ bytes, (lib.pieces bytes).flatten = bytes
  base64 : lib.b64decode (lib.b64encode rawBytes) = some rawBytes
  json : ∀ verifiedAt, 0 ≤ verifiedAt →
    lib.loads (lib.dumps (externalDocument lib target identity rawBytes raw verifiedAt)) =
      some (externalDocument lib target identity rawBytes raw verifiedAt)

/-- What a reservation has found and named. -/
structure ArchiveSource where
  stored : Bytes
  rawBytes : Bytes
  raw : Value
  loads : lib.loads rawBytes = some raw
  isDict : raw.isDict = true
  manifestHash : lib.sha256Hex rawBytes = identity.sourceManifestSha256
  rawValid : validateRawManifest raw identity.chunkId (.int identity.storedBytes)
    (.str identity.storedSha256) = .ok ()
  sealed : validateSealedArtifact lib (some stored) raw = .ok ()
  exact : Exact lib identity stored
  market : identity.market ≠ ""
  stream : identity.stream ≠ ""
  manifest_ne : identity.sourceManifestRelativePath ≠ identity.sourceRelativePath
  nodup : (targetPaths identity).Nodup
  reads : ReadsBack lib target identity rawBytes raw

end

namespace ArchiveSource

variable {lib : ArchiveLibrary} {target : ArchiveTarget} {identity : ArchiveIdentity}
  (source : ArchiveSource lib target identity)

def document (verifiedAt : Int) : Value :=
  externalDocument lib target identity source.rawBytes source.raw verifiedAt

/-- The source and its manifest are there. -/
def Present (disk : ArchiveDisk) : Prop :=
  disk.internal.get? identity.sourceRelativePath = some source.stored ∧
    disk.internal.get? identity.sourceManifestRelativePath = some source.rawBytes

/-- The artifact and its external manifest are there. -/
def Published (disk : ArchiveDisk) (verifiedAt : Int) : Prop :=
  0 ≤ verifiedAt ∧
    (∃ bytes, disk.external.get? identity.targetRelativePath = some bytes ∧
      Exact lib identity bytes) ∧
    disk.external.get? identity.externalManifestRelativePath =
      some (lib.dumps (source.document verifiedAt))

/-! ## The checks -/

variable {source} {disk : ArchiveDisk}

theorem validateExternalArtifact_eq_ok {path : String} {bytes : Bytes} :
    validateExternalArtifact lib identity path (some bytes) = .ok () ↔
      Exact lib identity bytes := by
  unfold validateExternalArtifact Exact
  simp only
  split
  · next hsize => simp [hsize]
  · next hsize =>
    split
    · next hhash => simp [hhash]
    · next hhash => simp [not_not.mp hsize, not_not.mp hhash]

theorem Present.validateSourceBundle (h : source.Present disk) :
    validateSourceBundle lib identity disk = .ok () := by
  unfold MarketDataRecorder.validateSourceBundle
  simp only [h.1, h.2, loadJsonBytes, source.loads, source.isDict, if_true]
  show (if lib.sha256Hex source.rawBytes ≠ identity.sourceManifestSha256 then _ else _) = _
  rw [if_neg (not_not.mpr source.manifestHash)]
  show (validateRawManifest _ _ _ _ >>= fun _ => _) = _
  rw [source.rawValid]
  exact source.sealed

theorem validateSourceStoredIdentity_stored (source : ArchiveSource lib target identity) :
    validateSourceStoredIdentity lib identity (some source.stored) = .ok () := by
  simp [validateSourceStoredIdentity, source.exact.1, source.exact.2]

theorem get?_document_stable (source : ArchiveSource lib target identity) (verifiedAt : Int) :
    ∀ field ∈ stableFields target identity,
      (source.document verifiedAt).get? field.1 = some field.2 := by
  intro field hfield
  simp only [stableFields, List.mem_cons, List.not_mem_nil, or_false] at hfield
  rcases hfield with rfl | rfl | rfl | rfl | rfl | rfl | rfl | rfl | rfl | rfl <;> rfl

/-- **A document of this archive** passes the check of an external manifest. -/
theorem validateExternalManifest_document (source : ArchiveSource lib target identity)
    {verifiedAt : Int} (hpos : 0 ≤ verifiedAt) :
    validateExternalManifest lib target identity (source.document verifiedAt) = .ok () := by
  have hfields : mismatches (source.document verifiedAt) (stableFields target identity) = [] := by
    rw [mismatches, List.map_eq_nil_iff, List.filter_eq_nil_iff]
    intro field hfield
    simpa using source.get?_document_stable verifiedAt field hfield
  have hembedded : validateEmbeddedManifest lib (source.document verifiedAt) = .ok () := by
    have hraw : (source.document verifiedAt).get? "raw_manifest" = some source.raw := rfl
    have hencoded : (source.document verifiedAt).get? "raw_manifest_bytes_base64" =
        some (.str (lib.b64encode source.rawBytes)) := rfl
    have hhash : (source.document verifiedAt).get? "source_manifest_sha256" =
        some (.str identity.sourceManifestSha256) := rfl
    rw [validateEmbeddedManifest, hencoded, hraw]
    simp only [source.isDict, source.reads.base64, source.loads, hhash, source.manifestHash]
    simp
  have htime : validateVerificationTime (source.document verifiedAt) = .ok () := by
    have hget : (source.document verifiedAt).get? "verified_at_utc_ns" = some (.int verifiedAt) :=
      rfl
    rw [validateVerificationTime, hget]
    simp only
    rw [if_neg (not_lt.mpr hpos)]
  have hevidence : (source.document verifiedAt).get? "verification" = some verificationEvidence :=
    rfl
  unfold validateExternalManifest
  rw [hfields]
  show (validateEmbeddedManifest lib (source.document verifiedAt) >>= fun _ => _) = _
  rw [hembedded]
  show (if (source.document verifiedAt).get? "verification" ≠ some verificationEvidence then
      .error "external manifest lacks complete verification evidence"
    else validateVerificationTime (source.document verifiedAt)) = .ok ()
  rw [if_neg (not_not.mpr hevidence)]
  exact htime

theorem Published.loadJsonBytes {verifiedAt : Int} (h : source.Published disk verifiedAt)
    (path : String) :
    loadJsonBytes lib path (some (lib.dumps (source.document verifiedAt))) =
      .ok (lib.dumps (source.document verifiedAt), source.document verifiedAt) := by
  have hloads : lib.loads (lib.dumps (source.document verifiedAt)) =
      some (source.document verifiedAt) := source.reads.json verifiedAt h.1
  rw [MarketDataRecorder.loadJsonBytes]
  simp only [hloads]
  rfl

/-- What is published passes the check of an external commit. -/
theorem Published.validateExternalFiles {verifiedAt : Int} (h : source.Published disk verifiedAt) :
    validateExternalFiles lib target identity disk = .ok () := by
  obtain ⟨bytes, hbytes, hexact⟩ := h.2.1
  unfold MarketDataRecorder.validateExternalFiles
  rw [hbytes, validateExternalArtifact_eq_ok.mpr hexact]
  show (MarketDataRecorder.loadJsonBytes lib _ (disk.external.get? _) >>= _) = _
  rw [h.2.2, h.loadJsonBytes]
  exact source.validateExternalManifest_document h.1

/-! ## The steps on the target -/

theorem Present.of_apart {paths : List String} {disk' : ArchiveDisk} (h : source.Present disk)
    (hapart : Apart paths disk disk') : source.Present disk' := by
  unfold Present
  rw [hapart.internal]
  exact h

section

variable {R : String → Option ArchiveWrite → ArchiveDisk → Prop}
  {C : Option ArchiveWrite → ArchiveDisk → Prop} {last : Option ArchiveWrite}

/-- Where the target is not there, nothing happens. -/
theorem wp_validateTargetIdentity {Q : Unit → Option ArchiveWrite → ArchiveDisk → Prop}
    (hR : disk.targetValid = false → ∀ e, R e last disk)
    (hQ : disk.targetValid = true → Q () last disk) :
    Durable.wp ArchiveWrite.apply Q R C (archiveCheck validateTargetIdentity) last disk := by
  rw [wp_archiveCheck, validateTargetIdentity]
  cases hvalid : disk.targetValid with
  | false => exact hR hvalid _
  | true => exact hQ hvalid

/-- A copy without an artifact gives an exact temporary file. -/
theorem wp_copyArtifact {Q : Unit → Option ArchiveWrite → ArchiveDisk → Prop}
    (h : source.Present disk) (hnone : disk.external.get? identity.targetRelativePath = none)
    (hR : disk.targetValid = false → ∀ e, R e last disk)
    (hC : ∀ last' disk', Apart [identity.targetTempRelativePath] disk disk' → C last' disk')
    (hQ : ∀ last' disk', Apart [identity.targetTempRelativePath] disk disk' →
      disk'.external.get? identity.targetTempRelativePath = some source.stored →
        disk.targetValid = true → Q () last' disk') :
    Durable.wp ArchiveWrite.apply Q R C (copyArtifact lib identity) last disk := by
  unfold copyArtifact
  rw [Durable.wp_bind]
  refine wp_validateTargetIdentity hR fun hvalid => ?_
  rw [Durable.wp_bind, wp_archiveCheck, h.validateSourceBundle]
  simp only [Durable.wp_bind, Durable.wp_look, hnone, h.1, Option.getD_some]
  have hwrite := @wp_writeFile Q R C last disk identity.targetTempRelativePath
    (lib.pieces source.stored) hC fun last' disk' hapart hbytes =>
      hQ last' disk' hapart (by rw [hbytes, source.reads.flatten]) hvalid
  simpa only [Durable.wp_bind] using hwrite

theorem validateExternalArtifact_error {path : String} {bytes : Bytes}
    (h : ¬ Exact lib identity bytes) :
    ∃ e, validateExternalArtifact lib identity path (some bytes) = .error e := by
  cases hcheck : validateExternalArtifact lib identity path (some bytes) with
  | error e => exact ⟨e, rfl⟩
  | ok a => exact absurd (validateExternalArtifact_eq_ok.mp hcheck) h

/-- The readback lets an exact temporary file through, and removes another one. -/
theorem wp_verifyTemporary {Q : Unit → Option ArchiveWrite → ArchiveDisk → Prop} {bytes : Bytes}
    (hbytes : disk.external.get? identity.targetTempRelativePath = some bytes)
    (hC : C last disk)
    (hR : ¬ Exact lib identity bytes → ∀ e last' disk',
      Apart [identity.targetTempRelativePath] disk disk' →
        disk'.external.get? identity.targetTempRelativePath = none → R e last' disk')
    (hQ : Exact lib identity bytes → Q () last disk) :
    Durable.wp ArchiveWrite.apply Q R C (verifyTemporary lib identity) last disk := by
  unfold verifyTemporary
  rw [Durable.wp_read, hbytes]
  by_cases hexact : Exact lib identity bytes
  · rw [validateExternalArtifact_eq_ok.mpr hexact]
    exact hQ hexact
  · obtain ⟨e, he⟩ := @validateExternalArtifact_error lib identity identity.targetTempRelativePath
      bytes hexact
    rw [he]
    simp only [Durable.wp_bind]
    exact wp_unlinkIfThere hC fun last' disk' hapart habsent =>
      hR hexact e last' disk' hapart habsent

/-- **The artifact** is there at the end, or a temporary file that is not exact is not. -/
theorem wp_commitArtifact {Q : Unit → Option ArchiveWrite → ArchiveDisk → Prop}
    (h : source.Present disk)
    (hartifact : ∀ bytes, disk.external.get? identity.targetRelativePath = some bytes →
      Exact lib identity bytes)
    (hvalid : disk.targetValid = true)
    (hR : disk.external.get? identity.targetRelativePath = none → ∀ bytes,
      disk.external.get? identity.targetTempRelativePath = some bytes → ¬ Exact lib identity bytes →
        ∀ e last' disk', Apart [identity.targetTempRelativePath] disk disk' →
          disk'.external.get? identity.targetTempRelativePath = none → R e last' disk')
    (hC : ∀ last' disk', Apart [identity.targetTempRelativePath] disk disk' → C last' disk')
    (hQ : ∀ last' disk',
      Apart [identity.targetRelativePath, identity.targetTempRelativePath] disk disk' →
        (∃ bytes, disk'.external.get? identity.targetRelativePath = some bytes ∧
          Exact lib identity bytes) →
        (disk.external.get? identity.targetRelativePath = none → ∀ bytes,
          disk.external.get? identity.targetTempRelativePath = some bytes →
            Exact lib identity bytes) → Q () last' disk') :
    Durable.wp ArchiveWrite.apply Q R C (commitArtifact lib identity) last disk := by
  have hne : identity.targetRelativePath ≠ identity.targetTempRelativePath := by
    have hnodup := source.nodup
    simp only [targetPaths, List.nodup_cons, List.mem_cons, not_or] at hnodup
    exact hnodup.1.1
  unfold commitArtifact
  rw [Durable.wp_bind, Durable.wp_look]
  cases hthere : disk.external.get? identity.targetRelativePath with
  | some bytes =>
    have hexact := hartifact bytes hthere
    simp only [Durable.wp_bind, wp_archiveCheck, validateExternalArtifact_eq_ok.mpr hexact]
    refine wp_unlinkIfThere (hC last disk Apart.refl) fun last' disk' hapart _ => ?_
    refine hQ last' disk' (hapart.mono (by simp)) ⟨bytes, ?_, hexact⟩ fun hnone => ?_
    · rw [hapart.get? (by simpa using hne)]
      exact hthere
    · cases hthere.symm.trans hnone
  | none =>
    -- the rename of a temporary file that is exact
    have hrename : ∀ last' disk' bytes, Apart [identity.targetTempRelativePath] disk disk' →
        disk'.external.get? identity.targetTempRelativePath = some bytes →
          (¬ Exact lib identity bytes →
            disk.external.get? identity.targetTempRelativePath = some bytes) →
          (∀ bytes', disk.external.get? identity.targetTempRelativePath = some bytes' →
            bytes' = bytes) →
          Durable.wp ArchiveWrite.apply Q R C (verifyTemporary lib identity >>= fun _ =>
            .perform (.renameExternal identity.targetTempRelativePath
              identity.targetRelativePath)) last' disk' := by
      intro last' disk' bytes hapart hbytes hfound honly
      rw [Durable.wp_bind]
      refine wp_verifyTemporary hbytes (hC last' disk' hapart) ?_ fun hexact => ?_
      · intro hbad e last'' disk'' hapart' habsent
        exact hR hthere bytes (hfound hbad) hbad e last'' disk'' (hapart.trans hapart') habsent
      · obtain ⟨hmove, hmoved⟩ := @apart_rename disk' identity.targetRelativePath
          identity.targetTempRelativePath bytes hbytes
        refine ⟨hC last' disk' hapart, hQ _ _ ((hapart.mono (by simp)).trans hmove)
          ⟨bytes, hmoved, hexact⟩ fun _ bytes' hbytes' => ?_⟩
        rw [honly bytes' hbytes']
        exact hexact
    dsimp only
    cases htemp : disk.external.get? identity.targetTempRelativePath with
    | some bytes =>
      rw [if_neg (by simp)]
      refine hrename last disk bytes Apart.refl htemp (fun _ => htemp) fun bytes' hbytes' => ?_
      exact Option.some.inj (hbytes'.symm.trans htemp)
    | none =>
      rw [if_pos (by simp), Durable.wp_bind]
      refine wp_copyArtifact h hthere (fun hc => absurd hc (by simp [hvalid])) hC ?_
      intro last' disk' hapart hbytes _
      refine hrename last' disk' source.stored hapart hbytes
        (fun hbad => absurd source.exact hbad) ?_
      intro bytes' hbytes'
      cases htemp.symm.trans hbytes'

/-- **The external manifest** is there at the end; a published one stays. -/
theorem wp_commitManifest {Q : Value → Option ArchiveWrite → ArchiveDisk → Prop}
    {verifiedAt : Int} (hpos : 0 ≤ verifiedAt) (h : source.Present disk)
    (hmanifest : disk.external.get? identity.externalManifestRelativePath = none ∨
      ∃ time, source.Published disk time)
    (hC : ∀ last' disk', Apart [manifestPartialPath identity] disk disk' → C last' disk')
    (hQ : ∀ last' disk' time, 0 ≤ time →
      Apart [identity.externalManifestRelativePath, manifestPartialPath identity] disk disk' →
        disk'.external.get? identity.externalManifestRelativePath =
          some (lib.dumps (source.document time)) →
        (∀ bytes, disk.external.get? identity.externalManifestRelativePath = some bytes →
          disk'.external.get? identity.externalManifestRelativePath = some bytes) →
            Q (source.document time) last' disk') :
    Durable.wp ArchiveWrite.apply Q R C (commitManifest lib target identity verifiedAt) last
      disk := by
  have hraw : loadJsonBytes lib identity.sourceManifestRelativePath
      (disk.internal.get? identity.sourceManifestRelativePath) =
        .ok (source.rawBytes, source.raw) := by
    simp [MarketDataRecorder.loadJsonBytes, h.2, source.loads, source.isDict]
  unfold commitManifest
  simp only [Durable.wp_bind, wp_archiveCheck, hraw]
  rw [if_neg (not_not.mpr source.manifestHash)]
  simp only [Durable.wp_bind, Durable.wp_look]
  rcases hmanifest with hnone | ⟨time, hpublished⟩
  · simp only [hnone, Durable.wp_bind]
    have hwrite : Durable.wp ArchiveWrite.apply (fun _ last' disk' => C last' disk' ∧
        Q (source.document verifiedAt)
          (some (.renameExternal (manifestPartialPath identity)
            identity.externalManifestRelativePath))
          ((ArchiveWrite.renameExternal (manifestPartialPath identity)
            identity.externalManifestRelativePath).apply disk')) R C (do
          unlinkIfThere (manifestPartialPath identity)
          .perform (.createExternal (manifestPartialPath identity))
          appendPieces (manifestPartialPath identity)
            (lib.pieces (lib.dumps (source.document verifiedAt)))) last disk := by
      refine wp_writeFile hC fun last' disk' hapart hbytes => ⟨hC last' disk' hapart, ?_⟩
      obtain ⟨hmove, hmoved⟩ := @apart_rename disk' identity.externalManifestRelativePath
        (manifestPartialPath identity) _ hbytes
      refine hQ _ _ verifiedAt hpos ((hapart.mono (by simp)).trans hmove) ?_ ?_
      · rw [hmoved, source.reads.flatten]
      · intro bytes hbytes'
        rw [hnone] at hbytes'
        cases hbytes'
    simp only [Durable.wp_bind] at hwrite
    simp only [atomicJson, Durable.wp_bind, Durable.wp_perform, Durable.wp_pure]
    exact hwrite
  · have hload := hpublished.loadJsonBytes identity.externalManifestRelativePath
    simp only [hpublished.2.2, Durable.wp_bind, wp_archiveCheck, hload,
      source.validateExternalManifest_document hpublished.1]
    exact hQ last disk time hpublished.1 Apart.refl hpublished.2.2 fun _ hbytes => hbytes

end

/-! ## The files in each state -/

variable (source) in
/-- The target's files while they are verified. -/
def VerifyingFiles (disk : ArchiveDisk) : Prop :=
  (∀ bytes, disk.external.get? identity.targetRelativePath = some bytes →
    Exact lib identity bytes) ∧
    (disk.external.get? identity.externalManifestRelativePath = none ∨
      ∃ verifiedAt, source.Published disk verifiedAt)

variable (source) in
def TargetFiles (disk : ArchiveDisk) : ArchiveState → Prop
  | .copying =>
    disk.external.get? identity.targetRelativePath = none ∧
      disk.external.get? identity.externalManifestRelativePath = none
  | .verifying => source.VerifyingFiles disk
  | .verified | .localDeletePending | .localDeleted =>
    ∃ verifiedAt, source.Published disk verifiedAt

variable (source) in
def SourceFile (disk : ArchiveDisk) : ArchiveState → Prop
  | .copying | .verifying | .verified =>
    disk.internal.get? identity.sourceRelativePath = some source.stored
  | .localDeletePending =>
    disk.internal.get? identity.sourceRelativePath = some source.stored ∨
      disk.internal.get? identity.sourceRelativePath = none
  | .localDeleted => disk.internal.get? identity.sourceRelativePath = none

variable (source) in
/-- **A transaction on a target that keeps its files**; `manifest` is a published one. -/
structure Healthy (manifest : Option Bytes) (valid : Bool) (disk : ArchiveDisk)
    (row : ArchiveTransaction) : Prop where
  tracks : ArchiveTracks identity disk row
  rawManifest : disk.internal.get? identity.sourceManifestRelativePath = some source.rawBytes
  sourceFile : source.SourceFile disk row.state
  targetFiles : source.TargetFiles disk row.state
  kept : ∀ bytes, manifest = some bytes →
    disk.external.get? identity.externalManifestRelativePath = some bytes
  valid : disk.targetValid = valid

theorem Published.of_apart {paths : List String} {disk' : ArchiveDisk} {verifiedAt : Int}
    (h : source.Published disk verifiedAt) (hapart : Apart paths disk disk')
    (hartifact : identity.targetRelativePath ∉ paths)
    (hmanifest : identity.externalManifestRelativePath ∉ paths) :
    source.Published disk' verifiedAt := by
  refine ⟨h.1, ?_, ?_⟩
  · rw [hapart.get? hartifact]
    exact h.2.1
  · rw [hapart.get? hmanifest]
    exact h.2.2

theorem VerifyingFiles.of_apart {paths : List String} {disk' : ArchiveDisk}
    (h : source.VerifyingFiles disk) (hapart : Apart paths disk disk')
    (hartifact : identity.targetRelativePath ∉ paths)
    (hmanifest : identity.externalManifestRelativePath ∉ paths) :
    source.VerifyingFiles disk' := by
  constructor
  · rw [hapart.get? hartifact]
    exact h.1
  · rw [hapart.get? hmanifest]
    rcases h.2 with hnone | ⟨verifiedAt, hpublished⟩
    · exact Or.inl hnone
    · exact Or.inr ⟨verifiedAt, hpublished.of_apart hapart hartifact hmanifest⟩

/-- The four paths of an archive differ. -/
theorem paths_ne (source : ArchiveSource lib target identity) :
    identity.targetRelativePath ≠ identity.targetTempRelativePath ∧
      identity.targetRelativePath ≠ identity.externalManifestRelativePath ∧
      identity.targetRelativePath ≠ manifestPartialPath identity ∧
      identity.targetTempRelativePath ≠ identity.externalManifestRelativePath ∧
      identity.externalManifestRelativePath ≠ manifestPartialPath identity := by
  have hnodup := source.nodup
  simp only [targetPaths, List.nodup_cons, List.mem_cons, List.not_mem_nil, or_false,
    not_or] at hnodup
  exact ⟨hnodup.1.1, hnodup.1.2.1, hnodup.1.2.2, hnodup.2.1.1, hnodup.2.2.1⟩

/-- **`_verify_and_commit_external`** publishes, where the temporary copy is exact. -/
theorem wp_verifyAndCommitExternal {Q : Value → Option ArchiveWrite → ArchiveDisk → Prop}
    {R : String → Option ArchiveWrite → ArchiveDisk → Prop}
    {C : Option ArchiveWrite → ArchiveDisk → Prop} {last : Option ArchiveWrite} {verifiedAt : Int}
    (hpos : 0 ≤ verifiedAt) (h : source.Present disk) (hfiles : source.VerifyingFiles disk)
    (hinvalid : disk.targetValid = false → ∀ e, R e last disk)
    (hreject : disk.external.get? identity.targetRelativePath = none → ∀ bytes,
      disk.external.get? identity.targetTempRelativePath = some bytes → ¬ Exact lib identity bytes →
        ∀ e last' disk', Apart [identity.targetTempRelativePath] disk disk' →
          disk'.external.get? identity.targetTempRelativePath = none → R e last' disk')
    (hC : ∀ last' disk', Apart (targetPaths identity) disk disk' → source.VerifyingFiles disk' →
      disk'.external.get? identity.externalManifestRelativePath =
        disk.external.get? identity.externalManifestRelativePath → C last' disk')
    (hQ : ∀ last' disk' time, Apart (targetPaths identity) disk disk' →
      source.Published disk' time →
        (∀ bytes, disk.external.get? identity.externalManifestRelativePath = some bytes →
          disk'.external.get? identity.externalManifestRelativePath = some bytes) →
        (disk.external.get? identity.targetRelativePath = none → ∀ bytes,
          disk.external.get? identity.targetTempRelativePath = some bytes →
            Exact lib identity bytes) → Q (source.document time) last' disk') :
    Durable.wp ArchiveWrite.apply Q R C
      (verifyAndCommitExternal lib target identity verifiedAt) last disk := by
  obtain ⟨hne, hne', hne'', hne₃, hne₄⟩ := source.paths_ne
  unfold verifyAndCommitExternal
  rw [Durable.wp_bind]
  refine wp_validateTargetIdentity hinvalid fun hvalid => ?_
  rw [Durable.wp_bind, wp_archiveCheck, h.validateSourceBundle]
  simp only [Durable.wp_bind]
  refine wp_commitArtifact h hfiles.1 hvalid hreject ?_ ?_
  · intro last' disk' hapart
    refine hC last' disk' (hapart.mono (by simp [targetPaths])) ?_ ?_
    · exact hfiles.of_apart hapart (by simpa using hne) (by simpa using hne₃.symm)
    · exact hapart.get? (by simpa using hne₃.symm)
  · rintro last' disk' hapart ⟨bytes, hbytes, hexact⟩ htemp
    have hsame := @Apart.get? _ _ _ hapart identity.externalManifestRelativePath
      (by simpa using ⟨hne'.symm, hne₃.symm⟩)
    have hfiles' : source.VerifyingFiles disk' := by
      constructor
      · intro bytes' hbytes'
        cases hbytes.symm.trans hbytes'
        exact hexact
      · rw [hsame]
        rcases hfiles.2 with hnone | ⟨time, hpublished⟩
        · exact Or.inl hnone
        · refine Or.inr ⟨time, hpublished.1, ⟨bytes, hbytes, hexact⟩, ?_⟩
          rw [hsame]
          exact hpublished.2.2
    refine wp_commitManifest hpos (h.of_apart hapart) hfiles'.2 ?_ ?_
    · intro last'' disk'' hapart'
      refine hC last'' disk'' ?_ ?_ ?_
      · exact (hapart.mono (by simp [targetPaths])).trans (hapart'.mono (by simp [targetPaths]))
      · exact hfiles'.of_apart hapart' (by simpa using hne'') (by simpa using hne₄)
      · rw [hapart'.get? (by simpa using hne₄), hsame]
    · intro last'' disk'' time htime hapart' hmanifest hkept
      refine hQ last'' disk'' time ?_ ⟨htime, ⟨bytes, ?_, hexact⟩, hmanifest⟩ ?_ htemp
      · exact (hapart.mono (by simp [targetPaths])).trans (hapart'.mono (by simp [targetPaths]))
      · rw [hapart'.get? (by simpa using ⟨hne', hne''⟩)]
        exact hbytes
      · intro bytes' hbytes'
        exact hkept bytes' (hsame.trans hbytes')

/-! ## An attempt -/

section

variable (source) in
/-- A program comes to the end where it is `ok`; else it raises, as where the target
is not there. -/
def Converges (manifest : Option Bytes) (valid : Bool) (ok : Prop)
    (p : ArchiveProgram ArchiveResult) (last : Option ArchiveWrite) (disk : ArchiveDisk) : Prop :=
  Durable.wp ArchiveWrite.apply
    (fun result _ disk => ok ∧ result.state = .localDeleted ∧
      ∃ row, source.Healthy manifest valid disk row ∧ row.state = .localDeleted)
    (fun _ _ disk => ∃ row, source.Healthy manifest valid disk row ∧
      (valid = true → ¬ ok ∧ TemporaryExact lib identity disk row))
    (fun _ disk => ∃ row, source.Healthy manifest valid disk row) p last disk

variable {manifest : Option Bytes} {valid : Bool} {ok : Prop} {row : ArchiveTransaction}
  {last : Option ArchiveWrite} {clock : ArchiveClock}

theorem VerifyingFiles.congr {disk' : ArchiveDisk} (h : source.VerifyingFiles disk)
    (heq : disk'.external = disk.external) : source.VerifyingFiles disk' := by
  unfold VerifyingFiles Published
  rw [heq]
  exact h

theorem TargetFiles.congr {disk' : ArchiveDisk} {state : ArchiveState}
    (h : source.TargetFiles disk state) (heq : disk'.external = disk.external) :
    source.TargetFiles disk' state := by
  cases state with
  | copying =>
    unfold TargetFiles
    rw [heq]
    exact h
  | verifying => exact VerifyingFiles.congr h heq
  | verified | localDeletePending | localDeleted =>
    unfold TargetFiles Published
    rw [heq]
    exact h

theorem SourceFile.congr {disk' : ArchiveDisk} {state : ArchiveState}
    (h : source.SourceFile disk state) (heq : disk'.internal = disk.internal) :
    source.SourceFile disk' state := by
  cases state <;> (unfold SourceFile; rw [heq]; exact h)

/-- A step in the Catalog, to a state that the files are ready for. -/
theorem Healthy.of_sameFiles {disk' : ArchiveDisk} {row' : ArchiveTransaction}
    (h : source.Healthy manifest valid disk row) (hfiles : SameFiles disk disk')
    (htracks : ArchiveTracks identity disk' row') (hsource : source.SourceFile disk row'.state)
    (htarget : source.TargetFiles disk row'.state) : source.Healthy manifest valid disk' row' := by
  refine ⟨htracks, ?_, hsource.congr hfiles.internal, htarget.congr hfiles.external, ?_, ?_⟩
  · rw [hfiles.internal]
    exact h.rawManifest
  · rw [hfiles.external]
    exact h.kept
  · rw [hfiles.targetValid]
    exact h.valid

/-- A step on the target, to files that the state has. -/
theorem Healthy.of_apart {paths : List String} {disk' : ArchiveDisk}
    (h : source.Healthy manifest valid disk row) (hapart : Apart paths disk disk')
    (htarget : source.TargetFiles disk' row.state)
    (hkept : ∀ bytes, disk.external.get? identity.externalManifestRelativePath = some bytes →
      disk'.external.get? identity.externalManifestRelativePath = some bytes) :
    source.Healthy manifest valid disk' row := by
  refine ⟨h.tracks.of_catalog hapart.catalog, ?_, h.sourceFile.congr hapart.internal, htarget,
    fun bytes hbytes => hkept bytes (h.kept bytes hbytes), ?_⟩
  · rw [hapart.internal]
    exact h.rawManifest
  · rw [hapart.targetValid]
    exact h.valid

theorem converges_archiveResult (hok : ok) (h : source.Healthy manifest valid disk row)
    (hstate : row.state = .localDeleted) (deletedBytes : Int) :
    source.Converges manifest valid ok
      (archiveResult identity.transactionId deletedBytes) last disk := by
  unfold Converges archiveResult
  simp only [Durable.wp_bind, wp_archiveCheck, h.tracks.required, Durable.wp_pure]
  exact ⟨hok, hstate, row, h, hstate⟩

/-- The source goes. -/
theorem Healthy.unlinkInternal {bytes : Bytes} (h : source.Healthy manifest valid disk row)
    (hstate : row.state = .localDeletePending)
    (hfile : disk.internal.get? identity.sourceRelativePath = some bytes) :
    source.Healthy manifest valid
      ((ArchiveWrite.unlinkInternal identity.sourceRelativePath).apply disk) row ∧
      ((ArchiveWrite.unlinkInternal identity.sourceRelativePath).apply disk).internal.get?
        identity.sourceRelativePath = none := by
  rw [ArchiveWrite.apply_unlinkInternal hfile]
  refine ⟨⟨h.tracks.of_catalog rfl, ?_, ?_, h.targetFiles, h.kept, h.valid⟩, by simp⟩
  · simpa [source.manifest_ne] using h.rawManifest
  · rw [hstate]
    exact Or.inr (by simp)

variable (hdeletedAt : 0 ≤ clock.deletedAt)
include hdeletedAt

/-- With the source gone, the metric and the last transition are left. -/
theorem converges_recordDeletion (hok : ok) (h : source.Healthy manifest valid disk row)
    (hstate : row.state = .localDeletePending)
    (habsent : disk.internal.get? identity.sourceRelativePath = none) (deletedBytes : Int) :
    source.Converges manifest valid ok (do
      recordMetricBatch (deletedMetric row clock.deletedAt)
      commitArchive true fun tables =>
        tables.transitionArchive identity.transactionId .localDeleted
          (deletedKey identity.transactionId) (.dict [("source_absent", .bool true)]) none
          (some clock.deletedAt) clock.now
      archiveResult identity.transactionId deletedBytes) last disk := by
  unfold Converges
  rw [Durable.wp_bind]
  refine h.tracks.wp_deletedMetric hstate source.market source.stream hdeletedAt ⟨row, h⟩ ?_
  intro last' disk' hfiles htracks hone _
  have hhealthy := h.of_sameFiles hfiles htracks h.sourceFile h.targetFiles
  rw [Durable.wp_bind]
  refine htracks.wp_transition true (by rw [hstate]; decide) (by simp)
    (by rintro ⟨⟩) (fun _ => hone)
    ⟨row, hhealthy⟩ ?_
  intro catalog disk'' hfiles' htracks'
  have htarget := hhealthy.targetFiles
  rw [hstate] at htarget
  refine converges_archiveResult hok (hhealthy.of_sameFiles hfiles' htracks' ?_ htarget)
    rfl deletedBytes
  show disk'.internal.get? identity.sourceRelativePath = none
  rw [hfiles.internal]
  exact habsent

theorem converges_advanceDeletePending (hok : ok) (h : source.Healthy manifest valid disk row)
    (hstate : row.state = .localDeletePending) :
    source.Converges manifest valid ok
      (advanceDeletePending lib target identity.transactionId clock) last disk := by
  have htarget := h.targetFiles
  rw [hstate] at htarget
  obtain ⟨time, hpublished⟩ := htarget
  unfold Converges advanceDeletePending
  simp only [Durable.wp_bind, wp_archiveCheck, h.tracks.required, h.tracks.same]
  cases hvalid : disk.targetValid with
  | false =>
    have herror : validateExternalCommit lib target identity disk =
        .error "registered target identity unavailable" := by
      simp [validateExternalCommit, validateTargetIdentity, hvalid, bind, Except.bind]
    rw [herror]
    refine ⟨row, h, fun hc => ?_⟩
    rw [← h.valid, hvalid] at hc
    cases hc
  | true =>
    have hcommit : validateExternalCommit lib target identity disk = .ok () := by
      unfold validateExternalCommit
      rw [validateTargetIdentity, if_pos hvalid]
      exact hpublished.validateExternalFiles
    rw [hcommit]
    unfold deleteSource
    simp only [Durable.wp_bind, Durable.wp_look,
      congrArg ArchiveIdentity.sourceRelativePath h.tracks.same]
    cases hfile : disk.internal.get? identity.sourceRelativePath with
    | none =>
      have hrest := @converges_recordDeletion lib target identity source disk manifest valid ok row
        last clock hdeletedAt hok h hstate hfile 0
      simpa only [Converges, Durable.wp_bind, Durable.wp_pure] using hrest
    | some bytes =>
      have hsource := h.sourceFile
      rw [hstate] at hsource
      have hbytes : bytes = source.stored := by
        rcases hsource with hsource | hsource
        · exact Option.some.inj (hfile.symm.trans hsource)
        · cases hfile.symm.trans hsource
      subst hbytes
      simp only [Durable.wp_bind, wp_archiveCheck, h.tracks.same,
        source.validateSourceStoredIdentity_stored]
      have hunlinked := h.unlinkInternal hstate hfile
      have hsynced : source.Healthy manifest valid (ArchiveWrite.syncSealed.apply
          ((ArchiveWrite.unlinkInternal identity.sourceRelativePath).apply disk)) row :=
        ⟨hunlinked.1.tracks.of_catalog rfl, hunlinked.1.rawManifest, hunlinked.1.sourceFile,
          hunlinked.1.targetFiles, hunlinked.1.kept, hunlinked.1.valid⟩
      refine ⟨⟨row, h⟩, ⟨row, hunlinked.1⟩, ?_⟩
      have hrest := @converges_recordDeletion lib target identity source _ manifest valid ok row
        (some .syncSealed) clock hdeletedAt hok hsynced hstate hunlinked.2 identity.storedBytes
      simpa only [Converges, Durable.wp_bind, Durable.wp_pure, Durable.wp_ret] using hrest

theorem converges_advanceVerified (hok : ok) (h : source.Healthy manifest valid disk row)
    (hstate : row.state = .verified) :
    source.Converges manifest valid ok (advanceVerified lib target identity.transactionId clock)
      last disk := by
  obtain ⟨verifiedAt, hverified, hpos⟩ := h.tracks.verified (by rw [hstate])
  have htime : rowVerifiedAt row = .ok verifiedAt := by
    simp [rowVerifiedAt, hverified, not_lt.mpr hpos]
  unfold Converges advanceVerified
  simp only [Durable.wp_bind, wp_archiveCheck, h.tracks.required, htime]
  refine h.tracks.wp_archivedMetric hstate source.market source.stream hpos ⟨row, h⟩ ?_
  intro last' disk' hfiles htracks hone _
  have hhealthy := h.of_sameFiles hfiles htracks h.sourceFile h.targetFiles
  have hsource := hhealthy.sourceFile
  have htarget := hhealthy.targetFiles
  rw [hstate] at hsource htarget
  refine htracks.wp_transition true (by rw [hstate]; decide) (by simp)
    (fun _ => hone) (by rintro ⟨⟩)
    ⟨row, hhealthy⟩ ?_
  intro catalog disk'' hfiles' htracks'
  exact converges_advanceDeletePending hdeletedAt hok
    (hhealthy.of_sameFiles hfiles' htracks' (Or.inl hsource) htarget) rfl

variable (hverifiedAt : 0 ≤ clock.verifiedAt)
include hverifiedAt

theorem converges_advanceVerifying (h : source.Healthy manifest valid disk row)
    (hstate : row.state = .verifying) (hok : ok ↔ TemporaryExact lib identity disk row) :
    source.Converges manifest valid ok (advanceVerifying lib target identity.transactionId clock)
      last disk := by
  have hsource := h.sourceFile
  have htarget := h.targetFiles
  rw [hstate] at hsource htarget
  obtain ⟨-, -, -, hne, -⟩ := source.paths_ne
  unfold Converges advanceVerifying
  simp only [Durable.wp_bind, wp_archiveCheck, h.tracks.required, h.tracks.same]
  refine wp_verifyAndCommitExternal hverifiedAt ⟨hsource, h.rawManifest⟩ htarget ?_ ?_ ?_ ?_
  · intro hinvalid e
    refine ⟨row, h, fun hc => ?_⟩
    rw [← h.valid, hinvalid] at hc
    cases hc
  · intro hnone bytes hbytes hbad e last' disk' hapart habsent
    have hmanifest := @Apart.get? _ _ _ hapart identity.externalManifestRelativePath
      (by simpa using hne.symm)
    refine ⟨row, h.of_apart hapart ?_ (fun bytes hb => hmanifest.trans hb), fun _ => ⟨?_, ?_⟩⟩
    · rw [hstate]
      exact htarget.of_apart hapart (by simpa using source.paths_ne.1) (by simpa using hne.symm)
    · exact fun hc => hbad (hok.mp hc hstate hnone bytes hbytes)
    · intro _ _ bytes' hbytes'
      cases habsent.symm.trans hbytes'
  · intro last' disk' hapart hfiles hmanifest
    refine ⟨row, h.of_apart hapart ?_ fun bytes hb => hmanifest.trans hb⟩
    rw [hstate]
    exact hfiles
  · intro last' disk' time hapart hpublished hkept htemp
    have hget : requiredInt (source.document time) "verified_at_utc_ns" = .ok time := by
      have hfound : (source.document time).get? "verified_at_utc_ns" = some (.int time) := rfl
      rw [requiredInt, hfound]
      simp only
      rw [if_neg (not_lt.mpr hpublished.1)]
    have hhealthy : source.Healthy manifest valid disk' row := by
      refine h.of_apart hapart ?_ hkept
      rw [hstate]
      refine ⟨fun bytes hbytes => ?_, Or.inr ⟨time, hpublished⟩⟩
      obtain ⟨bytes', hbytes', hexact⟩ := hpublished.2.1
      cases hbytes.symm.trans hbytes'
      exact hexact
    have hsource' := hhealthy.sourceFile
    rw [hstate] at hsource'
    rw [hget]
    refine hhealthy.tracks.wp_transition false (by rw [hstate]; decide)
      ⟨time, rfl, hpublished.1⟩ (by rintro ⟨⟩) (by rintro ⟨⟩) ⟨row, hhealthy⟩ ?_
    intro catalog disk'' hfiles htracks
    exact converges_advanceVerified hdeletedAt (hok.mpr fun _ => htemp)
      (hhealthy.of_sameFiles hfiles htracks hsource' ⟨time, hpublished⟩) rfl

theorem converges_advanceCopying (hok : ok) (h : source.Healthy manifest valid disk row)
    (hstate : row.state = .copying) :
    source.Converges manifest valid ok (advanceCopying lib target identity.transactionId clock)
      last disk := by
  have hsource := h.sourceFile
  have htarget := h.targetFiles
  rw [hstate] at hsource htarget
  obtain ⟨hne, -, -, hne', -⟩ := source.paths_ne
  -- the temporary file is not one that the state speaks of
  have hcopied : ∀ disk', Apart [identity.targetTempRelativePath] disk disk' →
      source.Healthy manifest valid disk' row := by
    intro disk' hapart
    have hmanifest := @Apart.get? _ _ _ hapart identity.externalManifestRelativePath
      (by simpa using hne'.symm)
    refine h.of_apart hapart ?_ fun bytes hb => hmanifest.trans hb
    rw [hstate]
    refine ⟨?_, hmanifest.trans htarget.2⟩
    rw [hapart.get? (by simpa using hne)]
    exact htarget.1
  unfold Converges advanceCopying
  simp only [Durable.wp_bind, wp_archiveCheck, h.tracks.required, h.tracks.same]
  have hpresent : source.Present disk := ⟨hsource, h.rawManifest⟩
  refine wp_copyArtifact hpresent htarget.1 ?_ ?_ ?_
  · intro hinvalid e
    refine ⟨row, h, fun hc => ?_⟩
    rw [← h.valid, hinvalid] at hc
    cases hc
  · exact fun last' disk' hapart => ⟨row, hcopied disk' hapart⟩
  · intro last' disk' hapart hbytes _
    have hhealthy := hcopied disk' hapart
    have htarget' := hhealthy.targetFiles
    rw [hstate] at htarget'
    refine hhealthy.tracks.wp_transition false (by rw [hstate]; decide) (by simp)
      (by rintro ⟨⟩) (by rintro ⟨⟩)
      ⟨row, hhealthy⟩ ?_
    intro catalog disk'' hfiles htracks
    refine converges_advanceVerifying hdeletedAt hverifiedAt (hhealthy.of_sameFiles hfiles htracks
      ?_ ⟨?_, Or.inl htarget'.2⟩) rfl (iff_of_true hok fun _ _ bytes hbytes' => ?_)
    · have hheld : disk'.internal.get? identity.sourceRelativePath = some source.stored := by
        rw [hapart.internal]
        exact hsource
      exact hheld
    · intro bytes hbytes'
      rw [htarget'.1] at hbytes'
      cases hbytes'
    · rw [hfiles.external, hbytes] at hbytes'
      cases hbytes'
      exact source.exact

/-- **An attempt** comes to the end where its temporary copy is exact and the target is there. -/
theorem converges_advance (h : source.Healthy manifest valid disk row)
    (hok : ok ↔ TemporaryExact lib identity disk row) :
    source.Converges manifest valid ok (advance lib target identity.transactionId clock) last
      disk := by
  unfold Converges advance
  simp only [Durable.wp_bind, wp_archiveCheck, h.tracks.required]
  cases hstate : row.state with
  | copying =>
    have hyes : ok := hok.mpr fun hc => absurd (hstate.symm.trans hc) (by decide)
    exact converges_advanceCopying hdeletedAt hverifiedAt hyes h hstate
  | verifying => exact converges_advanceVerifying hdeletedAt hverifiedAt h hstate hok
  | verified =>
    have hyes : ok := hok.mpr fun hc => absurd (hstate.symm.trans hc) (by decide)
    exact converges_advanceVerified hdeletedAt hyes h hstate
  | localDeletePending =>
    have hyes : ok := hok.mpr fun hc => absurd (hstate.symm.trans hc) (by decide)
    exact converges_advanceDeletePending hdeletedAt hyes h hstate
  | localDeleted =>
    have hyes : ok := hok.mpr fun hc => absurd (hstate.symm.trans hc) (by decide)
    exact converges_archiveResult hyes h hstate 0

end

end ArchiveSource

end MarketDataRecorder
