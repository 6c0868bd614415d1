import MarketDataRecorder.Spool.RecoveryRuns

/-!
# Recovery of a damaged frame

Bytes altered inside a frame that others follow. If the scanner's checks stop at that frame, and not
because its declared body reaches past the end of the file, recovery keeps every byte of the file:
it moves the file to the quarantine (`recoverPartials_keeps_damaged`).

A declared length within the limit that reaches past the end of the file looks like a torn write.
By the format's design it is one, and the frames behind it are cut off with it
(`recoverPartials_cuts_intact_frames`).
-/

namespace MarketDataRecorder

open Framing Durable

section

variable {codec : Codec} {header : ChunkHeader}

/-! ## Altered frames -/

/-- A frame of a clean chunk that others follow, and other bytes in its place. -/
structure AlteredFrame (codec : Codec) (header : ChunkHeader)
    (before frame altered behind : Bytes) : Prop where
  before_clean : (frameScan codec header before).stop = .done
  frame_read : ∃ f, frameHead codec header frame = .frame f frame.length
  behind_clean : (frameScan codec header behind).stop = .done
  behind_ne_nil : behind ≠ []
  length_eq : altered.length = frame.length
  altered_ne : altered ≠ frame

/-- The checks stop at the altered frame, and not for want of bytes. -/
structure Detected (codec : Codec) (header : ChunkHeader) (altered behind : Bytes) : Prop where
  /-- The prefix is refused, or the body it declares ends inside the file. -/
  extent : header.maxFrameBytes < fieldNat altered 0 4 ∨ fieldNat altered 4 2 ≠ 0 ∨
    fieldNat altered 6 2 ≠ 0 ∨ framePrefixSize + fieldNat altered 0 4 ≤ (altered ++ behind).length
  refused : ∀ p body e, frameAt codec header (altered ++ behind) ≠ .frame p body e

theorem AlteredFrame.prefixSize_le {before frame altered behind : Bytes}
    (h : AlteredFrame codec header before frame altered behind) :
    framePrefixSize ≤ altered.length := by
  obtain ⟨f, hf⟩ := h.frame_read
  obtain ⟨hat, hlen⟩ := frameHead_eq_frame_iff.mp hf
  obtain ⟨crc, -, hplen, -, -, -⟩ := frameAt_eq_frame_iff.mp hat
  rw [h.length_eq, hlen, hplen]
  exact Nat.le_add_right _ _

theorem field_take {b : Bytes} {i n k : Nat} (h : i + n ≤ k) :
    field (b.take k) i n = field b i n := by
  rw [field, field, List.drop_take, List.take_take, Nat.min_eq_left (by omega)]

theorem field_append {b c : Bytes} {i n : Nat} (h : i + n ≤ b.length) :
    field (b ++ c) i n = field b i n := by
  rw [field, field, List.drop_append_of_le_length (by omega), List.take_append_of_le_length]
  rw [List.length_drop]
  omega

/-- The prefix of a frame, read from all bytes that start with it. -/
theorem fieldNat_front {altered behind : Bytes} (h : framePrefixSize ≤ altered.length) {i n : Nat}
    (hin : i + n ≤ framePrefixSize) :
    fieldNat ((altered ++ behind).take framePrefixSize) i n = fieldNat altered i n := by
  rw [fieldNat, fieldNat, field_take hin, field_append (Nat.le_trans hin h)]

/-- A prefix of twelve bytes is never a torn tail. -/
theorem checkFramePrefix_cases (header : ChunkHeader) {p : Bytes} (h : p.length = framePrefixSize) :
    (∃ issue detail, checkFramePrefix header p = .error (issue, detail) ∧ issue ≠ .none ∧
      issue ≠ .truncatedTail) ∨
    (checkFramePrefix header p = .ok (fieldNat p 0 4, fieldNat p 8 4) ∧
      ¬ header.maxFrameBytes < fieldNat p 0 4 ∧ fieldNat p 4 2 = 0 ∧ fieldNat p 6 2 = 0) := by
  simp only [checkFramePrefix, bind, Except.bind, throw, throwThe, MonadExceptOf.throw, pure,
    Except.pure, h, ne_eq, not_true_eq_false, if_false]
  split
  · exact Or.inl ⟨_, _, rfl, by simp, by simp⟩
  · next hmax =>
    split
    · exact Or.inl ⟨_, _, rfl, by simp, by simp⟩
    · next hflags =>
      rw [not_or, not_not, not_not] at hflags
      exact Or.inr ⟨rfl, hmax, hflags⟩

/-- A body that is all there is never a torn tail. -/
theorem checkFrameBody_error {p body : Bytes} {n crc : Nat} {issue : ScanIssue} {detail : String}
    (hlen : body.length = n)
    (h : checkFrameBody codec header p body n crc = .error (issue, detail)) :
    issue ≠ .none ∧ issue ≠ .truncatedTail := by
  unfold checkFrameBody at h
  rw [if_neg (not_not.mpr hlen)] at h
  split at h
  · cases h
    simp
  · split at h
    · cases h
      simp
    · split at h
      · cases h
        simp
      · cases h

/-- **The scanner stops at the altered frame.** -/
theorem frameAt_of_detected {before frame altered behind : Bytes}
    (h : AlteredFrame codec header before frame altered behind)
    (hd : Detected codec header altered behind) :
    ∃ issue detail, frameAt codec header (altered ++ behind) = .stop issue detail ∧
      issue ≠ .none ∧ issue ≠ .truncatedTail := by
  have hsize := h.prefixSize_le
  have hlen : ((altered ++ behind).take framePrefixSize).length = framePrefixSize := by
    rw [List.length_take, List.length_append]
    omega
  have hne : altered ++ behind ≠ [] := by
    intro hnil
    rw [hnil] at hlen
    simp [framePrefixSize] at hlen
  have hrefused := hd.refused
  unfold frameAt at hrefused ⊢
  rw [if_neg hne] at hrefused ⊢
  rcases checkFramePrefix_cases header hlen with
    ⟨issue, detail, hfront, hissue⟩ | ⟨hfront, hmax, hflags, hreserved⟩
  · rw [hfront]
    exact ⟨issue, detail, rfl, hissue⟩
  · rw [hfront] at hrefused ⊢
    simp only at hrefused ⊢
    rw [fieldNat_front hsize (by decide)] at hmax hflags hreserved
    have hbody : (((altered ++ behind).drop framePrefixSize).take
        (fieldNat ((altered ++ behind).take framePrefixSize) 0 4)).length =
        fieldNat ((altered ++ behind).take framePrefixSize) 0 4 := by
      rcases hd.extent with hover | hover | hover | hinside
      · exact absurd hover hmax
      · exact absurd hflags hover
      · exact absurd hreserved hover
      · rw [fieldNat_front hsize (by decide), List.length_take, List.length_drop]
        omega
    cases hcheck : checkFrameBody codec header ((altered ++ behind).take framePrefixSize)
        (((altered ++ behind).drop framePrefixSize).take
          (fieldNat ((altered ++ behind).take framePrefixSize) 0 4))
        (fieldNat ((altered ++ behind).take framePrefixSize) 0 4)
        (fieldNat ((altered ++ behind).take framePrefixSize) 8 4) with
    | error e => exact ⟨e.1, e.2, rfl, checkFrameBody_error hbody hcheck⟩
    | ok e =>
      rw [hcheck] at hrefused
      exact absurd rfl (hrefused _ _ _)

theorem frameScan_of_truncatedTail {b : Bytes} {detail : String}
    (h : frameAt codec header b = .stop .truncatedTail detail) :
    frameScan codec header b = .stopped (.torn (.truncatedTail, detail)) := by
  have hhead : (frameReader codec header).head b = .torn (.truncatedTail, detail) := by
    show frameHead codec header b = _
    unfold frameHead
    rw [h]
  exact Reader.scan_of_torn _ hhead

/-- The scan of a file whose checks stop at a frame. -/
theorem scanChunk_of_detected {headerBytes before frame altered behind : Bytes}
    (hheader : HeaderBytes codec headerBytes header)
    (h : AlteredFrame codec header before frame altered behind)
    (hd : Detected codec header altered behind) :
    (scanChunk codec (headerBytes ++ (before ++ (altered ++ behind)))).header = some header ∧
      (scanChunk codec (headerBytes ++ (before ++ (altered ++ behind)))).issue ≠ .none ∧
      (scanChunk codec (headerBytes ++ (before ++ (altered ++ behind)))).issue ≠
        .truncatedTail := by
  obtain ⟨issue, detail, hat, hnone, htail⟩ := frameAt_of_detected h hd
  have hhead : (frameReader codec header).head (altered ++ behind) = .bad (issue, detail) := by
    show frameHead codec header (altered ++ behind) = _
    unfold frameHead
    rw [hat]
    cases issue <;> first | rfl | exact absurd rfl htail
  have hscan : frameScan codec header (before ++ (altered ++ behind)) =
      (frameScan codec header before).append
        ((frameReader codec header).scan (altered ++ behind)) :=
    (frameReader codec header).scan_append h.before_clean _
  have hissue : (scanChunk codec (headerBytes ++ (before ++ (altered ++ behind)))).issue =
      issue := by
    rw [issue_of_header hheader, hscan, Reader.scan_of_bad _ hhead]
    rfl
  exact ⟨(statistics_of_header hheader _).2, hissue ▸ hnone, hissue ▸ htail⟩

end

/-! ## Keeping a file -/

/-- A scan with nothing to recover. -/
def IsClean (codec : Codec) (b : Bytes) : Prop :=
  (scanChunk codec b).header.isSome ∧ (scanChunk codec b).issue = .none

/-- No other file at hand has the SHA-256 of these bytes. -/
def NoCollision (codec : Codec) (disk : Disk) (bytes : Bytes) : Prop :=
  ∀ b, ((∃ n, disk.active.get? n = some b) ∨ ∃ n, disk.quarantine.get? n = some b) →
    codec.sha256Hex b = codec.sha256Hex bytes → b = bytes

/-- The bytes of a file are where they were or in the quarantine. -/
def KeptFile (name : String) (bytes : Bytes) (disk : Disk) : Prop :=
  disk.active.get? name = some bytes ∨
    (disk.active.get? name = none ∧ ∃ destination, disk.quarantine.get? destination = some bytes)

/-- The invariant of a kept file; `stays` says whether it may still be where it was. -/
structure Keeping (codec : Codec) (origin : Disk) (name : String) (bytes : Bytes) (stays : Prop)
    (disk : Disk) : Prop where
  kept : (stays ∧ disk.active.get? name = some bytes) ∨
    (disk.active.get? name = none ∧ ∃ destination, disk.quarantine.get? destination = some bytes)
  /-- What is active was there at the start, or recovery has cleaned it. -/
  actives : ∀ {n : String} {b : Bytes}, disk.active.get? n = some b →
    (∃ m, origin.active.get? m = some b) ∨ IsClean codec b
  quarantined : ∀ {n : String} {b : Bytes}, disk.quarantine.get? n = some b →
    (∃ m, origin.active.get? m = some b) ∨ ∃ m, origin.quarantine.get? m = some b

section

variable {codec : Codec} {origin disk : Disk} {name n : String} {bytes b : Bytes} {stays : Prop}
  {header : ChunkHeader} {last : Option DiskWrite}

theorem Keeping.refl (hb : origin.active.get? name = some bytes) :
    Keeping codec origin name bytes True origin where
  kept := Or.inl ⟨trivial, hb⟩
  actives := fun h => Or.inl ⟨_, h⟩
  quarantined := fun h => Or.inr ⟨_, h⟩

theorem Keeping.keptFile (h : Keeping codec origin name bytes stays disk) :
    KeptFile name bytes disk := by
  rcases h.kept with ⟨-, hactive⟩ | hgone
  · exact Or.inl hactive
  · exact Or.inr hgone

theorem Keeping.mono {stays' : Prop} (h : Keeping codec origin name bytes stays disk)
    (hstays : stays → stays') : Keeping codec origin name bytes stays' disk where
  kept := h.kept.imp_left fun hk => ⟨hstays hk.1, hk.2⟩
  actives := h.actives
  quarantined := h.quarantined

theorem Keeping.withTables (h : Keeping codec origin name bytes stays disk)
    (tables : ChunkTables) : Keeping codec origin name bytes stays (disk.withTables tables) where
  kept := h.kept
  actives := h.actives
  quarantined := h.quarantined

/-- What is active under the name are the bytes. -/
theorem Keeping.bytes_eq (h : Keeping codec origin name bytes stays disk)
    (hb : disk.active.get? name = some b) : b = bytes ∧ stays := by
  rcases h.kept with ⟨hstays, hactive⟩ | ⟨hgone, -⟩
  · exact ⟨Option.some.inj (hb.symm.trans hactive), hstays⟩
  · rw [hb] at hgone
    cases hgone

/-- A file of another name goes, or the kept one while its bytes are in the quarantine. -/
theorem Keeping.erase (h : Keeping codec origin name bytes stays disk)
    {q : SortedDict String Bytes}
    (hkept : ∀ {m c}, disk.quarantine.get? m = some c → q.get? m = some c)
    (hname : n = name → ∃ destination, q.get? destination = some bytes)
    (hquarantined : ∀ {m c}, q.get? m = some c →
      (∃ k, origin.active.get? k = some c) ∨ ∃ k, origin.quarantine.get? k = some c) :
    Keeping codec origin name bytes (stays ∧ n ≠ name)
      { disk with active := disk.active.erase n, quarantine := q } where
  kept := by
    show (_ ∧ (disk.active.erase n).get? name = some bytes) ∨
      ((disk.active.erase n).get? name = none ∧ _)
    rw [SortedDict.get?_erase]
    by_cases hn : name = n
    · rw [if_pos hn]
      exact Or.inr ⟨rfl, hname hn.symm⟩
    · rw [if_neg hn]
      rcases h.kept with ⟨hstays, hactive⟩ | ⟨hgone, destination, hd⟩
      · exact Or.inl ⟨⟨hstays, fun h => hn h.symm⟩, hactive⟩
      · exact Or.inr ⟨hgone, destination, hkept hd⟩
  actives := by
    intro m c hc
    rw [SortedDict.get?_erase] at hc
    split at hc
    · cases hc
    · exact h.actives hc
  quarantined := hquarantined

/-- A file of another name is cut to a clean one. -/
theorem Keeping.insert (h : Keeping codec origin name bytes stays disk) (hne : n ≠ name)
    (hclean : IsClean codec b) :
    Keeping codec origin name bytes stays { disk with active := disk.active.insert n b } where
  kept := by
    show (_ ∧ (disk.active.insert n b).get? name = some bytes) ∨
      ((disk.active.insert n b).get? name = none ∧ _)
    rw [SortedDict.get?_insert, if_neg (Ne.symm hne)]
    exact h.kept
  actives := by
    intro m c hc
    rw [SortedDict.get?_insert] at hc
    split at hc
    · obtain rfl := Option.some.inj hc
      exact Or.inr hclean
    · exact h.actives hc
  quarantined := h.quarantined

/-! ## The programs keep it -/

/-- A program keeps a file; once it returns, the file stays only where `after` allows it. -/
def Keeps {α : Type} (codec : Codec) (origin : Disk) (name : String) (bytes : Bytes)
    (stays after : Prop) (program : DiskProgram α) (last : Option DiskWrite) (disk : Disk) : Prop :=
  wp DiskWrite.apply (fun _ _ disk => Keeping codec origin name bytes after disk)
    (fun _ _ disk => Keeping codec origin name bytes stays disk)
    (fun _ disk => Keeping codec origin name bytes stays disk) program last disk

theorem keeps_quarantine (h : Keeping codec origin name bytes stays disk)
    (hcollision : NoCollision codec origin bytes) (hb : disk.active.get? n = some b)
    (horigin : ∃ m, origin.active.get? m = some b) (reason : String) :
    Keeps codec origin name bytes stays (stays ∧ n ≠ name) (quarantine codec n b reason) last
      disk := by
  have hsame : n = name → b = bytes := by
    rintro rfl
    exact (h.bytes_eq hb).1
  unfold Keeps quarantine moveAside
  simp only [wp_bind, wp_read]
  cases hq : disk.quarantine.get? (quarantineName n (codec.sha256Hex b)) with
  | none =>
    rw [wp_perform, DiskWrite.apply_moveToQuarantine hb]
    refine ⟨h, ?_⟩
    have hmoved := h.erase (n := n)
      (q := disk.quarantine.insert (quarantineName n (codec.sha256Hex b)) b)
      (by
        intro m c hm
        rw [SortedDict.get?_insert, if_neg, hm]
        rintro rfl
        rw [hq] at hm
        cases hm)
      (fun hn => ⟨_, by rw [SortedDict.get?_insert, if_pos rfl, hsame hn]⟩)
      (by
        intro m c hm
        rw [SortedDict.get?_insert] at hm
        split at hm
        · obtain rfl := Option.some.inj hm
          exact Or.inl horigin
        · exact h.quarantined hm)
    simp only [wp_commitTables, wp_pure]
    exact ⟨hmoved.mono And.left, hmoved.withTables _⟩
  | some existing =>
    simp only
    by_cases hdigest : codec.sha256Hex existing = codec.sha256Hex b
    · rw [if_neg (not_not.mpr hdigest), wp_perform, DiskWrite.apply_unlinkActive]
      refine ⟨h, ?_⟩
      have hgone := h.erase (n := n) (q := disk.quarantine) id
        (by
          -- the content that is there already has the digest of the file, so it is the file's
          intro hn
          obtain rfl := hsame hn
          exact ⟨_, hq.trans (congrArg some (hcollision existing (h.quarantined hq) hdigest))⟩)
        h.quarantined
      simp only [wp_commitTables, wp_pure]
      exact ⟨hgone.mono And.left, hgone.withTables _⟩
    · rw [if_pos hdigest]
      exact h

theorem keeps_recoverTail (h : Keeping codec origin name bytes stays disk)
    (hb : disk.active.get? n = some b) (hh : (scanChunk codec b).header = some header)
    (hne : n ≠ name) :
    Keeps codec origin name bytes stays stays
      (recoverTail codec n header (scanChunk codec b)) last disk := by
  obtain ⟨hclean, hheader⟩ := scanChunk_take_validEnd hh
  have hcut := h.insert hne (b := b.take (scanChunk codec b).validEnd)
    ⟨by rw [hheader]; rfl, hclean⟩
  unfold Keeps recoverTail recoverTailRecorded
  rw [wp_bind, wp_perform, DiskWrite.apply_truncateActive hb]
  refine ⟨h, ?_⟩
  simp only [wp_bind, verifyTruncated, wp_read]
  split
  · rw [wp_pure, wp_commitTables]
    split
    · exact hcut
    · exact ⟨hcut, hcut.withTables _⟩
  · exact hcut

/-- One round of the loop; the kept file is gone afterwards, unless there was nothing to do. -/
theorem keeps_recoverPartial (h : Keeping codec origin name bytes stays disk)
    (hcollision : NoCollision codec origin bytes)
    (hscan : (scanChunk codec bytes).isTailTruncatable = false)
    (hb : disk.active.get? n = some b) :
    Keeps codec origin name bytes stays (stays ∧ (n = name → IsClean codec bytes))
      (recoverPartial codec n b) last disk := by
  have hgone : stays ∧ n ≠ name → stays ∧ (n = name → IsClean codec bytes) :=
    fun hs => ⟨hs.1, fun hn => absurd hn hs.2⟩
  have hquarantine : ∀ {disk' : Disk} {reason : String} {last : Option DiskWrite},
      ¬ IsClean codec b → Keeping codec origin name bytes stays disk' →
      disk'.active.get? n = some b →
      Keeps codec origin name bytes stays (stays ∧ (n = name → IsClean codec bytes))
        (quarantine codec n b reason) last disk' := by
    intro disk' reason last hdirty h' hb'
    exact wp_mono (keeps_quarantine h' hcollision hb' ((h'.actives hb').resolve_right hdirty) _)
      (fun _ _ _ hk => hk.mono hgone) (fun _ _ _ hk => hk) fun _ _ hk => hk
  unfold recoverPartial
  cases hh : (scanChunk codec b).header with
  | none =>
    refine hquarantine ?_ h hb
    rintro ⟨hsome, -⟩
    rw [hh] at hsome
    cases hsome
  | some header =>
    have hregistered := h.withTables
      (disk.catalog.registerActive header.chunkId (activePath n) header.createdAtUtcNs)
    unfold Keeps
    simp only [recoverChunk]
    rw [wp_bind, wp_commitTables]
    refine ⟨h, ?_⟩
    by_cases hnone : (scanChunk codec b).issue = .none
    · rw [if_pos hnone]
      refine hregistered.mono fun hs => ⟨hs, ?_⟩
      rintro rfl
      obtain rfl := (h.bytes_eq hb).1
      exact ⟨by rw [hh]; rfl, hnone⟩
    · rw [if_neg hnone]
      by_cases htail : (scanChunk codec b).isTailTruncatable = true
      · have hne : n ≠ name := by
          rintro rfl
          rw [(h.bytes_eq hb).1, hscan] at htail
          cases htail
        rw [if_pos htail]
        exact wp_mono (keeps_recoverTail hregistered hb hh hne)
          (fun _ _ _ hk => hk.mono fun hs => ⟨hs, fun hn => absurd hn hne⟩)
          (fun _ _ _ hk => hk) fun _ _ hk => hk
      · rw [if_neg htail]
        simp only [recoverCorrupt]
        rw [wp_bind, wp_commitTables]
        split
        · exact hregistered
        · exact ⟨hregistered, hquarantine (fun hc => hnone hc.2) (hregistered.withTables _) hb⟩

/-- The loop: the names it went through without a stop are dealt with. -/
theorem keeps_recoverNames (hcollision : NoCollision codec origin bytes)
    (hscan : (scanChunk codec bytes).isTailTruncatable = false) {stop : Nat → Bool}
    (names : List String) {stays : Prop} {round : Nat} {last : Option DiskWrite} {disk : Disk}
    (h : Keeping codec origin name bytes stays disk) :
    Keeps codec origin name bytes stays
      (stays ∧ ((∀ i, stop i = false) → name ∈ names → IsClean codec bytes))
      (recoverNames codec stop round names) last disk := by
  induction names generalizing stays round last disk with
  | nil =>
    unfold Keeps recoverNames
    rw [wp_pure]
    refine h.mono fun hs => ⟨hs, fun _ hmem => ?_⟩
    cases hmem
  | cons n rest ih =>
    unfold Keeps recoverNames
    by_cases hstop : stop round = true
    · rw [if_pos hstop, wp_pure]
      refine h.mono fun hs => ⟨hs, fun hnever => ?_⟩
      rw [hnever round] at hstop
      cases hstop
    · rw [if_neg hstop, wp_read]
      cases hb : disk.active.get? n with
      | none => exact h
      | some b =>
        show wp _ _ _ _ (recoverPartial codec n b >>= _) _ _
        rw [wp_bind]
        refine wp_mono (keeps_recoverPartial h hcollision hscan hb) ?_ (fun _ _ _ hk => hk)
          fun _ _ hk => hk
        intro action last' disk' h'
        rw [wp_bind]
        refine wp_mono (ih h') ?_ (fun _ _ _ hk => hk.mono And.left) fun _ _ hk =>
          hk.mono And.left
        intro actions last'' disk'' h''
        rw [wp_pure]
        refine h''.mono ?_
        rintro ⟨⟨hs, hhead⟩, hrest⟩
        refine ⟨hs, fun hnever hmem => ?_⟩
        rcases List.mem_cons.mp hmem with heq | hmem
        · exact hhead heq.symm
        · exact hrest hnever hmem

/-- A file that is not torn is kept over all attempts. -/
theorem keptFile_afterAttempts (hcollision : NoCollision codec origin bytes)
    (hscan : (scanChunk codec bytes).isTailTruncatable = false) :
    ∀ (attempts : List Attempt) {disk : Disk}, Keeping codec origin name bytes True disk →
      Keeping codec origin name bytes True (afterAttempts codec attempts disk)
  | [], _, h => h
  | attempt :: rest, disk, h => by
    have hcut : Keeping codec origin name bytes True (attempt.cut codec disk).state := by
      have hkeeps : Keeps codec origin name bytes True _
          (recoverPartials codec attempt.stop) none disk :=
        keeps_recoverNames hcollision hscan _ h
      rcases crashAt_of_wp hkeeps attempt.writes with ⟨-, hend⟩ | ⟨-, hend⟩ | hend
      · exact Keeping.mono hend fun _ => trivial
      · exact hend
      · exact hend
    exact keptFile_afterAttempts hcollision hscan rest hcut

/-- A corrupt file that is the only partial is quarantined, if the Catalog lets its chunk go. -/
theorem run_of_corrupt (hnames : disk.active.keys.filter isPartialName = [name])
    (hb : disk.active.get? name = some bytes) (hh : (scanChunk codec bytes).header = some header)
    (hissue : (scanChunk codec bytes).issue ≠ .none)
    (htail : (scanChunk codec bytes).isTailTruncatable = false)
    (hstate : ∀ old, disk.catalog.state header.chunkId = some old →
      old = .quarantined ∨ ChunkState.quarantined ∈ allowedTransitions old)
    (hfree : disk.quarantine.get? (quarantineName name (codec.sha256Hex bytes)) = none) :
    ((recoverPartials codec fun _ => false).run DiskWrite.apply disk).1 =
      .ok [⟨activePath name, "quarantined", quarantineReason (scanChunk codec bytes)⟩] := by
  obtain ⟨old, hold, hallowed⟩ : ∃ old, (disk.catalog.registerActive header.chunkId
      (activePath name) header.createdAtUtcNs).state header.chunkId = some old ∧
      (old = .quarantined ∨ ChunkState.quarantined ∈ allowedTransitions old) := by
    rw [ChunkTables.registerActive_state]
    cases hs : disk.catalog.state header.chunkId with
    | none => exact ⟨.active, by simp, Or.inr (by decide)⟩
    | some old => exact ⟨old, by simp, hstate old hs⟩
  obtain ⟨tables, ht⟩ : ∃ tables, (disk.catalog.registerActive header.chunkId (activePath name)
      header.createdAtUtcNs).transition header.chunkId .quarantined
      (.quarantine header.chunkId (scanChunk codec bytes).fileSize (scanChunk codec bytes).issue)
      (quarantineEvidence (scanChunk codec bytes)) = .ok tables :=
    ChunkTables.exists_transition hold hallowed
  simp [recoverPartials, hnames, recoverNames, hb, recoverPartial, hh, recoverChunk, commitTables,
    hissue, htail, recoverCorrupt, ht, quarantine, moveAside, hfree]

/--
**Recovery keeps a chunk with a damaged frame whole**, if the scanner's checks stop at the damage
and not for want of bytes. Whatever the attempts, wherever they crash, the bytes of the file are
where they were or in the quarantine; a call that returns has quarantined them, and nothing but
the Catalog or a name that is taken keeps it from returning.
-/
theorem recoverPartials_keeps_damaged {headerBytes before frame altered behind : Bytes}
    (hheader : HeaderBytes codec headerBytes header)
    (hframe : AlteredFrame codec header before frame altered behind)
    (hdetected : Detected codec header altered behind) (hname : isPartialName name)
    (hb : origin.active.get? name = some (headerBytes ++ (before ++ (altered ++ behind))))
    (hcollision : NoCollision codec origin (headerBytes ++ (before ++ (altered ++ behind)))) :
    (∀ attempts, KeptFile name (headerBytes ++ (before ++ (altered ++ behind)))
      (afterAttempts codec attempts origin)) ∧
    (∀ actions disk',
      (recoverPartials codec fun _ => false).run DiskWrite.apply origin = (.ok actions, disk') →
        disk'.active.get? name = none ∧ ∃ destination, disk'.quarantine.get? destination =
          some (headerBytes ++ (before ++ (altered ++ behind)))) ∧
    (origin.active.keys.filter isPartialName = [name] →
      (∀ old, origin.catalog.state header.chunkId = some old →
        old = .quarantined ∨ ChunkState.quarantined ∈ allowedTransitions old) →
      origin.quarantine.get? (quarantineName name
        (codec.sha256Hex (headerBytes ++ (before ++ (altered ++ behind))))) = none →
      ∃ action, ((recoverPartials codec fun _ => false).run DiskWrite.apply origin).1 =
        .ok [action] ∧ action.action = "quarantined") := by
  obtain ⟨hh, hnone, hissue⟩ := scanChunk_of_detected hheader hframe hdetected
  have htail : (scanChunk codec
      (headerBytes ++ (before ++ (altered ++ behind)))).isTailTruncatable = false := by
    simp [ScanResult.isTailTruncatable, hissue]
  refine ⟨?_, ?_, ?_⟩
  · intro attempts
    exact (keptFile_afterAttempts hcollision htail attempts (Keeping.refl hb)).keptFile
  · intro actions disk' hrun
    have hkeeps : Keeps codec origin name _ True _ (recoverPartials codec fun _ => false) none
        origin := keeps_recoverNames hcollision htail _ (Keeping.refl hb)
    obtain ⟨last, hend⟩ := (run_of_wp hkeeps).1 actions (by rw [hrun])
    rw [hrun] at hend
    rcases hend.kept with ⟨⟨-, hclean⟩, -⟩ | hgone
    · have hmem : name ∈ origin.active.keys.filter isPartialName :=
        List.mem_filter.mpr ⟨SortedDict.mem_keys.mpr ⟨_, hb⟩, hname⟩
      exact absurd (hclean (fun _ => rfl) hmem).2 hnone
    · exact hgone
  · intro hnames hstate hfree
    exact ⟨_, run_of_corrupt hnames hb hh hnone htail hstate hfree, rfl⟩

end

/-! ## A damaged frame in front of another -/

/-- The first frame of the sample chunk, and what stands behind it. -/
def sampleFrame : Bytes := (encodedFrame referenceCodec firstSampleEnvelope).bytes

def laterFrames : Bytes := encodedFrames referenceCodec (sampleEnvelopes.drop 1)

theorem alteredFrame_sample {altered : Bytes} (hlen : altered.length = sampleFrame.length)
    (hne : altered ≠ sampleFrame) :
    AlteredFrame referenceCodec sampleHeader [] sampleFrame altered laterFrames where
  before_clean := by
    rw [frameScan, Reader.scan_nil]
    rfl
  frame_read := by
    have hmem : firstSampleEnvelope ∈ sampleEnvelopes := List.mem_cons_self
    obtain ⟨bytes, henc⟩ := encodes_sampleEnvelopes _ hmem
    obtain ⟨rfl, hhead⟩ := frameHead_encodeFrame
      (maxFrameBytes_bounds validateChunkHeader_sampleHeader).2 (matches_sampleEnvelopes _ hmem)
      (roundTrips_sampleEnvelopes _ hmem) henc
    exact ⟨_, hhead⟩
  behind_clean := by
    have hsub : ∀ e ∈ sampleEnvelopes.drop 1, e ∈ sampleEnvelopes :=
      fun _ he => List.mem_of_mem_drop he
    rw [laterFrames, frameScan_encodedFrames
      (maxFrameBytes_bounds validateChunkHeader_sampleHeader).2
      (fun e he => matches_sampleEnvelopes e (hsub e he))
      (fun e he => roundTrips_sampleEnvelopes e (hsub e he))
      fun e he => encodes_sampleEnvelopes e (hsub e he)]
  behind_ne_nil := by decide
  length_eq := hlen
  altered_ne := hne

/-- The first frame with a flag that no version knows. -/
def flaggedFrame : Bytes := sampleFrame.take 4 ++ [0, 1] ++ sampleFrame.drop 6

/-- The first frame with a declared length past the end of the file. -/
def overlongFrame : Bytes := BigEndian.toBytes 4 4096 ++ sampleFrame.drop 4

/-- A chunk with one of these for its first frame. -/
def damagedChunk (altered : Bytes) : Bytes :=
  encodedHeader referenceCodec sampleHeader ++ ([] ++ (altered ++ laterFrames))

/-- A disk with that chunk. -/
def damagedDisk (altered : Bytes) : Disk where
  active := SortedDict.empty.insert "sample.bmdr.partial" (damagedChunk altered)

theorem damagedDisk_active (altered : Bytes) :
    (damagedDisk altered).active.get? "sample.bmdr.partial" = some (damagedChunk altered) := by
  rw [damagedDisk, SortedDict.get?_insert, if_pos rfl]

theorem noCollision_damagedDisk (altered : Bytes) :
    NoCollision referenceCodec (damagedDisk altered) (damagedChunk altered) := by
  rintro b (⟨n, hn⟩ | ⟨n, hn⟩) -
  · rw [damagedDisk, SortedDict.get?_insert] at hn
    split at hn
    · exact (Option.some.inj hn).symm
    · cases hn
  · cases hn

theorem alteredFrame_flaggedFrame :
    AlteredFrame referenceCodec sampleHeader [] sampleFrame flaggedFrame laterFrames :=
  alteredFrame_sample (by rfl) (by decide +kernel)

theorem detected_flaggedFrame : Detected referenceCodec sampleHeader flaggedFrame laterFrames := by
  have hflags : fieldNat flaggedFrame 4 2 ≠ 0 := by decide
  refine ⟨Or.inr (Or.inl hflags), ?_⟩
  intro p body e hat
  obtain ⟨crc, hp, hplen, -, hfront, -⟩ := frameAt_eq_frame_iff.mp hat
  rcases checkFramePrefix_cases sampleHeader hplen with
    ⟨issue, detail, herror, -⟩ | ⟨-, -, hnone, -⟩
  · rw [hfront] at herror
    cases herror
  · rw [hp, fieldNat_front alteredFrame_flaggedFrame.prefixSize_le (by decide)] at hnone
    exact hflags hnone

/-- The chunk with the unknown flag is quarantined whole. -/
theorem recoverPartials_keeps_damaged_sample :
    (∀ attempts, KeptFile "sample.bmdr.partial" (damagedChunk flaggedFrame)
      (afterAttempts referenceCodec attempts (damagedDisk flaggedFrame))) ∧
    ∃ action, ((recoverPartials referenceCodec fun _ => false).run DiskWrite.apply
      (damagedDisk flaggedFrame)).1 = .ok [action] ∧ action.action = "quarantined" := by
  obtain ⟨hkept, -, hreturns⟩ := recoverPartials_keeps_damaged headerBytes_sampleHeader
    alteredFrame_flaggedFrame detected_flaggedFrame isPartialName_sample
    (damagedDisk_active flaggedFrame) (noCollision_damagedDisk flaggedFrame)
  exact ⟨hkept, hreturns filter_isPartialName_sample (fun _ hold => nomatch hold) rfl⟩

theorem frameAt_overlongFrame :
    frameAt referenceCodec sampleHeader (overlongFrame ++ laterFrames) =
      .stop .truncatedTail "incomplete frame body" := by
  decide +kernel

/-- A length past the end of the file is a torn tail that starts at the damaged frame. -/
theorem scan_overlongChunk :
    (scanChunk referenceCodec (damagedChunk overlongFrame)).header = some sampleHeader ∧
      (scanChunk referenceCodec (damagedChunk overlongFrame)).issue = .truncatedTail ∧
      (damagedChunk overlongFrame).take
        (scanChunk referenceCodec (damagedChunk overlongFrame)).validEnd =
          encodedHeader referenceCodec sampleHeader := by
  have hscan := frameScan_of_truncatedTail frameAt_overlongFrame
  refine ⟨(statistics_of_header headerBytes_sampleHeader _).2,
    (issue_eq_truncatedTail_iff headerBytes_sampleHeader _).mpr
      ⟨_, by rw [List.nil_append, hscan]; rfl⟩, ?_⟩
  rw [damagedChunk, take_validEnd headerBytes_sampleHeader, List.nil_append, hscan,
    Scan.stopped_consumed, List.take_zero, List.append_nil]

/-- A length past the end of the file: the intact frame behind it is cut off. -/
theorem recoverPartials_cuts_intact_frames :
    ¬ ∀ (codec : Codec) (header : ChunkHeader)
        (headerBytes before frame altered behind : Bytes) (name : String) (origin : Disk),
      HeaderBytes codec headerBytes header →
      AlteredFrame codec header before frame altered behind → isPartialName name →
      origin.active.get? name = some (headerBytes ++ (before ++ (altered ++ behind))) →
      NoCollision codec origin (headerBytes ++ (before ++ (altered ++ behind))) →
      ∀ attempts, KeptFile name (headerBytes ++ (before ++ (altered ++ behind)))
        (afterAttempts codec attempts origin) := by
  intro hall
  obtain ⟨hh, hissue, htake⟩ := scan_overlongChunk
  have hframe : AlteredFrame referenceCodec sampleHeader [] sampleFrame overlongFrame
      laterFrames := alteredFrame_sample (by decide +kernel) (by decide +kernel)
  have hnames : (damagedDisk overlongFrame).active.keys.filter isPartialName =
      ["sample.bmdr.partial"] := filter_isPartialName_sample
  obtain ⟨tables, hcut⟩ := crashedAfter_three_of_torn hnames (damagedDisk_active overlongFrame) hh
    hissue rfl
  have hkept := hall _ _ _ _ _ _ _ _ _ headerBytes_sampleHeader hframe isPartialName_sample
    (damagedDisk_active overlongFrame) (noCollision_damagedDisk overlongFrame) [crashedAfter 3]
  have hactive : (afterAttempts referenceCodec [crashedAfter 3]
      (damagedDisk overlongFrame)).active.get? "sample.bmdr.partial" =
        some (encodedHeader referenceCodec sampleHeader) := by
    rw [afterAttempts, afterAttempts, hcut, Disk.withTables_active, cutBehind,
      SortedDict.get?_insert, if_pos rfl, htake]
  rcases hkept with hsame | ⟨hnone, -⟩
  · rw [hactive, Option.some.injEq, List.self_eq_append_right, List.nil_append] at hsame
    exact hframe.behind_ne_nil (List.append_eq_nil_iff.mp hsame).2
  · rw [hactive] at hnone
    cases hnone

end MarketDataRecorder
