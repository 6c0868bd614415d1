import MarketDataRecorder.Archive.Manager

/-!
# The files of a transaction on the target

A transaction has four paths on the target: its artifact and external manifest, and the temporary
and partial file that are renamed to them. What a step does there is said by the paths it touches
and by what it leaves at them.
-/

namespace MarketDataRecorder

/-! ## What a step leaves alone -/

/-- The disks agree, off these paths on the target. -/
def Apart (paths : List String) (disk disk' : ArchiveDisk) : Prop :=
  ∃ external, disk' = { disk with external := external } ∧
    ∀ path, path ∉ paths → external.get? path = disk.external.get? path

namespace Apart

variable {paths more : List String} {disk disk' disk'' : ArchiveDisk}

theorem refl : Apart paths disk disk := ⟨disk.external, rfl, fun _ _ => rfl⟩

theorem trans (h : Apart paths disk disk') (h' : Apart paths disk' disk'') :
    Apart paths disk disk'' := by
  obtain ⟨external, rfl, hsame⟩ := h
  obtain ⟨external', rfl, hsame'⟩ := h'
  exact ⟨external', rfl, fun path hpath => (hsame' path hpath).trans (hsame path hpath)⟩

theorem mono (h : Apart paths disk disk') (hsub : paths ⊆ more) : Apart more disk disk' := by
  obtain ⟨external, rfl, hsame⟩ := h
  exact ⟨external, rfl, fun path hpath => hsame path fun hc => hpath (hsub hc)⟩

theorem catalog (h : Apart paths disk disk') : disk'.catalog = disk.catalog := by
  obtain ⟨external, rfl, -⟩ := h
  rfl

theorem internal (h : Apart paths disk disk') : disk'.internal = disk.internal := by
  obtain ⟨external, rfl, -⟩ := h
  rfl

theorem targetValid (h : Apart paths disk disk') : disk'.targetValid = disk.targetValid := by
  obtain ⟨external, rfl, -⟩ := h
  rfl

theorem get? (h : Apart paths disk disk') {path : String} (hpath : path ∉ paths) :
    disk'.external.get? path = disk.external.get? path := by
  obtain ⟨external, rfl, hsame⟩ := h
  exact hsame path hpath

end Apart

/-! ## Steps -/

section

variable {Q : Unit → Option ArchiveWrite → ArchiveDisk → Prop}
  {R : String → Option ArchiveWrite → ArchiveDisk → Prop}
  {C : Option ArchiveWrite → ArchiveDisk → Prop} {last : Option ArchiveWrite} {disk : ArchiveDisk}
  {path : String}

theorem apart_create : Apart [path] disk ((ArchiveWrite.createExternal path).apply disk) := by
  refine ⟨_, rfl, fun other hother => ?_⟩
  simp [List.mem_singleton.not.mp hother]

theorem apart_append {bytes piece : Bytes} (h : disk.external.get? path = some bytes) :
    Apart [path] disk ((ArchiveWrite.appendExternal path piece).apply disk) ∧
      ((ArchiveWrite.appendExternal path piece).apply disk).external.get? path =
        some (bytes ++ piece) := by
  simp only [ArchiveWrite.apply, h]
  refine ⟨⟨_, rfl, fun other hother => ?_⟩, by simp⟩
  simp [List.mem_singleton.not.mp hother]

theorem apart_unlink : Apart [path] disk ((ArchiveWrite.unlinkExternal path).apply disk) := by
  refine ⟨_, rfl, fun other hother => ?_⟩
  simp [List.mem_singleton.not.mp hother]

theorem apart_rename {source : String} {bytes : Bytes}
    (h : disk.external.get? source = some bytes) :
    Apart [path, source] disk ((ArchiveWrite.renameExternal source path).apply disk) ∧
      ((ArchiveWrite.renameExternal source path).apply disk).external.get? path = some bytes := by
  rw [ArchiveWrite.apply_renameExternal h]
  refine ⟨⟨_, rfl, fun other hother => ?_⟩, by simp⟩
  simp only [List.mem_cons, List.not_mem_nil, or_false, not_or] at hother
  simp [hother.1, hother.2]

theorem wp_unlinkIfThere (hC : C last disk)
    (hQ : ∀ last' disk', Apart [path] disk disk' → disk'.external.get? path = none →
      Q () last' disk') :
    Durable.wp ArchiveWrite.apply Q R C (unlinkIfThere path) last disk := by
  rw [unlinkIfThere, Durable.wp_read]
  split
  · refine ⟨hC, hQ _ _ apart_unlink ?_⟩
    simp
  · next habsent => exact hQ _ _ Apart.refl (by simpa using habsent)

/-- Pieces go behind what is there, one by one. -/
theorem wp_appendPieces {bytes : Bytes} {pieces : List Bytes}
    (hpath : disk.external.get? path = some bytes)
    (hC : ∀ last' disk', Apart [path] disk disk' → C last' disk')
    (hQ : ∀ last' disk', Apart [path] disk disk' →
      disk'.external.get? path = some (bytes ++ pieces.flatten) → Q () last' disk') :
    Durable.wp ArchiveWrite.apply Q R C (appendPieces path pieces) last disk := by
  induction pieces generalizing last disk bytes with
  | nil => exact hQ last disk Apart.refl (by simpa using hpath)
  | cons piece rest ih =>
    obtain ⟨hapart, hthere⟩ := @apart_append disk path bytes piece hpath
    refine ⟨hC last disk Apart.refl, ih hthere ?_ ?_⟩
    · intro last' disk' hapart'
      exact hC last' disk' (hapart.trans hapart')
    · intro last' disk' hapart' hbytes
      refine hQ last' disk' (hapart.trans hapart') ?_
      simpa using hbytes

/-- A new file with these pieces, in place of what is there. -/
theorem wp_writeFile {pieces : List Bytes}
    (hC : ∀ last' disk', Apart [path] disk disk' → C last' disk')
    (hQ : ∀ last' disk', Apart [path] disk disk' →
      disk'.external.get? path = some pieces.flatten → Q () last' disk') :
    Durable.wp ArchiveWrite.apply Q R C (do
      unlinkIfThere path
      .perform (.createExternal path)
      appendPieces path pieces) last disk := by
  rw [Durable.wp_bind]
  refine wp_unlinkIfThere (hC last disk Apart.refl) fun last' disk' hapart habsent => ?_
  rw [Durable.wp_bind]
  refine ⟨hC last' disk' hapart, ?_⟩
  have hcreate := hapart.trans (@apart_create disk' path)
  have hempty : ((ArchiveWrite.createExternal path).apply disk').external.get? path = some [] := by
    simp
  refine wp_appendPieces hempty ?_ ?_
  · intro last'' disk'' hapart'
    exact hC last'' disk'' (hcreate.trans hapart')
  · intro last'' disk'' hapart' hbytes
    exact hQ last'' disk'' (hcreate.trans hapart') (by simpa using hbytes)

end

end MarketDataRecorder
