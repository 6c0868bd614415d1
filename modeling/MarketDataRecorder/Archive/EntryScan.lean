import MarketDataRecorder.Archive.EntryCommit

/-!
# What scans of an Archive Set return

A commit leaves its temporary file in the directory that scans list, where it is cut off or its
removal fails, and a scan refuses every name that does not end in `.json`. So a scan reports exactly
the entries that were published if and only if no temporary file stood there when it listed the
directory.

* `EntryMedium.Inv` — what is in the directory, in every state
* `ArchiveSetStore.wp_commitEntry`, `ArchiveSetStore.wp_scan` — what one call does among others
* `ArchiveSetStore.scan_exact_iff` — which scans report the entries
-/

namespace MarketDataRecorder

/-! ## Names -/

theorem temporaryName_ne_fileName (chunkId : String) (token : Token) (e : ArchiveSetEntry) :
    temporaryName chunkId token ≠ e.fileName := by
  intro h
  have hlast := congrArg (fun name => name.toList.getLast?) h
  simp only [temporaryName, ArchiveSetEntry.fileName, String.toList_append] at hlast
  rw [List.getLast?_append_of_ne_nil _ (by decide), List.getLast?_append_of_ne_nil _ (by decide)]
    at hlast
  exact absurd hlast (by decide)

/-- A temporary name tells the chunk and the token. -/
theorem temporaryName_injective {chunkId chunkId' : String} {token token' : Token}
    (h : temporaryName chunkId token = temporaryName chunkId' token') :
    chunkId = chunkId' ∧ token = token' := by
  have hchars := congrArg String.toList h
  simp only [temporaryName, String.toList_append] at hchars
  have hboth := List.append_cancel_right hchars
  have htoken := List.append_inj_right' hboth (token.length.trans token'.length.symm)
  have hchunk := List.append_cancel_right (List.append_inj_left' hboth
    (token.length.trans token'.length.symm))
  refine ⟨String.toList_inj.mp (List.append_cancel_left hchunk), ?_⟩
  cases token
  cases token'
  cases String.toList_inj.mp htoken
  rfl

/-- What comes behind the last dot. -/
theorem takeWhile_reverse_ending {start ending : List Char} (h : '.' ∉ ending) :
    ((start ++ '.' :: ending).reverse.takeWhile (· ≠ '.')).reverse = ending := by
  have hplain : ∀ c ∈ ending.reverse, decide (c ≠ '.') = true := by
    intro c hc
    rw [decide_eq_true_eq]
    rintro rfl
    exact h (List.mem_reverse.mp hc)
  rw [List.reverse_append, List.reverse_cons, List.append_assoc,
    List.takeWhile_append_of_pos hplain]
  simp

theorem nameSuffix_of_ending {name : String} {start ending : List Char}
    (hname : name.toList = start ++ '.' :: ending) (hstart : start ≠ []) (hending : '.' ∉ ending)
    (hne : ending ≠ []) : nameSuffix name = '.' :: ending := by
  have hlength := List.length_pos_of_ne_nil hstart
  rw [nameSuffix, hname, takeWhile_reverse_ending hending]
  refine if_pos ⟨hne, ?_⟩
  rw [List.length_append, List.length_cons]
  omega

theorem nameSuffix_fileName {e : ArchiveSetEntry} (h : e.chunkId ≠ "") :
    nameSuffix e.fileName = ".json".toList := by
  refine @nameSuffix_of_ending _ e.chunkId.toList "json".toList ?_ ?_ (by decide) (by decide)
  · rw [ArchiveSetEntry.fileName, String.toList_append]
    rfl
  · intro hnil
    exact h (String.toList_inj.mp hnil)

theorem nameSuffix_temporaryName (chunkId : String) (token : Token) :
    nameSuffix (temporaryName chunkId token) = ".partial".toList := by
  refine @nameSuffix_of_ending _
    (".".toList ++ chunkId.toList ++ ".json.".toList ++ token.text.toList)
    "partial".toList ?_ (by simp) (by decide) (by decide)
  simp only [temporaryName, String.toList_append]
  rfl

/-! ## The directory of the entries -/

namespace EntryMedium

theorem isSome_entries_of_file {m : EntryMedium} {name : String} {bytes : Bytes}
    (h : m.file? name = some bytes) : m.entries.isSome := by
  obtain ⟨files, hfiles, -⟩ := Option.bind_eq_some_iff.mp h
  rw [hfiles]
  rfl

theorem file?_put {m : EntryMedium} (h : m.entries.isSome) (name : String) (bytes : Bytes)
    (name' : String) :
    (m.put name bytes).file? name' = if name' = name then some bytes else m.file? name' := by
  obtain ⟨files, hfiles⟩ := Option.isSome_iff_exists.mp h
  simp [put, file?, hfiles, SortedDict.get?_insert, eq_comm]

theorem file?_remove (m : EntryMedium) (name name' : String) :
    (m.remove name).file? name' = if name' = name then none else m.file? name' := by
  cases hfiles : m.entries with
  | none => simp [remove, file?, hfiles]
  | some files => simp [remove, file?, hfiles, SortedDict.get?_erase, eq_comm]

theorem mem_listing {m : EntryMedium} {name : String} :
    name ∈ (m.entries.map SortedDict.keys).getD [] ↔ (m.file? name).isSome := by
  cases hfiles : m.entries with
  | none => simp [file?, hfiles]
  | some files => simp [file?, hfiles, SortedDict.mem_keys, Option.isSome_iff_exists]

/-- What is published is there, as its own bytes; what is there is published, or is the temporary
file of a commit that stands. -/
structure Inv (identity : ArchiveMediumIdentity) (m : EntryMedium) : Prop where
  published : ∀ e ∈ m.published, e.validateBinding identity = .ok () ∧
    ∃ bytes, e.canonicalBytes = .ok bytes ∧ m.file? e.fileName = some bytes
  distinct : (m.published.map ArchiveSetEntry.fileName).Nodup
  standing : ∀ x ∈ m.standing, (m.file? (temporaryName x.1 x.2)).isSome
  named : ∀ name, (m.file? name).isSome →
    (∃ e ∈ m.published, name = e.fileName) ∨ ∃ x ∈ m.standing, name = temporaryName x.1 x.2

section

variable {identity : ArchiveMediumIdentity} {s t : EntryMedium} {chunkId : String} {i : Token}

theorem inv_empty : Inv identity {} where
  published := by simp
  distinct := List.nodup_nil
  standing := by simp
  named := by simp [file?]

/-- A temporary file that is there is that of a commit that stands. -/
theorem Inv.standing_of_file (h : s.Inv identity)
    (hfile : (s.file? (temporaryName chunkId i)).isSome) : (chunkId, i) ∈ s.standing := by
  rcases h.named _ hfile with ⟨e, -, hname⟩ | ⟨x, hx, hname⟩
  · exact absurd hname (temporaryName_ne_fileName chunkId i e)
  · obtain ⟨rfl, rfl⟩ := temporaryName_injective hname
    exact hx

/-- A temporary file is made or written. -/
theorem Inv.put (h : s.Inv identity) {bytes : Bytes}
    (hfile : ∀ name, t.file? name =
      if name = temporaryName chunkId i then some bytes else s.file? name)
    (hpublished : t.published = s.published)
    (hstanding : ∀ x, x ∈ t.standing ↔ x = (chunkId, i) ∨ x ∈ s.standing) : t.Inv identity where
  published := by
    rw [hpublished]
    intro e he
    obtain ⟨hbinding, bytes', hbytes', hthere⟩ := h.published e he
    refine ⟨hbinding, bytes', hbytes', ?_⟩
    rw [hfile, if_neg (temporaryName_ne_fileName chunkId i e).symm, hthere]
  distinct := hpublished ▸ h.distinct
  standing := by
    intro x hx
    rw [hfile]
    split
    · rfl
    · next hne =>
      rcases (hstanding x).mp hx with rfl | hx
      · exact absurd rfl hne
      · exact h.standing x hx
  named := by
    intro name hname
    rw [hfile] at hname
    split at hname
    · next heq => exact Or.inr ⟨(chunkId, i), (hstanding _).mpr (Or.inl rfl), heq⟩
    · rcases h.named name hname with ⟨e, he, heq⟩ | ⟨x, hx, heq⟩
      · exact Or.inl ⟨e, hpublished ▸ he, heq⟩
      · exact Or.inr ⟨x, (hstanding x).mpr (Or.inr hx), heq⟩

/-- A temporary file is removed. -/
theorem Inv.remove (h : s.Inv identity)
    (hfile : ∀ name, t.file? name =
      if name = temporaryName chunkId i then none else s.file? name)
    (hpublished : t.published = s.published)
    (hstanding : ∀ x, x ∈ t.standing ↔ x ∈ s.standing ∧ x ≠ (chunkId, i)) : t.Inv identity where
  published := by
    rw [hpublished]
    intro e he
    obtain ⟨hbinding, bytes, hbytes, hthere⟩ := h.published e he
    refine ⟨hbinding, bytes, hbytes, ?_⟩
    rw [hfile, if_neg (temporaryName_ne_fileName chunkId i e).symm, hthere]
  distinct := hpublished ▸ h.distinct
  standing := by
    intro x hx
    obtain ⟨hx, hne⟩ := (hstanding x).mp hx
    rw [hfile, if_neg]
    · exact h.standing x hx
    · intro heq
      obtain ⟨hchunk, htoken⟩ := temporaryName_injective heq
      exact hne (Prod.ext hchunk htoken)
  named := by
    intro name hname
    rw [hfile] at hname
    split at hname
    · cases hname
    · next hne =>
      rcases h.named name hname with ⟨e, he, heq⟩ | ⟨x, hx, heq⟩
      · exact Or.inl ⟨e, hpublished ▸ he, heq⟩
      · refine Or.inr ⟨x, (hstanding x).mpr ⟨hx, ?_⟩, heq⟩
        rintro rfl
        exact hne heq

/-- A temporary file with the bytes of its entry gets the name of the entry, where that is free. -/
theorem Inv.publish (h : s.Inv identity) {entry : ArchiveSetEntry} {bytes : Bytes}
    (hbound : entry.validateBinding identity = .ok ()) (hbytes : entry.canonicalBytes = .ok bytes)
    (hfree : s.file? entry.fileName = none)
    (hfile : ∀ name, t.file? name =
      if name = entry.fileName then some bytes
      else if name = temporaryName entry.chunkId i then none else s.file? name)
    (hpublished : t.published = s.published ++ [entry])
    (hstanding : ∀ x, x ∈ t.standing ↔ x ∈ s.standing ∧ x ≠ (entry.chunkId, i)) :
    t.Inv identity where
  published := by
    rw [hpublished]
    intro e he
    rcases List.mem_append.mp he with he | he
    · obtain ⟨hbinding, bytes', hbytes', hthere⟩ := h.published e he
      refine ⟨hbinding, bytes', hbytes', ?_⟩
      rw [hfile, if_neg, if_neg (temporaryName_ne_fileName entry.chunkId i e).symm, hthere]
      intro heq
      rw [heq, hfree] at hthere
      cases hthere
    · cases List.mem_singleton.mp he
      exact ⟨hbound, bytes, hbytes, by rw [hfile, if_pos rfl]⟩
  distinct := by
    rw [hpublished, List.map_append, List.nodup_append]
    refine ⟨h.distinct, by simp, ?_⟩
    rintro name hname name' hname' rfl
    obtain ⟨e, he, hname⟩ := List.mem_map.mp hname
    obtain ⟨-, bytes', -, hthere⟩ := h.published e he
    rw [hname, List.mem_singleton.mp hname', hfree] at hthere
    cases hthere
  standing := by
    intro x hx
    obtain ⟨hx, hne⟩ := (hstanding x).mp hx
    rw [hfile, if_neg (temporaryName_ne_fileName x.1 x.2 entry), if_neg]
    · exact h.standing x hx
    · intro heq
      obtain ⟨hchunk, htoken⟩ := temporaryName_injective heq
      exact hne (Prod.ext hchunk htoken)
  named := by
    intro name hname
    rw [hfile] at hname
    split at hname
    · next heq => exact Or.inl ⟨entry, by simp [hpublished], heq⟩
    · split at hname
      · cases hname
      · next hne =>
        rcases h.named name hname with ⟨e, he, heq⟩ | ⟨x, hx, heq⟩
        · exact Or.inl ⟨e, by simp [hpublished, he], heq⟩
        · refine Or.inr ⟨x, (hstanding x).mpr ⟨hx, ?_⟩, heq⟩
          rintro rfl
          exact hne heq

/-- A file under a final name is that of the entry that was published under it. -/
theorem Inv.published_of_file (h : s.Inv identity) {entry : ArchiveSetEntry} {bytes : Bytes}
    (hfile : s.file? entry.fileName = some bytes) :
    ∃ e ∈ s.published, e.fileName = entry.fileName ∧ ArchiveSetEntry.readEntry bytes = .ok e := by
  rcases h.named entry.fileName (by rw [hfile]; rfl) with ⟨e, he, hname⟩ | ⟨x, -, hname⟩
  · obtain ⟨-, bytes', hbytes', hthere⟩ := h.published e he
    rw [← hname, hfile] at hthere
    cases hthere
    exact ⟨e, he, hname.symm, ArchiveSetEntry.readEntry_canonicalBytes hbytes'⟩
  · exact absurd hname.symm (temporaryName_ne_fileName x.1 x.2 entry)

end

end EntryMedium

/-! ## One call among others -/

namespace ArchiveSetStore

open Interleaved

/-- What others do meanwhile: the temporary files of a call are its own. -/
structure Others (identity : ArchiveMediumIdentity) (i : Token) (s t : EntryMedium) : Prop where
  inv : s.Inv identity → t.Inv identity
  published : ∀ e ∈ s.published, e ∈ t.published
  own : ∀ chunkId, t.file? (temporaryName chunkId i) = s.file? (temporaryName chunkId i)

/-- What a call does. -/
structure Keeps (identity : ArchiveMediumIdentity) (i : Token) (s t : EntryMedium) : Prop where
  inv : s.Inv identity → t.Inv identity
  published : ∀ e ∈ s.published, e ∈ t.published
  others : ∀ j, i ≠ j → ∀ chunkId,
    t.file? (temporaryName chunkId j) = s.file? (temporaryName chunkId j)

theorem Others.refl (identity : ArchiveMediumIdentity) (i : Token) (s : EntryMedium) :
    Others identity i s s :=
  ⟨id, fun _ he => he, fun _ => rfl⟩

theorem Others.trans {identity : ArchiveMediumIdentity} {i : Token} {s t u : EntryMedium}
    (h : Others identity i s t) (h' : Others identity i t u) : Others identity i s u :=
  ⟨fun hs => h'.inv (h.inv hs), fun e he => h'.published e (h.published e he),
    fun chunkId => (h'.own chunkId).trans (h.own chunkId)⟩

theorem Keeps.refl (identity : ArchiveMediumIdentity) (i : Token) (s : EntryMedium) :
    Keeps identity i s s :=
  ⟨id, fun _ he => he, fun _ _ _ => rfl⟩

section

variable {identity : ArchiveMediumIdentity} {i : Token} {s t : EntryMedium} {α : Type}
  {Q : α → EntryMedium → Prop} {E : ArchiveError → EntryMedium → Prop}

/-- What a call has in its own temporary file, on a medium that is in order. -/
structure Own (identity : ArchiveMediumIdentity) (i : Token) (chunkId : String)
    (bytes : Bytes) (m : EntryMedium) : Prop where
  inv : m.Inv identity
  file : m.file? (temporaryName chunkId i) = some bytes

theorem Own.of_others {chunkId : String} {bytes : Bytes} (h : Own identity i chunkId bytes s)
    (hothers : Others identity i s t) : Own identity i chunkId bytes t :=
  ⟨hothers.inv h.inv, (hothers.own chunkId).trans h.file⟩

/-- The rule of a call to the operating system. -/
theorem wp_entryCall {f : Nat → EntryMedium → Except String α × EntryMedium}
    (h : ∀ n, Keeps identity i s (f n s).2 ∧ ∀ t, Others identity i (f n s).2 t →
      (∀ a, (f n s).1 = .ok a → Q a t) ∧ ∀ text, (f n s).1 = .error text → E (.os text) t)
    (hfails : ∀ text t, Others identity i s t → E (.os text) t) :
    wp (Others identity i) (Keeps identity i) Q E (entryCall f) s := by
  refine wp_call fun c => ?_
  cases c with
  | fails text =>
    refine ⟨Keeps.refl identity i s, fun t ht => ⟨by rintro a ⟨⟩, ?_⟩⟩
    rintro e ⟨⟩
    exact hfails text t ht
  | done n =>
    obtain ⟨hkeeps, hends⟩ := h n
    refine ⟨hkeeps, fun t ht => ⟨fun a ha => ?_, fun e he => ?_⟩⟩
    · exact (hends t ht).1 a (except_mapError_eq_ok ha)
    · cases hf : (f n s).1 with
      | ok a =>
        have he' : ((f n s).1.mapError ArchiveError.os) = .error e := he
        rw [hf] at he'
        cases he'
      | error text =>
        have he' : ((f n s).1.mapError ArchiveError.os) = .error e := he
        rw [hf] at he'
        cases he'
        exact (hends t ht).2 text hf

/-- The rule of a look at the medium. -/
theorem wp_look {f : EntryMedium → Except ArchiveError α}
    (h : ∀ t, Others identity i s t →
      (∀ a, f s = .ok a → Q a t) ∧ ∀ e, f s = .error e → E e t) :
    wp (Others identity i) (Keeps identity i) Q E (look f) s :=
  wp_call fun _ => ⟨Keeps.refl identity i s, h⟩

theorem wp_sync {P : EntryMedium → Prop} (h : ∀ t, Others identity i s t → P t) :
    wp (Others identity i) (Keeps identity i) (fun _ => P) (fun _ => P) sync s :=
  wp_entryCall (fun _ => ⟨Keeps.refl identity i s, fun t ht =>
    ⟨fun _ _ => h t ht, by rintro text ⟨⟩⟩⟩) fun _ t ht => h t ht

end

/-! ## Commits -/

section

variable {identity : ArchiveMediumIdentity} {i : Token} {s t : EntryMedium}
  {entry : ArchiveSetEntry} {payload : Bytes}

/-- A change of one's own temporary file and of final names is no concern of others. -/
theorem Keeps.of_file (chunkId : String) (hinv : s.Inv identity → t.Inv identity)
    (hpublished : ∀ e ∈ s.published, e ∈ t.published)
    (hfile : ∀ name, name ≠ temporaryName chunkId i →
      (∀ e : ArchiveSetEntry, name ≠ e.fileName) → t.file? name = s.file? name) :
    Keeps identity i s t := by
  refine ⟨hinv, hpublished, fun j hj chunkId' => hfile _ ?_ (temporaryName_ne_fileName chunkId' j)⟩
  intro heq
  exact hj (temporaryName_injective heq).2.symm

theorem wp_createTemporary {chunkId : String} (h : s.Inv identity) :
    wp (Others identity i) (Keeps identity i) (fun _ => Own identity i chunkId [])
      (fun _ m => m.Inv identity) (createTemporary chunkId i) s := by
  refine wp_entryCall (fun n => ?_) fun _ t ht => ht.inv h
  have hrefused : ∀ text : String, Keeps identity i s s ∧ ∀ t, Others identity i s t →
      (∀ a : Unit, (Except.error text : Except String Unit) = .ok a →
        Own identity i chunkId [] t) ∧
      ∀ text', (Except.error text : Except String Unit) = .error text' → t.Inv identity :=
    fun _ => ⟨Keeps.refl identity i s, fun t ht => ⟨by rintro a ⟨⟩, fun _ _ => ht.inv h⟩⟩
  by_cases hnone : s.entries.isNone
  · simp only [if_pos hnone]
    exact hrefused _
  by_cases hthere : (s.file? (temporaryName chunkId i)).isSome
  · simp only [if_neg hnone, if_pos hthere]
    exact hrefused _
  simp only [if_neg hnone, if_neg hthere]
  have hsome : s.entries.isSome := by
    rw [Option.isSome_iff_ne_none]
    exact fun h => hnone (by rw [h]; rfl)
  have hput : ∀ name, (s.put (temporaryName chunkId i) []).file? name =
      if name = temporaryName chunkId i then some [] else s.file? name :=
    s.file?_put hsome (temporaryName chunkId i) []
  have hinv : EntryMedium.Inv identity { s.put (temporaryName chunkId i) [] with
      standing := (chunkId, i) :: s.standing } :=
    h.put hput rfl fun x => List.mem_cons
  refine ⟨.of_file chunkId (fun _ => hinv) (fun _ he => he) fun name hname _ => ?_,
    fun t ht => ⟨?_, ?_⟩⟩
  · exact (hput name).trans (if_neg hname)
  · intro _ _
    exact Own.of_others ⟨hinv, (hput _).trans (if_pos rfl)⟩ ht
  · rintro text ⟨⟩

theorem wp_writeTemporary {chunkId : String} {written remaining : Bytes}
    (h : Own identity i chunkId written s) :
    wp (Others identity i) (Keeps identity i)
      (fun n => Own identity i chunkId (written ++ remaining.take n))
      (fun _ m => m.Inv identity) (writeTemporary chunkId i remaining) s := by
  refine wp_entryCall (fun n => ?_) fun _ t ht => ht.inv h.inv
  simp only [h.file]
  have hput : ∀ name, (s.put (temporaryName chunkId i) (written ++ remaining.take n)).file? name =
      if name = temporaryName chunkId i then some (written ++ remaining.take n)
      else s.file? name :=
    s.file?_put (EntryMedium.isSome_entries_of_file h.file) _ _
  have hinv : (s.put (temporaryName chunkId i) (written ++ remaining.take n)).Inv identity := by
    refine h.inv.put hput rfl fun x => (or_iff_right_of_imp ?_).symm
    rintro rfl
    exact h.inv.standing_of_file (by rw [h.file]; rfl)
  refine ⟨.of_file chunkId (fun _ => hinv) (fun _ he => he) fun name hname _ => ?_,
    fun t ht => ⟨?_, ?_⟩⟩
  · exact (hput name).trans (if_neg hname)
  · rintro a ⟨⟩
    have htake : remaining.take (min n remaining.length) = remaining.take n := by
      rw [List.take_eq_take_iff]
      omega
    rw [htake]
    exact Own.of_others ⟨hinv, (hput _).trans (if_pos rfl)⟩ ht
  · rintro text ⟨⟩

/-- **The loop of writes** leaves all bytes in the file, however far each write comes. -/
theorem wp_writeAll {chunkId : String} : ∀ (fuel : Nat) {remaining written : Bytes}
    {s : EntryMedium}, remaining.length ≤ fuel → Own identity i chunkId written s →
      wp (Others identity i) (Keeps identity i)
        (fun _ => Own identity i chunkId (written ++ remaining)) (fun _ m => m.Inv identity)
        (writeAll chunkId i fuel remaining) s
  | 0, remaining, written, s, hfuel, h => by
    obtain rfl := List.eq_nil_of_length_eq_zero (Nat.le_zero.mp hfuel)
    rw [List.append_nil]
    exact h
  | fuel + 1, remaining, written, s, hfuel, h => by
    rw [writeAll]
    split
    · next hnil =>
      subst hnil
      rw [List.append_nil]
      exact h
    · rw [wp_bind]
      refine wp_mono (wp_writeTemporary h) (fun n t ht => ?_) fun _ _ hinv => hinv
      split
      · exact ht.inv
      · have hlength : (remaining.drop n).length ≤ fuel := by
          rw [List.length_drop]
          omega
        have hrest := wp_writeAll fuel hlength ht
        rw [List.append_assoc, List.take_append_drop] at hrest
        exact hrest

/-- A medium in order, with the entry published where that was reported. -/
def Settled (identity : ArchiveMediumIdentity) (entry : ArchiveSetEntry) (published : Bool)
    (m : EntryMedium) : Prop :=
  m.Inv identity ∧ (published = true → entry ∈ m.published)

theorem Settled.of_others {published : Bool} (h : Settled identity entry published s)
    (hothers : Others identity i s t) : Settled identity entry published t :=
  ⟨hothers.inv h.1, fun hpublished => hothers.published entry (h.2 hpublished)⟩

theorem wp_publishNoClobber (hbound : entry.validateBinding identity = .ok ())
    (hpayload : entry.canonicalBytes = .ok payload)
    (h : Own identity i entry.chunkId payload s) :
    wp (Others identity i) (Keeps identity i) (Settled identity entry)
      (fun _ m => m.Inv identity) (publishNoClobber entry i) s := by
  refine wp_entryCall (fun n => ?_) fun _ t ht => ht.inv h.inv
  simp only [h.file]
  by_cases hthere : (s.file? entry.fileName).isSome
  · simp only [if_pos hthere]
    refine ⟨Keeps.refl identity i s, fun t ht => ⟨?_, by rintro text ⟨⟩⟩⟩
    rintro a ⟨⟩
    exact ⟨ht.inv h.inv, by rintro ⟨⟩⟩
  simp only [if_neg hthere]
  have hsome : (s.remove (temporaryName entry.chunkId i)).entries.isSome := by
    show (s.entries.map _).isSome
    rw [Option.isSome_map]
    exact EntryMedium.isSome_entries_of_file h.file
  have hfile : ∀ name,
      ((s.remove (temporaryName entry.chunkId i)).put entry.fileName payload).file? name =
        if name = entry.fileName then some payload
        else if name = temporaryName entry.chunkId i then none else s.file? name := by
    intro name
    rw [EntryMedium.file?_put hsome, EntryMedium.file?_remove]
  have hinv : EntryMedium.Inv identity
      { (s.remove (temporaryName entry.chunkId i)).put entry.fileName payload with
        published := s.published ++ [entry]
        standing := s.standing.filter (· ≠ (entry.chunkId, i)) } :=
    h.inv.publish hbound hpayload (by simpa using hthere) hfile rfl fun x => by
      rw [List.mem_filter, decide_eq_true_eq]
  refine ⟨.of_file entry.chunkId (fun _ => hinv)
    (fun _ he => List.mem_append_left _ he) fun name hname hfinal => ?_, fun t ht => ⟨?_, ?_⟩⟩
  · exact (hfile name).trans ((if_neg (hfinal entry)).trans (if_neg hname))
  · rintro a ⟨⟩
    refine Settled.of_others ⟨hinv, fun _ => ?_⟩ ht
    exact List.mem_append_right _ (List.mem_singleton_self entry)
  · rintro text ⟨⟩

theorem wp_unlinkTemporary {chunkId : String} {published : Bool}
    (h : Settled identity entry published s) :
    wp (Others identity i) (Keeps identity i) (fun _ => Settled identity entry published)
      (fun _ => Settled identity entry published) (unlinkTemporary chunkId i) s := by
  refine wp_entryCall (fun n => ?_) fun _ t ht => h.of_others ht
  have hremove := s.file?_remove (temporaryName chunkId i)
  have hinv : EntryMedium.Inv identity { s.remove (temporaryName chunkId i) with
      standing := s.standing.filter (· ≠ (chunkId, i)) } :=
    h.1.remove hremove rfl fun x => by rw [List.mem_filter, decide_eq_true_eq]
  refine ⟨.of_file chunkId (fun _ => hinv) (fun _ he => he) fun name hname _ => ?_,
    fun t ht => ⟨?_, ?_⟩⟩
  · exact (hremove name).trans (if_neg hname)
  · intro _ _
    exact Settled.of_others ⟨hinv, h.2⟩ ht
  · rintro text ⟨⟩

/-- **The publication of an entry**: where it reports so, the entry is published. -/
theorem wp_atomicPublish (hbound : entry.validateBinding identity = .ok ())
    (hpayload : entry.canonicalBytes = .ok payload) (h : s.Inv identity) :
    wp (Others identity i) (Keeps identity i) (Settled identity entry)
      (fun _ m => m.Inv identity) (atomicPublish entry i payload) s := by
  rw [atomicPublish, wp_bind, wp_attempt]
  -- what the body does; its cleanup follows in either case
  suffices hbody : wp (Others identity i) (Keeps identity i) (Settled identity entry)
      (fun _ m => m.Inv identity)
      (do
        createTemporary entry.chunkId i
        writeAll entry.chunkId i payload.length payload
        sync
        let published ← publishNoClobber entry i
        sync
        return published) s by
    refine wp_mono hbody (fun published t ht => ?_) fun e t ht => ?_
    · rw [wp_bind, wp_attempt]
      refine wp_mono (wp_unlinkTemporary ht) (fun _ u hu => ?_) fun _ u hu => ?_
      · exact wp_ofExcept.mpr ⟨fun a ha => (Except.ok.inj ha) ▸ hu, by rintro e ⟨⟩⟩
      · exact wp_ofExcept.mpr ⟨fun a ha => (Except.ok.inj ha) ▸ hu, by rintro e ⟨⟩⟩
    · rw [wp_bind, wp_attempt]
      have hsettled : Settled identity entry false t := ⟨ht, by rintro ⟨⟩⟩
      refine wp_mono (wp_unlinkTemporary hsettled) (fun _ u hu => ?_) fun _ u hu => ?_
      · exact wp_ofExcept.mpr ⟨by rintro a ⟨⟩, fun _ _ => hu.1⟩
      · exact wp_ofExcept.mpr ⟨by rintro a ⟨⟩, fun _ _ => hu.1⟩
  rw [wp_bind]
  refine wp_mono (wp_createTemporary h) (fun _ t ht => ?_) fun _ _ hinv => hinv
  rw [wp_bind]
  refine wp_mono (wp_writeAll payload.length le_rfl ht) (fun _ t ht => ?_) fun _ _ hinv => hinv
  rw [List.nil_append] at ht
  rw [wp_bind]
  refine wp_mono (wp_sync fun u hu => ht.of_others hu) (fun _ t ht => ?_)
    fun _ _ hown => hown.inv
  rw [wp_bind]
  refine wp_mono (wp_publishNoClobber hbound hpayload ht) (fun published t ht => ?_)
    fun _ _ hinv => hinv
  rw [wp_bind]
  exact wp_mono (wp_sync fun u hu => ht.of_others hu) (fun _ _ hu => hu) fun _ _ hu => hu.1

theorem wp_ensureInventoryDirectories (h : s.Inv identity) :
    wp (Others identity i) (Keeps identity i) (fun _ m => m.Inv identity)
      (fun _ m => m.Inv identity) ensureInventoryDirectories s := by
  have hsync : ∀ {u : EntryMedium}, u.Inv identity →
      wp (Others identity i) (Keeps identity i) (fun _ m => m.Inv identity)
        (fun _ m => m.Inv identity) sync u :=
    fun hu => wp_sync fun v hv => hv.inv hu
  have hfiles : ∀ {u v : EntryMedium}, u.Inv identity → (∀ name, v.file? name = u.file? name) →
      v.published = u.published → v.standing = u.standing → v.Inv identity := by
    intro u v hu hfile hpublished hstanding
    refine ⟨?_, hpublished ▸ hu.distinct, ?_, ?_⟩
    · simpa only [hpublished, hfile] using hu.published
    · simpa only [hstanding, hfile] using hu.standing
    · simpa only [hpublished, hstanding, hfile] using hu.named
  rw [ensureInventoryDirectories, wp_bind]
  refine wp_mono (Q := fun _ m => m.Inv identity) (E := fun _ m => m.Inv identity) ?_
    (fun _ t ht => ?_) fun _ _ hinv => hinv
  · have hinv := hfiles (v := { s with archiveSet := true }) h (fun _ => rfl) rfl rfl
    exact wp_entryCall (fun _ => ⟨⟨fun _ => hinv, fun _ he => he, fun _ _ _ => rfl⟩,
      fun t ht => ⟨fun _ _ => ht.inv hinv, by rintro text ⟨⟩⟩⟩) fun _ t ht => ht.inv h
  rw [wp_bind]
  refine wp_mono (Q := fun _ m => m.Inv identity) (E := fun _ m => m.Inv identity) ?_
    (fun _ t ht => ?_) fun _ _ hinv => hinv
  · refine wp_entryCall (fun _ => ?_) fun _ u hu => hu.inv ht
    split
    · have hfile : ∀ name,
          EntryMedium.file? { t with entries := some (t.entries.getD .empty) } name =
            t.file? name := by
        intro name
        cases hentries : t.entries <;> simp [EntryMedium.file?, hentries]
      have hinv := hfiles ht hfile rfl rfl
      exact ⟨⟨fun _ => hinv, fun _ he => he, fun _ _ _ => hfile _⟩,
        fun u hu => ⟨fun _ _ => hu.inv hinv, by rintro text ⟨⟩⟩⟩
    · exact ⟨Keeps.refl identity i t,
        fun u hu => ⟨by rintro a ⟨⟩, fun _ _ => hu.inv ht⟩⟩
  rw [wp_bind]
  refine wp_mono (hsync ht) (fun _ t ht => ?_) fun _ _ hinv => hinv
  rw [wp_bind]
  exact wp_mono (hsync ht) (fun _ t ht => hsync ht) fun _ _ hinv => hinv

/-- What a final name holds was published. -/
theorem wp_readEntryFile (h : s.Inv identity) :
    wp (Others identity i) (Keeps identity i) (fun e m => m.Inv identity ∧ e ∈ m.published)
      (fun _ m => m.Inv identity) (readEntryFile entry.fileName) s := by
  refine wp_look fun t ht => ⟨fun a ha => ?_, fun _ _ => ht.inv h⟩
  cases hfile : s.file? entry.fileName with
  | none =>
    simp only [hfile] at ha
    cases ha
  | some bytes =>
    obtain ⟨e, he, -, hread⟩ := h.published_of_file hfile
    simp only [hfile, hread] at ha
    cases ha
    exact ⟨ht.inv h, ht.published _ he⟩

/-- **A commit** that returns an entry returns the one it was given, and that is published. -/
theorem wp_commitEntry (h : s.Inv identity) :
    wp (Others identity i) (Keeps identity i) (fun e m => e = entry ∧ entry ∈ m.published)
      (fun _ _ => True) (commitEntry identity entry i) s := by
  have hexisting : ∀ {existing : ArchiveSetEntry} {u : EntryMedium}, existing ∈ u.published →
      wp (Others identity i) (Keeps identity i) (fun e m => e = entry ∧ entry ∈ m.published)
        (fun _ _ => True)
        (if existing = entry then (pure existing : EntryProgram ArchiveSetEntry)
          else .raise (.archiveSet "existing Archive Set entry conflicts")) u := by
    intro existing u hu
    split
    · next heq => exact ⟨heq, heq ▸ hu⟩
    · trivial
  rw [commitEntry, wp_bind]
  refine wp_ofExcept.mpr ⟨fun _ _ => ?_, fun _ _ => trivial⟩
  rw [wp_bind]
  refine wp_ofExcept.mpr ⟨fun _ hbound => ?_, fun _ _ => trivial⟩
  rw [wp_bind]
  refine wp_mono (wp_ensureInventoryDirectories h) (fun _ t ht => ?_) fun _ _ _ => trivial
  rw [wp_bind]
  refine wp_look fun u hu => ⟨fun existed _ => ?_, fun _ _ => trivial⟩
  have hu := hu.inv ht
  split
  · rw [wp_bind]
    refine wp_mono (wp_readEntryFile hu) (fun existing v hv => ?_) fun _ _ _ => trivial
    split
    · next heq =>
      rw [wp_bind]
      refine wp_mono (wp_sync (P := fun m => entry ∈ m.published)
        fun w hw => hw.published entry (heq ▸ hv.2)) (fun _ w hw => ?_) fun _ _ _ => trivial
      exact ⟨heq, hw⟩
    · trivial
  · rw [wp_bind]
    refine wp_ofExcept.mpr ⟨fun payload hpayload => ?_, fun _ _ => trivial⟩
    rw [wp_bind]
    refine wp_mono (wp_atomicPublish hbound hpayload hu) (fun published v hv => ?_)
      fun _ _ _ => trivial
    dsimp only
    split
    · next hpublished => exact hexisting (hv.2 hpublished)
    · rw [wp_bind]
      exact wp_mono (wp_readEntryFile hv.1) (fun existing w hw => hexisting hw.2)
        fun _ _ _ => trivial

end

/-! ## Scans -/

section

variable {identity : ArchiveMediumIdentity} {i : Token} {s : EntryMedium}

/-- A name in the directory of the entries. -/
def Listed (published : List ArchiveSetEntry) (name : String) : Prop :=
  (∃ e ∈ published, name = e.fileName) ∨ ∃ chunkId token, name = temporaryName chunkId token

/-- **The loop of a scan** reads the entries of the names, or comes upon a temporary file. -/
theorem wp_readListed {published : List ArchiveSetEntry} :
    ∀ {names : List String} {s : EntryMedium}, s.Inv identity →
      (∀ e ∈ published, e ∈ s.published) → (∀ name ∈ names, Listed published name) →
        wp (Others identity i) (Keeps identity i)
          (fun entries _ => entries.map ArchiveSetEntry.fileName = names ∧
            ∀ e ∈ entries, e ∈ published)
          (fun _ _ => ∃ chunkId token, temporaryName chunkId token ∈ names)
          (readListed identity names) s
  | [], _, _, _, _ => ⟨rfl, by simp⟩
  | name :: rest, s, h, hpublished, hlisted => by
    rw [readListed, wp_bind]
    refine wp_look fun t ht => ⟨?_, by rintro e ⟨⟩⟩
    rintro present ⟨⟩
    rcases hlisted name List.mem_cons_self with ⟨e, he, rfl⟩ | ⟨chunkId, token, rfl⟩
    · -- its file stays, with the bytes of the entry
      obtain ⟨hbound, bytes, hbytes, hthere⟩ := h.published e (hpublished e he)
      have ht' := ht.published e (hpublished e he)
      obtain ⟨-, bytes', hbytes', hthere'⟩ := (ht.inv h).published e ht'
      have hchunk : e.chunkId ≠ "" :=
        (ArchiveSetEntry.nonempty_of_validateWith
          (ArchiveSetEntry.canonicalBytes_eq_ok hbytes).1).2.2.1
      have hsafe : ¬ (¬ (s.file? e.fileName).isSome ∨ nameSuffix e.fileName ≠ ".json".toList) := by
        rw [hthere, nameSuffix_fileName hchunk]
        simp
      rw [if_neg hsafe, wp_bind]
      refine wp_look fun u hu => ?_
      simp only [hthere', ArchiveSetEntry.readEntry_canonicalBytes hbytes']
      refine ⟨?_, by rintro e ⟨⟩⟩
      rintro entry ⟨⟩
      have hrest := @wp_readListed published rest u (hu.inv (ht.inv h))
        (fun e he => hu.published e (ht.published e (hpublished e he)))
        fun name hname => hlisted name (List.mem_cons_of_mem _ hname)
      rw [if_neg (not_not.mpr rfl), hbound, wp_bind]
      refine wp_ofExcept.mpr ⟨fun _ _ => ?_, by rintro e ⟨⟩⟩
      rw [wp_bind]
      refine wp_mono hrest (fun entries v hv => ?_) fun _ _ hbad => ?_
      · refine ⟨congrArg (e.fileName :: ·) hv.1, fun e' he' => ?_⟩
        rcases List.mem_cons.mp he' with rfl | he'
        · exact he
        · exact hv.2 e' he'
      · obtain ⟨chunkId, token, hmem⟩ := hbad
        exact ⟨chunkId, token, List.mem_cons_of_mem _ hmem⟩
    · -- whether it is still there or not
      have hunsafe : ¬ (s.file? (temporaryName chunkId token)).isSome ∨
          nameSuffix (temporaryName chunkId token) ≠ ".json".toList := by
        rw [nameSuffix_temporaryName]
        exact Or.inr (by decide)
      rw [if_pos hunsafe]
      exact ⟨chunkId, token, List.mem_cons_self⟩

end

end ArchiveSetStore

/-- A scan succeeds with exactly the entries that were published, each of them once, by the names of
their files, and the index that is rebuilt from it has these entries. -/
def InventoryView.Reported (identity : ArchiveMediumIdentity) (view : InventoryView)
    (result : Except ArchiveError ArchiveSetScan) : Prop :=
  ∃ scan index, result = .ok scan ∧ scan.identity = identity ∧
    scan.entries.Perm view.published ∧ view.published.Nodup ∧
    scan.entries.Pairwise (fun e f => e.fileName < f.fileName) ∧
    ArchiveSetIndex.rebuild [scan] = .ok index ∧ index.entries = scan.entries

namespace ArchiveSetStore

open Interleaved

section

variable {identity : ArchiveMediumIdentity} {i : Token} {s : EntryMedium}

/-- What a scan reports of names that are those of the directory. -/
theorem reported_of_entries (h : s.Inv identity) {entries : List ArchiveSetEntry}
    (hnames : entries.map ArchiveSetEntry.fileName = (s.entries.map SortedDict.keys).getD [])
    (hentries : ∀ e ∈ entries, e ∈ s.published) :
    InventoryView.Reported identity ⟨s.published, s.standing⟩ (.ok ⟨identity, entries⟩) := by
  have hsorted : (entries.map ArchiveSetEntry.fileName).Pairwise (· < ·) := by
    rw [hnames]
    cases s.entries with
    | none => exact List.Pairwise.nil
    | some files => exact List.pairwise_map.mpr files.sorted
  have hpairwise := List.pairwise_map.mp hsorted
  have hnodup : (entries.map ArchiveSetEntry.fileName).Nodup :=
    hsorted.imp fun hlt => ne_of_lt hlt
  have hchunks : (entries.map ArchiveSetEntry.chunkId).Nodup := by
    refine List.pairwise_map.mpr ((List.pairwise_map.mp hnodup).imp fun hne heq => hne ?_)
    rw [ArchiveSetEntry.fileName, ArchiveSetEntry.fileName, heq]
  obtain ⟨index, hindex, hindexed⟩ :=
    @ArchiveSetIndex.rebuild_one ⟨identity, entries⟩ hchunks
  refine ⟨⟨identity, entries⟩, index, rfl, rfl, ?_, h.distinct.of_map _, hpairwise, hindex,
    hindexed⟩
  refine (List.perm_ext_iff_of_nodup (hnodup.of_map _) (h.distinct.of_map _)).mpr fun e =>
    ⟨hentries e, fun he => ?_⟩
  -- its file is listed, and no other entry has that name
  obtain ⟨-, bytes, -, hthere⟩ := h.published e he
  have hlisted : e.fileName ∈ entries.map ArchiveSetEntry.fileName := by
    rw [hnames, EntryMedium.mem_listing, hthere]
    rfl
  obtain ⟨e', he', hname⟩ := List.mem_map.mp hlisted
  exact List.inj_on_of_nodup_map h.distinct (hentries e' he') he hname ▸ he'

/-- **A scan** reports the entries exactly where no temporary file stood as it listed. -/
theorem wp_scan (h : s.Inv identity) :
    wp (Others identity i) (Keeps identity i)
      (fun seen _ => seen.1.Reported identity seen.2 ↔ seen.1.standing = [])
      (fun _ _ => False) (scan identity) s := by
  rw [scan, wp_bind]
  refine wp_look fun t ht => ⟨?_, by rintro e ⟨⟩⟩
  rintro listed ⟨⟩
  have hlisted : ∀ name ∈ (s.entries.map SortedDict.keys).getD [], Listed s.published name := by
    intro name hname
    rcases h.named name (EntryMedium.mem_listing.mp hname) with hfinal | ⟨x, -, hx⟩
    · exact Or.inl hfinal
    · exact Or.inr ⟨x.1, x.2, hx⟩
  rw [wp_bind, wp_attempt]
  refine wp_mono (wp_readListed (ht.inv h) ht.published hlisted) (fun entries u hu => ?_)
    fun e u hu => ?_
  · refine iff_of_true (reported_of_entries h hu.1 hu.2) ?_
    show s.standing = []
    rw [List.eq_nil_iff_forall_not_mem]
    intro x hx
    have hname := EntryMedium.mem_listing.mpr (h.standing x hx)
    have hnames : entries.map ArchiveSetEntry.fileName =
        (s.entries.map SortedDict.keys).getD [] := hu.1
    rw [← hnames] at hname
    obtain ⟨e, -, heq⟩ := List.mem_map.mp hname
    exact temporaryName_ne_fileName x.1 x.2 e heq.symm
  · refine iff_of_false ?_ ?_
    · rintro ⟨scan, index, hresult, -⟩
      cases hresult
    · obtain ⟨chunkId, token, hmem⟩ := hu
      exact List.ne_nil_of_mem (h.standing_of_file (EntryMedium.mem_listing.mp hmem))

end

/-! ## All calls -/

/-- What holds of a call that returned. -/
def Returned (identity : ArchiveMediumIdentity) :
    ArchiveSetCall → ArchiveSetResult → EntryMedium → Prop
  | .commit entry, .committed result, m =>
    ∀ e, result = .ok e → e = entry ∧ entry ∈ m.published
  | .scan, .scanned view result, _ => view.Reported identity result ↔ view.standing = []
  | _, _, _ => False

theorem Returned.mono {identity : ArchiveMediumIdentity} {call : ArchiveSetCall}
    {result : ArchiveSetResult} {s t : EntryMedium} (h : Returned identity call result s)
    (hpublished : ∀ e ∈ s.published, e ∈ t.published) : Returned identity call result t := by
  cases call with
  | commit entry =>
    cases result with
    | committed result =>
      intro e he
      obtain ⟨heq, hmem⟩ := h e he
      exact ⟨heq, hpublished entry hmem⟩
    | scanned view result => exact h
  | scan =>
    cases result with
    | committed result => exact h
    | scanned view result => exact h

theorem wp_program {identity : ArchiveMediumIdentity} {i : Token} {s : EntryMedium}
    (h : s.Inv identity) (call : ArchiveSetCall) :
    wp (Others identity i) (Keeps identity i) (Returned identity call) (fun _ _ => True)
      (call.program identity i) s := by
  cases call with
  | commit entry =>
    rw [ArchiveSetCall.program, wp_bind, wp_attempt]
    refine wp_mono (@wp_commitEntry identity i s entry h) (fun existing t ht => ?_) fun e t _ => ?_
    · rintro e ⟨⟩
      exact ht
    · rintro e ⟨⟩
  | scan =>
    rw [ArchiveSetCall.program, wp_bind]
    exact wp_mono (wp_scan h) (fun _ _ hseen => hseen) fun _ _ _ => trivial

def archiveSetVerified (identity : ArchiveMediumIdentity) :
    (archiveSetCallers identity).Verified where
  Inv m := m.Inv identity
  rely := Others identity
  guarantee := Keeps identity
  Post _ := Returned identity
  inv_initial := by
    rintro m rfl
    exact EntryMedium.inv_empty
  rely_refl := Others.refl identity
  rely_trans _ _ _ _ := Others.trans
  compatible i j s t hne h := ⟨h.inv, h.published, h.others j hne⟩
  inv_guarantee _ _ _ h := h.inv
  post_guarantee _ _ _ h _ _ _ _ hreturned := hreturned.mono h.published
  arrives := by
    rintro i call s t ⟨⟩ h
    exact ⟨h, fun j _ => Others.refl identity j s, fun _ _ _ hreturned => hreturned⟩
  starts := by
    rintro i call s t ⟨⟩ h u hu
    exact wp_program (hu.inv h) call
  loses := by
    rintro l s t ⟨⟩ h
    exact ⟨h, fun _ _ _ hreturned => hreturned⟩

/-- **Which scans report the Archive Set.** Over every interleaving of commits and scans of one
medium, each of them cut off anywhere: a scan reports exactly the entries that were published if and
only if no temporary file of a commit stood there when it listed them. What a commit returned was
published. -/
theorem scan_exact_iff {identity : ArchiveMediumIdentity}
    {s : Calls EntryMedium EntryOutcome ArchiveError ArchiveSetResult Token ArchiveSetCall}
    (h : (archiveSetCallers identity).system.Reachable (fun _ _ => True) s) :
    (∀ token view result, (token, .scan, .scanned view result) ∈ s.returned →
      (view.Reported identity result ↔ view.standing = [])) ∧
    ∀ token entry e, (token, .commit entry, .committed (.ok e)) ∈ s.returned →
      e = entry ∧ entry ∈ s.shared.published := by
  have hholds := Callers.Verified.sound (V := archiveSetVerified identity) h
  refine ⟨fun token view result hmem => hholds.returned _ hmem, fun token entry e hmem => ?_⟩
  exact hholds.returned _ hmem e rfl

/-! ## A commit that is cut off -/

def sampleMedium : ArchiveMediumIdentity := ⟨"set", "disk", "volume", "archive", "nonce"⟩

def sampleDigest : String := "0123456789abcdef0123456789abcdef0123456789abcdef0123456789abcdef"

def entryOf (chunkId : String) : ArchiveSetEntry where
  archiveSetId := "set"
  storageId := "disk"
  chunkId := chunkId
  artifactRelativePath := "raw/chunk"
  archiveManifestRelativePath := "manifests/chunk"
  archiveManifestSha256 := sampleDigest
  storedBytes := 7
  storedSha256 := sampleDigest
  sourceManifestSha256 := sampleDigest

theorem tokenOf_length (c : Char) :
    (String.ofList (List.replicate 32 c)).toList.length = 32 := by
  simp

def tokenOf (c : Char) : Token := ⟨String.ofList (List.replicate 32 c), tokenOf_length c⟩

def actsOf (c : Char) (count : Nat) : List (CallEvent EntryOutcome Token ArchiveSetCall Unit) :=
  List.replicate count (.act (tokenOf c) (.done 4096))

/-- One entry is committed, and a scan finds it. Then a commit is cut off once it has made its
temporary file, and another scan comes. -/
def cutOffEvents : List (CallEvent EntryOutcome Token ArchiveSetCall Unit) :=
  [.arrive (tokenOf 'a') (.commit (entryOf "one"))] ++ actsOf 'a' 13 ++
  [.arrive (tokenOf 'b') .scan] ++ actsOf 'b' 4 ++
  [.arrive (tokenOf 'c') (.commit (entryOf "two"))] ++ actsOf 'c' 7 ++ [.stop (tokenOf 'c')] ++
  [.arrive (tokenOf 'd') .scan] ++ actsOf 'd' 3

def emptyMedium :
    Calls EntryMedium EntryOutcome ArchiveError ArchiveSetResult Token ArchiveSetCall :=
  ⟨{}, fun _ => none, []⟩

/-- A scan: its token, what it saw, and what it found unless it raised. -/
structure ScanRecord where
  token : Token
  published : List ArchiveSetEntry
  standing : List (String × Token)
  found : Option ArchiveSetScan
  deriving DecidableEq

def scanRecord? (r : Token × ArchiveSetCall × ArchiveSetResult) : Option ScanRecord :=
  match r.2.1, r.2.2 with
  | .scan, .scanned view result => some ⟨r.1, view.published, view.standing, result.toOption⟩
  | _, _ => none

set_option maxRecDepth 100000 in
theorem scans_cutOffEvents :
    ((archiveSetCallers sampleMedium).system.perform emptyMedium cutOffEvents).map
      (fun s => s.returned.filterMap scanRecord?) =
    some [⟨tokenOf 'd', [entryOf "one"], [("two", tokenOf 'c')], none⟩,
      ⟨tokenOf 'b', [entryOf "one"], [], some ⟨sampleMedium, [entryOf "one"]⟩⟩] := by
  decide +kernel

/-- A record of a scan is that of a scan that returned. -/
theorem exists_of_scanRecord
    {s : Calls EntryMedium EntryOutcome ArchiveError ArchiveSetResult Token ArchiveSetCall}
    {record : ScanRecord} (h : record ∈ s.returned.filterMap scanRecord?) :
    ∃ result, (record.token, .scan, .scanned ⟨record.published, record.standing⟩ result) ∈
      s.returned ∧ result.toOption = record.found := by
  obtain ⟨⟨token, call, result⟩, hr, heq⟩ := List.mem_filterMap.mp h
  cases call with
  | commit entry => cases heq
  | scan =>
    cases result with
    | committed result => cases heq
    | scanned view result =>
      cases heq
      exact ⟨result, hr, rfl⟩

/-- Of two scans, the first one reports the entry that was committed, the other one does not. -/
theorem scan_exact_iff_sample : ∃ s found refused,
    (archiveSetCallers sampleMedium).system.perform emptyMedium cutOffEvents = some s ∧
      (tokenOf 'b', .scan, .scanned ⟨[entryOf "one"], []⟩ found) ∈ s.returned ∧
      InventoryView.Reported sampleMedium ⟨[entryOf "one"], []⟩ found ∧
      (tokenOf 'd', .scan, .scanned ⟨[entryOf "one"], [("two", tokenOf 'c')]⟩ refused) ∈
        s.returned ∧
      ¬ InventoryView.Reported sampleMedium ⟨[entryOf "one"], [("two", tokenOf 'c')]⟩ refused := by
  obtain ⟨s, hs, hscans⟩ := Option.map_eq_some_iff.mp scans_cutOffEvents
  obtain ⟨found, hfound, -⟩ := exists_of_scanRecord (hscans ▸ List.mem_cons_of_mem _
    List.mem_cons_self)
  obtain ⟨refused, hrefused, -⟩ := exists_of_scanRecord (hscans ▸ List.mem_cons_self)
  obtain ⟨hreported, -⟩ := @scan_exact_iff sampleMedium s
    ⟨emptyMedium, ⟨rfl, fun _ => rfl, rfl⟩, TransitionSystem.run_of_perform hs⟩
  refine ⟨s, found, refused, hs, hfound, (hreported _ _ _ hfound).mpr rfl, hrefused, ?_⟩
  rw [hreported _ _ _ hrefused]
  simp

/-- **A scan raises over the leftover of a commit that was cut off**: the entry that was committed
before is not reported. -/
theorem scan_refuses_leftover : ∃ s refused,
    (archiveSetCallers sampleMedium).system.perform emptyMedium cutOffEvents = some s ∧
      (tokenOf 'd', .scan, .scanned ⟨[entryOf "one"], [("two", tokenOf 'c')]⟩ refused) ∈
        s.returned ∧
      refused.toOption = none ∧
      ¬ InventoryView.Reported sampleMedium ⟨[entryOf "one"], [("two", tokenOf 'c')]⟩ refused := by
  obtain ⟨s, hs, hscans⟩ := Option.map_eq_some_iff.mp scans_cutOffEvents
  obtain ⟨refused, hrefused, hnone⟩ := exists_of_scanRecord (hscans ▸ List.mem_cons_self)
  refine ⟨s, refused, hs, hrefused, hnone, ?_⟩
  rintro ⟨scan, index, rfl, -⟩
  cases hnone

end ArchiveSetStore

end MarketDataRecorder
