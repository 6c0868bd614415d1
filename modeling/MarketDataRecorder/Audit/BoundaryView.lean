import MarketDataRecorder.Audit.ContinuationDocuments

/-!
# What a boundary depends on

Of the chunk in front of a boundary the audit uses the manifest and the last two frames; the second
to last tells whether a marker on the last one is the end marker of its connection. So chunks that
agree in these are the same to every later boundary, and an audit that goes on from a continuation
finds what one over all chunks finds.

* `transitions_congr` — the transitions of a chunk, from states that look the same
* `boundary_final` — what the audit of a stream keeps is the end of the stream
-/

namespace MarketDataRecorder

/-! ## The view of a chunk -/

/-- What a later boundary sees of a chunk. -/
def ChunkScan.boundary (chunk : ChunkScan) : Value × Option (List FrameIdentity) :=
  (chunk.manifest, chunk.frames.map lastTwo)

@[simp] theorem boundary_kept (chunk : ChunkScan) : chunk.kept.boundary = chunk.boundary := by
  unfold ChunkScan.boundary ChunkScan.kept
  cases chunk.frames with
  | none => rfl
  | some frames => simp [lastTwo_lastTwo]

/-- The last of the last two frames is the last frame. -/
theorem getLast?_lastTwo (frames : List FrameIdentity) :
    (lastTwo frames).getLast? = frames.getLast? := by
  rw [lastTwo, List.getLast?_drop]
  split
  · next h =>
    have hnil : frames = [] := List.length_eq_zero_iff.mp (by omega)
    rw [hnil]
    rfl
  · rfl

theorem length_lastTwo (frames : List FrameIdentity) :
    (lastTwo frames).length = min frames.length 2 := by
  rw [lastTwo, List.length_drop]
  omega

/-- The second to last frame is there where there are two. -/
theorem markerIsEndEvidence_lastTwo (frames : List FrameIdentity) :
    markerIsEndEvidence (lastTwo frames) ((lastTwo frames).length - 1) =
      markerIsEndEvidence frames (frames.length - 1) := by
  have hlength := length_lastTwo frames
  unfold markerIsEndEvidence isFirstFrameOfConnection
  by_cases htwo : frames.length < 2
  · rw [if_pos (by omega), if_pos (by omega)]
  · rw [if_neg (by omega), if_neg (by omega), hlength, lastTwo, List.getElem?_drop,
      List.getElem?_drop]
    have hfirst : frames.length - 2 + (min frames.length 2 - 1 - 1) = frames.length - 1 - 1 := by
      omega
    have hsecond : frames.length - 2 + (min frames.length 2 - 1) = frames.length - 1 := by omega
    rw [hfirst, hsecond]

section

variable {p q : ChunkScan}

/-- Chunks of one boundary have one manifest. -/
theorem manifest_of_boundary (h : p.boundary = q.boundary) : p.manifest = q.manifest :=
  congrArg Prod.fst h

/-- Chunks of one boundary are both read, or both not. -/
theorem isNone_frames_of_boundary (h : p.boundary = q.boundary) :
    p.frames.isNone = q.frames.isNone := by
  have hframes : p.frames.map lastTwo = q.frames.map lastTwo := congrArg Prod.snd h
  simpa using congrArg Option.isNone hframes

theorem isSome_frames_of_boundary (h : p.boundary = q.boundary) :
    p.frames.isSome = q.frames.isSome := by
  have hframes : p.frames.map lastTwo = q.frames.map lastTwo := congrArg Prod.snd h
  simpa using congrArg Option.isSome hframes

/-- Chunks of one boundary end on one connection. -/
theorem lastConnection_of_boundary (h : p.boundary = q.boundary) :
    lastConnection p = lastConnection q := by
  have hframes : p.frames.map lastTwo = q.frames.map lastTwo := congrArg Prod.snd h
  unfold lastConnection
  rw [manifest_of_boundary h]
  cases hp : p.frames with
  | none =>
    cases hq : q.frames with
    | none => rfl
    | some _ => simp [hp, hq] at hframes
  | some frames =>
    cases hq : q.frames with
    | none => simp [hp, hq] at hframes
    | some frames' =>
      have hlast : lastTwo frames = lastTwo frames' := by simpa [hp, hq] using hframes
      dsimp only
      rw [← getLast?_lastTwo frames, ← getLast?_lastTwo frames', hlast]

/-- Chunks of one boundary end alike with an end marker, or without. -/
theorem endMarker_of_boundary (h : p.boundary = q.boundary) :
    p.frames.any (fun frames => markerIsEndEvidence frames (frames.length - 1)) =
      q.frames.any fun frames => markerIsEndEvidence frames (frames.length - 1) := by
  have hframes : p.frames.map lastTwo = q.frames.map lastTwo := congrArg Prod.snd h
  cases hp : p.frames with
  | none =>
    cases hq : q.frames with
    | none => rfl
    | some _ => simp [hp, hq] at hframes
  | some frames =>
    cases hq : q.frames with
    | none => simp [hp, hq] at hframes
    | some frames' =>
      have hlast : lastTwo frames = lastTwo frames' := by simpa [hp, hq] using hframes
      show markerIsEndEvidence frames _ = markerIsEndEvidence frames' _
      rw [← markerIsEndEvidence_lastTwo, hlast, markerIsEndEvidence_lastTwo]

end

/-! ## Transitions -/

variable {intervals : List CatalogGapInterval}

/-- What depends on the boundary alone agrees along chunks of one boundary. -/
theorem map_of_boundary {α : Type} {f : ChunkScan → α}
    (hf : ∀ p q : ChunkScan, p.boundary = q.boundary → f p = f q) :
    ∀ {ps qs : List ChunkScan}, ps.map ChunkScan.boundary = qs.map ChunkScan.boundary →
      ps.map f = qs.map f
  | [], [], _ => rfl
  | [], q :: qs, h => by cases h
  | p :: ps, [], h => by cases h
  | p :: ps, q :: qs, h => by
    obtain ⟨hhead, htail⟩ := List.cons.inj h
    rw [List.map_cons, List.map_cons, hf p q hhead, map_of_boundary hf htail]

/-- So does a test over them. -/
theorem any_of_boundary {f : ChunkScan → Bool}
    (hf : ∀ p q : ChunkScan, p.boundary = q.boundary → f p = f q) {ps qs : List ChunkScan}
    (h : ps.map ChunkScan.boundary = qs.map ChunkScan.boundary) : ps.any f = qs.any f := by
  have hmap := congrArg (fun l : List Bool => l.any id) (map_of_boundary hf h)
  simpa [List.any_map, Function.comp_def] using hmap

/-- Two scans of a chunk: the same manifest and the same frames. -/
def SameScan (x y : ChunkScan) : Prop := x.manifest = y.manifest ∧ x.frames = y.frames

/-- **The change between two chunks depends on the boundary of the first alone.** -/
theorem interTransition_congr {p q x y : ChunkScan} {ps qs : List ChunkScan}
    (hp : p.boundary = q.boundary)
    (hps : ps.map ChunkScan.boundary = qs.map ChunkScan.boundary) (hx : SameScan x y) :
    interTransition intervals p ps x = interTransition intervals q qs y := by
  obtain ⟨hmanifest, hframes⟩ := hx
  have hfirst : firstConnection x = firstConnection y := by
    unfold firstConnection
    rw [hmanifest, hframes]
  have hkind : ∀ lastOld firstNew identity,
      classifyInterChunk p x lastOld firstNew identity ps =
        classifyInterChunk q y lastOld firstNew identity qs := by
    intro lastOld firstNew identity
    have hmarkers : ps.any (fun item => decide ("reconnect_gap" ∈ auditFlags item.manifest)) =
        qs.any fun item => decide ("reconnect_gap" ∈ auditFlags item.manifest) :=
      any_of_boundary (fun p q h => by rw [manifest_of_boundary h]) hps
    have hmanifests : ps.map ChunkScan.manifest = qs.map ChunkScan.manifest :=
      map_of_boundary (fun p q h => manifest_of_boundary h) hps
    unfold classifyInterChunk
    rw [endMarker_of_boundary hp, manifest_of_boundary hp, hmanifest, hmarkers, hmanifests]
  have hinfo : ps.map interveningManifestInfo = qs.map interveningManifestInfo :=
    map_of_boundary (fun p q h => by
      unfold interveningManifestInfo
      rw [manifest_of_boundary h, isNone_frames_of_boundary h]) hps
  have hnone : ps.any (fun item => item.frames.isNone) = qs.any fun item => item.frames.isNone :=
    any_of_boundary (fun p q h => isNone_frames_of_boundary h) hps
  unfold interTransition
  simp only [lastConnection_of_boundary hp, hfirst, hkind, hinfo, hnone, manifest_of_boundary hp,
    hmanifest, hframes, isNone_frames_of_boundary hp, isSome_frames_of_boundary hp]

/-- Changes inside a chunk are those of its scan. -/
theorem intraTransitions_congr {x y : ChunkScan} (h : SameScan x y) :
    intraTransitions intervals x = intraTransitions intervals y := by
  unfold intraTransitions
  rw [h.1, h.2]

/-- States of a stream that look the same to what follows. -/
def SameEnd (a b : StreamAudit) : Prop :=
  a.previous.map ChunkScan.boundary = b.previous.map ChunkScan.boundary ∧
    a.intervening.map ChunkScan.boundary = b.intervening.map ChunkScan.boundary

/-- A step reports the same changes after the same end. -/
theorem transitions_congr {emit emit' : Option (List String)} {a b : StreamAudit} {x y : ChunkScan}
    (hstate : SameEnd a b) (hscan : SameScan x y) (hemit : emits emit x = emits emit' y) :
    a.transitions emit intervals x = b.transitions emit' intervals y := by
  obtain ⟨hprevious, hintervening⟩ := hstate
  have hweb : isWebsocketChunk x = isWebsocketChunk y := by
    unfold isWebsocketChunk
    rw [hscan.1]
  have hzero : zeroRecordChunk x = zeroRecordChunk y := by
    unfold zeroRecordChunk
    rw [hscan.1, hscan.2]
  have hinter : (a.previous.bind fun previous =>
        interTransition intervals previous a.intervening x) =
      b.previous.bind fun previous => interTransition intervals previous b.intervening y := by
    cases ha : a.previous with
    | none =>
      cases hb : b.previous with
      | none => rfl
      | some _ => simp [ha, hb] at hprevious
    | some p =>
      cases hb : b.previous with
      | none => simp [ha, hb] at hprevious
      | some q =>
        have hpq : p.boundary = q.boundary := by simpa [ha, hb] using hprevious
        exact interTransition_congr hpq hintervening hscan
  unfold StreamAudit.transitions
  rw [hweb, hzero, hemit, intraTransitions_congr hscan, hinter]

/-- A step keeps the ends the same. -/
theorem sameEnd_next {emit emit' : Option (List String)} {a b : StreamAudit} {x y : ChunkScan}
    (hstate : SameEnd a b) (hscan : SameScan x y) :
    SameEnd (a.next emit intervals x) (b.next emit' intervals y) := by
  obtain ⟨hprevious, hintervening⟩ := hstate
  have hweb : isWebsocketChunk x = isWebsocketChunk y := by
    unfold isWebsocketChunk
    rw [hscan.1]
  have hzero : zeroRecordChunk x = zeroRecordChunk y := by
    unfold zeroRecordChunk
    rw [hscan.1, hscan.2]
  have hboundary : x.boundary = y.boundary := by
    unfold ChunkScan.boundary
    rw [hscan.1, hscan.2]
  have hsome : a.previous.isSome = b.previous.isSome := by
    simpa using congrArg Option.isSome hprevious
  unfold StreamAudit.next
  rw [hweb, hzero, hsome]
  split
  · exact ⟨hprevious, hintervening⟩
  · split
    · split
      · exact ⟨hprevious, by simp [hintervening, hboundary]⟩
      · exact ⟨hprevious, hintervening⟩
    · exact ⟨by simp [hboundary], rfl⟩

/-! ## Runs of a stream -/

/-- **A pass reports the same changes, whichever scan of the chunks it goes over.** -/
theorem outs_congr {emit emit' : Option (List String)} {f g : SealedChunk → ChunkScan} :
    ∀ {chunks : List SealedChunk} {a b : StreamAudit}, SameEnd a b →
      (∀ c ∈ chunks, SameScan (f c) (g c) ∧ emits emit (f c) = emits emit' (g c)) →
      (auditPass emit intervals).outs a (chunks.map f) =
        (auditPass emit' intervals).outs b (chunks.map g)
  | [], _, _, _, _ => rfl
  | c :: chunks, a, b, hstate, hscan => by
    rw [List.forall_mem_cons] at hscan
    obtain ⟨⟨hsame, hemit⟩, hrest⟩ := hscan
    show a.transitions emit intervals (f c) ++ _ = b.transitions emit' intervals (g c) ++ _
    rw [transitions_congr hstate hsame hemit]
    exact congrArg _ (outs_congr (sameEnd_next hstate hsame) hrest)

/-- Markers of a stream that are not reported: they bring nothing, and they are kept in order. -/
theorem markers_run {emit : Option (List String)} :
    ∀ {markers : List ChunkScan} {a : StreamAudit}, a.previous.isSome = true →
      (∀ y ∈ markers, isWebsocketChunk y = true ∧ zeroRecordChunk y = true ∧ emits emit y = false) →
      (auditPass emit intervals).outs a markers = [] ∧
        ((auditPass emit intervals).final a markers).previous = a.previous ∧
        ((auditPass emit intervals).final a markers).intervening = a.intervening ++ markers
  | [], a, _, _ => ⟨rfl, rfl, (List.append_nil _).symm⟩
  | y :: markers, a, ha, h => by
    rw [List.forall_mem_cons] at h
    obtain ⟨⟨hweb, hzero, hemit⟩, hrest⟩ := h
    have hout : a.transitions emit intervals y = [] := by
      simp [StreamAudit.transitions, hweb, hzero, hemit]
    have hnext : (a.next emit intervals y).previous = a.previous ∧
        (a.next emit intervals y).intervening = a.intervening ++ [y] := by
      simp [StreamAudit.next, hweb, hzero, ha]
    have hsome : (a.next emit intervals y).previous.isSome = true := by
      rw [hnext.1]
      exact ha
    obtain ⟨houts, hprevious, hintervening⟩ := markers_run hsome hrest
    refine ⟨?_, ?_, ?_⟩
    · show a.transitions emit intervals y ++ _ = []
      rw [hout]
      exact houts
    · exact hprevious.trans hnext.1
    · rw [KeyedFold.Pass.final_cons]
      show ((auditPass emit intervals).final (a.next emit intervals y) markers).intervening = _
      rw [hintervening, hnext.2, List.append_assoc, List.singleton_append]

/-! ## The end of a stream -/

namespace SealedChunk

/-- The frames of the chunk. -/
def frames (c : SealedChunk) : List FrameIdentity := c.envelopes.mapIdx (frameIdentity c.chunkId)

/-- The chunk as an audit over all chunks loads it. -/
def fullScan (c : SealedChunk) : ChunkScan := { c.scan with frames := some c.frames }

/-- The chunk as an observation scans it. -/
def strictScan (c : SealedChunk) : ChunkScan :=
  { manifest := c.manifest.document, frames := some c.frames, deepScanAllowed := false }

/-- The strict scan and the full scan of a chunk are one scan to the audit. -/
theorem sameScan (c : SealedChunk) : SameScan c.strictScan c.fullScan := ⟨rfl, rfl⟩

/-- Both scans of a chunk have one boundary. -/
theorem boundary_strictScan (c : SealedChunk) : c.strictScan.boundary = c.fullScan.boundary := rfl

theorem frames_eq_nil {c : SealedChunk} : c.frames = [] ↔ c.envelopes = [] := by
  rw [frames, List.mapIdx_eq_nil_iff]

/-- A chunk has no records exactly where it has no envelopes. -/
theorem zeroRecordChunk_fullScan (c : SealedChunk) :
    zeroRecordChunk c.fullScan = true ↔ c.envelopes = [] := by
  have hcount : c.fullScan.manifest.get? "record_count" = some (.int c.envelopes.length) := by
    show c.manifest.document.get? "record_count" = _
    rw [Manifest.get?_recordCount, manifest_recordCount]
  rw [zeroRecordChunk, hcount, Bool.and_eq_true, decide_eq_true_eq]
  constructor
  · rintro ⟨h, -⟩
    have hzero : (c.envelopes.length : Int) = 0 := by simpa using h
    exact List.length_eq_zero_iff.mp (by omega)
  · intro h
    refine ⟨by simp [h], ?_⟩
    show ((some c.frames).getD []).isEmpty = true
    rw [Option.getD_some, frames_eq_nil.mpr h]
    rfl

/-- A chunk is audited exactly where it is of a WebSocket stream. -/
theorem isWebsocketChunk_fullScan (c : SealedChunk) :
    isWebsocketChunk c.fullScan = true ↔ c.Audited := by
  have hmarket : manifestText c.fullScan.manifest "market" = c.header.market :=
    c.manifestText_market
  have hstream : manifestText c.fullScan.manifest "stream" = c.header.stream :=
    c.manifestText_stream
  rw [isWebsocketChunk, hmarket, hstream, decide_eq_true_eq, Audited]

end SealedChunk

theorem zeroRecordChunk_of_boundary {p q : ChunkScan} (h : p.boundary = q.boundary) :
    zeroRecordChunk p = zeroRecordChunk q := by
  have hempty : ∀ x : ChunkScan, (x.frames.getD []).isEmpty =
      ((x.frames.map lastTwo).getD []).isEmpty := by
    intro x
    cases x.frames with
    | none => rfl
    | some frames =>
      have hlength := length_lastTwo frames
      rw [Option.map_some, Option.getD_some, Option.getD_some, Bool.eq_iff_iff,
        List.isEmpty_iff_length_eq_zero, List.isEmpty_iff_length_eq_zero]
      omega
  have hframes : p.frames.map lastTwo = q.frames.map lastTwo := congrArg Prod.snd h
  rw [zeroRecordChunk, zeroRecordChunk, hempty p, hempty q, hframes, manifest_of_boundary h]

theorem isWebsocketChunk_of_boundary {p q : ChunkScan} (h : p.boundary = q.boundary) :
    isWebsocketChunk p = isWebsocketChunk q := by
  rw [isWebsocketChunk, isWebsocketChunk, manifest_of_boundary h]

theorem emits_of_boundary {emit : Option (List String)} {p q : ChunkScan}
    (h : p.boundary = q.boundary) : emits emit p = emits emit q := by
  rw [emits, emits, manifest_of_boundary h]

/-- A chunk at the end of its stream. -/
def addToEnd (current : List SealedChunk) (c : SealedChunk) : List SealedChunk :=
  if c.envelopes = [] then if current = [] then [] else current ++ [c] else [c]

/-- The end of a stream: its last chunk with records, and the markers behind it. -/
def streamEnd (chunks : List SealedChunk) : List SealedChunk := chunks.foldl addToEnd []

/-- The end of a stream moves on with a chunk. -/
theorem streamEnd_append (chunks : List SealedChunk) (c : SealedChunk) :
    streamEnd (chunks ++ [c]) = addToEnd (streamEnd chunks) c := by
  rw [streamEnd, List.foldl_append]
  rfl

/-- **The end of a stream** is nothing, or a chunk with records and the empty chunks behind it. -/
theorem streamEnd_cases (chunks : List SealedChunk) :
    streamEnd chunks = [] ∨ ∃ last markers, streamEnd chunks = last :: markers ∧
      last.envelopes ≠ [] ∧ (∀ c ∈ markers, c.envelopes = []) ∧
        ∀ c ∈ last :: markers, c ∈ chunks := by
  induction chunks using List.reverseRecOn with
  | nil => exact Or.inl rfl
  | append_singleton chunks c ih =>
    rw [streamEnd_append, addToEnd]
    by_cases hrecords : c.envelopes = []
    · rw [if_pos hrecords]
      rcases ih with hnil | ⟨last, markers, hend, hlast, hmarkers, hmem⟩
      · rw [if_pos hnil]
        exact Or.inl rfl
      · rw [if_neg (by simp [hend]), hend]
        refine Or.inr ⟨last, markers ++ [c], rfl, hlast, ?_, ?_⟩
        · intro m hm
          rcases List.mem_append.mp hm with hm | hm
          · exact hmarkers m hm
          · obtain rfl := List.mem_singleton.mp hm
            exact hrecords
        · intro m hm
          rcases List.mem_append.mp (List.cons_append ▸ hm) with hm | hm
          · exact List.mem_append_left _ (hmem m hm)
          · exact List.mem_append_right _ hm
    · rw [if_neg hrecords]
      exact Or.inr ⟨c, [], rfl, hrecords, by simp, by simp⟩

/-- **What the audit of a stream keeps is the end of the stream.** -/
theorem boundary_final {chunks : List SealedChunk} (haudited : ∀ c ∈ chunks, c.Audited) :
    ((auditPass none intervals).final {} (chunks.map SealedChunk.fullScan)).previous =
        (streamEnd chunks).head?.map SealedChunk.fullScan ∧
      ((auditPass none intervals).final {} (chunks.map SealedChunk.fullScan)).intervening =
        (streamEnd chunks).tail.map SealedChunk.fullScan := by
  induction chunks using List.reverseRecOn with
  | nil => exact ⟨rfl, rfl⟩
  | append_singleton chunks c ih =>
    obtain ⟨hprevious, hintervening⟩ := ih fun c' hc' => haudited c' (List.mem_append_left _ hc')
    have hweb : isWebsocketChunk c.fullScan = true :=
      c.isWebsocketChunk_fullScan.mpr (haudited c (by simp))
    rw [List.map_append, KeyedFold.Pass.final_append, streamEnd_append]
    show (StreamAudit.next none intervals _ c.fullScan).previous = _ ∧
      (StreamAudit.next none intervals _ c.fullScan).intervening = _
    rw [StreamAudit.next, if_neg (by simp [hweb]), addToEnd]
    by_cases hrecords : c.envelopes = []
    · rw [if_pos (c.zeroRecordChunk_fullScan.mpr hrecords), if_pos hrecords]
      rcases streamEnd_cases chunks with hnil | ⟨last, markers, hend, -⟩
      · rw [hnil] at hprevious hintervening
        rw [if_neg (by simp [hprevious]), if_pos hnil]
        exact ⟨hprevious, hintervening⟩
      · rw [hend] at hprevious hintervening
        have hcons : last :: markers ≠ [] := List.cons_ne_nil _ _
        rw [if_pos (by simp [hprevious]), hend, if_neg hcons]
        exact ⟨hprevious, by simp [hintervening]⟩
    · rw [if_neg (fun h => hrecords (c.zeroRecordChunk_fullScan.mp h)), if_neg hrecords]
      exact ⟨rfl, rfl⟩

/-- An audit that goes on from the end of a stream: the context brings nothing, and what follows
sees what it sees behind the whole stream. -/
theorem context_run {emit : Option (List String)} {chunks : List SealedChunk}
    {context : List ChunkScan} (haudited : ∀ c ∈ chunks, c.Audited)
    (hemit : ∀ c ∈ chunks, emits emit c.fullScan = false)
    (hcontext : context.map ChunkScan.boundary =
      (streamEnd chunks).map fun c => c.fullScan.boundary) :
    (auditPass emit intervals).outs {} context = [] ∧
      SameEnd ((auditPass emit intervals).final {} context)
        ((auditPass none intervals).final {} (chunks.map SealedChunk.fullScan)) := by
  have hfinal := @boundary_final intervals chunks haudited
  obtain ⟨hprevious, hintervening⟩ := hfinal
  -- The context is empty, or the last chunk with records and the markers behind it.
  rcases streamEnd_cases chunks with hnil | ⟨last, markers, hend, hlast, hmarkers, hmem⟩
  · rw [hnil] at hcontext hprevious hintervening
    obtain rfl : context = [] := List.map_eq_nil_iff.mp hcontext
    exact ⟨rfl, by rw [hprevious]; rfl, by rw [hintervening]; rfl⟩
  · rw [hend, List.map_cons] at hcontext
    obtain ⟨x, ys, rfl, hx, hys⟩ := List.map_eq_cons_iff.mp hcontext
    have hweb : isWebsocketChunk x = true := by
      rw [isWebsocketChunk_of_boundary hx]
      exact last.isWebsocketChunk_fullScan.mpr (haudited last (hmem last List.mem_cons_self))
    have hzero : zeroRecordChunk x = false := by
      rw [zeroRecordChunk_of_boundary hx, Bool.eq_false_iff]
      exact fun h => hlast (last.zeroRecordChunk_fullScan.mp h)
    have hnot : emits emit x = false := by
      rw [emits_of_boundary hx]
      exact hemit last (hmem last List.mem_cons_self)
    have hmarker : ∀ y ∈ ys,
        isWebsocketChunk y = true ∧ zeroRecordChunk y = true ∧ emits emit y = false := by
      intro y hy
      obtain ⟨m, hm, hboundary⟩ : ∃ m ∈ markers, m.fullScan.boundary = y.boundary := by
        have hview : y.boundary ∈ markers.map fun c => c.fullScan.boundary :=
          hys ▸ List.mem_map_of_mem hy
        exact List.mem_map.mp hview
      have hchunk := hmem m (List.mem_cons_of_mem _ hm)
      rw [isWebsocketChunk_of_boundary hboundary.symm, zeroRecordChunk_of_boundary hboundary.symm,
        emits_of_boundary hboundary.symm]
      exact ⟨m.isWebsocketChunk_fullScan.mpr (haudited m hchunk),
        m.zeroRecordChunk_fullScan.mpr (hmarkers m hm), hemit m hchunk⟩
    have hout : StreamAudit.transitions emit intervals {} x = [] := by
      simp [StreamAudit.transitions, hweb, hnot]
    have hnext : (StreamAudit.next emit intervals {} x).previous = some x ∧
        (StreamAudit.next emit intervals {} x).intervening = [] := by
      simp [StreamAudit.next, hweb, hzero]
    have hsome : (StreamAudit.next emit intervals {} x).previous.isSome = true := by
      rw [hnext.1]
      rfl
    obtain ⟨houts, hprev, hinter⟩ := markers_run hsome hmarker
    refine ⟨?_, ?_, ?_⟩
    · show StreamAudit.transitions emit intervals {} x ++ _ = []
      rw [hout]
      exact houts
    · rw [hprevious, hend]
      show Option.map _ ((auditPass emit intervals).final (StreamAudit.next emit intervals {} x)
        ys).previous = _
      rw [hprev, hnext.1]
      exact congrArg some hx
    · rw [hintervening, hend]
      show List.map _ ((auditPass emit intervals).final (StreamAudit.next emit intervals {} x)
        ys).intervening = _
      rw [hinter, hnext.2, List.nil_append, hys, List.tail_cons, List.map_map]
      rfl

end MarketDataRecorder
