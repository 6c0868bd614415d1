import MarketDataRecorder.Audit.ReadableCatalog
import MarketDataRecorder.Audit.SealedInventory
import MarketDataRecorder.Binance.StreamGroups
import MarketDataRecorder.Spool.ReferenceCodec

/-!
# Connection changes that sealed chunks prove

Which connection changes follow from the sealed chunks of a data root, some with their Raw and some
known by their manifest alone, and which of them the audit reports.

The audit finds the connection at the end of a chunk in its frames, or in a manifest with just one
connection. Where a manifest names several, it skips the boundary, also when the two chunks have no
connection in common; and it looks at the streams of one table only.

* `reports_every_change_iff` — exactly when every provable change is reported
-/

namespace MarketDataRecorder

/-! ## Changes -/

/-- A connection change: at a frame inside a chunk, or between two chunks. -/
inductive Change where
  | intra (chunkId : String) (frameIndex : Int)
  | inter (oldChunkId newChunkId : String)
  deriving DecidableEq

/-- The chunk of the new connection. -/
def Change.newChunkId : Change → String
  | intra chunkId _ => chunkId
  | inter _ newChunkId => newChunkId

/-- The change that a transition reports, if it says where it is. -/
def Transition.change (transition : Transition) : Option Change :=
  match transition.boundaryKind with
  | .interChunk => some (.inter transition.oldChunkId transition.newChunkId)
  | .intraChunk => transition.firstNewFrame.map fun frame => .intra frame.chunkId frame.frameIndex
  | .intraChunkUnordered => none

/-- The changes that a report tells of. -/
def TransitionReport.changes (report : TransitionReport) : List Change :=
  report.transitions.filterMap Transition.change

/-! ## Changes that the chunks prove -/

namespace Inventory

variable (inv : Inventory)

/-- The frame at an index of an available chunk has another connection than the one before it. -/
structure AdjacentChange (c : SealedChunk) (index : Nat) : Prop where
  mem : c ∈ inv.chunks
  raw : c.HasRaw inv.files
  differ : ∃ a b, c.envelopes[index]? = some a ∧ c.envelopes[index + 1]? = some b ∧
    a.connectionId.val ≠ b.connectionId.val

/-- Two chunks of a stream with records, and only markers of the stream between them. -/
def Neighbours (a b : SealedChunk) : Prop :=
  a.envelopes ≠ [] ∧ b.envelopes ≠ [] ∧ a.identity = b.identity ∧
    ∃ before between after, inv.chunks = before ++ a :: (between ++ b :: after) ∧
      ∀ c ∈ between, c.identity = a.identity → c.envelopes = []

/-- The connections at the boundary provably differ: those of the boundary frames where both are
known, and otherwise by manifests that have no connection in common. -/
def ProvablyDiffer (a b : SealedChunk) : Prop :=
  (a.HasRaw inv.files ∧ b.HasRaw inv.files → a.connections.getLast? ≠ b.connections.head?) ∧
    (¬ (a.HasRaw inv.files ∧ b.HasRaw inv.files) →
      Disjoint a.manifest.connectionIds b.manifest.connectionIds)

/-- The connection changes that the chunks prove. -/
inductive ProvableChange : Change → Prop
  | intra {c : SealedChunk} {index : Nat} (h : inv.AdjacentChange c index) :
    ProvableChange (.intra c.chunkId (index + 1 : Nat))
  | inter {a b : SealedChunk} (hneighbours : inv.Neighbours a b)
    (hdiffer : inv.ProvablyDiffer a b) :
    ProvableChange (.inter a.chunkId b.chunkId)

/-- The connection at an end of the chunk is known to the audit: from its frames, or from a manifest
that has just one. -/
def BoundaryKnown (c : SealedChunk) : Prop :=
  c.HasRaw inv.files ∨ c.manifest.connectionIds.card = 1

/-- The audit can tell every provable change: its stream is looked at, and the connections on both
sides are known. -/
structure CanTell : Prop where
  intra : ∀ {c index}, inv.AdjacentChange c index → c.Audited
  inter : ∀ {a b}, inv.Neighbours a b → inv.ProvablyDiffer a b →
    a.Audited ∧ inv.BoundaryKnown a ∧ inv.BoundaryKnown b

end Inventory

/-! ## Changes inside a chunk -/

variable {intervals : List CatalogGapInterval} {manifest : Value} {all : List FrameIdentity}

def FrameIdentity.change (frame : FrameIdentity) : Change := .intra frame.chunkId frame.frameIndex

theorem change_of_intraTransition {index : Nat} {a b : FrameIdentity} {transition : Transition}
    (h : intraTransition intervals manifest all index a b = some transition) :
    a.connectionId ≠ b.connectionId ∧ transition.change = some b.change ∧
      transition.oldManifest = manifest := by
  unfold intraTransition at h
  split at h
  · cases h
  · next hne =>
    obtain rfl := Option.some.inj h
    exact ⟨hne, rfl, rfl⟩

theorem isSome_intraTransition {index : Nat} {a b : FrameIdentity}
    (h : a.connectionId ≠ b.connectionId) :
    ∃ transition, intraTransition intervals manifest all index a b = some transition := by
  rw [intraTransition, if_neg h]
  exact ⟨_, rfl⟩

/-- The frames of a chunk bring a change for each that has another connection than
the one before. -/
theorem mem_changes_framesTransitions {change : Change} :
    ∀ {frames : List FrameIdentity} {index : Nat},
      change ∈ (framesTransitions intervals manifest all index frames).filterMap Transition.change ↔
        ∃ (i : Nat) (a b : FrameIdentity), frames[i]? = some a ∧ frames[i + 1]? = some b ∧
          a.connectionId ≠ b.connectionId ∧ change = b.change
  | [], index => by simp [framesTransitions]
  | [a], index => by simp [framesTransitions]
  | a :: b :: rest, index => by
    rw [framesTransitions, List.filterMap_append, List.mem_append, mem_changes_framesTransitions]
    constructor
    · rintro (h | ⟨i, x, y, hx, hy, h⟩)
      · obtain ⟨transition, hmem, hchange⟩ := List.mem_filterMap.mp h
        obtain ⟨hne, hb, -⟩ := change_of_intraTransition (Option.mem_toList.mp hmem)
        rw [hb] at hchange
        exact ⟨0, a, b, rfl, rfl, hne, (Option.some.inj hchange).symm⟩
      · exact ⟨i + 1, x, y, hx, hy, h⟩
    · rintro ⟨i, x, y, hx, hy, hne, rfl⟩
      cases i with
      | zero =>
        obtain rfl : a = x := Option.some.inj hx
        obtain rfl : b = y := Option.some.inj hy
        obtain ⟨transition, h⟩ : ∃ transition,
            intraTransition intervals manifest all index a b = some transition :=
          isSome_intraTransition hne
        refine Or.inl (List.mem_filterMap.mpr ⟨transition, Option.mem_toList.mpr h, ?_⟩)
        exact (change_of_intraTransition h).2.1
      | succ i => exact Or.inr ⟨i, x, y, hx, hy, hne, rfl⟩

theorem sublist_changes_framesTransitions :
    ∀ (frames : List FrameIdentity) (index : Nat),
      ((framesTransitions intervals manifest all index frames).filterMap
        Transition.change).Sublist (frames.tail.map FrameIdentity.change)
  | [], index => List.nil_sublist _
  | [a], index => List.nil_sublist _
  | a :: b :: rest, index => by
    rw [framesTransitions, List.filterMap_append]
    show List.Sublist (_ ++ _) ([b.change] ++ (b :: rest).tail.map FrameIdentity.change)
    refine List.Sublist.append ?_ (sublist_changes_framesTransitions (b :: rest) (index + 1))
    cases h : intraTransition intervals manifest all index a b with
    | none => exact List.nil_sublist _
    | some transition =>
      rw [Option.toList_some, List.filterMap_cons_some (change_of_intraTransition h).2.1]
      exact List.Sublist.refl _

/-- The frames of a chunk have different indexes. -/
theorem nodup_changes_frames (chunkId : String) (envelopes : List EventEnvelope) :
    ((envelopes.mapIdx (frameIdentity chunkId)).map FrameIdentity.change).Nodup := by
  rw [List.nodup_iff_getElem?_ne_getElem?]
  intro i j hij hj heq
  rw [List.length_map, List.length_mapIdx] at hj
  have hi : i < envelopes.length := by omega
  simp only [List.getElem?_map, List.getElem?_mapIdx, List.getElem?_eq_getElem hi,
    List.getElem?_eq_getElem hj, Option.map_some, FrameIdentity.change, frameIdentity,
    Option.some.injEq, Change.intra.injEq, true_and, Nat.cast_inj] at heq
  omega

/-! ## Changes from chunk to chunk -/

theorem change_of_interTransition {previous chunk : ChunkScan} {intervening : List ChunkScan}
    {transition : Transition}
    (h : interTransition intervals previous intervening chunk = some transition) :
    (∃ x y, (lastConnection previous).1 = some x ∧ (firstConnection chunk).1 = some y ∧ x ≠ y) ∧
      transition.change = some (.inter (manifestText previous.manifest "chunk_id")
        (manifestText chunk.manifest "chunk_id")) ∧
      transition.oldManifest = previous.manifest := by
  unfold interTransition at h
  dsimp only at h
  split at h
  · next x y hx hy =>
    split at h
    · cases h
    · next hne =>
      obtain rfl := Option.some.inj h
      exact ⟨⟨x, y, hx, hy, hne⟩, rfl, rfl⟩
  · cases h

theorem isSome_interTransition {previous chunk : ChunkScan} {x y : String}
    (hx : (lastConnection previous).1 = some x) (hy : (firstConnection chunk).1 = some y)
    (hne : x ≠ y) (intervening : List ChunkScan) :
    ∃ transition, interTransition intervals previous intervening chunk = some transition := by
  unfold interTransition
  dsimp only
  simp only [hx, hy, if_neg hne]
  exact ⟨_, rfl⟩

/-! ## Changes that a chunk brings -/

/-- A chunk whose frames are not there brings a transition that does not say where it is. -/
theorem changes_unorderedTransition :
    (unorderedTransition intervals manifest).toList.filterMap Transition.change = [] := by
  unfold unorderedTransition
  split <;> rfl

theorem mem_changes_transitions {audit : StreamAudit} {chunk : ChunkScan} {change : Change} :
    change ∈ (audit.transitions none intervals chunk).filterMap Transition.change ↔
      isWebsocketChunk chunk = true ∧
        ((∃ (frames : List FrameIdentity) (i : Nat) (a b : FrameIdentity),
            chunk.frames = some frames ∧ frames[i]? = some a ∧ frames[i + 1]? = some b ∧
              a.connectionId ≠ b.connectionId ∧ change = b.change) ∨
          zeroRecordChunk chunk = false ∧ ∃ previous x y, audit.previous = some previous ∧
            (lastConnection previous).1 = some x ∧ (firstConnection chunk).1 = some y ∧ x ≠ y ∧
            change = .inter (manifestText previous.manifest "chunk_id")
              (manifestText chunk.manifest "chunk_id")) := by
  have hintra : change ∈ (intraTransitions intervals chunk).filterMap Transition.change ↔
      ∃ (frames : List FrameIdentity) (i : Nat) (a b : FrameIdentity),
        chunk.frames = some frames ∧ frames[i]? = some a ∧ frames[i + 1]? = some b ∧
          a.connectionId ≠ b.connectionId ∧ change = b.change := by
    unfold intraTransitions
    cases chunk.frames with
    | none => simp [changes_unorderedTransition]
    | some frames =>
      dsimp only
      rw [mem_changes_framesTransitions]
      constructor
      · rintro ⟨i, a, b, h⟩
        exact ⟨frames, i, a, b, rfl, h⟩
      · rintro ⟨other, i, a, b, hother, h⟩
        obtain rfl := Option.some.inj hother
        exact ⟨i, a, b, h⟩
  have hinter : change ∈ (audit.previous.bind fun previous =>
        interTransition intervals previous audit.intervening chunk).toList.filterMap
          Transition.change ↔
      ∃ previous x y, audit.previous = some previous ∧
        (lastConnection previous).1 = some x ∧ (firstConnection chunk).1 = some y ∧ x ≠ y ∧
        change = .inter (manifestText previous.manifest "chunk_id")
          (manifestText chunk.manifest "chunk_id") := by
    rw [List.mem_filterMap]
    constructor
    · rintro ⟨transition, hmem, hchange⟩
      obtain ⟨previous, hprevious, h⟩ := Option.bind_eq_some_iff.mp (Option.mem_toList.mp hmem)
      obtain ⟨⟨x, y, hx, hy, hne⟩, hinter, -⟩ := change_of_interTransition h
      exact ⟨previous, x, y, hprevious, hx, hy, hne, Option.some.inj (hchange.symm.trans hinter)⟩
    · rintro ⟨previous, x, y, hprevious, hx, hy, hne, rfl⟩
      obtain ⟨transition, h⟩ : ∃ transition,
          interTransition intervals previous audit.intervening chunk = some transition :=
        isSome_interTransition hx hy hne _
      refine ⟨transition, ?_, (change_of_interTransition h).2.1⟩
      rw [hprevious, Option.bind_some, h]
      exact List.mem_singleton_self _
  rw [StreamAudit.transitions]
  by_cases hweb : isWebsocketChunk chunk = true
  · rw [if_neg (by simp [hweb]), if_pos (by rfl), List.filterMap_append, List.mem_append, hintra,
      and_iff_right hweb]
    refine or_congr_right ?_
    -- A chunk without records has no change between it and the chunk before.
    by_cases hzero : zeroRecordChunk chunk = true
    · simp [hzero]
    · rw [if_neg hzero, hinter, and_iff_right (by simpa using hzero)]
  · rw [if_pos (by simpa using hweb)]
    simp [hweb]

/-- The changes that a chunk brings are different ones, and all to the chunk. -/
theorem changes_of_chunk {audit : StreamAudit} {chunk : ChunkScan} {chunkId : String}
    (hchunkId : manifestText chunk.manifest "chunk_id" = chunkId)
    (hframes : ∀ frames, chunk.frames = some frames →
      (frames.map FrameIdentity.change).Nodup ∧ ∀ frame ∈ frames, frame.chunkId = chunkId) :
    ((audit.transitions none intervals chunk).filterMap Transition.change).Nodup ∧
      ∀ change ∈ (audit.transitions none intervals chunk).filterMap Transition.change,
        change.newChunkId = chunkId := by
  have hnew : ∀ change ∈ (audit.transitions none intervals chunk).filterMap Transition.change,
      change.newChunkId = chunkId := by
    intro change hchange
    obtain ⟨-, ⟨frames, i, a, b, hfr, -, hb, -, rfl⟩ | ⟨-, previous, x, y, -, -, -, -, rfl⟩⟩ :=
      mem_changes_transitions.mp hchange
    · exact (hframes frames hfr).2 b (List.mem_of_getElem? hb)
    · exact hchunkId
  refine ⟨?_, hnew⟩
  have hintra : ((intraTransitions intervals chunk).filterMap Transition.change).Nodup ∧
      ∀ change ∈ (intraTransitions intervals chunk).filterMap Transition.change,
        ∃ id index, change = .intra id index := by
    unfold intraTransitions
    cases hfr : chunk.frames with
    | none => simp [changes_unorderedTransition]
    | some frames =>
      refine ⟨(sublist_changes_framesTransitions frames 1).nodup ?_, ?_⟩
      · exact ((frames.tail_sublist).map FrameIdentity.change).nodup (hframes frames hfr).1
      · intro change hchange
        obtain ⟨i, a, b, -, -, -, rfl⟩ := mem_changes_framesTransitions.mp hchange
        exact ⟨_, _, rfl⟩
  have hinter : ∀ transition, (audit.previous.bind fun previous =>
        interTransition intervals previous audit.intervening chunk) = some transition →
      ∃ old new, transition.change = some (.inter old new) := by
    intro transition h
    obtain ⟨previous, -, h⟩ := Option.bind_eq_some_iff.mp h
    exact ⟨_, _, (change_of_interTransition h).2.1⟩
  rw [StreamAudit.transitions]
  split
  · exact List.nodup_nil
  · rw [if_pos (by rfl), List.filterMap_append]
    split
    · simpa using hintra.1
    · cases hbind : (audit.previous.bind fun previous =>
          interTransition intervals previous audit.intervening chunk) with
      | none => simpa using hintra.1
      | some transition =>
        obtain ⟨old, new, hchange⟩ := hinter transition hbind
        rw [Option.toList_some, List.filterMap_cons_some hchange, List.filterMap_nil]
        refine hintra.1.append (List.nodup_singleton _) ?_
        intro change hmem hsingle
        obtain ⟨id, index, rfl⟩ := hintra.2 change hmem
        cases List.mem_singleton.mp hsingle

/-! ## The loop -/

namespace Inventory

variable {inv : Inventory} {c : SealedChunk}

theorem under_loaded {stream : StreamIdentity}
    (haudited : stream.stream ∈ websocketStreams stream.market) (l : List SealedChunk) :
    (auditPass none intervals).under stream (l.map inv.loaded) =
      (l.filter fun c => c.identity = stream).map inv.loaded := by
  rw [KeyedFold.Pass.under, List.filter_map]
  refine congrArg _ (List.filter_congr fun c _ => ?_)
  rw [Function.comp_apply, decide_eq_decide]
  constructor
  · exact identity_of_auditedStream
  · rintro rfl
    exact auditedStream_loaded haudited

/-- The last chunk with records is kept over the markers. -/
theorem previous_final {stream : StreamIdentity}
    (haudited : stream.stream ∈ websocketStreams stream.market) :
    ∀ (l : List SealedChunk), (∀ c ∈ l, c ∈ inv.chunks ∧ c.identity = stream) →
      ∀ audit : StreamAudit,
        ((auditPass none intervals).final audit (l.map inv.loaded)).previous =
          (((l.filter fun c => c.envelopes ≠ []).getLast?).map inv.loaded).or audit.previous
  | [], _, audit => rfl
  | c :: l, hl, audit => by
    obtain ⟨hc, hidentity⟩ := hl c List.mem_cons_self
    have hweb : isWebsocketChunk (inv.loaded c) = true :=
      isWebsocketChunk_loaded.mpr (by rw [← hidentity] at haudited; exact haudited)
    rw [List.map_cons, KeyedFold.Pass.final_cons,
      previous_final haudited l fun c' hc' => hl c' (List.mem_cons_of_mem _ hc')]
    show Option.or _ (StreamAudit.next none intervals audit (inv.loaded c)).previous = _
    rw [StreamAudit.next, if_neg (by simp [hweb])]
    by_cases hrecords : c.envelopes = []
    · rw [if_pos ((zeroRecordChunk_iff hc).mpr hrecords),
        List.filter_cons_of_neg (by simp [hrecords])]
      split <;> rfl
    · rw [if_neg (fun h => hrecords ((zeroRecordChunk_iff hc).mp h)),
        List.filter_cons_of_pos (by simpa using hrecords), List.getLast?_cons]
      cases (l.filter fun c => c.envelopes ≠ []).getLast? <;> rfl

/-- The last item with a property. -/
theorem getLast?_filter_eq_some {α : Type} {p : α → Bool} {l : List α} {a : α} :
    (l.filter p).getLast? = some a ↔
      p a = true ∧ ∃ before after, l = before ++ a :: after ∧ ∀ b ∈ after, p b = false := by
  rw [← List.head?_reverse, ← List.filter_reverse, List.head?_filter,
    List.find?_eq_some_iff_append]
  refine and_congr_right fun _ => ⟨?_, ?_⟩
  · rintro ⟨before, after, hl, hbefore⟩
    refine ⟨after.reverse, before.reverse, ?_, by simpa using hbefore⟩
    rw [← List.reverse_reverse l, hl]
    simp
  · rintro ⟨before, after, rfl, hafter⟩
    exact ⟨after.reverse, before.reverse, by simp, by simpa using hafter⟩

/-- The neighbour of a chunk is the last chunk of its stream before it that has records. -/
theorem neighbours_iff {a b : SealedChunk} :
    inv.Neighbours a b ↔ b.envelopes ≠ [] ∧ ∃ before after, inv.chunks = before ++ b :: after ∧
      ((before.filter fun c => c.identity = b.identity).filter
        fun c => c.envelopes ≠ []).getLast? = some a := by
  simp only [List.filter_filter, getLast?_filter_eq_some, Bool.and_eq_true, decide_eq_true_eq,
    Bool.and_eq_false_iff, decide_eq_false_iff_not, not_not]
  constructor
  · rintro ⟨ha, hb, hidentity, before, between, after, hchunks, hbetween⟩
    refine ⟨hb, before ++ a :: between, after, by simp [hchunks], ⟨ha, hidentity⟩, before, between,
      rfl, fun c hc => ?_⟩
    by_cases hc' : c.identity = b.identity
    · exact Or.inl (hbetween c hc (hc'.trans hidentity.symm))
    · exact Or.inr hc'
  · rintro ⟨hb, before, after, hchunks, ⟨ha, hidentity⟩, first, between, rfl, hbetween⟩
    refine ⟨ha, hb, hidentity, first, between, after, by simp [hchunks], fun c hc hc' => ?_⟩
    exact (hbetween c hc).resolve_right (fun h => h (hc'.trans hidentity))

/-- The frames of a chunk have its id, and different indexes. -/
theorem frames_loaded (hc : c ∈ inv.chunks) {frames : List FrameIdentity}
    (h : (inv.loaded c).frames = some frames) :
    (frames.map FrameIdentity.change).Nodup ∧ ∀ frame ∈ frames, frame.chunkId = c.chunkId := by
  by_cases hraw : c.HasRaw inv.files
  · rw [frames_of_hasRaw hc hraw] at h
    obtain rfl := Option.some.inj h
    refine ⟨nodup_changes_frames _ _, fun frame hframe => ?_⟩
    obtain ⟨i, hi, rfl⟩ := List.mem_mapIdx.mp hframe
    rfl
  · rw [loaded, SealedChunk.not_loaded c _ hraw] at h
    cases h

/-- The changes of a run are different ones: each chunk has its own. -/
theorem nodup_changes_run : ∀ (l : List SealedChunk), (∀ c ∈ l, c ∈ inv.chunks) →
    (l.map SealedChunk.chunkId).Nodup →
    ∀ s : SortedDict StreamIdentity StreamAudit × List Transition,
      (s.2.filterMap Transition.change).Nodup →
      (∀ change ∈ s.2.filterMap Transition.change,
        change.newChunkId ∉ l.map SealedChunk.chunkId) →
      (((auditPass none intervals).run s (l.map inv.loaded)).2.filterMap Transition.change).Nodup
  | [], _, _, s, hs, _ => hs
  | c :: l, hl, hnodup, s, hs, hnew => by
    rw [List.map_cons, List.nodup_cons] at hnodup
    rw [List.map_cons, KeyedFold.Pass.run_cons]
    have hrest : ∀ c' ∈ l, c' ∈ inv.chunks := fun c' hc' => hl c' (List.mem_cons_of_mem _ hc')
    have hnew' : ∀ change ∈ s.2.filterMap Transition.change,
        change.newChunkId ≠ c.chunkId ∧ change.newChunkId ∉ l.map SealedChunk.chunkId :=
      fun change hchange => by simpa using hnew change hchange
    cases hkey : (auditPass none intervals).key (inv.loaded c) with
    | none =>
      rw [KeyedFold.Pass.step, hkey]
      exact nodup_changes_run l hrest hnodup.2 s hs fun change hchange => (hnew' change hchange).2
    | some stream =>
      rw [KeyedFold.Pass.step_of_key hkey]
      have hchunk : ∀ audit : StreamAudit,
          ((audit.transitions none intervals (inv.loaded c)).filterMap Transition.change).Nodup ∧
            ∀ change ∈ (audit.transitions none intervals (inv.loaded c)).filterMap
              Transition.change, change.newChunkId = c.chunkId := fun audit =>
        changes_of_chunk manifestText_loaded fun frames => frames_loaded (hl c List.mem_cons_self)
      obtain ⟨hout, hid⟩ := hchunk ((s.1.get? stream).getD (auditPass none intervals).init)
      refine nodup_changes_run l hrest hnodup.2 _ ?_ ?_
      · rw [List.filterMap_append]
        refine hs.append hout fun change hmem hmem' => ?_
        exact (hnew' change hmem).1 (hid change hmem')
      · intro change hchange
        rw [List.filterMap_append, List.mem_append] at hchange
        rcases hchange with hchange | hchange
        · exact (hnew' change hchange).2
        · rw [hid change hchange]
          exact hnodup.1

/-! ## The ends of chunks -/

/-- Both ends of a chunk with records are known, or none of them. -/
theorem boundaryKnown_iff (hc : c ∈ inv.chunks) (hrecords : c.envelopes ≠ []) :
    (inv.BoundaryKnown c ↔ ∃ x, (lastConnection (inv.loaded c)).1 = some x) ∧
      (inv.BoundaryKnown c ↔ ∃ x, (firstConnection (inv.loaded c)).1 = some x) := by
  have hconnections : c.connections ≠ [] := by simpa [SealedChunk.connections] using hrecords
  by_cases hraw : c.HasRaw inv.files
  · rw [lastConnection_of_hasRaw hc hraw, firstConnection_of_hasRaw hc hraw]
    exact ⟨iff_of_true (Or.inl hraw) ⟨_, List.getLast?_eq_some_getLast hconnections⟩,
      iff_of_true (Or.inl hraw) ⟨_, List.head?_eq_some_head hconnections⟩⟩
  · have hknown : inv.BoundaryKnown c ↔ ∃ x, onlyConnection c.scan.manifest = some x := by
      rw [BoundaryKnown, ← Option.isSome_iff_exists, SealedChunk.onlyConnection_isSome]
      exact or_iff_right hraw
    rw [(connection_of_not_hasRaw hraw).1, (connection_of_not_hasRaw hraw).2]
    exact ⟨hknown, hknown⟩

theorem BoundaryKnown.ne {a b : SealedChunk} {x y : String} (hdiffer : inv.ProvablyDiffer a b)
    (ha : a ∈ inv.chunks) (hb : b ∈ inv.chunks)
    (hx : (lastConnection (inv.loaded a)).1 = some x)
    (hy : (firstConnection (inv.loaded b)).1 = some y) : x ≠ y := by
  by_cases hraw : a.HasRaw inv.files ∧ b.HasRaw inv.files
  · have hne := hdiffer.1 hraw
    rw [← lastConnection_of_hasRaw ha hraw.1, ← firstConnection_of_hasRaw hb hraw.2, hx, hy] at hne
    exact fun h => hne (congrArg some h)
  · have hx' := mem_connections_of_last ha (Or.inl hx)
    have hy' := mem_connections_of_last hb (Or.inr hy)
    rintro rfl
    exact Finset.disjoint_left.mp (hdiffer.2 hraw) hx' hy'

theorem eq_of_chunkId {a b : SealedChunk} (ha : a ∈ inv.chunks) (hb : b ∈ inv.chunks)
    (h : a.chunkId = b.chunkId) : a = b := List.inj_on_of_nodup_map inv.nodup ha hb h

theorem Neighbours.mem {a b : SealedChunk} (h : inv.Neighbours a b) :
    a ∈ inv.chunks ∧ b ∈ inv.chunks := by
  obtain ⟨-, -, -, before, between, after, hchunks, -⟩ := h
  rw [hchunks]
  simp

/-! ## What the audit reports -/

variable [Json.Reader]

theorem collect_eq_ok {catalog : Option AuditCatalog} {report : TransitionReport}
    (h : collectTransitions inv.scans inv.files catalog none = .ok report) :
    ∃ intervals, auditIntervals catalog = .ok intervals ∧ report.transitions.Perm
      ((auditPass none intervals).run (.empty, []) (inv.chunks.map inv.loaded)).2 := by
  unfold collectTransitions at h
  cases hintervals : auditIntervals catalog with
  | error e =>
    rw [hintervals] at h
    cases h
  | ok intervals =>
    rw [hintervals] at h
    obtain rfl : _ = report := Except.ok.inj h
    refine ⟨intervals, rfl, ?_⟩
    dsimp only
    rw [scans, List.map_map]
    exact List.perm_insertionSort _ _

theorem exists_collect {catalog : Option AuditCatalog} {intervals : List CatalogGapInterval}
    (h : auditIntervals catalog = .ok intervals) :
    ∃ report, collectTransitions inv.scans inv.files catalog none = .ok report := by
  unfold collectTransitions
  rw [h]
  exact ⟨_, rfl⟩

variable {catalog : Option AuditCatalog} {report : TransitionReport}

/-- The changes of a report: the adjacent ones, and those between neighbours with known and
different connections, in the streams that are looked at. -/
theorem mem_changes_iff (h : collectTransitions inv.scans inv.files catalog none = .ok report)
    {change : Change} :
    change ∈ report.changes ↔
      (∃ c index, inv.AdjacentChange c index ∧ c.Audited ∧
        change = .intra c.chunkId (index + 1 : Nat)) ∨
      ∃ a b, inv.Neighbours a b ∧ b.Audited ∧ change = .inter a.chunkId b.chunkId ∧
        ∃ x y, (lastConnection (inv.loaded a)).1 = some x ∧
          (firstConnection (inv.loaded b)).1 = some y ∧ x ≠ y := by
  obtain ⟨intervals, -, hperm⟩ := collect_eq_ok h
  -- A change is reported at the chunk of some position of the run.
  have hrun : change ∈ report.changes ↔ ∃ before c after, inv.chunks = before ++ c :: after ∧
      ∃ stream, auditedStream (inv.loaded c) = some stream ∧
        change ∈ (((auditPass none intervals).final {}
          ((auditPass none intervals).under stream (before.map inv.loaded))).transitions none
            intervals (inv.loaded c)).filterMap Transition.change := by
    rw [TransitionReport.changes, (hperm.filterMap _).mem_iff]
    simp only [List.mem_filterMap, KeyedFold.Pass.mem_run, List.not_mem_nil, false_or]
    constructor
    · rintro ⟨transition, ⟨before, chunk, after, stream, hchunks, hkey, hmem⟩, hchange⟩
      obtain ⟨before, rest, hsplit, rfl, hrest⟩ := List.map_eq_append_iff.mp hchunks
      obtain ⟨c, after, rfl, rfl, rfl⟩ := List.map_eq_cons_iff.mp hrest
      exact ⟨before, c, after, hsplit, stream, hkey, transition, hmem, hchange⟩
    · rintro ⟨before, c, after, hsplit, stream, hkey, transition, hmem, hchange⟩
      exact ⟨transition, ⟨before.map inv.loaded, inv.loaded c, after.map inv.loaded, stream,
        by simp [hsplit], hkey, hmem⟩, hchange⟩
  -- What the audit remembers of a stream is its last chunk with records before this one.
  have hprevious : ∀ {before c after} {previous : ChunkScan},
      inv.chunks = before ++ c :: after → c.Audited → c.envelopes ≠ [] →
      (((auditPass none intervals).final {} ((auditPass none intervals).under c.identity
          (before.map inv.loaded))).previous = some previous ↔
        ∃ a, inv.loaded a = previous ∧ ((before.filter fun c' => c'.identity = c.identity).filter
          fun c => c.envelopes ≠ []).getLast? = some a) := by
    intro before c after previous hsplit haudited hrecords
    have hstream : c.identity.stream ∈ websocketStreams c.identity.market := haudited
    rw [under_loaded hstream, previous_final hstream, Option.or_none, Option.map_eq_some_iff]
    · simp only [and_comm]
    · intro c' hc'
      obtain ⟨hmem, hidentity⟩ := List.mem_filter.mp hc'
      exact ⟨by simp [hsplit, hmem], by simpa using hidentity⟩
  rw [hrun]
  simp only [mem_changes_transitions, isWebsocketChunk_loaded]
  constructor
  · rintro ⟨before, c, after, hsplit, stream, hkey, haudited,
      ⟨frames, i, a, b, hframes, ha, hb, hne, rfl⟩ | ⟨hzero, previous, x, y, hlast,
        hx, hy, hne, rfl⟩⟩
    · have hc : c ∈ inv.chunks := by simp [hsplit]
      refine Or.inl ⟨c, i, ?_, haudited, ?_⟩
      · by_cases hraw : c.HasRaw inv.files
        · rw [frames_of_hasRaw hc hraw] at hframes
          obtain rfl := Option.some.inj hframes
          rw [List.getElem?_mapIdx, Option.map_eq_some_iff] at ha hb
          obtain ⟨e, he, rfl⟩ := ha
          obtain ⟨e', he', rfl⟩ := hb
          exact ⟨hc, hraw, e, e', he, he', hne⟩
        · rw [loaded, SealedChunk.not_loaded c _ hraw] at hframes
          cases hframes
      · by_cases hraw : c.HasRaw inv.files
        · rw [frames_of_hasRaw hc hraw] at hframes
          obtain rfl := Option.some.inj hframes
          rw [List.getElem?_mapIdx, Option.map_eq_some_iff] at hb
          obtain ⟨e', he', rfl⟩ := hb
          rfl
        · rw [loaded, SealedChunk.not_loaded c _ hraw] at hframes
          cases hframes
    · have hc : c ∈ inv.chunks := by simp [hsplit]
      have hrecords : c.envelopes ≠ [] := fun h => by
        rw [(zeroRecordChunk_iff hc).mpr h] at hzero
        cases hzero
      obtain rfl := identity_of_auditedStream hkey
      obtain ⟨a, rfl, ha⟩ := (hprevious hsplit haudited hrecords).mp hlast
      refine Or.inr ⟨a, c, neighbours_iff.mpr ⟨hrecords, before, after, hsplit, ha⟩, haudited, ?_,
        x, y, hx, hy, hne⟩
      rw [manifestText_loaded, manifestText_loaded]
  · rintro (⟨c, index, hadjacent, haudited, rfl⟩ | ⟨a, b, hneighbours, haudited, rfl, x,
      y, hx, hy, hne⟩)
    · obtain ⟨hc, hraw, e, e', he, he', hdiffer⟩ := hadjacent
      obtain ⟨before, after, hsplit⟩ := List.append_of_mem hc
      refine ⟨before, c, after, hsplit, c.identity, auditedStream_loaded haudited, haudited,
        Or.inl ⟨_, index, frameIdentity c.chunkId index e, frameIdentity c.chunkId (index + 1) e',
          frames_of_hasRaw hc hraw, ?_, ?_, hdiffer, rfl⟩⟩
      · rw [List.getElem?_mapIdx, he, Option.map_some]
      · rw [List.getElem?_mapIdx, he', Option.map_some]
    · obtain ⟨hrecords, before, after, hsplit, hlast⟩ := neighbours_iff.mp hneighbours
      have hb : b ∈ inv.chunks := by simp [hsplit]
      refine ⟨before, b, after, hsplit, b.identity, auditedStream_loaded haudited, haudited,
        Or.inr ⟨?_, inv.loaded a, x, y, ?_, hx, hy, hne, ?_⟩⟩
      · rw [Bool.eq_false_iff]
        exact fun h => hrecords ((zeroRecordChunk_iff hb).mp h)
      · exact (hprevious hsplit haudited hrecords).mpr ⟨a, rfl, hlast⟩
      · rw [manifestText_loaded, manifestText_loaded]

/-! ## Every provable change -/

/-- Every provable change is reported just once. -/
def ReportsEveryChange (inv : Inventory) (report : TransitionReport) : Prop :=
  ∀ change, inv.ProvableChange change → report.changes.count change = 1

theorem nodup_changes (h : collectTransitions inv.scans inv.files catalog none = .ok report) :
    report.changes.Nodup := by
  obtain ⟨intervals, -, hperm⟩ := collect_eq_ok h
  rw [TransitionReport.changes, (hperm.filterMap _).nodup_iff]
  exact nodup_changes_run inv.chunks (fun _ h => h) inv.nodup _ List.nodup_nil
    fun change hchange => absurd hchange List.not_mem_nil

/-- **Every provable change is reported exactly where the audit can tell it**: its stream is looked
at, and the connections on both sides are known from frames or from a manifest with just one. -/
theorem reports_every_change_iff (inv : Inventory) (catalog : Option AuditCatalog) :
    (∃ report, collectTransitions inv.scans inv.files catalog none = .ok report ∧
        inv.ReportsEveryChange report) ↔
      (∀ c, catalog = some c → c.Readable) ∧ inv.CanTell := by
  rw [← auditIntervals_isOk_iff]
  constructor
  · rintro ⟨report, h, hreports⟩
    obtain ⟨intervals, hintervals, -⟩ := collect_eq_ok h
    have hmem : ∀ {change}, inv.ProvableChange change → change ∈ report.changes := fun hchange =>
      List.count_pos_iff.mp (by rw [hreports _ hchange]; exact Nat.one_pos)
    refine ⟨⟨intervals, hintervals⟩, ?_, ?_⟩
    · intro c index hadjacent
      rcases (mem_changes_iff h).mp (hmem (.intra hadjacent)) with
        ⟨c', index', hadjacent', haudited, heq⟩ | ⟨a, b, -, -, heq, -⟩
      · rw [eq_of_chunkId hadjacent.mem hadjacent'.mem (Change.intra.inj heq).1]
        exact haudited
      · cases heq
    · intro a b hneighbours hdiffer
      rcases (mem_changes_iff h).mp (hmem (.inter hneighbours hdiffer)) with
        ⟨c, index, -, -, heq⟩ | ⟨a', b', hneighbours', haudited, heq, x, y, hx, hy, -⟩
      · cases heq
      · obtain ⟨ha, hb⟩ := hneighbours.mem
        obtain rfl := eq_of_chunkId ha hneighbours'.mem.1 (Change.inter.inj heq).1
        obtain rfl := eq_of_chunkId hb hneighbours'.mem.2 (Change.inter.inj heq).2
        refine ⟨?_, (boundaryKnown_iff ha hneighbours.1).1.mpr ⟨x, hx⟩,
          (boundaryKnown_iff hb hneighbours.2.1).2.mpr ⟨y, hy⟩⟩
        show a.identity.stream ∈ websocketStreams a.identity.market
        rw [hneighbours.2.2.1]
        exact haudited
  · rintro ⟨⟨intervals, hintervals⟩, hcan⟩
    obtain ⟨report, h⟩ := exists_collect hintervals
    refine ⟨report, h, fun change hchange => List.count_eq_one_of_mem (nodup_changes h) ?_⟩
    rw [mem_changes_iff h]
    cases hchange with
    | intra hadjacent => exact Or.inl ⟨_, _, hadjacent, hcan.intra hadjacent, rfl⟩
    | @inter a b hneighbours hdiffer =>
      obtain ⟨haudited, hknown, hknown'⟩ := hcan.inter hneighbours hdiffer
      obtain ⟨ha, hb⟩ := hneighbours.mem
      obtain ⟨x, hx⟩ := (boundaryKnown_iff ha hneighbours.1).1.mp hknown
      obtain ⟨y, hy⟩ := (boundaryKnown_iff hb hneighbours.2.1).2.mp hknown'
      refine Or.inr ⟨a, b, hneighbours, ?_, rfl, x, y, hx, hy, BoundaryKnown.ne hdiffer ha hb hx hy⟩
      show b.identity.stream ∈ websocketStreams b.identity.market
      rw [← hneighbours.2.2.1]
      exact haudited

end Inventory

/-! ## A stream group -/

section

open scoped Json.Grammar

def groupSource : Source where
  market := .spot
  symbol := "BTCUSDT"
  stream := "diff_depth"
  transport := "ws"
  endpoint := "wss://stream.binance.com:9443/btcusdt@depth@100ms"

/-- The name of the group of that source alone. -/
def groupStream : NonEmptyText := ⟨"ws_market_7953c34d5d125bbe", by decide⟩

/-- A chunk of the group with two frames of different connections. -/
def groupChunk : SealedChunk where
  header := { sampleHeader with stream := groupStream.val }
  envelopes := [{ firstSampleEnvelope with stream := groupStream },
    { sampleEnvelope secondConnection [] with stream := groupStream }]
  fileSize := 400
  uncompressedSha256 := "u"
  relativePath := "data/sealed/group.zst"
  storedBytes := 300
  storedSha256 := "s"
  recovery := none
  forcedFlags := ∅
  processBoundaryBeforeFirstFrame := false
  sealedAt := 1700000000000000009

def groupInventory : Inventory where
  chunks := [groupChunk]
  nodup := List.nodup_singleton _
  files := ⟨fun path =>
    if path = "data/sealed/group.zst" then some (.ok groupChunk.envelopes) else none⟩
  content := by
    rintro c hc envelopes h
    obtain rfl := List.mem_singleton.mp hc
    exact (Except.ok.inj (Option.some.inj h)).symm

/-- A connection change in the chunk of a group, with its Raw there, is not reported. -/
theorem group_change_unreported :
    (∃ groups, streamGroups [groupSource] 100 true = .ok groups ∧
      groups.map StreamGroup.name = [groupStream.val]) ∧
    groupChunk.header.stream = groupStream.val ∧
    ∃ report, collectTransitions groupInventory.scans groupInventory.files none none = .ok report ∧
      ¬ groupInventory.ReportsEveryChange report := by
  refine ⟨⟨_, rfl, ?_⟩, rfl, ?_⟩
  · decide +kernel
  · obtain ⟨report, h⟩ : ∃ report, collectTransitions groupInventory.scans groupInventory.files
        none none = .ok report :=
          Inventory.exists_collect (show auditIntervals none = .ok [] from rfl)
    refine ⟨report, h, fun hreports => ?_⟩
    have hchange : groupInventory.ProvableChange (.intra groupChunk.chunkId (0 + 1 : Nat)) :=
      .intra ⟨List.mem_singleton_self _, ⟨by decide, _, rfl⟩, _, _, rfl, rfl, by decide⟩
    have hmem := List.count_pos_iff.mp ((hreports _ hchange).symm ▸ Nat.one_pos)
    have haudited : ∀ c ∈ groupInventory.chunks, ¬ c.Audited := by
      intro c hc
      obtain rfl := List.mem_singleton.mp hc
      decide
    rcases (Inventory.mem_changes_iff h).mp hmem with
      ⟨c, index, hadjacent, hc, -⟩ | ⟨a, b, -, -, heq, -⟩
    · exact haudited c hadjacent.mem hc
    · cases heq

end

end MarketDataRecorder
