import MarketDataRecorder.Spool.Encode
import MarketDataRecorder.Spool.Writer

/-!
# The writer's evidence and the scan of its file

The writer keeps its evidence as it goes; the slow path reads the file again. `Evident` says that
the accumulators of a writer are those of a scan of its file.

* `Evident.fromScan` — then its evidence is the evidence of a scan
* `Evident.commit` — frames prepared one behind the other, written however the system cuts its
  writes, and committed, keep it
-/

namespace MarketDataRecorder

open Framing

namespace Writer

/-- The writer's accumulators in the words of the scanner. -/
def scanState (w : Writer) : ScanState where
  statistics := w.statistics
  digest := w.rawDigest
  transitions := w.connectionTransitions
  previousConnectionId := w.previousConnectionId
  previousFlags := w.previousCaptureFlags
  validEnd := w.verifiedBytes

/-- The writer may still issue clean evidence. -/
def Live (w : Writer) : Prop := w.state = .openClean ∨ w.state = .closedClean

instance (w : Writer) : Decidable w.Live := inferInstanceAs (Decidable (_ ∨ _))

end Writer

/-- An envelope that a chunk takes. -/
structure Storable (codec : Codec) (h : ChunkHeader) (e : EventEnvelope) : Prop where
  identity : Matches h e
  roundTrips : RoundTrips codec e.canonicalMapping
  encodes : ∃ bytes, encodeFrame codec e h.maxFrameBytes = .ok bytes

/-- The file holds the header and the frames of `es`, and the accumulators say so. -/
structure Evident (codec : Codec) (w : Writer) (es : List EventEnvelope) : Prop where
  headerValid : validateChunkHeader w.header = .ok ()
  headerBytes : HeaderBytes codec (encodedHeader codec w.header) w.header
  file : w.file = encodedHeader codec w.header ++ encodedFrames codec es
  accumulators : w.scanState =
    (ScanState.start (encodedHeader codec w.header)).acceptAll (es.map (encodedFrame codec))
  storable : ∀ e ∈ es, Storable codec w.header e

section

variable {codec : Codec} {w w' : Writer} {es : List EventEnvelope}

/-! ## Evidence and scan -/

/-- The frames of a file are its encoded records, one after another. -/
theorem encodedFrames_eq (es : List EventEnvelope) :
    ((es.map (encodedFrame codec)).map RawFrame.bytes).flatten = encodedFrames codec es := by
  simp [encodedFrames, Function.comp_def]

/-- The accumulated bytes are the file's. -/
theorem Evident.verifiedBytes (h : Evident codec w es) :
    w.verifiedBytes = w.file.length ∧ w.rawDigest = w.file := by
  have hend := congrArg ScanState.validEnd h.accumulators
  have hdigest := congrArg ScanState.digest h.accumulators
  rw [ScanState.acceptAll_validEnd, encodedFrames_eq] at hend
  rw [ScanState.acceptAll_digest, encodedFrames_eq] at hdigest
  rw [h.file, List.length_append]
  exact ⟨hend, hdigest⟩

/-- The evidence a writer would issue. -/
def Writer.evidence (codec : Codec) (w : Writer) : VerifiedChunkEvidence where
  header := w.header
  statistics := .fromStatistics w.statistics
  fileSize := w.verifiedBytes
  uncompressedSha256 := codec.sha256Hex w.rawDigest
  connectionTransitions := w.connectionTransitions

/-- **The accumulators of an evident writer are the evidence of a scan of its file.** -/
theorem Evident.fromScan (h : Evident codec w es) :
    VerifiedChunkEvidence.fromScan (scanChunk codec w.file) = some (w.evidence codec) := by
  have hscan := frameScan_encodedFrames (maxFrameBytes_bounds h.headerValid).2
    (fun e he => (h.storable e he).identity) (fun e he => (h.storable e he).roundTrips)
    (fun e he => (h.storable e he).encodes)
  have hframes : (frameScan codec w.header (encodedFrames codec es)).frames.map Prod.fst =
      es.map (encodedFrame codec) := by
    rw [hscan]
    simp [Function.comp_def]
  rw [h.file, scanChunk_of_header h.headerBytes, hframes, hscan, ← h.accumulators, ← h.file,
    ← h.verifiedBytes.1]
  rfl

/-! ## Poison -/

@[simp] theorem not_live_poison (w : Writer) : ¬ w.poison.Live := by
  unfold Writer.poison Writer.Live
  split
  · next h => simp [h]
  · simp

/-- What returns inside `_poisoning` returns outside. -/
theorem poisoning_eq_ok {r : WriterRun} : Writer.poisoning r = .ok w ↔ r = .ok w := by
  cases r with
  | error e => simp [Writer.poisoning]
  | ok v => rfl

/-- **What raises inside `_poisoning` ends the evidence.** -/
theorem not_live_of_poisoning {r : WriterRun} {e : WriterError}
    (h : Writer.poisoning r = .error (e, w)) : ¬ w.Live := by
  cases r with
  | error p =>
    simp only [Writer.poisoning, Except.error.injEq, Prod.mk.injEq] at h
    obtain ⟨-, rfl⟩ := h
    exact not_live_poison _
  | ok v => cases h

/-! ## Writes -/

/-- A writer that passes the check is open and clean. -/
theorem requireOpenClean_eq_ok (h : w.requireOpenClean = .ok w') :
    w = w' ∧ w.closed = false ∧ w.state = .openClean := by
  unfold Writer.requireOpenClean at h
  split at h
  · cases h
  · next hc =>
    split at h
    · cases h
    · next hs =>
      cases h
      exact ⟨rfl, by simpa using hc, by simpa using hs⟩

/-- A writer that fails the check stays as it is. -/
theorem requireOpenClean_eq_error {e : WriterError} (h : w.requireOpenClean = .error (e, w')) :
    w' = w ∧ ∃ message, e = .runtimeError message := by
  unfold Writer.requireOpenClean at h
  split at h
  · cases h; exact ⟨rfl, _, rfl⟩
  · split at h
    · cases h; exact ⟨rfl, _, rfl⟩
    · cases h

/-- An open and clean writer passes the check. -/
theorem requireOpenClean_of_open (hc : w.closed = false) (hs : w.state = .openClean) :
    w.requireOpenClean = .ok w := by
  simp [Writer.requireOpenClean, hc, hs]

/-- Two writes append one after the other. -/
theorem wrote_wrote (w : Writer) (a b : Bytes) : (w.wrote a).wrote b = w.wrote (a ++ b) := by
  simp [Writer.wrote, Nat.add_assoc]

theorem wrote_nil (w : Writer) : w.wrote [] = w := by
  simp [Writer.wrote]

/-- However the writes are cut, all of the data is written. -/
theorem writeLoop_eq_ok :
    ∀ {outcomes : List WriteOutcome} {data : Bytes} {w : Writer},
      Writer.writeLoop outcomes data w = .ok w' → w' = w.wrote data
  | outcomes, [], w, h => by
    have : w' = w := by cases outcomes <;> simpa [Writer.writeLoop] using h.symm
    rw [this, wrote_nil]
  | [], d :: data, w, h => by
    simpa [Writer.writeLoop] using h.symm
  | .wrote n :: outcomes, d :: data, w, h => by
    simp only [Writer.writeLoop] at h
    split at h
    · cases h
    · rw [writeLoop_eq_ok h, wrote_wrote, List.take_append_drop]
  | .interrupted :: outcomes, d :: data, w, h => by cases h
  | .failed :: outcomes, d :: data, w, h => by cases h

/-- What `dropWritten` leaves. -/
theorem flatten_dropWritten :
    ∀ (n : Nat) (views : List Bytes),
      (Writer.dropWritten n views).flatten = views.flatten.drop n
  | _, [] => by simp [Writer.dropWritten]
  | n, view :: views => by
    simp only [Writer.dropWritten]
    split
    · next hle =>
      rw [flatten_dropWritten (n - view.length) views, List.flatten_cons, List.drop_append,
        List.drop_eq_nil_of_le hle, List.nil_append]
    · next hlt =>
      split
      · next h0 => rw [h0, List.drop_zero]
      · rw [List.flatten_cons, List.flatten_cons,
          List.drop_append_of_le_length (Nat.le_of_not_le hlt)]

/-- **A vectored write that returns has written everything**, however often it was cut short. -/
theorem writeVectorLoop_eq_ok {limit : Nat} :
    ∀ {outcomes : List WriteOutcome} {views : List Bytes} {w : Writer},
      Writer.writeVectorLoop limit outcomes views w = .ok w' → w' = w.wrote views.flatten
  | outcomes, [], w, h => by
    have : w' = w := by cases outcomes <;> simpa [Writer.writeVectorLoop] using h.symm
    rw [this, List.flatten_nil, wrote_nil]
  | [], v :: views, w, h => by
    simpa [Writer.writeVectorLoop] using h.symm
  | .wrote n :: outcomes, v :: views, w, h => by
    simp only [Writer.writeVectorLoop] at h
    split at h
    · cases h
    · rw [writeVectorLoop_eq_ok h, wrote_wrote, flatten_dropWritten]
      have hviews : ((v :: views).take limit).flatten <+: (v :: views).flatten := by
        refine ⟨((v :: views).drop limit).flatten, ?_⟩
        rw [← List.flatten_append, List.take_append_drop]
      rw [List.prefix_iff_eq_append.mp ((List.take_prefix _ _).trans hviews)]
  | .interrupted :: outcomes, v :: views, w, h => by
    simp only [Writer.writeVectorLoop] at h
    exact writeVectorLoop_eq_ok h
  | .failed :: outcomes, v :: views, w, h => by
    simp only [Writer.writeVectorLoop] at h
    cases h

/-- A write that returns has written everything. -/
theorem writeAll_eq_ok {outcomes : List WriteOutcome} {data : Bytes}
    (h : w.writeAll outcomes data = .ok w') : w' = w.wrote data :=
  writeLoop_eq_ok (poisoning_eq_ok.mp h)

/-- So has a write of several views. -/
theorem writeVectors_eq_ok {outcomes : List WriteOutcome} {views : List Bytes}
    (h : w.writeVectors outcomes views = .ok w') : w' = w.wrote views.flatten := by
  unfold Writer.writeVectors at h
  split at h
  · exact writeAll_eq_ok h
  · exact writeVectorLoop_eq_ok h

/-! ## Prepared frames -/

/-- A frame prepared behind a connection and its flags, as the scanner would take it. -/
structure Prepared (codec : Codec) (h : ChunkHeader) (previous : Option String)
    (flags : Finset String) (p : PreparedFrame) : Prop where
  transition : p.connectionTransition.toList = connectionTransition previous flags p.envelope
  captureFlags : p.captureFlagsSet = p.envelope.captureFlagsSet
  bytes : p.exactBytes = (encodedFrame codec p.envelope).bytes
  storable : Storable codec h p.envelope

/-- Frames prepared one behind the other. -/
def Chained (codec : Codec) (h : ChunkHeader) :
    Option String → Finset String → List PreparedFrame → Prop
  | _, _, [] => True
  | previous, flags, p :: ps =>
    Prepared codec h previous flags p ∧
      Chained codec h (some p.envelope.connectionId.val) p.envelope.captureFlagsSet ps

/-- Prepared behind the last of some frames, or behind what was there before them. -/
def PreparedBehind (codec : Codec) (h : ChunkHeader) (previous : Option String)
    (flags : Finset String) (ps : List PreparedFrame) (p : PreparedFrame) : Prop :=
  match ps.getLast? with
  | none => Prepared codec h previous flags p
  | some q => Prepared codec h (some q.envelope.connectionId.val) q.envelope.captureFlagsSet p

/-- A prepared frame goes on behind the chain. -/
theorem Chained.concat {h : ChunkHeader} {p : PreparedFrame} :
    ∀ {ps : List PreparedFrame} {previous : Option String} {flags : Finset String},
      Chained codec h previous flags ps → PreparedBehind codec h previous flags ps p →
        Chained codec h previous flags (ps ++ [p])
  | [], _, _, _, hp => ⟨hp, trivial⟩
  | [q], _, _, hc, hp => ⟨hc.1, hp, trivial⟩
  | q :: r :: ps, _, _, hc, hp => ⟨hc.1, hc.2.concat (by
      rw [PreparedBehind, List.getLast?_cons_cons] at hp
      unfold PreparedBehind
      cases hlast : (r :: ps).getLast? with
      | none => simp at hlast
      | some s => rw [hlast] at hp; exact hp)⟩

/-- The flags of a frame are among those of the chain behind it. -/
theorem Chained.captureFlags_of_mem {h : ChunkHeader} {ps : List PreparedFrame}
    {previous : Option String} {flags : Finset String} (hc : Chained codec h previous flags ps)
    {p : PreparedFrame} (hp : p ∈ ps) : p.captureFlagsSet = p.envelope.captureFlagsSet := by
  induction ps generalizing previous flags with
  | nil => cases hp
  | cons q ps ih =>
    rcases List.mem_cons.mp hp with rfl | hp
    · exact hc.1.captureFlags
    · exact ih hc.2 hp

/-- **A frame is prepared behind what the writer wrote last.** -/
theorem prepareFrame_eq_ok {e : EventEnvelope} {p : PreparedFrame}
    (hround : RoundTrips codec e.canonicalMapping) (h : w.prepareFrame codec e = .ok p) :
    p.envelope = e ∧
      Prepared codec w.header w.previousConnectionId w.previousCaptureFlags p := by
  unfold Writer.prepareFrame at h
  split at h
  · cases h
  · next hmatch =>
    split at h
    · cases h
    · next bytes hencode =>
      simp only [not_or, not_not] at hmatch
      cases h
      refine ⟨rfl, ?_, rfl, (encodeFrame_eq_ok hencode).2, ?_⟩
      · cases hprev : w.previousConnectionId with
        | none => rfl
        | some previous =>
          simp only [connectionTransition]
          split <;> rfl
      · exact ⟨hmatch, hround, bytes, hencode⟩

/-- Behind the frames of a batch, a frame refers to the last of them. -/
theorem preparedBehind_chainFrame {ps : List PreparedFrame} {p : PreparedFrame}
    (hc : Chained codec w.header w.previousConnectionId w.previousCaptureFlags ps)
    (hp : Prepared codec w.header w.previousConnectionId w.previousCaptureFlags p) :
    PreparedBehind codec w.header w.previousConnectionId w.previousCaptureFlags ps
      (w.chainFrame ps p) := by
  unfold PreparedBehind Writer.chainFrame
  cases hlast : ps.getLast? with
  | none => exact hp
  | some q =>
    have hflags := hc.captureFlags_of_mem (List.mem_of_getLast? hlast)
    refine ⟨?_, hp.captureFlags, hp.bytes, hp.storable⟩
    simp only [connectionTransition, hflags, hp.captureFlags]
    by_cases heq : p.envelope.connectionId.val = q.envelope.connectionId.val
    · rw [if_neg (not_not.mpr heq.symm), if_neg (not_not.mpr heq)]
      rfl
    · rw [if_pos (Ne.symm heq), if_pos heq]
      rfl

/-- **A batch is prepared frame behind frame**, for a prefix of the envelopes. -/
theorem prepareBatch_eq_ok :
    ∀ {es : List EventEnvelope} {timeUp : List Bool} {ps qs : List PreparedFrame} {n : Nat},
      (∀ e ∈ es, RoundTrips codec e.canonicalMapping) →
      Chained codec w.header w.previousConnectionId w.previousCaptureFlags ps →
      w.prepareBatch codec es timeUp ps n = .ok qs →
        Chained codec w.header w.previousConnectionId w.previousCaptureFlags qs
  | [], _, ps, qs, _, _, hc, h => by
    simp only [Writer.prepareBatch, Except.ok.injEq] at h
    rw [← h]
    exact hc
  | e :: rest, timeUp, ps, qs, n, hround, hc, h => by
    rw [Writer.prepareBatch] at h
    obtain ⟨frame, hframe, h⟩ := except_bind_eq_ok h
    have hp := (prepareFrame_eq_ok (hround e List.mem_cons_self) hframe).2
    have hc' := hc.concat (preparedBehind_chainFrame hc hp)
    simp only at h
    split at h
    · simp only [pure, Except.pure, Except.ok.injEq] at h
      rw [← h]
      exact hc'
    · exact prepareBatch_eq_ok (fun e he => hround e (List.mem_cons_of_mem _ he)) hc' h

/-! ## Commits -/

/-- A commit that returns has committed the frame. -/
theorem commitPreparedFrame_eq_ok {p : PreparedFrame} (h : w.commitPreparedFrame p = .ok w') :
    w' = w.committed p := by
  unfold Writer.commitPreparedFrame at h
  split at h
  · cases h
  · simp only at h
    split at h
    · cases h
    · simpa using h.symm

/-- The commits of a batch are made one by one. -/
theorem commitAll_eq_ok :
    ∀ {ps : List PreparedFrame} {w : Writer}, w.commitAll ps = .ok w' →
      w' = ps.foldl Writer.committed w
  | [], w, h => by simpa [Writer.commitAll] using h.symm
  | p :: ps, w, h => by
    obtain ⟨v, hv, h⟩ := except_bind_eq_ok h
    rw [commitAll_eq_ok h, commitPreparedFrame_eq_ok hv, List.foldl_cons]

/-- A check that returns changes nothing. -/
theorem checkCommitted_eq_ok {message : String} {b : Bool}
    (h : w.checkCommitted message b = .ok w') : w' = w := by
  unfold Writer.checkCommitted at h
  split at h
  · cases h
  · split at h
    · cases h
    · simpa using h.symm

/-- A commit leaves the file and the writer's state as they are. -/
theorem foldl_committed_frame :
    ∀ (ps : List PreparedFrame) (w : Writer),
      (ps.foldl Writer.committed w).header = w.header ∧
        (ps.foldl Writer.committed w).file = w.file ∧
        (ps.foldl Writer.committed w).state = w.state ∧
        (ps.foldl Writer.committed w).closed = w.closed
  | [], _ => ⟨rfl, rfl, rfl, rfl⟩
  | p :: ps, w => by
    rw [List.foldl_cons]
    exact foldl_committed_frame ps (w.committed p)

/-- A commit is the scanner's acceptance of the frame. -/
theorem scanState_committed {h : ChunkHeader} {p : PreparedFrame}
    (hp : Prepared codec h w.previousConnectionId w.previousCaptureFlags p) :
    (w.committed p).scanState = w.scanState.accept (encodedFrame codec p.envelope).framePrefix
      (encodedFrame codec p.envelope).body p.envelope := by
  have henvelope : (encodedFrame codec p.envelope).envelope = p.envelope := rfl
  simp only [Writer.scanState, Writer.committed, ScanState.accept, hp.transition, hp.captureFlags,
    hp.bytes, RawFrame.bytes, List.length_append, List.append_assoc]

/-- **The scan state of the writer is that of a scan of what it committed.** -/
theorem scanState_foldl_committed {h : ChunkHeader} :
    ∀ {ps : List PreparedFrame} {w : Writer},
      Chained codec h w.previousConnectionId w.previousCaptureFlags ps →
        (ps.foldl Writer.committed w).scanState =
          w.scanState.acceptAll (ps.map fun p => encodedFrame codec p.envelope)
  | [], _, _ => rfl
  | p :: ps, w, hc => by
    have hchain : Chained codec h (w.committed p).previousConnectionId
        (w.committed p).previousCaptureFlags ps := by
      show Chained codec h (some p.envelope.connectionId.val) p.captureFlagsSet ps
      rw [hc.1.captureFlags]
      exact hc.2
    rw [List.foldl_cons, scanState_foldl_committed hchain, scanState_committed hc.1, List.map_cons,
      ScanState.acceptAll_cons]
    rfl

/-- The bytes of a chain are its encoded records, and each can be stored. -/
theorem Chained.bytes_and_storable {h : ChunkHeader} :
    ∀ {ps : List PreparedFrame} {previous : Option String} {flags : Finset String},
      Chained codec h previous flags ps →
        (ps.map PreparedFrame.exactBytes).flatten =
            encodedFrames codec (ps.map PreparedFrame.envelope) ∧
          ∀ e ∈ ps.map PreparedFrame.envelope, Storable codec h e
  | [], _, _, _ => ⟨rfl, by simp⟩
  | p :: ps, _, _, hc => by
    obtain ⟨hbytes, hstorable⟩ := hc.2.bytes_and_storable
    constructor
    · rw [List.map_cons, List.flatten_cons, hbytes, hc.1.bytes]
      rfl
    · intro e he
      rcases List.mem_cons.mp he with rfl | he
      · exact hc.1.storable
      · exact hstorable e he

/-- **Frames written and committed extend the evidence.** -/
theorem Evident.commit {ps : List PreparedFrame} (h : Evident codec w es)
    (hc : Chained codec w.header w.previousConnectionId w.previousCaptureFlags ps) :
    Evident codec (ps.foldl Writer.committed (w.wrote (ps.map PreparedFrame.exactBytes).flatten))
      (es ++ ps.map PreparedFrame.envelope) := by
  obtain ⟨hheader, hfile, -, -⟩ :=
    foldl_committed_frame ps (w.wrote (ps.map PreparedFrame.exactBytes).flatten)
  obtain ⟨hbytes, hstorable⟩ := hc.bytes_and_storable
  have hwrote : (w.wrote (ps.map PreparedFrame.exactBytes).flatten).header = w.header := rfl
  have hstate := scanState_foldl_committed
    (w := w.wrote (ps.map PreparedFrame.exactBytes).flatten) hc
  refine ⟨?_, ?_, ?_, ?_, ?_⟩
  · rw [hheader, hwrote]
    exact h.headerValid
  · rw [hheader, hwrote]
    exact h.headerBytes
  · rw [hheader, hwrote, hfile]
    show w.file ++ _ = _
    rw [hbytes, h.file, List.append_assoc]
    simp [encodedFrames]
  · rw [hheader, hwrote, hstate, List.map_append, ScanState.acceptAll_append, ← h.accumulators,
      List.map_map]
    rfl
  · rw [hheader, hwrote]
    intro e he
    rcases List.mem_append.mp he with he | he
    · exact h.storable e he
    · exact hstorable e he

/-- The evidence speaks of the header, the file and the accumulators only. -/
theorem Evident.congr (h : Evident codec w es) (hheader : w'.header = w.header)
    (hfile : w'.file = w.file) (hstate : w'.scanState = w.scanState) : Evident codec w' es where
  headerValid := hheader ▸ h.headerValid
  headerBytes := hheader ▸ h.headerBytes
  file := by rw [hfile, h.file, hheader]
  accumulators := by rw [hstate, h.accumulators, hheader]
  storable := hheader ▸ h.storable

end

end MarketDataRecorder
