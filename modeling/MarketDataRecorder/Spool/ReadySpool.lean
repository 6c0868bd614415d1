import MarketDataRecorder.Spool.SteadyWriter
import MarketDataRecorder.Spool.StreamSpool

/-!
# Ready spools

A spool whose writer is open and clean receives an envelope by storing its frame behind the others,
in the open chunk or a new one. What its files hold is what the scanner finds in them.

* `drainEach_steady`, `drainAll_steady` — how the writes of a drain are cut does not matter
* `receive_ready`, `receiveAll_ready` — an envelope that can be framed is persisted
  behind the others
-/

namespace MarketDataRecorder

/-! ## Steady drains -/

/-- During a drain no call fails and no clock runs out. -/
structure SpoolIo.Steady (io : SpoolIo) : Prop where
  create : ∀ n, (io.create n).Steady
  append : ∀ n k, (io.append n k).Steady
  deadline : ∀ n k, io.deadline n k = false
  syncDue : ∀ n k, io.syncDue n k = false
  sync : ∀ n k, io.sync n k = {}
  close : ∀ n, io.close n = {}
  statFails : ∀ n, io.statFails n = false
  sealFails : ∀ n, io.sealFails n = false

section

variable {codec : Codec} {config : StreamConfig} {io : SpoolIo}

namespace StreamSpool

theorem ensureWriter_steady (h : io.Steady) (s : StreamSpool) :
    ensureWriter codec config io s = ensureWriter codec config {} s := by
  unfold ensureWriter
  rw [create_steady (h.create s.created)]

theorem sealCurrent_steady (h : io.Steady) (w : Writer) (s : StreamSpool) :
    sealCurrent codec io w s = sealCurrent codec {} w s := by
  simp only [sealCurrent, h.close, h.statFails, h.sealFails]

theorem rotate_steady (h : io.Steady) (w : Writer) (s : StreamSpool) :
    rotate codec io w s = rotate codec {} w s := by
  simp only [rotate, h.deadline, sealCurrent_steady h]

theorem idle_steady (h : io.Steady) (s : StreamSpool) : idle codec io s = idle codec {} s := by
  simp only [idle, h.deadline, h.syncDue, h.sync, sealCurrent_steady h]

/-- One envelope is received the same, however its writes are cut. -/
theorem receive_steady (h : io.Steady) (depth : Nat) (e : EventEnvelope) (s : StreamSpool) :
    receive codec config io depth e s = receive codec config {} depth e s := by
  simp only [receive, appendOne, ensureWriter_steady h, append_steady (h.append _ _),
    rotate_steady h]

/-- So are the queued ones, -/
theorem drainOnes_steady (h : io.Steady) (fuel : Nat) (s : StreamSpool) :
    drainOnes codec config io fuel s = drainOnes codec config {} fuel s := by
  induction fuel generalizing s with
  | zero => rfl
  | succ fuel ih => simp only [drainOnes, drainOne, idle_steady h, receive_steady h, ih]

/-- and the groups of a batch. -/
theorem appendGroups_steady (h : io.Steady) (fuel : Nat) (batch : List EventEnvelope)
    (s : StreamSpool) :
    appendGroups codec config io fuel batch s = appendGroups codec config {} fuel batch s := by
  induction fuel generalizing batch s with
  | zero => rfl
  | succ fuel ih =>
    simp only [appendGroups, ensureWriter_steady h, appendBatch_steady (h.append _ _),
      rotate_steady h, ih]

theorem drainBatches_steady (h : io.Steady) (fuel : Nat) (s : StreamSpool) :
    drainBatches codec config io fuel s = drainBatches codec config {} fuel s := by
  induction fuel generalizing s with
  | zero => rfl
  | succ fuel ih => simp only [drainBatches, idle_steady h, appendGroups_steady h, ih]

/-- **How its writes are cut changes nothing in what a drain leaves.** -/
theorem drainEach_steady (h : io.Steady) (s : StreamSpool) :
    drainEach codec config io s = drainEach codec config {} s := drainOnes_steady h _ s

theorem drainAll_steady (h : io.Steady) (s : StreamSpool) :
    drainAll codec config io s = drainAll codec config {} s := drainBatches_steady h _ s

end StreamSpool

/-! ## What stands in the files -/

/-- The envelopes that the scanner finds in a chunk file. -/
def chunkEnvelopes (codec : Codec) (file : Bytes) : List EventEnvelope :=
  match decodeChunkHeader codec (.ofList file) with
  | .error _ => []
  | .ok (header, _, source) => scannedEnvelopes codec header source.rest

/-- The chunk files in the order they were begun; the last may still be open. -/
def StreamSpool.files (s : StreamSpool) : List Bytes :=
  s.seals.map SealRequest.file ++ (s.writer.map Writer.file).toList

/-- The envelopes persisted so far. -/
def StreamSpool.persisted (codec : Codec) (s : StreamSpool) : List EventEnvelope :=
  s.files.flatMap (chunkEnvelopes codec)

/-- A ready writer's file holds the envelopes it has stored. -/
theorem chunkEnvelopes_ready {w : Writer} {es : List EventEnvelope} (h : ReadyWriter codec w es) :
    chunkEnvelopes codec w.file = es := by
  have hevident := h.evident
  obtain ⟨s', hd, hrest⟩ := decodeChunkHeader_of_headerBytes hevident.headerBytes
    (s := .ofList w.file) (c := encodedFrames codec es) hevident.file
  rw [chunkEnvelopes, hd]
  simp only
  rw [hrest]
  exact scannedEnvelopes_encodedFrames (maxFrameBytes_bounds hevident.headerValid).2
    (fun e he => (hevident.storable e he).identity)
      (fun e he => (hevident.storable e he).roundTrips)
    fun e he => (hevident.storable e he).encodes

/-! ## Ready spools -/

/-- Every chunk header can be written and read back. -/
structure StreamConfig.Valid (codec : Codec) (config : StreamConfig) : Prop where
  header : ∀ n, validateChunkHeader (config.header n) = .ok ()
  fits : ∀ n, (codec.dumps (config.header n).canonicalMapping).length ≤ maxHeaderBodyBytes
  roundTrips : ∀ n, RoundTrips codec (config.header n).canonicalMapping

/-- The envelope can be framed: it is of this stream, and encodes within `max_frame_bytes`. -/
def StreamConfig.Frames (codec : Codec) (config : StreamConfig) (e : EventEnvelope) : Prop :=
  (e.market.text = config.market ∧ e.symbol.val = config.symbol ∧ e.stream.val = config.stream) ∧
    ∃ bytes, encodeFrame codec e config.maxFrameBytes = .ok bytes

/-- The writer was made by this spool. -/
structure Owned (config : StreamConfig) (w : Writer) : Prop where
  header : ∃ n, w.header = config.header n
  rotationBytes : w.rotationBytes = config.rotationBytes
  syncEachFrame : w.syncEachFrame = config.syncEachFrame

/-- The spool's writer, if it has one, is its own and ready. -/
def StreamSpool.Ready (codec : Codec) (config : StreamConfig) (s : StreamSpool) : Prop :=
  ∀ w, s.writer = some w → Owned config w ∧ ∃ es, ReadyWriter codec w es

/-- A writer of the spool prepares exactly the envelopes that can be framed. -/
theorem prepareFrame_isOk_iff {w : Writer} (h : Owned config w) {e : EventEnvelope} :
    (∃ p, w.prepareFrame codec e = .ok p) ↔ config.Frames codec e := by
  obtain ⟨n, hheader⟩ := h.header
  have hmarket : w.header.market = config.market := by rw [hheader]; rfl
  have hsymbol : w.header.symbol = config.symbol := by rw [hheader]; rfl
  have hstream : w.header.stream = config.stream := by rw [hheader]; rfl
  have hmax : w.header.maxFrameBytes = config.maxFrameBytes := by rw [hheader]; rfl
  unfold Writer.prepareFrame StreamConfig.Frames
  rw [hmarket, hsymbol, hstream, hmax]
  by_cases hidentity : e.market.text = config.market ∧ e.symbol.val = config.symbol ∧
      e.stream.val = config.stream
  · rw [if_neg (by simp [hidentity])]
    cases encodeFrame codec e config.maxFrameBytes with
    | error message => simp
    | ok bytes => simp [hidentity]
  · rw [if_pos (by tauto)]
    simp [hidentity]

/-- Storing a frame does not change whose writer it is. -/
theorem Owned.stored {w : Writer} (h : Owned config w) (p : PreparedFrame) :
    Owned config (w.stored p) := ⟨h.header, h.rotationBytes, h.syncEachFrame⟩

/-- A new writer is ready. -/
theorem create_ready {header : ChunkHeader} (hv : validateChunkHeader header = .ok ())
    (hfit : (codec.dumps header.canonicalMapping).length ≤ maxHeaderBodyBytes)
    (hround : RoundTrips codec header.canonicalMapping) (rotationBytes : Nat)
    (syncEachFrame : Bool) (vectorLimit : Option Nat) :
    ∃ w, Writer.create codec header rotationBytes syncEachFrame vectorLimit {} = .ok w ∧
      ReadyWriter codec w [] ∧ w.header = header ∧ w.rotationBytes = rotationBytes ∧
      w.syncEachFrame = syncEachFrame ∧
      w.bytesWritten = (encodedHeader codec header).length := by
  obtain ⟨hencode, -⟩ := encodeChunkHeader_spec hv hfit hround
  have hcreate : ∃ w, Writer.create codec header rotationBytes syncEachFrame vectorLimit {} =
    .ok w ∧
      w.IsOpen ∧ w.recordCount = 0 ∧ w.statistics.recordCount = 0 ∧
      w.bytesWritten = (encodedHeader codec header).length ∧
      w.verifiedBytes = (encodedHeader codec header).length ∧ w.header = header ∧
      w.rotationBytes = rotationBytes ∧ w.syncEachFrame = syncEachFrame := by
    simp [Writer.create, hencode, writeAll_progressing progressing_nil, Writer.sync,
      Writer.requireOpenClean, Writer.wrote, bind, Except.bind, pure, Except.pure,
      Writer.poisoning, Writer.IsOpen]
  obtain ⟨w, hw, hopen, hcount, hstatistics, hbytes, hverified, hheader, hrotation, heach⟩ :=
    hcreate
  exact ⟨w, hw, ⟨evident_create hround hw, hopen, hcount, hstatistics, hbytes.trans hverified.symm⟩,
    hheader, hrotation, heach, hbytes⟩

namespace StreamSpool

/-- The bytes in the open chunk, and the number of the next one. -/
structure Level where
  chunkBytes : Option Nat
  created : Nat
  deriving DecidableEq

/-- How full the open chunk is. -/
def level (s : StreamSpool) : Level := ⟨s.writer.map Writer.bytesWritten, s.created⟩

/-- With an open chunk: where there is none, the next header is written. -/
def Level.opened (codec : Codec) (config : StreamConfig) (l : Level) : Level :=
  if l.chunkBytes.isNone then
    ⟨some (encodedHeader codec (config.header l.created)).length, l.created + 1⟩
  else l

/-- With one more frame. -/
def Level.add (codec : Codec) (config : StreamConfig) (l : Level) (frameBytes : Nat) : Level :=
  let chunkBytes := (l.opened codec config).chunkBytes.getD 0 + frameBytes
  ⟨if config.rotationBytes ≤ chunkBytes then none else some chunkBytes,
    (l.opened codec config).created⟩

/-- **A ready spool has or makes a ready writer.** -/
theorem ensureWriter_ready (hconfig : config.Valid codec) {s : StreamSpool}
    (h : s.Ready codec config) :
    ∃ w writerCreated v, ensureWriter codec config {} s = .ok (w, writerCreated, v) ∧
      v.writer = some w ∧ Owned config w ∧ (∃ es, ReadyWriter codec w es) ∧
      v.queue = s.queue ∧ v.persisted codec = s.persisted codec ∧
      v.level = s.level.opened codec config := by
  cases hs : s.writer with
  | some w =>
    obtain ⟨howned, hready⟩ := h w hs
    refine ⟨w, false, s, by simp [ensureWriter, hs], hs, howned, hready, rfl, rfl, ?_⟩
    simp [level, Level.opened, hs]
  | none =>
    obtain ⟨w, hcreate, hready, hheader, hrotation, heach, hbytes⟩ :=
      create_ready (hconfig.header s.created) (hconfig.fits s.created)
        (hconfig.roundTrips s.created)
        config.rotationBytes config.syncEachFrame config.vectorLimit
    refine ⟨w, true, { s with
        writer := some w
        created := s.created + 1
        writerWritten := 0
        writerSynchronized := 0 }, by simp [ensureWriter, hs, hcreate], rfl,
      ⟨⟨_, hheader⟩, hrotation, heach⟩, ⟨_, hready⟩, rfl, ?_, ?_⟩
    · have hfile := chunkEnvelopes_ready hready
      simp [persisted, files, hs, hfile]
    · simp [level, Level.opened, hs, hbytes]

/-- **A ready spool rotates where its chunk is full**, and what was persisted stays. -/
theorem rotate_ready {s : StreamSpool} {w : Writer} {es : List EventEnvelope}
    (hs : s.writer = some w) (howned : Owned config w) (hready : ReadyWriter codec w es) :
    ∃ v, rotate codec {} w s = .ok v ∧ v.Ready codec config ∧ v.queue = s.queue ∧
      v.persisted codec = s.persisted codec ∧
      v.level = ⟨if config.rotationBytes ≤ w.bytesWritten then none else some w.bytesWritten,
        s.created⟩ := by
  unfold rotate shouldRotate
  rw [Bool.or_false, howned.rotationBytes]
  by_cases hfull : config.rotationBytes ≤ w.bytesWritten
  · rw [if_pos (decide_eq_true hfull), if_pos hfull]
    obtain ⟨w', ht⟩ := takeCleanSealEvidence_of_open hready.evident hready.isOpen.1 hready.isOpen.2
    have hfile : w'.file = w.file := by
      obtain ⟨v, hv, -, -, rfl⟩ := takeCleanSealEvidence_eq_ok ht
      rcases close_eq_ok hv with rfl | ⟨-, hf, -⟩
      · rfl
      · exact hf
    have hseal : sealCurrent codec {} w s = .ok { observeProgress w' s with
        writer := none
        processBoundaryPending := s.processBoundaryPending &&
          !(s.processBoundaryPending && decide (0 < w.recordCount))
        seals := s.seals ++ [⟨w.evidence codec, w'.file,
          s.processBoundaryPending && decide (0 < w.recordCount)⟩] } := by
      rw [sealCurrent, ht]
      rfl
    refine ⟨_, hseal, ?_, rfl, ?_, rfl⟩
    · intro v hnone
      cases hnone
    · simp [persisted, files, hs, hfile]
  · rw [if_neg (by simpa using hfull), if_neg hfull]
    refine ⟨s, rfl, fun v hv => ?_, rfl, rfl, by rw [level, hs]; rfl⟩
    obtain rfl : w = v := Option.some.inj (hs.symm.trans hv)
    exact ⟨howned, es, hready⟩

/-! ## Envelope by envelope -/

/-- The envelopes of a list are received one after the other, with `depth` of them queued behind
the last. -/
def receiveAll (codec : Codec) (config : StreamConfig) (depth : Nat) :
    List EventEnvelope → StreamSpool → SpoolRun StreamSpool
  | [], s => .ok s
  | e :: es, s => do
    let s ← receive codec config {} (depth + es.length) e s
    receiveAll codec config depth es s

/-- What is recorded twice is recorded once for both. -/
theorem recordFrames_recordFrames (w₁ w₂ : Writer)
    (calls₁ calls₂ : List (EventEnvelope × Nat × Nat))
    (s : StreamSpool) :
    recordFrames w₂ calls₂ (recordFrames w₁ calls₁ s) = recordFrames w₂ (calls₁ ++ calls₂) s := by
  have hsum : ∀ a b c d : Int, a + (b - c) + (d - b) = a + (d - c) := by intros; omega
  simp [recordFrames, observeProgress, hsum]

/-- A ready writer appends a frame. -/
theorem appendOne_ready {w : Writer} {es : List EventEnvelope} {e : EventEnvelope}
    {p : PreparedFrame} (hready : ReadyWriter codec w es) (hp : w.prepareFrame codec e = .ok p)
    (depth before : Nat) (s : StreamSpool) :
    appendOne codec {} depth before e w s =
      rotate codec {} (w.stored p)
        (recordFrames (w.stored p) [(e, (w.stored p).bytesWritten - before, depth)] s) := by
  rw [appendOne, append_ready hready hp]

/-- **An envelope that can be framed is persisted behind the others.** -/
theorem receive_ready (hconfig : config.Valid codec) {s : StreamSpool} (h : s.Ready codec config)
    {e : EventEnvelope} (hframes : config.Frames codec e)
    (hround : RoundTrips codec e.canonicalMapping) (depth : Nat) :
    ∃ v, receive codec config {} depth e s = .ok v ∧ v.Ready codec config ∧ v.queue = s.queue ∧
      v.persisted codec = s.persisted codec ++ [e] ∧
      v.level = s.level.add codec config (encodedFrame codec e).bytes.length := by
  obtain ⟨w, writerCreated, u, hu, hwriter, howned, ⟨es, hready⟩, hqueue, hpersisted, hlevel⟩ :=
    ensureWriter_ready hconfig h
  obtain ⟨p, hp⟩ := (prepareFrame_isOk_iff howned).mpr hframes
  have hstored := hready.stored hround hp
  have hbytes : (w.stored p).bytesWritten =
      w.bytesWritten + (encodedFrame codec e).bytes.length := by
    rw [← (prepareFrame_fields hp).2.1]
    rfl
  let t := recordFrames (w.stored p)
    [(e, (w.stored p).bytesWritten - (if writerCreated then 0 else w.bytesWritten), depth)] u
  obtain ⟨v, hv, hvready, hvqueue, hvpersisted, hvlevel⟩ :=
    rotate_ready (s := t) rfl (howned.stored p) hstored
  refine ⟨v, ?_, hvready, hvqueue.trans hqueue, ?_, ?_⟩
  · rw [receive, hu]
    show appendOne codec {} depth _ e w u = _
    rw [appendOne_ready hready hp]
    exact hv
  · rw [hvpersisted, ← hpersisted]
    have hbefore : u.persisted codec = (u.seals.map SealRequest.file).flatMap
        (chunkEnvelopes codec) ++ es := by
      simp [persisted, files, hwriter, chunkEnvelopes_ready hready]
    have hafter : t.persisted codec = (u.seals.map SealRequest.file).flatMap
        (chunkEnvelopes codec) ++ (es ++ [e]) := by
      have hfile := chunkEnvelopes_ready hstored
      simp [persisted, files, t, recordFrames, observeProgress, hfile]
    rw [hbefore, hafter, List.append_assoc]
  · have hchunk : (s.level.opened codec config).chunkBytes = some w.bytesWritten := by
      rw [← hlevel, level, hwriter]
      rfl
    have hcreated : (s.level.opened codec config).created = u.created := by
      rw [← hlevel, level]
    rw [hvlevel, Level.add, hchunk, hcreated, hbytes]
    rfl

/-- So are several, in order. -/
theorem receiveAll_ready (hconfig : config.Valid codec) (depth : Nat) :
    ∀ {es : List EventEnvelope} {s : StreamSpool}, s.Ready codec config →
      (∀ e ∈ es, config.Frames codec e) → (∀ e ∈ es, RoundTrips codec e.canonicalMapping) →
        ∃ v, receiveAll codec config depth es s = .ok v ∧ v.Ready codec config ∧
          v.queue = s.queue ∧ v.persisted codec = s.persisted codec ++ es ∧
          v.level = es.foldl (fun l e => l.add codec config (encodedFrame codec e).bytes.length)
            s.level
  | [], s, h, _, _ => ⟨s, rfl, h, rfl, by simp, rfl⟩
  | e :: es, s, h, hframes, hround => by
    obtain ⟨u, hu, hready, hqueue, hpersisted, hlevel⟩ := receive_ready hconfig h
      (hframes e List.mem_cons_self) (hround e List.mem_cons_self) (depth + es.length)
    obtain ⟨v, hv, hvready, hvqueue, hvpersisted, hvlevel⟩ := receiveAll_ready hconfig depth hready
      (fun e he => hframes e (List.mem_cons_of_mem _ he))
      (fun e he => hround e (List.mem_cons_of_mem _ he))
    refine ⟨v, ?_, hvready, hvqueue.trans hqueue, ?_, ?_⟩
    · rw [receiveAll, hu]
      exact hv
    · rw [hvpersisted, hpersisted, List.append_assoc]
      rfl
    · rw [hvlevel, hlevel]
      rfl

end StreamSpool

end

end MarketDataRecorder
