import MarketDataRecorder.Spool.WriterRuns

/-!
# The writer while nothing fails

Where no call of the system fails and no clock runs out, a method of the writer does the same
however its writes are cut; and a batch stores its frames as single appends would.

* `append_steady`, `appendBatch_steady` — the calls end as they do with uncut writes
* `append_ready` — one frame, prepared and stored
* `appendBatch_ready` — a group of frames, each prepared behind the one stored before it
-/

namespace MarketDataRecorder

/-- Every write goes on, if only by a byte. -/
def Progressing (outcomes : List WriteOutcome) : Prop := ∀ o ∈ outcomes, ∃ n, 0 < n ∧ o = .wrote n

/-- Around an append, no call fails and no clock runs out. -/
structure AppendIo.Steady (io : AppendIo) : Prop where
  writes : Progressing io.writes
  timeUp : ∀ b ∈ io.timeUp, b = false
  observerFails : io.observerFails = false
  syncDue : io.syncDue = false
  sync : io.sync = {}

/-- While a writer is made, no call fails. -/
structure Writer.OpenIo.Steady (io : Writer.OpenIo) : Prop where
  openFails : io.openFails = false
  writes : Progressing io.writes
  sync : io.sync = {}
  fsyncDirectoryFails : io.fsyncDirectoryFails = false
  registerFails : io.registerFails = false

section

variable {codec : Codec} {w : Writer}

/-! ## Writes -/

theorem progressing_nil : Progressing [] := by simp [Progressing]

/-- Writes that go on write everything. -/
theorem writeLoop_progressing :
    ∀ {outcomes : List WriteOutcome} {data : Bytes} {w : Writer}, Progressing outcomes →
      Writer.writeLoop outcomes data w = .ok (w.wrote data)
  | outcomes, [], w, _ => by
    rw [wrote_nil]
    cases outcomes <;> rfl
  | [], d :: data, w, _ => rfl
  | o :: outcomes, d :: data, w, h => by
    obtain ⟨n, hn, rfl⟩ := h o List.mem_cons_self
    have hrest : Progressing outcomes := fun o ho => h o (List.mem_cons_of_mem _ ho)
    simp only [Writer.writeLoop]
    rw [if_neg (by omega), writeLoop_progressing hrest, wrote_wrote, List.take_append_drop]

/-- What a vectored write leaves of some views that are not empty are views that are not empty. -/
theorem ne_nil_of_mem_dropWritten :
    ∀ {n : Nat} {views : List Bytes}, (∀ v ∈ views, v ≠ []) →
      ∀ v ∈ Writer.dropWritten n views, v ≠ []
  | _, [], _ => by simp [Writer.dropWritten]
  | n, view :: views, h => by
    have hviews : ∀ v ∈ views, v ≠ [] := fun v hv => h v (List.mem_cons_of_mem _ hv)
    rw [Writer.dropWritten]
    split
    · exact ne_nil_of_mem_dropWritten hviews
    · next hlt =>
      split
      · exact h
      · intro v hv
        rcases List.mem_cons.mp hv with rfl | hv
        · -- The view is cut, not used up.
          have : 0 < (view.drop n).length := by rw [List.length_drop]; omega
          exact List.ne_nil_of_length_pos this
        · exact hviews v hv

/-- A vectored write that goes on returns. -/
theorem writeVectorLoop_isOk {limit : Nat} (hlimit : 0 < limit) :
    ∀ {outcomes : List WriteOutcome} {views : List Bytes} {w : Writer}, Progressing outcomes →
      (∀ v ∈ views, v ≠ []) → ∃ w', Writer.writeVectorLoop limit outcomes views w = .ok w'
  | outcomes, [], w, _, _ => ⟨w, by cases outcomes <;> rfl⟩
  | [], v :: views, w, _, _ => ⟨_, rfl⟩
  | o :: outcomes, v :: views, w, h, hviews => by
    obtain ⟨n, hn, rfl⟩ := h o List.mem_cons_self
    have hrest : Progressing outcomes := fun o ho => h o (List.mem_cons_of_mem _ ho)
    have hdata : ((v :: views).take limit).flatten.take n ≠ [] := by
      obtain ⟨k, rfl⟩ : ∃ k, limit = k + 1 := ⟨limit - 1, by omega⟩
      obtain ⟨m, rfl⟩ : ∃ m, n = m + 1 := ⟨n - 1, by omega⟩
      cases hv : v with
      | nil => exact absurd hv (hviews v List.mem_cons_self)
      | cons b bs => simp
    simp only [Writer.writeVectorLoop]
    rw [if_neg hdata]
    exact writeVectorLoop_isOk hlimit hrest (ne_nil_of_mem_dropWritten hviews)

theorem writeAll_progressing {outcomes : List WriteOutcome} {data : Bytes}
    (h : Progressing outcomes) (w : Writer) : w.writeAll outcomes data = .ok (w.wrote data) := by
  rw [Writer.writeAll, writeLoop_progressing h]
  rfl

/-- Vectored writes that go on write all the views. -/
theorem writeVectors_progressing {outcomes : List WriteOutcome} {views : List Bytes}
    (h : Progressing outcomes) (hviews : ∀ v ∈ views, v ≠ []) (w : Writer) :
    w.writeVectors outcomes views = .ok (w.wrote views.flatten) := by
  unfold Writer.writeVectors
  split
  · exact writeAll_progressing h w
  · next limit _ =>
    obtain ⟨w', hw'⟩ := writeVectorLoop_isOk (Nat.le_max_left 1 limit) h hviews (w := w)
    rw [hw', writeVectorLoop_eq_ok hw']

/-! ## Calls -/

/-- A prepared frame has bytes. -/
theorem ne_nil_of_prepareFrame {e : EventEnvelope} {p : PreparedFrame}
    (h : w.prepareFrame codec e = .ok p) : p.exactBytes ≠ [] := by
  unfold Writer.prepareFrame at h
  split at h
  · cases h
  · split at h
    · cases h
    · next bytes hbytes =>
      obtain ⟨-, rfl⟩ := encodeFrame_eq_ok hbytes
      cases h
      exact List.cons_ne_nil _ _

/-- So have all the frames of a batch. -/
theorem ne_nil_of_prepareBatch :
    ∀ {es : List EventEnvelope} {timeUp : List Bool} {ps qs : List PreparedFrame} {n : Nat},
      (∀ p ∈ ps, p.exactBytes ≠ []) → w.prepareBatch codec es timeUp ps n = .ok qs →
        ∀ q ∈ qs, q.exactBytes ≠ []
  | [], _, _, _, _, hps, h => by
    cases h
    exact hps
  | e :: rest, timeUp, ps, qs, n, hps, h => by
    rw [Writer.prepareBatch] at h
    obtain ⟨frame, hframe, h⟩ := except_bind_eq_ok h
    have hps' : ∀ p ∈ ps ++ [w.chainFrame ps frame], p.exactBytes ≠ [] := by
      intro p hp
      rcases List.mem_append.mp hp with hp | hp
      · exact hps p hp
      · obtain rfl := List.mem_singleton.mp hp
        have hbytes : (w.chainFrame ps frame).exactBytes = frame.exactBytes := by
          unfold Writer.chainFrame
          split <;> rfl
        rw [hbytes]
        exact ne_nil_of_prepareFrame hframe
    simp only at h
    split at h
    · cases h
      exact hps'
    · exact ne_nil_of_prepareBatch hps' h

/-- While no clock runs out, a batch is prepared as if nobody looked at the clock. -/
theorem prepareBatch_steady :
    ∀ {es : List EventEnvelope} {timeUp : List Bool} {ps : List PreparedFrame} {n : Nat},
      (∀ b ∈ timeUp, b = false) →
        w.prepareBatch codec es timeUp ps n = w.prepareBatch codec es [] ps n
  | [], _, _, _, _ => rfl
  | e :: rest, timeUp, ps, n, h => by
    have hhead : timeUp.headD false = false := by
      cases timeUp with
      | nil => rfl
      | cons b bs => exact h b List.mem_cons_self
    have htail : ∀ b ∈ timeUp.tail, b = false := fun b hb => h b (List.mem_of_mem_tail hb)
    rw [Writer.prepareBatch, Writer.prepareBatch]
    cases w.prepareFrame codec e with
    | error err => rfl
    | ok frame =>
      simp only [bind, Except.bind, hhead, List.headD_nil, List.tail_nil]
      rw [prepareBatch_steady htail]
      rfl

/-- **An append ends the same however its writes are cut.** -/
theorem append_steady {io : AppendIo} (h : io.Steady) (e : EventEnvelope) (w : Writer) :
    w.append codec e io = w.append codec e {} := by
  simp only [Writer.append, writeAll_progressing h.writes, writeAll_progressing progressing_nil,
    h.observerFails, h.syncDue, h.sync]

/-- **So does a batch.** -/
theorem appendBatch_steady {io : AppendIo} (h : io.Steady) (es : List EventEnvelope) (w : Writer) :
    w.appendBatch codec es io = w.appendBatch codec es {} := by
  cases es with
  | nil => rfl
  | cons e rest =>
    simp only [Writer.appendBatch, append_steady h]
    cases w.requireOpenClean with
    | error p => rfl
    | ok v =>
      simp only [bind, Except.bind]
      rw [prepareBatch_steady h.timeUp]
      split
      · rfl
      · cases hbatch : v.prepareBatch codec ((e :: rest).take 256) [] [] 0 with
        | error err => rfl
        | ok ps =>
          have hviews : ∀ b ∈ ps.map PreparedFrame.exactBytes, b ≠ [] := by
            intro b hb
            obtain ⟨p, hp, rfl⟩ := List.mem_map.mp hb
            exact ne_nil_of_prepareBatch (by simp) hbatch p hp
          simp only [writeVectors_progressing h.writes hviews,
            writeVectors_progressing progressing_nil hviews, h.observerFails, h.syncDue, h.sync]

/-- A writer is made the same however the header's write is cut. -/
theorem create_steady {io : Writer.OpenIo} (h : io.Steady) (header : ChunkHeader)
    (rotationBytes : Nat) (syncEachFrame : Bool) (vectorLimit : Option Nat) :
    Writer.create codec header rotationBytes syncEachFrame vectorLimit io =
      Writer.create codec header rotationBytes syncEachFrame vectorLimit {} := by
  simp only [Writer.create, h.openFails, writeAll_progressing h.writes,
    writeAll_progressing progressing_nil, h.sync, h.fsyncDirectoryFails, h.registerFails]

/-! ## Ready writers -/

/-- A writer with one more frame; it is synced where every frame is. -/
def Writer.stored (w : Writer) (p : PreparedFrame) : Writer :=
  { (w.wrote p.exactBytes).committed p with
    syncedRecordCount := if w.syncEachFrame then w.recordCount + 1 else w.syncedRecordCount }

/-- An open and clean writer that has stored the frames of `es`. -/
structure ReadyWriter (codec : Codec) (w : Writer) (es : List EventEnvelope) : Prop where
  evident : Evident codec w es
  isOpen : w.IsOpen
  recordCount : w.recordCount = es.length
  statistics : w.statistics.recordCount = es.length
  bytesWritten : w.bytesWritten = w.verifiedBytes

/-- The frames of `ps` are each prepared behind the one stored before it. -/
def Follow (codec : Codec) : Writer → List PreparedFrame → Prop
  | _, [] => True
  | w, p :: ps => w.prepareFrame codec p.envelope = .ok p ∧ Follow codec (w.stored p) ps

/-- What is prepared is the encoded envelope, for the next ordinal. -/
theorem prepareFrame_fields {e : EventEnvelope} {p : PreparedFrame}
    (h : w.prepareFrame codec e = .ok p) :
    p.envelope = e ∧ p.exactBytes = (encodedFrame codec e).bytes ∧
      p.expectedOrdinal = w.recordCount := by
  unfold Writer.prepareFrame at h
  split at h
  · cases h
  · split at h
    · cases h
    · next bytes hbytes =>
      cases h
      exact ⟨rfl, (encodeFrame_eq_ok hbytes).2, rfl⟩

/-- The statistics count the frame. -/
theorem recordCount_add (s : ChunkStatistics) (e : EventEnvelope) :
    (s.add e).recordCount = s.recordCount + 1 := by
  have hfold : ∀ (items : List (NonEmptyText × SequenceValue)) (s : ChunkStatistics),
      (items.foldl ChunkStatistics.addSequenceValue s).recordCount = s.recordCount := by
    intro items
    induction items with
    | nil => intro s; rfl
    | cons item items ih =>
      intro s
      rw [List.foldl_cons, ih]
      unfold ChunkStatistics.addSequenceValue
      simp only
      split <;> rfl
  simp only [ChunkStatistics.add]
  exact hfold _ _

/-- A frame whose bytes are written is committed. -/
theorem commitPreparedFrame_written {p : PreparedFrame}
    (hordinal : p.expectedOrdinal = w.recordCount)
    (hstatistics : w.statistics.recordCount = w.recordCount)
    (hbytes : w.verifiedBytes + p.exactBytes.length ≤ w.bytesWritten) :
    w.commitPreparedFrame p = .ok (w.committed p) := by
  unfold Writer.commitPreparedFrame
  rw [if_neg (not_not.mpr hordinal)]
  have hcount : (w.committed p).statistics.recordCount = (w.committed p).recordCount := by
    show (w.statistics.add p.envelope).recordCount = w.recordCount + 1
    rw [recordCount_add, hstatistics]
  have hverified : ¬ (w.committed p).verifiedBytes > (w.committed p).bytesWritten :=
    Nat.not_lt.mpr hbytes
  simp [hcount, hverified]

/-- A sync that does not fail, where each frame is synced. -/
theorem syncIfDue_open (h : w.IsOpen) :
    w.syncIfDue false {} = .ok { w with
      syncedRecordCount := if w.syncEachFrame then w.recordCount else w.syncedRecordCount } := by
  cases hsync : w.syncEachFrame with
  | true =>
    simp [Writer.syncIfDue, hsync, Writer.sync, requireOpenClean_of_open h.1 h.2, bind, Except.bind,
      pure, Except.pure, Writer.poisoning]
  | false =>
    cases w
    cases hsync
    rfl

/-- **A writer that is ready appends the frame it prepares.** -/
theorem append_ready {es : List EventEnvelope} {e : EventEnvelope} {p : PreparedFrame}
    (h : ReadyWriter codec w es) (hp : w.prepareFrame codec e = .ok p) :
    w.append codec e {} = .ok (w.recordCount, w.stored p) := by
  obtain ⟨-, -, hordinal⟩ := prepareFrame_fields hp
  have hcommit : (w.wrote p.exactBytes).commitPreparedFrame p =
      .ok ((w.wrote p.exactBytes).committed p) := by
    refine commitPreparedFrame_written hordinal ?_ ?_
    · show w.statistics.recordCount = w.recordCount
      rw [h.statistics, h.recordCount]
    · show w.verifiedBytes + p.exactBytes.length ≤ w.bytesWritten + p.exactBytes.length
      rw [h.bytesWritten]
  have hchecked : ∀ message, ((w.wrote p.exactBytes).committed p).checkCommitted message false =
      .ok ((w.wrote p.exactBytes).committed p) := by
    intro message
    have hverified : w.verifiedBytes + p.exactBytes.length =
        w.bytesWritten + p.exactBytes.length := by rw [h.bytesWritten]
    exact if_neg (not_not.mpr hverified)
  have hdue := syncIfDue_open (w := (w.wrote p.exactBytes).committed p) h.isOpen
  rw [Writer.append, requireOpenClean_of_open h.isOpen.1 h.isOpen.2]
  simp only [bind, Except.bind, hp, writeAll_progressing progressing_nil, hcommit, hchecked,
    Writer.poisoning, hdue]
  rfl

/-- An append whose frame cannot be prepared changes nothing. -/
theorem append_refused {e : EventEnvelope} {error : WriterError} (h : w.IsOpen)
    (hp : w.prepareFrame codec e = .error error) : w.append codec e {} = .error (error, w) := by
  rw [Writer.append, requireOpenClean_of_open h.1 h.2]
  simp only [bind, Except.bind, hp]

/-- **A stored frame is one more frame of a ready writer.** -/
theorem ReadyWriter.stored {es : List EventEnvelope} {e : EventEnvelope} {p : PreparedFrame}
    (h : ReadyWriter codec w es) (hround : RoundTrips codec e.canonicalMapping)
    (hp : w.prepareFrame codec e = .ok p) : ReadyWriter codec (w.stored p) (es ++ [e]) := by
  obtain ⟨henvelope, hprepared⟩ := prepareFrame_eq_ok hround hp
  have hchained : Chained codec w.header w.previousConnectionId w.previousCaptureFlags [p] :=
    ⟨hprepared, trivial⟩
  have hcommit := h.evident.commit hchained
  simp only [List.map_cons, List.map_nil, List.flatten_cons, List.flatten_nil, List.append_nil,
    List.foldl_cons, List.foldl_nil, henvelope] at hcommit
  refine ⟨hcommit.congr rfl rfl rfl, h.isOpen, ?_, ?_, ?_⟩
  · show w.recordCount + 1 = (es ++ [e]).length
    rw [h.recordCount, List.length_append, List.length_singleton]
  · show (w.statistics.add p.envelope).recordCount = (es ++ [e]).length
    rw [recordCount_add, h.statistics, List.length_append, List.length_singleton]
  · show w.bytesWritten + p.exactBytes.length = w.verifiedBytes + p.exactBytes.length
    rw [h.bytesWritten]

/-! ## Groups -/

/-- The frames that `append_batch` takes as one group, each prepared behind the one stored before:
up to a rotation, a mebibyte or the end of the batch, or one where every frame is synced. -/
def takeGroup (codec : Codec) :
    List EventEnvelope → Writer → Nat → Except WriterError (List PreparedFrame)
  | [], _, _ => .ok []
  | e :: rest, w, byteCount => do
    let p ← w.prepareFrame codec e
    if w.syncEachFrame = true ∨ byteCount + p.exactBytes.length ≥ 1024 * 1024 ∨
        w.rotationBytes ≤ (w.stored p).bytesWritten then
      return [p]
    else do
      let ps ← takeGroup codec rest (w.stored p) (byteCount + p.exactBytes.length)
      return p :: ps

/-- Storing frames leaves what the writer was made with, and counts them. -/
theorem foldl_stored_fields :
    ∀ (ps : List PreparedFrame) (w : Writer),
      (ps.foldl Writer.stored w).header = w.header ∧
        (ps.foldl Writer.stored w).rotationBytes = w.rotationBytes ∧
        (ps.foldl Writer.stored w).syncEachFrame = w.syncEachFrame ∧
        (ps.foldl Writer.stored w).recordCount = w.recordCount + ps.length ∧
        (ps.foldl Writer.stored w).bytesWritten =
          w.bytesWritten + (ps.map fun p => p.exactBytes.length).sum
  | [], _ => ⟨rfl, rfl, rfl, rfl, rfl⟩
  | p :: ps, w => by
    obtain ⟨hheader, hrotation, heach, hcount, hbytes⟩ := foldl_stored_fields ps (w.stored p)
    rw [List.foldl_cons, List.map_cons, List.sum_cons, List.length_cons]
    refine ⟨hheader, hrotation, heach, hcount.trans ?_, hbytes.trans ?_⟩
    · show w.recordCount + 1 + ps.length = _
      omega
    · show w.bytesWritten + p.exactBytes.length + _ = _
      omega

/-- **The next frame of a batch is the frame that is prepared behind the ones stored so far.** -/
theorem chainFrame_prepareFrame (ps : List PreparedFrame) (e : EventEnvelope) :
    (w.prepareFrame codec e).map (w.chainFrame ps) =
      (ps.foldl Writer.stored w).prepareFrame codec e := by
  rcases List.eq_nil_or_concat' ps with rfl | ⟨qs, q, rfl⟩
  · show (w.prepareFrame codec e).map (w.chainFrame []) = w.prepareFrame codec e
    cases w.prepareFrame codec e <;> rfl
  · obtain ⟨hheader, -, -, hcount, -⟩ := foldl_stored_fields (qs ++ [q]) w
    have hlast : ((qs ++ [q]).foldl Writer.stored w).previousConnectionId =
          some q.envelope.connectionId.val ∧
        ((qs ++ [q]).foldl Writer.stored w).previousCaptureFlags = q.captureFlagsSet := by
      rw [List.foldl_append]
      exact ⟨rfl, rfl⟩
    unfold Writer.prepareFrame
    rw [hheader, hcount, hlast.1, hlast.2]
    split
    · rfl
    · split
      · rfl
      · simp only [Except.map, Writer.chainFrame, List.getLast?_append, List.getLast?_singleton,
          Option.some_or, ne_eq]
        congr 2
        by_cases hsame : e.connectionId.val = q.envelope.connectionId.val
        · rw [if_neg (not_not.mpr hsame.symm), if_neg (not_not.mpr hsame)]
        · rw [if_pos (Ne.symm hsame), if_pos hsame]

/-- **A batch is prepared as its first group is stored frame by frame.** -/
theorem prepareBatch_eq_takeGroup (heach : w.syncEachFrame = false) :
    ∀ (es : List EventEnvelope) (ps : List PreparedFrame) (n : Nat),
      w.bytesWritten + n = (ps.foldl Writer.stored w).bytesWritten →
        w.prepareBatch codec es [] ps n =
          (takeGroup codec es (ps.foldl Writer.stored w) n).map (ps ++ ·)
  | [], ps, n, _ => by simp [Writer.prepareBatch, takeGroup, Except.map]
  | e :: rest, ps, n, hbytes => by
    obtain ⟨-, hrotation, heach', -, -⟩ := foldl_stored_fields ps w
    have hchain := @chainFrame_prepareFrame codec w ps e
    rw [Writer.prepareBatch, takeGroup, ← hchain]
    cases w.prepareFrame codec e with
    | error err => rfl
    | ok frame =>
      have hlength : (w.chainFrame ps frame).exactBytes = frame.exactBytes := by
        unfold Writer.chainFrame
        split <;> rfl
      have hstored : ((ps.foldl Writer.stored w).stored (w.chainFrame ps frame)).bytesWritten =
          w.bytesWritten + (n + frame.exactBytes.length) := by
        show (ps.foldl Writer.stored w).bytesWritten + (w.chainFrame ps frame).exactBytes.length = _
        rw [← hbytes, hlength]
        omega
      have hconcat : (ps ++ [w.chainFrame ps frame]).foldl Writer.stored w =
          (ps.foldl Writer.stored w).stored (w.chainFrame ps frame) := by
        rw [List.foldl_append]
        rfl
      have hrest := prepareBatch_eq_takeGroup heach rest (ps ++ [w.chainFrame ps frame])
        (n + frame.exactBytes.length) (by rw [hconcat, hstored])
      rw [hconcat] at hrest
      simp only [bind, Except.bind, Except.map, List.tail_nil, List.headD_nil, hlength, hrotation,
        heach', heach, hstored, pure, Except.pure]
      by_cases hstop : n + frame.exactBytes.length ≥ 1024 * 1024 ∨
          w.rotationBytes ≤ w.bytesWritten + (n + frame.exactBytes.length)
      · rw [if_pos (by omega), if_pos (by omega)]
      · rw [if_neg (by simp; omega), if_neg (by simp; omega), hrest]
        cases takeGroup codec rest ((ps.foldl Writer.stored w).stored (w.chainFrame ps frame))
          (n + frame.exactBytes.length) with
        | error err => rfl
        | ok qs => simp [Except.map]

/-- A group is a front of the batch, its frames prepared one behind the other. -/
theorem takeGroup_eq_ok :
    ∀ {es : List EventEnvelope} {w : Writer} {n : Nat} {ps : List PreparedFrame},
      takeGroup codec es w n = .ok ps →
        Follow codec w ps ∧ es = ps.map PreparedFrame.envelope ++ es.drop ps.length ∧
          (es ≠ [] → ps ≠ [])
  | [], _, _, _, h => by
    cases h
    exact ⟨trivial, rfl, fun hne => absurd rfl hne⟩
  | e :: rest, w, n, ps, h => by
    rw [takeGroup] at h
    obtain ⟨p, hp, h⟩ := except_bind_eq_ok h
    have henvelope := (prepareFrame_fields hp).1
    have hfollow : w.prepareFrame codec p.envelope = .ok p := by rw [henvelope]; exact hp
    split at h
    · cases h
      refine ⟨⟨hfollow, trivial⟩, ?_, fun _ => List.cons_ne_nil _ _⟩
      simp [henvelope]
    · obtain ⟨qs, hqs, h⟩ := except_bind_eq_ok h
      cases h
      obtain ⟨htail, hsplit, -⟩ := takeGroup_eq_ok hqs
      refine ⟨⟨hfollow, htail⟩, ?_, fun _ => List.cons_ne_nil _ _⟩
      rw [List.map_cons, List.length_cons, List.drop_succ_cons, List.cons_append, ← hsplit,
        henvelope]

/-- **Frames written together are committed as they are stored one by one.** -/
theorem commitAll_written :
    ∀ {ps : List PreparedFrame} {w : Writer} {b : Bytes}, Follow codec w ps →
      w.syncEachFrame = false → w.statistics.recordCount = w.recordCount →
      w.verifiedBytes = w.bytesWritten →
        (w.wrote ((ps.map PreparedFrame.exactBytes).flatten ++ b)).commitAll ps =
          .ok ((ps.foldl Writer.stored w).wrote b)
  | [], w, b, _, _, _, _ => rfl
  | p :: ps, w, b, hfollow, heach, hstatistics, hbytes => by
    have hordinal := (prepareFrame_fields hfollow.1).2.2
    have hcommit := commitPreparedFrame_written (p := p)
      (w := w.wrote (((p :: ps).map PreparedFrame.exactBytes).flatten ++ b)) hordinal hstatistics
      (by
        show w.verifiedBytes + p.exactBytes.length ≤ w.bytesWritten + List.length _
        rw [hbytes, List.map_cons, List.flatten_cons, List.append_assoc, List.length_append]
        omega)
    have hnext : (w.wrote (((p :: ps).map PreparedFrame.exactBytes).flatten ++ b)).committed p =
        (w.stored p).wrote ((ps.map PreparedFrame.exactBytes).flatten ++ b) := by
      simp [Writer.committed, Writer.stored, Writer.wrote, heach, Nat.add_assoc]
    rw [Writer.commitAll, hcommit, hnext]
    refine commitAll_written hfollow.2 heach ?_ ?_
    · show (w.statistics.add p.envelope).recordCount = w.recordCount + 1
      rw [recordCount_add, hstatistics]
    · show w.verifiedBytes + p.exactBytes.length = w.bytesWritten + p.exactBytes.length
      rw [hbytes]

/-- A ready writer stores frame after frame. -/
theorem ReadyWriter.foldl_stored :
    ∀ {ps : List PreparedFrame} {w : Writer} {es : List EventEnvelope}, ReadyWriter codec w es →
      Follow codec w ps → (∀ p ∈ ps, RoundTrips codec p.envelope.canonicalMapping) →
        ReadyWriter codec (ps.foldl Writer.stored w) (es ++ ps.map PreparedFrame.envelope)
  | [], w, es, h, _, _ => by simpa using h
  | p :: ps, w, es, h, hfollow, hround => by
    have hstored := h.stored (hround p List.mem_cons_self) hfollow.1
    have hrest := hstored.foldl_stored hfollow.2 fun q hq => hround q (List.mem_cons_of_mem _ hq)
    simpa using hrest

/-- **Where its first group cannot be prepared, `append_batch` refuses and changes nothing.** -/
theorem appendBatch_refused {batch : List EventEnvelope} {error : WriterError} (h : w.IsOpen)
    (hlength : batch.length ≤ 256) (hgroup : takeGroup codec batch w 0 = .error error) :
    w.appendBatch codec batch {} = .error (error, w) := by
  cases batch with
  | nil => cases hgroup
  | cons e rest =>
    rw [Writer.appendBatch, requireOpenClean_of_open h.1 h.2]
    simp only [bind, Except.bind]
    cases heach : w.syncEachFrame with
    | true =>
      -- One frame at a time.
      rw [takeGroup] at hgroup
      cases hp : w.prepareFrame codec e with
      | error err =>
        rw [hp] at hgroup
        cases hgroup
        rw [if_pos rfl, append_refused h hp]
      | ok p => simp [hp, heach, bind, Except.bind, pure, Except.pure] at hgroup
    | false =>
      rw [if_neg (by decide), List.take_of_length_le hlength,
        prepareBatch_eq_takeGroup heach _ [] 0 rfl, List.foldl_nil, hgroup]
      rfl

/-- **Where it can, `append_batch` stores the group frame by frame.** -/
theorem appendBatch_ready {es batch : List EventEnvelope} {ps : List PreparedFrame}
    (h : ReadyWriter codec w es) (hbatch : batch ≠ []) (hlength : batch.length ≤ 256)
    (hround : ∀ e ∈ batch, RoundTrips codec e.canonicalMapping)
    (hgroup : takeGroup codec batch w 0 = .ok ps) :
    w.appendBatch codec batch {} =
      .ok (ps.map fun p => p.exactBytes.length, ps.foldl Writer.stored w) := by
  obtain ⟨e, rest, rfl⟩ := List.exists_cons_of_ne_nil hbatch
  obtain ⟨hfollow, hsplit, -⟩ := takeGroup_eq_ok hgroup
  rw [Writer.appendBatch, requireOpenClean_of_open h.isOpen.1 h.isOpen.2]
  simp only [bind, Except.bind]
  cases heach : w.syncEachFrame with
  | true =>
    rw [takeGroup] at hgroup
    obtain ⟨p, hp, hgroup⟩ := except_bind_eq_ok hgroup
    rw [if_pos (Or.inl heach)] at hgroup
    cases hgroup
    rw [if_pos rfl, append_ready h hp]
    have hsize : (w.stored p).bytesWritten - w.bytesWritten = p.exactBytes.length := by
      show w.bytesWritten + p.exactBytes.length - w.bytesWritten = _
      omega
    simp [hsize, pure, Except.pure]
  | false =>
    rw [if_neg (by decide), List.take_of_length_le hlength,
      prepareBatch_eq_takeGroup heach _ [] 0 rfl, List.foldl_nil, hgroup]
    have hps : ∀ p ∈ ps, RoundTrips codec p.envelope.canonicalMapping := by
      intro p hp
      refine hround _ ?_
      rw [hsplit]
      exact List.mem_append_left _ (List.mem_map_of_mem hp)
    have hready := h.foldl_stored hfollow hps
    have hviews : ∀ b ∈ ps.map PreparedFrame.exactBytes, b ≠ [] := by
      intro b hb
      obtain ⟨p, hp, rfl⟩ := List.mem_map.mp hb
      have hbatch := @prepareBatch_eq_takeGroup codec _ heach (e :: rest) [] 0 rfl
      rw [List.foldl_nil, hgroup] at hbatch
      exact ne_nil_of_prepareBatch (by simp) hbatch p (by simpa using hp)
    have hcommit := commitAll_written (b := []) hfollow heach
      (h.statistics.trans h.recordCount.symm) h.bytesWritten.symm
    rw [List.append_nil, wrote_nil] at hcommit
    have hchecked : ∀ message,
        (ps.foldl Writer.stored w).checkCommitted message false = .ok (ps.foldl Writer.stored w) :=
      fun message => if_neg (not_not.mpr hready.bytesWritten.symm)
    have hsync : (ps.foldl Writer.stored w).syncEachFrame = false := by
      rw [(foldl_stored_fields ps w).2.2.1, heach]
    simp only [Except.map, List.nil_append, writeVectors_progressing progressing_nil hviews,
      hcommit, hchecked, Writer.poisoning, Writer.syncIfDue, hsync, Bool.or_false,
      Bool.false_eq_true, if_false]
    rfl

end

end MarketDataRecorder
