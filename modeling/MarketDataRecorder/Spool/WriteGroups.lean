import MarketDataRecorder.Spool.ReadySpool

/-!
# Write groups

`append_batch` gathers the frames of a batch into groups and writes each group at once.

* `appendGroups_of_frames` — a batch that can be framed is received envelope by envelope
* `appendGroups_of_bad` — where an envelope cannot be framed, the frames gathered before it are lost
-/

namespace MarketDataRecorder

section

variable {codec : Codec} {config : StreamConfig}

namespace StreamSpool

/-! ## Group by group -/

/-- Where every envelope can be framed, a group can be prepared. -/
theorem takeGroup_of_frames :
    ∀ {es : List EventEnvelope} {w : Writer} {n : Nat}, Owned config w →
      (∀ e ∈ es, config.Frames codec e) → ∃ ps, takeGroup codec es w n = .ok ps
  | [], _, _, _, _ => ⟨[], rfl⟩
  | e :: rest, w, n, howned, hframes => by
    obtain ⟨p, hp⟩ := (prepareFrame_isOk_iff howned).mpr (hframes e List.mem_cons_self)
    rw [takeGroup, hp]
    simp only [bind, Except.bind]
    split
    · exact ⟨[p], rfl⟩
    · obtain ⟨ps, hps⟩ := takeGroup_of_frames (n := n + p.exactBytes.length) (howned.stored p)
        fun e he => hframes e (List.mem_cons_of_mem _ he)
      exact ⟨p :: ps, by rw [hps]; rfl⟩

/-- A spool with a writer receives with that writer. -/
theorem receive_of_writer {s : StreamSpool} {w : Writer} (hs : s.writer = some w) (depth : Nat)
    (e : EventEnvelope) :
    receive codec config {} depth e s = appendOne codec {} depth w.bytesWritten e w s := by
  simp [receive, ensureWriter, hs, bind, Except.bind]

theorem batchObservations_nil (depth headerBytes : Nat) (es : List EventEnvelope) :
    batchObservations depth headerBytes es [] = [] := by
  cases es <;> rfl

/-- Two lists of envelopes are received one after the other. -/
theorem receiveAll_append (depth : Nat) (ys : List EventEnvelope) :
    ∀ (xs : List EventEnvelope) (s : StreamSpool),
      receiveAll codec config depth (xs ++ ys) s =
        receiveAll codec config (depth + ys.length) xs s >>= receiveAll codec config depth ys
  | [], s => rfl
  | x :: xs, s => by
    have hdepth : depth + (xs ++ ys).length = depth + ys.length + xs.length := by
      rw [List.length_append]
      omega
    rw [List.cons_append, receiveAll, receiveAll, hdepth]
    cases receive codec config {} (depth + ys.length + xs.length) x s with
    | error err => rfl
    | ok v => exact receiveAll_append depth ys xs v

/-- **A group is appended as its envelopes would be one by one**, rotation included: the first of
them behind a header of `headerBytes`, if the writer is new. -/
theorem appendOne_of_takeGroup (depth : Nat) :
    ∀ {rest : List EventEnvelope} {e : EventEnvelope} {w : Writer} {es : List EventEnvelope}
      {n headerBytes : Nat} {ps : List PreparedFrame} {s : StreamSpool},
      ReadyWriter codec w es → (∀ f ∈ e :: rest, RoundTrips codec f.canonicalMapping) →
      headerBytes ≤ w.bytesWritten → takeGroup codec (e :: rest) w n = .ok ps →
        (appendOne codec {} (depth + rest.length) (w.bytesWritten - headerBytes) e w s >>=
            receiveAll codec config (depth + ((e :: rest).drop ps.length).length)
              (rest.take (ps.length - 1))) =
          rotate codec {} (ps.foldl Writer.stored w)
            (recordFrames (ps.foldl Writer.stored w)
              (batchObservations depth headerBytes (e :: rest)
              (ps.map fun p => p.exactBytes.length)) s)
  | rest, e, w, es, n, headerBytes, ps, s, hready, hround, hheader, hgroup => by
    rw [takeGroup] at hgroup
    obtain ⟨p, hp, hgroup⟩ := except_bind_eq_ok hgroup
    have hsize : (w.stored p).bytesWritten - (w.bytesWritten - headerBytes) =
        p.exactBytes.length + headerBytes := by
      show w.bytesWritten + p.exactBytes.length - (w.bytesWritten - headerBytes) = _
      omega
    have hlast : ∀ r : SpoolRun StreamSpool,
        (r >>= receiveAll codec config (depth + rest.length) []) = r := by
      intro r
      cases r <;> rfl
    rw [appendOne_ready hready hp, hsize]
    split at hgroup
    · cases hgroup
      simp only [List.length_singleton, Nat.sub_self, List.take_zero, List.drop_succ_cons,
        List.drop_zero, hlast]
      simp [batchObservations, batchObservations_nil]
    · next hgoes =>
      obtain ⟨qs, hqs, hgroup⟩ := except_bind_eq_ok hgroup
      cases hgroup
      cases rest with
      | nil =>
        cases hqs
        simp only [List.length_singleton, Nat.sub_self, List.take_zero, List.drop_succ_cons,
          List.drop_zero, hlast]
        simp [batchObservations]
      | cons f rest =>
        have hnot : ¬ w.rotationBytes ≤ (w.stored p).bytesWritten := fun hle =>
          hgoes (Or.inr (Or.inr hle))
        -- The group goes on, so the chunk does.
        have hrotate : ∀ u : StreamSpool, rotate codec {} (w.stored p) u = .ok u := by
          intro u
          have hrotation : (w.stored p).rotationBytes = w.rotationBytes := rfl
          simp [rotate, shouldRotate, hrotation, hnot]
        have hstored := hready.stored (hround e List.mem_cons_self) hp
        obtain ⟨-, hsplit, hne⟩ := takeGroup_eq_ok hqs
        have hlengths := congrArg List.length hsplit
        have hpos := List.length_pos_of_ne_nil (hne (List.cons_ne_nil _ _))
        obtain ⟨k, hk⟩ : ∃ k, qs.length = k + 1 := ⟨qs.length - 1, by omega⟩
        have hrest := @appendOne_of_takeGroup depth _ _ _ _ _ 0 _
          (recordFrames (w.stored p)
            [(e, p.exactBytes.length + headerBytes, depth + (f :: rest).length)] s) hstored
          (fun g hg => hround g (List.mem_cons_of_mem _ hg)) (Nat.zero_le _) hqs
        have hdepth : depth + ((e :: f :: rest).drop (p :: qs).length).length +
            (rest.take k).length = depth + rest.length := by
          simp only [List.length_append, List.length_map, List.length_cons, List.length_drop,
            List.length_take, hk] at hlengths ⊢
          omega
        rw [hrotate]
        show receiveAll codec config _ ((f :: rest).take (qs.length + 1 - 1))
          (recordFrames _ _ _) = _
        rw [Nat.add_sub_cancel, hk, List.take_succ_cons, receiveAll, receive_of_writer rfl, hdepth]
        rw [Nat.sub_zero, hk, Nat.add_sub_cancel] at hrest
        have hdrop : (e :: f :: rest).drop (p :: qs).length = (f :: rest).drop (k + 1) := by
          rw [List.length_cons, hk]
          rfl
        rw [hdrop]
        refine Eq.trans hrest ?_
        rw [recordFrames_recordFrames]
        rfl

/-- Prepared envelopes can be framed. -/
theorem frames_of_takeGroup :
    ∀ {es : List EventEnvelope} {w : Writer} {n : Nat} {ps : List PreparedFrame}, Owned config w →
      takeGroup codec es w n = .ok ps → ∀ p ∈ ps, config.Frames codec p.envelope
  | [], _, _, _, _, h => by
    cases h
    simp
  | e :: rest, w, n, ps, howned, h => by
    rw [takeGroup] at h
    obtain ⟨p, hp, h⟩ := except_bind_eq_ok h
    have hframes : config.Frames codec p.envelope := by
      rw [(prepareFrame_fields hp).1]
      exact (prepareFrame_isOk_iff howned).mp ⟨p, hp⟩
    split at h
    · cases h
      intro q hq
      rw [List.mem_singleton.mp hq]
      exact hframes
    · obtain ⟨qs, hqs, h⟩ := except_bind_eq_ok h
      cases h
      intro q hq
      rcases List.mem_cons.mp hq with rfl | hq
      · exact hframes
      · exact frames_of_takeGroup (howned.stored p) hqs q hq

/-- **The first group of a batch is received envelope by envelope**, and the loop goes on behind
it. -/
theorem appendGroups_of_takeGroup {s u : StreamSpool} {w : Writer} {writerCreated : Bool}
    {es : List EventEnvelope} {e : EventEnvelope} {rest : List EventEnvelope}
    {ps : List PreparedFrame}
    (hu : ensureWriter codec config {} s = .ok (w, writerCreated, u)) (hqueue : u.queue = s.queue)
    (howned : Owned config w) (hready : ReadyWriter codec w es)
    (hlength : (e :: rest).length ≤ 256)
    (hround : ∀ f ∈ e :: rest, RoundTrips codec f.canonicalMapping)
    (hps : takeGroup codec (e :: rest) w 0 = .ok ps) (fuel : Nat) :
    ∃ v, receiveAll codec config (s.queue.depth + ((e :: rest).drop ps.length).length)
        (ps.map PreparedFrame.envelope) s = .ok v ∧
      appendGroups codec config {} (fuel + 1) (e :: rest) s =
        (appendGroups codec config {} fuel ((e :: rest).drop ps.length) v).map
          fun r => (ps.length + r.1, r.2) := by
  obtain ⟨hfollow, hsplit, hne⟩ := takeGroup_eq_ok hps
  have hroundPs : ∀ p ∈ ps, RoundTrips codec p.envelope.canonicalMapping := by
    intro p hp
    refine hround _ ?_
    rw [hsplit]
    exact List.mem_append_left _ (List.mem_map_of_mem hp)
  have hstored := hready.foldl_stored hfollow hroundPs
  obtain ⟨hheader, hrotation, heach, -, hbytes⟩ := foldl_stored_fields ps w
  have hownedPs : Owned config (ps.foldl Writer.stored w) :=
    ⟨by rw [hheader]; exact howned.header, hrotation.trans howned.rotationBytes,
      heach.trans howned.syncEachFrame⟩
  let headerBytes := if writerCreated then w.bytesWritten else 0
  let t := recordFrames (ps.foldl Writer.stored w) (batchObservations s.queue.depth headerBytes
    (e :: rest) (ps.map fun p => p.exactBytes.length)) u
  obtain ⟨v, hv, -⟩ := rotate_ready (s := t) rfl hownedPs hstored
  have hcounted : (if writerCreated then (ps.foldl Writer.stored w).bytesWritten -
      (ps.map fun p => p.exactBytes.length).sum else 0) = headerBytes := by
    show _ = if writerCreated then w.bytesWritten else 0
    rw [hbytes, Nat.add_sub_cancel]
  refine ⟨v, ?_, ?_⟩
  · have hone := @appendOne_of_takeGroup codec config s.queue.depth _ _ _ _ _
      headerBytes _ u hready hround (by simp only [headerBytes]; split <;> omega) hps
    have hbefore : w.bytesWritten - headerBytes = if writerCreated then 0 else w.bytesWritten := by
      simp only [headerBytes]
      split <;> omega
    obtain ⟨p, qs, rfl⟩ := List.exists_cons_of_ne_nil (hne (List.cons_ne_nil _ _))
    rw [List.map_cons, List.length_cons, List.drop_succ_cons, List.cons_append,
      List.cons.injEq] at hsplit
    have hlengths := congrArg List.length hsplit.2
    simp only [List.length_append, List.length_map, List.length_drop] at hlengths
    have htake : rest.take qs.length = qs.map PreparedFrame.envelope := by
      conv_lhs => rw [hsplit.2]
      exact List.take_left' (by simp)
    rw [hbefore, List.length_cons, Nat.add_sub_cancel, List.drop_succ_cons, htake] at hone
    have hdepth : s.queue.depth + (rest.drop qs.length).length +
        (qs.map PreparedFrame.envelope).length = s.queue.depth + rest.length := by
      rw [List.length_drop, List.length_map]
      omega
    rw [List.map_cons, ← hsplit.1, List.length_cons, List.drop_succ_cons, receiveAll, hdepth,
      receive, hu]
    exact hone.trans hv
  · have happend := appendBatch_ready hready (List.cons_ne_nil _ _) hlength hround hps
    rw [appendGroups, if_neg (List.cons_ne_nil _ _), hu]
    simp only [bind, Except.bind, happend, hqueue, hcounted, List.length_map]
    rw [hv]
    simp only
    cases appendGroups codec config {} fuel ((e :: rest).drop ps.length) v <;> rfl

/-- **A batch whose envelopes can all be framed is received envelope by envelope.** -/
theorem appendGroups_of_frames (hconfig : config.Valid codec) :
    ∀ {fuel : Nat} {batch : List EventEnvelope} {s : StreamSpool}, s.Ready codec config →
      batch.length ≤ fuel → batch.length ≤ 256 → (∀ e ∈ batch, config.Frames codec e) →
      (∀ e ∈ batch, RoundTrips codec e.canonicalMapping) →
        appendGroups codec config {} fuel batch s =
          (receiveAll codec config s.queue.depth batch s).map fun v => (batch.length, v)
  | 0, batch, s, _, hfuel, _, _, _ => by
    obtain rfl := List.eq_nil_of_length_eq_zero (Nat.le_zero.mp hfuel)
    rfl
  | fuel + 1, [], s, _, _, _, _, _ => rfl
  | fuel + 1, e :: rest, s, h, hfuel, hlength, hframes, hround => by
    obtain ⟨w, writerCreated, u, hu, -, howned, ⟨es, hready⟩, hqueue, -, -⟩ :=
      ensureWriter_ready hconfig h
    obtain ⟨ps, hps⟩ := takeGroup_of_frames (n := 0) howned hframes
    obtain ⟨-, hsplit, hne⟩ := takeGroup_eq_ok hps
    obtain ⟨v, hv, happend⟩ :=
      appendGroups_of_takeGroup hu hqueue howned hready hlength hround hps fuel
    have hmem : ∀ f ∈ ps.map PreparedFrame.envelope, f ∈ e :: rest := fun f hf => by
      rw [hsplit]
      exact List.mem_append_left _ hf
    obtain ⟨v', hv', hvready, hvqueue, -, -⟩ := receiveAll_ready hconfig
      (s.queue.depth + ((e :: rest).drop ps.length).length) h (fun f hf => hframes f (hmem f hf))
      (fun f hf => hround f (hmem f hf))
    obtain rfl : v = v' := Except.ok.inj (hv.symm.trans hv')
    have hpos := List.length_pos_of_ne_nil (hne (List.cons_ne_nil _ _))
    have hdrop : ∀ f ∈ (e :: rest).drop ps.length, f ∈ e :: rest :=
      fun f hf => List.mem_of_mem_drop hf
    have hlengths := congrArg List.length hsplit
    rw [List.length_append, List.length_map] at hlengths
    have hrest := @appendGroups_of_frames hconfig fuel
      ((e :: rest).drop ps.length) v hvready (by omega) (by omega)
      (fun f hf => hframes f (hdrop f hf)) (fun f hf => hround f (hdrop f hf))
    have hreceive : receiveAll codec config s.queue.depth (e :: rest) s =
        receiveAll codec config s.queue.depth ((e :: rest).drop ps.length) v := by
      conv_lhs => rw [hsplit]
      rw [receiveAll_append, hv]
      rfl
    rw [happend, hrest, hreceive, hvqueue, hlengths]
    cases receiveAll codec config s.queue.depth ((e :: rest).drop ps.length) v <;> rfl

/-! ## An envelope that cannot be framed -/

/-- The bytes prepared for the write that is being gathered, and the open chunk behind them. -/
structure WriteGroup where
  groupBytes : Nat
  level : Level
  deriving DecidableEq

/-- With one more envelope. The group ends where every frame is synced, at a mebibyte, and where
the chunk is full. -/
def WriteGroup.add (codec : Codec) (config : StreamConfig) (g : WriteGroup) (e : EventEnvelope) :
    WriteGroup :=
  let frameBytes := (encodedFrame codec e).bytes.length
  let level := g.level.add codec config frameBytes
  let groupBytes := g.groupBytes + frameBytes
  ⟨if config.syncEachFrame = true ∨ groupBytes ≥ 1024 * 1024 ∨ level.chunkBytes = none then 0
    else groupBytes, level⟩

/-- The level behind a list of envelopes does not depend on the groups. -/
theorem level_foldl_add :
    ∀ (es : List EventEnvelope) (g : WriteGroup),
      (es.foldl (WriteGroup.add codec config) g).level =
        es.foldl (fun l e => l.add codec config (encodedFrame codec e).bytes.length) g.level
  | [], _ => rfl
  | e :: es, g => level_foldl_add es (g.add codec config e)

/-- The level with a frame in an open chunk. -/
theorem Level.add_of_some {l : Level} {chunkBytes : Nat} (h : l.chunkBytes = some chunkBytes)
    (frameBytes : Nat) :
    l.add codec config frameBytes =
      ⟨if config.rotationBytes ≤ chunkBytes + frameBytes then none
        else some (chunkBytes + frameBytes), l.created⟩ := by
  simp [Level.add, Level.opened, h]

/-- Opening a chunk first changes nothing in what a frame adds. -/
theorem Level.opened_add (l : Level) (frameBytes : Nat) :
    (l.opened codec config).add codec config frameBytes = l.add codec config frameBytes := by
  unfold Level.add
  have hopened : (l.opened codec config).opened codec config = l.opened codec config := by
    cases hl : l.chunkBytes <;> simp [Level.opened, hl]
  rw [hopened]

/-- **Within a group, the bytes gathered are those of the frames prepared so far**; a group that
cannot be prepared up to an envelope holds the ones before it. -/
theorem groupBytes_of_takeGroup_error {bad : EventEnvelope} {post : List EventEnvelope}
    {error : WriterError} :
    ∀ {pre : List EventEnvelope} {w : Writer} {g : WriteGroup}, Owned config w →
      (∀ e ∈ pre, config.Frames codec e) → g.level.chunkBytes = some w.bytesWritten →
      takeGroup codec (pre ++ bad :: post) w g.groupBytes = .error error →
        (pre.foldl (WriteGroup.add codec config) g).groupBytes = 0 → pre = [] ∧ g.groupBytes = 0
  | [], _, _, _, _, _, _, hzero => ⟨rfl, hzero⟩
  | e :: pre, w, g, howned, hframes, hchunk, h, hzero => by
    obtain ⟨p, hp⟩ := (prepareFrame_isOk_iff howned).mpr (hframes e List.mem_cons_self)
    have hframe : (encodedFrame codec e).bytes.length = p.exactBytes.length := by
      rw [(prepareFrame_fields hp).2.1]
    rw [List.cons_append, takeGroup, hp] at h
    simp only [bind, Except.bind] at h
    split at h
    · cases h
    · next hgoes =>
      simp only [not_or] at hgoes
      obtain ⟨heach, hbytes, hfull⟩ := hgoes
      rw [howned.syncEachFrame] at heach
      rw [howned.rotationBytes] at hfull
      have hadd : g.add codec config e =
          ⟨g.groupBytes + p.exactBytes.length,
            ⟨some (w.stored p).bytesWritten, g.level.created⟩⟩ := by
        have hlevel := @Level.add_of_some codec config _ _ hchunk
          p.exactBytes.length
        rw [if_neg (show ¬ config.rotationBytes ≤ w.bytesWritten + p.exactBytes.length from hfull)]
          at hlevel
        simp only [WriteGroup.add, hframe, hlevel]
        rw [if_neg (by rintro (h | h | h); exacts [heach h, hbytes h, by cases h])]
        rfl
      have hrest : takeGroup codec (pre ++ bad :: post) (w.stored p)
          (g.groupBytes + p.exactBytes.length) = .error error := by
        cases hgroup : takeGroup codec (pre ++ bad :: post) (w.stored p)
            (g.groupBytes + p.exactBytes.length) with
        | error err =>
          rw [hgroup] at h
          cases h
          rfl
        | ok qs =>
          rw [hgroup] at h
          cases h
      rw [List.foldl_cons, hadd] at hzero
      have hnil := groupBytes_of_takeGroup_error (howned.stored p)
        (fun f hf => hframes f (List.mem_cons_of_mem _ hf))
        (g := ⟨g.groupBytes + p.exactBytes.length, ⟨some (w.stored p).bytesWritten,
          g.level.created⟩⟩) rfl hrest hzero
      have hpos := List.length_pos_of_ne_nil (ne_nil_of_prepareFrame hp)
      have hsum : g.groupBytes + p.exactBytes.length = 0 := hnil.2
      omega

/-- A group that ends within the batch leaves nothing gathered. -/
theorem groupBytes_of_takeGroup :
    ∀ {es : List EventEnvelope} {w : Writer} {g : WriteGroup} {ps : List PreparedFrame},
      Owned config w → g.level.chunkBytes = some w.bytesWritten →
      takeGroup codec es w g.groupBytes = .ok ps → ps.length ≠ es.length →
        ((ps.map PreparedFrame.envelope).foldl (WriteGroup.add codec config) g).groupBytes = 0
  | [], _, _, _, _, _, h, hlength => by
    cases h
    exact absurd rfl hlength
  | e :: rest, w, g, ps, howned, hchunk, h, hlength => by
    rw [takeGroup] at h
    obtain ⟨p, hp, h⟩ := except_bind_eq_ok h
    obtain ⟨henvelope, hbytes, -⟩ := prepareFrame_fields hp
    have hlevel := @Level.add_of_some codec config _ _ hchunk p.exactBytes.length
    split at h
    · next hstop =>
      cases h
      have hends : config.syncEachFrame = true ∨ g.groupBytes + p.exactBytes.length ≥ 1024 * 1024 ∨
          config.rotationBytes ≤ w.bytesWritten + p.exactBytes.length := by
        rw [howned.syncEachFrame, howned.rotationBytes] at hstop
        exact hstop
      simp only [List.map_cons, List.map_nil, List.foldl_cons, List.foldl_nil, WriteGroup.add,
        henvelope, ← hbytes, hlevel]
      rw [if_pos]
      rcases hends with heach | hmebibyte | hfull
      · exact Or.inl heach
      · exact Or.inr (Or.inl hmebibyte)
      · exact Or.inr (Or.inr (if_pos hfull))
    · next hgoes =>
      obtain ⟨qs, hqs, h⟩ := except_bind_eq_ok h
      cases h
      simp only [not_or] at hgoes
      obtain ⟨heach, hmebibyte, hfull⟩ := hgoes
      rw [howned.syncEachFrame] at heach
      rw [howned.rotationBytes] at hfull
      rw [if_neg (show ¬ config.rotationBytes ≤ w.bytesWritten + p.exactBytes.length from hfull)]
        at hlevel
      have hadd : g.add codec config e =
          ⟨g.groupBytes + p.exactBytes.length,
            ⟨some (w.stored p).bytesWritten, g.level.created⟩⟩ := by
        simp only [WriteGroup.add, ← hbytes, hlevel]
        rw [if_neg (by rintro (h | h | h); exacts [heach h, hmebibyte h, by cases h])]
        rfl
      rw [List.map_cons, List.foldl_cons, henvelope, hadd]
      exact groupBytes_of_takeGroup (howned.stored p)
        (g := ⟨g.groupBytes + p.exactBytes.length, ⟨some (w.stored p).bytesWritten,
          g.level.created⟩⟩) rfl hqs
        fun hsame => hlength (by rw [List.length_cons, hsame, List.length_cons])

/-- Opening a chunk first changes nothing in the bytes gathered. -/
theorem groupBytes_opened (es : List EventEnvelope) (n : Nat) (l : Level) :
    (es.foldl (WriteGroup.add codec config) ⟨n, l.opened codec config⟩).groupBytes =
      (es.foldl (WriteGroup.add codec config) ⟨n, l⟩).groupBytes := by
  cases es with
  | nil => rfl
  | cons e es =>
    have hadd : WriteGroup.add codec config ⟨n, l.opened codec config⟩ e =
        WriteGroup.add codec config ⟨n, l⟩ e := by
      simp only [WriteGroup.add, Level.opened_add]
    rw [List.foldl_cons, List.foldl_cons, hadd]

/-- An envelope of another list stands behind a list that does not contain it. -/
theorem exists_append_of_not_mem {α : Type} {a : α} {xs ys pre post : List α}
    (h : xs ++ ys = pre ++ a :: post) (ha : a ∉ xs) :
    ∃ rest, pre = xs ++ rest ∧ ys = rest ++ a :: post := by
  rcases List.append_eq_append_iff.mp h with ⟨rest, rfl, hys⟩ | ⟨rest, rfl, hpost⟩
  · exact ⟨rest, rfl, hys⟩
  · cases rest with
    | nil => exact ⟨[], by simp, by simpa using hpost.symm⟩
    | cons b rest =>
      rw [List.cons_append, List.cons.injEq] at hpost
      exact absurd (by simp [hpost.1]) ha

/-- **A batch with an envelope that cannot be framed** is received up to the group of that envelope.
The call raises, and the envelopes of the group before it are lost: those that were gathered. -/
theorem appendGroups_of_bad (hconfig : config.Valid codec) {bad : EventEnvelope}
    {post : List EventEnvelope} (hbad : ¬ config.Frames codec bad) :
    ∀ {fuel : Nat} {pre : List EventEnvelope} {s : StreamSpool}, s.Ready codec config →
      (pre ++ bad :: post).length ≤ fuel → (pre ++ bad :: post).length ≤ 256 →
      (∀ e ∈ pre, config.Frames codec e) →
      (∀ e ∈ pre ++ bad :: post, RoundTrips codec e.canonicalMapping) →
        ∃ kept gathered v u error, pre = kept ++ gathered ∧
          receiveAll codec config (s.queue.depth + (gathered ++ bad :: post).length) kept s =
            .ok v ∧
          appendGroups codec config {} fuel (pre ++ bad :: post) s = .error (error, u) ∧
          u.Ready codec config ∧ u.queue = s.queue ∧ u.persisted codec = v.persisted codec ∧
          ((pre.foldl (WriteGroup.add codec config) ⟨0, s.level⟩).groupBytes = 0 ↔
            gathered = []) ∧
          (gathered = [] → ∀ depth, receive codec config {} depth bad v = .error (error, u))
  | 0, pre, s, _, hfuel, _, _, _ => by simp at hfuel
  | fuel + 1, pre, s, h, hfuel, hlength, hframes, hround => by
    obtain ⟨w, writerCreated, u, hu, hwriter, howned, ⟨es, hready⟩, hqueue, hpersisted, hlevel⟩ :=
      ensureWriter_ready hconfig h
    have hchunk : (s.level.opened codec config).chunkBytes = some w.bytesWritten := by
      rw [← hlevel, level, hwriter]
      rfl
    obtain ⟨e, rest, hbatch⟩ := List.exists_cons_of_ne_nil
      (show pre ++ bad :: post ≠ [] by simp)
    cases hgroup : takeGroup codec (pre ++ bad :: post) w 0 with
    | error err =>
      -- The group of the bad envelope comes first: nothing of it is written.
      refine ⟨[], pre, s, observeProgress w { u with writer := some w }, .writer err, rfl, rfl, ?_,
        ?_, hqueue, ?_, ?_, ?_⟩
      · rw [hbatch] at hgroup hlength ⊢
        rw [appendGroups, if_neg (List.cons_ne_nil _ _), hu]
        simp only [bind, Except.bind, appendBatch_refused hready.isOpen hlength hgroup]
      · intro w' hw'
        obtain rfl : w = w' := Option.some.inj hw'
        exact ⟨howned, es, hready⟩
      · rw [← hpersisted]
        simp [persisted, files, observeProgress, hwriter]
      · constructor
        · intro hzero
          rw [← groupBytes_opened] at hzero
          exact (groupBytes_of_takeGroup_error howned hframes hchunk hgroup hzero).1
        · rintro rfl
          rfl
      · rintro rfl depth
        have hp : w.prepareFrame codec bad = .error err := by
          rw [List.nil_append, takeGroup] at hgroup
          cases hp : w.prepareFrame codec bad with
          | error err' =>
            rw [hp] at hgroup
            cases hgroup
            rfl
          | ok p => exact absurd ((prepareFrame_isOk_iff howned).mp ⟨p, hp⟩) hbad
        rw [receive, hu]
        show appendOne codec {} depth _ bad w u = _
        rw [appendOne, append_refused hready.isOpen hp]
    | ok ps =>
      obtain ⟨-, hsplit, hne⟩ := takeGroup_eq_ok hgroup
      have hnot : bad ∉ ps.map PreparedFrame.envelope := by
        intro hmem
        obtain ⟨p, hp, rfl⟩ := List.mem_map.mp hmem
        exact hbad (frames_of_takeGroup howned hgroup p hp)
      obtain ⟨later, hpre, hdrop⟩ := exists_append_of_not_mem hsplit.symm hnot
      have hx : ∀ f ∈ ps.map PreparedFrame.envelope, f ∈ pre := fun f hf => by
        rw [hpre]
        exact List.mem_append_left _ hf
      have hlater : ∀ f ∈ later, f ∈ pre := fun f hf => by
        rw [hpre]
        exact List.mem_append_right _ hf
      have hlengths := congrArg List.length hpre
      rw [List.length_append, List.length_map] at hlengths
      rw [hbatch] at hgroup hlength
      obtain ⟨v₀, hv₀, happend⟩ := appendGroups_of_takeGroup hu hqueue howned hready hlength
        (by rw [← hbatch]; exact hround) hgroup fuel
      rw [← hbatch, hdrop] at hv₀ happend
      obtain ⟨v', hv', hvready, hvqueue, hvpersisted, hvlevel⟩ := receiveAll_ready hconfig
        (s.queue.depth + (later ++ bad :: post).length) h (fun f hf => hframes f (hx f hf))
        fun f hf => hround f (List.mem_append_left _ (hx f hf))
      obtain rfl : v₀ = v' := Except.ok.inj (hv₀.symm.trans hv')
      have hpos : 0 < ps.length := by
        have := hne (by simp)
        exact List.length_pos_of_ne_nil this
      -- What the first group leaves is where the next one starts.
      have hstart : (ps.map PreparedFrame.envelope).foldl (WriteGroup.add codec config)
          ⟨0, s.level⟩ = ⟨0, v₀.level⟩ := by
        have hzero := groupBytes_of_takeGroup (g := ⟨0, s.level.opened codec config⟩) howned hchunk
          hgroup (by
            rw [← hbatch]
            simp only [List.length_append, List.length_cons]
            omega)
        rw [groupBytes_opened] at hzero
        have hlevel' := @level_foldl_add codec config
          (ps.map PreparedFrame.envelope) ⟨0, s.level⟩
        rw [hvlevel]
        cases hg : (ps.map PreparedFrame.envelope).foldl (WriteGroup.add codec config)
          ⟨0, s.level⟩ with
        | mk n l =>
          rw [hg] at hzero hlevel'
          simp only at hzero hlevel'
          rw [hzero, hlevel']
      rw [← hbatch] at hlength
      simp only [List.length_append, List.length_cons] at hfuel hlength
      obtain ⟨kept, gathered, v, u', error, hsplit', hv, hu', huready, huqueue, hupersisted, hiff,
          hsame⟩ := @appendGroups_of_bad hconfig bad post hbad fuel later _ hvready
        (show (later ++ bad :: post).length ≤ fuel by
          simp only [List.length_append, List.length_cons]
          omega)
        (by simp only [List.length_append, List.length_cons]; omega)
        (fun f hf => hframes f (hlater f hf)) (fun f hf => by
          rcases List.mem_append.mp hf with hf | hf
          · exact hround f (List.mem_append_left _ (hlater f hf))
          · exact hround f (List.mem_append_right _ hf))
      refine ⟨ps.map PreparedFrame.envelope ++ kept, gathered, v, u', error, ?_, ?_, ?_, huready,
        huqueue.trans hvqueue, hupersisted, ?_, hsame⟩
      · rw [hpre, hsplit', List.append_assoc]
      · have hdepth : s.queue.depth + (gathered ++ bad :: post).length + kept.length =
            s.queue.depth + (later ++ bad :: post).length := by
          rw [hsplit']
          simp only [List.length_append]
          omega
        rw [receiveAll_append, hdepth, hv₀, ← hvqueue]
        exact hv
      · rw [happend, hu']
        rfl
      · rw [hpre, List.foldl_append, hstart]
        exact hiff

end StreamSpool

end

end MarketDataRecorder
