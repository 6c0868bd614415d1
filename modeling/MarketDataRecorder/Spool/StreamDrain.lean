import MarketDataRecorder.Spool.ReferenceCodec
import MarketDataRecorder.Spool.WriteGroups

/-!
# Batched drains

`drain_all` takes a batch off the queue before it prepares any frame of it; `drain_one` takes an
envelope when the frame before it is stored. Where every queued envelope can be framed the two leave
the same spool. Where one cannot, what `drain_all` has taken and not written is gone.

* `drainBatches_of_frames` — a queue that can be framed is drained alike
* `drainBatches_of_bad` — what an envelope that cannot be framed takes with it
* `drain_agrees_iff` — exactly which queues the two drains treat alike
-/

namespace MarketDataRecorder

section

variable {codec : Codec} {config : StreamConfig}

/-! ## Batches and the queue -/

namespace BoundedEventQueue

/-- The queue behind `n` envelopes. -/
def dropped : Nat → BoundedEventQueue → BoundedEventQueue
  | 0, q => q
  | n + 1, q =>
    match q.getNowait with
    | none => q
    | some (_, rest) => rest.dropped n

/-- The payload bytes of some envelopes. -/
def payloadBytes (es : List EventEnvelope) : Nat := (es.map fun e => e.rawPayload.length).sum

/-- The next envelope, and the queue behind it. -/
theorem getNowait_of_envelopes {q : BoundedEventQueue} {e : EventEnvelope}
    {es : List EventEnvelope} (h : q.envelopes = e :: es) :
    ∃ rest, q.getNowait = some (e, rest) ∧ rest.envelopes = es ∧ rest = q.dropped 1 := by
  obtain ⟨items, queuedBytes⟩ := q
  cases items with
  | nil => cases h
  | cons item items =>
    obtain ⟨rfl, hes⟩ := List.cons.inj h
    exact ⟨_, rfl, hes, rfl⟩

theorem getNowait_eq_none {q : BoundedEventQueue} (h : q.envelopes = []) : q.getNowait = none := by
  obtain ⟨items, queuedBytes⟩ := q
  obtain rfl : items = [] := List.map_eq_nil_iff.mp h
  rfl

@[simp] theorem length_envelopes (q : BoundedEventQueue) : q.envelopes.length = q.depth :=
  List.length_map _

theorem dropped_add (m n : Nat) : ∀ q : BoundedEventQueue,
    q.dropped (m + n) = (q.dropped m).dropped n := by
  induction m with
  | zero => intro q; rw [Nat.zero_add, dropped]
  | succ m ih =>
    intro q
    rw [Nat.succ_add, dropped, dropped]
    cases hget : q.getNowait with
    | none =>
      cases n with
      | zero => rfl
      | succ n => rw [dropped, hget]
    | some p => exact ih p.2

/-- What is behind the first envelopes of a queue. -/
theorem envelopes_dropped {ys : List EventEnvelope} :
    ∀ {xs : List EventEnvelope} {q : BoundedEventQueue}, q.envelopes = xs ++ ys →
      (q.dropped xs.length).envelopes = ys
  | [], _, h => h
  | x :: xs, q, h => by
    rw [List.cons_append] at h
    obtain ⟨rest, hget, hrest, -⟩ := getNowait_of_envelopes h
    rw [List.length_cons, dropped, hget]
    exact envelopes_dropped hrest

/-- **What a batch takes**: a front of the queue, and more only while there is room and the payload
so far is below a mebibyte; it ends where there is not, or with the queue. -/
theorem takeBatch_spec :
    ∀ (room payload : Nat) (q : BoundedEventQueue),
      q.envelopes = (takeBatch room payload q).1 ++ (takeBatch room payload q).2.envelopes ∧
        (takeBatch room payload q).2 = q.dropped (takeBatch room payload q).1.length ∧
        (takeBatch room payload q).1.length ≤ room ∧
        (∀ x e y, (takeBatch room payload q).1 = x ++ e :: y →
          x.length < room ∧ payload + payloadBytes x < 1024 * 1024) ∧
        ((takeBatch room payload q).2.envelopes = [] ∨
          (takeBatch room payload q).1.length = room ∨
          1024 * 1024 ≤ payload + payloadBytes (takeBatch room payload q).1)
  | 0, payload, q => by simp [takeBatch, dropped]
  | room + 1, payload, q => by
    rw [takeBatch]
    by_cases hpayload : payload < 1024 * 1024
    · rw [if_pos hpayload]
      cases hq : q.envelopes with
      | nil =>
        rw [getNowait_eq_none hq]
        simp [dropped, hq]
      | cons e es =>
        obtain ⟨rest, hget, hes, -⟩ := getNowait_of_envelopes hq
        obtain ⟨hsplit, hdropped, hlength, hwithin, hends⟩ :=
          takeBatch_spec room (payload + e.rawPayload.length) rest
        rw [hget]
        simp only
        refine ⟨?_, ?_, ?_, ?_, ?_⟩
        · rw [List.cons_append, ← hsplit, hes]
        · rw [List.length_cons, dropped, hget]
          exact hdropped
        · rw [List.length_cons]
          omega
        · intro x f y hxy
          cases x with
          | nil => simpa [payloadBytes] using hpayload
          | cons g x =>
            rw [List.cons_append, List.cons.injEq] at hxy
            obtain ⟨rfl, hxy⟩ := hxy
            obtain ⟨hlength, hbytes⟩ := hwithin x f y hxy
            refine ⟨by rw [List.length_cons]; omega, ?_⟩
            rw [payloadBytes, List.map_cons, List.sum_cons, ← Nat.add_assoc]
            exact hbytes
        · rcases hends with hends | hends | hends
          · exact Or.inl hends
          · exact Or.inr (Or.inl (by rw [List.length_cons, hends]))
          · refine Or.inr (Or.inr ?_)
            rw [payloadBytes, List.map_cons, List.sum_cons, ← Nat.add_assoc]
            exact hends
    · rw [if_neg hpayload]
      refine ⟨rfl, rfl, by simp, by simp, Or.inr (Or.inr ?_)⟩
      simp only [payloadBytes, List.map_nil, List.sum_nil]
      omega

end BoundedEventQueue

namespace StreamSpool

/-- The outcome of a call, with another queue. -/
def withQueue (q : BoundedEventQueue) : SpoolRun StreamSpool → SpoolRun StreamSpool
  | .error (error, s) => .error (error, { s with queue := q })
  | .ok s => .ok { s with queue := q }

/-- **Receiving an envelope leaves the queue alone.** -/
theorem receive_queue (depth : Nat) (e : EventEnvelope) (s : StreamSpool) (q : BoundedEventQueue) :
    receive codec config {} depth e { s with queue := q } =
      withQueue q (receive codec config {} depth e s) := by
  have hrotate : ∀ (w : Writer) (u : StreamSpool),
      rotate codec {} w { u with queue := q } = withQueue q (rotate codec {} w u) := by
    intro w u
    unfold rotate
    simp only
    split
    · unfold sealCurrent
      simp only
      split
      · rfl
      · simp only [Bool.false_eq_true, if_false]
        rfl
    · rfl
  have hone : ∀ (before : Nat) (w : Writer) (u : StreamSpool),
      appendOne codec {} depth before e w { u with queue := q } =
        withQueue q (appendOne codec {} depth before e w u) := by
    intro before w u
    unfold appendOne
    simp only
    split
    · rfl
    · next v _ => exact hrotate v (recordFrames v [(e, v.bytesWritten - before, depth)] u)
  unfold receive ensureWriter
  simp only
  cases s.writer with
  | some w => exact hone _ _ _
  | none =>
    simp only
    cases Writer.create codec (config.header s.created) config.rotationBytes config.syncEachFrame
        config.vectorLimit {} with
    | error error => rfl
    | ok w =>
      exact hone _ w { s with
        writer := some w
        created := s.created + 1
        writerWritten := 0
        writerSynchronized := 0 }

/-- So does receiving several. -/
theorem receiveAll_queue (depth : Nat) (q : BoundedEventQueue) :
    ∀ (es : List EventEnvelope) (s : StreamSpool),
      receiveAll codec config depth es { s with queue := q } =
        withQueue q (receiveAll codec config depth es s)
  | [], s => rfl
  | e :: es, s => by
    rw [receiveAll, receiveAll, receive_queue]
    cases receive codec config {} (depth + es.length) e s with
    | error err => rfl
    | ok v => exact receiveAll_queue depth q es v

/-- **The calls of `drain_one` for the first envelopes of the queue** receive them one after the
other. -/
theorem drainOnes_receiveAll (fuel : Nat) {ys : List EventEnvelope} :
    ∀ {xs : List EventEnvelope} {s v : StreamSpool}, s.queue.envelopes = xs ++ ys →
      receiveAll codec config ys.length xs { s with queue := s.queue.dropped xs.length } = .ok v →
        drainOnes codec config {} (xs.length + fuel) s =
          (drainOnes codec config {} fuel v).map fun r => (xs.length + r.1, r.2)
  | [], s, v, _, h => by
    cases h
    simp only [List.length_nil, Nat.zero_add]
    show _ = (drainOnes codec config {} fuel s).map _
    cases drainOnes codec config {} fuel s <;> rfl
  | x :: xs, s, v, hqueue, h => by
    rw [List.cons_append] at hqueue
    obtain ⟨rest, hget, hrest, -⟩ := BoundedEventQueue.getNowait_of_envelopes hqueue
    have hdropped : s.queue.dropped (x :: xs).length = rest.dropped xs.length := by
      rw [List.length_cons, BoundedEventQueue.dropped, hget]
    have hdepth : rest.depth = ys.length + xs.length := by
      rw [← BoundedEventQueue.length_envelopes, hrest, List.length_append, Nat.add_comm]
    rw [hdropped, receiveAll] at h
    obtain ⟨u, hu, h⟩ := except_bind_eq_ok h
    have hone : receive codec config {} rest.depth x { s with queue := rest } =
        .ok { u with queue := rest } := by
      have hswap := @receive_queue codec config rest.depth x
        { s with queue := rest.dropped xs.length } rest
      rw [hdepth, hu] at hswap
      rw [hdepth]
      exact hswap
    have huqueue : u.queue = rest.dropped xs.length := by
      have hswap := @receive_queue codec config (ys.length + xs.length) x
        { s with queue := rest.dropped xs.length } (rest.dropped xs.length)
      rw [hu] at hswap
      exact congrArg StreamSpool.queue (Except.ok.inj hswap)
    have hnext := @drainOnes_receiveAll fuel _ xs { u with queue := rest } v hrest
      (by
        show receiveAll codec config ys.length xs { u with queue := rest.dropped xs.length } = _
        rw [← huqueue]
        exact h)
    have hfuel : (x :: xs).length + fuel = xs.length + fuel + 1 := by
      rw [List.length_cons]
      omega
    rw [hfuel, drainOnes, drainOne, hget]
    simp only [hone, bind, Except.bind, pure, Except.pure, if_true, hnext]
    cases drainOnes codec config {} fuel v with
    | error err => rfl
    | ok r =>
      simp only [Except.map, List.length_cons]
      congr 2
      omega

/-- A batch is empty where the queue is. -/
theorem envelopes_of_takeBatch_nil {q : BoundedEventQueue} (h : (q.takeBatch 256 0).1 = []) :
    q.envelopes = [] := by
  obtain ⟨hsplit, -, -, -, hends⟩ := BoundedEventQueue.takeBatch_spec 256 0 q
  rw [h] at hsplit hends
  rcases hends with hends | hends | hends
  · rw [hsplit, hends]
    rfl
  · cases hends
  · simp [BoundedEventQueue.payloadBytes] at hends

/-- **A queue whose envelopes can all be framed is drained alike in batches and one by one.** -/
theorem drainBatches_of_frames (hconfig : config.Valid codec) :
    ∀ {fuel fuel' : Nat} {s : StreamSpool}, s.Ready codec config → s.queue.depth < fuel →
      s.queue.depth < fuel' → (∀ e ∈ s.queue.envelopes, config.Frames codec e) →
      (∀ e ∈ s.queue.envelopes, RoundTrips codec e.canonicalMapping) →
        drainBatches codec config {} fuel s = drainOnes codec config {} fuel' s
  | 0, _, _, _, hfuel, _, _, _ => absurd hfuel (Nat.not_lt_zero _)
  | fuel + 1, fuel', s, h, hfuel, hfuel', hframes, hround => by
    obtain ⟨hsplit, hdropped, hlength, -, -⟩ := BoundedEventQueue.takeBatch_spec 256 0 s.queue
    rw [drainBatches]
    by_cases hempty : (s.queue.takeBatch 256 0).1 = []
    · obtain ⟨k, rfl⟩ : ∃ k, fuel' = k + 1 := ⟨fuel' - 1, by omega⟩
      rw [hempty] at hdropped
      have hrest : (s.queue.takeBatch 256 0).2 = s.queue := hdropped
      simp only [hempty, if_true, hrest]
      rw [drainOnes, drainOne,
        BoundedEventQueue.getNowait_eq_none (envelopes_of_takeBatch_nil hempty)]
      show (idle codec {} s >>= fun s => .ok (0, s)) = _
      cases idle codec {} s <;> rfl
    · simp only [if_neg hempty]
      have hbatch : ∀ e ∈ (s.queue.takeBatch 256 0).1, e ∈ s.queue.envelopes := fun e he => by
        rw [hsplit]
        exact List.mem_append_left _ he
      have hlater : ∀ e ∈ (s.queue.takeBatch 256 0).2.envelopes, e ∈ s.queue.envelopes :=
        fun e he => by
          rw [hsplit]
          exact List.mem_append_right _ he
      have hdepth : s.queue.depth =
          (s.queue.takeBatch 256 0).1.length + (s.queue.takeBatch 256 0).2.depth := by
        rw [← BoundedEventQueue.length_envelopes, hsplit, List.length_append,
          BoundedEventQueue.length_envelopes]
      have hpos := List.length_pos_of_ne_nil hempty
      have hready : StreamSpool.Ready codec config
          { s with queue := (s.queue.takeBatch 256 0).2 } := h
      obtain ⟨v, hv, hvready, hvqueue, -, -⟩ := receiveAll_ready hconfig
        (s.queue.takeBatch 256 0).2.depth hready (fun e he => hframes e (hbatch e he))
        (fun e he => hround e (hbatch e he))
      have hgroups := appendGroups_of_frames hconfig hready (Nat.le_refl _) hlength
        (fun e he => hframes e (hbatch e he)) (fun e he => hround e (hbatch e he))
      have hvqueue' : v.queue = (s.queue.takeBatch 256 0).2 := hvqueue
      rw [hgroups]
      simp only [hv, Except.map, bind, Except.bind]
      obtain ⟨k, rfl⟩ : ∃ k, fuel' = (s.queue.takeBatch 256 0).1.length + k :=
        ⟨fuel' - (s.queue.takeBatch 256 0).1.length, by omega⟩
      have hrest := @drainBatches_of_frames hconfig fuel _ v hvready
        (by rw [hvqueue']; omega) (show v.queue.depth < k by rw [hvqueue']; omega)
        (fun e he => hframes e (hlater e (hvqueue' ▸ he)))
        (fun e he => hround e (hlater e (hvqueue' ▸ he)))
      rw [← BoundedEventQueue.length_envelopes, hdropped] at hv
      rw [hrest, @drainOnes_receiveAll codec config k (s.queue.dropped _ |>.envelopes) _ _ _
        (by rw [← hdropped]; exact hsplit) hv]
      cases drainOnes codec config {} k v <;> rfl

/-! ## Where a drain stands -/

/-- What the batch still takes, and the write that is being gathered from it. -/
structure Tally where
  room : Nat
  payloadBytes : Nat
  group : WriteGroup
  deriving DecidableEq

/-- Before an envelope: where the batch is full, the next one begins, and with it a new group. -/
def Tally.opened (t : Tally) : Tally :=
  if t.room = 0 ∨ 1024 * 1024 ≤ t.payloadBytes then ⟨256, 0, ⟨0, t.group.level⟩⟩ else t

/-- With one more envelope. -/
def Tally.add (codec : Codec) (config : StreamConfig) (t : Tally) (e : EventEnvelope) : Tally :=
  ⟨t.opened.room - 1, t.opened.payloadBytes + e.rawPayload.length,
    t.opened.group.add codec config e⟩

/-- Where a drain of a spool begins. -/
def tally (s : StreamSpool) : Tally := ⟨256, 0, ⟨0, s.level⟩⟩

/-- **The envelope is alone in its write and last in its batch**: `drain_all` has gathered no frame
before it that is not written, and has taken no envelope behind it off the queue. -/
def Tally.Alone (t : Tally) (e : EventEnvelope) (post : List EventEnvelope) : Prop :=
  t.opened.group.groupBytes = 0 ∧
    (post = [] ∨ t.opened.room = 1 ∨ 1024 * 1024 ≤ t.opened.payloadBytes + e.rawPayload.length)

/-- Within a batch the tally only adds up. -/
theorem foldl_tally :
    ∀ {xs : List EventEnvelope} {t : Tally},
      (∀ x e y, xs = x ++ e :: y →
        x.length < t.room ∧ t.payloadBytes + BoundedEventQueue.payloadBytes x < 1024 * 1024) →
        xs.foldl (Tally.add codec config) t =
          ⟨t.room - xs.length, t.payloadBytes + BoundedEventQueue.payloadBytes xs,
            xs.foldl (WriteGroup.add codec config) t.group⟩
  | [], t, _ => rfl
  | e :: xs, t, hwithin => by
    obtain ⟨hroom, hpayload⟩ := hwithin [] e xs rfl
    have hopened : t.opened = t := if_neg (by
      simp only [BoundedEventQueue.payloadBytes, List.map_nil, List.sum_nil] at hpayload
      simp only [List.length_nil] at hroom
      omega)
    have hrest := @foldl_tally xs (t.add codec config e) (by
      intro x f y hxy
      obtain ⟨hlength, hbytes⟩ := hwithin (e :: x) f y (by rw [hxy]; rfl)
      rw [BoundedEventQueue.payloadBytes, List.map_cons, List.sum_cons] at hbytes
      rw [List.length_cons] at hlength
      simp only [Tally.add, hopened, BoundedEventQueue.payloadBytes]
      omega)
    rw [List.foldl_cons, hrest]
    simp only [Tally.add, hopened, List.length_cons, BoundedEventQueue.payloadBytes, List.map_cons,
      List.sum_cons, List.foldl_cons, Nat.add_assoc]
    congr 1
    omega

/-- The tally goes on from where the next batch begins. -/
theorem opened_foldl_tally {t t' : Tally} (h : t.opened = t'.opened) :
    ∀ xs : List EventEnvelope,
      (xs.foldl (Tally.add codec config) t).opened = (xs.foldl (Tally.add codec config) t').opened
  | [] => h
  | e :: xs => by
    have hadd : t.add codec config e = t'.add codec config e := by rw [Tally.add, h, Tally.add]
    rw [List.foldl_cons, List.foldl_cons, hadd]

/-- **Within the batch that holds it**, an envelope is alone exactly where no frame is gathered
before it and no envelope taken behind it. -/
theorem alone_iff_of_batch {s : StreamSpool} {pre taken left : List EventEnvelope}
    {bad : EventEnvelope} (hlength : (pre ++ bad :: taken).length ≤ 256)
    (hwithin : ∀ x e y, pre ++ bad :: taken = x ++ e :: y →
      x.length < 256 ∧ 0 + BoundedEventQueue.payloadBytes x < 1024 * 1024)
    (hends : left = [] ∨ (pre ++ bad :: taken).length = 256 ∨
      1024 * 1024 ≤ 0 + BoundedEventQueue.payloadBytes (pre ++ bad :: taken)) :
    (pre.foldl (Tally.add codec config) s.tally).Alone bad (taken ++ left) ↔
      (pre.foldl (WriteGroup.add codec config) ⟨0, s.level⟩).groupBytes = 0 ∧ taken = [] := by
  obtain ⟨hroom, hpayload⟩ := hwithin pre bad taken rfl
  have hfold : pre.foldl (Tally.add codec config) s.tally =
      ⟨256 - pre.length, 0 + BoundedEventQueue.payloadBytes pre,
        pre.foldl (WriteGroup.add codec config) ⟨0, s.level⟩⟩ :=
    foldl_tally (t := s.tally) fun y e z hyz =>
      hwithin y e (z ++ bad :: taken) (by rw [hyz]; simp)
  have hopened : (pre.foldl (Tally.add codec config) s.tally).opened =
      pre.foldl (Tally.add codec config) s.tally := by
    rw [hfold]
    exact if_neg (by simp only; omega)
  have hpayloads : ∀ es : List EventEnvelope, BoundedEventQueue.payloadBytes (pre ++ bad :: es) =
      BoundedEventQueue.payloadBytes pre + bad.rawPayload.length +
        BoundedEventQueue.payloadBytes es := by
    intro es
    simp only [BoundedEventQueue.payloadBytes, List.map_append, List.sum_append, List.map_cons,
      List.sum_cons]
    omega
  have hlast : (taken ++ left = [] ∨ 256 - pre.length = 1 ∨
      1024 * 1024 ≤ 0 + BoundedEventQueue.payloadBytes pre + bad.rawPayload.length) ↔
        taken = [] := by
    constructor
    · rintro (hnil | hone | hfull)
      · exact (List.append_eq_nil_iff.mp hnil).1
      · simp only [List.length_append, List.length_cons] at hlength
        exact List.eq_nil_of_length_eq_zero (by omega)
      · cases taken with
        | nil => rfl
        | cons f taken =>
          -- The loop would not have taken `f`.
          have hnext := (hwithin (pre ++ [bad]) f taken (by simp)).2
          rw [hpayloads] at hnext
          simp only [BoundedEventQueue.payloadBytes] at hnext hfull
          omega
    · rintro rfl
      rcases hends with hends | hends | hends
      · exact Or.inl hends
      · simp only [List.length_append, List.length_cons, List.length_nil] at hends
        exact Or.inr (Or.inl (by omega))
      · rw [hpayloads] at hends
        have hnone : BoundedEventQueue.payloadBytes [] = 0 := rfl
        exact Or.inr (Or.inr (by omega))
  unfold Tally.Alone
  rw [hopened, hfold]
  exact and_congr Iff.rfl hlast

/-- **Behind a whole batch**, with more queued, the tally begins anew. -/
theorem opened_of_batch {s v : StreamSpool} {batch : List EventEnvelope}
    (hwithin : ∀ x e y, batch = x ++ e :: y →
      x.length < 256 ∧ 0 + BoundedEventQueue.payloadBytes x < 1024 * 1024)
    (hends : batch.length = 256 ∨ 1024 * 1024 ≤ 0 + BoundedEventQueue.payloadBytes batch)
    (hlevel : v.level =
      batch.foldl (fun l e => l.add codec config (encodedFrame codec e).bytes.length) s.level) :
    (batch.foldl (Tally.add codec config) s.tally).opened = v.tally.opened := by
  have hfold : batch.foldl (Tally.add codec config) s.tally =
      ⟨256 - batch.length, 0 + BoundedEventQueue.payloadBytes batch,
        batch.foldl (WriteGroup.add codec config) ⟨0, s.level⟩⟩ :=
    foldl_tally (t := s.tally) hwithin
  have hgroup : (batch.foldl (WriteGroup.add codec config) ⟨0, s.level⟩).level = v.level := by
    rw [level_foldl_add, hlevel]
  rw [hfold, Tally.opened, if_pos (by simp only; omega), hgroup]
  rfl

/-- **The drain one by one raises at the first envelope that cannot be framed**, with those behind
it still queued. -/
theorem drainOnes_of_bad {s v u : StreamSpool} {pre post : List EventEnvelope}
    {bad : EventEnvelope} {error : SpoolError} {rest : BoundedEventQueue}
    (hqueue : s.queue.envelopes = pre ++ bad :: post)
    (hrest : rest = s.queue.dropped (pre ++ [bad]).length)
    (hv : receiveAll codec config (bad :: post).length pre { s with queue := rest } = .ok v)
    (hvqueue : v.queue = rest)
    (hreceive : ∀ depth, receive codec config {} depth bad v = .error (error, u)) {fuel : Nat}
    (hfuel : s.queue.depth < fuel) :
    drainOnes codec config {} fuel s = .error (error, u) := by
  have hswap := @receiveAll_queue codec config (bad :: post).length
    (s.queue.dropped pre.length) pre { s with queue := rest }
  rw [hv] at hswap
  obtain ⟨k, rfl⟩ : ∃ k, fuel = pre.length + (k + 1) := by
    refine ⟨fuel - pre.length - 1, ?_⟩
    rw [← BoundedEventQueue.length_envelopes, hqueue, List.length_append,
      List.length_cons] at hfuel
    omega
  rw [drainOnes_receiveAll (k + 1) hqueue hswap]
  obtain ⟨behind, hget, -, hbehind⟩ := BoundedEventQueue.getNowait_of_envelopes
    (BoundedEventQueue.envelopes_dropped hqueue)
  rw [← BoundedEventQueue.dropped_add] at hbehind
  rw [List.length_append, List.length_singleton, ← hbehind] at hrest
  subst hrest
  have hsame : receive codec config {} rest.depth bad { v with queue := rest } =
      .error (error, u) := by
    have hv' : { v with queue := rest } = v := by
      cases v
      cases hvqueue
      rfl
    rw [hv']
    exact hreceive _
  rw [drainOnes, drainOne]
  simp only [hget, hsame, bind, Except.bind]
  rfl

/-- **A queue with an envelope that cannot be framed**: the drain in batches raises at it. Lost with
it are the envelopes gathered before it and those taken off the queue behind it; and where there are
none of either, the drain one by one ends the same. -/
theorem drainBatches_of_bad (hconfig : config.Valid codec) {bad : EventEnvelope}
    {post : List EventEnvelope} (hbad : ¬ config.Frames codec bad) :
    ∀ {fuel fuel' : Nat} {pre : List EventEnvelope} {s : StreamSpool}, s.Ready codec config →
      s.queue.envelopes = pre ++ bad :: post → s.queue.depth < fuel → s.queue.depth < fuel' →
      (∀ e ∈ pre, config.Frames codec e) →
      (∀ e ∈ s.queue.envelopes, RoundTrips codec e.canonicalMapping) →
        ∃ kept gathered taken left u error, pre = kept ++ gathered ∧ post = taken ++ left ∧
          drainBatches codec config {} fuel s = .error (error, u) ∧ u.Ready codec config ∧
          u.queue.envelopes = left ∧ u.persisted codec = s.persisted codec ++ kept ∧
          ((pre.foldl (Tally.add codec config) s.tally).Alone bad post ↔
            gathered = [] ∧ taken = []) ∧
          (gathered = [] → taken = [] →
            drainOnes codec config {} fuel' s = .error (error, u))
  | 0, _, _, _, _, _, hfuel, _, _, _ => absurd hfuel (Nat.not_lt_zero _)
  | fuel + 1, fuel', pre, s, h, hqueue, hfuel, hfuel', hframes, hround => by
    obtain ⟨hsplit, hdropped, hlength, hwithin, hends⟩ :=
      BoundedEventQueue.takeBatch_spec 256 0 s.queue
    have hempty : (s.queue.takeBatch 256 0).1 ≠ [] := fun hnil => by
      rw [envelopes_of_takeBatch_nil hnil] at hqueue
      simp at hqueue
    rw [drainBatches]
    generalize hbatch : s.queue.takeBatch 256 0 = taking at *
    obtain ⟨batch, rest⟩ := taking
    simp only at hsplit hdropped hlength hwithin hends hempty ⊢
    have hready : StreamSpool.Ready codec config { s with queue := rest } := h
    have hroundBatch : ∀ e ∈ batch, RoundTrips codec e.canonicalMapping := fun e he =>
      hround e (by rw [hsplit]; exact List.mem_append_left _ he)
    rw [if_neg hempty]
    by_cases hmem : bad ∈ batch
    · -- The batch ends behind `taken`, and what is behind it stays queued.
      obtain ⟨x, taken, rfl, hx⟩ := List.eq_append_cons_of_mem hmem
      obtain ⟨later, hpre, hlater⟩ := exists_append_of_not_mem
        (by rw [← hqueue, hsplit, List.append_assoc]) hx
      obtain rfl : later = [] := by
        cases later with
        | nil => rfl
        | cons f later =>
          rw [List.cons_append, List.cons_append, List.cons.injEq] at hlater
          exact absurd (hframes bad (by rw [hpre, hlater.1]; simp)) hbad
      rw [List.append_nil] at hpre
      subst hpre
      rw [List.nil_append, List.cons_append, List.cons.injEq] at hlater
      obtain ⟨kept, gathered, v, u, error, hkept, hv, hgroups, huready, huqueue, hupersisted, hiff,
        hsame⟩ := appendGroups_of_bad hconfig hbad hready (Nat.le_refl _) hlength
          hframes hroundBatch
      have hkeptPre : ∀ e ∈ kept, e ∈ pre := fun e he => by
        rw [hkept]
        exact List.mem_append_left _ he
      obtain ⟨v', hv', -, hvqueue, hpersisted, -⟩ := receiveAll_ready hconfig
        (rest.depth + (gathered ++ bad :: taken).length) hready
        (fun e he => hframes e (hkeptPre e he))
        (fun e he => hroundBatch e (List.mem_append_left _ (hkeptPre e he)))
      obtain rfl : v = v' := Except.ok.inj (hv.symm.trans hv')
      refine ⟨kept, gathered, taken, rest.envelopes, u, error, hkept, hlater.2.symm, ?_, huready,
        by rw [huqueue], hupersisted.trans hpersisted, ?_, ?_⟩
      · rw [hgroups]
        rfl
      · rw [← hlater.2]
        exact (alone_iff_of_batch hlength hwithin hends).trans (and_congr hiff Iff.rfl)
      · rintro rfl rfl
        rw [List.append_nil] at hkept
        subst hkept
        simp only [List.nil_append] at hlater hv
        have hdepth : rest.depth + [bad].length = (bad :: post).length := by
          rw [← BoundedEventQueue.length_envelopes, hlater.2]
          rfl
        rw [hdepth] at hv
        exact drainOnes_of_bad hqueue hdropped hv hvqueue (hsame rfl) hfuel'
    · -- The whole batch can be framed, and the bad envelope comes in a later one.
      obtain ⟨later, hpre, hlater⟩ := exists_append_of_not_mem (by rw [← hsplit, hqueue]) hmem
      have hbatchPre : ∀ e ∈ batch, e ∈ pre := fun e he => by
        rw [hpre]
        exact List.mem_append_left _ he
      obtain ⟨v, hv, hvready, hvqueue, hvpersisted, hvlevel⟩ := receiveAll_ready hconfig rest.depth
        hready (fun e he => hframes e (hbatchPre e he)) hroundBatch
      have hvqueue' : v.queue = rest := hvqueue
      have hdepth : s.queue.depth = batch.length + rest.depth := by
        rw [← BoundedEventQueue.length_envelopes, hsplit, List.length_append,
          BoundedEventQueue.length_envelopes]
      have hpos := List.length_pos_of_ne_nil hempty
      have hgroups := appendGroups_of_frames hconfig hready (Nat.le_refl _) hlength
        (fun e he => hframes e (hbatchPre e he)) hroundBatch
      obtain ⟨k, rfl⟩ : ∃ k, fuel' = batch.length + k := ⟨fuel' - batch.length, by omega⟩
      obtain ⟨kept, gathered, taken, left, u, error, hkept, hpost, hdrain, huready, huqueue,
        hupersisted, hiff, hsame⟩ := @drainBatches_of_bad hconfig bad post hbad fuel _ _ v
          hvready (by rw [hvqueue']; exact hlater) (by rw [hvqueue']; omega)
          (show v.queue.depth < k by rw [hvqueue']; omega)
          (fun e he => hframes e (by rw [hpre]; exact List.mem_append_right _ he))
          (fun e he => hround e (by
            rw [hsplit]
            rw [hvqueue'] at he
            exact List.mem_append_right _ he))
      refine ⟨batch ++ kept, gathered, taken, left, u, error, ?_, hpost, ?_, huready, huqueue, ?_,
        ?_, ?_⟩
      · rw [hpre, hkept, List.append_assoc]
      · rw [hgroups, hv]
        simp only [Except.map, bind, Except.bind, hdrain]
      · rw [hupersisted, hvpersisted, List.append_assoc]
        rfl
      · have hfull : batch.length = 256 ∨
            1024 * 1024 ≤ 0 + BoundedEventQueue.payloadBytes batch := by
          refine hends.resolve_left fun hnil => ?_
          rw [hlater] at hnil
          simp at hnil
        have hopened := @opened_foldl_tally codec config _ _
          (opened_of_batch hwithin hfull hvlevel) later
        rw [← hiff, hpre, List.foldl_append, Tally.Alone, Tally.Alone]
        exact iff_of_eq (by rw [← hopened]; rfl)
      · intro hgathered htaken
        rw [← BoundedEventQueue.length_envelopes, hdropped] at hv
        rw [@drainOnes_receiveAll codec config k (s.queue.dropped batch.length).envelopes
          _ _ _ (by rw [← hdropped]; exact hsplit) hv, hsame hgathered htaken]
        rfl

/-! ## Drains from any spool -/

/-- An idle spool rotates where its chunk is full, and what was persisted stays. -/
theorem idle_ready {s : StreamSpool} (h : s.Ready codec config) :
    ∃ v, idle codec {} s = .ok v ∧ v.Ready codec config ∧ v.queue = s.queue ∧
      v.persisted codec = s.persisted codec := by
  cases hs : s.writer with
  | none => exact ⟨s, by rw [idle, hs], h, rfl, rfl⟩
  | some w =>
    obtain ⟨howned, es, hready⟩ := h w hs
    by_cases hfull : shouldRotate w false = true
    · obtain ⟨v, hv, hvready, hvqueue, hvpersisted, -⟩ := rotate_ready hs howned hready
      refine ⟨v, ?_, hvready, hvqueue, hvpersisted⟩
      rw [rotate, if_pos hfull] at hv
      rw [idle, hs]
      simp only [if_pos hfull]
      exact hv
    · obtain ⟨w₁, hsync, hw₁⟩ : ∃ w₁, w.syncIfDue false {} = .ok w₁ ∧ w₁ = { w with
          syncedRecordCount := if w.syncEachFrame then w.recordCount else w.syncedRecordCount } :=
        ⟨_, syncIfDue_open hready.isOpen, rfl⟩
      have hidle : idle codec {} s = .ok (observeProgress w₁ { s with writer := some w₁ }) := by
        rw [idle, hs]
        simp only [if_neg hfull, hsync]
      refine ⟨_, hidle, ?_, rfl, ?_⟩
      · intro w' hw'
        obtain rfl : w₁ = w' := Option.some.inj hw'
        subst hw₁
        exact ⟨⟨howned.header, howned.rotationBytes, howned.syncEachFrame⟩, es,
          ⟨hready.evident.congr rfl rfl rfl, hready.isOpen, hready.recordCount, hready.statistics,
            hready.bytesWritten⟩⟩
      · subst hw₁
        simp [persisted, files, observeProgress, hs]

/-- **A queue whose envelopes can all be framed is persisted whole**, in its order. -/
theorem drainEach_of_frames (hconfig : config.Valid codec) {s : StreamSpool}
    (h : s.Ready codec config) (hframes : ∀ e ∈ s.queue.envelopes, config.Frames codec e)
    (hround : ∀ e ∈ s.queue.envelopes, RoundTrips codec e.canonicalMapping) :
    ∃ n v, drainEach codec config {} s = .ok (n, v) ∧ v.Ready codec config ∧
      v.queue.envelopes = [] ∧
      v.persisted codec = s.persisted codec ++ s.queue.envelopes := by
  have hqueue : s.queue.envelopes = s.queue.envelopes ++ [] := by simp
  have hready : StreamSpool.Ready codec config
      { s with queue := s.queue.dropped s.queue.envelopes.length } := h
  obtain ⟨v, hv, hvready, hvqueue, hvpersisted, -⟩ := receiveAll_ready hconfig
    ([] : List EventEnvelope).length hready hframes hround
  have hnil : v.queue.envelopes = [] := by
    rw [hvqueue]
    exact BoundedEventQueue.envelopes_dropped hqueue
  obtain ⟨u, hu, huready, huqueue, hupersisted⟩ := idle_ready hvready
  refine ⟨s.queue.envelopes.length + 0, u, ?_, huready, by rw [huqueue, hnil], ?_⟩
  · rw [drainEach, ← BoundedEventQueue.length_envelopes, drainOnes_receiveAll 1 hqueue hv]
    rw [drainOnes, drainOne, BoundedEventQueue.getNowait_eq_none hnil, hu]
    rfl
  · rw [hupersisted, hvpersisted]
    rfl

/-- Of envelopes that cannot all be framed, one is the first. -/
theorem exists_bad : ∀ {es : List EventEnvelope}, ¬ (∀ e ∈ es, config.Frames codec e) →
    ∃ pre bad post, es = pre ++ bad :: post ∧ (∀ e ∈ pre, config.Frames codec e) ∧
      ¬ config.Frames codec bad
  | [], h => absurd (by simp) h
  | e :: es, h => by
    by_cases he : config.Frames codec e
    · have hes : ¬ ∀ f ∈ es, config.Frames codec f := fun hall => h fun f hf => by
        rcases List.mem_cons.mp hf with rfl | hf
        · exact he
        · exact hall f hf
      obtain ⟨pre, bad, post, rfl, hpre, hbad⟩ := exists_bad hes
      refine ⟨e :: pre, bad, post, rfl, ?_, hbad⟩
      intro f hf
      rcases List.mem_cons.mp hf with rfl | hf
      · exact he
      · exact hpre f hf
    · exact ⟨[], e, es, rfl, by simp, he⟩

/-- The spool that a call leaves, whether it raised or not. -/
def left : SpoolRun (Nat × StreamSpool) → StreamSpool
  | .error (_, s) => s
  | .ok (_, s) => s

/-- The spools of a running stream: made without a writer, filled by whatever is admitted to the
queue, and drained again and again. -/
inductive Reached (codec : Codec) (config : StreamConfig) : StreamSpool → Prop
  | fresh : Reached codec config { queue := ⟨[], 0⟩ }
  | queued {s : StreamSpool} (q : BoundedEventQueue) : Reached codec config s →
      (∀ e ∈ q.envelopes, RoundTrips codec e.canonicalMapping) →
      Reached codec config { s with queue := q }
  | drained {s : StreamSpool} {io : SpoolIo} : Reached codec config s → io.Steady →
      Reached codec config (left (drainAll codec config io s))

/-- **The writer of a running stream is ready**, and its queue can be read back. -/
theorem Reached.ready (hconfig : config.Valid codec) {s : StreamSpool}
    (h : Reached codec config s) :
    s.Ready codec config ∧ ∀ e ∈ s.queue.envelopes, RoundTrips codec e.canonicalMapping := by
  induction h with
  | fresh =>
    refine ⟨?_, by simp [BoundedEventQueue.envelopes]⟩
    intro w hw
    cases hw
  | queued q _ hround ih => exact ⟨ih.1, hround⟩
  | @drained s io _ hio ih =>
    obtain ⟨hready, hround⟩ := ih
    rw [drainAll_steady hio]
    by_cases hframes : ∀ e ∈ s.queue.envelopes, config.Frames codec e
    · obtain ⟨n, v, hv, hvready, hvqueue, -⟩ := drainEach_of_frames hconfig hready hframes hround
      rw [drainAll, drainBatches_of_frames hconfig hready (Nat.lt_succ_self _)
        (Nat.lt_succ_self _) hframes hround]
      rw [drainEach] at hv
      rw [hv]
      refine ⟨hvready, ?_⟩
      show ∀ e ∈ v.queue.envelopes, _
      simp [hvqueue]
    · obtain ⟨pre, bad, post, hqueue, hpre, hbad⟩ := exists_bad hframes
      obtain ⟨kept, gathered, taken, later, u, error, -, hpost, hdrain, huready, huqueue, -⟩ :=
        drainBatches_of_bad hconfig hbad hready hqueue (Nat.lt_succ_self _) (Nat.lt_succ_self _)
          hpre hround
      rw [drainAll, hdrain]
      refine ⟨huready, ?_⟩
      show ∀ e ∈ u.queue.envelopes, _
      rw [huqueue]
      intro e he
      refine hround e ?_
      rw [hqueue, hpost]
      simp [he]

/-- **A drain in batches against one envelope by envelope**, from the spool `s`: the same chunks
with the same rotations; all of a queue that can be framed is persisted; and where an envelope
cannot be framed, those before it are persisted and those behind it persisted or still queued. -/
structure DrainsAlike (codec : Codec) (config : StreamConfig) (s one all : StreamSpool) : Prop where
  files : all.files = one.files
  seals : all.seals = one.seals
  whole : (∀ e ∈ s.queue.envelopes, config.Frames codec e) →
    all.queue.envelopes = [] ∧
      all.persisted codec = s.persisted codec ++ s.queue.envelopes
  others : ∀ pre bad post, s.queue.envelopes = pre ++ bad :: post →
    (∀ e ∈ pre, config.Frames codec e) → ¬ config.Frames codec bad →
      ∃ written, all.persisted codec = s.persisted codec ++ written ∧ pre <+: written ∧
        (pre ++ post).Subperm (written ++ all.queue.envelopes)

/-- Where the envelopes around a bad one survive a drain in batches, it was alone. -/
theorem alone_of_others (hconfig : config.Valid codec) {s : StreamSpool}
    (hreached : Reached codec config s) {pre post : List EventEnvelope} {bad : EventEnvelope}
    (hqueue : s.queue.envelopes = pre ++ bad :: post)
    (hpre : ∀ e ∈ pre, config.Frames codec e) (hbad : ¬ config.Frames codec bad)
    {written : List EventEnvelope}
    (hwritten : (left (drainAll codec config {} s)).persisted codec = s.persisted codec ++ written)
    (hinitial : pre <+: written)
    (hothers : (pre ++ post).Subperm
      (written ++ (left (drainAll codec config {} s)).queue.envelopes)) :
    (pre.foldl (Tally.add codec config) s.tally).Alone bad post := by
  obtain ⟨hready, hround⟩ := hreached.ready hconfig
  obtain ⟨kept, gathered, taken, later, u, error, hkept, hpost, hdrain, -, huqueue, hupersisted,
    hiff, -⟩ := drainBatches_of_bad hconfig hbad hready hqueue (Nat.lt_succ_self _)
      (Nat.lt_succ_self _) hpre hround
  rw [drainAll, hdrain] at hwritten hothers
  have hsame : written = kept := by
    have hboth : s.persisted codec ++ written = s.persisted codec ++ kept :=
      hwritten.symm.trans hupersisted
    exact List.append_cancel_left hboth
  subst hsame
  have hlengths := hinitial.length_le
  have hcounts := hothers.length_le
  simp only [left, huqueue, hpost, hkept, List.length_append] at hlengths hcounts
  refine hiff.mpr ⟨List.eq_nil_of_length_eq_zero ?_, List.eq_nil_of_length_eq_zero ?_⟩
  · omega
  · omega

/--
**The drain in batches agrees with the drain one by one exactly where the first envelope that cannot
be framed is alone**: nothing gathered before it is unwritten, and nothing behind it is taken off
the queue with it. How either drain's writes are cut does not matter.
-/
theorem drain_agrees_iff (hconfig : config.Valid codec) {s : StreamSpool}
    (hreached : Reached codec config s) {io io' : SpoolIo} (hio : io.Steady) (hio' : io'.Steady) :
    DrainsAlike codec config s (left (drainEach codec config io s))
        (left (drainAll codec config io' s)) ↔
      ∀ pre bad post, s.queue.envelopes = pre ++ bad :: post →
        (∀ e ∈ pre, config.Frames codec e) → ¬ config.Frames codec bad →
          (pre.foldl (Tally.add codec config) s.tally).Alone bad post := by
  rw [drainEach_steady hio, drainAll_steady hio']
  obtain ⟨hready, hround⟩ := hreached.ready hconfig
  constructor
  · intro halike pre bad post hqueue hpre hbad
    obtain ⟨written, hwritten, hinitial, hothers⟩ := halike.others pre bad post hqueue hpre hbad
    exact alone_of_others hconfig hreached hqueue hpre hbad hwritten hinitial hothers
  · intro halone
    by_cases hframes : ∀ e ∈ s.queue.envelopes, config.Frames codec e
    · obtain ⟨n, v, hv, -, hvqueue, hvpersisted⟩ :=
        drainEach_of_frames hconfig hready hframes hround
      have hsame : drainAll codec config {} s = drainEach codec config {} s :=
        drainBatches_of_frames hconfig hready (Nat.lt_succ_self _) (Nat.lt_succ_self _) hframes
          hround
      rw [hsame, hv]
      refine ⟨rfl, rfl, fun _ => ⟨hvqueue, hvpersisted⟩, ?_⟩
      intro pre bad post hqueue _ hbad
      exact absurd (hframes bad (by rw [hqueue]; simp)) hbad
    · have hcase : ∀ pre bad post, s.queue.envelopes = pre ++ bad :: post →
          (∀ e ∈ pre, config.Frames codec e) → ¬ config.Frames codec bad →
            ∃ u error, drainAll codec config {} s = .error (error, u) ∧
              drainEach codec config {} s = .error (error, u) ∧
              u.queue.envelopes = post ∧ u.persisted codec = s.persisted codec ++ pre := by
        intro pre bad post hqueue hpre hbad
        obtain ⟨kept, gathered, taken, later, u, error, hkept, hpost, hdrain, -, huqueue,
          hupersisted, hiff, hsame⟩ := drainBatches_of_bad hconfig hbad hready hqueue
            (Nat.lt_succ_self _) (Nat.lt_succ_self _) hpre hround
        obtain ⟨rfl, rfl⟩ := hiff.mp (halone pre bad post hqueue hpre hbad)
        rw [List.append_nil] at hkept
        rw [List.nil_append] at hpost
        exact ⟨u, error, hdrain, hsame rfl rfl, by rw [huqueue, hpost], by rw [hupersisted, hkept]⟩
      obtain ⟨pre, bad, post, hqueue, hpre, hbad⟩ := exists_bad hframes
      obtain ⟨u, error, hall, hone, -, -⟩ := hcase pre bad post hqueue hpre hbad
      rw [hall, hone]
      refine ⟨rfl, rfl, fun hall => absurd hall hframes, ?_⟩
      intro pre' bad' post' hqueue' hpre' hbad'
      obtain ⟨u', error', hall', -, huqueue, hupersisted⟩ :=
        hcase pre' bad' post' hqueue' hpre' hbad'
      obtain ⟨-, rfl⟩ := Prod.mk.inj (Except.error.inj (hall.symm.trans hall'))
      refine ⟨pre', hupersisted, List.prefix_rfl, ?_⟩
      show (pre' ++ post').Subperm (pre' ++ u.queue.envelopes)
      rw [huqueue]

end StreamSpool

end

/-! ## Two frames and an oversized one -/

namespace StreamSpool

/-- The stream of the sample envelopes, with frames of a kibibyte at most. -/
def sampleStream (rotationBytes : Nat) : StreamConfig where
  market := "spot"
  symbol := "BTCUSDT"
  stream := "diff_depth"
  collectorInstanceId := "c1"
  collectorVersion := "1"
  rotationBytes := rotationBytes
  syncEachFrame := false
  vectorLimit := some 16
  maxFrameBytes := 1024
  chunkId
    | 0 => ⟨List.replicate 16 1, rfl⟩
    | _ + 1 => ⟨List.replicate 16 2, rfl⟩
  createdAtUtcNs _ := 1700000000000000000

/-- An envelope whose payload alone is over the limit. -/
def oversizedEnvelope : EventEnvelope :=
  { firstSampleEnvelope with rawPayload := List.replicate 1025 0x20 }

/-- A spool whose queue holds some envelopes. -/
def queuedSpool (es : List EventEnvelope) : StreamSpool where
  queue := ⟨es.map fun e => (e, 8192), 8192 * es.length⟩

theorem envelopes_queuedSpool (es : List EventEnvelope) :
    (queuedSpool es).queue.envelopes = es := by
  simp [queuedSpool, BoundedEventQueue.envelopes, Function.comp_def]

theorem valid_sampleStream (rotationBytes : Nat) :
    (sampleStream rotationBytes).Valid referenceCodec := by
  have hheaders : ∀ n, (sampleStream rotationBytes).header n = (sampleStream 0).header 0 ∨
      (sampleStream rotationBytes).header n = (sampleStream 0).header 1
    | 0 => Or.inl rfl
    | _ + 1 => Or.inr rfl
  have hvalid : ∀ h ∈ [(sampleStream 0).header 0, (sampleStream 0).header 1],
      validateChunkHeader h = .ok () ∧
        (referenceCodec.dumps h.canonicalMapping).length ≤ maxHeaderBodyBytes ∧
        RoundTrips referenceCodec h.canonicalMapping := by
    decide +kernel
  have hall : ∀ n, validateChunkHeader ((sampleStream rotationBytes).header n) = .ok () ∧
      (referenceCodec.dumps ((sampleStream rotationBytes).header n).canonicalMapping).length ≤
        maxHeaderBodyBytes ∧
      RoundTrips referenceCodec ((sampleStream rotationBytes).header n).canonicalMapping :=
    fun n => hvalid _ (by rcases hheaders n with h | h <;> simp [h])
  exact ⟨fun n => (hall n).1, fun n => (hall n).2.1, fun n => (hall n).2.2⟩

theorem frames_sampleEnvelopes (rotationBytes : Nat) :
    ∀ e ∈ sampleEnvelopes, (sampleStream rotationBytes).Frames referenceCodec e := by
  intro e he
  refine ⟨matches_sampleEnvelopes e he, _, encodeFrame_of_fits ?_ ?_⟩
  · revert e
    show ∀ e ∈ sampleEnvelopes, (e.rawPayload.length : Int) ≤ 1024
    decide
  · revert e
    show ∀ e ∈ sampleEnvelopes, ((encodeEnvelope referenceCodec e).length : Int) ≤ 1024
    decide +kernel

theorem not_frames_oversizedEnvelope (rotationBytes : Nat) :
    ¬ (sampleStream rotationBytes).Frames referenceCodec oversizedEnvelope := by
  rintro ⟨-, bytes, hbytes⟩
  have hlong : (sampleStream rotationBytes).maxFrameBytes <
      (oversizedEnvelope.rawPayload.length : Int) := by
    show (1024 : Int) < ((List.replicate 1025 (0x20 : UInt8)).length : Int)
    rw [List.length_replicate]
    decide
  rw [encodeFrame, if_pos hlong] at hbytes
  cases hbytes

theorem roundTrips_oversizedEnvelope :
    RoundTrips referenceCodec oversizedEnvelope.canonicalMapping := by
  decide +kernel

/-- The queued envelopes of the samples can all be read back. -/
theorem reached_queuedSpool {es : List EventEnvelope} (rotationBytes : Nat)
    (h : ∀ e ∈ es, e ∈ sampleEnvelopes ∨ e = oversizedEnvelope) :
    Reached referenceCodec (sampleStream rotationBytes) (queuedSpool es) := by
  refine Reached.queued (queuedSpool es).queue .fresh fun e he => ?_
  rw [envelopes_queuedSpool] at he
  rcases h e he with hsample | rfl
  · exact roundTrips_sampleEnvelopes e hsample
  · exact roundTrips_oversizedEnvelope

/-- A run whose writes are cut. -/
def cutIo : SpoolIo where
  append _ _ := { writes := [.wrote 3, .wrote 40] }

theorem steady_uncut : SpoolIo.Steady {} where
  create _ := ⟨rfl, progressing_nil, rfl, rfl, rfl⟩
  append _ _ := ⟨progressing_nil, by simp, rfl, rfl, rfl⟩
  deadline _ _ := rfl
  syncDue _ _ := rfl
  sync _ _ := rfl
  close _ := rfl
  statFails _ := rfl
  sealFails _ := rfl

theorem steady_cutIo : cutIo.Steady where
  create _ := ⟨rfl, progressing_nil, rfl, rfl, rfl⟩
  append _ _ := ⟨by simp [Progressing, cutIo], by simp [cutIo], rfl, rfl, rfl⟩
  deadline _ _ := rfl
  syncDue _ _ := rfl
  sync _ _ := rfl
  close _ := rfl
  statFails _ := rfl
  sealFails _ := rfl

/-- Of the samples, only the oversized envelope cannot be framed. -/
theorem eq_of_bad {rotationBytes : Nat} {es pre post : List EventEnvelope} {bad : EventEnvelope}
    (h : sampleEnvelopes ++ oversizedEnvelope :: es = pre ++ bad :: post)
    (hpre : ∀ e ∈ pre, (sampleStream rotationBytes).Frames referenceCodec e)
    (hbad : ¬ (sampleStream rotationBytes).Frames referenceCodec bad) :
    pre = sampleEnvelopes ∧ bad = oversizedEnvelope ∧ post = es := by
  obtain ⟨later, hsplit, hlater⟩ := exists_append_of_not_mem h fun hmem =>
    hbad (frames_sampleEnvelopes rotationBytes bad hmem)
  cases later with
  | nil =>
    rw [List.nil_append, List.cons.injEq] at hlater
    exact ⟨by rw [hsplit, List.append_nil], hlater.1.symm, hlater.2.symm⟩
  | cons f later =>
    rw [List.cons_append, List.cons.injEq] at hlater
    exact absurd (hpre oversizedEnvelope (by rw [hsplit, hlater.1]; simp))
      (not_frames_oversizedEnvelope rotationBytes)

/-- Where a frame fills a chunk, the oversized envelope behind two frames is alone; where a chunk
takes a mebibyte it is not, and the two frames are lost with it. -/
theorem drain_agrees_iff_sample :
    DrainsAlike referenceCodec (sampleStream 1)
      (queuedSpool (sampleEnvelopes ++ [oversizedEnvelope]))
        (left (drainEach referenceCodec (sampleStream 1) cutIo
          (queuedSpool (sampleEnvelopes ++ [oversizedEnvelope]))))
        (left (drainAll referenceCodec (sampleStream 1) {}
          (queuedSpool (sampleEnvelopes ++ [oversizedEnvelope])))) ∧
      ¬ DrainsAlike referenceCodec (sampleStream 1048576)
        (queuedSpool (sampleEnvelopes ++ [oversizedEnvelope]))
        (left (drainEach referenceCodec (sampleStream 1048576) cutIo
          (queuedSpool (sampleEnvelopes ++ [oversizedEnvelope]))))
        (left (drainAll referenceCodec (sampleStream 1048576) {}
          (queuedSpool (sampleEnvelopes ++ [oversizedEnvelope])))) := by
  have hmem : ∀ e ∈ sampleEnvelopes ++ [oversizedEnvelope],
      e ∈ sampleEnvelopes ∨ e = oversizedEnvelope := by simp
  have hreached := fun rotationBytes => reached_queuedSpool rotationBytes hmem
  constructor
  · refine (drain_agrees_iff (valid_sampleStream 1) (hreached 1) steady_cutIo steady_uncut).mpr ?_
    intro pre bad post hqueue hpre hbad
    rw [envelopes_queuedSpool] at hqueue
    obtain ⟨rfl, rfl, rfl⟩ := eq_of_bad hqueue hpre hbad
    have hgroup : (sampleEnvelopes.foldl (Tally.add referenceCodec (sampleStream 1))
        (queuedSpool []).tally).opened.group.groupBytes = 0 := by
      decide +kernel
    exact ⟨hgroup, Or.inl rfl⟩
  · intro halike
    have halone := (drain_agrees_iff (valid_sampleStream 1048576) (hreached 1048576) steady_cutIo
      steady_uncut).mp halike sampleEnvelopes oversizedEnvelope [] (envelopes_queuedSpool _)
      (frames_sampleEnvelopes _) (not_frames_oversizedEnvelope _)
    have hgroup : (sampleEnvelopes.foldl (Tally.add referenceCodec (sampleStream 1048576))
        (queuedSpool []).tally).opened.group.groupBytes ≠ 0 := by
      decide +kernel
    exact hgroup halone.1

/-- **A drain in batches loses envelopes around one that cannot be framed**, here an oversized one
with two frames before it and two behind it. -/
theorem drain_loses_batch :
    ¬ ∀ (codec : Codec) (config : StreamConfig) (s : StreamSpool) (io io' : SpoolIo),
      config.Valid codec → Reached codec config s → io.Steady → io'.Steady →
        DrainsAlike codec config s (left (drainEach codec config io s))
          (left (drainAll codec config io' s)) := by
  intro hall
  have hmem : ∀ e ∈ sampleEnvelopes ++ oversizedEnvelope :: sampleEnvelopes,
      e ∈ sampleEnvelopes ∨ e = oversizedEnvelope := by
    intro e he
    simp only [List.mem_append, List.mem_cons] at he
    tauto
  have hreached := reached_queuedSpool 1048576 hmem
  have halike := hall _ _ _ {} {} (valid_sampleStream 1048576) hreached steady_uncut steady_uncut
  have hqueue := envelopes_queuedSpool (sampleEnvelopes ++ oversizedEnvelope :: sampleEnvelopes)
  obtain ⟨written, hwritten, hinitial, hothers⟩ := halike.others _ _ _ hqueue
    (frames_sampleEnvelopes _) (not_frames_oversizedEnvelope _)
  have halone := alone_of_others (valid_sampleStream 1048576) hreached hqueue
    (frames_sampleEnvelopes _) (not_frames_oversizedEnvelope _) hwritten hinitial hothers
  have hgroup : (sampleEnvelopes.foldl (Tally.add referenceCodec (sampleStream 1048576))
      (queuedSpool []).tally).opened.group.groupBytes ≠ 0 := by
    decide +kernel
  exact hgroup halone.1

end StreamSpool

end MarketDataRecorder
