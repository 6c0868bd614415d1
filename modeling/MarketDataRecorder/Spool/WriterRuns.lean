import MarketDataRecorder.Spool.ReferenceCodec
import MarketDataRecorder.Spool.WriterEvidence

/-!
# Runs of the chunk writer

Every method of the writer keeps its evidence, or refuses and changes nothing, or ends its claim to
clean evidence for good.

* `call_inv`, `run_inv` — over one call and over a run
* `cleanSealEvidence_eq_scan` — evidence that is issued is the evidence of a scan, and after a
  failure none is issued
-/

namespace MarketDataRecorder

/-! ## Methods -/

/-- A failure of a write, a commit, an `fsync`, a `close` or the observer, as
opposed to a refusal. -/
def WriterError.isFailure : WriterError → Bool
  | .commitError _ => true
  | .osError _ => true
  | .observerError => true
  | .catalogError => true
  | .runtimeError _ => false
  | .valueError _ => false
  | .chunkFormatError _ => false

/-- A method that raised either refused and changed nothing, or ended the claim to evidence. -/
def Refused (w : Writer) (p : WriterError × Writer) : Prop :=
  (p.2 = w ∧ p.1.isFailure = false) ∨ ¬ p.2.Live

section

variable {codec : Codec} {w w' : Writer} {es : List EventEnvelope}

/-- A sequence raises at its first part or at its second. -/
theorem except_bind_eq_error {ε α β : Type} {x : Except ε α} {f : α → Except ε β} {e : ε}
    (h : (x >>= f) = .error e) : x = .error e ∨ ∃ a, x = .ok a ∧ f a = .error e := by
  cases x with
  | error e' => exact Or.inl (by simpa [bind, Except.bind] using h)
  | ok a => exact Or.inr ⟨a, rfl, h⟩

/-- A writer that is not open and clean refuses and stays as it is. -/
theorem refused_of_requireOpenClean {p : WriterError × Writer}
    (h : w.requireOpenClean = .error p) : Refused w p := by
  obtain ⟨e, v⟩ := p
  obtain ⟨hw, message, he⟩ := requireOpenClean_eq_error h
  exact Or.inl ⟨hw, by rw [he]; rfl⟩

/-- A call that needs a live writer raises on any other and leaves it as it is. -/
theorem requireOpenClean_of_not_live (h : ¬ w.Live) :
    ∃ message, w.requireOpenClean = .error (.runtimeError message, w) := by
  unfold Writer.requireOpenClean
  by_cases hc : w.closed = true
  · exact ⟨_, by rw [if_pos hc]⟩
  · have hs : w.state ≠ .openClean := fun hs => h (Or.inl hs)
    exact ⟨_, by rw [if_neg hc, if_pos hs]⟩

/-- A sync that returns has only moved the synced count up to the record count. -/
theorem sync_eq_ok {io : SyncIo} (h : w.sync io = .ok w') :
    w' = { w with syncedRecordCount := w.recordCount } ∧ w.closed = false ∧
      w.state = .openClean := by
  unfold Writer.sync at h
  obtain ⟨v, hv, h⟩ := except_bind_eq_ok h
  obtain ⟨rfl, hc, hs⟩ := requireOpenClean_eq_ok hv
  obtain ⟨u, hu, h⟩ := except_bind_eq_ok h
  have hu' := poisoning_eq_ok.mp hu
  split at hu'
  · cases hu'
  · split at hu'
    · cases hu'
    · cases hu'
      cases h
      exact ⟨rfl, hc, hs⟩

/-- A sync raises on a writer that refuses it, or leaves the writer poisoned. -/
theorem sync_eq_error {io : SyncIo} {p : WriterError × Writer} (h : w.sync io = .error p) :
    w.requireOpenClean = .error p ∨ ¬ p.2.Live := by
  unfold Writer.sync at h
  rcases except_bind_eq_error h with h | ⟨v, -, h⟩
  · exact Or.inl h
  · rcases except_bind_eq_error h with h | ⟨u, -, h⟩
    · exact Or.inr (not_live_of_poisoning (e := p.1) h)
    · cases h

/-- A sync leaves the bytes as the frames of the appended records. -/
theorem Evident.sync {io : SyncIo} (h : Evident codec w es) (hs : w.sync io = .ok w') :
    Evident codec w' es := by
  obtain ⟨rfl, -, -⟩ := sync_eq_ok hs
  exact h.congr rfl rfl rfl

/-- A sync that is not due does nothing. -/
theorem syncIfDue_eq_ok {due : Bool} {io : SyncIo} (h : w.syncIfDue due io = .ok w') :
    w' = w ∨ w.sync io = .ok w' := by
  unfold Writer.syncIfDue at h
  split at h
  · exact Or.inr h
  · exact Or.inl (by simpa using h.symm)

/-- A sync that is due keeps the evidence; one that is not changes nothing. -/
theorem Evident.syncIfDue {due : Bool} {io : SyncIo} (h : Evident codec w es)
    (hs : w.syncIfDue due io = .ok w') : Evident codec w' es := by
  rcases syncIfDue_eq_ok hs with rfl | hs
  · exact h
  · exact h.sync hs

/-- Where a due sync raises, the sync raised. -/
theorem syncIfDue_eq_error {due : Bool} {io : SyncIo} {p : WriterError × Writer}
    (h : w.syncIfDue due io = .error p) : w.sync io = .error p := by
  unfold Writer.syncIfDue at h
  split at h
  · exact h
  · cases h

/-- Syncing a writer that is open and clean raises only by failing. -/
theorem not_live_of_syncIfDue {due : Bool} {io : SyncIo} {p : WriterError × Writer}
    (hc : w.closed = false) (hs : w.state = .openClean) (h : w.syncIfDue due io = .error p) :
    ¬ p.2.Live := by
  rcases sync_eq_error (syncIfDue_eq_error h) with h | h
  · rw [requireOpenClean_of_open hc hs] at h
    cases h
  · exact h

/-- What a committed group of frames leaves, if it returns. -/
theorem commit_group_eq_ok {ps : List PreparedFrame} {written : WriterRun} {message : String}
    {b : Bool} (hwritten : ∀ v, written = .ok v →
      v = w.wrote (ps.map PreparedFrame.exactBytes).flatten)
    (h : Writer.poisoning (do
      let v ← written
      let v ← v.commitAll ps
      v.checkCommitted message b) = .ok w') :
    w' = ps.foldl Writer.committed (w.wrote (ps.map PreparedFrame.exactBytes).flatten) := by
  obtain ⟨v, hv, h⟩ := except_bind_eq_ok (poisoning_eq_ok.mp h)
  obtain ⟨u, hu, h⟩ := except_bind_eq_ok h
  rw [checkCommitted_eq_ok h, commitAll_eq_ok hu, hwritten v hv]

/-! ### `append` -/

/-- **`append` extends the evidence by its envelope.** -/
theorem Evident.append {e : EventEnvelope} {io : AppendIo} {n : Nat} (h : Evident codec w es)
    (hround : RoundTrips codec e.canonicalMapping) (ha : w.append codec e io = .ok (n, w')) :
    Evident codec w' (es ++ [e]) := by
  unfold Writer.append at ha
  obtain ⟨v, hv, ha⟩ := except_bind_eq_ok ha
  obtain ⟨rfl, -, -⟩ := requireOpenClean_eq_ok hv
  split at ha
  · cases ha
  · next p hp =>
    obtain ⟨henvelope, hprepared⟩ := prepareFrame_eq_ok hround hp
    obtain ⟨v₁, hv₁, ha⟩ := except_bind_eq_ok ha
    obtain ⟨v₂, hv₂, ha⟩ := except_bind_eq_ok ha
    obtain ⟨v₃, hv₃, ha⟩ := except_bind_eq_ok ha
    obtain ⟨v₄, hv₄, hv₂⟩ := except_bind_eq_ok (poisoning_eq_ok.mp hv₂)
    have hchain : Chained codec w.header w.previousConnectionId w.previousCaptureFlags [p] :=
      ⟨hprepared, trivial⟩
    have hcommit := h.commit hchain
    simp only [List.map_cons, List.map_nil, List.flatten_cons, List.flatten_nil, List.append_nil,
      List.foldl_cons, List.foldl_nil, henvelope] at hcommit
    rw [← writeAll_eq_ok hv₁, ← commitPreparedFrame_eq_ok hv₄,
      ← checkCommitted_eq_ok hv₂] at hcommit
    cases ha
    exact hcommit.syncIfDue hv₃

/-- **A raising append leaves the writer refused or poisoned.** -/
theorem refused_of_append {e : EventEnvelope} {io : AppendIo} {p : WriterError × Writer}
    (ha : w.append codec e io = .error p) : Refused w p := by
  unfold Writer.append at ha
  rcases except_bind_eq_error ha with ha | ⟨v, hv, ha⟩
  · exact refused_of_requireOpenClean ha
  · obtain ⟨rfl, hc, hs⟩ := requireOpenClean_eq_ok hv
    split at ha
    · next error herror =>
      cases ha
      refine Or.inl ⟨rfl, ?_⟩
      unfold Writer.prepareFrame at herror
      split at herror
      · cases herror; rfl
      · split at herror
        · cases herror; rfl
        · cases herror
    · rcases except_bind_eq_error ha with ha | ⟨v₁, hv₁, ha⟩
      · exact Or.inr (not_live_of_poisoning (e := p.1) ha)
      rcases except_bind_eq_error ha with ha | ⟨v₂, hv₂, ha⟩
      · exact Or.inr (not_live_of_poisoning (e := p.1) ha)
      rcases except_bind_eq_error ha with ha | ⟨v₃, -, ha⟩
      · obtain ⟨v₄, hv₄, hv₂⟩ := except_bind_eq_ok (poisoning_eq_ok.mp hv₂)
        have hv₅ := commitPreparedFrame_eq_ok hv₄
        rw [writeAll_eq_ok hv₁] at hv₅
        rw [checkCommitted_eq_ok hv₂, hv₅] at ha
        refine Or.inr (not_live_of_syncIfDue ?_ ?_ ha)
        · exact hc
        · exact hs
      · cases ha

/-! ### `append_batch` -/

/-- **`append_batch` extends the evidence by some of its envelopes.** -/
theorem Evident.appendBatch {fs : List EventEnvelope} {io : AppendIo} {ns : List Nat}
    (h : Evident codec w es) (hround : ∀ e ∈ fs, RoundTrips codec e.canonicalMapping)
    (ha : w.appendBatch codec fs io = .ok (ns, w')) : ∃ es', Evident codec w' es' := by
  unfold Writer.appendBatch at ha
  obtain ⟨v, hv, ha⟩ := except_bind_eq_ok ha
  obtain ⟨rfl, -, -⟩ := requireOpenClean_eq_ok hv
  cases fs with
  | nil =>
    cases ha
    exact ⟨es, h⟩
  | cons e rest =>
    simp only at ha
    split at ha
    · obtain ⟨⟨n, v₁⟩, hv₁, ha⟩ := except_bind_eq_ok ha
      cases ha
      exact ⟨es ++ [e], h.append (hround e List.mem_cons_self) hv₁⟩
    · split at ha
      · cases ha
      · next ps hps =>
        have hchain := prepareBatch_eq_ok
          (fun e he => hround e (List.mem_of_mem_take he))
            (show Chained _ _ _ _ [] from trivial) hps
        obtain ⟨v₁, hv₁, ha⟩ := except_bind_eq_ok ha
        obtain ⟨v₂, hv₂, ha⟩ := except_bind_eq_ok ha
        have hv₃ := commit_group_eq_ok (fun _ hw => writeVectors_eq_ok hw) hv₁
        cases ha
        have hcommit := h.commit hchain
        rw [← hv₃] at hcommit
        exact ⟨_, hcommit.syncIfDue hv₂⟩

/-- Preparing a batch writes nothing: its errors are no failures of the file. -/
theorem refused_of_prepareBatch {error : WriterError} :
    ∀ {fs : List EventEnvelope} {timeUp : List Bool} {ps : List PreparedFrame} {n : Nat},
      w.prepareBatch codec fs timeUp ps n = .error error → error.isFailure = false
  | [], _, _, _, h => by cases h
  | e :: rest, timeUp, ps, n, h => by
    rw [Writer.prepareBatch] at h
    rcases except_bind_eq_error h with h | ⟨frame, -, h⟩
    · unfold Writer.prepareFrame at h
      split at h
      · cases h; rfl
      · split at h
        · cases h; rfl
        · cases h
    · simp only at h
      split at h
      · cases h
      · exact refused_of_prepareBatch h

/-- A raising batch leaves the writer refused or poisoned. -/
theorem refused_of_appendBatch {fs : List EventEnvelope} {io : AppendIo}
    {p : WriterError × Writer} (ha : w.appendBatch codec fs io = .error p) : Refused w p := by
  unfold Writer.appendBatch at ha
  rcases except_bind_eq_error ha with ha | ⟨v, hv, ha⟩
  · exact refused_of_requireOpenClean ha
  · obtain ⟨rfl, hc, hs⟩ := requireOpenClean_eq_ok hv
    split at ha
    · cases ha
    · split at ha
      · rcases except_bind_eq_error ha with ha | ⟨r, -, ha⟩
        · exact refused_of_append ha
        · cases ha
      · split at ha
        · next herror =>
          cases ha
          exact Or.inl ⟨rfl, refused_of_prepareBatch herror⟩
        · next ps hps =>
          rcases except_bind_eq_error ha with ha | ⟨v₁, hv₁, ha⟩
          · exact Or.inr (not_live_of_poisoning (e := p.1) ha)
          rcases except_bind_eq_error ha with ha | ⟨v₂, -, ha⟩
          · have hv₂ := commit_group_eq_ok (fun _ hw => writeVectors_eq_ok hw) hv₁
            obtain ⟨-, -, hstate, hclosed⟩ := foldl_committed_frame ps
              (w.wrote (ps.map PreparedFrame.exactBytes).flatten)
            rw [hv₂] at ha
            exact Or.inr (not_live_of_syncIfDue (hclosed.trans hc) (hstate.trans hs) ha)
          · cases ha

/-! ### `close`, `abort` and the evidence -/

/-- What `close` leaves, if it returns. -/
theorem close_eq_ok {io : CloseIo} (h : w.close io = .ok w') :
    w' = w ∨ (w'.header = w.header ∧ w'.file = w.file ∧ w'.scanState = w.scanState ∧
      ((w.state = .openClean ∧ w'.state = .closedClean) ∨
        (w.state ≠ .openClean ∧ w'.state = w.state))) := by
  unfold Writer.close at h
  split at h
  · exact Or.inl (by simpa using h.symm)
  · refine Or.inr ?_
    by_cases hs : w.state = .openClean
    · simp only [hs, if_true] at h
      cases hsync : w.sync io.sync with
      | error p => cases hio : io.closeFails <;> simp [hsync, hio] at h
      | ok v =>
        obtain ⟨rfl, -, -⟩ := sync_eq_ok hsync
        cases hio : io.closeFails with
        | true => simp [hsync, hio] at h
        | false =>
          simp only [hsync, hio, Bool.false_eq_true, if_false, hs, if_true, Except.ok.injEq] at h
          subst h
          exact ⟨rfl, rfl, rfl, Or.inl ⟨hs, rfl⟩⟩
    · cases hio : io.closeFails with
      | true => simp [hs, hio] at h
      | false =>
        simp only [hs, hio, if_false, Bool.false_eq_true, Except.ok.injEq] at h
        subst h
        exact ⟨rfl, rfl, rfl, Or.inr ⟨hs, rfl⟩⟩

/-- A close that raises leaves no evidence to take. -/
theorem not_live_of_close {io : CloseIo} {p : WriterError × Writer}
    (h : w.close io = .error p) : ¬ p.2.Live := by
  have hclosed : ∀ v : Writer, ¬ v.Live → ¬ Writer.Live { v with closed := true } := fun _ hv => hv
  unfold Writer.close at h
  split at h
  · cases h
  · next hc =>
    by_cases hs : w.state = .openClean
    · simp only [hs, if_true] at h
      cases hsync : w.sync io.sync with
      | error q =>
        have hq : ¬ q.2.Live := by
          rcases sync_eq_error hsync with hr | hr
          · rw [requireOpenClean_of_open (by simpa using hc) hs] at hr
            cases hr
          · exact hr
        cases hio : io.closeFails with
        | true =>
          simp only [hsync, hio, if_true, Except.error.injEq] at h
          subst h
          exact hclosed _ (not_live_poison _)
        | false =>
          simp only [hsync, hio, Bool.false_eq_true, if_false, Except.error.injEq] at h
          subst h
          exact hclosed _ hq
      | ok v =>
        cases hio : io.closeFails with
        | true =>
          simp only [hsync, hio, if_true, Except.error.injEq] at h
          subst h
          exact hclosed _ (not_live_poison _)
        | false => simp [hsync, hio] at h
    · cases hio : io.closeFails with
      | true =>
        simp only [hs, hio, if_false, if_true, Except.error.injEq] at h
        subst h
        exact hclosed _ (not_live_poison _)
      | false => simp [hs, hio] at h

/-- An abort that returns has closed the file, or found it closed. -/
theorem abort_eq_ok {b : Bool} (h : w.abort b = .ok w') : w' = w ∨ ¬ w'.Live := by
  unfold Writer.abort at h
  split at h
  · exact Or.inl (by simpa using h.symm)
  · split at h
    · cases h
    · cases h
      exact Or.inr (not_live_poison w)

/-- An abort that raises leaves no evidence to take. -/
theorem not_live_of_abort {b : Bool} {p : WriterError × Writer} (h : w.abort b = .error p) :
    ¬ p.2.Live := by
  unfold Writer.abort at h
  split at h
  · cases h
  · split at h
    · cases h
      exact not_live_poison w
    · cases h

/-- **What issuing evidence takes**: a close that returns, and the writer's own accumulators. -/
theorem takeCleanSealEvidence_eq_ok {io : CloseIo} {b : Bool} {ev : VerifiedChunkEvidence}
    (h : w.takeCleanSealEvidence codec io b = .ok (ev, w')) :
    ∃ v, w.close io = .ok v ∧ v.state = .closedClean ∧ ev = v.evidence codec ∧
      w' = { v with state := .evidenceConsumed } := by
  unfold Writer.takeCleanSealEvidence at h
  simp only [throw, throwThe, MonadExceptOf.throw] at h
  split at h
  · cases h
  · obtain ⟨v, hv, h⟩ := except_bind_eq_ok h
    split at h
    · cases h
    · next hstate =>
      split at h
      · cases h
      · split at h
        · cases h
        · cases h
          exact ⟨v, hv, by simpa using hstate, rfl, rfl⟩

/-- Taking evidence either raises before it closes, or ends the writer. -/
theorem refused_of_takeCleanSealEvidence {io : CloseIo} {b : Bool} {p : WriterError × Writer}
    (h : w.takeCleanSealEvidence codec io b = .error p) : Refused w p := by
  unfold Writer.takeCleanSealEvidence at h
  simp only [throw, throwThe, MonadExceptOf.throw] at h
  split at h
  · cases h
    exact Or.inl ⟨rfl, rfl⟩
  · rcases except_bind_eq_error h with h | ⟨v, hv, h⟩
    · exact Or.inr (not_live_of_close h)
    · split at h
      · next hstate =>
        cases h
        rcases close_eq_ok hv with rfl | ⟨-, -, -, ⟨-, hclosed⟩ | ⟨hopen, hsame⟩⟩
        · exact Or.inl ⟨rfl, rfl⟩
        · exact absurd hclosed hstate
        · refine Or.inr ?_
          rintro (hlive | hlive)
          · exact hopen (hsame.symm.trans hlive)
          · exact hstate hlive
      · split at h
        · cases h
          exact Or.inr (not_live_poison v)
        · split at h
          · cases h
            exact Or.inr (not_live_poison v)
          · cases h

/-! ## Runs -/

/-- A writer that may still issue evidence has accumulated that of its file. -/
def EvidenceInv (codec : Codec) (w : Writer) : Prop := w.Live → ∃ es, Evident codec w es

/-- **A call that raises changed nothing, or ended the evidence.** -/
theorem refused_of_call {c : Writer.Call} {p : WriterError × Writer}
    (h : w.call codec c = .error p) : Refused w p := by
  have hmap : ∀ {α β : Type} {x : Except (WriterError × Writer) α} {f : α → β},
      x.map f = .error p → x = .error p := by
    intro α β x f hx
    cases x with
    | error q => simpa [Except.map] using hx
    | ok a => cases hx
  cases c with
  | append e io => exact refused_of_append (hmap h)
  | appendBatch fs io => exact refused_of_appendBatch (hmap h)
  | sync io =>
    rcases sync_eq_error (hmap h) with h | h
    · exact refused_of_requireOpenClean h
    · exact Or.inr h
  | syncIfDue due io =>
    rcases sync_eq_error (syncIfDue_eq_error (hmap h)) with h | h
    · exact refused_of_requireOpenClean h
    · exact Or.inr h
  | close io => exact Or.inr (not_live_of_close (hmap h))
  | takeCleanSealEvidence io b => exact refused_of_takeCleanSealEvidence (hmap h)
  | abort b => exact Or.inr (not_live_of_abort (hmap h))

theorem exists_of_map_eq_ok {ε α β : Type} {x : Except ε α} {f : α → β} {b : β}
    (h : x.map f = .ok b) : ∃ a, x = .ok a ∧ f a = b := by
  cases x with
  | error e => cases h
  | ok a => exact ⟨a, rfl, by simpa [Except.map] using h⟩

/-- What a call that returned leaves: evidence, or no claim to any. -/
theorem evidence_of_call {c : Writer.Call} {r : Option VerifiedChunkEvidence × Writer}
    (h : EvidenceInv codec w) (hround : ∀ e ∈ c.envelopes, RoundTrips codec e.canonicalMapping)
    (hc : w.call codec c = .ok r) : EvidenceInv codec r.2 := by
  have hopen : ∀ {v : Writer}, w.requireOpenClean = .ok v → ∃ es, Evident codec w es := by
    intro v hv
    exact h (Or.inl (requireOpenClean_eq_ok hv).2.2)
  cases c with
  | append e io =>
    obtain ⟨⟨n, v⟩, hv, rfl⟩ := exists_of_map_eq_ok hc
    obtain ⟨u, hu, -⟩ := except_bind_eq_ok (f := fun _ => _) hv
    obtain ⟨es, hes⟩ := hopen hu
    exact fun _ => ⟨_, hes.append (hround e (List.mem_singleton.mpr rfl)) hv⟩
  | appendBatch fs io =>
    obtain ⟨⟨ns, v⟩, hv, rfl⟩ := exists_of_map_eq_ok hc
    obtain ⟨u, hu, -⟩ := except_bind_eq_ok (f := fun _ => _) hv
    obtain ⟨es, hes⟩ := hopen hu
    exact fun _ => hes.appendBatch hround hv
  | sync io =>
    obtain ⟨v, hv, rfl⟩ := exists_of_map_eq_ok hc
    obtain ⟨es, hes⟩ := h (Or.inl (sync_eq_ok hv).2.2)
    exact fun _ => ⟨es, hes.sync hv⟩
  | syncIfDue due io =>
    obtain ⟨v, hv, rfl⟩ := exists_of_map_eq_ok hc
    rcases syncIfDue_eq_ok hv with rfl | hs
    · exact h
    · obtain ⟨es, hes⟩ := h (Or.inl (sync_eq_ok hs).2.2)
      exact fun _ => ⟨es, hes.sync hs⟩
  | close io =>
    obtain ⟨v, hv, rfl⟩ := exists_of_map_eq_ok hc
    rcases close_eq_ok hv with rfl | ⟨hheader, hfile, hstate, ⟨hs, -⟩ | ⟨-, hs⟩⟩
    · exact h
    · obtain ⟨es, hes⟩ := h (Or.inl hs)
      exact fun _ => ⟨es, hes.congr hheader hfile hstate⟩
    · intro hlive
      obtain ⟨es, hes⟩ := h (by
        rcases hlive with hl | hl
        · exact Or.inl (hs.symm.trans hl)
        · exact Or.inr (hs.symm.trans hl))
      exact ⟨es, hes.congr hheader hfile hstate⟩
  | takeCleanSealEvidence io b =>
    obtain ⟨⟨ev, v⟩, hv, rfl⟩ := exists_of_map_eq_ok hc
    obtain ⟨u, -, -, -, rfl⟩ := takeCleanSealEvidence_eq_ok hv
    intro hlive
    rcases hlive with hl | hl <;> cases hl
  | abort b =>
    obtain ⟨v, hv, rfl⟩ := exists_of_map_eq_ok hc
    rcases abort_eq_ok hv with rfl | hdead
    · exact h
    · exact fun hlive => absurd hlive hdead

/-- **Every call keeps the evidence, or ends the claim to it.** -/
theorem call_inv {c : Writer.Call} (h : EvidenceInv codec w)
    (hround : ∀ e ∈ c.envelopes, RoundTrips codec e.canonicalMapping) :
    EvidenceInv codec (Writer.after (w.call codec c)) := by
  cases hc : w.call codec c with
  | ok r => exact evidence_of_call h hround hc
  | error p =>
    rcases refused_of_call hc with ⟨hw, -⟩ | hdead
    · show EvidenceInv codec p.2
      rw [hw]
      exact h
    · exact fun hlive => absurd hlive hdead

/-- The evidence invariant is kept over a whole run of calls. -/
theorem run_inv :
    ∀ {calls : List Writer.Call} {w : Writer}, EvidenceInv codec w →
      (∀ c ∈ calls, ∀ e ∈ c.envelopes, RoundTrips codec e.canonicalMapping) →
        EvidenceInv codec (w.run codec calls)
  | [], _, h, _ => h
  | c :: calls, w, h, hround => by
    have hstep := call_inv h (hround c List.mem_cons_self)
    have hrest : ∀ c' ∈ calls, ∀ e ∈ c'.envelopes, RoundTrips codec e.canonicalMapping :=
      fun c' hc' => hround c' (List.mem_cons_of_mem _ hc')
    show EvidenceInv codec ((Writer.after (w.call codec c)).run codec calls)
    exact run_inv hstep hrest

/-- A writer that lost its claim never gets it back. -/
theorem not_live_call (h : ¬ w.Live) (c : Writer.Call) :
    ¬ (Writer.after (w.call codec c)).Live := by
  obtain ⟨message, hrefuse⟩ := requireOpenClean_of_not_live h
  cases hc : w.call codec c with
  | error p =>
    rcases refused_of_call hc with ⟨hw, -⟩ | hdead
    · show ¬ p.2.Live
      rw [hw]
      exact h
    · exact hdead
  | ok r =>
    show ¬ r.2.Live
    cases c with
    | append e io =>
      obtain ⟨a, ha, -⟩ := exists_of_map_eq_ok hc
      simp [Writer.append, hrefuse, bind, Except.bind] at ha
    | appendBatch fs io =>
      obtain ⟨a, ha, -⟩ := exists_of_map_eq_ok hc
      simp [Writer.appendBatch, hrefuse, bind, Except.bind] at ha
    | sync io =>
      obtain ⟨a, ha, -⟩ := exists_of_map_eq_ok hc
      simp [Writer.sync, hrefuse, bind, Except.bind] at ha
    | syncIfDue due io =>
      obtain ⟨v, hv, rfl⟩ := exists_of_map_eq_ok hc
      rcases syncIfDue_eq_ok hv with rfl | hs
      · exact h
      · simp [Writer.sync, hrefuse, bind, Except.bind] at hs
    | close io =>
      obtain ⟨v, hv, rfl⟩ := exists_of_map_eq_ok hc
      rcases close_eq_ok hv with rfl | ⟨-, -, -, ⟨hs, -⟩ | ⟨-, hs⟩⟩
      · exact h
      · exact absurd (Or.inl hs) h
      · rintro (hl | hl)
        · exact h (Or.inl (hs.symm.trans hl))
        · exact h (Or.inr (hs.symm.trans hl))
    | takeCleanSealEvidence io b =>
      obtain ⟨⟨ev, v⟩, hv, rfl⟩ := exists_of_map_eq_ok hc
      obtain ⟨u, -, -, -, rfl⟩ := takeCleanSealEvidence_eq_ok hv
      rintro (hl | hl) <;> cases hl
    | abort b =>
      obtain ⟨v, hv, rfl⟩ := exists_of_map_eq_ok hc
      rcases abort_eq_ok hv with rfl | hdead
      · exact h
      · exact hdead

/-- No call brings back evidence that has ended. -/
theorem not_live_run :
    ∀ (calls : List Writer.Call) {w : Writer}, ¬ w.Live → ¬ (w.run codec calls).Live
  | [], _, h => h
  | c :: calls, _, h => not_live_run calls (not_live_call h c)

/-- A writer without a claim issues no evidence. -/
theorem takeCleanSealEvidence_of_not_live (h : ¬ w.Live) (io : CloseIo) (b : Bool) :
    ∃ p, w.takeCleanSealEvidence codec io b = .error p := by
  cases ht : w.takeCleanSealEvidence codec io b with
  | error p => exact ⟨p, rfl⟩
  | ok r =>
    obtain ⟨ev, v⟩ := r
    obtain ⟨u, hu, hstate, -, -⟩ := takeCleanSealEvidence_eq_ok ht
    exfalso
    rcases close_eq_ok hu with rfl | ⟨-, -, -, ⟨hs, -⟩ | ⟨-, hs⟩⟩
    · exact h (Or.inr hstate)
    · exact h (Or.inl hs)
    · exact h (Or.inr (hs.symm.trans hstate))

/-! ## Failures

What fails is said by what the operating system and the observer do, not by what the writer makes
of it. -/

namespace Writer

/-- A writer that takes frames. -/
def IsOpen (w : Writer) : Prop := w.closed = false ∧ w.state = .openClean

/-- A `write` fails, makes no progress or is interrupted while `remaining` bytes are
to be written. -/
def writeFails : List WriteOutcome → Nat → Prop
  | _, 0 => False
  | [], _ => False
  | .wrote n :: outcomes, remaining => n = 0 ∨ writeFails outcomes (remaining - n)
  | .interrupted :: _, _ => True
  | .failed :: _, _ => True

/-- A `writev` fails or makes no progress while views are left; one that is interrupted does not. -/
def writeVectorFails (limit : Nat) : List WriteOutcome → List Bytes → Prop
  | _, [] => False
  | [], _ => False
  | .wrote n :: outcomes, views =>
    let written := min n (views.take limit).flatten.length
    written = 0 ∨ writeVectorFails limit outcomes (dropWritten written views)
  | .interrupted :: outcomes, views => writeVectorFails limit outcomes views
  | .failed :: _, _ => True

/-- The writes of a batch fail. -/
def writesFail (w : Writer) (outcomes : List WriteOutcome) (views : List Bytes) : Prop :=
  match w.vectorLimit with
  | none => writeFails outcomes views.flatten.length
  | some limit => writeVectorFails (max 1 limit) outcomes views

end Writer

/-- The `fsync` fails, or the observer behind it. -/
def SyncIo.Fails (io : SyncIo) : Prop := io.fsyncFails = true ∨ io.observerFails = true

/-- Behind the writes: the observer fails, or the sync that is due. -/
def AppendIo.FailsBehind (io : AppendIo) (w : Writer) : Prop :=
  io.observerFails = true ∨ ((w.syncEachFrame || io.syncDue) = true ∧ io.sync.Fails)

namespace Writer

/-- A frame is written, and something fails. -/
def AppendFails (codec : Codec) (w : Writer) (e : EventEnvelope) (io : AppendIo) : Prop :=
  ∃ frame, w.prepareFrame codec e = .ok frame ∧
    (writeFails io.writes frame.exactBytes.length ∨ io.FailsBehind w)

/-- A system call of a call on this writer fails, or the observer. -/
def Call.Fails (codec : Codec) (w : Writer) : Call → Prop
  | .append e io => w.IsOpen ∧ w.AppendFails codec e io
  | .appendBatch [] _ => False
  | .appendBatch (e :: rest) io =>
    w.IsOpen ∧
      if w.syncEachFrame then w.AppendFails codec e io
      else ∃ frames, w.prepareBatch codec ((e :: rest).take 256) io.timeUp [] 0 = .ok frames ∧
        (w.writesFail io.writes (frames.map PreparedFrame.exactBytes) ∨ io.FailsBehind w)
  | .sync io => w.IsOpen ∧ io.Fails
  | .syncIfDue due io => w.IsOpen ∧ (w.syncEachFrame || due) = true ∧ io.Fails
  | .close io => w.closed = false ∧ ((w.state = .openClean ∧ io.sync.Fails) ∨ io.closeFails = true)
  | .takeCleanSealEvidence io statFails =>
    (w.IsOpen ∧ (io.sync.Fails ∨ io.closeFails = true ∨ statFails = true)) ∨
      (w.closed = true ∧ w.state = .closedClean ∧ statFails = true)
  | .abort closeFails => w.closed = false ∧ closeFails = true

end Writer

/-- A run of the writer that raised for a failure, and without a claim to evidence. -/
def Failed {α : Type} (r : Except (WriterError × Writer) α) : Prop :=
  ∃ error w, r = .error (error, w) ∧ error.isFailure = true ∧ ¬ w.Live

/-- A failure goes through what is made of the result. -/
theorem Failed.map {α β : Type} {r : Except (WriterError × Writer) α} {f : α → β} (h : Failed r) :
    Failed (r.map f) := by
  obtain ⟨error, w, rfl, hfail, hdead⟩ := h
  exact ⟨error, w, rfl, hfail, hdead⟩

/-- A failure ends the rest of the call. -/
theorem Failed.bind {α β : Type} {r : Except (WriterError × Writer) α}
    {f : α → Except (WriterError × Writer) β} (h : Failed r) : Failed (r >>= f) := by
  obtain ⟨error, w, rfl, hfail, hdead⟩ := h
  exact ⟨error, w, rfl, hfail, hdead⟩

/-- A failing operation inside `_poisoning` raises and poisons the writer. -/
theorem failed_poisoning {error : WriterError} {v : Writer} (h : error.isFailure = true) :
    Failed (Writer.poisoning (.error (error, v))) :=
  ⟨error, v.poison, rfl, h, not_live_poison v⟩

/-- A write that fails is an `OSError`. -/
theorem writeLoop_of_writeFails :
    ∀ {outcomes : List WriteOutcome} {data : Bytes} {w : Writer},
      Writer.writeFails outcomes data.length →
        ∃ v, Writer.writeLoop outcomes data w = .error (.osError .write, v)
  | _, [], _, h => by
    rw [List.length_nil, Writer.writeFails] at h
    exact h.elim
  | [], d :: data, _, h => by
    rw [List.length_cons, Writer.writeFails] at h
    · exact h.elim
    · omega
  | .wrote n :: outcomes, d :: data, w, h => by
    simp only [Writer.writeLoop]
    rw [List.length_cons, Writer.writeFails] at h
    · split
      · exact ⟨w, rfl⟩
      · next hn =>
        refine writeLoop_of_writeFails ?_
        rw [List.length_drop]
        exact h.resolve_left hn
    · omega
  | .interrupted :: outcomes, d :: data, w, _ => ⟨w, rfl⟩
  | .failed :: outcomes, d :: data, w, _ => ⟨w, rfl⟩

/-- A vectored write whose outcomes fail raises the write's own error. -/
theorem writeVectorLoop_of_fails {limit : Nat} :
    ∀ {outcomes : List WriteOutcome} {views : List Bytes} {w : Writer},
      Writer.writeVectorFails limit outcomes views →
        ∃ v, Writer.writeVectorLoop limit outcomes views w = .error (.osError .write, v)
  | _, [], _, h => by
    rw [Writer.writeVectorFails] at h
    exact h.elim
  | [], view :: views, _, h => by
    rw [Writer.writeVectorFails] at h
    · exact h.elim
    · rintro ⟨⟩
  | .wrote n :: outcomes, view :: views, w, h => by
    rw [Writer.writeVectorFails] at h
    · simp only [Writer.writeVectorLoop]
      split
      · exact ⟨w, rfl⟩
      · next hne =>
        refine writeVectorLoop_of_fails ?_
        rw [List.length_take]
        refine h.resolve_left fun hzero => hne ?_
        rw [← List.length_eq_zero_iff, List.length_take]
        exact hzero
    · rintro ⟨⟩
  | .interrupted :: outcomes, view :: views, w, h => by
    rw [Writer.writeVectorFails] at h
    · exact @writeVectorLoop_of_fails limit outcomes (view :: views) w h
    · rintro ⟨⟩
  | .failed :: outcomes, view :: views, w, _ => ⟨w, rfl⟩

/-- A write raises nothing but an `OSError`. -/
theorem writeLoop_eq_error {p : WriterError × Writer} :
    ∀ {outcomes : List WriteOutcome} {data : Bytes} {w : Writer},
      Writer.writeLoop outcomes data w = .error p → p.1 = .osError .write
  | outcomes, [], w, h => by cases outcomes <;> cases h
  | [], d :: data, w, h => by cases h
  | .wrote n :: outcomes, d :: data, w, h => by
    simp only [Writer.writeLoop] at h
    split at h
    · cases h
      rfl
    · exact writeLoop_eq_error h
  | .interrupted :: outcomes, d :: data, w, h => by
    cases h
    rfl
  | .failed :: outcomes, d :: data, w, h => by
    cases h
    rfl

/-- A vectored write raises nothing but the error of a write. -/
theorem writeVectorLoop_eq_error {limit : Nat} {p : WriterError × Writer} :
    ∀ {outcomes : List WriteOutcome} {views : List Bytes} {w : Writer},
      Writer.writeVectorLoop limit outcomes views w = .error p → p.1 = .osError .write
  | outcomes, [], w, h => by cases outcomes <;> cases h
  | [], view :: views, w, h => by cases h
  | .wrote n :: outcomes, view :: views, w, h => by
    simp only [Writer.writeVectorLoop] at h
    split at h
    · cases h
      rfl
    · exact writeVectorLoop_eq_error h
  | .interrupted :: outcomes, view :: views, w, h =>
    @writeVectorLoop_eq_error limit p outcomes (view :: views) w h
  | .failed :: outcomes, view :: views, w, h => by
    cases h
    rfl

theorem writeAll_eq_error {outcomes : List WriteOutcome} {data : Bytes} {p : WriterError × Writer}
    (h : w.writeAll outcomes data = .error p) : p.1 = .osError .write := by
  unfold Writer.writeAll at h
  cases hloop : Writer.writeLoop outcomes data w with
  | error q =>
    rw [hloop] at h
    cases h
    exact @writeLoop_eq_error q _ _ _ hloop
  | ok v =>
    rw [hloop] at h
    cases h

theorem writeVectors_eq_error {outcomes : List WriteOutcome} {views : List Bytes}
    {p : WriterError × Writer} (h : w.writeVectors outcomes views = .error p) :
    p.1 = .osError .write := by
  unfold Writer.writeVectors at h
  split at h
  · exact writeAll_eq_error h
  · exact writeVectorLoop_eq_error h

/-- A write that fails raises and poisons. -/
theorem failed_writeAll {outcomes : List WriteOutcome} {data : Bytes}
    (h : Writer.writeFails outcomes data.length) : Failed (w.writeAll outcomes data) := by
  obtain ⟨v, hv⟩ := @writeLoop_of_writeFails outcomes data w h
  rw [Writer.writeAll, hv]
  exact failed_poisoning rfl

/-- The writes of a batch that fail raise; the batch poisons the writer around them. -/
theorem writeVectors_of_writesFail {outcomes : List WriteOutcome} {views : List Bytes}
    (h : w.writesFail outcomes views) :
    ∃ v, w.writeVectors outcomes views = .error (.osError .write, v) := by
  unfold Writer.writesFail at h
  unfold Writer.writeVectors
  cases hlimit : w.vectorLimit with
  | none =>
    rw [hlimit] at h
    obtain ⟨v, hv⟩ := @writeLoop_of_writeFails outcomes views.flatten w h
    exact ⟨v.poison, by simp only [Writer.writeAll, hv, Writer.poisoning]⟩
  | some limit =>
    rw [hlimit] at h
    exact writeVectorLoop_of_fails h

/-- **A failing flush or fsync raises and poisons an open writer.** -/
theorem failed_sync {io : SyncIo} (h : w.IsOpen) (hfails : io.Fails) : Failed (w.sync io) := by
  rw [Writer.sync, requireOpenClean_of_open h.1 h.2]
  show Failed (Writer.poisoning _ >>= _)
  refine Failed.bind ?_
  split
  · exact failed_poisoning rfl
  · next hfsync =>
    rw [if_pos (hfails.resolve_left hfsync)]
    exact failed_poisoning rfl

/-- A due sync that fails raises and poisons. -/
theorem failed_syncIfDue {due : Bool} {io : SyncIo} (h : w.IsOpen)
    (hdue : (w.syncEachFrame || due) = true) (hfails : io.Fails) : Failed (w.syncIfDue due io) := by
  rw [Writer.syncIfDue, if_pos hdue]
  exact failed_sync h hfails

/-- A commit that raises is a failure of the writer. -/
theorem isFailure_of_commitPreparedFrame {p : PreparedFrame} {error : WriterError × Writer}
    (h : w.commitPreparedFrame p = .error error) : error.1.isFailure = true := by
  unfold Writer.commitPreparedFrame at h
  split at h
  · cases h
    rfl
  · simp only at h
    split at h
    · cases h
      rfl
    · cases h

/-- The commits of a batch raise nothing but failures of the writer. -/
theorem isFailure_of_commitAll {error : WriterError × Writer} :
    ∀ {ps : List PreparedFrame} {w : Writer}, w.commitAll ps = .error error →
      error.1.isFailure = true
  | [], _, h => by cases h
  | p :: ps, w, h => by
    rcases except_bind_eq_error h with h | ⟨v, -, h⟩
    · exact isFailure_of_commitPreparedFrame h
    · exact isFailure_of_commitAll h

theorem commitAll_singleton (p : PreparedFrame) :
    w.commitAll [p] = w.commitPreparedFrame p := by
  show (w.commitPreparedFrame p >>= fun v => .ok v) = _
  cases w.commitPreparedFrame p <;> rfl

theorem foldl_committed_syncEachFrame :
    ∀ (ps : List PreparedFrame) (w : Writer),
      (ps.foldl Writer.committed w).syncEachFrame = w.syncEachFrame
  | [], _ => rfl
  | p :: ps, w => by
    rw [List.foldl_cons]
    exact foldl_committed_syncEachFrame ps (w.committed p)

/-- Behind the writes: a commit raises by failing, and so does the observer or the
sync behind it. -/
theorem failed_behind {α : Type} {q : List PreparedFrame} {message : String} {io : AppendIo}
    {f : Writer → Except (WriterError × Writer) α} (hopen : w.IsOpen) (hfails : io.FailsBehind w) :
    Failed (Writer.poisoning (w.commitAll q >>= fun v =>
      v.checkCommitted message io.observerFails) >>= fun v =>
        v.syncIfDue io.syncDue io.sync >>= f) := by
  cases hcommit : w.commitAll q with
  | error p =>
    obtain ⟨error, v⟩ := p
    exact Failed.bind (failed_poisoning (isFailure_of_commitAll hcommit))
  | ok v =>
    obtain rfl := commitAll_eq_ok hcommit
    show Failed (Writer.poisoning (Writer.checkCommitted _ _ _) >>= _)
    unfold Writer.checkCommitted
    split
    · exact Failed.bind (failed_poisoning rfl)
    · split
      · exact Failed.bind (failed_poisoning rfl)
      · next hobserver =>
        obtain ⟨hdue, hsync⟩ := hfails.resolve_left hobserver
        obtain ⟨-, -, hstate, hclosed⟩ := foldl_committed_frame q w
        show Failed (Writer.syncIfDue _ _ _ >>= f)
        refine Failed.bind (failed_syncIfDue ⟨hclosed.trans hopen.1, hstate.trans hopen.2⟩ ?_ hsync)
        rw [foldl_committed_syncEachFrame]
        exact hdue

/-- **An append with a failing write, commit or sync raises and poisons.** -/
theorem failed_append {e : EventEnvelope} {io : AppendIo} (h : w.IsOpen)
    (hfails : w.AppendFails codec e io) : Failed (w.append codec e io) := by
  obtain ⟨frame, hframe, hfails⟩ := hfails
  rw [Writer.append, requireOpenClean_of_open h.1 h.2]
  simp only [bind, Except.bind, hframe]
  cases hwrite : w.writeAll io.writes frame.exactBytes with
  | error p =>
    obtain ⟨error, v⟩ := p
    obtain rfl : error = .osError .write := writeAll_eq_error hwrite
    exact ⟨_, v, rfl, rfl, not_live_of_poisoning hwrite⟩
  | ok v =>
    have hv := writeAll_eq_ok hwrite
    have hbehind : io.FailsBehind w := hfails.resolve_left fun hw => by
      obtain ⟨error, u, herror, -⟩ := @failed_writeAll w io.writes frame.exactBytes hw
      rw [hwrite] at herror
      cases herror
    subst hv
    have hfailed := @failed_behind _ _ [frame] "incremental Raw evidence invariant failed" io
      (fun u => .ok (w.recordCount, u)) (show (w.wrote frame.exactBytes).IsOpen from h) hbehind
    rw [commitAll_singleton] at hfailed
    exact hfailed

/-- **A batch with a failing write, commit or sync raises and poisons.** -/
theorem failed_appendBatch {e : EventEnvelope} {rest : List EventEnvelope} {io : AppendIo}
    (hfails : Writer.Call.Fails codec w (.appendBatch (e :: rest) io)) :
    Failed (w.appendBatch codec (e :: rest) io) := by
  obtain ⟨h, hfails⟩ := hfails
  rw [Writer.appendBatch, requireOpenClean_of_open h.1 h.2]
  simp only [bind, Except.bind]
  split at hfails
  · next heach =>
    rw [if_pos heach]
    obtain ⟨error, v, heq, hfail, hdead⟩ := failed_append h hfails
    exact ⟨error, v, by rw [heq], hfail, hdead⟩
  · next heach =>
    obtain ⟨frames, hframes, hfails⟩ := hfails
    rw [if_neg heach, hframes]
    simp only
    cases hwrite : w.writeVectors io.writes (frames.map PreparedFrame.exactBytes) with
    | error p =>
      obtain ⟨error, v⟩ := p
      obtain rfl : error = .osError .write := writeVectors_eq_error hwrite
      exact ⟨_, v.poison, rfl, rfl, not_live_poison v⟩
    | ok v =>
      have hv := writeVectors_eq_ok hwrite
      have hbehind : io.FailsBehind w := hfails.resolve_left fun hw => by
        obtain ⟨u, hu⟩ := writeVectors_of_writesFail hw
        rw [hwrite] at hu
        cases hu
      subst hv
      exact failed_behind (q := frames)
        (show (w.wrote (frames.map PreparedFrame.exactBytes).flatten).IsOpen from h) hbehind

/-- On an open writer a sync raises nothing but a failure. -/
theorem isFailure_of_sync {io : SyncIo} {p : WriterError × Writer} (hopen : w.IsOpen)
    (h : w.sync io = .error p) : p.1.isFailure = true := by
  rw [Writer.sync, requireOpenClean_of_open hopen.1 hopen.2] at h
  rcases except_bind_eq_error (x := Writer.poisoning _) h with h | ⟨v, -, h⟩
  · split at h
    · cases h
      rfl
    · split at h
      · cases h
        rfl
      · cases h
  · cases h

/-- A close raises nothing but a failure. -/
theorem isFailure_of_close {io : CloseIo} {p : WriterError × Writer} (h : w.close io = .error p) :
    p.1.isFailure = true := by
  unfold Writer.close at h
  split at h
  · cases h
  · next hc =>
    by_cases hs : w.state = .openClean
    · have hopen : w.IsOpen := ⟨by simpa using hc, hs⟩
      simp only [hs, if_true] at h
      cases hsync : w.sync io.sync with
      | error q =>
        have hq := isFailure_of_sync hopen hsync
        cases hio : io.closeFails <;> simp only [hsync, hio, Bool.false_eq_true, if_true, if_false,
          Option.getD_some, Except.error.injEq] at h <;> rw [← h] <;> exact hq
      | ok v =>
        cases hio : io.closeFails with
        | true =>
          simp only [hsync, hio, if_true, Except.error.injEq] at h
          rw [← h]
          rfl
        | false => simp [hsync, hio] at h
    · cases hio : io.closeFails with
      | true =>
        simp only [hs, hio, if_false, if_true, Except.error.injEq] at h
        rw [← h]
        rfl
      | false => simp [hs, hio] at h

/-- A close that returns has closed, and has synced a writer that was open. -/
theorem not_fails_of_close_eq_ok {io : CloseIo} (h : w.close io = .ok w') :
    ¬ Writer.Call.Fails codec w (.close io) := by
  rintro ⟨hc, hfails⟩
  unfold Writer.close at h
  rw [if_neg (by rw [hc]; decide)] at h
  cases hio : io.closeFails with
  | true =>
    by_cases hs : w.state = .openClean
    · simp only [hs, if_true, hio] at h
      cases hsync : w.sync io.sync <;> simp [hsync] at h
    · simp [hs, hio] at h
  | false =>
    rw [hio] at hfails
    obtain ⟨hs, hfails⟩ := hfails.resolve_right (by decide)
    obtain ⟨error, v, hsync, -, -⟩ := failed_sync ⟨hc, hs⟩ hfails
    simp [hs, hsync, hio] at h

/-- A close that returns leaves the writer closed and clean. -/
theorem closedClean_of_close {io : CloseIo} (hopen : w.IsOpen) (h : w.close io = .ok w') :
    w'.state = .closedClean := by
  unfold Writer.close at h
  rw [if_neg (by rw [hopen.1]; decide)] at h
  cases hsync : w.sync io.sync with
  | error p => cases hio : io.closeFails <;> simp [hopen.2, hsync, hio] at h
  | ok v =>
    obtain ⟨rfl, -, -⟩ := sync_eq_ok hsync
    cases hio : io.closeFails with
    | true => simp [hopen.2, hsync, hio] at h
    | false =>
      simp only [hopen.2, hsync, hio, if_true, Bool.false_eq_true, if_false,
        Except.ok.injEq] at h
      rw [← h]

/-- **A failing flush, fsync or close raises and poisons.** -/
theorem failed_close {io : CloseIo} (hfails : Writer.Call.Fails codec w (.close io)) :
    Failed (w.close io) := by
  cases h : w.close io with
  | error p => exact ⟨p.1, p.2, rfl, isFailure_of_close h, not_live_of_close h⟩
  | ok v => exact (not_fails_of_close_eq_ok h hfails).elim

/-- Taking evidence over a failing close or `stat` raises and poisons. -/
theorem failed_takeCleanSealEvidence {io : CloseIo} {statFails : Bool}
    (hfails : Writer.Call.Fails codec w (.takeCleanSealEvidence io statFails)) :
    Failed (w.takeCleanSealEvidence codec io statFails) := by
  have hconsumed : w.state ≠ .evidenceConsumed := by
    rcases hfails with ⟨h, -⟩ | ⟨-, hs, -⟩
    · rw [h.2]
      decide
    · rw [hs]
      decide
  unfold Writer.takeCleanSealEvidence
  rw [if_neg hconsumed]
  show Failed (w.close io >>= _)
  cases hclose : w.close io with
  | error p => exact ⟨p.1, p.2, rfl, isFailure_of_close hclose, not_live_of_close hclose⟩
  | ok v =>
    have hstat : statFails = true := by
      rcases hfails with ⟨h, hsync | hclosing | hstat⟩ | ⟨-, -, hstat⟩
      · exact (@not_fails_of_close_eq_ok codec _ _ _ hclose ⟨h.1, Or.inl ⟨h.2, hsync⟩⟩).elim
      · exact (@not_fails_of_close_eq_ok codec _ _ _ hclose ⟨h.1, Or.inr hclosing⟩).elim
      · exact hstat
      · exact hstat
    have hclean : v.state = .closedClean := by
      rcases hfails with ⟨h, -⟩ | ⟨hc, hs, -⟩
      · exact closedClean_of_close h hclose
      · rw [Writer.close, if_pos hc] at hclose
        cases hclose
        exact hs
    refine ⟨.osError .stat, v.poison, ?_, rfl, not_live_poison v⟩
    simp [bind, Except.bind, hclean, hstat, throw, throwThe, MonadExceptOf.throw]

/-- **A call in which something fails** raises, and ends the claim to evidence. -/
theorem failed_call {c : Writer.Call} (hfails : c.Fails codec w) : Failed (w.call codec c) := by
  cases c with
  | append e io => exact (failed_append hfails.1 hfails.2).map
  | appendBatch es io =>
    cases es with
    | nil => exact hfails.elim
    | cons e rest => exact (failed_appendBatch hfails).map
  | sync io => exact (failed_sync hfails.1 hfails.2).map
  | syncIfDue due io => exact (failed_syncIfDue hfails.1 hfails.2.1 hfails.2.2).map
  | close io => exact (failed_close hfails).map
  | takeCleanSealEvidence io statFails => exact (failed_takeCleanSealEvidence hfails).map
  | abort closeFails =>
    obtain ⟨hc, rfl⟩ := hfails
    refine Failed.map ⟨.osError .close, { w.poison with closed := true }, ?_, rfl,
      not_live_poison w⟩
    rw [Writer.abort, if_neg (by rw [hc]; decide)]
    rfl

/-- A new writer has accumulated the evidence of its header. -/
theorem evident_create {header : ChunkHeader} {rotationBytes : Nat} {syncEachFrame : Bool}
    {vectorLimit : Option Nat} {io : Writer.OpenIo}
    (hround : RoundTrips codec header.canonicalMapping)
    (h : Writer.create codec header rotationBytes syncEachFrame vectorLimit io = .ok w) :
    Evident codec w [] := by
  unfold Writer.create at h
  cases hencode : encodeChunkHeader codec header with
  | error e => simp [hencode] at h
  | ok headerBytes =>
    simp only [hencode] at h
    have hv : validateChunkHeader header = .ok () := by
      obtain ⟨u, hu, -⟩ := except_bind_eq_ok (f := fun _ => _) hencode
      exact hu
    have hfit : (codec.dumps header.canonicalMapping).length ≤ maxHeaderBodyBytes := by
      by_contra hlt
      simp [encodeChunkHeader, hv, Nat.lt_of_not_le hlt, bind, Except.bind, throw, throwThe,
        MonadExceptOf.throw] at hencode
    obtain ⟨hencoded, hheader⟩ := encodeChunkHeader_spec hv hfit hround
    obtain rfl : encodedHeader codec header = headerBytes := by
      rw [hencoded] at hencode
      exact Except.ok.inj hencode
    split at h
    · cases h
    · split at h
      · cases h
      · next v hwrite =>
        have hv' := writeAll_eq_ok hwrite
        split at h
        · cases h
        · next u hsync =>
          obtain ⟨hu, -, -⟩ := sync_eq_ok hsync
          split at h
          · cases h
          · split at h
            · cases h
            · cases h
              subst hv'
              subst hu
              exact
                { headerValid := hv
                  headerBytes := hheader
                  file := by simp [Writer.wrote, encodedFrames]
                  accumulators := rfl
                  storable := by simp }

/-- An open clean writer that closes without a failure issues its evidence. -/
theorem takeCleanSealEvidence_of_open (h : Evident codec w es) (hc : w.closed = false)
    (hs : w.state = .openClean) :
    ∃ w', w.takeCleanSealEvidence codec {} false = .ok (w.evidence codec, w') := by
  have hsync : w.sync {} = .ok { w with syncedRecordCount := w.recordCount } := by
    simp [Writer.sync, requireOpenClean_of_open hc hs, Writer.poisoning, bind, Except.bind, pure,
      Except.pure]
  have hclose : w.close {} = .ok
      { w with syncedRecordCount := w.recordCount, closed := true, state := .closedClean } := by
    simp [Writer.close, hc, hs, hsync]
  refine ⟨{ w with
    syncedRecordCount := w.recordCount, closed := true, state := .evidenceConsumed }, ?_⟩
  simp [Writer.takeCleanSealEvidence, hs, hclose, bind, Except.bind, pure, Except.pure,
    h.verifiedBytes.1, Writer.evidence]

/--
**The evidence for a clean seal is that of a scan of the file.** After any calls on a new writer,
however the operating system cuts its writes:

* evidence that is issued is `from_scan(scan_chunk(path))`, and a writer still open and clean does
  issue it when nothing fails;
* a call in which a write, an `fsync`, a `close`, a `stat` or the observer fails raises, and from
  then on no evidence is issued, whatever is called;
* so it is behind every call that raises for a failure, a failed commit among them.
-/
theorem cleanSealEvidence_eq_scan {header : ChunkHeader} {rotationBytes : Nat}
    {syncEachFrame : Bool} {vectorLimit : Option Nat} {io : Writer.OpenIo}
    (hheader : RoundTrips codec header.canonicalMapping)
    (hcreate : Writer.create codec header rotationBytes syncEachFrame vectorLimit io = .ok w)
    {calls : List Writer.Call}
    (hcalls : ∀ c ∈ calls, ∀ e ∈ c.envelopes, RoundTrips codec e.canonicalMapping) :
    (∀ closeIo statFails ev w',
      (w.run codec calls).takeCleanSealEvidence codec closeIo statFails = .ok (ev, w') →
        VerifiedChunkEvidence.fromScan (scanChunk codec w'.file) = some ev) ∧
    ((w.run codec calls).closed = false → (w.run codec calls).state = .openClean →
      ∃ ev w', (w.run codec calls).takeCleanSealEvidence codec {} false = .ok (ev, w')) ∧
    (∀ c : Writer.Call, c.Fails codec (w.run codec calls) →
      ∃ error w₁, (w.run codec calls).call codec c = .error (error, w₁) ∧ error.isFailure = true ∧
        ∀ later closeIo statFails,
          ∃ p, (w₁.run codec later).takeCleanSealEvidence codec closeIo statFails = .error p) ∧
    (∀ c error w₁, (w.run codec calls).call codec c = .error (error, w₁) →
      error.isFailure = true → ∀ later closeIo statFails,
        ∃ p, (w₁.run codec later).takeCleanSealEvidence codec closeIo statFails = .error p) := by
  have hinv : EvidenceInv codec (w.run codec calls) :=
    run_inv (fun _ => ⟨[], evident_create hheader hcreate⟩) hcalls
  refine ⟨?_, ?_, ?_, ?_⟩
  · intro closeIo statFails ev w' ht
    obtain ⟨v, hv, hstate, rfl, rfl⟩ := takeCleanSealEvidence_eq_ok ht
    rcases close_eq_ok hv with rfl | ⟨hh, hf, hst, ⟨hs, -⟩ | ⟨-, hs⟩⟩
    · obtain ⟨es, hes⟩ := hinv (Or.inr hstate)
      exact hes.fromScan
    · obtain ⟨es, hes⟩ := hinv (Or.inl hs)
      exact (hes.congr hh hf hst).fromScan
    · obtain ⟨es, hes⟩ := hinv (Or.inr (hs.symm.trans hstate))
      exact (hes.congr hh hf hst).fromScan
  · intro hc hs
    obtain ⟨es, hes⟩ := hinv (Or.inl hs)
    obtain ⟨w', hw'⟩ := takeCleanSealEvidence_of_open hes hc hs
    exact ⟨_, w', hw'⟩
  · intro c hfails
    obtain ⟨error, w₁, hcall, hfail, hdead⟩ := failed_call hfails
    refine ⟨error, w₁, hcall, hfail, fun later closeIo statFails => ?_⟩
    exact takeCleanSealEvidence_of_not_live (not_live_run later hdead) closeIo statFails
  · intro c error w₁ hc hfail later closeIo statFails
    rcases refused_of_call hc with ⟨-, hno⟩ | hdead
    · rw [hno] at hfail
      cases hfail
    · exact takeCleanSealEvidence_of_not_live (not_live_run later hdead) closeIo statFails

end

/-! ## A run -/

/-- One frame whose write is cut twice, then a batch of two whose vectored write is interrupted. -/
def sampleCalls : List Writer.Call :=
  [.append firstSampleEnvelope { writes := [.wrote 3, .wrote 40] },
   .appendBatch sampleEnvelopes { writes := [.interrupted, .wrote 500], syncDue := true }]

/-- Three calls that fail behind them: an `fsync`, a write behind its third byte, and a `close`. -/
def failingCalls : List Writer.Call :=
  [.sync { fsyncFails := true },
   .append firstSampleEnvelope { writes := [.wrote 3, .failed] },
   .takeCleanSealEvidence { closeFails := true } false]

/-- The sample calls succeed, and the evidence issued is that of the scan of the file; behind each
of the failing ones there is none. -/
theorem cleanSealEvidence_eq_scan_sample :
    ∃ w ev w', Writer.create referenceCodec sampleHeader 1048576 false (some 16) {} = .ok w ∧
      (w.run referenceCodec sampleCalls).takeCleanSealEvidence referenceCodec {} false =
        .ok (ev, w') ∧
      VerifiedChunkEvidence.fromScan (scanChunk referenceCodec w'.file) = some ev ∧
      ∀ c ∈ failingCalls, ∃ error w₁,
        (w.run referenceCodec sampleCalls).call referenceCodec c = .error (error, w₁) ∧
          ∃ p, w₁.takeCleanSealEvidence referenceCodec {} false = .error p := by
  have hrun : (Writer.create referenceCodec sampleHeader 1048576 false (some 16) {}).toOption.map
      (fun w => ((w.run referenceCodec sampleCalls).closed,
        (w.run referenceCodec sampleCalls).state)) = some (false, .openClean) := by
    decide +kernel
  have hframe : (Writer.create referenceCodec sampleHeader 1048576 false (some 16) {}).toOption.map
      (fun w => ((w.run referenceCodec sampleCalls).prepareFrame referenceCodec
        firstSampleEnvelope).toOption.map fun frame => decide (3 < frame.exactBytes.length)) =
      some (some true) := by
    decide +kernel
  cases hcreate : Writer.create referenceCodec sampleHeader 1048576 false (some 16) {} with
  | error e => simp [hcreate, Except.toOption] at hrun
  | ok w =>
    simp only [hcreate, Except.toOption, Option.map_some, Option.some.injEq, Prod.mk.injEq] at hrun
    have hcalls : ∀ c ∈ sampleCalls, ∀ e ∈ c.envelopes,
        RoundTrips referenceCodec e.canonicalMapping := by
      intro c hc e he
      refine roundTrips_sampleEnvelopes e ?_
      rcases List.mem_cons.mp hc with rfl | hc
      · rw [List.mem_singleton.mp he]
        exact List.mem_cons_self
      · obtain rfl := List.mem_singleton.mp hc
        exact he
    obtain ⟨hscan, hissue, hfailing, -⟩ :=
      cleanSealEvidence_eq_scan roundTrips_sampleHeader hcreate hcalls
    obtain ⟨ev, w', ht⟩ := hissue hrun.1 hrun.2
    refine ⟨w, ev, w', rfl, ht, hscan _ _ _ _ ht, fun c hc => ?_⟩
    have hopen : (w.run referenceCodec sampleCalls).IsOpen := hrun
    have hfails : c.Fails referenceCodec (w.run referenceCodec sampleCalls) := by
      rcases List.mem_cons.mp hc with rfl | hc
      · exact ⟨hopen, Or.inl rfl⟩
      rcases List.mem_cons.mp hc with rfl | hc
      · simp only [hcreate, Except.toOption, Option.map_some, Option.some.injEq] at hframe
        cases hprepare : (w.run referenceCodec sampleCalls).prepareFrame referenceCodec
            firstSampleEnvelope with
        | error e => simp [hprepare] at hframe
        | ok frame =>
          simp only [hprepare, Option.map_some, Option.some.injEq, decide_eq_true_eq] at hframe
          refine ⟨hopen, frame, hprepare, Or.inl ?_⟩
          obtain ⟨k, hk⟩ : ∃ k, frame.exactBytes.length = k + 1 + 3 :=
            ⟨frame.exactBytes.length - 4, by omega⟩
          rw [hk]
          exact Or.inr trivial
      · obtain rfl := List.mem_singleton.mp hc
        exact Or.inl ⟨hopen, Or.inr (Or.inl rfl)⟩
    obtain ⟨error, w₁, hcall, -, hnone⟩ := hfailing c hfails
    exact ⟨error, w₁, hcall, hnone [] {} false⟩

end MarketDataRecorder
