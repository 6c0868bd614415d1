import Mathlib.Algebra.BigOperators.Group.List.Lemmas
import Mathlib.Algebra.Ring.Int.Defs
import Mathlib.Logic.Function.Basic
import Mathlib.Tactic.ByContra
import MarketDataRecorder.Lib.GoodRuns

/-!
# The bounded queue

`spool/async_queue.py`: producers hand items to a consumer through a queue of bounded depth and of
bounded bytes. A put that finds no room starts a helper task that inserts its item once there
is, and waits for the helper, the end of the writer, a stop or a deadline. Each step below is
what runs between two awaits; a put is cancelled at one of its awaits. The time that a wait
takes is left open.

* `BoundedAsyncQueue.step` — the steps of all callers
* `BoundedAsyncQueue.Accounted` — what holds after any steps
* `BoundedAsyncQueue.accounts_iff` — the runs in which every put says what became of its item
-/

namespace MarketDataRecorder

/-- What a put comes to. -/
inductive PutOutcome where
  | inserted
  | writerStopped
  | stopRequested
  | backpressure
  | handoffTimeout
  | cancelled
  deriving DecidableEq, Repr

/-- How far a put has come. A helper that is not `woken` waits for a change of the space; a put that
is `leaving` awaits its tasks, and without an outcome will wait once more. -/
inductive PutPhase where
  | waiting (woken : Bool)
  | handedOver
  | leaving (outcome : Option PutOutcome)
  | ended (outcome : PutOutcome)
  deriving DecidableEq, Repr

/-- A call of `put`, or of `put_after_connection_close`. -/
structure PutCall (ι : Type) where
  item : ι
  afterClose : Bool
  stop : Bool
  phase : PutPhase

/-- `byte_capacity` with `size_of`. -/
structure ByteLimit (ι : Type) where
  capacity : Nat
  sizeOf : ι → Nat

/-- The queue, its calls, and what was inserted and taken so far. The objects `ι` are compared by
identity. -/
structure BoundedAsyncQueue (ι : Type) where
  capacity : Nat
  byteLimit : Option (ByteLimit ι)
  queue : List (Nat × ι)
  unfinished : Nat
  queuedBytes : Int
  ownedBytes : Int
  highWatermarkBytes : Int
  inflight : List ι
  calls : Nat → Option (PutCall ι)
  writerDone : Bool
  stopSet : Bool
  inserted : List (Nat × ι)
  taken : List (Nat × ι)

/-- A step of some caller. -/
inductive QueueStep (ι : Type) where
  | put (call : Nat) (item : ι) (afterClose stop : Bool)
  | helper (call : Nat)
  | resume (call : Nat) (stopSeen : Bool)
  | leave (call : Nat) (saturated : Bool)
  | cancel (call : Nat)
  | get
  | taskDone (item : Option ι)
  | stop
  | writerEnds

namespace BoundedAsyncQueue

variable {ι : Type}

/-- `__init__`. -/
def create (capacity : Nat) (byteLimit : Option (ByteLimit ι)) :
    Except String (BoundedAsyncQueue ι) :=
  if capacity < 1 then .error "queue capacity must be positive"
  else if byteLimit.any fun limit => limit.capacity < 1 then
    .error "byte capacity must be positive"
  else .ok {
    capacity := capacity
    byteLimit := byteLimit
    queue := []
    unfinished := 0
    queuedBytes := 0
    ownedBytes := 0
    highWatermarkBytes := 0
    inflight := []
    calls := fun _ => none
    writerDone := false
    stopSet := false
    inserted := []
    taken := [] }

variable (q : BoundedAsyncQueue ι)

/-- `_size`. -/
def size (item : ι) : Nat := q.byteLimit.elim 0 fun limit => limit.sizeOf item

/-- `_full`. -/
def full (size : Nat) : Bool :=
  q.capacity ≤ q.queue.length || q.byteLimit.any fun limit => limit.capacity < q.ownedBytes + size

/-- An item that no room could ever hold. -/
def oversize (size : Nat) : Bool := q.byteLimit.any fun limit => limit.capacity < size

def withCall (call : Nat) (c : PutCall ι) : BoundedAsyncQueue ι :=
  { q with calls := Function.update q.calls call (some c) }

def setPhase (call : Nat) (phase : PutPhase) : BoundedAsyncQueue ι :=
  { q with
    calls := Function.update q.calls call ((q.calls call).map fun c => { c with phase := phase }) }

/-- `_insert`. -/
def insert (call : Nat) (item : ι) : BoundedAsyncQueue ι :=
  { q with
    queue := q.queue ++ [(call, item)]
    unfinished := q.unfinished + 1
    queuedBytes := q.queuedBytes + q.size item
    ownedBytes := q.ownedBytes + q.size item
    highWatermarkBytes := max q.highWatermarkBytes (q.ownedBytes + q.size item)
    inserted := q.inserted ++ [(call, item)] }

/-- A helper that waits runs again. -/
def wake (c : PutCall ι) : PutCall ι :=
  match c.phase with
  | .waiting _ => { c with phase := .waiting true }
  | _ => c

/-- `_space_changed.set()`. -/
def spaceChanged : BoundedAsyncQueue ι :=
  { q with calls := fun call => (q.calls call).map wake }

/-- `put` and `put_after_connection_close`, up to their first await. -/
def startPut (call : Nat) (item : ι) (afterClose stop : Bool) : BoundedAsyncQueue ι :=
  let started (phase : PutPhase) := q.withCall call ⟨item, afterClose, stop, phase⟩
  if afterClose then
    -- An item that never fits is not waited for.
    if q.oversize (q.size item) then started (.ended .handoffTimeout) else started (.waiting true)
  else if q.writerDone then started (.ended .writerStopped)
  else if q.oversize (q.size item) then started (.ended .backpressure)
  else if q.full (q.size item) then started (.waiting true)
  else (started (.ended .inserted)).insert call item

/-- `_put_when_space`: one turn of its loop. -/
def runHelper (call : Nat) (item : ι) : BoundedAsyncQueue ι :=
  if q.full (q.size item) then q.setPhase call (.waiting false)
  else (q.setPhase call .handedOver).insert call item

/-- What `_put_waiting` makes of the tasks that are done when its wait ends. -/
def waitOutcome (c : PutCall ι) (stopSeen : Bool) : PutPhase :=
  if q.writerDone then .leaving (some .writerStopped)
  else if c.phase = .handedOver then
    -- The helper has inserted the item before the call could notice anything else.
    if c.stop then .leaving (some .inserted) else .ended .inserted
  else if c.stop ∧ q.stopSet ∧ stopSeen then .leaving (some .stopRequested)
  else if c.afterClose then .leaving (some .handoffTimeout)
  else .leaving none

/-- `get` and `get_nowait`: `_take`. -/
def take : BoundedAsyncQueue ι :=
  match q.queue with
  | [] => q
  | entry :: rest =>
    { q with
      queue := rest
      queuedBytes := q.queuedBytes - q.size entry.2
      inflight := if q.byteLimit.isSome then q.inflight ++ [entry.2] else q.inflight
      taken := q.taken ++ [entry] }.spaceChanged

/-- `task_done`; a call that raises changes nothing. -/
def taskDone [DecidableEq ι] (item : Option ι) : BoundedAsyncQueue ι :=
  let held := item.filter fun item => item ∈ q.inflight
  if q.byteLimit.isSome ∧ held = none then q
  else if q.unfinished = 0 then q
  else match held with
    | none => { q with unfinished := q.unfinished - 1 }
    | some item =>
      { q with
        unfinished := q.unfinished - 1
        ownedBytes := q.ownedBytes - q.size item
        inflight := q.inflight.erase item }.spaceChanged

/-- One step; one that its caller cannot take changes nothing. -/
def step [DecidableEq ι] (q : BoundedAsyncQueue ι) : QueueStep ι → BoundedAsyncQueue ι
  | .put call item afterClose stop =>
    -- A call that has started is not started again.
    if (q.calls call).isSome then q else q.startPut call item afterClose stop
  | .helper call =>
    match q.calls call with
    | some c => if c.phase = .waiting true then q.runHelper call c.item else q
    | none => q
  | .resume call stopSeen =>
    match q.calls call with
    | some c =>
      match c.phase with
      -- What a resumed call answers depends on what its helper did meanwhile.
      | .waiting _ | .handedOver => q.setPhase call (q.waitOutcome c stopSeen)
      | _ => q
    | none => q
  | .leave call saturated =>
    match q.calls call with
    | some c =>
      match c.phase with
      | .leaving (some outcome) => q.setPhase call (.ended outcome)
      | .leaving none =>
        q.setPhase call (if saturated then .ended .backpressure else .waiting true)
      | _ => q
    | none => q
  | .cancel call =>
    match q.calls call with
    | some c =>
      match c.phase with
      -- An answer that was given is not taken back.
      | .ended _ => q
      | _ => q.setPhase call (.leaving (some .cancelled))
    | none => q
  | .get => q.take
  | .taskDone item => q.taskDone item
  | .stop => { q with stopSet := true }
  | .writerEnds => { q with writerDone := true }

/-! ## What holds after any steps -/

end BoundedAsyncQueue

namespace PutPhase

/-- The helper of the put may still insert. -/
def Pending : PutPhase → Prop
  | waiting _ => True
  | leaving outcome => outcome = none
  | _ => False

/-- What the put will come to, if it is not cancelled before it returns. -/
def outcome : PutPhase → Option PutOutcome
  | leaving outcome => outcome
  | ended outcome => some outcome
  | _ => none

/-- The put has its item in the queue, as far as it knows. -/
def HandedIn (phase : PutPhase) : Prop :=
  phase = handedOver ∨ phase.outcome = some .inserted

end PutPhase

namespace BoundedAsyncQueue

variable {ι : Type} (q : BoundedAsyncQueue ι)

/-- The bytes of items. -/
def bytes (items : List ι) : Int := (items.map fun item => (q.size item : Int)).sum

/-- The item of a call was inserted. -/
def Inserted (call : Nat) : Prop := ∃ item, (call, item) ∈ q.inserted

/-- What every step keeps. -/
structure Accounted (q : BoundedAsyncQueue ι) : Prop where
  depth : q.queue.length ≤ q.capacity
  queued : q.queuedBytes = q.bytes (q.queue.map Prod.snd)
  owned : q.ownedBytes = q.bytes (q.queue.map Prod.snd) + q.bytes q.inflight
  limit : ∀ limit, q.byteLimit = some limit → q.ownedBytes ≤ limit.capacity
  order : q.inserted = q.taken ++ q.queue
  once : (q.inserted.map Prod.fst).Nodup
  started : ∀ call, q.Inserted call → ∃ c, q.calls call = some c ∧ ¬ c.phase.Pending
  handedIn : ∀ call c, q.calls call = some c → c.phase.HandedIn → (call, c.item) ∈ q.inserted

variable {q}

@[simp] theorem bytes_nil : q.bytes [] = 0 := rfl

@[simp] theorem bytes_cons (item : ι) (items : List ι) :
    q.bytes (item :: items) = q.size item + q.bytes items := by
  simp [bytes]

/-- The bytes of two lists add up. -/
theorem bytes_append (items more : List ι) :
    q.bytes (items ++ more) = q.bytes items + q.bytes more := by
  simp [bytes]

/-- An item that is taken out takes its bytes with it. -/
theorem bytes_erase [DecidableEq ι] {item : ι} {items : List ι} (h : item ∈ items) :
    q.bytes (items.erase item) = q.bytes items - q.size item := by
  have hperm : q.bytes items = q.bytes (item :: items.erase item) :=
    ((List.perm_cons_erase h).map _).sum_eq
  rw [hperm, bytes_cons]
  omega

/-- A pending call has inserted nothing. -/
theorem Accounted.not_inserted (h : q.Accounted) {call : Nat} {c : PutCall ι}
    (hcall : q.calls call = some c) (hpending : c.phase.Pending) : ¬ q.Inserted call := by
  intro hin
  obtain ⟨c', hcall', hnot⟩ := h.started call hin
  rw [hcall] at hcall'
  obtain rfl := Option.some.inj hcall'
  exact hnot hpending

/-- A step that changes the calls only. -/
theorem Accounted.ofCalls (h : q.Accounted) {calls : Nat → Option (PutCall ι)}
    (hstarted : ∀ call, q.Inserted call → ∃ c, calls call = some c ∧ ¬ c.phase.Pending)
    (hhanded : ∀ call c, calls call = some c → c.phase.HandedIn → (call, c.item) ∈ q.inserted) :
    Accounted { q with calls := calls } :=
  ⟨h.depth, h.queued, h.owned, h.limit, h.order, h.once, hstarted, hhanded⟩

/-- A call may move on where it becomes pending or handed in for a reason. -/
theorem Accounted.setPhase (h : q.Accounted) {call : Nat} {c : PutCall ι} {phase : PutPhase}
    (hcall : q.calls call = some c) (hpending : phase.Pending → c.phase.Pending)
    (hhanded : phase.HandedIn → (call, c.item) ∈ q.inserted) :
    (q.setPhase call phase).Accounted := by
  refine h.ofCalls ?_ ?_
  · intro other hother
    by_cases hsame : other = call
    · subst hsame
      refine ⟨{ c with phase := phase }, by rw [Function.update_self, hcall]; rfl, fun hp => ?_⟩
      exact h.not_inserted hcall (hpending hp) hother
    · rw [Function.update_of_ne hsame]
      exact h.started other hother
  · intro other c' hother hin
    by_cases hsame : other = call
    · subst hsame
      rw [Function.update_self, hcall] at hother
      obtain rfl := Option.some.inj hother
      exact hhanded hin
    · rw [Function.update_of_ne hsame] at hother
      exact h.handedIn other c' hother hin

@[simp] theorem wake_item (c : PutCall ι) : (wake c).item = c.item := by
  unfold wake
  split <;> rfl

/-- Only a pending call is woken. -/
theorem wake_of_not_pending {c : PutCall ι} (h : ¬ c.phase.Pending) : wake c = c := by
  unfold wake
  split
  · next woken hphase => exact absurd (by rw [hphase]; trivial) h
  · rfl

@[simp] theorem outcome_wake (c : PutCall ι) : (wake c).phase.outcome = c.phase.outcome := by
  unfold wake
  split
  · next woken hphase => rw [hphase]; rfl
  · rfl

/-- Waking hands nothing in. -/
theorem handedIn_of_wake {c : PutCall ι} (h : (wake c).phase.HandedIn) : c.phase.HandedIn := by
  unfold wake at h
  split at h
  · simp [PutPhase.HandedIn, PutPhase.outcome] at h
  · exact h

/-- Waking the waiting calls accounts for the same items. -/
theorem Accounted.spaceChanged (h : q.Accounted) : q.spaceChanged.Accounted := by
  refine h.ofCalls ?_ ?_
  · intro call hin
    obtain ⟨c, hcall, hnot⟩ := h.started call hin
    exact ⟨c, by rw [hcall, Option.map_some, wake_of_not_pending hnot], hnot⟩
  · intro call c hcall hin
    obtain ⟨c', hcall', rfl⟩ := Option.map_eq_some_iff.mp hcall
    rw [wake_item]
    exact h.handedIn call c' hcall' (handedIn_of_wake hin)

/-- **An insertion** where there is room, by a call that has not inserted yet. -/
theorem Accounted.insert (h : q.Accounted) {call : Nat} {c : PutCall ι}
    (hroom : q.full (q.size c.item) = false) (hnew : ¬ q.Inserted call)
    (hnot : ¬ c.phase.Pending) :
    ((q.withCall call c).insert call c.item).Accounted := by
  simp only [full, Bool.or_eq_false_iff, decide_eq_false_iff_not, not_le] at hroom
  refine ⟨?_, ?_, ?_, ?_, ?_, ?_, ?_, ?_⟩
  · simp only [BoundedAsyncQueue.insert, withCall, List.length_append, List.length_singleton]
    omega
  · have := h.queued
    simp only [BoundedAsyncQueue.insert, List.map_append, List.map_cons, List.map_nil]
    change q.queuedBytes + q.size c.item = q.bytes (q.queue.map Prod.snd ++ [c.item])
    rw [bytes_append, bytes_cons, bytes_nil, this]
    omega
  · have := h.owned
    simp only [BoundedAsyncQueue.insert, List.map_append, List.map_cons, List.map_nil]
    change q.ownedBytes + q.size c.item =
      q.bytes (q.queue.map Prod.snd ++ [c.item]) + q.bytes q.inflight
    rw [bytes_append, bytes_cons, bytes_nil, this]
    omega
  · intro limit hlimit
    have hle := hroom.2
    have hlimit' : q.byteLimit = some limit := hlimit
    rw [hlimit', Option.any_some, decide_eq_false_iff_not] at hle
    exact Int.not_lt.mp hle
  · simp only [BoundedAsyncQueue.insert, withCall]
    rw [h.order, List.append_assoc]
  · simp only [BoundedAsyncQueue.insert]
    rw [List.map_append, List.nodup_append]
    refine ⟨h.once, List.nodup_singleton _, ?_⟩
    rintro a ha b hb rfl
    obtain ⟨entry, hentry, rfl⟩ := List.mem_map.mp ha
    have heq : entry.1 = call := by simpa using hb
    exact hnew ⟨entry.2, by rw [← heq]; exact hentry⟩
  · rintro other ⟨item, hitem⟩
    by_cases hsame : other = call
    · subst hsame
      exact ⟨c, Function.update_self _ _ _, hnot⟩
    · rcases List.mem_append.mp hitem with hitem | hitem
      · obtain ⟨c', hcall', hnot'⟩ := h.started other ⟨item, hitem⟩
        exact ⟨c', (Function.update_of_ne hsame _ _).trans hcall', hnot'⟩
      · exact absurd (congrArg Prod.fst (List.mem_singleton.mp hitem)) hsame
  · intro other c' hother hin
    have hother' : Function.update q.calls call (some c) other = some c' := hother
    by_cases hsame : other = call
    · subst hsame
      rw [Function.update_self] at hother'
      obtain rfl := Option.some.inj hother'
      exact List.mem_append_right _ (List.mem_singleton_self _)
    · rw [Function.update_of_ne hsame] at hother'
      exact List.mem_append_left _ (h.handedIn other c' hother' hin)

/-- A put that starts is accounted for, whether it inserts, waits or refuses. -/
theorem Accounted.startPut (h : q.Accounted) {call : Nat} (hfree : q.calls call = none)
    (item : ι) (afterClose stop : Bool) : (q.startPut call item afterClose stop).Accounted := by
  have hnew : ¬ q.Inserted call := by
    intro hin
    obtain ⟨c, hcall, -⟩ := h.started call hin
    rw [hfree] at hcall
    cases hcall
  have hstarted : ∀ phase : PutPhase, ¬ phase.HandedIn →
      (q.withCall call ⟨item, afterClose, stop, phase⟩).Accounted := by
    intro phase hphase
    refine h.ofCalls ?_ ?_
    · intro other hin
      have hne : other ≠ call := fun heq => hnew (heq ▸ hin)
      rw [Function.update_of_ne hne]
      exact h.started other hin
    · intro other c hother hin
      by_cases hsame : other = call
      · subst hsame
        rw [Function.update_self] at hother
        obtain rfl := Option.some.inj hother
        exact absurd hin hphase
      · rw [Function.update_of_ne hsame] at hother
        exact h.handedIn other c hother hin
  simp only [BoundedAsyncQueue.startPut]
  split
  · split
    · exact hstarted _ (by simp [PutPhase.HandedIn, PutPhase.outcome])
    · exact hstarted _ (by simp [PutPhase.HandedIn, PutPhase.outcome])
  · split
    · exact hstarted _ (by simp [PutPhase.HandedIn, PutPhase.outcome])
    · split
      · exact hstarted _ (by simp [PutPhase.HandedIn, PutPhase.outcome])
      · split
        · exact hstarted _ (by simp [PutPhase.HandedIn, PutPhase.outcome])
        · next hroom =>
          exact @Accounted.insert ι q h call ⟨item, afterClose, stop, .ended .inserted⟩
            (Bool.eq_false_iff.mpr hroom) hnew id

/-- The phase of a call is one field of it. -/
theorem setPhase_eq {call : Nat} {c : PutCall ι} (hcall : q.calls call = some c)
    (phase : PutPhase) : q.setPhase call phase =
      q.withCall call { c with phase := phase } := by
  unfold BoundedAsyncQueue.setPhase withCall
  rw [hcall]
  rfl

/-- **The helper of a waiting call inserts its item once.** -/
theorem Accounted.runHelper (h : q.Accounted) {call : Nat} {c : PutCall ι}
    (hcall : q.calls call = some c) (hphase : c.phase = .waiting true) :
    (q.runHelper call c.item).Accounted := by
  have hpending : c.phase.Pending := by rw [hphase]; trivial
  unfold BoundedAsyncQueue.runHelper
  split
  · exact h.setPhase hcall (fun _ => hpending) (by simp [PutPhase.HandedIn, PutPhase.outcome])
  · next hroom =>
    rw [setPhase_eq hcall]
    exact @Accounted.insert ι q h call { c with phase := .handedOver }
      (Bool.eq_false_iff.mpr hroom) (h.not_inserted hcall hpending) id

/-- **A taken item leaves the queue and stays owned.** -/
theorem Accounted.take (h : q.Accounted) : q.take.Accounted := by
  unfold BoundedAsyncQueue.take
  split
  · exact h
  · next entry rest hqueue =>
    refine Accounted.spaceChanged ⟨?_, ?_, ?_, h.limit, ?_, h.once, h.started, h.handedIn⟩
    · have := h.depth
      rw [hqueue, List.length_cons] at this
      dsimp only
      omega
    · have := h.queued
      rw [hqueue, List.map_cons, bytes_cons] at this
      change q.queuedBytes - q.size entry.2 = q.bytes (rest.map Prod.snd)
      omega
    · have := h.owned
      rw [hqueue, List.map_cons, bytes_cons] at this
      change q.ownedBytes = q.bytes (rest.map Prod.snd) +
        q.bytes (if q.byteLimit.isSome then q.inflight ++ [entry.2] else q.inflight)
      split
      · rw [bytes_append, bytes_cons, bytes_nil]
        omega
      · next hnone =>
        have hzero : q.size entry.2 = 0 := by simp [size, Option.not_isSome_iff_eq_none.mp hnone]
        omega
    · dsimp only
      rw [h.order, hqueue, List.append_assoc]
      rfl

/-- **A done item gives its bytes back.** -/
theorem Accounted.taskDone [DecidableEq ι] (h : q.Accounted) (item : Option ι) :
    (q.taskDone item).Accounted := by
  simp only [BoundedAsyncQueue.taskDone]
  split
  · exact h
  · split
    · exact h
    · split
      · exact ⟨h.depth, h.queued, h.owned, h.limit, h.order, h.once, h.started, h.handedIn⟩
      · next held hheld =>
        have hmem : held ∈ q.inflight := by simpa using (Option.filter_eq_some_iff.mp hheld).2
        have howned := h.owned
        refine Accounted.spaceChanged
          ⟨h.depth, h.queued, ?_, ?_, h.order, h.once, h.started, h.handedIn⟩
        · change q.ownedBytes - q.size held =
            q.bytes (q.queue.map Prod.snd) + q.bytes (q.inflight.erase held)
          rw [bytes_erase hmem]
          omega
        · intro limit hlimit
          have hle := h.limit limit hlimit
          dsimp only
          omega

/-- **What every step keeps.** -/
theorem Accounted.step [DecidableEq ι] (h : q.Accounted) (action : QueueStep ι) :
    (q.step action).Accounted := by
  cases action with
  | put call item afterClose stop =>
    simp only [BoundedAsyncQueue.step]
    split
    · exact h
    · next hfree => exact h.startPut (Option.not_isSome_iff_eq_none.mp hfree) item afterClose stop
  | helper call =>
    simp only [BoundedAsyncQueue.step]
    split
    · next c hcall =>
      split
      · next hphase => exact h.runHelper hcall hphase
      · exact h
    · exact h
  | resume call stopSeen =>
    simp only [BoundedAsyncQueue.step]
    split
    · next c hcall =>
      split
      · next woken hphase =>
        refine h.setPhase hcall (fun _ => by rw [hphase]; trivial) ?_
        simp only [waitOutcome, hphase]
        split
        · simp [PutPhase.HandedIn, PutPhase.outcome]
        · split
          · next heq => cases heq
          · split
            · simp [PutPhase.HandedIn, PutPhase.outcome]
            · split <;> simp [PutPhase.HandedIn, PutPhase.outcome]
      · next hphase =>
        have hin := h.handedIn call c hcall (Or.inl hphase)
        refine h.setPhase hcall ?_ (fun _ => hin)
        simp only [waitOutcome, hphase, if_true]
        split
        · simp [PutPhase.Pending]
        · split <;> simp [PutPhase.Pending]
      · exact h
    · exact h
  | leave call saturated =>
    simp only [BoundedAsyncQueue.step]
    split
    · next c hcall =>
      split
      · next outcome hphase =>
        refine h.setPhase hcall (by simp [PutPhase.Pending]) fun hin => ?_
        refine h.handedIn call c hcall (Or.inr ?_)
        rw [hphase]
        simpa [PutPhase.HandedIn, PutPhase.outcome] using hin
      · next hphase =>
        refine h.setPhase hcall (fun _ => by rw [hphase]; rfl) ?_
        split <;> simp [PutPhase.HandedIn, PutPhase.outcome]
      · exact h
    · exact h
  | cancel call =>
    simp only [BoundedAsyncQueue.step]
    split
    · next c hcall =>
      split
      · exact h
      · exact h.setPhase hcall (by simp [PutPhase.Pending])
          (by simp [PutPhase.HandedIn, PutPhase.outcome])
    · exact h
  -- The reader and the writer touch no call.
  | get => exact h.take
  | taskDone item => exact h.taskDone item
  | stop => exact ⟨h.depth, h.queued, h.owned, h.limit, h.order, h.once, h.started, h.handedIn⟩
  | writerEnds =>
    exact ⟨h.depth, h.queued, h.owned, h.limit, h.order, h.once, h.started, h.handedIn⟩

/-! ## What puts say of their items -/

/-- No put that came to something else has its item inserted. -/
def Honest (q : BoundedAsyncQueue ι) : Prop :=
  ∀ call c outcome, q.calls call = some c → c.phase.outcome = some outcome →
    outcome ≠ .inserted → ¬ q.Inserted call

/-- A step that interrupts a put behind the insertion of its item: it is cancelled before it
returns, or it finds that the writer has ended as well. -/
def Interrupts (q : BoundedAsyncQueue ι) : QueueStep ι → Prop
  | .cancel call => ∃ c, q.calls call = some c ∧ c.phase ∈
      [PutPhase.handedOver, PutPhase.leaving (some .inserted)]
  | .resume call _ => q.writerDone ∧ ∃ c, q.calls call = some c ∧ c.phase = .handedOver
  | _ => False

/-- A call stays honest where it ends without an insert only when it made none. -/
theorem Honest.setPhase (h : q.Honest) {call : Nat} {c : PutCall ι} {phase : PutPhase}
    (hcall : q.calls call = some c) (hphase : ∀ outcome, phase.outcome = some outcome →
      outcome ≠ .inserted → ¬ q.Inserted call) : (q.setPhase call phase).Honest := by
  rw [setPhase_eq hcall]
  intro other c' outcome hother houtcome hne hin
  have hother' : Function.update q.calls call (some { c with phase := phase }) other = some c' :=
    hother
  by_cases hsame : other = call
  · subst hsame
    rw [Function.update_self] at hother'
    obtain rfl := Option.some.inj hother'
    exact hphase outcome houtcome hne hin
  · rw [Function.update_of_ne hsame] at hother'
    exact h other c' outcome hother' houtcome hne hin

/-- An insert makes a call's answer an insert. -/
theorem Honest.insert (h : q.Honest) {call : Nat} {c : PutCall ι}
    (hphase : ∀ outcome, c.phase.outcome = some outcome → outcome = .inserted) :
    ((q.withCall call c).insert call c.item).Honest := by
  rintro other c' outcome hother houtcome hne ⟨item, hitem⟩
  have hother' : Function.update q.calls call (some c) other = some c' := hother
  by_cases hsame : other = call
  · subst hsame
    rw [Function.update_self] at hother'
    obtain rfl := Option.some.inj hother'
    exact hne (hphase outcome houtcome)
  · rw [Function.update_of_ne hsame] at hother'
    rcases List.mem_append.mp hitem with hitem | hitem
    · exact h other c' outcome hother' houtcome hne ⟨item, hitem⟩
    · exact hsame (congrArg Prod.fst (List.mem_singleton.mp hitem))

/-- Waking makes no call answer otherwise. -/
theorem Honest.spaceChanged (h : q.Honest) : q.spaceChanged.Honest := by
  intro call c outcome hcall houtcome hne hin
  obtain ⟨c', hcall', rfl⟩ := Option.map_eq_some_iff.mp hcall
  rw [outcome_wake] at houtcome
  exact h call c' outcome hcall' houtcome hne hin

/-- A put that starts answers what it did. -/
theorem Honest.startPut (h : q.Honest) (ha : q.Accounted) {call : Nat}
    (hfree : q.calls call = none) (item : ι) (afterClose stop : Bool) :
    (q.startPut call item afterClose stop).Honest := by
  have hstarted : ∀ phase, (q.withCall call ⟨item, afterClose, stop, phase⟩).Honest := by
    intro phase other c' outcome hother houtcome hne hin
    have hother' : Function.update q.calls call (some ⟨item, afterClose, stop, phase⟩) other =
      some c' := hother
    by_cases hsame : other = call
    · subst hsame
      obtain ⟨c, hcall, -⟩ := ha.started other hin
      rw [hfree] at hcall
      cases hcall
    · rw [Function.update_of_ne hsame] at hother'
      exact h other c' outcome hother' houtcome hne hin
  simp only [BoundedAsyncQueue.startPut]
  split
  · split <;> exact hstarted _
  · split
    · exact hstarted _
    · split
      · exact hstarted _
      · split
        · exact hstarted _
        · exact @Honest.insert ι q h call ⟨item, afterClose, stop, .ended .inserted⟩
            fun outcome houtcome => (Option.some.inj houtcome).symm

/-- Taking an item answers no call. -/
theorem Honest.take (h : q.Honest) : q.take.Honest := by
  unfold BoundedAsyncQueue.take
  split
  · exact h
  · exact Honest.spaceChanged h

/-- Neither does a done item. -/
theorem Honest.taskDone [DecidableEq ι] (h : q.Honest) (item : Option ι) :
    (q.taskDone item).Honest := by
  simp only [BoundedAsyncQueue.taskDone]
  split
  · exact h
  · split
    · exact h
    · split
      · exact h
      · exact Honest.spaceChanged h

/-- A step that does not interrupt a put behind its insertion. -/
theorem Honest.step [DecidableEq ι] (h : q.Honest) (ha : q.Accounted) {action : QueueStep ι}
    (hnot : ¬ q.Interrupts action) : (q.step action).Honest := by
  cases action with
  | put call item afterClose stop =>
    simp only [BoundedAsyncQueue.step]
    split
    · exact h
    · next hfree =>
      exact h.startPut ha (Option.not_isSome_iff_eq_none.mp hfree) item afterClose stop
  | helper call =>
    simp only [BoundedAsyncQueue.step]
    split
    · next c hcall =>
      split
      · unfold BoundedAsyncQueue.runHelper
        split
        · exact h.setPhase hcall fun outcome houtcome =>
            absurd houtcome (by simp [PutPhase.outcome])
        · rw [setPhase_eq hcall]
          exact @Honest.insert ι q h call { c with phase := .handedOver }
            fun outcome houtcome => absurd houtcome (by simp [PutPhase.outcome])
      · exact h
    · exact h
  | resume call stopSeen =>
    simp only [BoundedAsyncQueue.step]
    split
    · next c hcall =>
      split
      · next woken hphase =>
        exact h.setPhase hcall fun _ _ _ =>
          ha.not_inserted hcall (by rw [hphase]; trivial)
      · next hphase =>
        have hwriter : ¬ q.writerDone = true := fun hdone => hnot ⟨hdone, c, hcall, hphase⟩
        refine h.setPhase hcall fun outcome houtcome hne => absurd ?_ hne
        simp only [waitOutcome, hphase, if_neg hwriter, if_true] at houtcome
        split at houtcome
        · exact (Option.some.inj houtcome).symm
        · exact (Option.some.inj houtcome).symm
      · exact h
    · exact h
  | leave call saturated =>
    simp only [BoundedAsyncQueue.step]
    split
    · next c hcall =>
      split
      · next outcome hphase =>
        refine h.setPhase hcall fun outcome' houtcome hne => ?_
        exact h call c outcome' hcall (by rw [hphase]; exact houtcome) hne
      · next hphase =>
        exact h.setPhase hcall fun _ _ _ => ha.not_inserted hcall (by rw [hphase]; rfl)
      · exact h
    · exact h
  | cancel call =>
    simp only [BoundedAsyncQueue.step]
    split
    · next c hcall =>
      split
      · exact h
      · next hnotEnded =>
        refine h.setPhase hcall fun _ _ _ hin => ?_
        -- The put has not come to an insertion: its helper is pending, or it failed before.
        cases hphase : c.phase with
        | waiting woken => exact ha.not_inserted hcall (by rw [hphase]; trivial) hin
        | handedOver => exact hnot ⟨c, hcall, by simp [hphase]⟩
        | leaving outcome =>
          cases outcome with
          | none => exact ha.not_inserted hcall (by rw [hphase]; rfl) hin
          | some outcome =>
            by_cases hinserted : outcome = .inserted
            · exact hnot ⟨c, hcall, by simp [hphase, hinserted]⟩
            · exact h call c outcome hcall (by rw [hphase]; rfl) hinserted hin
        | ended outcome => exact hnotEnded outcome hphase
    · exact h
  | get => exact h.take
  | taskDone item => exact h.taskDone item
  | stop => exact h
  | writerEnds => exact h

/-- A put that is interrupted behind the insertion of its item comes to something else. -/
theorem not_honest_step [DecidableEq ι] (ha : q.Accounted) {action : QueueStep ι}
    (hinterrupts : q.Interrupts action) : ¬ (q.step action).Honest := by
  have hbroken : ∀ {call : Nat} {c : PutCall ι} {outcome : PutOutcome},
      q.calls call = some c → c.phase.HandedIn → outcome ≠ .inserted →
        ¬ (q.setPhase call (.leaving (some outcome))).Honest := by
    intro call c outcome hcall hin hne hhonest
    have hset : (q.setPhase call (.leaving (some outcome))).calls call =
        some { c with phase := .leaving (some outcome) } := by
      rw [setPhase_eq hcall]
      exact Function.update_self _ _ _
    exact hhonest call _ outcome hset rfl hne ⟨c.item, ha.handedIn call c hcall hin⟩
  cases action with
  | cancel call =>
    obtain ⟨c, hcall, hphase⟩ := hinterrupts
    have hstep : q.step (.cancel call) = q.setPhase call (.leaving (some .cancelled)) := by
      simp only [BoundedAsyncQueue.step, hcall]
      rcases List.mem_cons.mp hphase with heq | heq
      · rw [heq]
      · rw [List.mem_singleton.mp heq]
    rw [hstep]
    refine hbroken hcall ?_ (by decide)
    rcases List.mem_cons.mp hphase with heq | heq
    · exact Or.inl heq
    · exact Or.inr (by rw [List.mem_singleton.mp heq]; rfl)
  | resume call stopSeen =>
    obtain ⟨hdone, c, hcall, hphase⟩ := hinterrupts
    have hstep : q.step (.resume call stopSeen) =
        q.setPhase call (.leaving (some .writerStopped)) := by
      simp only [BoundedAsyncQueue.step, hcall, hphase, waitOutcome, hdone, if_true]
    rw [hstep]
    exact hbroken hcall (Or.inl hphase) (by decide)
  | put _ _ _ _ => exact hinterrupts.elim
  | helper _ => exact hinterrupts.elim
  | leave _ _ => exact hinterrupts.elim
  | get => exact hinterrupts.elim
  | taskDone _ => exact hinterrupts.elim
  | stop => exact hinterrupts.elim
  | writerEnds => exact hinterrupts.elim

/-! ## Runs -/

/-- The accounts of a queue: its bounds, the order of its items, and what became of each put. -/
structure Accounts (q : BoundedAsyncQueue ι) : Prop where
  depth : q.queue.length ≤ q.capacity
  owned : q.ownedBytes = q.bytes (q.queue.map Prod.snd) + q.bytes q.inflight
  limit : ∀ limit, q.byteLimit = some limit → q.ownedBytes ≤ limit.capacity
  order : q.inserted = q.taken ++ q.queue
  succeeded : ∀ call c, q.calls call = some c → c.phase.outcome = some .inserted →
    q.inserted.filter (fun entry => entry.1 = call) = [(call, c.item)]
  failed : ∀ call c outcome, q.calls call = some c → c.phase.outcome = some outcome →
    outcome ≠ .inserted → ∀ item, (call, item) ∉ q.inserted

/-- A call that inserted is found once among the inserted. -/
theorem filter_eq_singleton {entries : List (Nat × ι)} (hnodup : (entries.map Prod.fst).Nodup)
    {entry : Nat × ι} (hmem : entry ∈ entries) :
    entries.filter (fun other => other.1 = entry.1) = [entry] := by
  induction entries with
  | nil => cases hmem
  | cons first rest ih =>
    rw [List.map_cons, List.nodup_cons] at hnodup
    rcases List.mem_cons.mp hmem with rfl | hrest
    · rw [List.filter_cons_of_pos (by simp), List.filter_eq_nil_iff.mpr]
      intro other hother
      simp only [decide_eq_true_eq]
      exact fun heq => hnodup.1 (heq ▸ List.mem_map_of_mem hother)
    · rw [List.filter_cons_of_neg, ih hnodup.2 hrest]
      simp only [decide_eq_true_eq]
      exact fun heq => hnodup.1 (heq ▸ List.mem_map_of_mem hrest)

/-- **A queue accounts for its items exactly where every answer is honest.** -/
theorem Accounted.accounts_iff_honest (ha : q.Accounted) : q.Accounts ↔ q.Honest := by
  constructor
  · rintro h call c outcome hcall houtcome hne ⟨item, hitem⟩
    exact h.failed call c outcome hcall houtcome hne item hitem
  · intro h
    refine ⟨ha.depth, ha.owned, ha.limit, ha.order, ?_, ?_⟩
    · intro call c hcall houtcome
      exact filter_eq_singleton ha.once (ha.handedIn call c hcall (Or.inr houtcome))
    · intro call c outcome hcall houtcome hne item hitem
      exact h call c outcome hcall houtcome hne ⟨item, hitem⟩

/-- A new queue is accounted for. -/
theorem accounted_create {capacity : Nat} {byteLimit : Option (ByteLimit ι)}
    (h : create capacity byteLimit = .ok q) : q.Accounted ∧ q.Honest := by
  unfold create at h
  split at h
  · cases h
  · split at h
    · cases h
    · obtain rfl := Except.ok.inj h
      refine ⟨⟨by simp, rfl, rfl, ?_, rfl, List.nodup_nil, ?_, ?_⟩, ?_⟩
      · intro limit _
        exact Int.natCast_nonneg _
      · rintro call ⟨item, hitem⟩
        cases hitem
      · intro call c hcall
        cases hcall
      · intro call c outcome hcall
        cases hcall

/-- **The accounts of the queue.** They are right in every state of a run exactly where no put is
interrupted between the insertion of its item and its return. -/
theorem accounts_iff [DecidableEq ι] {capacity : Nat} {byteLimit : Option (ByteLimit ι)}
    {start : BoundedAsyncQueue ι} (hcreate : create capacity byteLimit = .ok start)
    (actions : List (QueueStep ι)) :
    (∀ before after, actions = before ++ after → (before.foldl step start).Accounts) ↔
      ∀ before action after, actions = before ++ action :: after →
        ¬ (before.foldl step start).Interrupts action := by
  obtain ⟨ha, hh⟩ := accounted_create hcreate
  refine GoodRuns.good_iff ha (ha.accounts_iff_honest.mpr hh) ?_ ?_ actions
  · intro q action ha hgood hnot
    have hstep := ha.step action
    exact ⟨hstep, hstep.accounts_iff_honest.mpr ((ha.accounts_iff_honest.mp hgood).step ha hnot)⟩
  · intro q action ha _ hinterrupts haccounts
    exact not_honest_step ha hinterrupts ((ha.step action).accounts_iff_honest.mp haccounts)

/-- A queue of two items that hold twelve bytes together. -/
def limitedQueue : BoundedAsyncQueue Nat :=
  { capacity := 2, byteLimit := some ⟨12, id⟩, queue := [], unfinished := 0, queuedBytes := 0,
    ownedBytes := 0, highWatermarkBytes := 0, inflight := [], calls := fun _ => none,
    writerDone := false, stopSet := false, inserted := [], taken := [] }

/-- The second put finds no room for its bytes. Its helper still finds none when the first item has
left, and inserts its item once that one is done. -/
def sampleHandover : List (QueueStep Nat) :=
  [.put 0 10 false false, .put 1 5 false false, .helper 1, .get, .helper 1, .taskDone (some 10),
    .helper 1]

theorem accounts_sampleHandover :
    (sampleHandover.foldl step limitedQueue).Accounts ∧
      (sampleHandover.foldl step limitedQueue).inserted = [(0, 10), (1, 5)] ∧
      (sampleHandover.foldl step limitedQueue).ownedBytes = 5 := by
  have hcreate : create 2 (some ⟨12, id⟩) = .ok limitedQueue := rfl
  refine ⟨(accounts_iff hcreate sampleHandover).mpr ?_ sampleHandover []
    (List.append_nil _).symm, by decide, by decide⟩
  rintro before action after hsplit
  have hmem : action ∈ sampleHandover := by simp [hsplit]
  simp only [sampleHandover, List.mem_cons, List.not_mem_nil, or_false] at hmem
  rcases hmem with rfl | rfl | rfl | rfl | rfl | rfl | rfl <;> exact id

/-- A queue of one item without a byte limit. -/
def sampleQueue : BoundedAsyncQueue Nat :=
  { capacity := 1, byteLimit := none, queue := [], unfinished := 0, queuedBytes := 0,
    ownedBytes := 0, highWatermarkBytes := 0, inflight := [], calls := fun _ => none,
    writerDone := false, stopSet := false, inserted := [], taken := [] }

/-- A put that is cancelled when its helper has inserted its item. -/
theorem cancelled_put_inserts : ¬ ∀ actions : List (QueueStep Nat),
    (actions.foldl step sampleQueue).Accounts := by
  intro h
  have hfailed := (h [.put 0 10 false false, .put 1 11 false false, .helper 1, .get, .helper 1,
    .cancel 1]).failed 1 ⟨11, false, false, .leaving (some .cancelled)⟩ .cancelled rfl rfl
    (by decide) 11
  exact hfailed (by decide)

end BoundedAsyncQueue

end MarketDataRecorder
