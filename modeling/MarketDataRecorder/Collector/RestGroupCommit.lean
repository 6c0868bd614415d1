import Mathlib.Data.List.Nodup
import Mathlib.Logic.Function.Basic
import Mathlib.Tactic.Common

/-!
# The group commit of the REST observations

`collector/coverage.py`: `persist_rest` puts an envelope into the queue of a spool. The first caller
leads: it drains the queue under a lock in a worker thread, again for those that have come in the
meantime, and resolves what they wait for. The maintenance loop drains under the same lock when
nobody leads. Each step is what runs between two awaits of a coroutine, or one move of the worker.
An envelope is named by its call.

* `RestGroupCommit.step` — the steps of callers, worker and maintenance
* `RestGroupCommit.Accounted` — what holds while no drain of the maintenance loses
  what is waited for
* `RestGroupCommit.persisted_before_return` — what a call that returns can rely on
-/

namespace MarketDataRecorder

/-- How a call of `persist_rest` ends. -/
inductive RestOutcome where
  | returned
  | failed
  | cancelled
  deriving DecidableEq, Repr

/-- How far a call has come. A call that `waits` has a future on a list of the leader; one that is
`woken` has not run on yet. -/
inductive RestCall where
  | leads
  | waits
  | woken (success : Bool)
  | ended (outcome : RestOutcome)
  deriving DecidableEq, Repr

/-- The worker under the lock of the spool. It is `closing` once it has seen the queue empty. A
cancellation of its owner is kept until it has ended. -/
structure SpoolDrain where
  maintenance : Bool
  closing : Bool
  cancelled : Bool
  deriving DecidableEq, Repr

/-- The call in `_rest_drain_in_progress` with its `batch_waiters`. -/
structure RestLeader where
  call : Nat
  batch : List Nat
  deriving DecidableEq, Repr

/-- A spool with its callers: the queue, what the worker has taken and not yet appended, what was
appended, and what a failed drain has taken with it. -/
structure RestGroupCommit where
  queue : List Nat
  taken : List Nat
  appended : List Nat
  lost : List Nat
  drain : Option SpoolDrain
  leader : Option RestLeader
  waiters : List Nat
  calls : Nat → Option RestCall

/-- A step of some party. -/
inductive RestStep where
  | persistRest (call : Nat) (room : Bool)
  | acquire
  | maintain
  | take
  | append (count : Nat)
  | seeEmpty
  | drainEnds (failed : Bool)
  | wake (call : Nat)
  | cancel (call : Nat)
  deriving DecidableEq, Repr

namespace RestGroupCommit

/-- Nothing has been called. -/
def create : RestGroupCommit where
  queue := []
  taken := []
  appended := []
  lost := []
  drain := none
  leader := none
  waiters := []
  calls := fun _ => none

/-- The call still has to hear of its envelope. -/
def pending (call : Option RestCall) : Bool := call = some .leads || call = some .waits

variable (s : RestGroupCommit)

def withCall (call : Nat) (phase : RestCall) : RestGroupCommit :=
  { s with calls := Function.update s.calls call (some phase) }

/-- `set_result` or `set_exception` on the futures that are not done. -/
def resolve (ids : List Nat) (success : Bool) : RestGroupCommit :=
  { s with calls := fun id =>
      if id ∈ ids ∧ s.calls id = some .waits then some (.woken success) else s.calls id }

/-- The worker of the leader. -/
def leaderDrain : SpoolDrain where
  maintenance := false
  closing := false
  cancelled := false

/-- `persist_rest` up to its first await. The lock is taken at once where it is free. -/
def persistRest (call : Nat) (room : Bool) : RestGroupCommit :=
  if s.calls call ≠ none then s
  else if room = false then s.withCall call (.ended .failed)
  else match s.leader with
    | none =>
      { s.withCall call .leads with
        queue := s.queue ++ [call]
        leader := some { call, batch := s.waiters }
        waiters := []
        -- The lock may be held by the maintenance: then the leader waits for it.
        drain := s.drain.or (some leaderDrain) }
    | some _ =>
      { s.withCall call .waits with
        queue := s.queue ++ [call]
        waiters := s.waiters ++ [call] }

/-- The leader raises: all that wait hear of it. -/
def leaderFails (leader : RestLeader) (outcome : RestOutcome) : RestGroupCommit :=
  { ((s.resolve leader.batch false).resolve s.waiters false).withCall leader.call (.ended outcome)
    with leader := none, waiters := [] }

/-- The leader returns after a drain. -/
def leaderReturns (leader : RestLeader) : RestGroupCommit :=
  { (s.resolve leader.batch true).withCall leader.call (.ended .returned) with leader := none }

/-- The leader drains again for those that have come in the meantime. -/
def drainsAgain (leader : RestLeader) : RestGroupCommit :=
  { s.resolve leader.batch true with
    leader := some { leader with batch := s.waiters }
    waiters := []
    drain := some leaderDrain }

/-- The leader goes on after a drain. -/
def leaderSucceeds (leader : RestLeader) : RestGroupCommit :=
  if s.waiters = [] then s.leaderReturns leader else s.drainsAgain leader

/-- The worker ends, and its owner goes on. A failure outranks a cancellation. -/
def drainEnds (failed : Bool) : RestGroupCommit :=
  match s.drain with
  | none => s
  | some drain =>
    if !failed && !drain.closing then s
    else
      -- What was taken and not appended is in no queue any more.
      let s := { s with lost := s.lost ++ s.taken, taken := [], drain := none }
      if drain.maintenance then s
      else match s.leader with
        | none => s
        | some leader =>
          if failed then s.leaderFails leader .failed
          else if drain.cancelled then s.leaderFails leader .cancelled
          else s.leaderSucceeds leader

/-- A cancellation of a call. The worker of a leader is not stopped by it. -/
def cancel (call : Nat) : RestGroupCommit :=
  match s.calls call with
  | some .waits => s.withCall call (.ended .cancelled)
  | some (.woken _) => s.withCall call (.ended .cancelled)
  | some .leads =>
    match s.leader, s.drain with
    | some leader, some drain =>
      if drain.maintenance then s.leaderFails leader .cancelled
      else { s with drain := some { drain with cancelled := true } }
    | some leader, none => s.leaderFails leader .cancelled
    | none, _ => s
  | _ => s

/-- A step. What cannot happen changes nothing. -/
def step : RestStep → RestGroupCommit
  | .persistRest call room => s.persistRest call room
  | .acquire =>
    match s.leader, s.drain with
    -- The drain lock is free and somebody leads.
    | some _, none => { s with drain := some leaderDrain }
    | _, _ => s
  | .maintain =>
    match s.leader, s.drain with
    | none, none =>
      { s with drain := some { maintenance := true, closing := false, cancelled := false } }
    | _, _ => s
  | .take =>
    match s.drain, s.queue with
    -- Nothing is taken once the drain has seen the queue empty.
    | some { closing := false, .. }, envelope :: rest =>
      { s with queue := rest, taken := s.taken ++ [envelope] }
    | _, _ => s
  | .append count =>
    match s.drain with
    | some { closing := false, .. } =>
      { s with appended := s.appended ++ s.taken.take count, taken := s.taken.drop count }
    | _ => s
  | .seeEmpty =>
    match s.drain with
    | some drain =>
      -- What was taken is appended before the queue counts as empty.
      if s.queue = [] ∧ s.taken = [] then { s with drain := some { drain with closing := true } }
      else s
    | none => s
  | .drainEnds failed => s.drainEnds failed
  | .wake call =>
    match s.calls call with
    | some (.woken success) => s.withCall call (.ended (if success then .returned else .failed))
    | _ => s
  | .cancel call => s.cancel call

/-- The state after some steps. -/
def run (steps : List RestStep) : RestGroupCommit := steps.foldl step s

/-- A drain of the maintenance does not fail with an envelope in hand that a call waits for. -/
def keepsWaited : RestStep → Bool
  | .drainEnds true =>
    !s.drain.any (·.maintenance) || s.taken.all fun id => !pending (s.calls id)
  | _ => true

/-- A run whose steps all keep it. -/
def keepsAll : RestGroupCommit → List RestStep → Bool
  | _, [] => true
  | s, action :: rest => s.keepsWaited action && keepsAll (s.step action) rest

/-! ## What the callers can rely on -/

/-- **What a call that returns can rely on**: its envelope was appended once, and nothing of it is
left to drain. -/
def ReturnsPersisted : Prop :=
  ∀ id, s.calls id = some (.ended .returned) →
    s.appended.count id = 1 ∧ id ∉ s.queue ∧ id ∉ s.taken

/-- **No caller is forgotten**: one that waits is on a list of the leader. -/
def WaitersListed : Prop :=
  ∀ id, s.calls id = some .waits →
    ∃ leader, s.leader = some leader ∧ (id ∈ leader.batch ∨ id ∈ s.waiters)

/-- **The end of a drain** resolves those it was for, and after a failure all that wait. -/
def ResolvesAtEnd : Prop :=
  ∀ leader drain failed, s.leader = some leader → s.drain = some drain →
    drain.maintenance = false → (failed = true ∨ drain.closing = true) →
    (∀ id ∈ leader.batch, (s.drainEnds failed).calls id ≠ some .waits) ∧
      (failed = true → ∀ id, (s.drainEnds failed).calls id ≠ some .waits)

/-- Where the envelopes are: each in one place only, where the worker finds it while its call waits,
and appended when its call has heard so. -/
structure Placed : Prop where
  once : ∀ id, s.queue.count id + s.taken.count id + s.appended.count id + s.lost.count id ≤ 1
  fresh : ∀ id, s.calls id = none →
    s.queue.count id + s.taken.count id + s.appended.count id + s.lost.count id = 0
  held : ∀ id, pending (s.calls id) = true →
    1 ≤ s.queue.count id + s.taken.count id + s.appended.count id
  kept : ∀ id, s.calls id = some (.woken true) ∨ s.calls id = some (.ended .returned) →
    1 ≤ s.appended.count id

/-- Who leads and who is on a list. -/
structure Led : Prop where
  leads : ∀ id, s.calls id = some .leads → ∃ leader, s.leader = some leader ∧ leader.call = id
  leader : ∀ leader, s.leader = some leader → s.calls leader.call = some .leads
  listed : s.WaitersListed
  known : ∀ id, (id ∈ s.waiters ∨ ∃ leader, s.leader = some leader ∧ id ∈ leader.batch) →
    s.calls id ≠ none

/-- What the worker has in hand. At its end the leader and its batch are appended. -/
structure Drained : Prop where
  taken : (s.drain = none ∨ ∃ drain, s.drain = some drain ∧ drain.closing = true) → s.taken = []
  closing : ∀ drain leader, s.drain = some drain → drain.closing = true →
    drain.maintenance = false → s.leader = some leader →
    ∀ id, (id = leader.call ∨ id ∈ leader.batch) → pending (s.calls id) = true →
      1 ≤ s.appended.count id
  owner : ∀ drain, s.drain = some drain → drain.maintenance = false → s.leader ≠ none

/-- What holds between the steps. -/
structure Accounted : Prop where
  placed : s.Placed
  led : s.Led
  drained : s.Drained

variable {s} {t : RestGroupCommit}

theorem accounted_create : create.Accounted := by
  refine ⟨⟨?_, ?_, ?_, ?_⟩, ⟨?_, ?_, ?_, ?_⟩, ⟨?_, ?_, ?_⟩⟩ <;>
    simp [create, pending, WaitersListed]

theorem pending_iff {call : Option RestCall} :
    pending call = true ↔ call = some .leads ∨ call = some .waits := by
  simp [pending]

@[simp]
theorem calls_withCall (call id : Nat) (phase : RestCall) :
    (s.withCall call phase).calls id = if id = call then some phase else s.calls id := by
  simp only [withCall, Function.update_apply]

@[simp]
theorem calls_resolve (ids : List Nat) (success : Bool) (id : Nat) :
    (s.resolve ids success).calls id =
      if id ∈ ids ∧ s.calls id = some .waits then some (.woken success) else s.calls id := rfl

/-! ## The places -/

/-- The calls go on and the envelopes stay. -/
theorem Placed.recalled (h : s.Placed) (hqueue : t.queue = s.queue) (htaken : t.taken = s.taken)
    (happended : t.appended = s.appended) (hlost : t.lost = s.lost)
    (hcalls : ∀ id, t.calls id = s.calls id ∨ t.calls id ≠ none ∧ pending (t.calls id) = false ∧
      (t.calls id = some (.woken true) ∨ t.calls id = some (.ended .returned) →
        1 ≤ s.appended.count id)) : t.Placed := by
  constructor
  · intro id
    rw [hqueue, htaken, happended, hlost]
    exact h.once id
  · intro id hnone
    rw [hqueue, htaken, happended, hlost]
    rcases hcalls id with hsame | ⟨hsome, -, -⟩
    · exact h.fresh id (hsame ▸ hnone)
    · exact absurd hnone hsome
  · intro id hpending
    rw [hqueue, htaken, happended]
    rcases hcalls id with hsame | ⟨-, hidle, -⟩
    · exact h.held id (hsame ▸ hpending)
    · rw [hidle] at hpending
      cases hpending
  · intro id hkept
    rw [happended]
    rcases hcalls id with hsame | ⟨-, -, happ⟩
    · exact h.kept id (hsame ▸ hkept)
    · exact happ hkept

/-- The worker moves envelopes on. -/
theorem Placed.moved (h : s.Placed) (hcalls : t.calls = s.calls) (hlost : t.lost = s.lost)
    (hplaces : ∀ id, t.queue.count id + t.taken.count id + t.appended.count id =
      s.queue.count id + s.taken.count id + s.appended.count id)
    (happended : ∀ id, s.appended.count id ≤ t.appended.count id) : t.Placed := by
  constructor
  · intro id
    have hone := h.once id
    rw [hlost, hplaces id]
    exact hone
  · intro id hnone
    rw [hlost, hplaces id]
    exact h.fresh id (hcalls ▸ hnone)
  · intro id hpending
    rw [hplaces id]
    exact h.held id (hcalls ▸ hpending)
  · intro id hkept
    exact Nat.le_trans (h.kept id (hcalls ▸ hkept)) (happended id)

/-- The worker ends with envelopes in hand that no call waits for. -/
theorem Placed.lost (h : s.Placed) (hidle : ∀ id ∈ s.taken, pending (s.calls id) = false) :
    ({ s with lost := s.lost ++ s.taken, taken := [], drain := none } :
      RestGroupCommit).Placed := by
  constructor
  · intro id
    have hone := h.once id
    simp only [List.count_append, List.count_nil]
    omega
  · intro id hnone
    have hzero := h.fresh id hnone
    simp only [List.count_append, List.count_nil]
    omega
  · intro id hpending
    have hheld := h.held id hpending
    have hnot : id ∉ s.taken := by
      intro hmem
      rw [hidle id hmem] at hpending
      cases hpending
    rw [List.count_eq_zero_of_not_mem hnot] at hheld
    simpa using hheld
  · exact h.kept

/-- A new call puts its envelope into the queue. -/
theorem Placed.enqueue (h : s.Placed) {call : Nat} {phase : RestCall} (hnew : s.calls call = none)
    (hphase : pending (some phase) = true) :
    ({ s.withCall call phase with queue := s.queue ++ [call] } : RestGroupCommit).Placed := by
  have hzero := h.fresh call hnew
  have hcount : ∀ id, (s.queue ++ [call]).count id =
      s.queue.count id + if call = id then 1 else 0 := by
    intro id
    rw [List.count_append, List.count_singleton]
    simp
  constructor
  · intro id
    have hone := h.once id
    by_cases hid : call = id
    · subst hid
      simp only [withCall, hcount, if_pos]
      omega
    · simpa only [withCall, hcount, if_neg hid, Nat.add_zero] using hone
  · intro id hnone
    by_cases hid : call = id
    · subst hid
      simp at hnone
    · have hold : s.calls id = none := by simpa [Ne.symm hid] using hnone
      simpa only [withCall, hcount, if_neg hid, Nat.add_zero] using h.fresh id hold
  · intro id hpending
    by_cases hid : call = id
    · subst hid
      simp only [withCall, hcount, if_pos]
      omega
    · have hold : pending (s.calls id) = true := by simpa [Ne.symm hid] using hpending
      simpa only [withCall, hcount, if_neg hid, Nat.add_zero] using h.held id hold
  · intro id hkept
    by_cases hid : call = id
    · subst hid
      simp only [calls_withCall, if_pos] at hkept
      rcases hkept with hkept | hkept
      · obtain rfl := Option.some.inj hkept
        cases hphase
      · obtain rfl := Option.some.inj hkept
        cases hphase
    · exact h.kept id (by simpa [Ne.symm hid] using hkept)

/-! ## The calls -/

/-- A call that does not lead ends. -/
theorem Accounted.ended (h : s.Accounted) {call : Nat} {outcome : RestOutcome}
    (hcall : s.calls call ≠ some .leads)
    (hreturned : outcome = .returned → 1 ≤ s.appended.count call) :
    (s.withCall call (.ended outcome)).Accounted := by
  have hsame : ∀ id phase, phase ≠ .ended outcome →
      (s.withCall call (.ended outcome)).calls id = some phase → s.calls id = some phase := by
    intro id phase hphase hcalls
    rw [calls_withCall] at hcalls
    split at hcalls
    · exact absurd (Option.some.inj hcalls).symm hphase
    · exact hcalls
  refine ⟨h.placed.recalled rfl rfl rfl rfl fun id => ?_, ⟨?_, ?_, ?_, ?_⟩,
    ⟨h.drained.taken, ?_, h.drained.owner⟩⟩
  · rw [calls_withCall]
    by_cases hid : id = call
    · rw [if_pos hid]
      refine Or.inr ⟨by simp, by simp [pending], ?_⟩
      rintro (hwoken | hended)
      · cases hwoken
      · rw [hid]
        exact hreturned (RestCall.ended.inj (Option.some.inj hended))
    · rw [if_neg hid]
      exact Or.inl rfl
  · exact fun id hleads => h.led.leads id (hsame id _ (by simp) hleads)
  · intro leader hleader
    have hleads := h.led.leader leader hleader
    rw [calls_withCall, if_neg]
    · exact hleads
    · rintro rfl
      exact hcall hleads
  · exact fun id hwaits => h.led.listed id (hsame id _ (by simp) hwaits)
  · intro id hlisted
    rw [calls_withCall]
    split
    · simp
    · exact h.led.known id hlisted
  · intro drain leader hdrain hclosing howner hleader id hid hpending
    refine h.drained.closing drain leader hdrain hclosing howner hleader id hid ?_
    rw [calls_withCall] at hpending
    split at hpending
    · cases hpending
    · exact hpending

/-- Nobody waits for anything where nobody leads. -/
theorem Led.not_pending (h : s.Led) (hleader : s.leader = none) (id : Nat) :
    pending (s.calls id) = false := by
  rw [Bool.eq_false_iff, ne_eq, pending_iff]
  rintro (hleads | hwaits)
  · obtain ⟨leader, hsome, -⟩ := h.leads id hleads
    rw [hleader] at hsome
    cases hsome
  · obtain ⟨leader, hsome, -⟩ := h.listed id hwaits
    rw [hleader] at hsome
    cases hsome

/-- A new call leads where nobody does, else it waits. -/
theorem Accounted.persistRest (h : s.Accounted) (call : Nat) (room : Bool) :
    (s.persistRest call room).Accounted := by
  rw [RestGroupCommit.persistRest]
  by_cases hnew : s.calls call = none
  swap
  · rw [if_pos hnew]
    exact h
  rw [if_neg (not_not_intro hnew)]
  by_cases hroom : room = false
  · rw [if_pos hroom]
    exact h.ended (by rw [hnew]; simp) (by simp)
  rw [if_neg hroom]
  split
  -- Nobody leads: the call becomes the leader and heads the queue.
  · next hleader =>
    have hidle := h.led.not_pending hleader
    have hqueued : ({ s.withCall call .leads with queue := s.queue ++ [call] } :
        RestGroupCommit).Placed := h.placed.enqueue hnew rfl
    have hold : ∀ id phase, phase ≠ .leads →
        (s.withCall call .leads).calls id = some phase → s.calls id = some phase := by
      intro id phase hphase hcalls
      rw [calls_withCall] at hcalls
      split at hcalls
      · exact absurd (Option.some.inj hcalls).symm hphase
      · exact hcalls
    refine ⟨hqueued.recalled rfl rfl rfl rfl fun _ => Or.inl rfl, ⟨?_, ?_, ?_, ?_⟩, ⟨?_, ?_, ?_⟩⟩
    · intro id hleads
      by_cases hid : id = call
      · exact ⟨_, rfl, hid.symm⟩
      · have hpending := hidle id
        rw [show s.calls id = some .leads by simpa [withCall, hid] using hleads] at hpending
        cases hpending
    · intro leader hnow
      obtain rfl := Option.some.inj hnow
      simp [withCall]
    · intro id hwaits
      have hpending := hidle id
      rw [hold id .waits (by simp) hwaits] at hpending
      cases hpending
    · rintro id (hwaits | ⟨leader, hnow, hbatch⟩)
      · cases hwaits
      · obtain rfl := Option.some.inj hnow
        show (s.withCall call .leads).calls id ≠ none
        rw [calls_withCall]
        split
        · simp
        · exact h.led.known id (Or.inl hbatch)
    · intro hdrain
      cases hlock : s.drain with
      | none => exact h.drained.taken (Or.inl hlock)
      | some drain =>
        simp only [hlock, Option.or_some] at hdrain
        exact h.drained.taken (Or.inr (by simpa [hlock] using hdrain))
    · intro drain leader hdrain hclosing howner
      cases hlock : s.drain with
      | none =>
        simp only [hlock, Option.none_or] at hdrain
        obtain rfl := Option.some.inj hdrain
        cases hclosing
      | some held =>
        simp only [hlock, Option.or_some] at hdrain
        obtain rfl := Option.some.inj hdrain
        exact absurd hleader (h.drained.owner held hlock howner)
    · simp
  -- Somebody leads: the call waits for a leader to append it.
  · next leader hleader =>
    have hqueued : ({ s.withCall call .waits with queue := s.queue ++ [call] } :
        RestGroupCommit).Placed := h.placed.enqueue hnew rfl
    have hother : ∀ id, s.calls id ≠ none → (s.withCall call .waits).calls id = s.calls id := by
      intro id hid
      rw [calls_withCall, if_neg]
      rintro rfl
      exact hid hnew
    refine ⟨hqueued.recalled rfl rfl rfl rfl fun _ => Or.inl rfl, ⟨?_, ?_, ?_, ?_⟩,
      ⟨h.drained.taken, ?_, h.drained.owner⟩⟩
    · intro id hleads
      by_cases hid : id = call
      · simp [withCall, hid] at hleads
      · exact h.led.leads id (by simpa [withCall, hid] using hleads)
    · intro leader' hleader'
      have hleads := h.led.leader leader' hleader'
      show (s.withCall call .waits).calls leader'.call = _
      rw [hother _ (by rw [hleads]; simp), hleads]
    · intro id hwaits
      by_cases hid : id = call
      · exact ⟨leader, hleader, Or.inr (List.mem_append_right _ (List.mem_singleton.mpr hid))⟩
      · obtain ⟨leader', hleader', hlisted⟩ :=
          h.led.listed id (by simpa [withCall, hid] using hwaits)
        exact ⟨leader', hleader', hlisted.imp_right (List.mem_append_left _)⟩
    · intro id hlisted
      by_cases hid : id = call
      · simp [withCall, hid]
      · have hknown : s.calls id ≠ none := by
          refine h.led.known id (hlisted.imp_left fun hwaits => ?_)
          simpa [hid] using hwaits
        show (s.withCall call .waits).calls id ≠ none
        rw [hother id hknown]
        exact hknown
    · intro drain leader' hdrain hclosing howner hleader' id hid hpending
      refine h.drained.closing drain leader' hdrain hclosing howner hleader' id hid ?_
      have hknown : s.calls id ≠ none := by
        rcases hid with rfl | hbatch
        · rw [h.led.leader leader' hleader']
          simp
        · exact h.led.known id (Or.inr ⟨leader', hleader', hbatch⟩)
      rw [← hother id hknown]
      exact hpending

/-! ## The end of a drain -/

theorem calls_leaderFails (leader : RestLeader) (outcome : RestOutcome) (id : Nat) :
    (s.leaderFails leader outcome).calls id =
      if id = leader.call then some (.ended outcome)
      else if (id ∈ leader.batch ∨ id ∈ s.waiters) ∧ s.calls id = some .waits then
        some (.woken false)
      else s.calls id := by
  have hcalls : (s.leaderFails leader outcome).calls id =
      (((s.resolve leader.batch false).resolve s.waiters false).withCall leader.call
        (.ended outcome)).calls id := rfl
  rw [hcalls, calls_withCall, calls_resolve, calls_resolve]
  by_cases hwaits : s.calls id = some .waits
  · by_cases hbatch : id ∈ leader.batch
    · simp [hwaits, hbatch]
    · simp [hwaits, hbatch]
  · simp [hwaits]

/-- A leader that raises leaves nobody waiting. -/
theorem Led.not_pending_leaderFails (h : s.Led) {leader : RestLeader}
    (hleader : s.leader = some leader) (outcome : RestOutcome) (id : Nat) :
    pending ((s.leaderFails leader outcome).calls id) = false := by
  rw [calls_leaderFails]
  by_cases hid : id = leader.call
  · rw [if_pos hid]
    rfl
  rw [if_neg hid]
  by_cases hlisted : (id ∈ leader.batch ∨ id ∈ s.waiters) ∧ s.calls id = some .waits
  · rw [if_pos hlisted]
    rfl
  rw [if_neg hlisted, Bool.eq_false_iff, ne_eq, pending_iff]
  rintro (hleads | hwaits)
  · obtain ⟨leader', hleader', hcall⟩ := h.leads id hleads
    obtain rfl := Option.some.inj (hleader.symm.trans hleader')
    exact hid hcall.symm
  · obtain ⟨leader', hleader', hon⟩ := h.listed id hwaits
    obtain rfl := Option.some.inj (hleader.symm.trans hleader')
    exact hlisted ⟨hon, hwaits⟩

theorem Placed.leaderFails (h : s.Placed) (leader : RestLeader) {outcome : RestOutcome}
    (houtcome : outcome ≠ .returned) : (s.leaderFails leader outcome).Placed := by
  refine h.recalled rfl rfl rfl rfl fun id => ?_
  rw [calls_leaderFails]
  by_cases hid : id = leader.call
  · rw [if_pos hid]
    exact Or.inr ⟨by simp, rfl, by simp [houtcome]⟩
  rw [if_neg hid]
  split
  · exact Or.inr ⟨by simp, rfl, by simp⟩
  · exact Or.inl rfl

theorem Led.leaderFails (h : s.Led) {leader : RestLeader} (hleader : s.leader = some leader)
    (outcome : RestOutcome) : (s.leaderFails leader outcome).Led := by
  have hidle := h.not_pending_leaderFails hleader outcome
  refine ⟨fun id hleads => ?_, fun _ hnone => ?_, fun id hwaits => ?_, ?_⟩
  · have hpending := hidle id
    rw [hleads] at hpending
    cases hpending
  · cases hnone
  · have hpending := hidle id
    rw [hwaits] at hpending
    cases hpending
  · rintro id (hwaits | ⟨_, hnone, -⟩)
    · cases hwaits
    · cases hnone

/-- The worker of the leader has ended, and the leader raises. -/
theorem Accounted.failsAtEnd (h : s.Accounted) {leader : RestLeader}
    (hleader : s.leader = some leader) {outcome : RestOutcome} (houtcome : outcome ≠ .returned) :
    (({ s with lost := s.lost ++ s.taken, taken := [], drain := none } :
      RestGroupCommit).leaderFails leader outcome).Accounted := by
  refine ⟨?_, ?_, ⟨fun _ => rfl, fun _ _ hnone => ?_, fun _ hnone => ?_⟩⟩
  · have hplaced := (h.placed.leaderFails leader houtcome).lost
      fun id _ => h.led.not_pending_leaderFails hleader outcome id
    exact hplaced
  · have hled := h.led.leaderFails hleader outcome
    exact ⟨hled.leads, hled.leader, hled.listed, hled.known⟩
  · cases hnone
  · cases hnone

/-- The leader raises before it has the lock. -/
theorem Accounted.failsUnlocked (h : s.Accounted) {leader : RestLeader}
    (hleader : s.leader = some leader)
    (howner : ∀ drain, s.drain = some drain → drain.maintenance = true) :
    (s.leaderFails leader .cancelled).Accounted := by
  refine ⟨h.placed.leaderFails leader (by simp), h.led.leaderFails hleader _,
    ⟨h.drained.taken, fun _ _ _ _ _ hnone => ?_, fun drain hdrain hmaintenance => ?_⟩⟩
  · cases hnone
  · have hlock : s.drain = some drain := hdrain
    rw [howner drain hlock] at hmaintenance
    cases hmaintenance

/-- The worker gives the lock back with nothing in hand that a call waits for. -/
theorem Accounted.released (h : s.Accounted)
    (hidle : ∀ id ∈ s.taken, pending (s.calls id) = false) :
    ({ s with lost := s.lost ++ s.taken, taken := [], drain := none } :
      RestGroupCommit).Accounted := by
  refine ⟨h.placed.lost hidle, ⟨h.led.leads, h.led.leader, h.led.listed, h.led.known⟩,
    ⟨fun _ => rfl, fun _ _ hnone => ?_, fun _ hnone => ?_⟩⟩
  · cases hnone
  · cases hnone

/-- The batch of the leader hears of it, and the leader goes on with those that have come in the
meantime, or returns. -/
theorem Accounted.leaderSucceeds (h : s.Accounted) {leader : RestLeader}
    (hleader : s.leader = some leader) (hfree : s.drain = none)
    (happended : ∀ id, (id = leader.call ∨ id ∈ leader.batch) → pending (s.calls id) = true →
      1 ≤ s.appended.count id) : (s.leaderSucceeds leader).Accounted := by
  have htaken := h.drained.taken (Or.inl hfree)
  have hcall : s.calls leader.call = some .leads := h.led.leader leader hleader
  have hbatch : ∀ id, (s.resolve leader.batch true).calls id = s.calls id ∨
      (s.resolve leader.batch true).calls id ≠ none ∧
        pending ((s.resolve leader.batch true).calls id) = false ∧
        ((s.resolve leader.batch true).calls id = some (.woken true) ∨
          (s.resolve leader.batch true).calls id = some (.ended .returned) →
            1 ≤ s.appended.count id) := by
    intro id
    rw [calls_resolve]
    split
    · next hwaits =>
      refine Or.inr ⟨by simp, rfl, fun _ => happended id (Or.inr hwaits.1) ?_⟩
      rw [hwaits.2]
      rfl
    · exact Or.inl rfl
  have hwaiting : ∀ id, (s.resolve leader.batch true).calls id = some .waits →
      id ∈ s.waiters := by
    intro id hwaits
    rw [calls_resolve] at hwaits
    split at hwaits
    · cases hwaits
    · next hnot =>
      obtain ⟨leader', hleader', hlisted⟩ := h.led.listed id hwaits
      obtain rfl := Option.some.inj (hleader.symm.trans hleader')
      exact hlisted.resolve_left fun hmem => hnot ⟨hmem, hwaits⟩
  have hleading : ∀ id, (s.resolve leader.batch true).calls id = some .leads →
      id = leader.call := by
    intro id hcalls
    rw [calls_resolve] at hcalls
    split at hcalls
    · cases hcalls
    · obtain ⟨leader', hleader', hid⟩ := h.led.leads id hcalls
      obtain rfl := Option.some.inj (hleader.symm.trans hleader')
      exact hid.symm
  rw [RestGroupCommit.leaderSucceeds]
  -- The batch is resolved in both cases. Without waiters the leader returns, else it goes on.
  by_cases hnobody : s.waiters = []
  · rw [if_pos hnobody]
    have hcalls : ∀ id, (s.leaderReturns leader).calls id =
        if id = leader.call then some (.ended .returned)
        else (s.resolve leader.batch true).calls id :=
      fun id => calls_withCall leader.call id _
    refine ⟨h.placed.recalled rfl rfl rfl rfl fun id => ?_, ⟨fun id hleads => ?_, fun _ hnone => ?_,
      fun id hwaits => ?_, ?_⟩,
        ⟨fun _ => htaken, fun _ _ _ _ _ hnone => ?_, fun drain hdrain => ?_⟩⟩
    · rw [hcalls]
      split
      · next hid =>
        refine Or.inr ⟨by simp, rfl, fun _ => happended id (Or.inl hid) ?_⟩
        rw [hid, hcall]
        rfl
      · exact hbatch id
    · rw [hcalls] at hleads
      split at hleads
      · cases hleads
      · next hid => exact absurd (hleading id hleads) hid
    · cases hnone
    · rw [hcalls] at hwaits
      split at hwaits
      · cases hwaits
      · have hmem := hwaiting id hwaits
        rw [hnobody] at hmem
        cases hmem
    · rintro id (hmem | ⟨_, hnone, -⟩)
      · have hwaiter : id ∈ s.waiters := hmem
        rw [hnobody] at hwaiter
        cases hwaiter
      · cases hnone
    · cases hnone
    · have hlock : s.drain = some drain := hdrain
      rw [hfree] at hlock
      cases hlock
  · rw [if_neg hnobody]
    refine ⟨h.placed.recalled rfl rfl rfl rfl hbatch, ⟨fun id hleads => ?_, fun _ hnow => ?_,
      fun id hwaits => ?_, ?_⟩, ⟨fun _ => htaken, fun drain _ hdrain hclosing => ?_, ?_⟩⟩
    · exact ⟨_, rfl, (hleading id hleads).symm⟩
    · obtain rfl := Option.some.inj hnow
      show (s.resolve leader.batch true).calls leader.call = some .leads
      simp [hcall]
    · exact ⟨_, rfl, Or.inl (hwaiting id hwaits)⟩
    · rintro id (hmem | ⟨_, hnow, hmem⟩)
      · cases hmem
      · obtain rfl := Option.some.inj hnow
        have hknown := h.led.known id (Or.inl hmem)
        rcases hbatch id with hsame | ⟨hsome, -, -⟩
        · exact fun hnone => hknown (hsame ▸ hnone)
        · exact hsome
    · obtain rfl := Option.some.inj hdrain
      cases hclosing
    · intro _ _ _ hnone
      cases hnone

/-- The batch of the drain has heard of it. -/
theorem not_waits_leaderSucceeds (leader : RestLeader) {id : Nat} (hmem : id ∈ leader.batch) :
    (s.leaderSucceeds leader).calls id ≠ some .waits := by
  have hresolved : (s.resolve leader.batch true).calls id ≠ some .waits := by
    rw [calls_resolve]
    by_cases hwaits : s.calls id = some .waits
    · rw [if_pos ⟨hmem, hwaits⟩]
      simp
    · rw [if_neg fun hboth => hwaits hboth.2]
      exact hwaits
  rw [leaderSucceeds]
  split
  · have hcalls : (s.leaderReturns leader).calls id = if id = leader.call then
        some (.ended .returned) else (s.resolve leader.batch true).calls id :=
      calls_withCall leader.call id _
    rw [hcalls]
    split
    · simp
    · exact hresolved
  · exact hresolved

/-- **The end of a drain**, of the leader or of the maintenance. -/
theorem Accounted.drainEnds (h : s.Accounted) {failed : Bool}
    (hkeep : s.keepsWaited (.drainEnds failed) = true) : (s.drainEnds failed).Accounted := by
  rw [RestGroupCommit.drainEnds]
  split
  · exact h
  next drain hdrain =>
  split
  · exact h
  next hends =>
  have hclosing : failed = false → drain.closing = true := by
    rintro rfl
    simpa using hends
  have hclosed : drain.closing = true → ∀ id ∈ s.taken, pending (s.calls id) = false := by
    intro hc id hmem
    rw [h.drained.taken (Or.inr ⟨drain, hdrain, hc⟩)] at hmem
    cases hmem
  dsimp only
  by_cases howner : drain.maintenance = true
  · rw [if_pos howner]
    refine h.released ?_
    cases failed with
    | false => exact hclosed (hclosing rfl)
    | true =>
      intro id hmem
      have hidle : ∀ id ∈ s.taken, pending (s.calls id) = false := by
        simpa [keepsWaited, hdrain, howner] using hkeep
      exact hidle id hmem
  · rw [if_neg howner]
    have howner' : drain.maintenance = false := by simpa using howner
    split
    · next hnone => exact absurd hnone (h.drained.owner drain hdrain howner')
    next leader hleader =>
    by_cases hfailed : failed = true
    · rw [if_pos hfailed]
      exact h.failsAtEnd hleader (by simp)
    rw [if_neg hfailed]
    by_cases hcancelled : drain.cancelled = true
    · rw [if_pos hcancelled]
      exact h.failsAtEnd hleader (by simp)
    rw [if_neg hcancelled]
    have hc := hclosing (by simpa using hfailed)
    exact (h.released (hclosed hc)).leaderSucceeds hleader rfl
      (h.drained.closing drain leader hdrain hc howner' hleader)

/-! ## The other steps -/

/-- The worker moves on under the lock. -/
theorem Accounted.moved (h : s.Accounted) {closing cancelled maintenance : Bool}
    (hdrain : s.drain = some { maintenance, closing, cancelled }) (hopen : closing = false)
    (hcalls : t.calls = s.calls) (hlost : t.lost = s.lost)
    (hplaces : ∀ id, t.queue.count id + t.taken.count id + t.appended.count id =
      s.queue.count id + s.taken.count id + s.appended.count id)
    (happended : ∀ id, s.appended.count id ≤ t.appended.count id) (hlock : t.drain = s.drain)
    (hleader : t.leader = s.leader) (hwaiters : t.waiters = s.waiters) : t.Accounted := by
  refine ⟨h.placed.moved hcalls hlost hplaces happended, ⟨?_, ?_, ?_, ?_⟩, ⟨?_, ?_, ?_⟩⟩
  · rw [hcalls, hleader]
    exact h.led.leads
  · rw [hcalls, hleader]
    exact h.led.leader
  · intro id hwaits
    rw [hcalls] at hwaits
    rw [hleader, hwaiters]
    exact h.led.listed id hwaits
  · rw [hcalls, hleader, hwaiters]
    exact h.led.known
  · rw [hlock, hdrain]
    rintro (hnone | ⟨drain, hsome, hclosing⟩)
    · cases hnone
    · obtain rfl := Option.some.inj hsome
      exact absurd (hopen.symm.trans hclosing) (by simp)
  · intro drain leader hsome hclosing
    rw [hlock, hdrain] at hsome
    obtain rfl := Option.some.inj hsome
    exact absurd (hopen.symm.trans hclosing) (by simp)
  · rw [hlock, hleader]
    exact h.drained.owner

/-- The lock is taken by the leader, or by the maintenance. -/
theorem Accounted.locked (h : s.Accounted) (hfree : s.drain = none) (maintenance : Bool)
    (howner : maintenance = false → s.leader ≠ none) :
    ({ s with drain := some { maintenance, closing := false, cancelled := false } } :
      RestGroupCommit).Accounted := by
  refine ⟨⟨h.placed.once, h.placed.fresh, h.placed.held, h.placed.kept⟩,
    ⟨h.led.leads, h.led.leader, h.led.listed, h.led.known⟩,
    ⟨fun _ => h.drained.taken (Or.inl hfree), fun drain _ hdrain hclosing => ?_,
      fun drain hdrain hmaintenance => ?_⟩⟩
  · obtain rfl := Option.some.inj hdrain
    cases hclosing
  · obtain rfl := Option.some.inj hdrain
    exact howner hmaintenance

/-- The worker sees the queue empty: what waits is appended. -/
theorem Accounted.seesEmpty (h : s.Accounted) {drain : SpoolDrain} (hdrain : s.drain = some drain)
    (hqueue : s.queue = []) (htaken : s.taken = []) :
    ({ s with drain := some { drain with closing := true } } : RestGroupCommit).Accounted := by
  refine ⟨⟨h.placed.once, h.placed.fresh, h.placed.held, h.placed.kept⟩,
    ⟨h.led.leads, h.led.leader, h.led.listed, h.led.known⟩,
    ⟨fun _ => htaken, fun _ _ _ _ _ _ id _ hpending => ?_, fun closed hclosed hmaintenance => ?_⟩⟩
  · have hheld := h.placed.held id hpending
    simpa [hqueue, htaken] using hheld
  · obtain rfl := Option.some.inj hclosed
    exact h.drained.owner drain hdrain hmaintenance

theorem Accounted.cancel (h : s.Accounted) (call : Nat) : (s.cancel call).Accounted := by
  rw [RestGroupCommit.cancel]
  split
  · next hwaits => exact h.ended (by rw [hwaits]; simp) (by simp)
  · next hwoken => exact h.ended (by rw [hwoken]; simp) (by simp)
  · next hleads =>
    split
    · next leader drain hleader hdrain =>
      by_cases howner : drain.maintenance = true
      · rw [if_pos howner]
        refine h.failsUnlocked hleader fun held hheld => ?_
        obtain rfl := Option.some.inj (hdrain.symm.trans hheld)
        exact howner
      · -- The worker goes on; only its end will show the cancellation.
        rw [if_neg howner]
        refine ⟨⟨h.placed.once, h.placed.fresh, h.placed.held, h.placed.kept⟩,
          ⟨h.led.leads, h.led.leader, h.led.listed, h.led.known⟩, ⟨?_, ?_, ?_⟩⟩
        · rintro (hnone | ⟨flagged, hflagged, hclosing⟩)
          · cases hnone
          · obtain rfl := Option.some.inj hflagged
            exact h.drained.taken (Or.inr ⟨drain, hdrain, hclosing⟩)
        · intro flagged leader' hflagged hclosing hmaintenance
          obtain rfl := Option.some.inj hflagged
          exact h.drained.closing drain leader' hdrain hclosing hmaintenance
        · intro flagged hflagged hmaintenance
          obtain rfl := Option.some.inj hflagged
          exact h.drained.owner drain hdrain hmaintenance
    · next leader hleader hdrain =>
      refine h.failsUnlocked hleader fun held hheld => ?_
      rw [hdrain] at hheld
      cases hheld
    · exact h
  · exact h

/-- **The step**: what waits stays accounted for. -/
theorem Accounted.step (h : s.Accounted) {action : RestStep}
    (hkeep : s.keepsWaited action = true) : (s.step action).Accounted := by
  cases action with
  | persistRest call room => exact h.persistRest call room
  | acquire =>
    rw [RestGroupCommit.step]
    split
    · next hleader hdrain => exact h.locked hdrain false (by rw [hleader]; simp)
    · exact h
  | maintain =>
    rw [RestGroupCommit.step]
    split
    · next hleader hdrain => exact h.locked hdrain true (by simp)
    · exact h
  | take =>
    rw [RestGroupCommit.step]
    split
    · next maintenance cancelled envelope rest hdrain hqueue =>
      refine h.moved hdrain rfl rfl rfl (fun id => ?_) (fun _ => Nat.le_refl _) rfl rfl rfl
      rw [hqueue]
      simp only [List.count_append, List.count_cons, List.count_nil]
      omega
    · exact h
  | append count =>
    rw [RestGroupCommit.step]
    split
    · next maintenance cancelled hdrain =>
      have hparts : ∀ id, s.taken.count id =
          (s.taken.take count).count id + (s.taken.drop count).count id := by
        intro id
        rw [← List.count_append, List.take_append_drop]
      refine h.moved hdrain rfl rfl rfl (fun id => ?_) (fun id => ?_) rfl rfl rfl
      · have hsplit := hparts id
        simp only [List.count_append]
        omega
      · simp only [List.count_append]
        omega
    · exact h
  | seeEmpty =>
    rw [RestGroupCommit.step]
    split
    · next drain hdrain =>
      split
      · next hempty => exact h.seesEmpty hdrain hempty.1 hempty.2
      · exact h
    · exact h
  -- The end of a drain is where the condition on waited envelopes is needed.
  | drainEnds failed => exact h.drainEnds hkeep
  | wake call =>
    rw [RestGroupCommit.step]
    split
    · next success hwoken =>
      refine h.ended (by rw [hwoken]; simp) fun hreturned => h.placed.kept call (Or.inl ?_)
      cases success with
      | false => cases hreturned
      | true => exact hwoken
    · exact h
  | cancel call => exact h.cancel call

/-! ## Runs -/

theorem Accounted.run : ∀ {before after : List RestStep} {s : RestGroupCommit}, s.Accounted →
    s.keepsAll (before ++ after) = true → (s.run before).Accounted
  | [], _, _, h, _ => h
  | action :: before, after, s, h, hkeep => by
    rw [List.cons_append, keepsAll, Bool.and_eq_true] at hkeep
    have hrest := Accounted.run (h.step hkeep.1) hkeep.2
    exact hrest

theorem Accounted.returnsPersisted (h : s.Accounted) : s.ReturnsPersisted := by
  intro id hreturned
  have hkept := h.placed.kept id (Or.inr hreturned)
  have hone := h.placed.once id
  refine ⟨by omega, fun hmem => ?_, fun hmem => ?_⟩
  · have hcount := List.count_pos_iff.mpr hmem
    omega
  · have hcount := List.count_pos_iff.mpr hmem
    omega

theorem Accounted.resolvesAtEnd (h : s.Accounted) : s.ResolvesAtEnd := by
  intro leader drain failed hleader hdrain howner hends
  have hgoes : ¬ (!failed && !drain.closing) = true := by
    rcases hends with rfl | hclosing
    · simp
    · simp [hclosing]
  have hfails : ∀ outcome id, (({ s with
      lost := s.lost ++ s.taken, taken := [], drain := none } :
        RestGroupCommit).leaderFails leader outcome).calls id ≠ some .waits := by
    intro outcome id hwaits
    have hidle := h.led.not_pending_leaderFails hleader outcome id
    rw [show (s.leaderFails leader outcome).calls id = some .waits from hwaits] at hidle
    cases hidle
  simp only [RestGroupCommit.drainEnds, hdrain, if_neg hgoes, howner, Bool.false_eq_true, if_false,
    hleader]
  by_cases hfailed : failed = true
  · rw [if_pos hfailed]
    exact ⟨fun id _ => hfails _ id, fun _ => hfails _⟩
  rw [if_neg hfailed]
  refine ⟨fun id hmem => ?_, fun hyes => absurd hyes hfailed⟩
  by_cases hcancelled : drain.cancelled = true
  · rw [if_pos hcancelled]
    exact hfails _ id
  rw [if_neg hcancelled]
  exact not_waits_leaderSucceeds leader hmem

/-- **The group commit**: while no drain of the maintenance fails with an envelope in hand that a
call waits for, a call returns normally only with its envelope appended once, each call that waits
is on a list of the leader, and the end of its drain resolves it. -/
theorem persisted_before_return (steps : List RestStep) (h : create.keepsAll steps = true)
    (before after : List RestStep) (hsplit : steps = before ++ after) :
    (create.run before).ReturnsPersisted ∧ (create.run before).WaitersListed ∧
      (create.run before).ResolvesAtEnd := by
  subst hsplit
  have haccounted := accounted_create.run h
  exact ⟨haccounted.returnsPersisted, haccounted.led.listed, haccounted.resolvesAtEnd⟩

/-- Two calls share the second drain of the first one. -/
def sampleShared : List RestStep :=
  [.persistRest 0 true, .take, .persistRest 1 true, .append 1, .persistRest 2 true, .take,
    .append 1, .take, .append 1, .seeEmpty, .drainEnds false, .seeEmpty, .drainEnds false,
    .wake 1, .wake 2]

theorem persisted_before_return_sampleShared :
    (create.run sampleShared).ReturnsPersisted ∧ (create.run sampleShared).WaitersListed ∧
      (create.run sampleShared).ResolvesAtEnd :=
  persisted_before_return sampleShared (by decide) sampleShared [] (List.append_nil _).symm

/-- The maintenance drains when a call comes in and takes its envelope; its drain fails, and the
call drains a queue that is empty. -/
def sampleMaintenance : List RestStep :=
  [.maintain, .persistRest 0 true, .take, .drainEnds true, .acquire, .seeEmpty, .drainEnds false]

/-- **A call returns without its envelope**, which the failed drain has taken with it. -/
theorem maintenance_loses_waited : ¬ (create.run sampleMaintenance).ReturnsPersisted := by
  intro h
  have hreturns := h 0 (by decide)
  revert hreturns
  decide

end RestGroupCommit

end MarketDataRecorder
