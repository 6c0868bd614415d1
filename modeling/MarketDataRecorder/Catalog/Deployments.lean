import Mathlib.Data.List.Induction
import Mathlib.Data.String.Basic
import MarketDataRecorder.Lib.SortedDict
import MarketDataRecorder.Lib.Value

/-!
# Deployments

`create_deployment` and `transition_deployment` of `storage/catalog/reports.py`: a session for each
handoff of a Collector, and the log of its states under idempotency keys.

* `LegalHistory` — a log that follows `DEPLOYMENT_TRANSITIONS`
* `Audited` — each session is what its part of the log says
* `deployments_audited` — **the tables are audited after any calls**
-/

namespace MarketDataRecorder

/-! ## Tables -/

inductive DeploymentState where
  | candidateStarting
  | candidateReady
  | overlapConfirmed
  | cutoverComplete
  | rolledBack
  deriving DecidableEq, Repr

namespace DeploymentState

def text : DeploymentState → String
  | candidateStarting => "CANDIDATE_STARTING"
  | candidateReady => "CANDIDATE_READY"
  | overlapConfirmed => "OVERLAP_CONFIRMED"
  | cutoverComplete => "CUTOVER_COMPLETE"
  | rolledBack => "ROLLED_BACK"

/-- `DEPLOYMENT_TRANSITIONS`. -/
def transitions : DeploymentState → List DeploymentState
  | candidateStarting => [candidateReady, rolledBack]
  | candidateReady => [overlapConfirmed, rolledBack]
  | overlapConfirmed => [cutoverComplete, rolledBack]
  | cutoverComplete => []
  | rolledBack => []

end DeploymentState

/-- What a session is about. -/
structure DeploymentIdentity where
  reason : String
  market : String
  symbol : String
  activeInstanceId : String
  activeVersion : String
  candidateInstanceId : String
  candidateVersion : String
  deriving DecidableEq

/-- `all(identity)`, without the id of the deployment. -/
def DeploymentIdentity.isComplete (identity : DeploymentIdentity) : Bool :=
  [identity.reason, identity.market, identity.symbol, identity.activeInstanceId,
    identity.activeVersion, identity.candidateInstanceId, identity.candidateVersion].all (· ≠ "")

/-- A row of `deployment_sessions` under its `deployment_id`. -/
structure DeploymentSession extends DeploymentIdentity where
  state : DeploymentState
  createdAtUtcNs : Int
  updatedAtUtcNs : Int
  overlapStartedAtUtcNs : Option Int := none
  cutoverAtUtcNs : Option Int := none
  lastError : Option String := none
  deriving DecidableEq

/-- A row of `deployment_events`. -/
structure DeploymentEvent where
  deploymentId : String
  fromState : Option DeploymentState
  toState : DeploymentState
  occurredAtUtcNs : Int
  evidence : Value
  idempotencyKey : String
  deriving DecidableEq

/-- The two tables, the events in the order of their numbers. -/
structure DeploymentTables where
  sessions : SortedDict String DeploymentSession := .empty
  events : List DeploymentEvent := []

namespace DeploymentTables

variable (t : DeploymentTables)

/-- An event has the key. -/
def hasKey (idempotencyKey : String) : Bool :=
  t.events.any fun event => event.idempotencyKey = idempotencyKey

def startKey (deploymentId : String) : String := "deployment-start:" ++ deploymentId

/-- `create_deployment`. -/
def createDeployment (deploymentId : String) (identity : DeploymentIdentity)
    (occurredAtUtcNs : Int) (evidence : Value) : Except String DeploymentTables :=
  if deploymentId = "" ∨ identity.isComplete = false ∨ occurredAtUtcNs < 0 then
    .error "invalid deployment identity"
  else match t.sessions.get? deploymentId with
    | some existing =>
      if existing.toDeploymentIdentity ≠ identity then .error "deployment identity changed"
      else .ok t
    | none =>
      -- the key column is unique, and the transaction takes the session back
      if t.hasKey (startKey deploymentId) then
        .error "UNIQUE constraint failed: deployment_events.idempotency_key"
      else .ok {
        sessions := t.sessions.insert deploymentId
          { identity with
            state := .candidateStarting
            createdAtUtcNs := occurredAtUtcNs
            updatedAtUtcNs := occurredAtUtcNs }
        events := t.events ++ [⟨deploymentId, none, .candidateStarting, occurredAtUtcNs, evidence,
          startKey deploymentId⟩] }

/-- The `UPDATE` of a transition. -/
def updated (row : DeploymentSession) (toState : DeploymentState) (occurredAtUtcNs : Int)
    (error : Option String) : DeploymentSession :=
  { row with
    state := toState
    updatedAtUtcNs := occurredAtUtcNs
    overlapStartedAtUtcNs :=
      if toState = .overlapConfirmed then some occurredAtUtcNs else row.overlapStartedAtUtcNs
    cutoverAtUtcNs :=
      if toState = .cutoverComplete then some occurredAtUtcNs else row.cutoverAtUtcNs
    lastError := error }

/-- `transition_deployment`. A key that is there ends the call, whatever it was used for. -/
def transitionDeployment (deploymentId : String) (toState : DeploymentState)
    (idempotencyKey : String) (evidence : Value) (occurredAtUtcNs : Int)
    (error : Option String := none) : Except String DeploymentTables :=
  if deploymentId = "" ∨ idempotencyKey = "" ∨ occurredAtUtcNs < 0 then
    .error "invalid deployment transition"
  else if t.hasKey idempotencyKey then .ok t
  else match t.sessions.get? deploymentId with
    | none => .error s!"unknown deployment {deploymentId}"
    | some row =>
      if toState ∉ row.state.transitions then
        .error s!"invalid deployment transition {row.state.text} -> {toState.text}"
      else .ok {
        sessions := t.sessions.insert deploymentId (updated row toState occurredAtUtcNs error)
        events := t.events ++ [⟨deploymentId, some row.state, toState, occurredAtUtcNs, evidence,
          idempotencyKey⟩] }

/-- The events of a deployment. -/
def history (deploymentId : String) : List DeploymentEvent :=
  t.events.filter fun event => event.deploymentId = deploymentId

end DeploymentTables

/-! ## Calls -/

inductive DeploymentCall where
  | create (deploymentId : String) (identity : DeploymentIdentity) (occurredAtUtcNs : Int)
      (evidence : Value)
  | transition (deploymentId : String) (toState : DeploymentState) (idempotencyKey : String)
      (evidence : Value) (occurredAtUtcNs : Int) (error : Option String)

def DeploymentCall.perform (t : DeploymentTables) : DeploymentCall → Except String DeploymentTables
  | .create deploymentId identity occurredAtUtcNs evidence =>
    t.createDeployment deploymentId identity occurredAtUtcNs evidence
  | .transition deploymentId toState idempotencyKey evidence occurredAtUtcNs error =>
    t.transitionDeployment deploymentId toState idempotencyKey evidence occurredAtUtcNs error

/-- The tables after a call. One that raises leaves them as they are. -/
def DeploymentTables.next (t : DeploymentTables) (call : DeploymentCall) : DeploymentTables :=
  (call.perform t).toOption.getD t

/-- The tables after some calls. -/
def DeploymentTables.after (t : DeploymentTables) (calls : List DeploymentCall) :
    DeploymentTables :=
  calls.foldl DeploymentTables.next t

namespace DeploymentTables

variable {t u : DeploymentTables} {call : DeploymentCall} {deploymentId : String}
  {row : DeploymentSession}

/-! ## What a call does -/

/-- A new session with its first event. -/
structure Creates (t u : DeploymentTables) (deploymentId : String) (row : DeploymentSession)
    (event : DeploymentEvent) : Prop where
  absent : t.sessions.get? deploymentId = none
  fresh : t.hasKey event.idempotencyKey = false
  sessions : u.sessions = t.sessions.insert deploymentId row
  events : u.events = t.events ++ [event]
  id : event.deploymentId = deploymentId
  fromState : event.fromState = none
  toState : event.toState = .candidateStarting
  state : row.state = .candidateStarting
  created : row.createdAtUtcNs = event.occurredAtUtcNs
  updated : row.updatedAtUtcNs = event.occurredAtUtcNs
  overlap : row.overlapStartedAtUtcNs = none
  cutover : row.cutoverAtUtcNs = none

/-- One step of a session with its event. -/
structure Moves (t u : DeploymentTables) (deploymentId : String) (row : DeploymentSession)
    (event : DeploymentEvent) (error : Option String) : Prop where
  present : t.sessions.get? deploymentId = some row
  fresh : t.hasKey event.idempotencyKey = false
  sessions : u.sessions = t.sessions.insert deploymentId
    (updated row event.toState event.occurredAtUtcNs error)
  events : u.events = t.events ++ [event]
  id : event.deploymentId = deploymentId
  fromState : event.fromState = some row.state
  toState : event.toState ∈ row.state.transitions

/-- **One call**: it changes nothing, begins a session or moves one. -/
theorem next_cases (t : DeploymentTables) (call : DeploymentCall) :
    t.next call = t ∨
      (∃ deploymentId row event, Creates t (t.next call) deploymentId row event) ∨
      ∃ deploymentId row event error, Moves t (t.next call) deploymentId row event error := by
  unfold next
  cases call with
  | create deploymentId identity occurredAtUtcNs evidence =>
    simp only [DeploymentCall.perform, createDeployment]
    split
    · exact .inl rfl
    · split
      · split
        · exact .inl rfl
        · exact .inl rfl
      · next habsent =>
        split
        · exact .inl rfl
        · next hfresh =>
          let row : DeploymentSession := {
            identity with
            state := .candidateStarting
            createdAtUtcNs := occurredAtUtcNs
            updatedAtUtcNs := occurredAtUtcNs }
          let event : DeploymentEvent := ⟨deploymentId, none, .candidateStarting, occurredAtUtcNs,
            evidence, startKey deploymentId⟩
          exact .inr (.inl ⟨deploymentId, row, event, habsent, by simpa using hfresh, rfl, rfl, rfl,
            rfl, rfl, rfl, rfl, rfl, rfl, rfl⟩)
  | transition deploymentId toState idempotencyKey evidence occurredAtUtcNs error =>
    simp only [DeploymentCall.perform, transitionDeployment]
    split
    · exact .inl rfl
    · split
      · exact .inl rfl
      · next hfresh =>
        split
        · exact .inl rfl
        · next row hrow =>
          split
          · exact .inl rfl
          · next hto =>
            let event : DeploymentEvent := ⟨deploymentId, some row.state, toState, occurredAtUtcNs,
              evidence, idempotencyKey⟩
            exact .inr (.inr ⟨deploymentId, row, event, error, hrow, by simpa using hfresh, rfl,
              rfl, rfl, rfl, by simpa using hto⟩)

end DeploymentTables

/-! ## Histories -/

/-- A log that follows the transitions, with the state it ends in. -/
inductive LegalHistory : List DeploymentEvent → DeploymentState → Prop
  | start (event : DeploymentEvent) (hfrom : event.fromState = none)
      (hto : event.toState = .candidateStarting) : LegalHistory [event] .candidateStarting
  | step {events : List DeploymentEvent} {state : DeploymentState} (event : DeploymentEvent)
      (h : LegalHistory events state) (hfrom : event.fromState = some state)
      (hto : event.toState ∈ state.transitions) : LegalHistory (events ++ [event]) event.toState

/-- The states up to a state, where nothing was rolled back. -/
def DeploymentState.path : DeploymentState → List DeploymentState
  | candidateStarting => [candidateStarting]
  | candidateReady => [candidateStarting, candidateReady]
  | overlapConfirmed => [candidateStarting, candidateReady, overlapConfirmed]
  | cutoverComplete => [candidateStarting, candidateReady, overlapConfirmed, cutoverComplete]
  | rolledBack => []

/-- When a log came to a state for the first time. -/
def timeOf (events : List DeploymentEvent) (state : DeploymentState) : Option Int :=
  (events.find? fun event => event.toState = state).map DeploymentEvent.occurredAtUtcNs

namespace LegalHistory

variable {events : List DeploymentEvent} {state : DeploymentState}

theorem ne_nil (h : LegalHistory events state) : events ≠ [] := by
  cases h <;> simp

/-- The way to a state is determined by it. -/
theorem path (h : LegalHistory events state) (hstate : state ≠ .rolledBack) :
    events.map DeploymentEvent.toState = state.path := by
  induction h with
  | start event hfrom hto => simp [hto, DeploymentState.path]
  | @step events state event h hfrom hto ih =>
    -- nothing leads away from a rollback
    have hbefore : state ≠ .rolledBack := by
      rintro rfl
      simp [DeploymentState.transitions] at hto
    rw [List.map_append, ih hbefore]
    cases state <;> simp [DeploymentState.transitions] at hto
    · rcases hto with hto | hto
      · simp [hto, DeploymentState.path]
      · exact absurd hto hstate
    · rcases hto with hto | hto
      · simp [hto, DeploymentState.path]
      · exact absurd hto hstate
    · rcases hto with hto | hto
      · simp [hto, DeploymentState.path]
      · exact absurd hto hstate

/-- A log that ends in a rollback came there from a state that is not final. -/
theorem rolledBack (h : LegalHistory events .rolledBack) :
    ∃ before : DeploymentState, .rolledBack ∈ before.transitions ∧
      events.map DeploymentEvent.toState = before.path ++ [.rolledBack] := by
  generalize hstate : DeploymentState.rolledBack = state at h
  cases h with
  | start event hfrom hto => cases hstate
  | @step events before event h hfrom hto =>
    have hbefore : before ≠ .rolledBack := by
      rintro rfl
      simp [DeploymentState.transitions] at hto
    exact ⟨before, hstate ▸ hto, by simp [h.path hbefore]⟩

/-- A state that comes next was not there before. -/
theorem timeOf_next (h : LegalHistory events state) {next : DeploymentState}
    (hnext : next ∈ state.transitions) : timeOf events next = none := by
  have hstate : state ≠ .rolledBack := by
    rintro rfl
    simp [DeploymentState.transitions] at hnext
  have hne : ∀ event ∈ events, event.toState ≠ next := by
    intro event hevent heq
    have hmem : next ∈ state.path := by
      rw [← h.path hstate, ← heq]
      exact List.mem_map_of_mem hevent
    cases state <;> cases next <;>
      simp [DeploymentState.transitions, DeploymentState.path] at hnext hmem
  simpa [timeOf, List.find?_eq_none] using hne

end LegalHistory

theorem timeOf_append (events : List DeploymentEvent) (event : DeploymentEvent)
    (state : DeploymentState) : timeOf (events ++ [event]) state =
      (timeOf events state).or
        (if event.toState = state then some event.occurredAtUtcNs else none) := by
  unfold timeOf
  rw [List.find?_append]
  by_cases h : event.toState = state <;>
    cases events.find? (fun event => event.toState = state) <;> simp [h]

/-- A session is what its log says. -/
structure DeploymentSession.AgreesWith (row : DeploymentSession) (events : List DeploymentEvent) :
    Prop where
  legal : LegalHistory events row.state
  created : events.head?.map DeploymentEvent.occurredAtUtcNs = some row.createdAtUtcNs
  updated : events.getLast?.map DeploymentEvent.occurredAtUtcNs = some row.updatedAtUtcNs
  overlap : row.overlapStartedAtUtcNs = timeOf events .overlapConfirmed
  cutover : row.cutoverAtUtcNs = timeOf events .cutoverComplete

namespace DeploymentTables

variable {t u : DeploymentTables} {call : DeploymentCall} {deploymentId : String}
  {row : DeploymentSession} {event : DeploymentEvent} {error : Option String}

/-- The log and the sessions belong together. -/
structure Audited (t : DeploymentTables) : Prop where
  keys : (t.events.map DeploymentEvent.idempotencyKey).Nodup
  sessions : ∀ deploymentId row, t.sessions.get? deploymentId = some row →
    row.AgreesWith (t.history deploymentId)
  known : ∀ event ∈ t.events, ∃ row, t.sessions.get? event.deploymentId = some row

theorem history_append (hevents : u.events = t.events ++ [event]) (deploymentId : String) :
    u.history deploymentId =
      t.history deploymentId ++ if event.deploymentId = deploymentId then [event] else [] := by
  rw [history, hevents, List.filter_append, ← history]
  by_cases h : event.deploymentId = deploymentId <;> simp [h]

theorem keys_append (hkeys : (t.events.map DeploymentEvent.idempotencyKey).Nodup)
    (hfresh : t.hasKey event.idempotencyKey = false) :
    ((t.events ++ [event]).map DeploymentEvent.idempotencyKey).Nodup := by
  rw [List.map_append, List.nodup_append]
  refine ⟨hkeys, by simp, fun key hkey => ?_⟩
  obtain ⟨other, hother, rfl⟩ := List.mem_map.mp hkey
  simp only [hasKey, List.any_eq_false, decide_eq_true_eq] at hfresh
  simpa using hfresh other hother

namespace Audited

theorem empty : Audited {} := ⟨by simp, by simp, by simp⟩

theorem history_of_absent (h : Audited t) (habsent : t.sessions.get? deploymentId = none) :
    t.history deploymentId = [] := by
  refine List.filter_eq_nil_iff.mpr fun event hevent hid => ?_
  obtain ⟨row, hrow⟩ := h.known event hevent
  rw [of_decide_eq_true hid, habsent] at hrow
  cases hrow

theorem creates (h : Audited t) (hstep : Creates t u deploymentId row event) : Audited u := by
  have hnil := h.history_of_absent hstep.absent
  refine ⟨?_, fun id other hother => ?_, fun known hknown => ?_⟩
  · rw [hstep.events]
    exact keys_append h.keys hstep.fresh
  · rw [hstep.sessions, SortedDict.get?_insert] at hother
    rw [history_append hstep.events, hstep.id]
    split at hother
    · next heq =>
      subst heq
      cases hother
      rw [hnil, if_pos rfl, List.nil_append]
      have hlegal : LegalHistory [event] row.state := by
        rw [hstep.state]
        exact .start event hstep.fromState hstep.toState
      exact ⟨hlegal, by simp [hstep.created], by simp [hstep.updated],
        by simp [hstep.overlap, timeOf, hstep.toState],
        by simp [hstep.cutover, timeOf, hstep.toState]⟩
    · next hne =>
      rw [if_neg (Ne.symm hne), List.append_nil]
      exact h.sessions id other hother
  · rw [hstep.sessions, SortedDict.get?_insert]
    split
    · exact ⟨row, rfl⟩
    · next hne =>
      rw [hstep.events, List.mem_append, List.mem_singleton] at hknown
      rcases hknown with hknown | rfl
      · exact h.known known hknown
      · exact absurd hstep.id hne

/-- The times of a session after one step of it. -/
theorem agrees_updated (h : row.AgreesWith (t.history deploymentId))
    (hstep : Moves t u deploymentId row event error) :
    (updated row event.toState event.occurredAtUtcNs error).AgreesWith
      (t.history deploymentId ++ [event]) := by
  have hlegal : LegalHistory (t.history deploymentId ++ [event]) event.toState :=
    .step event h.legal hstep.fromState hstep.toState
  have hnew := h.legal.timeOf_next hstep.toState
  refine ⟨hlegal, ?_, by simp [updated], ?_, ?_⟩
  · rw [List.head?_append_of_ne_nil _ h.legal.ne_nil]
    exact h.created
  · show (if event.toState = .overlapConfirmed then _ else row.overlapStartedAtUtcNs) = _
    rw [timeOf_append, h.overlap]
    split
    · next hto => rw [← hto, hnew, Option.none_or]
    · rw [Option.or_none]
  · show (if event.toState = .cutoverComplete then _ else row.cutoverAtUtcNs) = _
    rw [timeOf_append, h.cutover]
    split
    · next hto => rw [← hto, hnew, Option.none_or]
    · rw [Option.or_none]

theorem moves (h : Audited t) (hstep : Moves t u deploymentId row event error) : Audited u := by
  refine ⟨?_, fun id other hother => ?_, fun known hknown => ?_⟩
  · rw [hstep.events]
    exact keys_append h.keys hstep.fresh
  · rw [hstep.sessions, SortedDict.get?_insert] at hother
    rw [history_append hstep.events, hstep.id]
    split at hother
    · next heq =>
      subst heq
      cases hother
      rw [if_pos rfl]
      exact agrees_updated (h.sessions _ _ hstep.present) hstep
    · next hne =>
      rw [if_neg (Ne.symm hne), List.append_nil]
      exact h.sessions id other hother
  · rw [hstep.sessions, SortedDict.get?_insert]
    split
    · exact ⟨_, rfl⟩
    · next hne =>
      rw [hstep.events, List.mem_append, List.mem_singleton] at hknown
      rcases hknown with hknown | rfl
      · exact h.known known hknown
      · exact absurd hstep.id hne

theorem next (h : Audited t) (call : DeploymentCall) : Audited (t.next call) := by
  rcases next_cases t call with heq | ⟨_, _, _, hstep⟩ | ⟨_, _, _, _, hstep⟩
  · rwa [heq]
  · exact h.creates hstep
  · exact h.moves hstep

theorem after (h : Audited t) (calls : List DeploymentCall) : Audited (t.after calls) := by
  induction calls generalizing t with
  | nil => exact h
  | cons call rest ih => exact ih (h.next call)

end Audited

/-! ## What stays -/

/-- The log only grows. A session stays what it is about, and a final one stays as it is. -/
structure Extends (t u : DeploymentTables) : Prop where
  events : t.events <+: u.events
  sessions : ∀ deploymentId row, t.sessions.get? deploymentId = some row →
    ∃ later, u.sessions.get? deploymentId = some later ∧
      later.toDeploymentIdentity = row.toDeploymentIdentity ∧
      later.createdAtUtcNs = row.createdAtUtcNs ∧ (row.state.transitions = [] → later = row)

namespace Extends

theorem refl (t : DeploymentTables) : Extends t t :=
  ⟨List.prefix_rfl, fun _ row hrow => ⟨row, hrow, rfl, rfl, fun _ => rfl⟩⟩

theorem trans {v : DeploymentTables} (h : Extends t u) (h' : Extends u v) : Extends t v := by
  refine ⟨h.events.trans h'.events, fun id row hrow => ?_⟩
  obtain ⟨later, hlater, hidentity, hcreated, hfinal⟩ := h.sessions id row hrow
  obtain ⟨last, hlast, hidentity', hcreated', hfinal'⟩ := h'.sessions id later hlater
  refine ⟨last, hlast, hidentity'.trans hidentity, hcreated'.trans hcreated, fun hstate => ?_⟩
  have hlater := hfinal hstate
  subst hlater
  exact hfinal' hstate

theorem creates (hstep : Creates t u deploymentId row event) : Extends t u := by
  refine ⟨hstep.events ▸ List.prefix_append _ _,
    fun id other hother => ⟨other, ?_, rfl, rfl, fun _ => rfl⟩⟩
  rw [hstep.sessions, SortedDict.get?_insert, if_neg]
  · exact hother
  · rintro rfl
    rw [hstep.absent] at hother
    cases hother

theorem moves (hstep : Moves t u deploymentId row event error) : Extends t u := by
  refine ⟨hstep.events ▸ List.prefix_append _ _, fun id other hother => ?_⟩
  rw [hstep.sessions]
  by_cases heq : deploymentId = id
  · subst heq
    cases Option.some.inj (hstep.present.symm.trans hother)
    refine ⟨updated row event.toState event.occurredAtUtcNs error,
      by rw [SortedDict.get?_insert, if_pos rfl], rfl, rfl, fun hfinal => ?_⟩
    have hto := hstep.toState
    rw [hfinal] at hto
    cases hto
  · refine ⟨other, ?_, rfl, rfl, fun _ => rfl⟩
    rw [SortedDict.get?_insert, if_neg (Ne.symm heq)]
    exact hother

theorem next (t : DeploymentTables) (call : DeploymentCall) : Extends t (t.next call) := by
  rcases next_cases t call with heq | ⟨_, _, _, hstep⟩ | ⟨_, _, _, _, hstep⟩
  · rw [heq]
    exact .refl t
  · exact .creates hstep
  · exact .moves hstep

theorem after (t : DeploymentTables) (calls : List DeploymentCall) : Extends t (t.after calls) := by
  induction calls generalizing t with
  | nil => exact .refl t
  | cons call rest ih => exact (Extends.next t call).trans (ih _)

end Extends

/-- **The deployments are audited.** After any calls, in any order and with any keys, each session
is what its part of the log says, and that part follows the transitions. Later calls keep the log
and the final sessions. -/
theorem deployments_audited (calls more : List DeploymentCall) :
    Audited (DeploymentTables.after {} calls) ∧
      Extends (DeploymentTables.after {} calls) (DeploymentTables.after {} (calls ++ more)) := by
  refine ⟨Audited.empty.after calls, ?_⟩
  show Extends _ ((calls ++ more).foldl DeploymentTables.next {})
  rw [List.foldl_append]
  exact .after _ more

end DeploymentTables

end MarketDataRecorder
