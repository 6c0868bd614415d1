import MarketDataRecorder.Supervisor.BlueGreen

/-!
# The steps of handoffs

Any number of handoffs over one Catalog, between them what the Collectors observe, how their tasks
end, and a machine that goes down.

* `SafeRecord` — what a handoff asked to stop, and what it had recorded before
* `Steps` — what one call does to the records of the others
* `Verifies` — a part of a handoff with its postcondition, and one rule for each of its actions
-/

namespace MarketDataRecorder

open Handoff

/-! ## Records -/

/-- What there is of one handoff: its session, its log, what it asked to stop and the gaps it
recorded. -/
structure HandoffRecord where
  session : Option DeploymentSession := none
  history : List DeploymentEvent := []
  stops : List Nat := []
  gaps : List String := []

namespace HandoffRecord

/-- The session is in a final state. -/
def Final (record : HandoffRecord) : Prop :=
  ∃ row, record.session = some row ∧ row.state.transitions = []

/-- The record behind a transition. -/
def moved (record : HandoffRecord) (row : DeploymentSession) (event : DeploymentEvent)
    (error : Option String) : HandoffRecord :=
  { record with
    session := some (DeploymentTables.updated row event.toState event.occurredAtUtcNs error)
    history := record.history ++ [event] }

/-- Both were seen at work behind their baselines. -/
def ProvesOverlap (event : DeploymentEvent) : Prop :=
  event.toState = .overlapConfirmed ∧
    ∃ deploymentId reason activeBaseline candidateBaseline active candidate,
      event.evidence = overlapEvidence deploymentId reason activeBaseline candidateBaseline active
        candidate ∧ activeBaseline < active.eventCount ∧ candidateBaseline < candidate.eventCount

end HandoffRecord

open HandoffRecord

/-- What a handoff asked to stop, and what it had recorded before. -/
structure SafeRecord (parties : Parties) (record : HandoffRecord) : Prop where
  known : ∀ handle ∈ record.stops, handle = parties.active ∨ handle = parties.candidate
  active : parties.active ∈ record.stops →
    (∃ event ∈ record.history, ProvesOverlap event) ∧ parties.candidate ∉ record.stops
  candidate : parties.candidate ∈ record.stops →
    (∀ event ∈ record.history, event.toState ≠ .overlapConfirmed) ∧ parties.active ∉ record.stops

namespace Fleet

def record (s : Fleet) (deploymentId : String) : HandoffRecord where
  session := s.deployments.sessions.get? deploymentId
  history := s.deployments.history deploymentId
  stops := (s.stops.filter fun stop => stop.2 = deploymentId).map Prod.fst
  gaps := (s.gaps.filter fun gap => gap.1 = deploymentId).map Prod.snd

end Fleet

/-! ## Keys -/

namespace Handoff

/-- The beginnings of the keys. -/
def keyHeads : List String :=
  ["deployment-start:", "candidate-ready:", "overlap-confirmed:", "cutover-complete:",
    "deployment-rollback:"]

/-- The keys of a handoff. -/
def keys (deploymentId : String) : List String := keyHeads.map (· ++ deploymentId)

theorem take_keyHeads : ∀ head ∈ keyHeads, 12 ≤ head.toList.length := by decide

/-- The heads of the keys differ within twelve characters. -/
theorem keyHeads_injective :
    ∀ a ∈ keyHeads, ∀ b ∈ keyHeads, a.toList.take 12 = b.toList.take 12 → a = b := by decide

/-- A key belongs to one handoff, and in it to one step. -/
theorem key_injective {a b : String} (ha : a ∈ keyHeads) (hb : b ∈ keyHeads) {d e : String}
    (h : a ++ d = b ++ e) : a = b ∧ d = e := by
  have hlist : a.toList ++ d.toList = b.toList ++ e.toList := by
    rw [← String.toList_append, ← String.toList_append, h]
  have hhead : a = b := by
    refine keyHeads_injective a ha b hb ?_
    have htake := congrArg (List.take 12) hlist
    rwa [List.take_append_of_le_length (take_keyHeads a ha),
      List.take_append_of_le_length (take_keyHeads b hb)] at htake
  subst hhead
  exact ⟨rfl, String.toList_injective (List.append_cancel_left hlist)⟩

/-- **A key belongs to one deployment.** -/
theorem eq_of_mem_keys {key d e : String} (hd : key ∈ keys d) (he : key ∈ keys e) : d = e := by
  obtain ⟨a, ha, rfl⟩ := List.mem_map.mp hd
  obtain ⟨b, hb, heq⟩ := List.mem_map.mp he
  exact (key_injective hb ha heq).2.symm

end Handoff

/-! ## Calls -/

inductive CallName where
  | handoff (deploymentId : String)
  | other (number : Nat)
  deriving DecidableEq

inductive HandoffCall where
  | deploy (r : DeployRequest)
  | observe (handle : Nat) (call : ReadinessCall)
  | finish (handle : Nat) (taskEnd : TaskEnd)

/-- A Collector does not report the failures of a handoff as its own. -/
def PlainReason (reason : String) : Prop :=
  reason ≠ activeFailedBeforeReady ∧ reason ≠ activeFailedDuringOverlap

instance (reason : String) : Decidable (PlainReason reason) :=
  inferInstanceAs (Decidable (_ ∧ _))

/-- A call comes. The id of a handoff is new, and its candidate is not started, nor the candidate of
another one. -/
def HandoffCall.arrive (s : Fleet) : CallName → HandoffCall → Option Fleet
  | .handoff deploymentId, .deploy r =>
    if s.reserved.get? deploymentId = none ∧
        (s.reserved.items.all fun item => item.2.candidate ≠ r.candidate) ∧
        (s.collectors r.candidate).task = .notStarted then
      some { s with reserved := s.reserved.insert deploymentId ⟨r.active, r.candidate⟩ }
    else none
  | .other _, .observe _ (.failed reason) => if PlainReason reason then some s else none
  | .other _, .observe _ _ => some s
  | .other _, .finish _ _ => some s
  | _, _ => none

namespace Handoff

/-- A Collector observes something. -/
def observe (handle : Nat) (call : ReadinessCall) : Handoff Unit :=
  Interleaved.call fun _ s =>
    let (readiness, raised) := (s.collectors handle).readiness.perform call
    (raised.elim (.ok ()) .error,
      s.setCollector handle { s.collectors handle with readiness := readiness })

/-- The task of a Collector ends. -/
def finish (handle : Nat) (taskEnd : TaskEnd) : Handoff Unit :=
  Interleaved.call fun _ s =>
    (.ok (), if (s.collectors handle).task = .running then
      s.setCollector handle { s.collectors handle with task := .done taskEnd } else s)

end Handoff

def HandoffCall.program : CallName → HandoffCall → Handoff (Option DeploymentResult)
  | .handoff deploymentId, .deploy r => do
    let result ← Handoff.deploy deploymentId r
    return some result
  | _, .observe handle call => do
    Handoff.observe handle call
    return none
  | _, .finish handle taskEnd => do
    Handoff.finish handle taskEnd
    return none
  | _, _ => pure none

/-- The process is gone: the Catalog stays, and what ran has ended. -/
def Fleet.crashed (s : Fleet) : Fleet :=
  { s with collectors := fun handle =>
    { s.collectors handle with
      task := if (s.collectors handle).task = .running then .done .cancelled
        else (s.collectors handle).task } }

def handoffCallers :
    Callers Fleet HandoffChoice String (Option DeploymentResult) CallName HandoffCall Unit where
  initial s := s.deployments = {} ∧ s.reserved = .empty ∧ s.stops = [] ∧ s.gaps = [] ∧
    ∀ handle, (s.collectors handle).stop = false ∧
      ∀ reason ∈ (s.collectors handle).readiness.failure, PlainReason reason
  arrive name call s := call.arrive s name
  program := HandoffCall.program
  lose _ s := some s.crashed

/-! ## What holds in every state -/

/-- What holds of the Catalog and the Collectors. -/
structure Fleet.Inv (s : Fleet) : Prop where
  keyed : ∀ event ∈ s.deployments.events, event.idempotencyKey ∈ keys event.deploymentId ∧
    s.reserved.get? event.deploymentId ≠ none
  fresh : ∀ deploymentId, s.reserved.get? deploymentId = none → s.record deploymentId = {}
  safe : ∀ deploymentId parties, s.reserved.get? deploymentId = some parties →
    SafeRecord parties (s.record deploymentId)
  candidates : ∀ d p e q, s.reserved.get? d = some p → s.reserved.get? e = some q →
    p.candidate = q.candidate → d = e
  stopped : ∀ handle, (s.collectors handle).stop = true →
    ∃ deploymentId, (handle, deploymentId) ∈ s.stops
  plain : ∀ handle reason, (s.collectors handle).readiness.failure = some reason →
    PlainReason reason
  gaps : ∀ gap ∈ s.gaps, ∃ time row, s.operational.get? (gapEventId gap.1 time) = some row ∧
    row.eventType = gap.2

/-- A Collector later on: it is the same one, its count did not fall, and its task did not come
back. -/
structure Collector.Grows (c d : Collector) : Prop where
  instanceId : d.readiness.instanceId = c.readiness.instanceId
  events : c.readiness.eventCount ≤ d.readiness.eventCount
  ended : ∀ taskEnd, c.task.ended = some taskEnd → d.task.ended = some taskEnd

def Later (s t : Fleet) : Prop := ∀ handle, (s.collectors handle).Grows (t.collectors handle)

theorem Later.refl (s : Fleet) : Later s s := fun _ => ⟨rfl, le_rfl, fun _ h => h⟩

theorem Later.trans {s t u : Fleet} (h : Later s t) (h' : Later t u) : Later s u := fun handle =>
  ⟨(h' handle).instanceId.trans (h handle).instanceId, (h handle).events.trans (h' handle).events,
    fun _ hend => (h' handle).ended _ ((h handle).ended _ hend)⟩

/-- A Collector that has grown is a later one. -/
theorem later_setCollector {s : Fleet} {handle : Nat} {c : Collector}
    (h : (s.collectors handle).Grows c) : Later s (s.setCollector handle c) := by
  intro other
  by_cases heq : other = handle
  · subst heq
    rw [Fleet.setCollector_self]
    exact h
  · rw [Fleet.setCollector_of_ne _ _ heq]
    exact ⟨rfl, le_rfl, fun _ h => h⟩

/-- What one call does: it keeps what others hold, and a record that is final. -/
structure Steps (name : CallName) (s t : Fleet) : Prop where
  reserved : ∀ d p, s.reserved.get? d = some p → t.reserved.get? d = some p
  records : ∀ d, s.reserved.get? d ≠ none → name ≠ .handoff d ∨ (s.record d).Final →
    t.record d = s.record d
  later : Later s t
  unstarted : ∀ d p, s.reserved.get? d = some p → name ≠ .handoff d →
    (s.collectors p.candidate).task = .notStarted → (t.collectors p.candidate).task = .notStarted

/-- What a call guarantees. -/
def Guarantees (name : CallName) (s t : Fleet) : Prop := Steps name s t ∧ (s.Inv → t.Inv)

/-- What a handoff relies on. -/
structure Rests (deploymentId : String) (s t : Fleet) : Prop where
  inv : s.Inv → t.Inv
  reserved : ∀ p, s.reserved.get? deploymentId = some p → t.reserved.get? deploymentId = some p
  record : s.reserved.get? deploymentId ≠ none → t.record deploymentId = s.record deploymentId
  later : Later s t
  unstarted : ∀ p, s.reserved.get? deploymentId = some p →
    (s.collectors p.candidate).task = .notStarted → (t.collectors p.candidate).task = .notStarted

namespace Rests

variable {deploymentId : String} {s t u : Fleet}

theorem refl (deploymentId : String) (s : Fleet) : Rests deploymentId s s :=
  ⟨id, fun _ h => h, fun _ => rfl, .refl s, fun _ _ h => h⟩

theorem trans (h : Rests deploymentId s t) (h' : Rests deploymentId t u) :
    Rests deploymentId s u := by
  have hkept : s.reserved.get? deploymentId ≠ none → t.reserved.get? deploymentId ≠ none := by
    intro hne
    obtain ⟨p, hp⟩ := Option.ne_none_iff_exists'.mp hne
    rw [h.reserved p hp]
    simp
  exact ⟨fun hs => h'.inv (h.inv hs), fun p hp => h'.reserved p (h.reserved p hp),
    fun hne => (h'.record (hkept hne)).trans (h.record hne), h.later.trans h'.later,
    fun p hp hn => h'.unstarted p (h.reserved p hp) (h.unstarted p hp hn)⟩

/-- What another call guarantees leaves a deployment's record alone. -/
theorem of_guarantees {name : CallName} (hname : name ≠ .handoff deploymentId)
    (h : Guarantees name s t) : Rests deploymentId s t :=
  ⟨h.2, h.1.reserved deploymentId, fun hne => h.1.records deploymentId hne (.inl hname), h.1.later,
    fun p hp hn => h.1.unstarted deploymentId p hp hname hn⟩

end Rests

/-! ## Stages of a handoff -/

/-- Where a handoff is: its parties and its record, and whether its candidate was started. -/
structure Stage (deploymentId : String) (parties : Parties) (record : HandoffRecord) (begun : Bool)
    (s : Fleet) : Prop where
  inv : s.Inv
  reserved : s.reserved.get? deploymentId = some parties
  record : s.record deploymentId = record
  unstarted : begun = false → (s.collectors parties.candidate).task = .notStarted

/-- A part of a handoff meets a postcondition, whatever happens between its actions. -/
def Verifies {α : Type} (deploymentId : String) (Q : α → Fleet → Prop) (p : Handoff α) (s : Fleet) :
    Prop :=
  Interleaved.wp (Rests deploymentId) (Guarantees (.handoff deploymentId)) Q (fun _ _ => True) p s

section

variable {α β : Type} {d : String} {p : Parties} {rec : HandoffRecord} {begun : Bool}
  {s t u : Fleet} {Q : α → Fleet → Prop}

/-- **A stage survives what the others do.** -/
theorem Stage.rests (h : Stage d p rec begun s) (hrests : Rests d s t) : Stage d p rec begun t where
  inv := hrests.inv h.inv
  reserved := hrests.reserved p h.reserved
  record := (hrests.record (by simp [h.reserved])).trans h.record
  unstarted := fun hb => hrests.unstarted p h.reserved (h.unstarted hb)

/-- A program in two parts is verified part by part. -/
theorem verifies_bind {Q : β → Fleet → Prop} {x : Handoff α} {f : α → Handoff β}
    (h : Verifies d (fun a => Verifies d Q (f a)) x s) : Verifies d Q (x >>= f) s :=
  (Interleaved.wp_bind x f).mpr h

/-- A verified program reaches what follows from what it reaches. -/
theorem verifies_mono {Q' : α → Fleet → Prop} {x : Handoff α} (h : Verifies d Q x s)
    (hQ : ∀ a t, Q a t → Q' a t) : Verifies d Q' x s :=
  Interleaved.wp_mono h hQ fun _ _ h => h

theorem guarantees_refl (name : CallName) (s : Fleet) : Guarantees name s s :=
  ⟨⟨fun _ _ h => h, fun _ _ _ => rfl, .refl s, fun _ _ _ _ h => h⟩, id⟩

/-- One action that returns or raises. -/
theorem verifies_call {f : HandoffChoice → Fleet → Except String α × Fleet}
    (h : ∀ c, Guarantees (.handoff d) s (f c s).2 ∧
      ∀ a, (f c s).1 = .ok a → ∀ t, Rests d (f c s).2 t → Q a t) :
    Verifies d Q (Interleaved.call f) s :=
  Interleaved.wp_call fun c =>
    ⟨(h c).1, fun t ht => ⟨fun a ha => (h c).2 a ha t ht, fun _ _ => trivial⟩⟩

/-- A read. -/
theorem verifies_read {f : Fleet → α} (h : Stage d p rec begun s)
    (hQ : ∀ t, Stage d p rec begun t → Later s t → Q (f s) t) :
    Verifies d Q (Interleaved.call fun _ s => (.ok (f s), s)) s := by
  refine verifies_call fun c => ⟨guarantees_refl _ s, ?_⟩
  rintro a ⟨⟩ t ht
  exact hQ t (h.rests ht) ht.later

/-! ## Actions on Collectors -/

/-- A Collector that stops nobody and fails plainly keeps the invariant. -/
theorem inv_setCollector {handle : Nat} {c : Collector} (h : s.Inv)
    (hstop : c.stop = true → (s.collectors handle).stop = true)
    (hplain : ∀ reason, c.readiness.failure = some reason →
      (s.collectors handle).readiness.failure = some reason ∨ PlainReason reason) :
    (s.setCollector handle c).Inv := by
  refine ⟨h.keyed, h.fresh, h.safe, h.candidates, fun other hother => ?_,
    fun other reason hother => ?_, h.gaps⟩
  · by_cases heq : other = handle
    · subst heq
      rw [Fleet.setCollector_self] at hother
      exact h.stopped _ (hstop hother)
    · rw [Fleet.setCollector_of_ne s c heq] at hother
      exact h.stopped other hother
  · by_cases heq : other = handle
    · subst heq
      rw [Fleet.setCollector_self] at hother
      exact (hplain reason hother).elim (h.plain _ reason) id
    · rw [Fleet.setCollector_of_ne s c heq] at hother
      exact h.plain other reason hother

/-- A Collector changes in its own right. -/
theorem guarantees_setCollector {name : CallName} {handle : Nat} {c : Collector}
    (hgrows : (s.collectors handle).Grows c)
    (hstop : c.stop = true → (s.collectors handle).stop = true)
    (hplain : ∀ reason, c.readiness.failure = some reason →
      (s.collectors handle).readiness.failure = some reason ∨ PlainReason reason)
    (hstarted : ∀ d p, s.reserved.get? d = some p → name ≠ .handoff d → p.candidate = handle →
      (s.collectors handle).task = .notStarted → c.task = .notStarted) :
    Guarantees name s (s.setCollector handle c) := by
  refine ⟨⟨fun _ _ h => h, fun _ _ _ => rfl, later_setCollector hgrows, fun d p hp hname hn => ?_⟩,
    fun h => inv_setCollector h hstop hplain⟩
  by_cases heq : p.candidate = handle
  · rw [heq] at hn ⊢
    rw [Fleet.setCollector_self]
    exact hstarted d p hp hname heq hn
  · rw [Fleet.setCollector_of_ne _ _ heq]
    exact hn

/-- The context of a handoff is set without leaving the stage. -/
theorem verifies_setHandoffContext {Q : Unit → Fleet → Prop} {handle : Nat}
    {context : Option HandoffContext} (h : Stage d p rec begun s)
    (hQ : ∀ t, Stage d p rec begun t → Later s t → Q () t) :
    Verifies d Q (setHandoffContext handle context) s := by
  refine verifies_call fun c => ?_
  have hg : Guarantees (.handoff d) s
      (s.setCollector handle { s.collectors handle with context := context }) :=
    guarantees_setCollector ⟨rfl, le_rfl, fun _ h => h⟩ id (fun _ h => .inl h) fun _ _ _ _ _ h => h
  refine ⟨hg, ?_⟩
  rintro a ⟨⟩ t ht
  have hstage : Stage d p rec begun
      (s.setCollector handle { s.collectors handle with context := context }) := by
    refine ⟨hg.2 h.inv, h.reserved, h.record, fun hb => ?_⟩
    have hn := h.unstarted hb
    by_cases heq : p.candidate = handle
    · rw [heq] at hn ⊢
      rw [Fleet.setCollector_self]
      exact hn
    · rw [Fleet.setCollector_of_ne _ _ heq]
      exact hn
  exact hQ t (hstage.rests ht) (hg.1.later.trans ht.later)

/-- The candidate is started, once. -/
theorem verifies_start {Q : Unit → Fleet → Prop} (h : Stage d p rec false s)
    (hQ : ∀ t, Stage d p rec true t → Later s t → Q () t) :
    Verifies d Q (start p.candidate) s := by
  refine verifies_call fun c => ?_
  have hn := h.unstarted rfl
  have hg : Guarantees (.handoff d) s (s.setCollector p.candidate
      { s.collectors p.candidate with stop := false, task := .running }) := by
    refine guarantees_setCollector ⟨rfl, le_rfl, fun taskEnd hend => ?_⟩ (by rintro ⟨⟩)
      (fun _ h => .inl h) fun e q hq hname hcandidate => ?_
    · rw [hn] at hend
      cases hend
    · have hsame := h.inv.candidates d p e q h.reserved hq hcandidate.symm
      exact absurd (congrArg CallName.handoff hsame) hname
  refine ⟨hg, ?_⟩
  rintro a ⟨⟩ t ht
  have hstage : Stage d p rec true (s.setCollector p.candidate
      { s.collectors p.candidate with stop := false, task := .running }) :=
    ⟨hg.2 h.inv, h.reserved, h.record, by rintro ⟨⟩⟩
  exact hQ t (hstage.rests ht) (hg.1.later.trans ht.later)

/-! ## Actions on the record -/

/-- A change that a handoff makes to its own record. -/
structure OwnStep (d : String) (s u : Fleet) : Prop where
  reserved : u.reserved = s.reserved
  others : ∀ e, e ≠ d → u.record e = s.record e
  later : Later s u
  tasks : ∀ handle, (u.collectors handle).task = (s.collectors handle).task
  failures : ∀ handle, (u.collectors handle).readiness.failure =
    (s.collectors handle).readiness.failure
  stopped : ∀ handle, (u.collectors handle).stop = true →
    (s.collectors handle).stop = true ∨ ∃ d, (handle, d) ∈ u.stops
  stops : s.stops ⊆ u.stops
  operational : ∀ id row, s.operational.get? id = some row → u.operational.get? id = some row
  gaps : ∀ gap ∈ u.gaps, gap ∈ s.gaps ∨ ∃ time row,
    u.operational.get? (gapEventId gap.1 time) = some row ∧ row.eventType = gap.2
  events : ∀ event ∈ u.deployments.events, event ∈ s.deployments.events ∨
    (event.deploymentId = d ∧ event.idempotencyKey ∈ keys d)

/-- A deployment's own step keeps the invariant where its record is safe. -/
theorem OwnStep.inv (h : OwnStep d s u) (hstage : Stage d p rec begun s)
    (hsafe : SafeRecord p (u.record d)) : u.Inv := by
  have hinv := hstage.inv
  refine ⟨fun event hevent => ?_, fun e he => ?_, fun e q hq => ?_, ?_, fun handle hstop => ?_,
    fun handle reason hreason => ?_, fun gap hgap => ?_⟩
  · rw [h.reserved]
    rcases h.events event hevent with hold | ⟨hid, hkey⟩
    · exact hinv.keyed event hold
    · rw [hid]
      exact ⟨hkey, by simp [hstage.reserved]⟩
  · rw [h.reserved] at he
    have hne : e ≠ d := by
      rintro rfl
      rw [hstage.reserved] at he
      cases he
    rw [h.others e hne]
    exact hinv.fresh e he
  · rw [h.reserved] at hq
    by_cases heq : e = d
    · subst heq
      cases Option.some.inj (hstage.reserved.symm.trans hq)
      exact hsafe
    · rw [h.others e heq]
      exact hinv.safe e q hq
  · rw [h.reserved]
    exact hinv.candidates
  · rcases h.stopped handle hstop with hold | hnew
    · obtain ⟨e, he⟩ := hinv.stopped handle hold
      exact ⟨e, h.stops he⟩
    · exact hnew
  · rw [h.failures] at hreason
    exact hinv.plain handle reason hreason
  · rcases h.gaps gap hgap with hold | hnew
    · obtain ⟨time, row, hrow, htype⟩ := hinv.gaps gap hold
      exact ⟨time, row, h.operational _ row hrow, htype⟩
    · exact hnew

/-- **A change to its own record**, as long as it is not final. -/
theorem OwnStep.guarantees (h : OwnStep d s u) (hstage : Stage d p rec begun s)
    (hfinal : ¬ rec.Final) (hsafe : SafeRecord p (u.record d)) :
    Guarantees (.handoff d) s u ∧ Stage d p (u.record d) begun u := by
  have hinv := h.inv hstage hsafe
  refine ⟨⟨⟨fun e q hq => by rw [h.reserved]; exact hq, fun e _ hor => ?_, h.later,
    fun e q _ _ hn => by rw [h.tasks]; exact hn⟩, fun _ => hinv⟩, hinv,
    by rw [h.reserved]; exact hstage.reserved, rfl,
    fun hb => by rw [h.tasks]; exact hstage.unstarted hb⟩
  refine h.others e ?_
  rintro rfl
  rcases hor with hne | hfin
  · exact hne rfl
  · exact hfinal (hstage.record ▸ hfin)

/-- A record that has stopped nobody is safe. -/
theorem SafeRecord.of_stops_eq_nil (h : rec.stops = []) : SafeRecord p rec :=
  ⟨by simp [h], by simp [h], by simp [h]⟩

/-- A stop request is recorded with the deployment that made it. -/
theorem record_requestStop (handle : Nat) (s : Fleet) (e : String) :
    Fleet.record { s.setCollector handle { s.collectors handle with stop := true } with
        stops := s.stops ++ [(handle, d)] } e =
      { s.record e with stops := (s.record e).stops ++ if d = e then [handle] else [] } := by
  by_cases heq : d = e <;> simp [Fleet.record, Fleet.setCollector, heq]

/-- **A deployment may stop a Collector where its record stays safe.** -/
theorem verifies_requestStop {Q : Unit → Fleet → Prop} {handle : Nat} (h : Stage d p rec begun s)
    (hfinal : ¬ rec.Final) (hsafe : SafeRecord p { rec with stops := rec.stops ++ [handle] })
    (hQ : ∀ t, Stage d p { rec with stops := rec.stops ++ [handle] } begun t → Later s t → Q () t) :
    Verifies d Q (requestStop d handle) s := by
  refine verifies_call fun c => ?_
  dsimp only
  have hown := record_requestStop (d := d) handle s d
  rw [if_pos rfl, h.record] at hown
  have hstep : OwnStep d s { s.setCollector handle { s.collectors handle with stop := true } with
      stops := s.stops ++ [(handle, d)] } := by
    refine ⟨rfl, fun e he => ?_, later_setCollector ⟨rfl, le_rfl, fun _ h => h⟩, fun other => ?_,
      fun other => ?_, fun other hother => ?_, List.subset_append_left _ _, fun _ _ h => h,
      fun gap hgap => .inl hgap, fun event hevent => .inl hevent⟩
    · rw [record_requestStop, if_neg (Ne.symm he), List.append_nil]
    · by_cases heq : other = handle <;> simp [Fleet.setCollector, Function.update, heq]
    · by_cases heq : other = handle <;> simp [Fleet.setCollector, Function.update, heq]
    · by_cases heq : other = handle
      · exact .inr ⟨d, by simp [heq]⟩
      · have hkept := Fleet.setCollector_of_ne s { s.collectors handle with stop := true } heq
        exact .inl (hkept ▸ hother)
  obtain ⟨hg, hstage⟩ := hstep.guarantees h hfinal (hown ▸ hsafe)
  rw [hown] at hstage
  refine ⟨hg, ?_⟩
  rintro a ⟨⟩ t ht
  exact hQ t (hstage.rests ht) (hstep.later.trans ht.later)

/-- An event is recorded once under its id. -/
theorem recordOperationalEvent_eq_ok {events events' : EventTable} {eventId eventType : String}
    {occurredAt : Int} {evidence : Value} {inserted : Bool}
    (h : recordOperationalEvent events eventId eventType occurredAt evidence =
      .ok (events', inserted)) :
    (∀ id row, events.get? id = some row → events'.get? id = some row) ∧
      ∃ row, events'.get? eventId = some row ∧ row.eventType = eventType := by
  unfold recordOperationalEvent at h
  split at h
  · cases h
  · split at h
    · cases h
    · next body hbody =>
      dsimp only at h
      split at h
      · next habsent =>
        cases h
        refine ⟨fun id row hrow => ?_, _, by rw [SortedDict.get?_insert, if_pos rfl], rfl⟩
        rw [SortedDict.get?_insert, if_neg]
        · exact hrow
        · rintro rfl
          rw [habsent] at hrow
          cases hrow
      · next existing hexisting =>
        split at h
        · cases h
        · next heq =>
          cases h
          refine ⟨fun _ _ h => h, existing, hexisting, ?_⟩
          rw [not_not.mp heq]

/-- **A deployment may record a gap where its record stays safe.** -/
theorem verifies_recordGap {Q : Unit → Fleet → Prop} {eventType : String} {evidence : Value}
    (h : Stage d p rec begun s) (hfinal : ¬ rec.Final)
    (hsafe : SafeRecord p { rec with gaps := rec.gaps ++ [eventType] })
    (hQ : ∀ t, Stage d p { rec with gaps := rec.gaps ++ [eventType] } begun t → Later s t →
      Q () t) :
    Verifies d Q (recordGap d eventType evidence) s := by
  refine verifies_call fun c => ?_
  split
  · exact ⟨guarantees_refl _ s, by rintro a ⟨⟩⟩
  · split
    · next operational inserted hrecorded =>
      obtain ⟨hkept, row, hrow, htype⟩ := recordOperationalEvent_eq_ok hrecorded
      have hrecord : ∀ e, Fleet.record { s with
          operational := operational
          gaps := s.gaps ++ [(d, eventType)] } e =
            { s.record e with gaps := (s.record e).gaps ++ if d = e then [eventType] else [] } := by
        intro e
        by_cases heq : d = e <;> simp [Fleet.record, heq]
      have hown := hrecord d
      rw [if_pos rfl, h.record] at hown
      have hstep : OwnStep d s { s with
          operational := operational
          gaps := s.gaps ++ [(d, eventType)] } := by
        refine ⟨rfl, fun e he => ?_, .refl s, fun _ => rfl, fun _ => rfl, fun _ h => .inl h,
          List.Subset.refl _, hkept, fun gap hgap => ?_, fun event hevent => .inl hevent⟩
        · rw [hrecord, if_neg (Ne.symm he), List.append_nil]
        · rcases List.mem_append.mp hgap with hold | hnew
          · exact .inl hold
          · rw [List.mem_singleton.mp hnew]
            exact .inr ⟨c.now, row, hrow, htype⟩
      obtain ⟨hg, hstage⟩ := hstep.guarantees h hfinal (hown ▸ hsafe)
      rw [hown] at hstage
      refine ⟨hg, ?_⟩
      rintro a ⟨⟩ t ht
      exact hQ t (hstage.rests ht) (hstep.later.trans ht.later)
    · exact ⟨guarantees_refl _ s, by rintro a ⟨⟩⟩

/-- One transaction on the deployments. -/
theorem verifies_transaction {Q : Unit → Fleet → Prop}
    {f : Int → DeploymentTables → Except String DeploymentTables} (h : Stage d p rec begun s)
    (hfinal : ¬ rec.Final)
    (hf : ∀ now v, f now s.deployments = .ok v →
      ∃ rec', Fleet.record { s with deployments := v } d = rec' ∧ SafeRecord p rec' ∧
        OwnStep d s { s with deployments := v } ∧
        ∀ t, Stage d p rec' begun t → Later s t → Q () t) :
    Verifies d Q (transaction f) s := by
  refine verifies_call fun c => ?_
  split
  · exact ⟨guarantees_refl _ s, by rintro a ⟨⟩⟩
  · cases hresult : f c.now s.deployments with
    | error e => exact ⟨guarantees_refl _ s, by rintro a ⟨⟩⟩
    | ok v =>
      obtain ⟨rec', hrecord, hsafe, hstep, hQ⟩ := hf c.now v hresult
      obtain ⟨hg, hstage⟩ := hstep.guarantees h hfinal (hrecord ▸ hsafe)
      rw [hrecord] at hstage
      refine ⟨hg, ?_⟩
      rintro a ⟨⟩ t ht
      exact hQ t (hstage.rests ht) (hstep.later.trans ht.later)

/-- A key that the handoff did not use is not there. -/
theorem hasKey_eq_false {key : String} (h : Stage d p rec begun s) (hkey : key ∈ keys d)
    (hnew : ∀ event ∈ rec.history, event.idempotencyKey ≠ key) :
    s.deployments.hasKey key = false := by
  rw [DeploymentTables.hasKey, List.any_eq_false]
  intro event hevent heq
  have hused := of_decide_eq_true heq
  have hid : event.deploymentId = d :=
    eq_of_mem_keys (hused ▸ (h.inv.keyed event hevent).1) hkey
  refine hnew event ?_ hused
  rw [← h.record]
  exact List.mem_filter.mpr ⟨hevent, by simpa using hid⟩

/-- An event is appended to its own deployment's history. -/
theorem history_of_append {v : DeploymentTables} {event : DeploymentEvent} (e : String)
    (hid : event.deploymentId = d) (hevents : v.events = s.deployments.events ++ [event]) :
    v.history e = s.deployments.history e ++ if d = e then [event] else [] := by
  rw [DeploymentTables.history_append hevents, hid]

/-- A new row of a handoff, with its event. -/
theorem ownStep_deployments {v : DeploymentTables} {row : DeploymentSession}
    {event : DeploymentEvent} (hsessions : v.sessions = s.deployments.sessions.insert d row)
    (hevents : v.events = s.deployments.events ++ [event]) (hid : event.deploymentId = d)
    (hkey : event.idempotencyKey ∈ keys d) : OwnStep d s { s with deployments := v } := by
  refine ⟨rfl, fun e he => ?_, .refl s, fun _ => rfl, fun _ => rfl, fun _ h => .inl h,
    List.Subset.refl _, fun _ _ h => h, fun _ h => .inl h, fun other hother => ?_⟩
  · have hhistory := history_of_append (s := s) e hid hevents
    rw [if_neg (Ne.symm he), List.append_nil] at hhistory
    have hsession : v.sessions.get? e = s.deployments.sessions.get? e := by
      rw [hsessions, SortedDict.get?_insert, if_neg he]
    simp [Fleet.record, hhistory, hsession]
  · rw [hevents] at hother
    rcases List.mem_append.mp hother with hold | hnew
    · exact .inl hold
    · rw [List.mem_singleton.mp hnew]
      exact .inr ⟨hid, hkey⟩

/-- The tables change one deployment's record. -/
theorem record_deployments {v : DeploymentTables} {row : DeploymentSession}
    {event : DeploymentEvent} (h : Stage d p rec begun s)
    (hsessions : v.sessions = s.deployments.sessions.insert d row)
    (hevents : v.events = s.deployments.events ++ [event]) (hid : event.deploymentId = d) :
    Fleet.record { s with deployments := v } d =
      { rec with session := some row, history := rec.history ++ [event] } := by
  have hhistory := history_of_append (s := s) d hid hevents
  rw [if_pos rfl] at hhistory
  rw [← h.record]
  simp [Fleet.record, hhistory, hsessions]

/-- The event of a transition. -/
def transitionEvent (d : String) (row : DeploymentSession) (state : DeploymentState) (key : String)
    (evidence : Value) (now : Int) : DeploymentEvent :=
  ⟨d, some row.state, state, now, evidence, key⟩

/-- **A legal transition moves the deployment on.** -/
theorem verifies_transition {Q : Unit → Fleet → Prop} {row : DeploymentSession}
    {state : DeploymentState} {key : String} {evidence : Value} {error : Option String}
    (h : Stage d p rec begun s) (hrow : rec.session = some row)
    (hstate : state ∈ row.state.transitions) (hkey : key ∈ keys d)
    (hnew : ∀ event ∈ rec.history, event.idempotencyKey ≠ key)
    (hsafe : ∀ now, SafeRecord p
      (rec.moved row (transitionEvent d row state key evidence now) error))
    (hQ : ∀ now t, Stage d p (rec.moved row (transitionEvent d row state key evidence now) error)
      begun t → Later s t → Q () t) :
    Verifies d Q (transaction fun now deployments =>
      deployments.transitionDeployment d state key evidence now error) s := by
  have hfinal : ¬ rec.Final := by
    rintro ⟨other, hother, hend⟩
    cases Option.some.inj (hrow.symm.trans hother)
    rw [hend] at hstate
    cases hstate
  have hsession : s.deployments.sessions.get? d = some row := by
    rw [← hrow, ← h.record]
    rfl
  refine verifies_transaction h hfinal fun now v hv => ?_
  unfold DeploymentTables.transitionDeployment at hv
  split at hv
  · cases hv
  · rw [if_neg (by simp [hasKey_eq_false h hkey hnew]), hsession] at hv
    dsimp only at hv
    rw [if_neg (not_not.mpr hstate)] at hv
    cases hv
    exact ⟨_, record_deployments h rfl rfl rfl, hsafe now, ownStep_deployments rfl rfl rfl hkey,
      hQ now⟩

/-- The session of a new handoff. -/
def newSession (identity : DeploymentIdentity) (now : Int) : DeploymentSession where
  toDeploymentIdentity := identity
  state := .candidateStarting
  createdAtUtcNs := now
  updatedAtUtcNs := now

def startEvent (d : String) (evidence : Value) (now : Int) : DeploymentEvent :=
  ⟨d, none, .candidateStarting, now, evidence, DeploymentTables.startKey d⟩

/-- The record of a handoff that began. -/
def startedRecord (d : String) (identity : DeploymentIdentity) (evidence : Value) (now : Int) :
    HandoffRecord where
  session := some (newSession identity now)
  history := [startEvent d evidence now]

theorem startKey_mem_keys (d : String) : DeploymentTables.startKey d ∈ keys d :=
  List.mem_map_of_mem (by decide)

/-- **A deployment that is not recorded yet is created.** -/
theorem verifies_createDeployment {Q : Unit → Fleet → Prop} {identity : DeploymentIdentity}
    {evidence : Value} (h : Stage d p {} begun s)
    (hQ : ∀ now t, Stage d p (startedRecord d identity evidence now) begun t → Later s t → Q () t) :
    Verifies d Q (transaction fun now deployments =>
      deployments.createDeployment d identity now evidence) s := by
  have hsession : s.deployments.sessions.get? d = none := congrArg HandoffRecord.session h.record
  refine verifies_transaction h (by rintro ⟨row, ⟨⟩, -⟩) fun now v hv => ?_
  unfold DeploymentTables.createDeployment at hv
  split at hv
  · cases hv
  · rw [hsession] at hv
    dsimp only at hv
    split at hv
    · cases hv
    · cases hv
      exact ⟨_, record_deployments h rfl rfl rfl, .of_stops_eq_nil rfl,
        ownStep_deployments rfl rfl rfl (startKey_mem_keys d), hQ now⟩

end

end MarketDataRecorder
