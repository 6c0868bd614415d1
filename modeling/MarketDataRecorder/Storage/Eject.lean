import MarketDataRecorder.Catalog.StorageControl

/-!
# Safe eject

`storage/macos/eject.py` and the status refresh of `storage/macos/registry.py` around one storage
target. Every Catalog call is atomic and the callers interleave between their calls: eject
coordinators that begin, ask the platform and finish, refreshes that read the control row and
activate the target later, and the calls on chunks and archives. What the platform answers, and what
a refresh finds on the volume, is open.

A coordinator holds the target from its `begin_storage_eject` to its own `finish_storage_eject`. One
that has left its request pending, or is gone, holds it for good: its request is its own, and nobody
else finishes it.
-/

namespace MarketDataRecorder

/-- Where the coordinator of an eject is. -/
inductive EjectPhase where
  /-- Behind `begin_storage_eject`: the directories and the Catalog are synced. -/
  | preparing
  /-- The platform has the request. -/
  | requested
  /-- There is no coordinator any more, and the request is not finished. -/
  | abandoned
  deriving DecidableEq, Repr

structure Eject where
  requestId : String
  phase : EjectPhase
  deriving DecidableEq

/-- What `request_eject` returns, and whether the volume is gone from the inventory. -/
structure PlatformEjectResult where
  safeToRemove : Bool
  timedOut : Bool
  volumeGone : Bool
  deriving DecidableEq

/-- The Catalog, the ejects that are not finished, and what the refreshes under way have read. -/
structure EjectState where
  tables : ArchiveTables
  ejects : List Eject := []
  reads : List StorageControlState := []
  deriving DecidableEq

namespace EjectState

variable (storageId : String) (s : EjectState)

def abandon (eject : Eject) : EjectState :=
  { s with ejects := ⟨eject.requestId, .abandoned⟩ :: s.ejects.erase eject }

/-- The end of a coordinator with `finish_storage_eject`; where that raises, it leaves
its request. -/
def finish (eject : Eject) (succeeded : Bool) (evidence : Value) (now : Int) : EjectState :=
  match s.tables.finishStorageEject storageId eject.requestId succeeded evidence now with
  | .error _ => s.abandon eject
  | .ok tables => { s with tables := tables, ejects := s.ejects.erase eject }

/-- The end of a coordinator with `retain_storage_eject_pending`. -/
def retain (eject : Eject) (evidence : Value) (now : Int) : EjectState :=
  match s.tables.retainStorageEjectPending storageId eject.requestId evidence now with
  | .error _ => s.abandon eject
  | .ok tables => { s.abandon eject with tables := tables }

end EjectState

/-- One step of a caller. -/
inductive EjectAction where
  | beginEject (requestId : String) (now : Int)
  | preparationFailed (requestId : String) (evidence : Value) (now : Int)
  | prepared (requestId : String)
  | platformRaised (requestId : String) (evidence : Value) (now : Int)
  | platformReturned (requestId : String) (result : PlatformEjectResult) (evidence : Value)
      (now : Int)
  | coordinatorStopped (eject : Eject)
  | refreshRead
  | refreshActivate (refresh : Nat) (now : Int)
  | refreshLeft (refresh : Nat)
  | lifecycle (call : LifecycleCall) (now : Int)

namespace EjectAction

open EjectState

variable (identitySha256 : RemoteArchiveReceipt → String) (storageId : String)

/-- What an action makes of a state in which it can be taken. -/
def step (s : EjectState) : EjectAction → Option EjectState
  | beginEject requestId now =>
    match s.tables.beginStorageEject storageId requestId now with
    | .error _ => some s
    | .ok ([], tables) =>
      some { s with tables := tables, ejects := ⟨requestId, .preparing⟩ :: s.ejects }
    -- Unfinished work on the target refuses the eject.
    | .ok (_ :: _, _) => some s
  | preparationFailed requestId evidence now =>
    if ⟨requestId, .preparing⟩ ∈ s.ejects then
      some (s.finish storageId ⟨requestId, .preparing⟩ false evidence now)
    else none
  | prepared requestId =>
    if ⟨requestId, .preparing⟩ ∈ s.ejects then
      some { s with ejects := ⟨requestId, .requested⟩ :: s.ejects.erase ⟨requestId, .preparing⟩ }
    else none
  | platformRaised requestId evidence now =>
    if ⟨requestId, .requested⟩ ∈ s.ejects then
      some (s.retain storageId ⟨requestId, .requested⟩ evidence now)
    else none
  | platformReturned requestId result evidence now =>
    if ⟨requestId, .requested⟩ ∈ s.ejects then
      let forcedRemoval := ! result.safeToRemove && result.volumeGone
      -- A timeout tells nothing of the volume: the latch is retained.
      if result.timedOut && ! forcedRemoval then
        some (s.retain storageId ⟨requestId, .requested⟩ evidence now)
      else some (s.finish storageId ⟨requestId, .requested⟩ result.safeToRemove evidence now)
    else none
  | coordinatorStopped eject => if eject ∈ s.ejects then some (s.abandon eject) else none
  | refreshRead => some { s with reads := s.reads ++ [s.tables.storageControlState storageId] }
  | refreshActivate refresh now =>
    match s.reads[refresh]? with
    | none => none
    -- A refresh that read the latch does not activate.
    | some .ejectPending => none
    | some _ =>
      some {
        s with
        tables := s.tables.activateStorageTarget storageId now
        reads := s.reads.eraseIdx refresh }
  | refreshLeft refresh => some { s with reads := s.reads.eraseIdx refresh }
  | lifecycle call now => some { s with tables := (call.perform identitySha256 s.tables now).2 }

end EjectAction

/-- The callers around one target; the control row may be anything at first. -/
def ejectSystem (identitySha256 : RemoteArchiveReceipt → String) (storageId : String) :
    TransitionSystem EjectState EjectAction where
  initial s := ∃ tables, (LifecycleCall.lifecycle identitySha256).initial tables ∧
    s = { tables := tables }
  step s action := action.step identitySha256 storageId s

/-! ## Exclusion -/

section

variable {identitySha256 : RemoteArchiveReceipt → String} (storageId : String)

/-- **What an eject is there for**: no archive work on a target that an eject holds or that is safe
to remove, and nobody else activates a target that an eject holds. -/
structure EjectExclusion (s : EjectState) : Prop where
  held : ∀ eject ∈ s.ejects, ¬ s.tables.Unfinished storageId
  safe : s.tables.storageControlState storageId = .safeToRemove → ¬ s.tables.Unfinished storageId
  kept : ∀ eject ∈ s.ejects, s.tables.storageControlState storageId ≠ .active

/-- A request waits until every other one is finished, also one that was left pending; and a
refresh does not activate the target under an eject. -/
def Exclusive (s : EjectState) : EjectAction → Prop
  | .beginEject _ _ => s.ejects = []
  | .refreshActivate _ _ => s.ejects = []
  | _ => True

instance (s : EjectState) : (action : EjectAction) → Decidable (Exclusive s action)
  | .beginEject _ _ | .refreshActivate _ _ => inferInstanceAs (Decidable (s.ejects = []))
  | .preparationFailed .. | .prepared .. | .platformRaised .. | .platformReturned ..
  | .coordinatorStopped .. | .refreshRead | .refreshLeft .. | .lifecycle .. =>
    inferInstanceAs (Decidable True)

/-- One eject at most, the latch is its own, and behind a latch there is no work. -/
structure EjectInvariant (s : EjectState) : Prop where
  single : s.ejects.length ≤ 1
  pending : ∀ eject ∈ s.ejects, s.tables.storageControlState storageId = .ejectPending
  latched : s.tables.storageControlState storageId ≠ .active → ¬ s.tables.Unfinished storageId

variable {storageId} {s t : EjectState} {eject : Eject} {now : Int}

theorem EjectInvariant.exclusion (h : EjectInvariant storageId s) : EjectExclusion storageId s where
  held := fun eject he => h.latched (by rw [h.pending eject he]; decide)
  safe := fun hsafe => h.latched (by rw [hsafe]; decide)
  kept := fun eject he => by rw [h.pending eject he]; decide

/-- The only eject there is. -/
theorem EjectInvariant.eq_singleton (h : EjectInvariant storageId s) (he : eject ∈ s.ejects) :
    s.ejects = [eject] := by
  have hlength := h.single
  match hejects : s.ejects, he with
  | [e], he => rw [List.mem_singleton.mp he]
  | e :: e' :: rest, he =>
    rw [hejects] at hlength
    simp at hlength

/-- A control row of another state, with the work that this state allows. -/
theorem EjectInvariant.of_insert {row : StorageControl} {ejects : List Eject}
    (hlength : ejects.length ≤ 1)
    (hpending : ejects ≠ [] → row.state = .ejectPending)
    (hlatched : row.state ≠ .active → ¬ s.tables.Unfinished storageId) :
    EjectInvariant storageId {
      s with
      tables := { s.tables with storageControl := s.tables.storageControl.insert storageId row }
      ejects := ejects } := by
  constructor
  · exact hlength
  · intro eject he
    rw [ArchiveTables.storageControlState_insert, if_pos rfl]
    exact hpending (List.ne_nil_of_mem he)
  · intro hactive
    rw [ArchiveTables.storageControlState_insert, if_pos rfl] at hactive
    exact hlatched hactive

theorem EjectInvariant.abandon (h : EjectInvariant storageId s) (he : eject ∈ s.ejects) :
    EjectInvariant storageId (s.abandon eject) := by
  have hone := h.eq_singleton he
  constructor
  · simp [EjectState.abandon, hone]
  · intro _ _
    exact h.pending eject he
  · exact h.latched

theorem EjectInvariant.finish {succeeded : Bool} {evidence : Value}
    (h : EjectInvariant storageId s) (he : eject ∈ s.ejects) :
    EjectInvariant storageId (s.finish storageId eject succeeded evidence now) := by
  unfold EjectState.finish
  split
  · exact h.abandon he
  · next tables hcall =>
    obtain ⟨row, hrow, rfl⟩ := ArchiveTables.finishStorageEject_eq_ok hcall
    have hnil : s.ejects.erase eject = [] := by
      rw [h.eq_singleton he]
      simp
    refine EjectInvariant.of_insert (by simp [hnil]) (fun hne => absurd hnil hne) ?_
    intro _
    exact h.exclusion.held eject he

theorem EjectInvariant.retain {evidence : Value} (h : EjectInvariant storageId s)
    (he : eject ∈ s.ejects) :
    EjectInvariant storageId (s.retain storageId eject evidence now) := by
  unfold EjectState.retain
  split
  · exact h.abandon he
  · next tables hcall =>
    obtain ⟨row, hrow, -, rfl⟩ := ArchiveTables.retainStorageEjectPending_eq_ok hcall
    exact .of_insert (h.abandon he).single (fun _ => hrow) fun _ => h.exclusion.held eject he

/-- **One step** under the condition keeps the invariant. -/
theorem EjectInvariant.step {action : EjectAction} (h : EjectInvariant storageId s)
    (hexclusive : Exclusive s action)
    (hstep : action.step identitySha256 storageId s = some t) : EjectInvariant storageId t := by
  cases action with
  | beginEject requestId now =>
    simp only [EjectAction.step] at hstep
    split at hstep
    · cases Option.some.inj hstep
      exact h
    · next tables hcall =>
      cases Option.some.inj hstep
      -- The Catalog took the latch and had no unfinished work on the target.
      obtain ⟨hfree, row, hrow, -, rfl⟩ := ArchiveTables.beginStorageEject_eq_ok_nil hcall
      have hnil : s.ejects = [] := hexclusive
      have hlength : (⟨requestId, .preparing⟩ :: s.ejects : List Eject).length ≤ 1 := by
        rw [hnil]
        exact Nat.le_refl 1
      exact .of_insert hlength (fun _ => hrow) fun _ => hfree
    · cases Option.some.inj hstep
      exact h
  | preparationFailed requestId evidence now =>
    simp only [EjectAction.step] at hstep
    split at hstep
    · next he =>
      cases Option.some.inj hstep
      exact h.finish he
    · cases hstep
  | prepared requestId =>
    simp only [EjectAction.step] at hstep
    split at hstep
    · next he =>
      cases Option.some.inj hstep
      refine ⟨?_, fun _ _ => h.pending _ he, h.latched⟩
      simp [h.eq_singleton he]
    · cases hstep
  | platformRaised requestId evidence now =>
    simp only [EjectAction.step] at hstep
    split at hstep
    · next he =>
      cases Option.some.inj hstep
      exact h.retain he
    · cases hstep
  | platformReturned requestId result evidence now =>
    simp only [EjectAction.step] at hstep
    split at hstep
    · next he =>
      split at hstep
      · cases Option.some.inj hstep
        exact h.retain he
      · cases Option.some.inj hstep
        exact h.finish he
    · cases hstep
  | coordinatorStopped eject =>
    simp only [EjectAction.step] at hstep
    split at hstep
    · next he =>
      cases Option.some.inj hstep
      exact h.abandon he
    · cases hstep
  | refreshRead =>
    cases Option.some.inj hstep
    exact ⟨h.single, h.pending, h.latched⟩
  | refreshActivate refresh now =>
    have hnil : s.ejects = [] := hexclusive
    have hactivated : EjectInvariant storageId {
        s with
        tables := s.tables.activateStorageTarget storageId now
        reads := s.reads.eraseIdx refresh } := by
      refine ⟨h.single, fun e he => ?_, ?_⟩
      · rw [show _ = s.ejects from rfl, hnil] at he
        cases he
      · intro hactive hwork
        simp only [ArchiveTables.activateStorageTarget] at hactive hwork
        split at hactive
        · next hnone => exact hactive (by simp [ArchiveTables.storageControlState, hnone])
        · next row hrow =>
          split at hactive
          · next hstate => exact hactive (by simp [ArchiveTables.storageControlState, hrow, hstate])
          · rw [ArchiveTables.storageControlState_insert, if_pos rfl] at hactive
            exact hactive rfl
    simp only [EjectAction.step] at hstep
    split at hstep
    · cases hstep
    · cases hstep
    · cases Option.some.inj hstep
      exact hactivated
  | refreshLeft refresh =>
    cases Option.some.inj hstep
    exact ⟨h.single, h.pending, h.latched⟩
  | lifecycle call now =>
    cases Option.some.inj hstep
    obtain ⟨hcontrol, hwork⟩ :=
      ArchiveTables.perform_latch identitySha256 s.tables storageId call now
    have hstate : (call.perform identitySha256 s.tables now).2.storageControlState storageId =
        s.tables.storageControlState storageId := by
      rw [ArchiveTables.storageControlState, hcontrol]
      rfl
    refine ⟨h.single, fun e he => hstate.trans (h.pending e he), ?_⟩
    intro hactive hunfinished
    have hactive' : s.tables.storageControlState storageId ≠ .active := hstate ▸ hactive
    exact h.latched hactive' (hwork hactive' hunfinished)

/-- **Exclusion in every run** whose steps meet the condition. -/
theorem ejectExclusion_of_reachable
    (h : (ejectSystem identitySha256 storageId).Reachable Exclusive s) :
    EjectExclusion storageId s := by
  refine (h.invariant (I := EjectInvariant storageId) ?_ ?_).exclusion
  · rintro s ⟨tables, ⟨targets, control, rfl⟩, rfl⟩
    refine ⟨Nat.zero_le _, fun e he => ?_, fun _ hwork => ?_⟩
    · cases he
    · obtain ⟨id, row, hrow, -⟩ := hwork
      cases hrow
  · exact fun s action t hs hexclusive hstep => hs.step hexclusive hstep

/-- A request takes the latch from an eject that is not finished, wherever that is, and where its
own preparation fails, it activates the target under the other. -/
theorem not_exclusion_of_begin {requestId : String} {tables : ArchiveTables} {evidence : Value}
    (he : eject ∈ s.ejects)
    (hbegin : s.tables.beginStorageEject storageId requestId now = .ok ([], tables))
    (hstep : (EjectAction.step identitySha256 storageId s (.beginEject requestId now)).bind
      (fun u => EjectAction.step identitySha256 storageId u
        (.preparationFailed requestId evidence now)) = some t) :
    ¬ EjectExclusion storageId t := by
  have hid : storageId ≠ "" ∧ requestId ≠ "" ∧ ¬ now < 0 := by
    unfold ArchiveTables.beginStorageEject at hbegin
    split at hbegin
    · cases hbegin
    · next hvalid => simpa [not_or] using hvalid
  obtain ⟨-, row, -, hrequest, rfl⟩ := ArchiveTables.beginStorageEject_eq_ok_nil hbegin
  simp only [EjectAction.step, hbegin, Option.bind_some, List.mem_cons, true_or, if_true,
    EjectState.finish, ArchiveTables.finishStorageEject, hid.1, hid.2.1, hid.2.2, or_self, if_false,
    SortedDict.get?_insert, hrequest, ne_eq, not_true_eq_false, Option.some.injEq] at hstep
  subst hstep
  intro hexclusion
  have hmem : eject ∈ (⟨requestId, .preparing⟩ :: s.ejects : List Eject).erase
      ⟨requestId, .preparing⟩ := by
    rw [List.erase_cons_head]
    exact he
  refine hexclusion.kept eject hmem ?_
  simp [ArchiveTables.storageControlState]

/-- An activation under an eject breaks the exclusion at once. -/
theorem not_exclusion_of_refreshActivate {refresh : Nat} (hejects : s.ejects ≠ [])
    (hstep : EjectAction.step identitySha256 storageId s (.refreshActivate refresh now) = some t) :
    ¬ EjectExclusion storageId t := by
  have hactive : (s.tables.activateStorageTarget storageId now).storageControlState storageId =
      .active := by
    unfold ArchiveTables.activateStorageTarget
    split
    · next hnone => simp [ArchiveTables.storageControlState, hnone]
    · next row hrow =>
      split
      · next hstate => simp [ArchiveTables.storageControlState, hrow, hstate]
      · rw [ArchiveTables.storageControlState_insert, if_pos rfl]
  obtain ⟨eject, he⟩ := List.exists_mem_of_ne_nil _ hejects
  simp only [EjectAction.step] at hstep
  split at hstep
  · cases hstep
  · cases hstep
  · cases Option.some.inj hstep
    exact fun hexclusion => hexclusion.kept eject he hactive

end

/-! ## Two runs -/

def sealingCalls : List EjectAction :=
  [.lifecycle (.registerActive "a" "a.partial" 0) 0,
   .lifecycle (.transition "a" .sealing "sealing:a" (.dict []) id) 0,
   .lifecycle (.transition "a" .sealed "sealed:a" (.dict []) id) 0]

/-- An eject that comes to its end, and a reservation behind it. -/
def ejectingRun : Option EjectState :=
  (ejectSystem (fun _ => "") "disk").performAllowed (fun s action => decide (Exclusive s action))
    { tables := { storageTargets := ["disk"] } }
    (sealingCalls ++
      [.beginEject "r" 0, .prepared "r", .platformReturned "r" ⟨true, false, false⟩ (.dict []) 0,
       .lifecycle (.reserveArchiveTransaction LifecycleCall.sampleIdentity) 0])

/-- An eject that times out: its request stays, a refresh finds it, and a reservation is refused. -/
def retainingRun : Option EjectState :=
  (ejectSystem (fun _ => "") "disk").performAllowed (fun s action => decide (Exclusive s action))
    { tables := { storageTargets := ["disk"] } }
    (sealingCalls ++
      [.beginEject "r" 0, .prepared "r", .platformReturned "r" ⟨false, true, false⟩ (.dict []) 0,
       .refreshRead, .refreshLeft 0,
       .lifecycle (.reserveArchiveTransaction LifecycleCall.sampleIdentity) 0])

theorem ejectExclusion_of_reachable_sample :
    (∃ s, ejectingRun = some s ∧ s.tables.storageControlState "disk" = .safeToRemove ∧
      EjectExclusion "disk" s) ∧
    ∃ s, retainingRun = some s ∧ s.ejects = [⟨"r", .abandoned⟩] ∧ EjectExclusion "disk" s := by
  have hejecting : (ejectingRun.map fun s => s.tables.storageControlState "disk") =
      some .safeToRemove := by decide
  have hretaining : (retainingRun.map fun s => s.ejects) = some [⟨"r", .abandoned⟩] := by decide
  obtain ⟨s, hs, hsafe⟩ := Option.map_eq_some_iff.mp hejecting
  obtain ⟨t, ht, hheld⟩ := Option.map_eq_some_iff.mp hretaining
  have hrun : (ejectSystem (fun _ => "") "disk").Reachable Exclusive s :=
    ⟨_, ⟨_, ⟨["disk"], .empty, rfl⟩, rfl⟩,
      TransitionSystem.run_of_performAllowed (fun _ _ => of_decide_eq_true) hs⟩
  have hrun' : (ejectSystem (fun _ => "") "disk").Reachable Exclusive t :=
    ⟨_, ⟨_, ⟨["disk"], .empty, rfl⟩, rfl⟩,
      TransitionSystem.run_of_performAllowed (fun _ _ => of_decide_eq_true) ht⟩
  exact ⟨⟨s, hs, hsafe, ejectExclusion_of_reachable hrun⟩,
    ⟨t, ht, hheld, ejectExclusion_of_reachable hrun'⟩⟩

/-- Two requests at once; the second fails in its preparation, and a reservation gets through. -/
def overwritingRun : Option EjectState :=
  (ejectSystem (fun _ => "") "disk").perform { tables := { storageTargets := ["disk"] } }
    (sealingCalls ++
      [.beginEject "r" 0, .beginEject "r'" 0, .preparationFailed "r'" (.dict []) 0,
       .lifecycle (.reserveArchiveTransaction LifecycleCall.sampleIdentity) 0])

/-- There archive work is assigned to a target whose first eject is still under way. -/
theorem not_ejectExclusion_of_overwrite :
    ¬ ∀ s, (ejectSystem (fun _ => "") "disk").Reachable (fun _ _ => True) s →
      EjectExclusion "disk" s := by
  intro hclaim
  have hend : (overwritingRun.map fun s =>
      (s.ejects, (s.tables.archiveTransactions.get? "t").map fun row =>
        (row.storageId, row.state))) =
      some ([⟨"r", .preparing⟩], some ("disk", .copying)) := by decide
  obtain ⟨s, hs, hmap⟩ := Option.map_eq_some_iff.mp hend
  obtain ⟨hejects, hwork⟩ := Prod.mk.inj hmap
  obtain ⟨row, hrow, hstate⟩ := Option.map_eq_some_iff.mp hwork
  have hexclusion := hclaim s
    ⟨_, ⟨_, ⟨["disk"], .empty, rfl⟩, rfl⟩, TransitionSystem.run_of_perform hs⟩
  refine hexclusion.held ⟨"r", .preparing⟩ (by rw [hejects]; exact List.mem_singleton_self _) ?_
  refine ⟨"t", row, hrow, congrArg Prod.fst hstate, ?_⟩
  rw [show row.state = .copying from congrArg Prod.snd hstate]
  decide

end MarketDataRecorder
