import Mathlib.Data.String.Basic
import MarketDataRecorder.Lib.SortedDict

/-!
# The availability journal

`collector/availability.py`: the availability of every source in memory, and the queue of the
entries that the catalog has not got yet.

Times are nanoseconds of the wall clock. What `uuid4` gives is counted: no number is given twice. An
entry of the queue is known by its number, as the source knows it by identity.
-/

namespace MarketDataRecorder

/-- `Availability.public_dict`, without the seconds that are derived from it. -/
structure AvailabilityState where
  sourceId : String
  selectionId : Nat
  observedAt : Nat
  lastValid : Option Nat := none
  unavailableSince : Option Nat := none
  gapId : Option Nat := none
  reason : Option String := none
  eligibleSince : Nat
  eligibilityId : Nat
  dormant : Bool := false
  failures : Nat := 0
  recoveries : Nat := 0
  lastError : Option String := none
  lastErrorAt : Option Nat := none
  deriving DecidableEq

/-- `Availability`. -/
structure Availability extends AvailabilityState where
  checkpointAt : Nat := 0
  deriving DecidableEq

/-- The gap of an entry. -/
structure GapChange where
  gapId : Nat
  reason : Option String
  started : Nat
  ended : Option Nat
  deriving DecidableEq

/-- An entry of the queue: the state, the gap and the eligibility, and whether it is
a transition. -/
structure JournalEntry where
  number : Nat
  state : AvailabilityState
  gap : Option GapChange
  intervalId : Nat
  intervalStarted : Nat
  intervalEnded : Option Nat
  isTransition : Bool
  deriving DecidableEq

/-- `AvailabilityJournal`. -/
structure AvailabilityJournal where
  selectionId : Nat
  capacity : Nat := 65536
  sources : SortedDict String Availability := .empty
  pending : List JournalEntry := []
  /-- The checkpoint of a source that is in the queue and can still be changed. -/
  pendingCheckpoints : SortedDict String Nat := .empty
  previous : SortedDict String AvailabilityState := .empty
  nextId : Nat
  nextNumber : Nat := 0

/-- The end of the eligibility interval that a state is written with. -/
def AvailabilityState.intervalEnded (state : AvailabilityState) : Option Nat :=
  if state.dormant then some state.observedAt else none

/-- The entry of a state. -/
def Availability.entry (a : Availability) (number : Nat) (gap : Option GapChange)
    (isTransition : Bool) : JournalEntry where
  number := number
  state := a.toAvailabilityState
  gap := gap
  intervalId := a.eligibilityId
  intervalStarted := a.eligibleSince
  intervalEnded := a.intervalEnded
  isTransition := isTransition

namespace AvailabilityJournal

/-- What an operation leaves: an error, with the journal at that point, where the queue was full. -/
abbrev Result (α : Type) := Except AvailabilityJournal α

variable (journal : AvailabilityJournal)

def store (a : Availability) : AvailabilityJournal :=
  { journal with sources := journal.sources.insert a.sourceId a }

/-- `_emit` of a checkpoint into the checkpoint that is pending already. -/
def coalesce (a : Availability) (number : Nat) : AvailabilityJournal :=
  let a := { a with checkpointAt := a.observedAt }
  { journal.store a with
    pending := journal.pending.map fun entry =>
      if entry.number = number then
        { entry with
          state := a.toAvailabilityState
          intervalEnded := a.intervalEnded
          isTransition := false }
      else entry }

/-- `_emit` of a new entry, after the pending checkpoint of the source was let go. -/
def append (a : Availability) (gap : Option GapChange) (isTransition : Bool) :
    Result (AvailabilityJournal × Availability) :=
  let checkpoints :=
    if isTransition then journal.pendingCheckpoints.erase a.sourceId else journal.pendingCheckpoints
  if journal.capacity ≤ journal.pending.length then
    .error { journal.store a with pendingCheckpoints := checkpoints }
  else
    let number := journal.nextNumber
    let entry := a.entry number gap isTransition
    let a := { a with checkpointAt := a.observedAt }
    .ok ({ journal.store a with
      pending := journal.pending ++ [entry]
      pendingCheckpoints :=
        if isTransition then checkpoints else checkpoints.insert a.sourceId number
      nextNumber := number + 1 }, a)

/-- `_emit`. -/
def emit (a : Availability) (gap : Option GapChange) (isTransition : Bool) :
    Result (AvailabilityJournal × Availability) :=
  match isTransition, journal.pendingCheckpoints.get? a.sourceId with
  | false, some number =>
    .ok (journal.coalesce a number, { a with checkpointAt := a.observedAt })
  | _, _ => journal.append a gap isTransition

/-- `unavailable`, of a source with its state. -/
def markUnavailable (a : Availability) (now : Nat) (reason : String) (since : Option Nat) :
    Result (AvailabilityJournal × Availability) :=
  let a := { a with observedAt := now }
  if a.unavailableSince.isSome then .ok (journal.store a, a)
  else
    let started := since.getD now
    let (gapId, nextId) := match a.gapId with
      | some gapId => (gapId, journal.nextId)
      | none => (journal.nextId, journal.nextId + 1)
    let a := { a with unavailableSince := some started, gapId := some gapId, reason := some reason }
    { journal with nextId := nextId }.emit a (some ⟨gapId, some reason, started, none⟩) true

/-- The state of a source that is seen for the first time in this process, and when it became
unavailable, where it was. -/
def firstState (key : String) (now : Nat) : Availability × Nat × String × Nat :=
  let reasonOr (reason : Option String) :=
    if reason.getD "" = "" then "STARTUP_UNKNOWN" else reason.getD ""
  match journal.previous.get? key with
  | none =>
    ({ sourceId := key
       selectionId := journal.selectionId
       observedAt := now
       eligibleSince := now
       eligibilityId := journal.nextId }, now, "STARTUP_UNKNOWN", journal.nextId + 1)
  | some old =>
    ({ sourceId := key
       selectionId := journal.selectionId
       observedAt := now
       lastValid := old.lastValid
       gapId := old.gapId
       eligibleSince := if old.dormant then now else old.eligibleSince
       eligibilityId := if old.dormant then journal.nextId else old.eligibilityId
       failures := old.failures
       recoveries := old.recoveries
       lastError := old.lastError
       lastErrorAt := old.lastErrorAt },
      old.unavailableSince.getD old.observedAt, reasonOr old.reason,
      if old.dormant then journal.nextId + 1 else journal.nextId)

/-- `ensure`. -/
def ensure (key : String) (now : Nat) : Result (AvailabilityJournal × Availability) :=
  match journal.sources.get? key with
  | some a => .ok (journal, a)
  | none =>
    let (a, since, reason, nextId) := journal.firstState key now
    { journal with nextId := nextId }.markUnavailable a now reason (some since)

/-- The gap of a state, closed. -/
def closedGap (a : Availability) (now : Nat) : Option GapChange :=
  match a.unavailableSince, a.gapId with
  | some since, some gapId => some ⟨gapId, a.reason, since, some now⟩
  | _, _ => none

/-- `suspend`. -/
def suspend (key : String) (now : Nat) : Result AvailabilityJournal := do
  let (journal, a) ← journal.ensure key now
  if a.dormant then return journal
  else
    let gap := closedGap a now
    let a := { a with
      observedAt := now
      unavailableSince := none
      gapId := none
      reason := some "DORMANT_LIFECYCLE"
      dormant := true }
    return (← journal.emit a gap true).1

/-- `resume`. -/
def resume (key : String) (now : Nat) : Result AvailabilityJournal := do
  let (journal, a) ← journal.ensure key now
  if a.dormant then
    let a := { a with dormant := false, eligibleSince := now, eligibilityId := journal.nextId }
    let journal := { journal with nextId := journal.nextId + 1 }
    return (← journal.markUnavailable a now "LIFECYCLE_RESUMED" none).1
  else return journal

/-- `unavailable`. -/
def unavailable (key : String) (now : Nat) (reason : String) (since : Option Nat) :
    Result AvailabilityJournal := do
  let (journal, a) ← journal.ensure key now
  return (← journal.markUnavailable a now reason since).1

/-- `failure`. -/
def failure (key : String) (now : Nat) (error : String) (since : Option Nat) :
    Result AvailabilityJournal := do
  let (journal, a) ← journal.ensure key now
  let a := { a with failures := a.failures + 1, lastError := some error, lastErrorAt := some now }
  let (journal, a) ← journal.markUnavailable a now error since
  return (← journal.emit a none true).1

/-- `valid`. -/
def valid (key : String) (now : Nat) (checkpoint : Bool) : Result AvailabilityJournal := do
  let (journal, a) ← journal.ensure key now
  let a := { a with observedAt := now, lastValid := some now }
  if a.unavailableSince.isSome then
    let gap := closedGap a now
    let a := { a with
      unavailableSince := none
      gapId := none
      reason := none
      recoveries := a.recoveries + 1 }
    return (← journal.emit a gap true).1
  else if checkpoint && decide (a.checkpointAt + 10000000000 ≤ now) then
    return (← journal.emit a none false).1
  else return journal.store a

/-- A round of `acknowledge`. -/
def popFront : AvailabilityJournal :=
  match journal.pending with
  | [] => journal
  | entry :: rest =>
    { journal with
      pending := rest
      pendingCheckpoints :=
        if journal.pendingCheckpoints.get? entry.state.sourceId = some entry.number then
          journal.pendingCheckpoints.erase entry.state.sourceId
        else journal.pendingCheckpoints }

/-- `acknowledge`. -/
def acknowledge : Nat → AvailabilityJournal → AvailabilityJournal
  | 0, journal => journal
  | count + 1, journal => acknowledge count journal.popFront

end AvailabilityJournal

end MarketDataRecorder
