import ThoughtGate.Approval.Types
import ThoughtGate.Task.Store
import ThoughtGate.Lib.Threads
import Mathlib.Data.Finset.Max
import Mathlib.Data.Prod.Lex
import Mathlib.Data.String.Basic

/-!
# The polling scheduler

`governance/approval/scheduler.rs`: a queue of poll times (`pending`) and a map of posted approvals (`references`),
changed one after the other by `poll_next`, `submit`, `cancel` and `drain_pending`. Each call is a thread, cut where it
awaits or touches shared data; a critical section under the queue's mutex holds no await and is one step.

The loop of `run` drops the future of `poll_next` whenever the tick of the expiration sweep or the shutdown comes
first, and a caller of `submit` can be dropped as well: every await takes the input `drop`. The limiter, the clocks and
the adapter answer as they please.
-/

namespace ThoughtGate

/-- `pending`: a `BTreeMap` without values is an ordered set. -/
abbrev PollQueue := Finset (Instant ×ₗ TaskId)

namespace PollQueue

/-- `pending.iter().next()`. -/
def first (q : PollQueue) : Option (Instant × TaskId) := (q.min : Option (Instant ×ₗ TaskId)).map ofLex

/-- The number of entries of a task. -/
def entriesOf (q : PollQueue) (id : TaskId) : Nat := (q.filter fun k => (ofLex k).2 = id).card

end PollQueue

/-- Why a task leaves `references`. -/
inductive Removal where
  | terminal
  | expired
  | missing
  | decided (result : PollResult)
  | messageNotFound
  | notRetriable
  | cancelled
  | drained
deriving DecidableEq

/-- A call of `submit` has succeeded, or a task was taken out of `references`. -/
inductive SchedulerEvent where
  | submitted (id : TaskId)
  | removed (id : TaskId) (why : Removal)
deriving DecidableEq

/-- `PollingScheduler` and its task store; `log` is what happened so far. -/
structure SchedulerState where
  store : TaskStore
  pending : PollQueue
  references : Table TaskId ApprovalReference
  log : List SchedulerEvent

namespace SchedulerState

/-- `references.remove`. -/
def unlist (s : SchedulerState) (id : TaskId) (why : Removal) : SchedulerState :=
  { s with references := s.references.erase id, log := s.log ++ [SchedulerEvent.removed id why] }

/-- `references.insert`. -/
def list (s : SchedulerState) (id : TaskId) (r : ApprovalReference) : SchedulerState :=
  { s with references := s.references.insert id r }

/-- `pending.insert`. -/
def enqueue (s : SchedulerState) (nextPollAt : Instant) (id : TaskId) : SchedulerState :=
  { s with pending := insert (toLex (nextPollAt, id)) s.pending }

end SchedulerState

/-- Where a call stands. -/
inductive SchedulerPc where
  -- `poll_next`
  | locking
  | napping (waitTime : Duration)
  | sleeping
  | taken (id : TaskId)
  | checking (id : TaskId) (r : ApprovalReference)
  | limiting (id : TaskId) (r : ApprovalReference)
  | polling (id : TaskId) (r : ApprovalReference)
  | unlisting (id : TaskId) (why : Removal)
  | expiring (id : TaskId)
  | recording (id : TaskId) (result : PollResult)
  | rescheduling (id : TaskId) (r : ApprovalReference) (wait : Duration)
  | requeueing (id : TaskId) (nextPollAt : Instant)
  -- `submit`
  | submitting (request : ApprovalRequest)
  | throttled (request : ApprovalRequest)
  | posting (request : ApprovalRequest)
  | storing (r : ApprovalReference)
  | queueing (id : TaskId) (nextPollAt : Instant)
  -- `cancel`
  | cancelling (id : TaskId)
  | notifying (r : ApprovalReference)
  -- `drain_pending`
  | drain
  | draining (ids : List TaskId)
  -- the store, called from elsewhere
  | op (o : StoreOp)

/-- What a step takes from outside. -/
inductive SchedulerInput where
  | go
  | drop
  | clock (now : Instant)
  | utc (now : DateTime)
  | polled (answer : Except AdapterError (Option PollResult))
  | posted (answer : Except AdapterError ApprovalReference)

namespace SchedulerPc

/-- What `poll_next` does with the answer of the adapter. -/
def afterPoll (config : PollingConfig) (id : TaskId) (r : ApprovalReference) :
    Except AdapterError (Option PollResult) → SchedulerPc
  | .ok (some result) => .unlisting id (.decided result)
  | .ok none => backoff
  | .error (.rateLimited retryAfter) => .rescheduling id { r with pollCount := r.pollCount + 1 } retryAfter
  | .error (.messageNotFound _) => .unlisting id .messageNotFound
  | .error e => if e.isRetriable then backoff else .unlisting id .notRetriable
where
  /-- `reschedule_with_backoff`. -/
  backoff : SchedulerPc :=
    .rescheduling id { r with pollCount := r.pollCount + 1 } (config.backoffInterval (r.pollCount + 1))

/-- What `poll_next` does after `references.remove`. -/
def afterUnlisting (id : TaskId) : Removal → Option SchedulerPc
  | .expired => some (.expiring id)
  | .decided result => some (.recording id result)
  | _ => none

variable [F64.Fmt] [Sha256]

/-- One step of a call. -/
def next (config : PollingConfig) (s : SchedulerState) (p : SchedulerPc) (i : SchedulerInput) :
    Option (SchedulerState × Option SchedulerPc) :=
  match p with
  | .locking =>
    match i with
    | .clock now =>
      match s.pending.first with
      | none => some (s, some .sleeping)
      | some (nextPollAt, id) =>
        if now < nextPollAt then
          some (s, some (.napping (min (nextPollAt - now).toNat (Duration.fromSecs 1))))
        else some ({ s with pending := s.pending.erase (toLex (nextPollAt, id)) }, some (.taken id))
    | .drop => some (s, none)
    | _ => none
  | .napping _ =>
    match i with
    | .go => some (s, some .sleeping)
    | .drop => some (s, none)
    | _ => none
  | .sleeping =>
    match i with
    | .go => some (s, none)
    | .drop => some (s, none)
    | _ => none
  | .taken id =>
    match i with
    | .go =>
      match s.references.lookup id with
      | none => some (s, some .sleeping)
      | some r => some (s, some (.checking id r))
    | _ => none
  | .checking id r =>
    match i with
    | .utc now =>
      match s.store.get id with
      | .error _ => some (s, some (.unlisting id .missing))
      | .ok task =>
        if task.status.isTerminal then some (s, some (.unlisting id .terminal))
        else if task.isExpired now then some (s, some (.unlisting id .expired))
        else some (s, some (.limiting id r))
    | _ => none
  | .limiting id r =>
    match i with
    | .go => some (s, some (.polling id r))
    | .drop => some (s, none)
    | _ => none
  | .polling id r =>
    match i with
    | .polled answer => some (s, some (afterPoll config id r answer))
    | .drop => some (s, none)
    | _ => none
  | .unlisting id why =>
    match i with
    | .go => some (s.unlist id why, afterUnlisting id why)
    | _ => none
  | .expiring id =>
    match i with
    | .utc now => some ({ s with store := (s.store.transition now id .expired (some "TTL exceeded")).2 }, none)
    | _ => none
  | .recording id result =>
    match i with
    | .utc now =>
      some ({ s with
        store := (s.store.recordApproval now id result.approvalDecision result.decidedBy config.approvalValidFor).2 },
        none)
    | _ => none
  | .rescheduling id r wait =>
    match i with
    | .clock now =>
      match now.checkedAdd wait with
      | none => some (s, none)
      | some nextPollAt => some (s.list id { r with nextPollAt }, some (.requeueing id nextPollAt))
    | _ => none
  | .requeueing id nextPollAt =>
    match i with
    | .go => some (s.enqueue nextPollAt id, none)
    | .drop => some (s, none)
    | _ => none
  | .submitting request =>
    match i with
    | .go => if config.maxConcurrent ≤ s.references.entries.length then some (s, none) else some (s, some (.throttled request))
    | _ => none
  | .throttled request =>
    match i with
    | .go => some (s, some (.posting request))
    | .drop => some (s, none)
    | _ => none
  | .posting _ =>
    match i with
    | .posted (.ok r) => some (s, some (.storing r))
    | .posted (.error _) => some (s, none)
    | .drop => some (s, none)
    | _ => none
  | .storing r =>
    match i with
    | .go => some (s.list r.taskId r, some (.queueing r.taskId r.nextPollAt))
    | _ => none
  | .queueing id nextPollAt =>
    match i with
    | .go => some ({ s.enqueue nextPollAt id with log := s.log ++ [SchedulerEvent.submitted id] }, none)
    | .drop => some (s, none)
    | _ => none
  | .cancelling id =>
    match i with
    | .go =>
      match s.references.lookup id with
      | none => some (s, none)
      | some r => some (s.unlist id .cancelled, some (.notifying r))
    | _ => none
  | .notifying _ =>
    match i with
    | .go => some (s, none)
    | .drop => some (s, none)
    | _ => none
  | .drain =>
    match i with
    | .go => some (s, some (.draining s.references.keys))
    | _ => none
  | .draining [] =>
    match i with
    | .go => some (s, none)
    | _ => none
  | .draining (id :: ids) =>
    match i with
    | .go =>
      match s.references.lookup id with
      | none => some (s, some (.draining ids))
      | some _ => some (s.unlist id .drained, some (.draining ids))
    | _ => none
  | .op o =>
    match i with
    | .go => some ({ s with store := o.apply s.store }, none)
    | _ => none

def starts : SchedulerPc → Bool
  | .locking | .submitting _ | .cancelling _ | .drain | .op _ => true
  | _ => false

/-- The calls of `poll_next`. -/
def isPoll : SchedulerPc → Bool
  | .locking | .napping _ | .sleeping | .taken _ | .checking .. | .limiting .. | .polling .. | .unlisting .. | .expiring _
  | .recording .. | .rescheduling .. | .requeueing .. => true
  | _ => false

end SchedulerPc

/-- The scheduler, its store and their callers. -/
def schedulerProgram [F64.Fmt] [Sha256] (config : PollingConfig) (storeConfig : TaskStoreConfig) :
    Program SchedulerState SchedulerPc SchedulerInput Unit where
  init := { store := .new storeConfig, pending := ∅, references := ∅, log := [] }
  start _ _ p := p.starts
  next s p i := p.next config s i
  held _ := []
  wants _ := none

abbrev schedulerMachine [F64.Fmt] [Sha256] (config : PollingConfig) (storeConfig : TaskStoreConfig) :
    Machine (ThreadState SchedulerState SchedulerPc) (ThreadAct SchedulerPc SchedulerInput) :=
  (schedulerProgram config storeConfig).machine

end ThoughtGate
