import ThoughtGate.Task.Types
import ThoughtGate.Lib.Table
import ThoughtGate.Lib.Machine

/-!
# The task store

`governance/task/store.rs` with every operation taken as one atomic step: a function of the store that returns
its answer and the new store. The small operations on the counters (`subPendingCount`, `addPrincipal`, …) are
the atomic instructions of the source, one definition each, so that the interleaved model uses the same ones.

Counters are `usize`: an addition stays below `2^64` because it counts live tasks and their bytes, a `fetch_sub`
wraps around (`fetchSub`). The ghost flag `underflow` records that some `fetch_sub` took more than there was.
The handle for waiters is the number of `notify_waiters` calls made on it. Metrics are left out.
-/

namespace ThoughtGate

/-- `TaskStoreConfig`, without the cleanup interval (read by no operation). -/
structure TaskStoreConfig where
  defaultTtl : Duration := Duration.fromSecs 600
  maxTtl : Duration := Duration.fromSecs 86400
  minTtl : Duration := Duration.fromSecs 60
  maxPendingPerPrincipal : Nat := 10
  maxPendingGlobal : Nat := 1000
  terminalGracePeriod : Duration := Duration.fromSecs 3600
  maxPendingBytes : Nat := 256 * 1024 * 1024

/-- `TaskEntry`. -/
structure TaskEntry where
  task : Task
  terminalAt : Option DateTime
  notifications : Nat
  estimatedBytes : Nat

/-- `TaskStore`. -/
structure TaskStore where
  tasks : Table TaskId TaskEntry
  byPrincipal : Table String (List TaskId)
  config : TaskStoreConfig
  pendingCount : Nat
  pendingByPrincipal : Table String Nat
  pendingBytes : Nat
  underflow : Bool

/-- `AtomicUsize::fetch_sub`. -/
def fetchSub (a b : Nat) : Nat := if b ≤ a then a - b else a + 2 ^ 64 - b

theorem fetchSub_of_le {a b : Nat} (h : b ≤ a) : fetchSub a b = a - b := if_pos h

namespace TaskStore

/-- `TaskStore::new`. -/
def new (config : TaskStoreConfig) : TaskStore where
  tasks := ∅
  byPrincipal := ∅
  config := config
  pendingCount := 0
  pendingByPrincipal := ∅
  pendingBytes := 0
  underflow := false

/-! ### The counters -/

def subPendingCount (s : TaskStore) (n : Nat) : TaskStore :=
  { s with
    pendingCount := fetchSub s.pendingCount n
    underflow := s.underflow || decide (s.pendingCount < n) }

def subPendingBytes (s : TaskStore) (n : Nat) : TaskStore :=
  { s with
    pendingBytes := fetchSub s.pendingBytes n
    underflow := s.underflow || decide (s.pendingBytes < n) }

/-- The counter of a key; a missing entry counts zero. -/
def principalCount (s : TaskStore) (key : String) : Nat := (s.pendingByPrincipal.lookup key).getD 0

/-- `pending_by_principal.entry(key).or_insert_with(|| AtomicUsize::new(0))`. -/
def principalEntry (s : TaskStore) (key : String) : TaskStore :=
  match s.pendingByPrincipal.lookup key with
  | some _ => s
  | none => { s with pendingByPrincipal := s.pendingByPrincipal.insert key 0 }

/-- `principal_counter.fetch_add(1)`. -/
def addPrincipal (s : TaskStore) (key : String) : TaskStore :=
  { s with pendingByPrincipal := s.pendingByPrincipal.insert key (s.principalCount key + 1) }

/-- `principal_counter.fetch_sub(1)`. -/
def subPrincipal (s : TaskStore) (key : String) : TaskStore :=
  { s with
    pendingByPrincipal := s.pendingByPrincipal.insert key (fetchSub (s.principalCount key) 1)
    underflow := s.underflow || decide (s.principalCount key < 1) }

/-- `pending_by_principal.remove_if(key, |_, v| v == 0)`. -/
def removePrincipalIfZero (s : TaskStore) (key : String) : TaskStore :=
  if s.pendingByPrincipal.lookup key = some 0 then
    { s with pendingByPrincipal := s.pendingByPrincipal.erase key }
  else s

/-- `decrement_pending_counters`. -/
def decrementPendingCounters (s : TaskStore) (task : Task) (estimatedBytes : Nat) : TaskStore :=
  let s := s.subPendingCount 1
  let s := s.subPendingBytes estimatedBytes
  let key := task.principal.rateLimitKey
  match s.pendingByPrincipal.lookup key with
  | none => s
  | some prev =>
    let s := s.subPrincipal key
    if prev = 1 then s.removePrincipalIfZero key else s

/-! ### Entries and the principal index -/

/-- Write an entry of `tasks`. -/
def put (s : TaskStore) (id : TaskId) (entry : TaskEntry) : TaskStore :=
  { s with tasks := s.tasks.insert id entry }

/-- `by_principal.entry(key).or_default().push(id)`. -/
def indexTask (s : TaskStore) (key : String) (id : TaskId) : TaskStore :=
  { s with byPrincipal := s.byPrincipal.insert key ((s.byPrincipal.lookup key).getD [] ++ [id]) }

/-- The index side of removing a task: `retain` the other ids and drop an empty list. -/
def unindexTask (s : TaskStore) (key : String) (id : TaskId) : TaskStore :=
  match s.byPrincipal.lookup key with
  | none => s
  | some ids =>
    let ids := ids.filter (· ≠ id)
    if ids.isEmpty then { s with byPrincipal := s.byPrincipal.erase key }
    else { s with byPrincipal := s.byPrincipal.insert key ids }

/-- The bookkeeping of a task that has just become terminal: the time, the counters, the waiters. -/
def becomeTerminal (s : TaskStore) (now : DateTime) (id : TaskId) (entry : TaskEntry) : TaskStore :=
  let entry := { entry with terminalAt := some now }
  let s := s.put id entry
  let s := s.decrementPendingCounters entry.task entry.estimatedBytes
  s.put id { entry with notifications := entry.notifications + 1 }

/-! ### Operations -/

/-- `Ord::clamp`. -/
def clamp (d lo hi : Duration) : Duration := max lo (min d hi)

/-- The bytes a task's arguments are charged with. -/
def estimateBytes [F64.Fmt] (task : Task) : Nat := task.originalRequest.arguments.toJson.utf8ByteSize + 200

/-- Give a global slot and a principal slot back. -/
def rollback (s : TaskStore) (key : String) : TaskStore := (s.subPrincipal key).subPendingCount 1

variable [F64.Fmt] [Sha256]

/-- `TaskStore::create`. -/
def create (s : TaskStore) (id : TaskId) (now : DateTime) (originalRequest preApprovalTransformed : ToolCallRequest)
    (principal : Principal) (ttl : Option Duration) (onTimeout : TimeoutAction) :
    Except TaskError Task × TaskStore :=
  if s.config.maxPendingGlobal ≤ s.pendingCount then (.error .capacityExceeded, s)
  else
    let s := { s with pendingCount := s.pendingCount + 1 }
    let key := principal.rateLimitKey
    let s := s.principalEntry key
    let prev := s.principalCount key
    let s := s.addPrincipal key
    if s.config.maxPendingPerPrincipal ≤ prev then
      (.error (.rateLimited key (Duration.fromSecs 60)), s.rollback key)
    else
      let ttl := clamp (ttl.getD s.config.defaultTtl) s.config.minTtl s.config.maxTtl
      match Task.new id now originalRequest preApprovalTransformed principal ttl onTimeout with
      | .error e => (.error (.internal e), s.rollback key)
      | .ok task =>
        let estimatedBytes := estimateBytes task
        if s.config.maxPendingBytes < s.pendingBytes + estimatedBytes then
          (.error .capacityExceeded, s.rollback key)
        else
          let s := { s with pendingBytes := s.pendingBytes + estimatedBytes }
          let s := s.put id { task, terminalAt := none, notifications := 0, estimatedBytes }
          (.ok task, s.indexTask key id)

omit [F64.Fmt] [Sha256]

/-- `TaskStore::get`. -/
def get (s : TaskStore) (id : TaskId) : Except TaskError Task :=
  match s.tasks.lookup id with
  | none => .error (.notFound id)
  | some entry => .ok entry.task

/-- The common end of the operations that move a task on: the bookkeeping if it became terminal. -/
def settle (s : TaskStore) (now : DateTime) (id : TaskId) (entry : TaskEntry) (task : Task) : TaskStore :=
  if !entry.task.status.isTerminal && task.status.isTerminal then s.becomeTerminal now id { entry with task }
  else s.put id { entry with task }

/-- `TaskStore::transition`. -/
def transition (s : TaskStore) (now : DateTime) (id : TaskId) (newStatus : TaskStatus) (reason : Option String) :
    Except TaskError Task × TaskStore :=
  match s.tasks.lookup id with
  | none => (.error (.notFound id), s)
  | some entry =>
    match entry.task.transition now newStatus reason with
    | .error e => (.error e, s)
    | .ok task => (.ok task, s.settle now id entry task)

/-- `TaskStore::transition_if`. -/
def transitionIf (s : TaskStore) (now : DateTime) (id : TaskId) (expected newStatus : TaskStatus)
    (reason : Option String) : Except TaskError Task × TaskStore :=
  match s.tasks.lookup id with
  | none => (.error (.notFound id), s)
  | some entry =>
    match entry.task.transitionIf now expected newStatus reason with
    | .error e => (.error e, s)
    | .ok task => (.ok task, s.settle now id entry task)

/-- The status and the reason a decision leads to. -/
def decisionTarget : ApprovalDecision → TaskStatus × Option String
  | .approved => (.executing, some "Approved")
  | .rejected reason => (.rejected, reason.orElse fun _ => some "Rejected")

/-- `TaskStore::record_approval`. The approval is written before the transition, and a refused transition
leaves it written. -/
def recordApproval (s : TaskStore) (now : DateTime) (id : TaskId) (decision : ApprovalDecision)
    (decidedBy : String) (approvalValidFor : Duration) : Except TaskError Task × TaskStore :=
  match s.tasks.lookup id with
  | none => (.error (.notFound id), s)
  | some entry =>
    if entry.task.status ≠ .inputRequired then
      (.error (.concurrentModification id .inputRequired entry.task.status), s)
    else
      let approval : ApprovalRecord := {
        decision, decidedBy, decidedAt := now
        approvalValidUntil := now + approvalValidFor.toChrono.getD 0
        metadata := none }
      let task := { entry.task with approval := some approval }
      match task.transition now (decisionTarget decision).1 (decisionTarget decision).2 with
      | .error e => (.error e, s.put id { entry with task })
      | .ok task => (.ok task, s.settle now id entry task)

/-- `TaskStore::complete`. -/
def complete (s : TaskStore) (now : DateTime) (id : TaskId) (result : ToolCallResult) :
    Except TaskError Task × TaskStore :=
  match s.tasks.lookup id with
  | none => (.error (.notFound id), s)
  | some entry =>
    if entry.task.status ≠ .executing then
      (.error (.concurrentModification id .executing entry.task.status), s)
    else
      let task := { entry.task with result := some result }
      match task.transition now .completed (some "Execution completed") with
      | .error e => (.error e, s.put id { entry with task })
      | .ok task => (.ok task, s.becomeTerminal now id { entry with task })

/-- `TaskStore::record_auto_approve_result`: no status is checked and none changes. -/
def recordAutoApproveResult (s : TaskStore) (now : DateTime) (id : TaskId) (result : ToolCallResult)
    (approval : ApprovalRecord) : Except TaskError Unit × TaskStore :=
  match s.tasks.lookup id with
  | none => (.error (.notFound id), s)
  | some entry =>
    let task := { entry.task with
      result := some result
      approval := some approval
      transitions := entry.task.transitions ++
        [⟨.expired, .expired, now, some "Auto-approved after expiration; executed successfully"⟩] }
    (.ok (), s.put id { entry with task })

/-- `TaskStore::fail`. The failure is written before the transition, and a refused transition leaves it
written. -/
def fail (s : TaskStore) (now : DateTime) (id : TaskId) (failure : FailureInfo) :
    Except TaskError Task × TaskStore :=
  match s.tasks.lookup id with
  | none => (.error (.notFound id), s)
  | some entry =>
    if entry.task.status.isTerminal then (.error (.alreadyTerminal id entry.task.status), s)
    else
      let task := { entry.task with failure := some failure }
      match task.transition now .failed (some failure.reason) with
      | .error e => (.error e, s.put id { entry with task })
      | .ok task => (.ok task, s.becomeTerminal now id { entry with task })

/-- `TaskStore::cancel`. -/
def cancel (s : TaskStore) (now : DateTime) (id : TaskId) : Except TaskError Task × TaskStore :=
  match s.tasks.lookup id with
  | none => (.error (.notFound id), s)
  | some entry =>
    if entry.task.status ≠ .inputRequired then
      if entry.task.status.isTerminal then
        if entry.task.status = .cancelled then (.ok entry.task, s)
        else (.error (.alreadyTerminal id entry.task.status), s)
      else (.error (.invalidTransition id entry.task.status .cancelled), s)
    else
      match entry.task.transition now .cancelled (some "Cancelled by agent") with
      | .error e => (.error e, s)
      | .ok task => (.ok task, s.becomeTerminal now id { entry with task })

/-- One round of the second loop of `expire_overdue`. -/
def expireOne (now : DateTime) (acc : Nat × TaskStore) (id : TaskId) : Nat × TaskStore :=
  match acc.2.tasks.lookup id with
  | none => acc
  | some entry =>
    if !entry.task.status.isTerminal && decide (entry.task.expiresAt < now) then
      match entry.task.transition now .expired (some "TTL exceeded") with
      | .error _ => acc
      | .ok task => (acc.1 + 1, acc.2.becomeTerminal now id { entry with task })
    else acc

/-- The ids `expire_overdue` collects. -/
def overdueIds (s : TaskStore) (now : DateTime) : List TaskId :=
  (s.tasks.entries.filter fun e => !e.2.task.status.isTerminal && decide (e.2.task.expiresAt < now)).map
    fun e => e.2.task.id

/-- `TaskStore::expire_overdue`. -/
def expireOverdue (s : TaskStore) (now : DateTime) : Nat × TaskStore :=
  (s.overdueIds now).foldl (expireOne now) (0, s)

/-- One round of the removal loop of `cleanup_terminal`. -/
def cleanupOne (s : TaskStore) (id : TaskId) : TaskStore :=
  match s.tasks.lookup id with
  | none => s
  | some entry =>
    { s with tasks := s.tasks.erase id }.unindexTask entry.task.principal.rateLimitKey id

/-- The ids `cleanup_terminal` collects. -/
def staleIds (s : TaskStore) (now : DateTime) : List TaskId :=
  (s.tasks.entries.filter fun e =>
    match e.2.terminalAt with
    | some terminalAt => decide (s.config.terminalGracePeriod.toChrono.getD 0 < now - terminalAt)
    | none => false).map fun e => e.2.task.id

/-- `TaskStore::cleanup_terminal`. -/
def cleanupTerminal (s : TaskStore) (now : DateTime) : Nat × TaskStore :=
  ((s.staleIds now).length, (s.staleIds now).foldl cleanupOne s)

/-- The ids `fail_all_pending` collects. -/
def pendingIds (s : TaskStore) : List TaskId :=
  (s.tasks.entries.filter fun e => !e.2.task.status.isTerminal).map fun e => e.2.task.id

/-- One round of the loop of `fail_all_pending`. -/
def failOne (now : DateTime) (failure : FailureInfo) (acc : Nat × TaskStore) (id : TaskId) : Nat × TaskStore :=
  match acc.2.fail now id failure with
  | (.ok _, s) => (acc.1 + 1, s)
  | (.error _, s) => (acc.1, s)

/-- `TaskStore::fail_all_pending`. -/
def failAllPending (s : TaskStore) (now : DateTime) (reason : String) : Nat × TaskStore :=
  s.pendingIds.foldl (failOne now ⟨.serviceShutdown, reason, true⟩) (0, s)

/-- `TaskStore::list_for_principal`: newest first, ties in index order. -/
def listForPrincipal (s : TaskStore) (principal : Principal) (offset limit : Nat) : List Task :=
  match s.byPrincipal.lookup principal.rateLimitKey with
  | none => []
  | some ids =>
    let tasks := ids.filterMap fun id => (s.tasks.lookup id).map (·.task)
    ((tasks.insertionSort fun a b => b.createdAt ≤ a.createdAt).drop offset).take limit

end TaskStore

/-! ### Runs -/

/-- A call of one store operation with everything it is given, the clock and the new id included. -/
inductive StoreOp where
  | create (id : TaskId) (now : DateTime) (originalRequest preApprovalTransformed : ToolCallRequest)
      (principal : Principal) (ttl : Option Duration) (onTimeout : TimeoutAction)
  | transition (now : DateTime) (id : TaskId) (newStatus : TaskStatus) (reason : Option String)
  | transitionIf (now : DateTime) (id : TaskId) (expected newStatus : TaskStatus) (reason : Option String)
  | recordApproval (now : DateTime) (id : TaskId) (decision : ApprovalDecision) (decidedBy : String)
      (approvalValidFor : Duration)
  | complete (now : DateTime) (id : TaskId) (result : ToolCallResult)
  | fail (now : DateTime) (id : TaskId) (failure : FailureInfo)
  | cancel (now : DateTime) (id : TaskId)
  | recordAutoApproveResult (now : DateTime) (id : TaskId) (result : ToolCallResult) (approval : ApprovalRecord)
  | expireOverdue (now : DateTime)
  | cleanupTerminal (now : DateTime)
  | failAllPending (now : DateTime) (reason : String)

namespace StoreOp

variable [F64.Fmt] [Sha256]

/-- The store after the call, whether it succeeds or fails. -/
def apply (s : TaskStore) : StoreOp → TaskStore
  | .create id now orig pre principal ttl onTimeout => (s.create id now orig pre principal ttl onTimeout).2
  | .transition now id newStatus reason => (s.transition now id newStatus reason).2
  | .transitionIf now id expected newStatus reason => (s.transitionIf now id expected newStatus reason).2
  | .recordApproval now id decision decidedBy validFor => (s.recordApproval now id decision decidedBy validFor).2
  | .complete now id result => (s.complete now id result).2
  | .fail now id failure => (s.fail now id failure).2
  | .cancel now id => (s.cancel now id).2
  | .recordAutoApproveResult now id result approval => (s.recordAutoApproveResult now id result approval).2
  | .expireOverdue now => (s.expireOverdue now).2
  | .cleanupTerminal now => (s.cleanupTerminal now).2
  | .failAllPending now reason => (s.failAllPending now reason).2

omit [F64.Fmt] [Sha256] in
/-- The id a call draws (`TaskId::new`). -/
def newId : StoreOp → Option TaskId
  | .create id .. => some id
  | _ => none

end StoreOp

/-- The store as a machine. A new id never meets one in use: it is a random UUID. -/
def storeMachine [F64.Fmt] [Sha256] (config : TaskStoreConfig) : Machine TaskStore StoreOp where
  init := .new config
  step s op := if ∀ id ∈ op.newId, s.tasks.lookup id = none then some (op.apply s) else none

/-! ### A request for concrete runs -/

namespace Sample

/-- Runs without doubles print none. -/
@[reducible] def f64Fmt : F64.Fmt := ⟨fun _ => ""⟩

/-- SHA-256 on the one text that the request below is hashed from. -/
@[reducible] def sha256 : Sha256 where
  hex text :=
    if text = "tools/callsearch\x7b\x7d" then
      "2aa334fd72b6989634f84e0bc7d727f223bc672b5fd12127375f9b4e6d274395"
    else ""

def request : ToolCallRequest where
  method := "tools/call"
  name := "search"
  arguments := .emptyObject
  mcpRequestId := .number 1

def principal : Principal where
  appName := "app"

end Sample

end ThoughtGate
