import ThoughtGate.Task.Accounting
import ThoughtGate.Lib.Threads

/-!
# The task store with its calls interleaved

The operations of `governance/task/store.rs` cut at every access to shared data: each load, `compare_exchange`,
`fetch_add` and `fetch_sub` on a counter, and each access to one of the three maps, is one step of a thread.

A `DashMap` is a row of shards, each behind a reader/writer lock (`Lock`). Which shard a key lies in is
arbitrary (`Sharding`), so different keys may share one. What a call holds at a program counter is what the
guards alive there hold: `create` keeps the write guard of its `pending_by_principal` entry until it returns,
the operations on one task keep the write guard of the task's shard until they return, and an iteration over
`tasks` holds the shard it has just read while it takes the next one.
-/

namespace ThoughtGate

open WaitGraph (Mode)

/-- How the maps are cut into shards. -/
structure Sharding where
  count : Nat
  tasks : TaskId → Nat
  principals : String → Nat
  index : String → Nat
  tasks_lt : ∀ id, tasks id < count

/-- A shard of `tasks`, `pending_by_principal` or `by_principal`. -/
inductive Lock where
  | tasks (shard : Nat)
  | principals (shard : Nat)
  | index (shard : Nat)
deriving DecidableEq

/-! ### Operations on one entry -/

/-- What is done to one task under the guard of `tasks.get_mut`. -/
inductive EntryCall where
  | transition (now : DateTime) (id : TaskId) (newStatus : TaskStatus) (reason : Option String)
  | transitionIf (now : DateTime) (id : TaskId) (expected newStatus : TaskStatus) (reason : Option String)
  | recordApproval (now : DateTime) (id : TaskId) (decision : ApprovalDecision) (decidedBy : String)
      (approvalValidFor : Duration)
  | complete (now : DateTime) (id : TaskId) (result : ToolCallResult)
  | recordAutoApproveResult (now : DateTime) (id : TaskId) (result : ToolCallResult) (approval : ApprovalRecord)
  | fail (now : DateTime) (id : TaskId) (failure : FailureInfo)
  | cancel (now : DateTime) (id : TaskId)
  | expire (now : DateTime) (id : TaskId)

namespace EntryCall

def id : EntryCall → TaskId
  | .transition _ id _ _ | .transitionIf _ id _ _ _ | .recordApproval _ id _ _ _ | .complete _ id _
  | .recordAutoApproveResult _ id _ _ | .fail _ id _ | .cancel _ id | .expire _ id => id

def now : EntryCall → DateTime
  | .transition now _ _ _ | .transitionIf now _ _ _ _ | .recordApproval now _ _ _ _ | .complete now _ _
  | .recordAutoApproveResult now _ _ _ | .fail now _ _ | .cancel now _ | .expire now _ => now

/-- A transition of a task that has already been written to: a refusal leaves what was written. -/
def written (t : Task) (now : DateTime) (newStatus : TaskStatus) (reason : Option String) : Task :=
  match t.transition now newStatus reason with
  | .ok t' => t'
  | .error _ => t

/-- The task that the call leaves in the entry; `none` when it leaves the entry alone. -/
def body (t : Task) : EntryCall → Option Task
  | .transition now _ newStatus reason => (t.transition now newStatus reason).toOption
  | .transitionIf now _ expected newStatus reason => (t.transitionIf now expected newStatus reason).toOption
  | .recordApproval now _ decision decidedBy approvalValidFor =>
    if t.status ≠ .inputRequired then none
    else
      let approval : ApprovalRecord := {
        decision, decidedBy, decidedAt := now
        approvalValidUntil := now + approvalValidFor.toChrono.getD 0
        metadata := none }
      some (written { t with approval := some approval } now (TaskStore.decisionTarget decision).1
        (TaskStore.decisionTarget decision).2)
  | .complete now _ result =>
    if t.status ≠ .executing then none
    else some (written { t with result := some result } now .completed (some "Execution completed"))
  | .recordAutoApproveResult now _ result approval =>
    some { t with
      result := some result
      approval := some approval
      transitions := t.transitions ++
        [⟨.expired, .expired, now, some "Auto-approved after expiration; executed successfully"⟩] }
  | .fail now _ failure =>
    if t.status.isTerminal then none
    else some (written { t with failure := some failure } now .failed (some failure.reason))
  | .cancel now _ =>
    if t.status ≠ .inputRequired then none
    else (t.transition now .cancelled (some "Cancelled by agent")).toOption
  | .expire now _ =>
    if !t.status.isTerminal && decide (t.expiresAt < now) then
      (t.transition now .expired (some "TTL exceeded")).toOption
    else none

/-- The operation of the store that the call belongs to, in one step. -/
def apply (s : TaskStore) : EntryCall → TaskStore
  | .transition now id newStatus reason => (s.transition now id newStatus reason).2
  | .transitionIf now id expected newStatus reason => (s.transitionIf now id expected newStatus reason).2
  | .recordApproval now id decision decidedBy validFor => (s.recordApproval now id decision decidedBy validFor).2
  | .complete now id result => (s.complete now id result).2
  | .recordAutoApproveResult now id result approval => (s.recordAutoApproveResult now id result approval).2
  | .fail now id failure => (s.fail now id failure).2
  | .cancel now id => (s.cancel now id).2
  | .expire now id => (TaskStore.expireOne now (0, s) id).2

theorem written_of_can {t : Task} (now : DateTime) {newStatus : TaskStatus} (reason : Option String)
    (h : t.status.canTransitionTo newStatus = true) :
    t.transition now newStatus reason = .ok (written t now newStatus reason) := by
  obtain ⟨t', ht⟩ := Task.transition_of_can now reason h
  rw [written, ht]

theorem decisionTarget_can (decision : ApprovalDecision) :
    TaskStatus.inputRequired.canTransitionTo (TaskStore.decisionTarget decision).1 = true := by
  cases decision <;> rfl

/-- What a call leaves in an entry is one step of the task. -/
theorem body_taskStep {u : EntryCall} {t t' : Task} (h : u.body t = some t') :
    TaskStep (fun _ => True) t t' := by
  have hok : ∀ {x : Except TaskError Task}, x.toOption = some t' → x = .ok t' := by
    intro x hx
    cases x with
    | error e => cases hx
    | ok y =>
      cases hx
      rfl
  cases u with
  | transition now id newStatus reason => exact .move (hok h)
  | transitionIf now id expected newStatus reason => exact .move (Task.transitionIf_ok (hok h)).2
  | recordApproval now id decision decidedBy validFor =>
    simp only [body] at h
    split at h
    · cases h
    · rename_i hst
      rw [not_not] at hst
      cases h
      have hcan : t.status.canTransitionTo (TaskStore.decisionTarget decision).1 = true := by
        rw [hst]
        exact decisionTarget_can decision
      exact .decided (written_of_can now _ hcan)
  | complete now id result =>
    simp only [body] at h
    split at h
    · cases h
    · rename_i hst
      rw [not_not] at hst
      cases h
      have hcan : t.status.canTransitionTo .completed = true := by rw [hst]; rfl
      exact .completed (written_of_can now _ hcan)
  | recordAutoApproveResult now id result approval =>
    cases h
    exact .autoResult trivial
  | fail now id failure =>
    simp only [body] at h
    split at h
    · cases h
    · rename_i hlive
      cases h
      cases ht : { t with failure := some failure }.transition now .failed (some failure.reason) with
      | ok t' =>
        rw [written, ht]
        exact .failed ht
      | error e =>
        rw [written, ht]
        exact .noted (by simpa using hlive)
  | cancel now id =>
    simp only [body] at h
    split at h
    · cases h
    · exact .move (hok h)
  | expire now id =>
    simp only [body] at h
    split at h
    · exact .move (hok h)
    · cases h

theorem settle_terminal {s : TaskStore} {now : DateTime} {id : TaskId} {e : TaskEntry} {t' : Task}
    (hlive : e.task.status.isTerminal = false) (hterm : t'.status.isTerminal = true) :
    s.settle now id e t' = s.becomeTerminal now id { e with task := t' } := by
  simp [TaskStore.settle, hlive, hterm]

/-- The operation in one step is its body under the guard, with the bookkeeping when the task becomes
terminal. -/
theorem apply_eq (s : TaskStore) (u : EntryCall) :
    u.apply s =
      match s.tasks.lookup u.id with
      | none => s
      | some e =>
        match u.body e.task with
        | none => s
        | some t' => s.settle u.now u.id e t' := by
  cases he : s.tasks.lookup u.id with
  | none =>
    cases u <;> simp only [id] at he <;>
      simp only [apply, TaskStore.transition, TaskStore.transitionIf, TaskStore.recordApproval,
        TaskStore.complete, TaskStore.recordAutoApproveResult, TaskStore.fail, TaskStore.cancel,
        TaskStore.expireOne, he]
  | some e =>
    cases u with
    | transition now id newStatus reason =>
      simp only [apply, TaskStore.transition, body, EntryCall.id, EntryCall.now] at he ⊢
      rw [he]
      dsimp only
      cases e.task.transition now newStatus reason <;> rfl
    | transitionIf now id expected newStatus reason =>
      simp only [apply, TaskStore.transitionIf, body, EntryCall.id, EntryCall.now] at he ⊢
      rw [he]
      dsimp only
      cases e.task.transitionIf now expected newStatus reason <;> rfl
    | recordApproval now id decision decidedBy validFor =>
      simp only [apply, TaskStore.recordApproval, body, EntryCall.id, EntryCall.now] at he ⊢
      rw [he]
      dsimp only
      by_cases hst : e.task.status = .inputRequired
      · have hcan : e.task.status.canTransitionTo (TaskStore.decisionTarget decision).1 = true := by
          rw [hst]
          exact decisionTarget_can decision
        have hok := fun r => written_of_can (t := { e.task with approval := some r }) now
          (TaskStore.decisionTarget decision).2 hcan
        rw [if_neg (not_not.mpr hst), if_neg (not_not.mpr hst), hok]
      · simp [hst]
    | complete now id result =>
      simp only [apply, TaskStore.complete, body, EntryCall.id, EntryCall.now] at he ⊢
      rw [he]
      dsimp only
      by_cases hst : e.task.status = .executing
      · have hcan : e.task.status.canTransitionTo .completed = true := by rw [hst]; rfl
        have hok := written_of_can (t := { e.task with result := some result }) now
          (some "Execution completed") hcan
        have hterm : (written { e.task with result := some result } now .completed
            (some "Execution completed")).status.isTerminal = true := by
          obtain ⟨_, hnew⟩ := Task.transition_ok hok
          rw [hnew]
          rfl
        rw [if_neg (not_not.mpr hst), if_neg (not_not.mpr hst), hok]
        exact (settle_terminal (by rw [hst]; rfl) hterm).symm
      · simp [hst]
    | recordAutoApproveResult now id result approval =>
      simp only [apply, TaskStore.recordAutoApproveResult, body, EntryCall.id, EntryCall.now] at he ⊢
      rw [he]
      dsimp only
      simp [TaskStore.settle]
    | fail now id failure =>
      simp only [apply, TaskStore.fail, body, EntryCall.id, EntryCall.now] at he ⊢
      rw [he]
      dsimp only
      by_cases hterm : e.task.status.isTerminal = true
      · simp [hterm]
      · simp only [hterm, if_false, Bool.false_eq_true]
        cases ht : { e.task with failure := some failure }.transition now .failed (some failure.reason) with
        | error err =>
          simp [written, ht, TaskStore.settle]
        | ok t' =>
          simp only [written, ht]
          rw [settle_terminal (by simpa using hterm)]
          obtain ⟨_, rfl⟩ := Task.transition_ok ht
          rfl
    | cancel now id =>
      simp only [apply, TaskStore.cancel, body, EntryCall.id, EntryCall.now] at he ⊢
      rw [he]
      dsimp only
      by_cases hst : e.task.status = .inputRequired
      · rw [if_neg (not_not.mpr hst), if_neg (not_not.mpr hst)]
        cases ht : e.task.transition now .cancelled (some "Cancelled by agent") with
        | error err => rfl
        | ok t' =>
          simp only [Except.toOption]
          rw [settle_terminal (by rw [hst]; rfl)]
          obtain ⟨_, rfl⟩ := Task.transition_ok ht
          rfl
      · simp only [hst, ne_eq, not_false_eq_true, if_true]
        split_ifs <;> rfl
    | expire now id =>
      simp only [apply, TaskStore.expireOne, body, EntryCall.id, EntryCall.now] at he ⊢
      rw [he]
      dsimp only
      by_cases hdue : (!e.task.status.isTerminal && decide (e.task.expiresAt < now)) = true
      · simp only [hdue, if_true]
        cases ht : e.task.transition now .expired (some "TTL exceeded") with
        | error err => rfl
        | ok t' =>
          simp only [Except.toOption]
          rw [Bool.and_eq_true, Bool.not_eq_true'] at hdue
          rw [settle_terminal hdue.1]
          obtain ⟨_, rfl⟩ := Task.transition_ok ht
          rfl
      · simp [hdue]

end EntryCall

/-! ### Program counters -/

/-- The arguments of `create`, with the id and the time its `Task::new` draws. -/
structure CreateArgs where
  id : TaskId
  now : DateTime
  originalRequest : ToolCallRequest
  preApprovalTransformed : ToolCallRequest
  principal : Principal
  ttl : Option Duration
  onTimeout : TimeoutAction

def CreateArgs.key (c : CreateArgs) : String := c.principal.rateLimitKey

/-- What an iteration over `tasks` is for. -/
inductive Scan where
  | expireOverdue (now : DateTime)
  | cleanupTerminal (now : DateTime)
  | failAllPending (now : DateTime) (reason : String)

/-- Where a call stands: the step it takes next. The calls still to be made by a loop over ids are `rest`. -/
inductive Pc where
  | createLoad (c : CreateArgs)
  | createCas (c : CreateArgs) (current : Nat)
  | createEntry (c : CreateArgs)
  | createAdd (c : CreateArgs)
  | createLoadBytes (c : CreateArgs) (task : Task)
  | createAddBytes (c : CreateArgs) (task : Task)
  | createInsert (c : CreateArgs) (task : Task)
  | createIndex (c : CreateArgs)
  | createUndoPrincipal (c : CreateArgs)
  | createUndoCount (c : CreateArgs)
  | createReturn (c : CreateArgs)
  | entryGet (u : EntryCall) (rest : List EntryCall)
  | entryBody (u : EntryCall) (rest : List EntryCall)
  | entrySubCount (u : EntryCall) (rest : List EntryCall) (key : String) (bytes : Nat)
  | entrySubBytes (u : EntryCall) (rest : List EntryCall) (key : String) (bytes : Nat)
  | entryGetCounter (u : EntryCall) (rest : List EntryCall) (key : String)
  | entrySubPrincipal (u : EntryCall) (rest : List EntryCall) (key : String)
  | entryRemove (u : EntryCall) (rest : List EntryCall) (key : String)
  | entryNotify (u : EntryCall) (rest : List EntryCall)
  | scanShard (scan : Scan) (shard : Nat) (found : List TaskId)
  | scanEnd (scan : Scan) (found : List TaskId)
  | cleanupRemove (id : TaskId) (rest : List TaskId)
  | cleanupIndex (id : TaskId) (key : String) (rest : List TaskId)
  | cleanupDropIndex (key : String) (rest : List TaskId)
  | listIds (principal : Principal)
  | listGet (ids : List TaskId)

namespace Pc

variable (σ : Sharding)

/-- The locks held by the guards alive at a program counter. -/
def held : Pc → List (Lock × Mode)
  | .createAdd c | .createLoadBytes c _ | .createAddBytes c _ | .createInsert c _ | .createIndex c
  | .createUndoPrincipal c | .createUndoCount c | .createReturn c => [(.principals (σ.principals c.key), .write)]
  | .entryBody u _ | .entrySubCount u _ _ _ | .entrySubBytes u _ _ _ | .entryGetCounter u _ _
  | .entryRemove u _ _ | .entryNotify u _ => [(.tasks (σ.tasks u.id), .write)]
  | .entrySubPrincipal u _ key =>
    [(.tasks (σ.tasks u.id), .write), (.principals (σ.principals key), .read)]
  | .scanShard _ (shard + 1) _ => [(.tasks shard, .read)]
  | .scanEnd _ _ => [(.tasks (σ.count - 1), .read)]
  | _ => []

/-- The lock that the next step has to get. -/
def wants : Pc → Option (Lock × Mode)
  | .createEntry c => some (.principals (σ.principals c.key), .write)
  | .createInsert c _ => some (.tasks (σ.tasks c.id), .write)
  | .createIndex c => some (.index (σ.index c.key), .write)
  | .entryGet u _ => some (.tasks (σ.tasks u.id), .write)
  | .entryGetCounter _ _ key => some (.principals (σ.principals key), .read)
  | .entryRemove _ _ key => some (.principals (σ.principals key), .write)
  | .scanShard _ shard _ => some (.tasks shard, .read)
  | .cleanupRemove id _ => some (.tasks (σ.tasks id), .write)
  | .cleanupIndex _ key _ | .cleanupDropIndex key _ => some (.index (σ.index key), .write)
  | .listIds principal => some (.index (σ.index principal.rateLimitKey), .read)
  | .listGet (id :: _) => some (.tasks (σ.tasks id), .read)
  | _ => none

/-- The next round of a loop over entry calls; `none` ends the call. -/
def entryLoop : List EntryCall → Option Pc
  | [] => none
  | u :: rest => some (.entryGet u rest)

def cleanupLoop : List TaskId → Option Pc
  | [] => none
  | id :: rest => some (.cleanupRemove id rest)

def listLoop : List TaskId → Option Pc
  | [] => none
  | ids => some (.listGet ids)

/-- The shard to read next; after the last one the iterator ends, still holding it. -/
def scanLoop (scan : Scan) (shard : Nat) (found : List TaskId) : Pc :=
  if shard < σ.count then .scanShard scan shard found else .scanEnd scan found

/-- What is done with the ids an iteration has found. -/
def scanned (found : List TaskId) : Scan → Option Pc
  | .expireOverdue now => entryLoop (found.map (.expire now))
  | .cleanupTerminal _ => cleanupLoop found
  | .failAllPending now reason => entryLoop (found.map (.fail now · ⟨.serviceShutdown, reason, true⟩))

/-- Whether an iteration collects the id of an entry. -/
def scanTakes (config : TaskStoreConfig) (e : TaskEntry) : Scan → Bool
  | .expireOverdue now => !e.task.status.isTerminal && decide (e.task.expiresAt < now)
  | .cleanupTerminal now =>
    match e.terminalAt with
    | some terminalAt => decide (config.terminalGracePeriod.toChrono.getD 0 < now - terminalAt)
    | none => false
  | .failAllPending .. => !e.task.status.isTerminal

/-- The ids that an iteration collects from one shard. -/
def scanShardIds (s : TaskStore) (scan : Scan) (shard : Nat) : List TaskId :=
  (s.tasks.entries.filter fun e => σ.tasks e.1 == shard && scanTakes s.config e.2 scan).map fun e => e.2.task.id

/-- One step of a call. -/
def next [F64.Fmt] [Sha256] (s : TaskStore) : Pc → TaskStore × Option Pc
  | .createLoad c =>
    if s.config.maxPendingGlobal ≤ s.pendingCount then (s, none) else (s, some (.createCas c s.pendingCount))
  | .createCas c current =>
    if s.pendingCount = current then ({ s with pendingCount := current + 1 }, some (.createEntry c))
    else (s, some (.createLoad c))
  | .createEntry c => (s.principalEntry c.key, some (.createAdd c))
  | .createAdd c =>
    let prev := s.principalCount c.key
    let s := s.addPrincipal c.key
    if s.config.maxPendingPerPrincipal ≤ prev then (s, some (.createUndoPrincipal c))
    else
      let ttl := TaskStore.clamp (c.ttl.getD s.config.defaultTtl) s.config.minTtl s.config.maxTtl
      match Task.new c.id c.now c.originalRequest c.preApprovalTransformed c.principal ttl c.onTimeout with
      | .error _ => (s, some (.createUndoPrincipal c))
      | .ok task => (s, some (.createLoadBytes c task))
  | .createLoadBytes c task =>
    if s.config.maxPendingBytes < s.pendingBytes + TaskStore.estimateBytes task then
      (s, some (.createUndoPrincipal c))
    else (s, some (.createAddBytes c task))
  | .createAddBytes c task =>
    ({ s with pendingBytes := s.pendingBytes + TaskStore.estimateBytes task }, some (.createInsert c task))
  | .createInsert c task =>
    (s.put c.id { task, terminalAt := none, notifications := 0, estimatedBytes := TaskStore.estimateBytes task },
      some (.createIndex c))
  | .createIndex c => (s.indexTask c.key c.id, some (.createReturn c))
  | .createUndoPrincipal c => (s.subPrincipal c.key, some (.createUndoCount c))
  | .createUndoCount c => (s.subPendingCount 1, some (.createReturn c))
  | .createReturn _ => (s, none)
  | .entryGet u rest =>
    match s.tasks.lookup u.id with
    | none => (s, entryLoop rest)
    | some _ => (s, some (.entryBody u rest))
  | .entryBody u rest =>
    match s.tasks.lookup u.id with
    | none => (s, entryLoop rest)
    | some e =>
      match u.body e.task with
      | none => (s, entryLoop rest)
      | some task =>
        if !e.task.status.isTerminal && task.status.isTerminal then
          (s.put u.id { e with task, terminalAt := some u.now },
            some (.entrySubCount u rest task.principal.rateLimitKey e.estimatedBytes))
        else (s.put u.id { e with task }, entryLoop rest)
  | .entrySubCount u rest key bytes => (s.subPendingCount 1, some (.entrySubBytes u rest key bytes))
  | .entrySubBytes u rest key bytes => (s.subPendingBytes bytes, some (.entryGetCounter u rest key))
  | .entryGetCounter u rest key =>
    match s.pendingByPrincipal.lookup key with
    | none => (s, some (.entryNotify u rest))
    | some _ => (s, some (.entrySubPrincipal u rest key))
  | .entrySubPrincipal u rest key =>
    if s.principalCount key = 1 then (s.subPrincipal key, some (.entryRemove u rest key))
    else (s.subPrincipal key, some (.entryNotify u rest))
  | .entryRemove u rest key => (s.removePrincipalIfZero key, some (.entryNotify u rest))
  | .entryNotify u rest =>
    match s.tasks.lookup u.id with
    | none => (s, entryLoop rest)
    | some e => (s.put u.id { e with notifications := e.notifications + 1 }, entryLoop rest)
  | .scanShard scan shard found =>
    (s, some (scanLoop σ scan (shard + 1) (found ++ scanShardIds σ s scan shard)))
  | .scanEnd scan found => (s, scanned found scan)
  | .cleanupRemove id rest =>
    match s.tasks.lookup id with
    | none => (s, cleanupLoop rest)
    | some e => ({ s with tasks := s.tasks.erase id }, some (.cleanupIndex id e.task.principal.rateLimitKey rest))
  | .cleanupIndex id key rest =>
    match s.byPrincipal.lookup key with
    | none => (s, cleanupLoop rest)
    | some ids =>
      let ids := ids.filter (· ≠ id)
      let s := { s with byPrincipal := s.byPrincipal.insert key ids }
      if ids.isEmpty then (s, some (.cleanupDropIndex key rest)) else (s, cleanupLoop rest)
  | .cleanupDropIndex key rest =>
    if s.byPrincipal.lookup key = some [] then
      ({ s with byPrincipal := s.byPrincipal.erase key }, cleanupLoop rest)
    else (s, cleanupLoop rest)
  | .listIds principal =>
    match s.byPrincipal.lookup principal.rateLimitKey with
    | none => (s, none)
    | some ids => (s, listLoop ids)
  | .listGet ids => (s, listLoop ids.tail)

/-- The task that a `create` has yet to insert. -/
def inserts : Pc → Option TaskId
  | .createLoad c | .createCas c _ | .createEntry c | .createAdd c | .createLoadBytes c _ | .createAddBytes c _
  | .createInsert c _ => some c.id
  | _ => none

/-- The task ids that a call has drawn or collected and not dealt with. -/
def mentions : Pc → List TaskId
  | .createLoad c | .createCas c _ | .createEntry c | .createAdd c | .createLoadBytes c _ | .createAddBytes c _
  | .createInsert c _ => [c.id]
  | .scanShard _ _ found | .scanEnd _ found => found
  | .cleanupRemove id rest | .cleanupIndex id _ rest => id :: rest
  | .cleanupDropIndex _ rest => rest
  | _ => []

/-- Where a call starts. A new id is drawn at random: it is neither stored nor known to a running call. -/
def start (s : TaskStore) (threads : Table Nat Pc) : Pc → Bool
  | .createLoad c =>
    (s.tasks.lookup c.id).isNone && threads.entries.all fun e => decide (c.id ∉ e.2.mentions)
  | .entryGet _ [] | .scanShard _ 0 [] | .listIds _ => true
  | _ => false

/-! ### The heads of the loops -/

theorem entryLoop_some {rest : List EntryCall} {p : Pc} (h : entryLoop rest = some p) :
    ∃ u us, rest = u :: us ∧ p = .entryGet u us := by
  cases rest with
  | nil => cases h
  | cons u us =>
    cases h
    exact ⟨u, us, rfl, rfl⟩

theorem cleanupLoop_some {rest : List TaskId} {p : Pc} (h : cleanupLoop rest = some p) :
    ∃ id ids, rest = id :: ids ∧ p = .cleanupRemove id ids := by
  cases rest with
  | nil => cases h
  | cons id ids =>
    cases h
    exact ⟨id, ids, rfl, rfl⟩

theorem listLoop_some {ids : List TaskId} {p : Pc} (h : listLoop ids = some p) : p = .listGet ids := by
  cases ids with
  | nil => cases h
  | cons id ids =>
    cases h
    rfl

theorem scanned_some {found : List TaskId} {scan : Scan} {p : Pc} (h : scanned found scan = some p) :
    (∃ u us, p = .entryGet u us) ∨
      ∃ now id ids, scan = .cleanupTerminal now ∧ found = id :: ids ∧ p = .cleanupRemove id ids := by
  cases scan with
  | expireOverdue now =>
    obtain ⟨u, us, _, hp⟩ := entryLoop_some h
    exact Or.inl ⟨u, us, hp⟩
  | cleanupTerminal now =>
    obtain ⟨id, ids, hfound, hp⟩ := cleanupLoop_some h
    exact Or.inr ⟨now, id, ids, rfl, hfound, hp⟩
  | failAllPending now reason =>
    obtain ⟨u, us, _, hp⟩ := entryLoop_some h
    exact Or.inl ⟨u, us, hp⟩

theorem scanLoop_cases (σ : Sharding) (scan : Scan) (i : Nat) (found : List TaskId) :
    scanLoop σ scan i found = .scanShard scan i found ∨ scanLoop σ scan i found = .scanEnd scan found := by
  unfold scanLoop
  split
  · exact Or.inl rfl
  · exact Or.inr rfl

end Pc

/-- The store and its running calls. -/
def threadProgram [F64.Fmt] [Sha256] (σ : Sharding) (config : TaskStoreConfig) :
    Program TaskStore Pc Unit Lock where
  init := .new config
  start := Pc.start
  next s p _ := some (p.next σ s)
  held := Pc.held σ
  wants := Pc.wants σ

abbrev threadMachine [F64.Fmt] [Sha256] (σ : Sharding) (config : TaskStoreConfig) :
    Machine (ThreadState TaskStore Pc) (ThreadAct Pc Unit) :=
  (threadProgram σ config).machine

theorem threadProgram_next [F64.Fmt] [Sha256] {σ : Sharding} {config : TaskStoreConfig} {s s' : TaskStore} {p : Pc}
    {p' : Option Pc} {i : Unit} (h : (threadProgram σ config).next s p i = some (s', p')) :
    (p.next σ s).1 = s' ∧ (p.next σ s).2 = p' := by
  have heq : p.next σ s = (s', p') := Option.some.inj h
  exact ⟨congrArg Prod.fst heq, congrArg Prod.snd heq⟩

/-! ### Where a call goes -/

/-- The program counters that can follow one another, with what the step has seen. The heads of the loops over
entry calls and of a listing may follow from anywhere. -/
inductive Goes [F64.Fmt] [Sha256] (σ : Sharding) (s : TaskStore) : Pc → Pc → Prop
  | load {c : CreateArgs} : s.pendingCount < s.config.maxPendingGlobal →
      Goes σ s (.createLoad c) (.createCas c s.pendingCount)
  | swap {c : CreateArgs} : Goes σ s (.createCas c s.pendingCount) (.createEntry c)
  | retry {c : CreateArgs} {current : Nat} : Goes σ s (.createCas c current) (.createLoad c)
  | entry {c : CreateArgs} : Goes σ s (.createEntry c) (.createAdd c)
  | refused {c : CreateArgs} : Goes σ s (.createAdd c) (.createUndoPrincipal c)
  | built {c : CreateArgs} {ttl : Duration} {task : Task} :
      s.principalCount c.key < s.config.maxPendingPerPrincipal →
      Task.new c.id c.now c.originalRequest c.preApprovalTransformed c.principal ttl c.onTimeout = .ok task →
      Goes σ s (.createAdd c) (.createLoadBytes c task)
  | tooLarge {c : CreateArgs} {task : Task} : Goes σ s (.createLoadBytes c task) (.createUndoPrincipal c)
  | fits {c : CreateArgs} {task : Task} :
      s.pendingBytes + TaskStore.estimateBytes task ≤ s.config.maxPendingBytes →
      Goes σ s (.createLoadBytes c task) (.createAddBytes c task)
  | addBytes {c : CreateArgs} {task : Task} : Goes σ s (.createAddBytes c task) (.createInsert c task)
  | insert {c : CreateArgs} {task : Task} : Goes σ s (.createInsert c task) (.createIndex c)
  | index {c : CreateArgs} : Goes σ s (.createIndex c) (.createReturn c)
  | undoPrincipal {c : CreateArgs} : Goes σ s (.createUndoPrincipal c) (.createUndoCount c)
  | undoCount {c : CreateArgs} : Goes σ s (.createUndoCount c) (.createReturn c)
  | entryLoop {p : Pc} {u : EntryCall} {rest : List EntryCall} : Goes σ s p (.entryGet u rest)
  | getMut {u : EntryCall} {rest : List EntryCall} : Goes σ s (.entryGet u rest) (.entryBody u rest)
  | close {u : EntryCall} {rest : List EntryCall} {e : TaskEntry} {task : Task} :
      s.tasks.lookup u.id = some e → u.body e.task = some task → e.task.status.isTerminal = false →
      task.status.isTerminal = true →
      Goes σ s (.entryBody u rest) (.entrySubCount u rest task.principal.rateLimitKey e.estimatedBytes)
  | subCount {u : EntryCall} {rest : List EntryCall} {key : String} {bytes : Nat} :
      Goes σ s (.entrySubCount u rest key bytes) (.entrySubBytes u rest key bytes)
  | subBytes {u : EntryCall} {rest : List EntryCall} {key : String} {bytes : Nat} :
      Goes σ s (.entrySubBytes u rest key bytes) (.entryGetCounter u rest key)
  | counter {u : EntryCall} {rest : List EntryCall} {key : String} :
      Goes σ s (.entryGetCounter u rest key) (.entrySubPrincipal u rest key)
  | noCounter {u : EntryCall} {rest : List EntryCall} {key : String} :
      Goes σ s (.entryGetCounter u rest key) (.entryNotify u rest)
  | subLast {u : EntryCall} {rest : List EntryCall} {key : String} :
      Goes σ s (.entrySubPrincipal u rest key) (.entryRemove u rest key)
  | subPrincipal {u : EntryCall} {rest : List EntryCall} {key : String} :
      Goes σ s (.entrySubPrincipal u rest key) (.entryNotify u rest)
  | remove {u : EntryCall} {rest : List EntryCall} {key : String} :
      Goes σ s (.entryRemove u rest key) (.entryNotify u rest)
  | scanShard {scan : Scan} {i : Nat} {found : List TaskId} :
      Goes σ s (.scanShard scan i found) (.scanShard scan (i + 1) (found ++ Pc.scanShardIds σ s scan i))
  | scanEnd {scan : Scan} {i : Nat} {found : List TaskId} :
      Goes σ s (.scanShard scan i found) (.scanEnd scan (found ++ Pc.scanShardIds σ s scan i))
  | cleanup {now : DateTime} {id : TaskId} {rest : List TaskId} :
      Goes σ s (.scanEnd (.cleanupTerminal now) (id :: rest)) (.cleanupRemove id rest)
  | gone {id id' : TaskId} {rest : List TaskId} :
      Goes σ s (.cleanupRemove id (id' :: rest)) (.cleanupRemove id' rest)
  | removed {id : TaskId} {key : String} {rest : List TaskId} :
      Goes σ s (.cleanupRemove id rest) (.cleanupIndex id key rest)
  | indexed {id id' : TaskId} {key : String} {rest : List TaskId} :
      Goes σ s (.cleanupIndex id key (id' :: rest)) (.cleanupRemove id' rest)
  | emptied {id : TaskId} {key : String} {rest : List TaskId} :
      Goes σ s (.cleanupIndex id key rest) (.cleanupDropIndex key rest)
  | dropped {id' : TaskId} {key : String} {rest : List TaskId} :
      Goes σ s (.cleanupDropIndex key (id' :: rest)) (.cleanupRemove id' rest)
  | list {p : Pc} {ids : List TaskId} : Goes σ s p (.listGet ids)

theorem next_goes [F64.Fmt] [Sha256] {σ : Sharding} {s : TaskStore} {p p' : Pc}
    (h : (p.next σ s).2 = some p') : Goes σ s p p' := by
  cases p with
  | createLoad c =>
    simp only [Pc.next] at h
    split at h
    · cases h
    · rename_i hroom
      cases h
      exact .load (Nat.lt_of_not_le hroom)
  | createCas c current =>
    simp only [Pc.next] at h
    split at h
    · rename_i hcur
      cases h
      rw [← hcur]
      exact .swap
    · cases h
      exact .retry
  | createAdd c =>
    simp only [Pc.next] at h
    split at h
    · cases h
      exact .refused
    · rename_i hslot
      split at h
      · cases h
        exact .refused
      · rename_i task htask
        cases h
        exact .built (Nat.lt_of_not_le hslot) htask
  | createLoadBytes c task =>
    simp only [Pc.next] at h
    split at h
    · cases h
      exact .tooLarge
    · rename_i hfits
      cases h
      exact .fits (Nat.le_of_not_lt hfits)
  | createReturn c => cases h
  | entryGet u rest =>
    simp only [Pc.next] at h
    split at h
    · obtain ⟨u, us, _, rfl⟩ := Pc.entryLoop_some h
      exact .entryLoop
    · cases h
      exact .getMut
  | entryBody u rest =>
    simp only [Pc.next] at h
    split at h
    · obtain ⟨u, us, _, rfl⟩ := Pc.entryLoop_some h
      exact .entryLoop
    · rename_i e he
      split at h
      · obtain ⟨u, us, _, rfl⟩ := Pc.entryLoop_some h
        exact .entryLoop
      · rename_i task hbody
        split at h
        · rename_i hcond
          rw [Bool.and_eq_true, Bool.not_eq_true'] at hcond
          cases h
          exact .close he hbody hcond.1 hcond.2
        · obtain ⟨u, us, _, rfl⟩ := Pc.entryLoop_some h
          exact .entryLoop
  | entryGetCounter u rest key =>
    simp only [Pc.next] at h
    split at h
    · cases h
      exact .noCounter
    · cases h
      exact .counter
  | entrySubPrincipal u rest key =>
    simp only [Pc.next] at h
    split at h
    · cases h
      exact .subLast
    · cases h
      exact .subPrincipal
  | entryNotify u rest =>
    simp only [Pc.next] at h
    split at h
    all_goals
      obtain ⟨u, us, _, rfl⟩ := Pc.entryLoop_some h
      exact .entryLoop
  | scanShard scan i found =>
    simp only [Pc.next, Option.some.injEq] at h
    rcases Pc.scanLoop_cases σ scan (i + 1) (found ++ Pc.scanShardIds σ s scan i) with hl | hl
    · rw [← h, hl]
      exact .scanShard
    · rw [← h, hl]
      exact .scanEnd
  | scanEnd scan found =>
    rcases Pc.scanned_some h with ⟨u, us, rfl⟩ | ⟨now, id, ids, rfl, rfl, rfl⟩
    · exact .entryLoop
    · exact .cleanup
  | cleanupRemove id rest =>
    simp only [Pc.next] at h
    split at h
    · obtain ⟨id', ids, rfl, rfl⟩ := Pc.cleanupLoop_some h
      exact .gone
    · cases h
      exact .removed
  | cleanupIndex id key rest =>
    simp only [Pc.next] at h
    split at h
    · obtain ⟨id', ids, rfl, rfl⟩ := Pc.cleanupLoop_some h
      exact .indexed
    · split at h
      · cases h
        exact .emptied
      · obtain ⟨id', ids, rfl, rfl⟩ := Pc.cleanupLoop_some h
        exact .indexed
  | cleanupDropIndex key rest =>
    simp only [Pc.next] at h
    split at h
    all_goals
      obtain ⟨id', ids, rfl, rfl⟩ := Pc.cleanupLoop_some h
      exact .dropped
  | listIds principal =>
    simp only [Pc.next] at h
    split at h
    · cases h
    · rw [Pc.listLoop_some h]
      exact .list
  | listGet ids =>
    rw [Pc.listLoop_some h]
    exact .list
  | _ =>
    cases h
    constructor

/-! ### What a step does to the task table -/

/-- The task table after a step of a call: as it was, one entry rewritten, a new task, or a removed one. -/
inductive TaskMove [F64.Fmt] (s : TaskStore) : Pc → Table TaskId TaskEntry → Prop
  | same {p : Pc} : TaskMove s p s.tasks
  | rewrite {p : Pc} {id : TaskId} {e e' : TaskEntry} :
      s.tasks.lookup id = some e → SameOrigin e.task e'.task → e'.estimatedBytes = e.estimatedBytes →
      (e.task.status.isTerminal = true → e'.task.status.isTerminal = true) →
      (e.terminalAt.isSome = e.task.status.isTerminal → e'.terminalAt.isSome = e'.task.status.isTerminal) →
      TaskMove s p (s.tasks.insert id e')
  | insert {c : CreateArgs} {task : Task} :
      TaskMove s (.createInsert c task) (s.tasks.insert c.id
        { task, terminalAt := none, notifications := 0, estimatedBytes := TaskStore.estimateBytes task })
  | remove {id : TaskId} {rest : List TaskId} : TaskMove s (.cleanupRemove id rest) (s.tasks.erase id)

theorem TaskStep.terminal {auto : ApprovalRecord → Prop} {t t' : Task} (h : TaskStep auto t t')
    (hterm : t.status.isTerminal = true) : t'.status = t.status := by
  rcases h.status with hsame | hcan
  · exact hsame
  · rw [TaskStatus.canTransitionTo_not_terminal hcan] at hterm
    cases hterm

section

variable [F64.Fmt] [Sha256]

theorem next_taskMove (σ : Sharding) (s : TaskStore) (p : Pc) : TaskMove s p (p.next σ s).1.tasks := by
  cases p with
  | createInsert c task => exact .insert
  | cleanupRemove id rest =>
    simp only [Pc.next]
    split
    · exact .same
    · exact .remove
  | entryBody u rest =>
    simp only [Pc.next]
    split
    · exact .same
    · rename_i e he
      split
      · exact .same
      · rename_i t' hbody
        have hstep := EntryCall.body_taskStep hbody
        split
        · rename_i hcond
          rw [Bool.and_eq_true] at hcond
          exact .rewrite he hstep.sameOrigin rfl (fun _ => hcond.2) fun _ => hcond.2.symm
        · rename_i hcond
          have hsame : t'.status.isTerminal = e.task.status.isTerminal := by
            cases hterm : e.task.status.isTerminal with
            | true => rw [hstep.terminal hterm, hterm]
            | false => simpa [hterm] using hcond
          exact .rewrite he hstep.sameOrigin rfl (fun h => hsame.trans h) fun h => h.trans hsame.symm
  | entryNotify u rest =>
    simp only [Pc.next]
    split
    · exact .same
    · rename_i e he
      exact .rewrite he (SameOrigin.refl _) rfl id id
  | createEntry c =>
    simp only [Pc.next, TaskStore.principalEntry_tasks]
    exact .same
  | entryRemove u rest key =>
    simp only [Pc.next, TaskStore.removePrincipalIfZero_tasks]
    exact .same
  | createLoad | createCas | createAdd | createLoadBytes | createIndex | entryGet | entryGetCounter
  | entrySubPrincipal | cleanupIndex | cleanupDropIndex | listIds =>
    simp only [Pc.next]
    repeat' split
    all_goals exact .same
  | createAddBytes | createUndoPrincipal | createUndoCount | createReturn | entrySubCount | entrySubBytes
  | scanShard | scanEnd | listGet => exact .same

theorem next_config (σ : Sharding) (s : TaskStore) (p : Pc) : (p.next σ s).1.config = s.config := by
  cases p with
  | createEntry c => exact TaskStore.principalEntry_config s c.key
  | entryRemove u rest key => exact TaskStore.removePrincipalIfZero_config s key
  | _ =>
    simp only [Pc.next]
    repeat' split
    all_goals rfl

end

/-! ### Concrete runs -/

/-- One shard for the tasks and the index; the principals of the runs below lie in different shards. -/
def Sample.sharding : Sharding where
  count := 1
  tasks _ := 0
  principals key := key.length
  index _ := 0
  tasks_lt _ := Nat.one_pos

def Sample.createArgs (id : TaskId) (appName : String) : CreateArgs where
  id := id
  now := 0
  originalRequest := request
  preApprovalTransformed := request
  principal := { appName }
  ttl := none
  onTimeout := .deny

end ThoughtGate
