import ThoughtGate.Base.Json
import ThoughtGate.Base.Time

/-!
# Tasks

The task domain of `governance/task/{types,status,error,helpers}.rs`: the status machine, principals, requests,
approval and failure records, the `Task` itself with its two transition operations, and the request hash.

SHA-256 (`sha2`) is a function of the caller's choice (`Sha256`), and a new task takes its identifier
(`TaskId::new`, a random UUID) and the time as arguments.
-/

namespace ThoughtGate

/-- `TaskStatus`. -/
inductive TaskStatus where
  | working
  | inputRequired
  | executing
  | completed
  | failed
  | rejected
  | cancelled
  | expired
deriving DecidableEq

namespace TaskStatus

def isTerminal : TaskStatus → Bool
  | .completed | .failed | .rejected | .cancelled | .expired => true
  | _ => false

def canTransitionTo : TaskStatus → TaskStatus → Bool
  | .working, .inputRequired | .working, .failed | .working, .expired => true
  | .inputRequired, .executing | .inputRequired, .rejected | .inputRequired, .cancelled
  | .inputRequired, .expired => true
  | .executing, .completed | .executing, .failed => true
  | _, _ => false

/-- `impl Display for TaskStatus`. -/
def display : TaskStatus → String
  | .working => "working"
  | .inputRequired => "input_required"
  | .executing => "executing"
  | .completed => "completed"
  | .failed => "failed"
  | .rejected => "rejected"
  | .cancelled => "cancelled"
  | .expired => "expired"

theorem canTransitionTo_not_terminal {a b : TaskStatus} (h : a.canTransitionTo b = true) :
    a.isTerminal = false := by
  cases a <;> cases b <;> first | rfl | cases h

end TaskStatus

/-- `Sep1686TaskId`: the raw text `tg_…`. -/
abbrev TaskId := String

/-- `governance::task::Principal`. -/
structure Principal where
  appName : String
  userId : Option String := none
  sessionId : Option String := none
  nameSpace : String := "default"
  serviceAccount : String := "default"
  roles : List String := []
deriving DecidableEq

/-- `Principal::rate_limit_key`. -/
def Principal.rateLimitKey (p : Principal) : String :=
  match p.userId, p.sessionId with
  | some user, some session => p.appName ++ ":" ++ user ++ ":" ++ session
  | some user, none => p.appName ++ ":" ++ user
  | none, some session => p.appName ++ "::" ++ session
  | none, none => p.appName

/-- `JsonRpcId`. -/
inductive JsonRpcId where
  | number (n : Int)
  | string (s : String)
  | null
deriving DecidableEq

/-- `ToolCallRequest`: any governed MCP request. -/
structure ToolCallRequest where
  method : String
  name : String
  arguments : Value
  mcpRequestId : JsonRpcId

/-- `ToolCallResult`. -/
structure ToolCallResult where
  content : Value
  isError : Bool

/-- `ApprovalDecision`. -/
inductive ApprovalDecision where
  | approved
  | rejected (reason : Option String)
deriving DecidableEq

/-- `ApprovalRecord`. -/
structure ApprovalRecord where
  decision : ApprovalDecision
  decidedBy : String
  decidedAt : DateTime
  approvalValidUntil : DateTime
  metadata : Option Value

/-- `FailureStage`. -/
inductive FailureStage where
  | preHitlInspection
  | approvalTimeout
  | approvalRejected
  | policyDrift
  | postHitlInspection
  | transformDrift
  | upstreamError
  | serviceShutdown
  | invalidTaskState
deriving DecidableEq

/-- `FailureInfo`. -/
structure FailureInfo where
  stage : FailureStage
  reason : String
  retriable : Bool
deriving DecidableEq

/-- `TaskTransition`, one line of the audit trail. -/
structure TaskTransition where
  source : TaskStatus
  target : TaskStatus
  time : DateTime
  reason : Option String
deriving DecidableEq

/-- `config::TimeoutAction`; the default is `Deny`. -/
inductive TimeoutAction where
  | deny
  | approve
deriving DecidableEq

/-- `TaskError`. The variant `Expired` is not produced by the store. -/
inductive TaskError where
  | notFound (taskId : TaskId)
  | alreadyTerminal (taskId : TaskId) (status : TaskStatus)
  | invalidTransition (taskId : TaskId) (source target : TaskStatus)
  | concurrentModification (taskId : TaskId) (expected actual : TaskStatus)
  | rateLimited (principal : String) (retryAfter : Duration)
  | capacityExceeded
  | resultNotReady (taskId : TaskId)
  | internal (details : String)
deriving DecidableEq

/-- `impl Display for TaskError`; the only retry delay in use is 60 seconds, whose debug text is `60s`. -/
def TaskError.display : TaskError → String
  | .notFound id => "Task '" ++ id ++ "' not found"
  | .alreadyTerminal id status =>
    "Task '" ++ id ++ "' is already in terminal state '" ++ status.display ++ "'"
  | .invalidTransition id source target =>
    "Invalid transition for task '" ++ id ++ "': " ++ source.display ++ " -> " ++ target.display
  | .concurrentModification id expected actual =>
    "Concurrent modification of task '" ++ id ++ "': expected " ++ expected.display ++ ", found " ++
      actual.display
  | .rateLimited principal retryAfter =>
    "Rate limit exceeded for principal '" ++ principal ++ "', retry after " ++
      toString (Duration.asSecs retryAfter) ++ "s"
  | .capacityExceeded => "Global task capacity exceeded"
  | .resultNotReady id => "Result not ready for task '" ++ id ++ "'"
  | .internal details => "Internal error: " ++ details

/-- The lower-case hexadecimal SHA-256 of a text's UTF-8 bytes (`sha2`). -/
class Sha256 where
  hex : String → String

/-- `hash_request`: the digest of method, name and canonical arguments, one after the other. -/
def hashRequest [F64.Fmt] [Sha256] (request : ToolCallRequest) : Except String String := do
  let args ← request.arguments.canonicalJson
  .ok (Sha256.hex (request.method ++ request.name ++ args))

/-- `compute_poll_interval`. -/
def computePollInterval (remainingTtl : Duration) : Duration :=
  let secs := Duration.asSecs remainingTtl
  if secs ≤ 60 then Duration.fromSecs 2
  else if secs ≤ 300 then Duration.fromSecs 5
  else if secs ≤ 900 then Duration.fromSecs 10
  else Duration.fromSecs 30

/-- `Task`; the field `status_message`, which nothing reads or writes, is left out. -/
structure Task where
  id : TaskId
  originalRequest : ToolCallRequest
  preApprovalTransformed : ToolCallRequest
  requestHash : String
  principal : Principal
  createdAt : DateTime
  ttl : Duration
  expiresAt : DateTime
  pollInterval : Duration
  status : TaskStatus
  transitions : List TaskTransition
  approval : Option ApprovalRecord
  result : Option ToolCallResult
  failure : Option FailureInfo
  onTimeout : TimeoutAction

namespace Task

/-- `Task::new`. -/
def new [F64.Fmt] [Sha256] (id : TaskId) (now : DateTime) (originalRequest preApprovalTransformed : ToolCallRequest)
    (principal : Principal) (ttl : Duration) (onTimeout : TimeoutAction) : Except String Task := do
  let chronoTtl := ttl.toChrono.getD (Duration.chronoDays 30)
  let requestHash ← hashRequest preApprovalTransformed
  .ok {
    id, originalRequest, preApprovalTransformed, requestHash, principal
    createdAt := now
    ttl
    expiresAt := now + chronoTtl
    pollInterval := computePollInterval ttl
    status := .working
    transitions := []
    approval := none
    result := none
    failure := none
    onTimeout }

/-- `Task::is_expired`. -/
def isExpired (t : Task) (now : DateTime) : Bool := decide (t.expiresAt < now)

/-- `Task::remaining_ttl`. -/
def remainingTtl (t : Task) (now : DateTime) : Duration :=
  if t.expiresAt ≤ now then 0 else (t.expiresAt - now).toNat

/-- `Task::transition`: an error leaves the task as it was. -/
def transition (t : Task) (now : DateTime) (newStatus : TaskStatus) (reason : Option String) :
    Except TaskError Task :=
  if t.status.isTerminal then .error (.alreadyTerminal t.id t.status)
  else if !t.status.canTransitionTo newStatus then .error (.invalidTransition t.id t.status newStatus)
  else .ok { t with
    transitions := t.transitions ++ [⟨t.status, newStatus, now, reason⟩]
    status := newStatus
    pollInterval := computePollInterval (t.remainingTtl now) }

/-- `Task::transition_if`. -/
def transitionIf (t : Task) (now : DateTime) (expected newStatus : TaskStatus) (reason : Option String) :
    Except TaskError Task :=
  if t.status ≠ expected then .error (.concurrentModification t.id expected t.status)
  else t.transition now newStatus reason

/-- A new task works on what it was given and has no history. -/
theorem new_ok [F64.Fmt] [Sha256] {id : TaskId} {now : DateTime} {orig pre : ToolCallRequest}
    {principal : Principal} {ttl : Duration} {onTimeout : TimeoutAction} {t : Task}
    (h : Task.new id now orig pre principal ttl onTimeout = .ok t) :
    t.id = id ∧ t.principal = principal ∧ t.status = .working ∧ t.transitions = [] ∧ t.approval = none ∧
      t.result = none ∧ t.failure = none := by
  unfold Task.new at h
  cases hhash : hashRequest pre with
  | error e =>
    rw [hhash] at h
    cases h
  | ok hash =>
    rw [hhash] at h
    cases h
    exact ⟨rfl, rfl, rfl, rfl, rfl, rfl, rfl⟩

theorem new_originalRequest [F64.Fmt] [Sha256] {id : TaskId} {now : DateTime} {orig pre : ToolCallRequest}
    {principal : Principal} {ttl : Duration} {onTimeout : TimeoutAction} {t : Task}
    (h : Task.new id now orig pre principal ttl onTimeout = .ok t) : t.originalRequest = orig := by
  unfold Task.new at h
  cases hhash : hashRequest pre with
  | error e =>
    rw [hhash] at h
    cases h
  | ok hash =>
    rw [hhash] at h
    cases h
    rfl

/-! ### What a transition does -/

/-- A successful transition follows an edge of the status machine and changes nothing but the status, the
audit trail and the poll interval. -/
theorem transition_ok {t t' : Task} {now : DateTime} {newStatus : TaskStatus} {reason : Option String}
    (h : t.transition now newStatus reason = .ok t') :
    t.status.canTransitionTo newStatus = true ∧
      t' = { t with
        transitions := t.transitions ++ [⟨t.status, newStatus, now, reason⟩]
        status := newStatus
        pollInterval := computePollInterval (t.remainingTtl now) } := by
  unfold transition at h
  split at h
  · cases h
  · split at h
    · cases h
    · rename_i hcan
      refine ⟨by simpa using hcan, ?_⟩
      cases h
      rfl

theorem transition_of_can {t : Task} (now : DateTime) {newStatus : TaskStatus} (reason : Option String)
    (h : t.status.canTransitionTo newStatus = true) :
    ∃ t', t.transition now newStatus reason = .ok t' := by
  rw [transition, if_neg (by simp [TaskStatus.canTransitionTo_not_terminal h]), if_neg (by simp [h])]
  exact ⟨_, rfl⟩

theorem transitionIf_ok {t t' : Task} {now : DateTime} {expected newStatus : TaskStatus}
    {reason : Option String} (h : t.transitionIf now expected newStatus reason = .ok t') :
    t.status = expected ∧ t.transition now newStatus reason = .ok t' := by
  unfold transitionIf at h
  split at h
  · cases h
  · rename_i hst
    exact ⟨not_not.mp hst, h⟩

end Task

end ThoughtGate
