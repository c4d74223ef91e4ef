import ThoughtGate.Gate.Evaluator

/-!
# The governance service

The two endpoints of `governance/service.rs` that a shim asks after an approval was opened: how the task stands
(`task_status_handler`) and whether the policies still permit it (`revalidate_handler`). An answer is a body or the
code of an HTTP error.
-/

namespace ThoughtGate

/-- `ApprovalOutcome`. -/
inductive ApprovalOutcome where
  | approved
  | rejected
  | expired
  | cancelled
deriving DecidableEq

/-- `TaskStatusResponse`. -/
structure TaskStatusResponse where
  taskId : String
  status : TaskStatus
  decision : Option ApprovalOutcome
  reason : Option String
deriving DecidableEq

/-- `RevalidateResponse`. -/
structure RevalidateResponse where
  allowed : Bool
  driftDetected : Bool
  reason : Option String
deriving DecidableEq

/-- `GovernanceServiceState`, without the shims it has heard of. -/
structure GovernanceServiceState [Glob] [Cedar] where
  evaluator : Option Evaluator
  taskStore : Option TaskStore

/-- `StatusCode::NOT_FOUND`. -/
def notFound : Nat := 404

/-- The decision and the reason that a shim is told about a task. -/
def approvalOutcome (task : Task) : Option ApprovalOutcome × Option String :=
  match task.approval with
  | some approval =>
    match approval.decision with
    | .approved => (some .approved, none)
    | .rejected reason => (some .rejected, reason)
  | none =>
    match task.status with
    | .expired => (some .expired, none)
    | .cancelled => (some .cancelled, none)
    | _ => (none, none)

/-- `check_policy_drift`: the question of `reevaluate_policy`, put without the approval. -/
def checkPolicyDrift (policy : PolicyRequest → Except String PolicyAction) (request : ToolCallRequest)
    (principal : Principal) : Except String Unit :=
  match policy (Pipeline.buildPolicyRequest request principal none) with
  | .error e => .error ("Policy re-evaluation task failed: " ++ e)
  | .ok .forward => .ok ()
  | .ok (.approve _) => .ok ()
  | .ok (.reject reason) => .error reason

namespace GovernanceServiceState

variable [Glob] [Cedar]

/-- `task_status_handler`. -/
def taskStatusHandler (state : GovernanceServiceState) (taskId : TaskId) : Except Nat TaskStatusResponse :=
  match state.taskStore with
  | none => .error notFound
  | some store =>
    match store.get taskId with
    | .error _ => .error notFound
    | .ok task =>
      let (decision, reason) := approvalOutcome task
      .ok { taskId, status := task.status, decision, reason }

/-- `revalidate_handler`; `run` is the blocking thread that evaluates the policies. -/
def revalidateHandler (state : GovernanceServiceState)
    (run : CedarEngine → PolicyRequest → Except String PolicyAction) (taskId : TaskId) :
    Except Nat RevalidateResponse :=
  match state.taskStore, state.evaluator with
  | some store, some evaluator =>
    match store.get taskId with
    | .error _ => .error notFound
    | .ok task =>
      match evaluator.cedarEngine with
      | none => .ok { allowed := true, driftDetected := false, reason := none }
      | some engine =>
        match checkPolicyDrift (run engine) task.preApprovalTransformed task.principal with
        | .ok () => .ok { allowed := true, driftDetected := false, reason := none }
        | .error reason => .ok { allowed := false, driftDetected := true, reason := some reason }
  | _, _ => .error notFound

theorem taskStatusHandler_stored {evaluator : Option Evaluator} {store : TaskStore} {id : TaskId} {e : TaskEntry}
    (he : store.tasks.lookup id = some e) :
    taskStatusHandler ⟨evaluator, some store⟩ id =
      .ok ⟨id, e.task.status, (approvalOutcome e.task).1, (approvalOutcome e.task).2⟩ := by
  simp only [taskStatusHandler, TaskStore.get, he]

/-- A stored task is revalidated: there is nothing to ask, or the policies permit it without the approval. -/
theorem revalidateHandler_stored (evaluator : Evaluator) {store : TaskStore} {id : TaskId} {e : TaskEntry}
    (he : store.tasks.lookup id = some e) :
    ∃ response, revalidateHandler ⟨some evaluator, some store⟩ (fun engine request => .ok (engine.evaluate request))
        id = .ok response ∧
      (response.allowed = true ↔ ∀ engine ∈ evaluator.cedarEngine,
        (engine.evaluate (Pipeline.buildPolicyRequest e.task.preApprovalTransformed e.task.principal none)).isReject =
          false) := by
  simp only [revalidateHandler, TaskStore.get, he]
  cases evaluator.cedarEngine with
  | none => exact ⟨_, rfl, by simp⟩
  | some engine =>
    simp only [checkPolicyDrift]
    cases haction : engine.evaluate
        (Pipeline.buildPolicyRequest e.task.preApprovalTransformed e.task.principal none) with
    | forward => exact ⟨_, rfl, by simp [haction, PolicyAction.isReject]⟩
    | approve timeout => exact ⟨_, rfl, by simp [haction, PolicyAction.isReject]⟩
    | reject reason => exact ⟨_, rfl, by simp [haction, PolicyAction.isReject]⟩

end GovernanceServiceState

end ThoughtGate
