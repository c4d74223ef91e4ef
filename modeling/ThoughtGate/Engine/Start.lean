import ThoughtGate.Engine.Engine
import ThoughtGate.Approval.Types

/-!
# Starting an approval

`start_approval` of `governance/engine.rs` and the phase of the pipeline before it (`pre_approval_amber`). The scheduler
answers as it pleases: what `submit` returns is an input.
-/

namespace ThoughtGate

/-- The errors of `ApprovalEngineError` that occur here. -/
inductive ApprovalEngineError where
  | taskCreation (details : String)
  | postFailed (details : String)
  | internal (details : String)
deriving DecidableEq

def ApprovalEngineError.display : ApprovalEngineError → String
  | .taskCreation details => "Task creation failed: " ++ details
  | .postFailed details => "Approval post failed: " ++ details
  | .internal details => "Internal error: " ++ details

structure ApprovalStartResult where
  taskId : TaskId
  status : TaskStatus
  pollInterval : Duration
deriving DecidableEq

/-- What the start of an approval takes from outside: the new id, the clock at the creation of the task and at its
moves, the inspectors and the scheduler's answer (the text of its error). -/
structure StartEnv where
  id : TaskId
  correlationId : String
  created : DateTime
  moved : DateTime
  failed : DateTime
  inspect : Nat → String → String → InspectorReply
  submit : ApprovalRequest → Except String Unit

structure PreHitlResult where
  transformedRequest : ToolCallRequest
  requestHash : String

variable [F64.Fmt] [Sha256] [PipelineLib]

/-- `pre_approval_amber`. -/
def Pipeline.preApprovalAmber (p : Pipeline) (inspect : Nat → String → String → InspectorReply)
    (request : ToolCallRequest) : Except PipelineError PreHitlResult := do
  let transformed ← p.runInspectorChain inspect request
  match hashRequest transformed with
  | .error e => .error (.internalError ("Failed to hash request: " ++ e))
  | .ok requestHash => .ok ⟨transformed, requestHash⟩

/-- `start_approval`. -/
def Engine.startApproval (g : Engine) (env : StartEnv) (store : TaskStore) (request : ToolCallRequest)
    (principal : Principal) (workflowTimeout : Option Duration) (onTimeoutOverride : Option TimeoutAction)
    (redactFields : List String) : Except ApprovalEngineError ApprovalStartResult × TaskStore :=
  match g.pipeline.preApprovalAmber env.inspect request with
  | .error e => (.error (.internal ("Pre-approval phase failed: " ++ e.display)), store)
  | .ok pre =>
    match store.create env.id env.created request pre.transformedRequest principal
        (some (workflowTimeout.getD g.approvalTimeout)) (onTimeoutOverride.getD g.onTimeout) with
    | (.error e, store) => (.error (.taskCreation e.display), store)
    | (.ok task, store) =>
      match store.transition env.moved task.id .inputRequired none with
      | (.error e, store) => (.error (.internal ("Failed to transition task: " ++ e.display)), store)
      | (.ok _, store) =>
        match env.submit ⟨task.id, request.name, request.arguments, principal, task.expiresAt, task.createdAt,
            env.correlationId, redactFields⟩ with
        | .error e => (.error (.postFailed e), store)
        | .ok () => (.ok ⟨task.id, .inputRequired, task.pollInterval⟩, store)

end ThoughtGate
