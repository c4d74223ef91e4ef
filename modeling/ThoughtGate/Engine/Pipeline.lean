import ThoughtGate.Base.Error
import ThoughtGate.Policy.Types
import ThoughtGate.Task.Types

/-!
# The execution pipeline

`governance/pipeline.rs`: what happens to an approved task before and while it is sent upstream. The clock, the
policy engine, the inspectors and the upstream server answer as they please: their answers are inputs
(`PipelineEnv`, `UpstreamReply`), and the phases are functions of them.

The reply of an inspector is parsed by `serde_json`, and the path of its request by `http`: two functions of the
caller's choice (`PipelineLib`).
-/

namespace ThoughtGate

class PipelineLib where
  /-- The member `name` and `arguments` of a JSON text, or the parser's complaint. -/
  partialRequest : String → Except String (String × Value)
  /-- Why a text is not a URI. -/
  uriError : String → Option String

inductive TransformDriftMode where
  | strict
  | permissive
deriving DecidableEq

/-- `PipelineConfig`; the field `approval_validity` is read by nothing. -/
structure PipelineConfig where
  executionTimeout : Duration := Duration.fromSecs 30
  inspectorTimeout : Duration := Duration.fromSecs 30
  transformDriftMode : TransformDriftMode := .strict

/-- What an inspector comes to. -/
inductive InspectorReply where
  | timedOut
  | failed (error : String)
  | approve
  | modify (bytes : String)
  | reject (status : String)

inductive PipelineError where
  | inspectionRejected (inspector reason : String)
  | internalError (details : String)
  | inspectorTimeout (inspector : String) (timeoutSecs : Nat)
  | serializationError (details : String)
deriving DecidableEq

def PipelineError.display : PipelineError → String
  | .inspectionRejected inspector reason => "Inspector '" ++ inspector ++ "' rejected: " ++ reason
  | .internalError details => "Internal pipeline error: " ++ details
  | .inspectorTimeout inspector secs => "Inspector '" ++ inspector ++ "' timed out after " ++ toString secs ++ "s"
  | .serializationError details => "Serialization error: " ++ details

/-- `PipelineResult`. -/
inductive PipelineResult where
  | success (result : ToolCallResult)
  | failure (info : FailureInfo)

/-- `ApprovalPipeline`: its configuration and the names of its inspectors. -/
structure Pipeline where
  config : PipelineConfig
  inspectors : List String

/-- The answers of one run: the reading of the clock, the policy engine (or why its thread failed), and the
inspectors, by position, bytes and path. -/
structure PipelineEnv where
  now : DateTime
  policy : PolicyRequest → Except String PolicyAction
  inspect : Nat → String → String → InspectorReply

/-- What comes back from upstream; a response carries a result, an error, both or neither. -/
inductive UpstreamReply where
  | response (result : Option Value) (error : Option (Int × String))
  | failed (error : ThoughtGateError)
  | timedOut

namespace Pipeline

/-- `validate_approval`. -/
def validateApproval (now : DateTime) (task : Task) (approval : ApprovalRecord) : Except FailureInfo Unit :=
  if approval.approvalValidUntil < now then .error ⟨.approvalTimeout, "Approval has expired", false⟩
  else if task.status ≠ .executing then
    .error ⟨.invalidTaskState, "Task in invalid state: " ++ task.status.display, false⟩
  else .ok ()

/-- `build_policy_request`. -/
def buildPolicyRequest (request : ToolCallRequest) (principal : Principal) (approvalGrant : Option ApprovalGrant) :
    PolicyRequest where
  principal := {
    appName := principal.appName
    nameSpace := principal.nameSpace
    serviceAccount := principal.serviceAccount
    roles := principal.roles }
  resource := .toolCall request.name "default"
  context := approvalGrant.map fun g => ⟨some g⟩

/-- `DateTime::timestamp`. -/
def timestamp (t : DateTime) : Int := t / 1000000000

/-- The question that `reevaluate_policy` puts to the policy engine. -/
def reevaluationRequest (task : Task) (approval : ApprovalRecord) : PolicyRequest :=
  buildPolicyRequest task.preApprovalTransformed task.principal
    (some ⟨task.id, approval.decidedBy, timestamp approval.decidedAt⟩)

/-- `reevaluate_policy`. -/
def reevaluatePolicy (policy : PolicyRequest → Except String PolicyAction) (task : Task)
    (approval : ApprovalRecord) : Except FailureInfo Unit :=
  match policy (reevaluationRequest task approval) with
  | .error e => .error ⟨.policyDrift, "Policy re-evaluation task failed: " ++ e, false⟩
  | .ok .forward => .ok ()
  | .ok (.approve _) => .ok ()
  | .ok (.reject _) => .error ⟨.policyDrift, "Policy changed - request no longer permitted", false⟩

variable [F64.Fmt] [PipelineLib]

/-- The bytes an inspector is shown. -/
def inspectedBytes (request : ToolCallRequest) : String :=
  (Value.object [("name", .string request.name), ("arguments", request.arguments)]).toJson

/-- One round of `run_inspector_chain`. -/
def runInspector (p : Pipeline) (inspect : Nat → String → String → InspectorReply) (i : Nat) (name : String)
    (current : ToolCallRequest) : Except PipelineError ToolCallRequest :=
  let uri := "/" ++ current.method
  match PipelineLib.uriError uri with
  | some e => .error (.internalError e)
  | none =>
    match inspect i (inspectedBytes current) uri with
    | .timedOut => .error (.inspectorTimeout name p.config.inspectorTimeout.asSecs)
    | .failed e => .error (.internalError ("Inspector '" ++ name ++ "' error: " ++ e))
    | .approve => .ok current
    | .modify bytes =>
      match PipelineLib.partialRequest bytes with
      | .error e => .error (.serializationError ("Inspector '" ++ name ++ "' returned invalid JSON: " ++ e))
      | .ok (toolName, arguments) => .ok { current with name := toolName, arguments }
    | .reject status => .error (.inspectionRejected name ("Rejected with status " ++ status))

/-- The loop of `run_inspector_chain` from the `i`-th inspector on. -/
def runInspectorsFrom (p : Pipeline) (inspect : Nat → String → String → InspectorReply) :
    Nat → List String → ToolCallRequest → Except PipelineError ToolCallRequest
  | _, [], current => .ok current
  | i, name :: names, current => do
    let current ← p.runInspector inspect i name current
    runInspectorsFrom p inspect (i + 1) names current

/-- `run_inspector_chain`. -/
def runInspectorChain (p : Pipeline) (inspect : Nat → String → String → InspectorReply)
    (request : ToolCallRequest) : Except PipelineError ToolCallRequest :=
  p.runInspectorsFrom inspect 0 p.inspectors request

variable [Sha256]

/-- `post_approval_amber`. -/
def postApprovalAmber (p : Pipeline) (inspect : Nat → String → String → InspectorReply) (task : Task) :
    Except FailureInfo ToolCallRequest :=
  match p.runInspectorChain inspect task.originalRequest with
  | .error (.inspectionRejected inspector reason) =>
    .error ⟨.postHitlInspection, "Inspector '" ++ inspector ++ "' rejected: " ++ reason, false⟩
  | .error e => .error ⟨.postHitlInspection, e.display, true⟩
  | .ok transformed =>
    match hashRequest transformed with
    | .error e => .error ⟨.transformDrift, "Failed to hash transformed request: " ++ e, false⟩
    | .ok newHash =>
      if newHash ≠ task.requestHash then
        match p.config.transformDriftMode with
        | .strict => .error ⟨.transformDrift, "Request transformed differently than at approval time", false⟩
        | .permissive => .ok task.preApprovalTransformed
      else .ok transformed

/-- The phases of `execute_approved` before the request is sent. -/
def prepare (p : Pipeline) (env : PipelineEnv) (task : Task) (approval : ApprovalRecord) :
    Except FailureInfo ToolCallRequest := do
  validateApproval env.now task approval
  reevaluatePolicy env.policy task approval
  p.postApprovalAmber env.inspect task

omit [F64.Fmt] [PipelineLib] [Sha256]

/-- `classify_upstream_error`. -/
def classifyUpstreamError : ThoughtGateError → Bool × String
  | .upstreamTimeout .. => (true, "Upstream timed out")
  | .upstreamConnectionFailed _ reason => (true, "Connection failed: " ++ reason)
  | .upstreamError _ message => (false, message)
  | e => (false, e.display)

/-- `is_retriable_error`. -/
def isRetriableError (code : Int) : Bool := code == -32000 || code == -32001 || code == -32013

/-- The method-specific `params` of `to_mcp_request`. -/
def mcpParams (request : ToolCallRequest) : Value :=
  let full := Value.object [("name", .string request.name), ("arguments", request.arguments)]
  if request.method = "tools/call" then full
  else if request.method = "resources/read" ∨ request.method = "resources/subscribe" then
    .object [("uri", .string request.name)]
  else if request.method = "prompts/get" ∧ (request.arguments.isNull || request.arguments.isEmptyObject) then
    .object [("name", .string request.name)]
  else full

/-- `to_mcp_request`: the id (none for `Null`), the method and the parameters. -/
def toMcpRequest (request : ToolCallRequest) : Option JsonRpcId × String × Value :=
  let id := match request.mcpRequestId with
    | .null => none
    | id => some id
  (id, request.method, mcpParams request)

/-- What `forward_to_upstream` makes of the reply. -/
def forwardToUpstream : UpstreamReply → PipelineResult
  | .response _ (some (code, message)) => .failure ⟨.upstreamError, message, isRetriableError code⟩
  | .response result none => .success ⟨result.getD .null, false⟩
  | .failed e => .failure ⟨.upstreamError, (classifyUpstreamError e).2, (classifyUpstreamError e).1⟩
  | .timedOut => .failure ⟨.upstreamError, "Upstream request timed out", true⟩

end Pipeline

/-- No inspector runs in the samples, so nothing is parsed. -/
@[reducible] def Sample.pipelineLib : PipelineLib where
  partialRequest _ := .error "unused"
  uriError _ := none

end ThoughtGate
