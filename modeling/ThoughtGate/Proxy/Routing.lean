import ThoughtGate.Config.ListFiltering
import ThoughtGate.Gate.Evaluator
import ThoughtGate.Transport.JsonRpc

/-!
# Routing in the HTTP proxy

`mcp_handler/gate_routing.rs` and `mcp_handler/capabilities.rs`: how the proxy puts a governed request to the evaluator
and what it makes of the answer, and how it filters the answer of a list method. What goes upstream is part of the
result (`Routed.sent`).

The task metadata of a request are in two places: the parser takes them out of `params.task` and leaves the member where
it is. For a server without tasks `validate_task_metadata` clears the field, and `to_jsonrpc_request` writes the
parameters: the member goes upstream all the same (`task_metadata_kept`).
-/

namespace ThoughtGate

/-- `JsonRpcResponse`; the error object is kept as its value. -/
structure JsonRpcResponse where
  id : Option JsonRpcId
  result : Option Value
  error : Option Value

namespace JsonRpcResponse

def success (id : Option JsonRpcId) (result : Value) : JsonRpcResponse := ⟨id, some result, none⟩

/-- `task_created`. -/
def taskCreated (id : Option JsonRpcId) (taskId status : String) (pollInterval : Duration)
    (statusMessage : Option String) : JsonRpcResponse :=
  success id (.object
    ([("taskId", Value.string taskId), ("status", .string status),
      ("pollInterval", .number (.posInt pollInterval.asMillis))] ++
      (statusMessage.map fun text => ("statusMessage", Value.string text)).toList))

end JsonRpcResponse

/-- `UpstreamForwarder::forward`. -/
abbrev UpstreamForwarder := McpRequest → Except ThoughtGateError JsonRpcResponse

/-- `McpState`: what routing reads. -/
structure McpState [Glob] [Cedar] where
  upstream : UpstreamForwarder
  config : Option Config
  evaluator : Option Evaluator
  approvalEngine : Option Engine
  upstreamSupportsTasks : Bool
  blockingApprovalTimeoutSecs : Nat

inductive GateResult where
  | immediate (result : Except ThoughtGateError JsonRpcResponse)
  | blockingApproval (taskId : TaskId) (resourceName : String) (requestId : Option JsonRpcId)
      (blockingTimeout pollInterval : Duration)

/-- The result of routing a request, what was sent upstream for it, and the store. -/
structure Routed where
  result : GateResult
  sent : List McpRequest
  store : TaskStore

namespace McpState

variable [Glob] [Cedar]

/-- `McpHandler::with_governance`: with a configuration there is an evaluator for it. -/
def withGovernance (upstream : UpstreamForwarder) (cedarEngine : CedarEngine) (config : Option Config)
    (approvalEngine : Option Engine) (upstreamSupportsTasks : Bool) (profile : Profile)
    (blockingApprovalTimeoutSecs : Nat) : McpState where
  upstream := upstream
  config := config
  evaluator := config.map fun config =>
    { config, cedarEngine := some cedarEngine, principal := { appName := "proxy" }, profile, hasScheduler := false
      approvalEngine }
  approvalEngine := approvalEngine
  upstreamSupportsTasks := upstreamSupportsTasks
  blockingApprovalTimeoutSecs := blockingApprovalTimeoutSecs

/-- `get_source_id`. -/
def getSourceId (_state : McpState) : String := "upstream"

/-- The proxy asks this evaluator and has loaded its configuration. -/
def Asks (state : McpState) (ev : Evaluator) : Prop := state.evaluator = some ev ∧ state.config = some ev.config

theorem withGovernance_asks (upstream : UpstreamForwarder) (cedarEngine : CedarEngine) (config : Config)
    (approvalEngine : Option Engine) (upstreamSupportsTasks : Bool) (profile : Profile)
    (blockingApprovalTimeoutSecs : Nat) :
    ∃ ev, (withGovernance upstream cedarEngine (some config) approvalEngine upstreamSupportsTasks profile
        blockingApprovalTimeoutSecs).Asks ev ∧
      ev.config = config ∧ ev.profile = profile :=
  ⟨_, ⟨rfl, rfl⟩, rfl, rfl⟩

/-! ### Governed requests -/

omit [Glob] [Cedar] in
/-- `validate_task_metadata`: whether the approval is waited for, and the request. -/
def validateTaskMetadata (request : McpRequest) (action : Action) (toolName : String)
    (upstreamSupportsTasks hasApprovalEngine : Bool) : Except ThoughtGateError (Bool × McpRequest) :=
  match action with
  | .approve | .policy =>
    if request.taskMetadata.isSome then .ok (false, request)
    else if hasApprovalEngine then .ok (true, request)
    else .error (.taskRequired toolName "Include params.task per tools/list taskSupport annotation")
  | .forward | .deny =>
    if request.taskMetadata.isSome && !upstreamSupportsTasks then .ok (false, { request with taskMetadata := none })
    else .ok (false, request)

omit [Glob] [Cedar] in
/-- The answer to a request that does not name its resource. -/
def missingName (method : String) : ThoughtGateError :=
  let field :=
    if method = "tools/call" ∨ method = "prompts/get" then "name"
    else if method = "resources/read" ∨ method = "resources/subscribe" then "uri"
    else "identifier"
  .invalidParams ("Missing required field '" ++ field ++ "' in " ++ method ++ " params")

/-- The request as it is put to the evaluator. -/
def governanceRequest (state : McpState) (request : McpRequest) : EvaluateRequest where
  serverId := state.getSourceId
  direction := .agentToServer
  method := request.method
  id := request.id
  params := request.params
  messageType := .request

/-- The error for a denial. -/
def denial (state : McpState) (resourceName : String) (resp : EvaluateResponse) : ThoughtGateError :=
  match resp.denySource with
  | some .visibility => .toolNotExposed resourceName state.getSourceId
  | some .governanceRule => .governanceRuleDenied resourceName resp.reason
  | some .cedarPolicy | none => .policyDenied resourceName resp.policyId resp.reason

/-- How long a blocking approval is waited for: what the workflow says, or else what the handler is configured with. -/
def blockingTimeout (state : McpState) (approvalWorkflow : Option String) : Duration :=
  let workflow := approvalWorkflow.bind fun name => state.config.bind fun config => config.getWorkflow name
  (workflow.map HumanWorkflow.blockingTimeoutOrDefault).getD (Duration.fromSecs state.blockingApprovalTimeoutSecs)

/-- What becomes of the decision. -/
def act (state : McpState) (request : McpRequest) (resourceName : String) (isBlockingMode : Bool)
    (approvalWorkflow : Option String) (resp : EvaluateResponse) (store : TaskStore) : Routed :=
  match resp.decision with
  | .forward => ⟨.immediate (state.upstream request), [request], store⟩
  | .deny => ⟨.immediate (.error (state.denial resourceName resp)), [], store⟩
  | .pendingApproval =>
    let taskId := resp.taskId.getD ""
    let pollInterval := resp.pollIntervalMs.getD 1000 * 1000000
    if isBlockingMode then
      if state.approvalEngine.isSome then
        ⟨.blockingApproval taskId resourceName request.id (state.blockingTimeout approvalWorkflow) pollInterval, [], store⟩
      else
        ⟨.immediate (.error (.serviceUnavailable "Approval engine not available for blocking mode")), [], store⟩
    else
      ⟨.immediate (.ok (.taskCreated request.id taskId "working" pollInterval (some "Awaiting human approval"))), [],
        store⟩

section

variable [F64.Fmt] [Sha256] [PipelineLib] [F64.Display]

/-- `route_through_gates`; the principal is the one inferred from the environment of the request, if there is one. -/
def routeThroughGates (state : McpState) (env : EvalEnv) (store : TaskStore) (principal : Option Principal)
    (request : McpRequest) : Routed :=
  match state.evaluator with
  | none => ⟨.immediate (.error (.serviceUnavailable "Evaluator not configured")), [], store⟩
  | some evaluator =>
    match state.config with
    | none => ⟨.immediate (.error (.serviceUnavailable "Configuration not loaded")), [], store⟩
    | some config =>
      match extractResourceName request.method request.params with
      | none => ⟨.immediate (.error (missingName request.method)), [], store⟩
      | some resourceName =>
        let found := config.governance.evaluate resourceName state.getSourceId
        match validateTaskMetadata request found.action resourceName state.upstreamSupportsTasks
            state.approvalEngine.isSome with
        | .error e => ⟨.immediate (.error e), [], store⟩
        | .ok (isBlockingMode, request) =>
          let (resp, store) := evaluator.evaluateWithPrincipal env store (state.governanceRequest request) principal
          state.act request resourceName isBlockingMode found.approvalWorkflow resp.1 store

end

/-! ### Lists -/

/-- `handle_list_method`. -/
def handleListMethod (state : McpState) (request : McpRequest) : Except ThoughtGateError JsonRpcResponse := do
  let response ← state.upstream request
  if response.error.isSome then .ok response
  else
    match state.config, response.result with
    | some config, some result =>
      match filterListResult config state.getSourceId state.upstreamSupportsTasks request.method result with
      | some filtered => .ok (.success response.id filtered)
      | none => .ok response
    | _, _ => .ok response

/-! ### What goes upstream -/

omit [Glob] [Cedar] in
theorem validateTaskMetadata_ok {request request' : McpRequest} {action : Action} {toolName : String}
    {upstreamSupportsTasks hasApprovalEngine isBlockingMode : Bool}
    (h : validateTaskMetadata request action toolName upstreamSupportsTasks hasApprovalEngine =
      .ok (isBlockingMode, request')) :
    request'.id = request.id ∧ request'.method = request.method ∧ request'.params = request.params := by
  unfold validateTaskMetadata at h
  cases action <;> dsimp only at h
  case forward | deny =>
    split at h <;> cases h <;> exact ⟨rfl, rfl, rfl⟩
  case approve | policy =>
    split at h
    · cases h
      exact ⟨rfl, rfl, rfl⟩
    · split at h <;> cases h
      exact ⟨rfl, rfl, rfl⟩

omit [Glob] [Cedar] in
theorem validateTaskMetadata_of_forward (request : McpRequest) (toolName : String)
    (upstreamSupportsTasks hasApprovalEngine : Bool) :
    ∃ request', validateTaskMetadata request .forward toolName upstreamSupportsTasks hasApprovalEngine =
      .ok (false, request') := by
  unfold validateTaskMetadata
  dsimp only
  split <;> exact ⟨_, rfl⟩

theorem act_sent (state : McpState) (request : McpRequest) (resourceName : String) (isBlockingMode : Bool)
    (approvalWorkflow : Option String) (resp : EvaluateResponse) (store : TaskStore) :
    (state.act request resourceName isBlockingMode approvalWorkflow resp store).sent ≠ [] ↔
      resp.decision = .forward := by
  unfold act
  cases resp.decision with
  | forward => simp
  | deny => simp
  | pendingApproval =>
    dsimp only
    split
    · split <;> simp
    · simp

section

variable [F64.Fmt] [Sha256] [PipelineLib] [F64.Display]

/-- A request is sent upstream exactly if it names its resource, its task metadata are in order and the evaluator says
`Forward` to it. -/
theorem routeThroughGates_sent_iff {state : McpState} {ev : Evaluator} (hstate : state.Asks ev) (env : EvalEnv)
    (store : TaskStore) (principal : Option Principal) (request : McpRequest) :
    (state.routeThroughGates env store principal request).sent ≠ [] ↔
      ∃ name isBlockingMode request', extractResourceName request.method request.params = some name ∧
        validateTaskMetadata request (ev.config.governance.evaluate name state.getSourceId).action name
          state.upstreamSupportsTasks state.approvalEngine.isSome = .ok (isBlockingMode, request') ∧
        Evaluator.decision (ev.evaluateWithPrincipal env store (state.governanceRequest request') principal) =
          .forward := by
  unfold routeThroughGates
  rw [hstate.1, hstate.2]
  dsimp only
  cases extractResourceName request.method request.params with
  | none => simp
  | some name =>
    dsimp only
    cases hvalid : validateTaskMetadata request (ev.config.governance.evaluate name state.getSourceId).action name
        state.upstreamSupportsTasks state.approvalEngine.isSome with
    | error e =>
      constructor
      · intro h
        exact absurd rfl h
      · rintro ⟨name', isBlockingMode, request', hname, hok, -⟩
        cases hname
        rw [hvalid] at hok
        cases hok
    | ok valid =>
      obtain ⟨isBlockingMode, request'⟩ := valid
      constructor
      · intro h
        exact ⟨name, isBlockingMode, request', rfl, hvalid, (act_sent state request' name isBlockingMode _ _ _).mp h⟩
      · rintro ⟨name', isBlockingMode', request'', hname, hok, hforward⟩
        cases hname
        rw [hvalid] at hok
        cases hok
        exact (act_sent state request' name isBlockingMode _ _ _).mpr hforward

end

/-- The question to the evaluator has the method and the name of the request. -/
theorem governanceRequest_of_valid (state : McpState) {request request' : McpRequest} {action : Action}
    {toolName name : String} {upstreamSupportsTasks hasApprovalEngine isBlockingMode : Bool}
    (hvalid : validateTaskMetadata request action toolName upstreamSupportsTasks hasApprovalEngine =
      .ok (isBlockingMode, request'))
    (hgated : methodRequiresGates request.method = true)
    (hname : extractResourceName request.method request.params = some name) :
    methodRequiresGates (state.governanceRequest request').method = true ∧
      extractResourceName (state.governanceRequest request').method (state.governanceRequest request').params =
        some name := by
  obtain ⟨-, hmethod, hparams⟩ := validateTaskMetadata_ok hvalid
  show methodRequiresGates request'.method = true ∧ extractResourceName request'.method request'.params = some name
  rw [hmethod, hparams]
  exact ⟨hgated, hname⟩

/-! ### Task metadata on their way upstream -/

/-- A governed request with `params.task` that a forward rule names, for a server that does not know tasks. -/
structure StripsTask (state : McpState) (ev : Evaluator) (request : McpRequest) : Prop where
  asks : state.Asks ev
  gated : methodRequiresGates request.method = true
  rule : ∃ name, extractResourceName request.method request.params = some name ∧
    (ev.config.governance.evaluate name state.getSourceId).action = .forward
  noTasks : state.upstreamSupportsTasks = false
  task : ((request.params.bind (Value.get "task"))).isSome = true

/-- The request that is sent is the one that came, without `params.task`. -/
def SentWithoutTask (request : McpRequest) (sent : JsonRpcRequest) : Prop :=
  sent.id = request.id ∧ sent.method = request.method ∧
    ∃ params sentParams, request.params = some params ∧ sent.params = some sentParams ∧
      ∀ key, sentParams.get key = if key = "task" then none else params.get key

theorem act_forwarded {state : McpState} {request r : McpRequest} {resourceName : String} {isBlockingMode : Bool}
    {approvalWorkflow : Option String} {resp : EvaluateResponse} {store : TaskStore}
    (h : r ∈ (state.act request resourceName isBlockingMode approvalWorkflow resp store).sent) : r = request := by
  have hforward := (act_sent ..).mp (List.ne_nil_of_mem h)
  unfold act at h
  rw [hforward] at h
  exact List.mem_singleton.mp h

section

variable [F64.Fmt] [Sha256] [PipelineLib] [F64.Display]

/-- What is forwarded under a forward rule, to a server without tasks, has its metadata cleared and its parameters as they
came. -/
theorem StripsTask.sent {state : McpState} {ev : Evaluator} {raw : RawJsonRpcRequest} {request : McpRequest}
    (h : state.StripsTask ev request) (hparse : parseSingleFromRaw raw = .ok request) (env : EvalEnv)
    (store : TaskStore) (principal : Option Principal) {r : McpRequest}
    (hr : r ∈ (state.routeThroughGates env store principal request).sent) :
    r = { request with taskMetadata := none } := by
  obtain ⟨name, hname, hrule⟩ := h.rule
  have hmeta : request.taskMetadata.isSome = true := by
    rw [parseSingleFromRaw_metadata hparse, extractTaskMetadata_isSome]
    exact h.task
  have hvalid : validateTaskMetadata request .forward name state.upstreamSupportsTasks state.approvalEngine.isSome =
      .ok (false, { request with taskMetadata := none }) := by
    rw [validateTaskMetadata, h.noTasks, hmeta]
    rfl
  unfold routeThroughGates at hr
  rw [h.asks.1, h.asks.2] at hr
  simp only [hname, hrule, hvalid] at hr
  exact act_forwarded hr

/-- Of the requests with `params.task` that a forward rule lets through to a server without tasks, none is sent without
it. -/
theorem task_metadata_kept {state : McpState} {ev : Evaluator} {raw : RawJsonRpcRequest} {request : McpRequest}
    (hparse : parseSingleFromRaw raw = .ok request) (h : state.StripsTask ev request) (env : EvalEnv)
    (store : TaskStore) (principal : Option Principal) {r : McpRequest}
    (hr : r ∈ (state.routeThroughGates env store principal request).sent) :
    r.taskMetadata = none ∧ r.toJsonrpcRequest = request.toJsonrpcRequest ∧
      ¬ SentWithoutTask request r.toJsonrpcRequest := by
  rw [h.sent hparse env store principal hr]
  refine ⟨rfl, rfl, ?_⟩
  rintro ⟨-, -, params, sentParams, hparams, hsent, hget⟩
  have hsame : sentParams = params := Option.some.inj (hsent.symm.trans hparams)
  have htask := h.task
  rw [hparams, Option.bind_some, ← hsame, hget, if_pos rfl] at htask
  cases htask

end

end McpState

section

attribute [local instance] Sample.glob Sample.cedar

namespace Sample

/-- A proxy whose server answers nothing of interest. -/
def proxy (ev : Evaluator) : McpState where
  upstream request := .ok (.success request.id .null)
  config := some ev.config
  evaluator := some ev
  approvalEngine := none
  upstreamSupportsTasks := false
  blockingApprovalTimeoutSecs := 300

/-- Everything is forwarded. -/
def openRules : Evaluator := evaluator [{ id := "upstream" }] .forward []

/-- A call as a task, for a minute. -/
def taskParams : Value := .object [("name", .string "read"), ("task", .object [("ttl", .number (.posInt 60000))])]

def taskCall : Value :=
  .object [("jsonrpc", .string "2.0"), ("id", .number (.posInt 1)), ("method", .string "tools/call"),
    ("params", taskParams)]

def taskRequest : McpRequest where
  id := some (.number 1)
  method := "tools/call"
  params := some taskParams
  taskMetadata := some { ttl := some 60000000000 }

end Sample

section

attribute [local instance] Sample.f64Fmt Sample.f64Display Sample.sha256 Sample.pipelineLib

theorem Sample.taskRequest_strips : (Sample.proxy Sample.openRules).StripsTask Sample.openRules Sample.taskRequest where
  asks := ⟨rfl, rfl⟩
  gated := rfl
  rule := ⟨"read", rfl, rfl⟩
  noTasks := rfl
  task := rfl

theorem Sample.taskRequest_sent :
    ((Sample.proxy Sample.openRules).routeThroughGates Sample.evalEnv (.new {}) none Sample.taskRequest).sent =
      [{ Sample.taskRequest with taskMetadata := none }] := by
  rfl

theorem task_metadata_kept_sample :
    ¬ McpState.SentWithoutTask Sample.taskRequest { Sample.taskRequest with taskMetadata := none }.toJsonrpcRequest := by
  have hparse : parseSingleFromRaw ⟨some "2.0", some (.number 1), some "tools/call", some Sample.taskParams⟩ =
      .ok Sample.taskRequest := rfl
  refine (McpState.task_metadata_kept hparse Sample.taskRequest_strips Sample.evalEnv (.new {}) none ?_).2.2
  rw [Sample.taskRequest_sent]
  exact List.mem_singleton_self _

/-- The metadata are cleared, and the member is sent to a server without tasks. -/
theorem task_member_forwarded :
    ∃ raw, decodeRequest Sample.taskCall = some raw ∧ parseSingleFromRaw raw = .ok Sample.taskRequest ∧
      (Sample.proxy Sample.openRules).StripsTask Sample.openRules Sample.taskRequest ∧
      ∃ r ∈ ((Sample.proxy Sample.openRules).routeThroughGates Sample.evalEnv (.new {}) none Sample.taskRequest).sent,
        r.taskMetadata = none ∧ r.toJsonrpcRequest.params = some Sample.taskParams ∧
          ¬ McpState.SentWithoutTask Sample.taskRequest r.toJsonrpcRequest := by
  refine ⟨_, rfl, rfl, Sample.taskRequest_strips, _, List.mem_singleton_self _, rfl, rfl, ?_⟩
  rintro ⟨-, -, params, sentParams, -, hsent, hget⟩
  cases hsent
  have htask := hget "task"
  rw [if_pos rfl] at htask
  cases htask

end

end

end ThoughtGate
