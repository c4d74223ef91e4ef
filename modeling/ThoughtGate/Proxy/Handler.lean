import ThoughtGate.Lib.Buffered
import ThoughtGate.Proxy.Response
import ThoughtGate.Proxy.Settings

/-!
# Bodies

`mcp_handler/request.rs`: how a body is admitted, handled and answered. A single request and the items of a batch take
the same routes (`route_request`), but come back through two handlers: the one for a single request returns the stream
of a blocking approval before it has looked whether there is anybody to answer, the one for batches looks at the end.

What the handling of a request meets with is a `RequestEnv`; the items of a batch have one each, so that whatever else
goes on meanwhile is covered. What the task handler and a blocking approval come to (`handle_task_method`,
`wait_and_execute`) is part of it, as a result without its envelope.
-/

namespace ThoughtGate

/-! ### Routes -/

/-- `TaskMethod`. -/
inductive TaskMethod where
  | get
  | result
  | list
  | cancel
deriving DecidableEq

/-- `RouteTarget`, without the request. -/
inductive RouteTarget where
  | policyEvaluation
  | taskHandler (method : TaskMethod)
  | passThrough
  | initializeHandler
deriving DecidableEq

namespace McpRouter

/-- `str::starts_with`. -/
def startsWith (text start : String) : Bool := start.toList.isPrefixOf text.toList

/-- `parse_task_method`. -/
def parseTaskMethod (method : String) : Option TaskMethod :=
  if method = "tasks/get" then some .get
  else if method = "tasks/result" then some .result
  else if method = "tasks/list" then some .list
  else if method = "tasks/cancel" then some .cancel
  else none

/-- `route`: a task whose id does not begin with `tg_` is one of the upstream's. -/
def route (request : McpRequest) : RouteTarget :=
  if request.method = "initialize" then .initializeHandler
  else
    match parseTaskMethod request.method with
    | some method =>
      let id := (request.params.bind fun params => params.get "taskId").bind Value.asStr
      let isLocal := id.any fun id => startsWith id "tg_"
      if method ≠ .list ∧ ¬ isLocal then .passThrough else .taskHandler method
    | none =>
      if startsWith request.method "tools/" || startsWith request.method "resources/" ||
          startsWith request.method "prompts/" then .policyEvaluation
      else .passThrough

theorem route_of_gated {request : McpRequest} (h : methodRequiresGates request.method = true) :
    route request = .policyEvaluation := by
  obtain ⟨id, method, params, metadata⟩ := request
  simp only [methodRequiresGates, Bool.or_eq_true, beq_iff_eq] at h
  rcases h with ((rfl | rfl) | rfl) | rfl <;> simp [route, parseTaskMethod, startsWith]

end McpRouter

/-! ### Capabilities -/

namespace Capability

/-- `entry(key).or_insert_with(|| json!({}))`, then something done to the member; only an object has entries. -/
def atEntry (key : String) (f : Value → Value) : Value → Value
  | .object fields => .object (Value.insertField key (f (((Value.object fields).get key).getD .emptyObject)) fields)
  | v => v

/-- `inject_task_capability`. -/
def injectTaskCapability : Value → Value :=
  atEntry "capabilities" (atEntry "tasks" (atEntry "requests" (atEntry "tools/call" fun _ => .bool true)))

/-- The member of an object is changed, or removed when nothing is left in it. -/
def atObject (key : String) (f : List (String × Value) → List (String × Value)) (fields : List (String × Value)) :
    List (String × Value) :=
  match (Value.object fields).get key with
  | some (.object members) =>
    if (f members).isEmpty then Value.removeField key fields else Value.insertField key (.object (f members)) fields
  | _ => fields

/-- `strip_sse_capability`. -/
def stripSseCapability (result : Value) : Value :=
  match result, (result.get "capabilities").bind Value.asObject with
  | .object fields, some capabilities =>
    let capabilities := atObject "notifications" (atObject "tasks" (Value.removeField "status")) capabilities
    .object (Value.insertField "capabilities" (.object capabilities) fields)
  | _, _ => result

end Capability

/-! ### Handling a request -/

/-- What the handling of one request meets with: the upstream and what is known of it, what the gates take from outside,
the store, who is calling (as far as it can be said, and as the legacy path asks it), the answers of the task handler
and of a blocking approval, how many keepalives are sent for it and whether somebody is there to take them. -/
structure RequestEnv where
  upstream : UpstreamForwarder
  upstreamSupportsTasks : Bool
  gates : EvalEnv
  store : TaskStore
  principal : Option Principal
  identity : Except ThoughtGateError PolicyPrincipal
  taskAnswer : TaskMethod → Option Value → Except ThoughtGateError Value
  waited : TaskId → String → Duration → Duration → Except ThoughtGateError Value
  keepalives : Nat
  listening : Bool
  correlationId : String
  freshCorrelationId : String

/-- `McpHandler`: what it is made from, and its limits. -/
structure McpHandler [Glob] [Cedar] where
  cedarEngine : CedarEngine
  config : Option Config
  approvalEngine : Option Engine
  profile : Profile
  blockingApprovalTimeoutSecs : Nat
  maxBodySize : Nat
  maxBatchSize : Nat
  maxAggregateBuffer : Nat

/-- `McpResponse`. The body is the value that is written, `none` an empty body; a stream begins with blanks. -/
inductive McpResponse where
  | buffered (status : Nat) (body : Option Value)
  | streaming (status : Nat) (keepalives : Nat) (body : Value)

namespace McpHandler

variable [Glob] [Cedar]

/-- The state as `with_governance` makes it, at the time of a request. -/
def state (h : McpHandler) (env : RequestEnv) : McpState :=
  McpState.withGovernance env.upstream h.cedarEngine h.config h.approvalEngine env.upstreamSupportsTasks h.profile
    h.blockingApprovalTimeoutSecs

/-- `handle_initialize_method`. -/
def handleInitializeMethod (h : McpHandler) (env : RequestEnv) (request : McpRequest) :
    Except ThoughtGateError JsonRpcResponse := do
  let response ← (h.state env).upstream request
  if response.error.isSome then .ok response
  else
    match response.result with
    | none => .ok response
    | some result =>
      .ok (.success response.id (Capability.stripSseCapability (Capability.injectTaskCapability result)))

/-- `handle_task_method`. -/
def handleTaskMethod (env : RequestEnv) (method : TaskMethod) (request : McpRequest) :
    Except ThoughtGateError JsonRpcResponse :=
  (env.taskAnswer method request.params).map (JsonRpcResponse.success request.id)

variable [F64.Display]

/-- `evaluate_with_cedar`, which is only called without a configuration and then with no result of Gate 2. -/
def evaluateWithCedar (h : McpHandler) (env : RequestEnv) (request : McpRequest) :
    Except ThoughtGateError JsonRpcResponse :=
  if !methodRequiresGates request.method then (h.state env).upstream request
  else
    match extractResourceName request.method request.params with
    | none => .error (McpState.missingName request.method)
    | some resourceName =>
      match env.identity with
      | .error e => .error e
      | .ok principal =>
        let server := (h.state env).getSourceId
        let resource :=
          if request.method = "tools/call" then .toolCall resourceName server (extractArguments request.params)
          else .mcpMethod request.method server
        match h.cedarEngine.evaluateV2 ⟨principal, resource, ⟨"default", server, env.gates.time⟩⟩ with
        | .permit _ => (h.state env).upstream request
        | .forbid reason _ => .error (.policyDenied resourceName (some "default") (some reason))

variable [F64.Fmt] [Sha256] [PipelineLib]

/-- `route_request`. -/
def routeRequest (h : McpHandler) (env : RequestEnv) (request : McpRequest) : GateResult :=
  match McpRouter.route request with
  | .policyEvaluation =>
    if h.config.isSome then
      if methodRequiresGates request.method then
        ((h.state env).routeThroughGates env.gates env.store env.principal request).result
      else if isListMethod request.method then .immediate ((h.state env).handleListMethod request)
      else .immediate ((h.state env).upstream request)
    else .immediate (h.evaluateWithCedar env request)
  | .taskHandler method => .immediate (handleTaskMethod env method request)
  | .initializeHandler => .immediate (h.handleInitializeMethod env request)
  | .passThrough => .immediate ((h.state env).upstream request)

/-! ### Answering -/

/-- The response to a request that has come to a result. -/
def respond (id : Option JsonRpcId) (correlationId : String) :
    Except ThoughtGateError JsonRpcResponse → JsonRpcResponse
  | .ok response => response
  | .error e => .failure id (e.toJsonrpcError correlationId)

/-- `spawn_blocking_approval_stream`; when nobody takes a keepalive the approval is given up. -/
def spawnBlockingApprovalStream (env : RequestEnv) (taskId : TaskId) (resourceName : String)
    (requestId : Option JsonRpcId) (blockingTimeout pollInterval : Duration) : McpResponse :=
  let result :=
    if env.listening then env.waited taskId resourceName blockingTimeout pollInterval
    else .error (.serviceUnavailable "Client disconnected during blocking approval")
  .streaming 200 env.keepalives
    (respond requestId env.freshCorrelationId (result.map (JsonRpcResponse.success requestId))).toValue

/-- `blocking_approval_sync`. -/
def blockingApprovalSync (env : RequestEnv) (taskId : TaskId) (resourceName : String) (requestId : Option JsonRpcId)
    (blockingTimeout pollInterval : Duration) : Except ThoughtGateError JsonRpcResponse :=
  (env.waited taskId resourceName blockingTimeout pollInterval).map (JsonRpcResponse.success requestId)

/-- `handle_single_request_bytes`. -/
def handleSingleRequest (h : McpHandler) (env : RequestEnv) (request : McpRequest) : McpResponse :=
  match h.routeRequest env request with
  | .blockingApproval taskId resourceName requestId blockingTimeout pollInterval =>
    spawnBlockingApprovalStream env taskId resourceName requestId blockingTimeout pollInterval
  | .immediate result =>
    if request.id.isNone then .buffered 204 none
    else .buffered 200 (some (respond request.id env.correlationId result).toValue)

/-- One item of a batch. -/
def handleBatchItem (h : McpHandler) (env : RequestEnv) : BatchItem → Option JsonRpcResponse
  | .invalid id error => some (.failure id (error.toJsonrpcError env.freshCorrelationId))
  | .valid request =>
    let result := match h.routeRequest env request with
      | .immediate result => result
      | .blockingApproval taskId resourceName requestId blockingTimeout pollInterval =>
        blockingApprovalSync env taskId resourceName requestId blockingTimeout pollInterval
    if request.id.isNone then none else some (respond request.id env.correlationId result)

/-- The items of a batch, at most sixteen of them in flight. -/
def batchStream (h : McpHandler) (items : List BatchItem) :
    Machine (Buffered BatchItem (Option JsonRpcResponse)) (Buffered.Event RequestEnv) :=
  Buffered.machine (min items.length 16) h.handleBatchItem items

/-- The end of `handle_batch_request_bytes`. -/
def batchResponse (results : List (Option JsonRpcResponse)) : McpResponse :=
  let responses := results.reduceOption
  if responses.isEmpty then .buffered 204 none
  else .buffered 200 (some (.array (responses.map JsonRpcResponse.toValue)))

/-! ### Admitting a body -/

/-- What is in use when a body arrives: the bytes that are buffered, and the permits that are left. -/
structure Load where
  bufferedBytes : Nat
  permits : Nat

/-- The permits that a body needs, a `u32`. -/
def permitCount : ParsedRequests → Nat
  | .single _ => 1
  | .batch items => max items.length 1 % 2 ^ 32

/-- The checks of `handle_mcp_body_bytes`. -/
def admission [JsonText] [Serde] (h : McpHandler) (load : Load) (body : ByteArray) :
    Except ThoughtGateError ParsedRequests :=
  if h.maxBodySize < body.size then
    .error (.invalidRequest ("Request body exceeds maximum size of " ++ toString h.maxBodySize ++ " bytes"))
  else if h.maxAggregateBuffer < min (load.bufferedBytes + body.size) (2 ^ 64 - 1) then .error (.rateLimited (some 1))
  else
    match parseJsonrpc body with
    | .error e => .error e
    | .ok parsed =>
      let size := match parsed with
        | .single _ => 0
        | .batch items => items.length
      if h.maxBatchSize < size then
        .error (.invalidRequest ("Batch size " ++ toString size ++ " exceeds maximum of " ++ toString h.maxBatchSize))
      else if load.permits < permitCount parsed then .error (.rateLimited (some 1))
      else .ok parsed

/-- `handle_mcp_body_bytes`, for a batch with the results of its stream. -/
def handleMcpBodyBytes [JsonText] [Serde] (h : McpHandler) (load : Load) (body : ByteArray) (env : RequestEnv)
    (results : List (Option JsonRpcResponse)) : McpResponse :=
  match h.admission load body with
  | .error e => .buffered 200 (some (JsonRpcResponse.failure none (e.toJsonrpcError env.freshCorrelationId)).toValue)
  | .ok (.single request) => h.handleSingleRequest env request
  | .ok (.batch _) => batchResponse results

end McpHandler

/-! ### What is held -/

section

variable [Glob] [Cedar] [F64.Fmt] [Sha256] [PipelineLib]

namespace Evaluator

/-- The engine starts the approval of a request that has come to Gate 4: it passes the inspection, there is room for
its task and the scheduler takes it. -/
def Starts (ev : Evaluator) (engine : Engine) (env : StartEnv) (store : TaskStore) (req : EvaluateRequest)
    (name : String) (principal : Principal) : Prop :=
  let workflow := (ev.found req name).approvalWorkflow.bind ev.config.getWorkflow
  ∃ result, (engine.startApproval env store (toolRequest req name) principal (workflow.map (·.timeoutOrDefault))
    (workflow.map (·.onTimeoutOrDefault)) ((workflow.bind (·.redactFields)).getD [])).1 = .ok result

omit [Glob] [Cedar] in
theorem startWithEngine_pending_iff (engine : Engine) (env : StartEnv) (store : TaskStore) (request : ToolCallRequest)
    (workflow : Option HumanWorkflow) (policyId : Option String) (principal : Principal) (trace : EvalTrace) :
    decision (startWithEngine engine env store request workflow policyId principal trace) = .pendingApproval ↔
      ∃ result, (engine.startApproval env store request principal (workflow.map (·.timeoutOrDefault))
        (workflow.map (·.onTimeoutOrDefault)) ((workflow.bind (·.redactFields)).getD [])).1 = .ok result := by
  unfold startWithEngine
  cases hstart : engine.startApproval env store request principal (workflow.map (·.timeoutOrDefault))
      (workflow.map (·.onTimeoutOrDefault)) ((workflow.bind (·.redactFields)).getD []) with
  | mk answer store' => cases answer <;> simp [decision, deny]

variable [F64.Display]

/-- Only what comes to Gate 4 is pending. -/
theorem reachesGate4_of_pending {ev : Evaluator} {env : EvalEnv} {store : TaskStore} {req : EvaluateRequest}
    {principalOverride : Option Principal}
    (h : decision (ev.evaluateWithPrincipal env store req principalOverride) = .pendingApproval) :
    ∃ name, ev.ReachesGate4 env.time req (principalOverride.getD ev.principal) name := by
  unfold evaluateWithPrincipal at h
  dsimp only at h
  split at h
  · cases h
  · next hkind =>
    split at h
    · cases h
    · next hgated =>
      split at h
      · cases h
      · next name hname =>
        split at h
        · cases h
        · next hvisible =>
          refine ⟨name, ?_⟩
          push Not at hkind
          have hmethod : methodRequiresGates req.method = true := by simpa using hgated
          -- both ways to Gate 4 start an approval, which development mode forwards instead
          have hprod : ∀ {policyId approvalWorkflow principal trace},
              decision (ev.startApproval env store req name policyId approvalWorkflow principal trace) =
                .pendingApproval → ev.profile = .production := by
            intro policyId approvalWorkflow principal trace hstart
            unfold startApproval at hstart
            split at hstart
            · cases hstart
            · next hdev => cases hprofile : ev.profile <;> simp [hprofile] at hdev ⊢
          split at h
          · cases h
          · cases h
          · next haction =>
            unfold evaluateCedar at h
            split at h
            · split at h <;> cases h
            · next engine hengine =>
              dsimp only at h
              split at h
              · next ids hpermit =>
                exact ⟨hprod h, hkind.1, hkind.2, hmethod, hname, hvisible, .inr ⟨haction, engine, ids, hengine, hpermit⟩⟩
              · split at h <;> cases h
          · next haction =>
            exact ⟨hprod h, hkind.1, hkind.2, hmethod, hname, hvisible, .inl haction⟩

/-- A request is pending exactly if it comes to Gate 4 and its approval is started. -/
theorem pending_iff {ev : Evaluator} {engine : Engine} (hengine : ev.approvalEngine = some engine) (env : EvalEnv)
    (store : TaskStore) (req : EvaluateRequest) (principalOverride : Option Principal) :
    decision (ev.evaluateWithPrincipal env store req principalOverride) = .pendingApproval ↔
      ∃ name, ev.ReachesGate4 env.time req (principalOverride.getD ev.principal) name ∧
        ev.Starts engine env.start store req name (principalOverride.getD ev.principal) := by
  have hstarts : ∀ name, ev.ReachesGate4 env.time req (principalOverride.getD ev.principal) name →
      (decision (ev.evaluateWithPrincipal env store req principalOverride) = .pendingApproval ↔
        ev.Starts engine env.start store req name (principalOverride.getD ev.principal)) := by
    intro name hreach
    obtain ⟨policyId, trace, heq⟩ := hreach.evaluate_eq store
    have hdev : ¬ ev.profile = .development := by simp [hreach.production]
    rw [heq env.start]
    unfold startApproval
    rw [if_neg hdev]
    simp only [hengine]
    exact startWithEngine_pending_iff engine _ _ _ _ _ _ _
  constructor
  · intro h
    obtain ⟨name, hreach⟩ := reachesGate4_of_pending h
    exact ⟨name, hreach, (hstarts name hreach).mp h⟩
  · rintro ⟨name, hreach, hstart⟩
    exact (hstarts name hreach).mpr hstart

end Evaluator

end

/-- The connection is held for an approval. -/
def GateResult.isBlocking : GateResult → Bool
  | .immediate _ => false
  | .blockingApproval .. => true

namespace McpState

theorem validateTaskMetadata_blocking_iff {request request' : McpRequest} {action : Action} {toolName : String}
    {upstreamSupportsTasks hasApprovalEngine : Bool} :
    validateTaskMetadata request action toolName upstreamSupportsTasks hasApprovalEngine = .ok (true, request') ↔
      request' = request ∧ (action = .approve ∨ action = .policy) ∧ request.taskMetadata = none ∧
        hasApprovalEngine = true := by
  unfold validateTaskMetadata
  cases action <;> dsimp only
  case forward | deny =>
    split <;> simp
  case approve | policy =>
    cases request.taskMetadata <;> cases hasApprovalEngine <;> simp [eq_comm]

variable [Glob] [Cedar]

theorem act_isBlocking (state : McpState) (request : McpRequest) (resourceName : String) (isBlockingMode : Bool)
    (approvalWorkflow : Option String) (resp : EvaluateResponse) (store : TaskStore) :
    (state.act request resourceName isBlockingMode approvalWorkflow resp store).result.isBlocking = true ↔
      resp.decision = .pendingApproval ∧ isBlockingMode = true ∧ state.approvalEngine.isSome = true := by
  unfold act
  cases resp.decision with
  | forward => simp [GateResult.isBlocking]
  | deny => simp [GateResult.isBlocking]
  | pendingApproval =>
    cases isBlockingMode <;> cases state.approvalEngine <;> simp [GateResult.isBlocking]

variable [F64.Fmt] [Sha256] [PipelineLib] [F64.Display]

/-- The gates hold a request that is pending and has no task metadata. -/
theorem routeThroughGates_isBlocking {state : McpState} {ev : Evaluator} (hstate : state.Asks ev) (env : EvalEnv)
    (store : TaskStore) (principal : Option Principal) {request : McpRequest} :
    (state.routeThroughGates env store principal request).result.isBlocking = true ↔
      state.approvalEngine.isSome = true ∧ request.taskMetadata = none ∧
        ∃ name, extractResourceName request.method request.params = some name ∧
          ((ev.config.governance.evaluate name state.getSourceId).action = .approve ∨
            (ev.config.governance.evaluate name state.getSourceId).action = .policy) ∧
          Evaluator.decision (ev.evaluateWithPrincipal env store (state.governanceRequest request) principal) =
            .pendingApproval := by
  unfold routeThroughGates
  rw [hstate.1, hstate.2]
  dsimp only
  cases extractResourceName request.method request.params with
  | none => simp [GateResult.isBlocking]
  | some name =>
    dsimp only
    cases hvalid : validateTaskMetadata request (ev.config.governance.evaluate name state.getSourceId).action name
        state.upstreamSupportsTasks state.approvalEngine.isSome with
    | error e =>
      constructor
      · intro h
        cases h
      · rintro ⟨hengine, hplain, name', hname, haction, -⟩
        cases hname
        have hok : validateTaskMetadata request (ev.config.governance.evaluate name state.getSourceId).action name
            state.upstreamSupportsTasks state.approvalEngine.isSome = .ok (true, request) :=
          validateTaskMetadata_blocking_iff.mpr ⟨rfl, haction, hplain, hengine⟩
        rw [hvalid] at hok
        cases hok
    | ok valid =>
      obtain ⟨isBlockingMode, request'⟩ := valid
      dsimp only
      rw [act_isBlocking]
      constructor
      · rintro ⟨hpending, rfl, hengine⟩
        obtain ⟨rfl, haction, hplain, -⟩ := validateTaskMetadata_blocking_iff.mp hvalid
        exact ⟨hengine, hplain, name, rfl, haction, hpending⟩
      · rintro ⟨hengine, hplain, name', hname, haction, hpending⟩
        cases hname
        have hok : validateTaskMetadata request (ev.config.governance.evaluate name state.getSourceId).action name
            state.upstreamSupportsTasks state.approvalEngine.isSome = .ok (true, request) :=
          validateTaskMetadata_blocking_iff.mpr ⟨rfl, haction, hplain, hengine⟩
        rw [hvalid] at hok
        cases hok
        exact ⟨hpending, rfl, hengine⟩

end McpState

namespace McpHandler

variable [Glob] [Cedar]

/-- The evaluator of a handler with a configuration. -/
def evaluator (h : McpHandler) (config : Config) : Evaluator where
  config := config
  cedarEngine := some h.cedarEngine
  principal := { appName := "proxy" }
  profile := h.profile
  hasScheduler := false
  approvalEngine := h.approvalEngine

variable [F64.Fmt] [Sha256] [PipelineLib] [F64.Display]

/-- The request has no task metadata, and the gates come to an approval for it that the engine starts. -/
def Held (h : McpHandler) (env : RequestEnv) (request : McpRequest) : Prop :=
  ∃ config engine name, h.config = some config ∧ h.approvalEngine = some engine ∧ request.taskMetadata = none ∧
    let req := (h.state env).governanceRequest request
    let principal := env.principal.getD (h.evaluator config).principal
    (h.evaluator config).ReachesGate4 env.gates.time req principal name ∧
      (h.evaluator config).Starts engine env.gates.start env.store req name principal

theorem routeRequest_isBlocking (h : McpHandler) (env : RequestEnv) (request : McpRequest) :
    (h.routeRequest env request).isBlocking = true ↔ h.Held env request := by
  cases hconfig : h.config with
  | none =>
    have hnot : ¬ h.Held env request := by
      rintro ⟨config, engine, name, hsome, -⟩
      rw [hconfig] at hsome
      cases hsome
    refine iff_of_false ?_ hnot
    unfold routeRequest
    cases McpRouter.route request <;> simp [hconfig, GateResult.isBlocking]
  | some config =>
    have hasks : (h.state env).Asks (h.evaluator config) := by
      unfold state McpState.withGovernance
      rw [hconfig]
      exact ⟨rfl, rfl⟩
    by_cases hgated : methodRequiresGates request.method = true
    · have hroute : h.routeRequest env request =
          ((h.state env).routeThroughGates env.gates env.store env.principal request).result := by
        unfold routeRequest
        rw [McpRouter.route_of_gated hgated]
        simp [hconfig, hgated]
      have hengineEq : (h.state env).approvalEngine = h.approvalEngine := rfl
      rw [hroute, McpState.routeThroughGates_isBlocking hasks, hengineEq]
      constructor
      · rintro ⟨hengine, hplain, name, hname, haction, hpending⟩
        obtain ⟨engine, hengine⟩ := Option.isSome_iff_exists.mp hengine
        obtain ⟨name', hreach, hstarts⟩ := (Evaluator.pending_iff hengine ..).mp hpending
        exact ⟨config, engine, name', hconfig, hengine, hplain, hreach, hstarts⟩
      · rintro ⟨config', engine, name, hconfig', hengine, hplain, hreach, hstarts⟩
        rw [hconfig] at hconfig'
        cases hconfig'
        refine ⟨by simp [hengine], hplain, name, hreach.named, ?_, (Evaluator.pending_iff hengine ..).mpr ⟨name, hreach, hstarts⟩⟩
        rcases hreach.passed with happrove | ⟨hpolicy, -⟩
        · exact Or.inl happrove
        · exact Or.inr hpolicy
    · have hnot : ¬ h.Held env request := by
        rintro ⟨config, engine, name, -, -, -, hreach, -⟩
        exact hgated hreach.gated
      refine iff_of_false ?_ hnot
      unfold routeRequest
      cases McpRouter.route request with
      | policyEvaluation =>
        simp only [hconfig, Option.isSome_some, if_true, if_neg hgated]
        by_cases hlist : isListMethod request.method = true <;> simp [hlist, GateResult.isBlocking]
      | _ => simp [GateResult.isBlocking]

end McpHandler

/-! ### Under whose identifier -/

/-- A response, if there is one, is shown under this identifier. -/
def Echoes (id : Option JsonRpcId) (result : Except ThoughtGateError JsonRpcResponse) : Prop :=
  ∀ response, result = .ok response → response.shownId = id.getD .null

/-- So is what comes of an approval. -/
def GateResult.Echoes (id : Option JsonRpcId) : GateResult → Prop
  | .immediate result => ThoughtGate.Echoes id result
  | .blockingApproval _ _ requestId _ _ => requestId = id

theorem echoes_error (id : Option JsonRpcId) (e : ThoughtGateError) : Echoes id (.error e) := by
  intro response h
  cases h

theorem echoes_map_success (id : Option JsonRpcId) (result : Except ThoughtGateError Value) :
    Echoes id (result.map (JsonRpcResponse.success id)) := by
  intro response h
  cases result <;> cases h
  rfl

theorem Echoes.respond {id : Option JsonRpcId} {result : Except ThoughtGateError JsonRpcResponse} (h : Echoes id result)
    (correlationId : String) : (McpHandler.respond id correlationId result).shownId = id.getD .null := by
  cases result with
  | ok response => exact h response rfl
  | error e => rfl

theorem UpstreamForwarder.Echoes.forward {upstream : UpstreamForwarder} (h : upstream.Echoes) {request : McpRequest}
    (hid : request.id.isSome = true) : ThoughtGate.Echoes request.id (upstream request) :=
  fun response hresponse => h request response hid hresponse

namespace McpState

variable [Glob] [Cedar] {state : McpState} {request : McpRequest}

theorem handleListMethod_echoes (hecho : state.upstream.Echoes) (hid : request.id.isSome = true) :
    Echoes request.id (state.handleListMethod request) := by
  intro response h
  unfold handleListMethod at h
  cases hup : state.upstream request with
  | error e =>
    rw [hup] at h
    cases h
  | ok answer =>
    have hshown := hecho.forward hid answer hup
    rw [hup] at h
    dsimp only [bind, Except.bind] at h
    split at h
    · cases h
      exact hshown
    · split at h
      · split at h <;> cases h <;> exact hshown
      · cases h
        exact hshown

theorem act_echoes (hecho : state.upstream.Echoes) (hid : request.id.isSome = true) (resourceName : String)
    (isBlockingMode : Bool) (approvalWorkflow : Option String) (resp : EvaluateResponse) (store : TaskStore) :
    (state.act request resourceName isBlockingMode approvalWorkflow resp store).result.Echoes request.id := by
  unfold act
  cases resp.decision with
  | forward => exact hecho.forward hid
  | deny => exact echoes_error _ _
  | pendingApproval =>
    dsimp only
    split
    · split
      · rfl
      · exact echoes_error _ _
    · intro response h
      cases h
      rfl

variable [F64.Fmt] [Sha256] [PipelineLib] [F64.Display]

theorem routeThroughGates_echoes (hecho : state.upstream.Echoes) (hid : request.id.isSome = true) (env : EvalEnv)
    (store : TaskStore) (principal : Option Principal) :
    (state.routeThroughGates env store principal request).result.Echoes request.id := by
  unfold routeThroughGates
  split
  · exact echoes_error _ _
  · split
    · exact echoes_error _ _
    · split
      · exact echoes_error _ _
      · dsimp only
        split
        · exact echoes_error _ _
        · next isBlockingMode request' hvalid =>
          obtain ⟨hsame, -, -⟩ := validateTaskMetadata_ok hvalid
          rw [← hsame] at hid ⊢
          exact act_echoes hecho hid _ _ _ _ _

end McpState

namespace McpHandler

variable [Glob] [Cedar] (h : McpHandler) {env : RequestEnv} (request : McpRequest)

theorem handleInitializeMethod_echoes (hecho : env.upstream.Echoes) (hid : request.id.isSome = true) :
    Echoes request.id (h.handleInitializeMethod env request) := by
  intro response hresponse
  unfold handleInitializeMethod at hresponse
  cases hup : (h.state env).upstream request with
  | error e =>
    rw [hup] at hresponse
    cases hresponse
  | ok answer =>
    have hshown := hecho.forward hid answer hup
    rw [hup] at hresponse
    dsimp only [bind, Except.bind] at hresponse
    split at hresponse
    · cases hresponse
      exact hshown
    · split at hresponse <;> cases hresponse <;> exact hshown

theorem evaluateWithCedar_echoes [F64.Display] (hecho : env.upstream.Echoes) (hid : request.id.isSome = true) :
    Echoes request.id (h.evaluateWithCedar env request) := by
  unfold evaluateWithCedar
  split
  · exact hecho.forward hid
  · split
    · exact echoes_error _ _
    · split
      · exact echoes_error _ _
      · dsimp only
        split
        · exact hecho.forward hid
        · exact echoes_error _ _

variable [F64.Fmt] [Sha256] [PipelineLib] [F64.Display]

/-- On every route a request with an identifier is answered under it. -/
theorem routeRequest_echoes (hecho : env.upstream.Echoes) (hid : request.id.isSome = true) :
    (h.routeRequest env request).Echoes request.id := by
  unfold routeRequest
  cases McpRouter.route request with
  | policyEvaluation =>
    dsimp only
    split
    · split
      · exact McpState.routeThroughGates_echoes hecho hid _ _ _
      · split
        · exact McpState.handleListMethod_echoes hecho hid
        · exact hecho.forward hid
    · exact h.evaluateWithCedar_echoes request hecho hid
  | taskHandler method => exact echoes_map_success _ _
  | initializeHandler => exact h.handleInitializeMethod_echoes request hecho hid
  | passThrough => exact hecho.forward hid

end McpHandler

end ThoughtGate
