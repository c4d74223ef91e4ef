import ThoughtGate.Config.Schema
import ThoughtGate.Policy.Engine
import ThoughtGate.Engine.Start

/-!
# The four gates

`governance/evaluator.rs`: visibility (Gate 1), governance rules (Gate 2), Cedar (Gate 3), approval (Gate 4).
`evaluateWithPrincipal` is a function of the request, the store and what the evaluation takes from outside; it returns
the answer, the trace of the gates and the store.

A governed request that does not name its resource passes no gate at all: the branch that is meant for list methods,
which never come so far, forwards it (`unnamed_forwarded`). For the others the evaluator mediates completely
(`forward_mediated_iff`).
-/

namespace ThoughtGate

inductive Profile where
  | production
  | development
deriving DecidableEq

inductive StreamDirection where
  | agentToServer
  | serverToAgent
deriving DecidableEq

inductive MessageType where
  | request
  | response
  | notification
deriving DecidableEq

/-- `GovernanceEvaluateRequest`; its own `profile` is read by nothing here. -/
structure EvaluateRequest where
  serverId : String
  direction : StreamDirection
  method : String
  id : Option JsonRpcId
  params : Option Value
  messageType : MessageType

inductive GovernanceDecision where
  | forward
  | deny
  | pendingApproval
deriving DecidableEq

inductive DenySource where
  | visibility
  | governanceRule
  | cedarPolicy
deriving DecidableEq

/-- `GovernanceEvaluateResponse`. -/
structure EvaluateResponse where
  decision : GovernanceDecision
  taskId : Option String := none
  policyId : Option String := none
  reason : Option String := none
  pollIntervalMs : Option Nat := none
  timeoutSecs : Option Nat := none
  shutdown : Bool := false
  denySource : Option DenySource := none
deriving DecidableEq

/-- `EvalTrace`, without the measured duration of Gate 3. -/
structure EvalTrace where
  gate1 : Option String := none
  gate2 : Option String := none
  gate2RuleId : Option String := none
  gate3 : Option String := none
  gate3PolicyId : Option String := none
  gate4 : Option String := none
deriving DecidableEq

/-- What one evaluation takes from outside: the clock for the policies, and the start of an approval. -/
structure EvalEnv where
  time : TimeContext
  start : StartEnv

/-- `GovernanceEvaluator`. -/
structure Evaluator [Glob] [Cedar] where
  config : Config
  cedarEngine : Option CedarEngine
  principal : Principal
  profile : Profile
  /-- Whether `set_scheduler` was called. -/
  hasScheduler : Bool
  approvalEngine : Option Engine

/-! ### Reading the request -/

/-- `method_requires_gates`. -/
def methodRequiresGates (method : String) : Bool :=
  method == "tools/call" || method == "resources/read" || method == "resources/subscribe" || method == "prompts/get"

/-- The member of the parameters that names the resource. -/
def resourceKey (method : String) : Option String :=
  if method = "tools/call" then some "name"
  else if method = "resources/read" ∨ method = "resources/subscribe" then some "uri"
  else if method = "prompts/get" then some "name"
  else none

/-- `extract_resource_name`. -/
def extractResourceName (method : String) (params : Option Value) : Option String := do
  let params ← params
  let key ← resourceKey method
  let value ← params.get key
  value.asStr

/-- `extract_arguments`. -/
def extractArguments (params : Option Value) : Value := (params.bind (·.get "arguments")).getD .emptyObject

namespace Evaluator

/-! ### Answers -/

/-- `forward`. -/
def forward (reason : Option String) : EvaluateResponse := { decision := .forward, reason }

/-- `deny`. -/
def deny (reason : Option String) (policyId : Option String) (source : DenySource) : EvaluateResponse :=
  { decision := .deny, policyId, reason, denySource := some source }

/-- `DEFAULT_APPROVAL_TTL_SECS`. -/
def defaultApprovalTtlSecs : Nat := 300

/-- The request as it is put up for approval. -/
def toolRequest (req : EvaluateRequest) (resourceName : String) : ToolCallRequest where
  method := req.method
  name := resourceName
  arguments := extractArguments req.params
  mcpRequestId := req.id.getD .null

section

variable [Glob] [Cedar] [F64.Fmt] [Sha256] [PipelineLib]

/-! ### Gate 4 -/

/-- The preferred path of `start_approval`, through the approval engine. -/
def startWithEngine (engine : Engine) (env : StartEnv) (store : TaskStore) (request : ToolCallRequest)
    (workflow : Option HumanWorkflow) (policyId : Option String) (principal : Principal) (trace : EvalTrace) :
    (EvaluateResponse × EvalTrace) × TaskStore :=
  match engine.startApproval env store request principal (workflow.map (·.timeoutOrDefault))
      (workflow.map (·.onTimeoutOrDefault)) ((workflow.bind (·.redactFields)).getD []) with
  | (.error e, store) =>
    ((deny (some ("Approval workflow failed: " ++ e.display)) policyId .governanceRule, trace), store)
  | (.ok result, store) =>
    (({ decision := .pendingApproval
        taskId := some result.taskId
        policyId
        pollIntervalMs := some result.pollInterval.asMillis
        timeoutSecs := (store.get result.taskId).toOption.map fun task => Duration.asSecs task.ttl },
      { trace with gate4 := some "started" }), store)

/-- The legacy path of `start_approval`, on the store and the scheduler. -/
def startLegacy (hasScheduler : Bool) (env : StartEnv) (store : TaskStore) (request : ToolCallRequest)
    (workflow : Option HumanWorkflow) (policyId : Option String) (principal : Principal) (trace : EvalTrace) :
    (EvaluateResponse × EvalTrace) × TaskStore :=
  match store.create env.id env.created request request principal
      (some (Duration.fromSecs defaultApprovalTtlSecs)) .deny with
  | (.error e, store) =>
    ((deny (some ("Failed to create approval task: " ++ e.display)) policyId .governanceRule, trace), store)
  | (.ok task, store) =>
    match store.transition env.moved task.id .inputRequired none with
    | (.error e, store) =>
      ((deny (some ("Task transition failed: " ++ e.display)) policyId .governanceRule, trace), store)
    | (.ok _, store) =>
      let started : EvaluateResponse :=
        { decision := .pendingApproval
          taskId := some task.id
          policyId
          pollIntervalMs := some (Duration.asMillis (Duration.fromSecs 5))
          timeoutSecs := some defaultApprovalTtlSecs }
      if hasScheduler then
        match env.submit ⟨task.id, request.name, request.arguments, principal, task.expiresAt, env.moved, task.id,
            (workflow.bind (·.redactFields)).getD []⟩ with
        | .error e =>
          ((deny (some ("Approval submission failed: " ++ e)) policyId .governanceRule, trace),
            (store.transition env.failed task.id .failed (some ("Scheduler submission failed: " ++ e))).2)
        | .ok () => ((started, { trace with gate4 := some "started" }), store)
      else ((started, { trace with gate4 := some "started" }), store)

/-- `start_approval`. -/
def startApproval (ev : Evaluator) (env : EvalEnv) (store : TaskStore) (req : EvaluateRequest)
    (resourceName : String) (policyId approvalWorkflow : Option String) (principal : Principal) (trace : EvalTrace) :
    (EvaluateResponse × EvalTrace) × TaskStore :=
  if ev.profile = .development then
    ((forward (some ("WOULD_REQUIRE_APPROVAL for '" ++ resourceName ++ "' — auto-forwarding in dev mode")), trace), store)
  else
    let workflow := approvalWorkflow.bind ev.config.getWorkflow
    match ev.approvalEngine with
    | some engine =>
      startWithEngine engine env.start store (toolRequest req resourceName) workflow policyId principal trace
    | none =>
      startLegacy ev.hasScheduler env.start store (toolRequest req resourceName) workflow policyId principal trace

/-! ### Gate 3 -/

omit [Glob] [Cedar] [F64.Fmt] [Sha256] [PipelineLib] in
/-- The question that Gate 3 puts to Cedar. -/
def cedarRequest (time : TimeContext) (req : EvaluateRequest) (resourceName policyId : String)
    (principal : Principal) : CedarRequest where
  principal := {
    appName := principal.appName
    nameSpace := principal.nameSpace
    serviceAccount := principal.serviceAccount
    roles := principal.roles }
  resource :=
    if req.method = "tools/call" then .toolCall resourceName req.serverId (extractArguments req.params)
    else .mcpMethod req.method req.serverId
  context := { policyId, sourceId := req.serverId, time }

variable [F64.Display]

/-- `evaluate_cedar`. -/
def evaluateCedar (ev : Evaluator) (env : EvalEnv) (store : TaskStore) (req : EvaluateRequest)
    (resourceName : String) (policyId approvalWorkflow : Option String) (principal : Principal) (trace : EvalTrace) :
    (EvaluateResponse × EvalTrace) × TaskStore :=
  match ev.cedarEngine with
  | none =>
    if ev.profile = .development then
      ((forward (some "No Cedar engine configured — forwarding in dev mode"), trace), store)
    else ((deny (some "Cedar engine not configured") none .cedarPolicy, trace), store)
  | some engine =>
    let pid := policyId.getD "default"
    let trace := { trace with gate3PolicyId := some pid }
    match engine.evaluateV2 (cedarRequest env.time req resourceName pid principal) with
    | .permit _ =>
      ev.startApproval env store req resourceName (some pid) approvalWorkflow principal
        { trace with gate3 := some "allow" }
    | .forbid reason _ =>
      let trace := { trace with gate3 := some "deny" }
      if ev.profile = .development then
        ((forward (some ("WOULD_DENY: Cedar forbid — " ++ reason)), trace), store)
      else ((deny (some reason) (some pid) .cedarPolicy, trace), store)

/-! ### Gates 1 and 2 -/

/-- Gate 1: why the resource is not to be seen. -/
def hidden (config : Config) (serverId resourceName : String) : Option String :=
  match config.getSource serverId with
  | none => some ("Source '" ++ serverId ++ "' not found in configuration")
  | some source =>
    if !source.enabled then some ("Source '" ++ serverId ++ "' is disabled")
    else if !source.expose.isVisible resourceName then
      some ("Resource '" ++ resourceName ++ "' not exposed on source '" ++ serverId ++ "'")
    else none

/-- The trace of Gate 2. -/
def actionName : Action → String
  | .forward => "forward"
  | .deny => "deny"
  | .policy => "policy"
  | .approve => "approve"

/-- `evaluate_with_principal`. -/
def evaluateWithPrincipal (ev : Evaluator) (env : EvalEnv) (store : TaskStore) (req : EvaluateRequest)
    (principalOverride : Option Principal) : (EvaluateResponse × EvalTrace) × TaskStore :=
  let principal := principalOverride.getD ev.principal
  let trace : EvalTrace := {}
  if req.messageType ≠ .request ∨ req.direction ≠ .agentToServer then ((forward none, trace), store)
  else if !methodRequiresGates req.method then ((forward none, trace), store)
  else
    match extractResourceName req.method req.params with
    | none => ((forward none, trace), store)
    | some resourceName =>
      match hidden ev.config req.serverId resourceName with
      | some reason => ((deny (some reason) none .visibility, { trace with gate1 := some "block" }), store)
      | none =>
        let found := ev.config.governance.evaluate resourceName req.serverId
        let trace := { trace with
          gate1 := some "pass"
          gate2RuleId := found.matchedRule
          gate2 := some (actionName found.action) }
        match found.action with
        | .forward => ((forward none, trace), store)
        | .deny =>
          ((deny (some ("Denied by governance rule for '" ++ resourceName ++ "'")) found.policyId .governanceRule, trace),
            store)
        | .policy =>
          ev.evaluateCedar env store req resourceName found.policyId found.approvalWorkflow principal trace
        | .approve =>
          ev.startApproval env store req resourceName found.policyId found.approvalWorkflow principal trace

/-! ### Complete mediation -/

/-- The decision of an evaluation. -/
def decision (r : (EvaluateResponse × EvalTrace) × TaskStore) : GovernanceDecision := r.1.1.decision

omit [Cedar] [F64.Fmt] [Sha256] [PipelineLib] [F64.Display] in
/-- The source is configured and enabled, the request names something that the source exposes, and the first rule that
applies to it, or else the default action, is to forward. -/
def Mediated (config : Config) (req : EvaluateRequest) : Prop :=
  ∃ source resourceName, config.getSource req.serverId = some source ∧ source.enabled = true ∧
    extractResourceName req.method req.params = some resourceName ∧ source.expose.isVisible resourceName = true ∧
    (config.governance.evaluate resourceName req.serverId).action = .forward

omit [Glob] [Cedar] [F64.Fmt] [Sha256] [PipelineLib] [F64.Display] in
/-- The parameters are an object whose `name` (for a resource, whose `uri`) is a string. -/
def NamesResource (req : EvaluateRequest) : Prop :=
  ∃ fields member text, req.params = some (.object fields) ∧
    (fields.find? fun f => f.1 == if req.method = "tools/call" ∨ req.method = "prompts/get" then "name" else "uri") =
      some (member, .string text)

omit [Glob] [Cedar] [F64.Fmt] [Sha256] [PipelineLib] [F64.Display] in
theorem resourceKey_of_gated {method : String} (h : methodRequiresGates method = true) :
    resourceKey method = some (if method = "tools/call" ∨ method = "prompts/get" then "name" else "uri") := by
  simp only [methodRequiresGates, Bool.or_eq_true, beq_iff_eq] at h
  rcases h with ((rfl | rfl) | rfl) | rfl <;> rfl

omit [Glob] [Cedar] [F64.Fmt] [Sha256] [PipelineLib] [F64.Display] in
/-- `extract_resource_name` finds a name exactly in such parameters. -/
theorem extractResourceName_isSome {req : EvaluateRequest} (h : methodRequiresGates req.method = true) :
    (extractResourceName req.method req.params).isSome = true ↔ NamesResource req := by
  unfold extractResourceName NamesResource
  rw [resourceKey_of_gated h]
  generalize (if req.method = "tools/call" ∨ req.method = "prompts/get" then "name" else "uri") = key
  constructor
  · intro hsome
    obtain ⟨name, hname⟩ := Option.isSome_iff_exists.mp hsome
    simp only [bind, Option.bind_eq_some_iff, Option.some.injEq, exists_eq_left'] at hname
    obtain ⟨params, hparams, value, hvalue, hstr⟩ := hname
    cases params with
    | object fields =>
      simp only [Value.get, Option.map_eq_some_iff] at hvalue
      obtain ⟨⟨member, v⟩, hfind, rfl⟩ := hvalue
      cases v with
      | string text => exact ⟨fields, member, text, hparams, hfind⟩
      | _ => cases hstr
    | _ => cases hvalue
  · rintro ⟨fields, member, text, hparams, hfind⟩
    simp [hparams, Value.get, hfind, Value.asStr]

omit [Cedar] [F64.Fmt] [Sha256] [PipelineLib] [F64.Display] in
theorem hidden_none {config : Config} {serverId resourceName : String}
    (h : hidden config serverId resourceName = none) :
    ∃ source, config.getSource serverId = some source ∧ source.enabled = true ∧
      source.expose.isVisible resourceName = true := by
  unfold hidden at h
  cases hsource : config.getSource serverId with
  | none => simp [hsource] at h
  | some source =>
    rw [hsource] at h
    cases henabled : source.enabled with
    | false => simp [henabled] at h
    | true =>
      refine ⟨source, rfl, henabled, ?_⟩
      by_contra hvisible
      simp [henabled, Bool.eq_false_of_not_eq_true hvisible] at h

omit [Glob] [Cedar] [F64.Display] in
theorem startWithEngine_not_forward (engine : Engine) (env : StartEnv) (store : TaskStore) (request : ToolCallRequest)
    (workflow : Option HumanWorkflow) (policyId : Option String) (principal : Principal) (trace : EvalTrace) :
    decision (startWithEngine engine env store request workflow policyId principal trace) ≠ .forward := by
  unfold startWithEngine
  split <;> simp [decision, deny]

omit [Glob] [Cedar] [F64.Display] [PipelineLib] in
theorem startLegacy_not_forward (hasScheduler : Bool) (env : StartEnv) (store : TaskStore) (request : ToolCallRequest)
    (workflow : Option HumanWorkflow) (policyId : Option String) (principal : Principal) (trace : EvalTrace) :
    decision (startLegacy hasScheduler env store request workflow policyId principal trace) ≠ .forward := by
  unfold startLegacy
  split
  · simp [decision, deny]
  · split
    · simp [decision, deny]
    · dsimp only
      split
      · split <;> simp [decision, deny]
      · simp [decision]

omit [F64.Display] in
/-- In production an approval is started or refused. -/
theorem startApproval_not_forward {ev : Evaluator} (hprod : ev.profile = .production) (env : EvalEnv)
    (store : TaskStore) (req : EvaluateRequest) (resourceName : String) (policyId approvalWorkflow : Option String)
    (principal : Principal) (trace : EvalTrace) :
    decision (ev.startApproval env store req resourceName policyId approvalWorkflow principal trace) ≠ .forward := by
  have hdev : ¬ ev.profile = .development := by simp [hprod]
  unfold startApproval
  rw [if_neg hdev]
  dsimp only
  cases ev.approvalEngine with
  | some engine => exact startWithEngine_not_forward engine _ _ _ _ _ _ _
  | none => exact startLegacy_not_forward ev.hasScheduler _ _ _ _ _ _ _

/-- In production Gate 3 denies or hands on to Gate 4. -/
theorem evaluateCedar_not_forward {ev : Evaluator} (hprod : ev.profile = .production) (env : EvalEnv)
    (store : TaskStore) (req : EvaluateRequest) (resourceName : String) (policyId approvalWorkflow : Option String)
    (principal : Principal) (trace : EvalTrace) :
    decision (ev.evaluateCedar env store req resourceName policyId approvalWorkflow principal trace) ≠ .forward := by
  have hdev : ¬ ev.profile = .development := by simp [hprod]
  unfold evaluateCedar
  cases ev.cedarEngine with
  | none => simp [hdev, decision, deny]
  | some engine =>
    dsimp only
    cases engine.evaluateV2 (cedarRequest env.time req resourceName (policyId.getD "default") principal) with
    | permit ids => exact startApproval_not_forward hprod _ _ _ _ _ _ _ _
    | forbid reason ids => simp [hdev, decision, deny]

/-- A governed request that names its resource is forwarded in production only through the gates. -/
theorem mediated_of_forward {ev : Evaluator} (hprod : ev.profile = .production) {env : EvalEnv} {store : TaskStore}
    {req : EvaluateRequest} {principalOverride : Option Principal} (hreq : req.messageType = .request)
    (hdir : req.direction = .agentToServer) (hgated : methodRequiresGates req.method = true) {resourceName : String}
    (hname : extractResourceName req.method req.params = some resourceName)
    (h : decision (ev.evaluateWithPrincipal env store req principalOverride) = .forward) :
    Mediated ev.config req := by
  unfold evaluateWithPrincipal at h
  simp only [hreq, hdir, ne_eq, not_true_eq_false, or_self, if_false, hgated, Bool.not_true, Bool.false_eq_true,
    hname] at h
  cases hhid : hidden ev.config req.serverId resourceName with
  | some reason => simp [hhid, decision, deny] at h
  | none =>
    obtain ⟨source, hsource, henabled, hvisible⟩ := hidden_none hhid
    refine ⟨source, resourceName, hsource, henabled, hname, hvisible, ?_⟩
    cases hact : (ev.config.governance.evaluate resourceName req.serverId).action with
    | forward => rfl
    | deny => simp [hhid, hact, decision, deny] at h
    | policy =>
      simp only [hhid, hact] at h
      exact absurd h (evaluateCedar_not_forward hprod _ _ _ _ _ _ _ _)
    | approve =>
      simp only [hhid, hact] at h
      exact absurd h (startApproval_not_forward hprod _ _ _ _ _ _ _ _)

/-- A governed request that does not name its resource is forwarded past every gate. -/
theorem forward_of_unnamed {ev : Evaluator} {env : EvalEnv} {store : TaskStore} {req : EvaluateRequest}
    {principalOverride : Option Principal} (hname : extractResourceName req.method req.params = none) :
    decision (ev.evaluateWithPrincipal env store req principalOverride) = .forward := by
  unfold evaluateWithPrincipal
  simp only [hname]
  split
  · rfl
  · split <;> rfl

/-- In production a governed request is forwarded only through the gates exactly when it names its resource. -/
theorem forward_mediated_iff (ev : Evaluator) (env : EvalEnv) (store : TaskStore) (req : EvaluateRequest)
    (principalOverride : Option Principal) (hprod : ev.profile = .production) (hreq : req.messageType = .request)
    (hdir : req.direction = .agentToServer) (hgated : methodRequiresGates req.method = true) :
    (decision (ev.evaluateWithPrincipal env store req principalOverride) = .forward → Mediated ev.config req) ↔
      NamesResource req := by
  rw [← extractResourceName_isSome hgated]
  cases hname : extractResourceName req.method req.params with
  | some resourceName => simpa using fun h => mediated_of_forward hprod hreq hdir hgated hname h
  | none =>
    have hfwd : decision (ev.evaluateWithPrincipal env store req principalOverride) = .forward :=
      forward_of_unnamed hname
    have hnot : ¬ Mediated ev.config req := by
      rintro ⟨_, _, _, _, hsome, _⟩
      rw [hname] at hsome
      cases hsome
    simp [hfwd, hnot]

end

end Evaluator

namespace Sample

/-- A call of a tool on the server `files`. -/
def toolCall (params : Option Value) : EvaluateRequest where
  serverId := "files"
  direction := .agentToServer
  method := "tools/call"
  id := some (.number 1)
  params
  messageType := .request

def evalEnv : EvalEnv where
  time := ⟨12, 1, 1700000000⟩
  start := {
    id := "tg_1"
    correlationId := "corr"
    created := 0
    moved := 0
    failed := 0
    inspect := fun _ _ _ => .approve
    submit := fun _ => .ok () }

end Sample

section

attribute [local instance] Sample.glob Sample.cedar Sample.f64Fmt Sample.f64Display Sample.sha256 Sample.pipelineLib

namespace Sample

/-- A production evaluator without Cedar. -/
def evaluator (sources : List Source) (defaultAction : Action) (rules : List Rule) : Evaluator where
  config := { sources, governance := { defaultAction, rules } }
  cedarEngine := none
  principal
  profile := .production
  hasScheduler := false
  approvalEngine := none

/-- The source `files` exposes one tool, which is forwarded. -/
def readOnly : Evaluator :=
  evaluator [{ id := "files", exposed := some (.allowlist ["read"] []) }] .deny [{ pattern := "read", action := .forward }]

def readCall : EvaluateRequest := toolCall (some (.object [("name", .string "read")]))

/-- Nothing is configured and everything is denied. -/
def closed : Evaluator := evaluator [] .deny []

def unnamedCall : EvaluateRequest := toolCall (some .emptyObject)

end Sample

theorem forward_mediated_iff_sample :
    Evaluator.decision (Sample.readOnly.evaluateWithPrincipal Sample.evalEnv (.new {}) Sample.readCall none) = .forward ∧
      Evaluator.Mediated Sample.readOnly.config Sample.readCall := by
  have hnames : Evaluator.NamesResource Sample.readCall := ⟨_, "name", "read", rfl, rfl⟩
  have hfwd : Evaluator.decision
      (Sample.readOnly.evaluateWithPrincipal Sample.evalEnv (.new {}) Sample.readCall none) = .forward := by
    decide
  have hiff := Evaluator.forward_mediated_iff Sample.readOnly Sample.evalEnv (.new {}) Sample.readCall none rfl rfl rfl rfl
  exact ⟨hfwd, hiff.mpr hnames hfwd⟩

/-- A call without a tool name goes to a server that is configured nowhere. -/
theorem unnamed_forwarded :
    Sample.closed.profile = .production ∧ Sample.unnamedCall.messageType = .request ∧
      Sample.unnamedCall.direction = .agentToServer ∧ methodRequiresGates Sample.unnamedCall.method = true ∧
      Sample.closed.config.getSource Sample.unnamedCall.serverId = none ∧
      Evaluator.decision (Sample.closed.evaluateWithPrincipal Sample.evalEnv (.new {}) Sample.unnamedCall none) = .forward ∧
      ¬ Evaluator.Mediated Sample.closed.config Sample.unnamedCall := by
  refine ⟨rfl, rfl, rfl, rfl, rfl, ?_, ?_⟩
  · decide
  · rintro ⟨source, _, hsource, _⟩
    cases hsource

end

end ThoughtGate
