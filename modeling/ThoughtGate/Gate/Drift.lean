import ThoughtGate.Gate.Evaluator

/-!
# Gate 3 and the check after the approval

A request that Gate 3 has let through and a human has approved is put to the policies once more before it is sent
(`reevaluate_policy`). The two checks do not ask the same question. Gate 3 asks for the action `tools/call` or
`mcp/method` on the tool or the method, with the policy id, the source and the time as context and with the entities
of the principal, its roles and the resource. The second check asks for `Forward` and then `Approve`, always on a tool,
with the grant as the only context and without entities.

So unchanged policies can fail an approved request, and policies that now forbid it can let it pass
(`drift_without_change`). The two checks agree exactly where Cedar answers the two questions alike
(`reevaluation_agrees_iff`); no request is such that every set of policies does (`disagreement_for_each_request`).
-/

namespace ThoughtGate

/-! ### The task of a request -/

/-- The task stands for the request: what was asked, and for whom. What the inspectors have made of the request
before the approval is left open. -/
structure OpenedFor (task : Task) (req : EvaluateRequest) (resourceName : String) (principal : Principal) : Prop where
  originalRequest : task.originalRequest = Evaluator.toolRequest req resourceName
  principal : task.principal = principal

theorem OpenedFor.sameOrigin {t t' : Task} {req : EvaluateRequest} {resourceName : String} {principal : Principal}
    (h : OpenedFor t req resourceName principal) (hsame : SameOrigin t t') : OpenedFor t' req resourceName principal :=
  ⟨hsame.originalRequest.trans h.originalRequest, hsame.principal.trans h.principal⟩

namespace Evaluator

/-- An approval was started, and its task, which stands for the request, is in the store. -/
def Opens (r : (EvaluateResponse × EvalTrace) × TaskStore) (req : EvaluateRequest) (resourceName : String)
    (principal : Principal) : Prop :=
  ∃ id task, r.1.1.taskId = some id ∧ r.2.get id = .ok task ∧ OpenedFor task req resourceName principal

section

variable [F64.Fmt] [Sha256] [PipelineLib] {env : StartEnv} {store : TaskStore} {req : EvaluateRequest}
  {resourceName : String} {workflow : Option HumanWorkflow} {policyId : Option String} {principal : Principal}
  {trace : EvalTrace}

omit [PipelineLib] in
/-- Creation and first move together. -/
theorem openedFor_of_create {s s₁ s₂ : TaskStore} {id : TaskId} {now moved : DateTime} {pre : ToolCallRequest}
    {ttl : Option Duration} {onTimeout : TimeoutAction} {newStatus : TaskStatus} {reason : Option String}
    {task task' : Task}
    (hcreate : s.create id now (toolRequest req resourceName) pre principal ttl onTimeout = (.ok task, s₁))
    (hmove : s₁.transition moved task.id newStatus reason = (.ok task', s₂)) :
    s₂.get task.id = .ok task' ∧ OpenedFor task' req resourceName principal := by
  obtain ⟨hid, horig, hprincipal, e, he, hetask⟩ := TaskStore.lookup_of_create hcreate
  rw [← hid] at he
  obtain ⟨hget, hsame⟩ := TaskStore.get_ok_of_transition he hmove
  rw [hetask] at hsame
  exact ⟨hget, OpenedFor.sameOrigin ⟨horig, hprincipal⟩ hsame⟩

theorem startWithEngine_opens {engine : Engine}
    (h : decision (startWithEngine engine env store (toolRequest req resourceName) workflow policyId principal trace) =
      .pendingApproval) :
    Opens (startWithEngine engine env store (toolRequest req resourceName) workflow policyId principal trace) req
      resourceName principal := by
  unfold startWithEngine at h ⊢
  generalize hstart : engine.startApproval env store (toolRequest req resourceName) principal
    (workflow.map (·.timeoutOrDefault)) (workflow.map (·.onTimeoutOrDefault))
    ((workflow.bind (·.redactFields)).getD []) = started at h ⊢
  obtain ⟨result, s₂⟩ := started
  cases result with
  | error e => cases h
  | ok result =>
    unfold Engine.startApproval at hstart
    split at hstart
    · cases hstart
    · split at hstart
      · cases hstart
      · rename_i task s₁ hcreate
        split at hstart
        · cases hstart
        · rename_i task' s' hmove
          split at hstart
          · cases hstart
          · cases hstart
            obtain ⟨hget, hopen⟩ := openedFor_of_create hcreate hmove
            exact ⟨task.id, task', rfl, hget, hopen⟩

omit [PipelineLib] in
theorem startLegacy_opens {hasScheduler : Bool}
    (h : decision (startLegacy hasScheduler env store (toolRequest req resourceName) workflow policyId principal trace) =
      .pendingApproval) :
    Opens (startLegacy hasScheduler env store (toolRequest req resourceName) workflow policyId principal trace) req
      resourceName principal := by
  unfold startLegacy at h ⊢
  split at h
  · cases h
  · rename_i task s₁ hcreate
    split at h
    · cases h
    · rename_i task' s₂ hmove
      obtain ⟨hget, hopen⟩ := openedFor_of_create hcreate hmove
      dsimp only at h ⊢
      split at h
      · split at h
        · cases h
        · rename_i hsched _ hsubmit
          rw [if_pos hsched]
          exact ⟨task.id, task', rfl, hget, hopen⟩
      · rename_i hsched
        rw [if_neg hsched]
        exact ⟨task.id, task', rfl, hget, hopen⟩

end

section

variable [Glob] [Cedar] [F64.Fmt] [F64.Display] [Sha256] [PipelineLib] {ev : Evaluator} {env : EvalEnv}
  {store : TaskStore} {req : EvaluateRequest}

omit [F64.Display] in
theorem startApproval_opens {resourceName : String} {policyId approvalWorkflow : Option String} {principal : Principal}
    {trace : EvalTrace}
    (h : decision (ev.startApproval env store req resourceName policyId approvalWorkflow principal trace) =
      .pendingApproval) :
    Opens (ev.startApproval env store req resourceName policyId approvalWorkflow principal trace) req resourceName
      principal := by
  unfold startApproval at h ⊢
  split at h
  · cases h
  · rename_i hdev
    rw [if_neg hdev]
    dsimp only at h ⊢
    cases hengine : ev.approvalEngine with
    | some engine =>
      rw [hengine] at h
      exact startWithEngine_opens h
    | none =>
      rw [hengine] at h
      exact startLegacy_opens h

theorem evaluateCedar_opens {resourceName : String} {policyId approvalWorkflow : Option String} {principal : Principal}
    {trace : EvalTrace}
    (h : decision (ev.evaluateCedar env store req resourceName policyId approvalWorkflow principal trace) =
      .pendingApproval) :
    Opens (ev.evaluateCedar env store req resourceName policyId approvalWorkflow principal trace) req resourceName
      principal := by
  unfold evaluateCedar at h ⊢
  cases hengine : ev.cedarEngine with
  | none =>
    rw [hengine] at h
    dsimp only at h
    split at h <;> cases h
  | some engine =>
    rw [hengine] at h
    dsimp only at h ⊢
    split at h
    · exact startApproval_opens h
    · split at h <;> cases h

/-- Every evaluation that ends with a pending approval leaves the task of the request in the store. -/
theorem evaluateWithPrincipal_opens {principalOverride : Option Principal}
    (h : decision (ev.evaluateWithPrincipal env store req principalOverride) = .pendingApproval) :
    ∃ resourceName, extractResourceName req.method req.params = some resourceName ∧
      Opens (ev.evaluateWithPrincipal env store req principalOverride) req resourceName
        (principalOverride.getD ev.principal) := by
  unfold evaluateWithPrincipal at h ⊢
  dsimp only at h ⊢
  split at h
  · cases h
  · rename_i hkind
    rw [if_neg hkind]
    split at h
    · cases h
    · rename_i hgated
      rw [if_neg hgated]
      split at h
      · cases h
      · rename_i resourceName hname
        refine ⟨resourceName, hname, ?_⟩
        split at h
        · cases h
        · split at h
          · cases h
          · cases h
          · exact evaluateCedar_opens h
          · exact startApproval_opens h

end

end Evaluator

/-! ### The two questions -/

section

variable [Cedar]

/-- Cedar's answer to the question before the approval. -/
def gateAllows [F64.Display] (policies : Cedar.PolicySet) (time : TimeContext) (req : EvaluateRequest)
    (resourceName policyId : String) (principal : Principal) : Bool :=
  match CedarEngine.buildEntitiesV2 (Evaluator.cedarRequest time req resourceName policyId principal) with
  | .error _ => false
  | .ok entities =>
    (Cedar.isAuthorized {
      principal := ⟨"ThoughtGate::App", principal.appName⟩
      action := ⟨"ThoughtGate::Action", if req.method = "tools/call" then "tools/call" else "mcp/method"⟩
      resource :=
        if req.method = "tools/call" then ⟨"ThoughtGate::ToolCall", resourceName⟩
        else ⟨"ThoughtGate::McpMethod", req.method⟩
      context := [
        ("policy_id", .string policyId),
        ("source_id", .string req.serverId),
        ("time", .record [("hour", .long time.hour), ("day_of_week", .long time.dayOfWeek),
          ("timestamp", .long time.timestamp)])] } policies entities).allow

/-- Cedar's answer to the question after it: one of the two actions, on a tool of that name. -/
def grantAllows (policies : Cedar.PolicySet) (principal : Principal) (toolName : String) (id : TaskId)
    (approval : ApprovalRecord) : Bool :=
  ["Forward", "Approve"].any fun action =>
    (Cedar.isAuthorized {
      principal := ⟨"ThoughtGate::App", principal.appName⟩
      action := ⟨"ThoughtGate::Action", action⟩
      resource := ⟨"ThoughtGate::ToolCall", toolName⟩
      context := [
        ("approval_grant", .record [("task_id", .string id), ("approved_by", .string approval.decidedBy),
          ("approved_at", .long (Pipeline.timestamp approval.decidedAt))])] } policies []).allow

theorem evaluateV2_isPermit [F64.Display] (e : CedarEngine) (time : TimeContext) (req : EvaluateRequest)
    (resourceName policyId : String) (principal : Principal) :
    (e.evaluateV2 (Evaluator.cedarRequest time req resourceName policyId principal)).isPermit =
      gateAllows e.snapshot.policies time req resourceName policyId principal := by
  rw [Bool.eq_iff_iff, CedarEngine.evaluateV2_isPermit_iff]
  unfold gateAllows
  cases CedarEngine.buildEntitiesV2 (Evaluator.cedarRequest time req resourceName policyId principal) with
  | error err => simp
  | ok entities =>
    by_cases htool : req.method = "tools/call"
    · simp [Evaluator.cedarRequest, htool, CedarEngine.buildCedarRequestV2, CedarEngine.actionNameV2,
        CedarEngine.appUid, CedarEngine.actionUid, CedarEngine.toolCallUid, CedarEngine.buildContextV2]
    · simp [Evaluator.cedarRequest, htool, CedarEngine.buildCedarRequestV2, CedarEngine.actionNameV2,
        CedarEngine.appUid, CedarEngine.actionUid, CedarEngine.mcpMethodUid, CedarEngine.buildContextV2]

/-- The check after the approval with the engine as it is now. -/
def reevaluated (e : CedarEngine) (task : Task) (approval : ApprovalRecord) : Except FailureInfo Unit :=
  Pipeline.reevaluatePolicy (fun request => .ok (e.evaluate request)) task approval

theorem reevaluated_ok_iff (e : CedarEngine) (task : Task) (approval : ApprovalRecord) :
    reevaluated e task approval = .ok () ↔
      grantAllows e.snapshot.policies task.principal task.preApprovalTransformed.name task.id approval = true := by
  have hask : ∀ action, e.isActionPermitted (Pipeline.reevaluationRequest task approval) action =
      (Cedar.isAuthorized {
        principal := ⟨"ThoughtGate::App", task.principal.appName⟩
        action := ⟨"ThoughtGate::Action", action⟩
        resource := ⟨"ThoughtGate::ToolCall", task.preApprovalTransformed.name⟩
        context := [
          ("approval_grant", .record [("task_id", .string task.id), ("approved_by", .string approval.decidedBy),
            ("approved_at", .long (Pipeline.timestamp approval.decidedAt))])] } e.snapshot.policies []).allow := by
    intro action
    rfl
  unfold reevaluated Pipeline.reevaluatePolicy CedarEngine.evaluate grantAllows
  simp only [← hask, List.any_cons, List.any_nil, Bool.or_false, Bool.or_eq_true]
  by_cases hforward : e.isActionPermitted (Pipeline.reevaluationRequest task approval) "Forward" = true
  · simp [hforward]
  · by_cases happrove : e.isActionPermitted (Pipeline.reevaluationRequest task approval) "Approve" = true
    · simp [hforward, happrove]
    · simp [hforward, happrove]

/-- It fails in one way only. -/
theorem reevaluated_error {e : CedarEngine} {task : Task} {approval : ApprovalRecord}
    (h : reevaluated e task approval ≠ .ok ()) :
    reevaluated e task approval = .error ⟨.policyDrift, "Policy changed - request no longer permitted", false⟩ := by
  unfold reevaluated Pipeline.reevaluatePolicy at h ⊢
  cases haction : e.evaluate (Pipeline.reevaluationRequest task approval) with
  | forward => simp [haction] at h
  | approve timeout => simp [haction] at h
  | reject reason => simp only [haction]

/-- The check after the approval agrees with Gate 3 (what unchanged policies let through passes again, and what the
policies now forbid does not pass) exactly where Cedar answers the two questions alike. -/
theorem reevaluation_agrees_iff [F64.Display] (gate now : CedarEngine) (asked later : TimeContext)
    (req : EvaluateRequest) (resourceName policyId : String) (principal : Principal) (task : Task)
    (approval : ApprovalRecord) (hopen : OpenedFor task req resourceName principal) :
    ((gate.snapshot.policies = now.snapshot.policies →
        (gate.evaluateV2 (Evaluator.cedarRequest asked req resourceName policyId principal)).isPermit = true →
        reevaluated now task approval = .ok ()) ∧
      ((now.evaluateV2 (Evaluator.cedarRequest later req resourceName policyId principal)).isPermit = false →
        reevaluated now task approval ≠ .ok ())) ↔
    ((gate.snapshot.policies = now.snapshot.policies →
        gateAllows gate.snapshot.policies asked req resourceName policyId principal = true →
        grantAllows now.snapshot.policies principal task.preApprovalTransformed.name task.id approval = true) ∧
      (grantAllows now.snapshot.policies principal task.preApprovalTransformed.name task.id approval = true →
        gateAllows now.snapshot.policies later req resourceName policyId principal = true)) := by
  rw [evaluateV2_isPermit, evaluateV2_isPermit, ne_eq, reevaluated_ok_iff, hopen.principal]
  refine and_congr Iff.rfl ?_
  rw [← Bool.not_eq_true]
  exact not_imp_not

end

section

attribute [local instance] Sample.glob Sample.cedar Sample.f64Fmt Sample.f64Display Sample.sha256 Sample.pipelineLib

namespace Sample

/-- The engine with the policies that permit these actions. -/
def permitting (text : String) (actions : List String) : CedarEngine where
  schema := ()
  snapshot := ⟨text, actions, .environment 0⟩

theorem cedar_allow (q : CedarQuery) (actions : List String) (entities : List Entity) :
    (cedar.isAuthorized q actions entities).allow = true ↔ q.action.id ∈ actions := by
  show (if q.action.id ∈ actions then (⟨true, ["policy0"], []⟩ : CedarResponse) else ⟨false, [], []⟩).allow = true ↔ _
  split <;> simp [*]

theorem reevaluated_permitting (text : String) (actions : List String) (task : Task) (approval : ApprovalRecord) :
    reevaluated (permitting text actions) task approval = .ok () ↔ "Forward" ∈ actions ∨ "Approve" ∈ actions := by
  rw [reevaluated_ok_iff]
  unfold grantAllows
  simp only [List.any_cons, List.any_nil, Bool.or_false, Bool.or_eq_true]
  exact or_congr (cedar_allow _ _ _) (cedar_allow _ _ _)

theorem evaluateV2_permitting (text : String) (actions : List String) (request : CedarRequest) :
    ((permitting text actions).evaluateV2 request).isPermit = true ↔
      (∃ entity, CedarEngine.resourceEntity request.resource = .ok entity) ∧
        CedarEngine.actionNameV2 request.resource ∈ actions := by
  rw [CedarEngine.evaluateV2_isPermit_iff]
  cases hentity : CedarEngine.resourceEntity request.resource with
  | error err =>
    have hbuild : CedarEngine.buildEntitiesV2 request = .error err := by
      unfold CedarEngine.buildEntitiesV2
      rw [hentity]
      rfl
    simp [hbuild]
  | ok entity =>
    have hbuild : CedarEngine.buildEntitiesV2 request = .ok (request.principal.roles.map CedarEngine.roleEntity ++
        [CedarEngine.principalEntity request.principal, entity]) := by
      unfold CedarEngine.buildEntitiesV2
      rw [hentity]
      rfl
    constructor
    · rintro ⟨entities, -, hallow⟩
      exact ⟨⟨entity, rfl⟩, (cedar_allow _ _ _).mp hallow⟩
    · rintro ⟨-, hmem⟩
      exact ⟨_, hbuild, (cedar_allow _ _ _).mpr hmem⟩

end Sample

/-- No request is safe from either disagreement: for each whose arguments Cedar can hold there are policies that let
it through and then fail it unchanged, and for each there are policies that forbid it and let it pass once approved. -/
theorem disagreement_for_each_request (time : TimeContext) (req : EvaluateRequest) (resourceName policyId : String)
    (principal : Principal) (task : Task) (approval : ApprovalRecord) :
    ((∃ entity, CedarEngine.resourceEntity (Evaluator.cedarRequest time req resourceName policyId principal).resource =
        .ok entity) →
      ∃ e : CedarEngine,
        (e.evaluateV2 (Evaluator.cedarRequest time req resourceName policyId principal)).isPermit = true ∧
        reevaluated e task approval ≠ .ok ()) ∧
    ∃ e : CedarEngine,
      (e.evaluateV2 (Evaluator.cedarRequest time req resourceName policyId principal)).isPermit = false ∧
      reevaluated e task approval = .ok () := by
  have haction : ∀ resource, CedarEngine.actionNameV2 resource = "tools/call" ∨
      CedarEngine.actionNameV2 resource = "mcp/method" := by
    intro resource
    cases resource with
    | toolCall name server arguments => exact Or.inl rfl
    | mcpMethod method server => exact Or.inr rfl
  constructor
  · intro hentity
    refine ⟨Sample.permitting "" ["tools/call", "mcp/method"], ?_, ?_⟩
    · rw [Sample.evaluateV2_permitting]
      refine ⟨hentity, ?_⟩
      rcases haction (Evaluator.cedarRequest time req resourceName policyId principal).resource with h | h <;> simp [h]
    · rw [ne_eq, Sample.reevaluated_permitting]
      decide
  · refine ⟨Sample.permitting "" ["Forward"], ?_, ?_⟩
    · rw [← Bool.not_eq_true, Sample.evaluateV2_permitting]
      rintro ⟨-, hmem⟩
      rcases haction (Evaluator.cedarRequest time req resourceName policyId principal).resource with h | h <;>
        simp [h] at hmem
    · rw [Sample.reevaluated_permitting]
      decide

namespace Sample

/-- The policies permit tool calls, in the terms of Gate 3. -/
def toolCalls : CedarEngine := permitting toolsOnly ["tools/call"]

/-- The policies permit `Forward`, in the terms of the older interface. -/
def forwards : CedarEngine :=
  permitting "permit(principal, action == ThoughtGate::Action::\"Forward\", resource);" ["Forward"]

/-- The default policies permit all four actions. -/
def defaults : CedarEngine := permitting permitAll ["tools/call", "mcp/method", "Forward", "Approve"]

/-- A production evaluator that asks these policies about the tool `read`. -/
def guarded (e : CedarEngine) : Evaluator :=
  { evaluator [{ id := "files" }] .deny [{ pattern := "read", action := .policy }] with cedarEngine := some e }

def evaluated (e : CedarEngine) : (EvaluateResponse × EvalTrace) × TaskStore :=
  (guarded e).evaluateWithPrincipal evalEnv (.new {}) readCall none

def approval : ApprovalRecord where
  decision := .approved
  decidedBy := "alice"
  decidedAt := 1000000000
  approvalValidUntil := 61000000000
  metadata := none

end Sample

/-- Policies that permit tool calls let the request through and fail it, unchanged, once it is approved; policies that
permit `Forward` forbid it and let it pass. -/
theorem drift_without_change :
    ∃ task, Evaluator.decision (Sample.evaluated Sample.toolCalls) = .pendingApproval ∧
      (Sample.evaluated Sample.toolCalls).2.get "tg_1" = .ok task ∧
      OpenedFor task Sample.readCall "read" Sample.principal ∧
      (Sample.toolCalls.evaluateV2
        (Evaluator.cedarRequest Sample.evalEnv.time Sample.readCall "read" "default" Sample.principal)).isPermit = true ∧
      reevaluated Sample.toolCalls task Sample.approval =
        .error ⟨.policyDrift, "Policy changed - request no longer permitted", false⟩ ∧
      (Sample.forwards.evaluateV2
        (Evaluator.cedarRequest Sample.evalEnv.time Sample.readCall "read" "default" Sample.principal)).isPermit = false ∧
      reevaluated Sample.forwards task Sample.approval = .ok () := by
  have hpending : Evaluator.decision (Sample.evaluated Sample.toolCalls) = .pendingApproval := by
    decide
  obtain ⟨resourceName, hname, id, task, hid, hget, hopen⟩ := Evaluator.evaluateWithPrincipal_opens hpending
  have hread : extractResourceName Sample.readCall.method Sample.readCall.params = some "read" := rfl
  have hid' : (Sample.evaluated Sample.toolCalls).1.1.taskId = some "tg_1" := by
    decide
  obtain rfl : id = "tg_1" := Option.some.inj (hid.symm.trans hid')
  obtain rfl : resourceName = "read" := Option.some.inj (hname.symm.trans hread)
  refine ⟨task, hpending, hget, hopen, by decide, reevaluated_error ?_, by decide, ?_⟩
  · rw [ne_eq, Sample.toolCalls, Sample.reevaluated_permitting]
    decide
  · rw [Sample.forwards, Sample.reevaluated_permitting]
    decide

theorem reevaluation_agrees_iff_sample :
    ∃ task, OpenedFor task Sample.readCall "read" Sample.principal ∧
      (Sample.defaults.evaluateV2
        (Evaluator.cedarRequest Sample.evalEnv.time Sample.readCall "read" "default" Sample.principal)).isPermit = true ∧
      reevaluated Sample.defaults task Sample.approval = .ok () := by
  have hpending : Evaluator.decision (Sample.evaluated Sample.defaults) = .pendingApproval := by
    decide
  obtain ⟨resourceName, hname, id, task, hid, hget, hopen⟩ := Evaluator.evaluateWithPrincipal_opens hpending
  have hread : extractResourceName Sample.readCall.method Sample.readCall.params = some "read" := rfl
  obtain rfl : resourceName = "read" := Option.some.inj (hname.symm.trans hread)
  have hpermit : (Sample.defaults.evaluateV2
      (Evaluator.cedarRequest Sample.evalEnv.time Sample.readCall "read" "default" Sample.principal)).isPermit = true := by
    decide
  have hgate : gateAllows Sample.defaults.snapshot.policies Sample.evalEnv.time Sample.readCall "read" "default"
      Sample.principal = true := by
    rw [← evaluateV2_isPermit]
    exact hpermit
  have hiff := reevaluation_agrees_iff Sample.defaults Sample.defaults Sample.evalEnv.time Sample.evalEnv.time
    Sample.readCall "read" "default" Sample.principal task Sample.approval hopen
  have hagree := hiff.mpr ⟨fun _ _ => rfl, fun _ => hgate⟩
  exact ⟨task, hopen, hpermit, hagree.1 rfl hpermit⟩

end

end ThoughtGate
