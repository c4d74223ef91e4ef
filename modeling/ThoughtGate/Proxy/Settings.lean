import ThoughtGate.Approval.Redact
import ThoughtGate.Config.Validate
import ThoughtGate.Gate.FailedStart
import ThoughtGate.Proxy.Routing

/-!
# The settings of an approval

A workflow says how long an approval may take, what happens when nobody decides, what is redacted and how long a
connection is held. Gate 4 and the proxy look it up by the name that the matching rule carries, and only by that name:
a rule without one gets no workflow, although `validate` accepts it as the choice of the only workflow there is (V-006b).
Then the engine's and the handler's defaults are in force and nothing is redacted. The legacy path looks the workflow up
for its redaction alone.

What is submitted to the scheduler is seen from outside: it is the request on whose answer the evaluation turns
(`Submits`).
-/

namespace ThoughtGate

/-! ### What the scheduler is asked -/

/-- What an evaluation comes to, for each way in which the scheduler may answer. -/
abbrev Outcome := (ApprovalRequest → Except String Unit) → (EvaluateResponse × EvalTrace) × TaskStore

/-- The scheduler is asked about this request and about no other. -/
structure Submits (outcome : Outcome) (r : ApprovalRequest) : Prop where
  only : ∀ submit submit', submit r = submit' r → outcome submit = outcome submit'
  asked : outcome (fun _ => .ok ()) ≠ outcome (fun _ => .error "")

theorem Submits.redactFields_eq {outcome : Outcome} {r r' : ApprovalRequest} (h : Submits outcome r)
    (h' : Submits outcome r') : r.redactFields = r'.redactFields := by
  by_contra hne
  -- answers that tell the two requests apart
  let submit : ApprovalRequest → Except String Unit :=
    fun x => if x.redactFields = r.redactFields then .ok () else .error ""
  have hok : outcome submit = outcome fun _ => .ok () := h.only _ _ (if_pos rfl)
  have herror : outcome submit = outcome fun _ => .error "" := h'.only _ _ (if_neg (Ne.symm hne))
  exact h.asked (hok.symm.trans herror)

/-- A task has been created with this time to live and this action, and the scheduler, if there is one, is asked about
these arguments with these fields redacted. -/
structure Opened (outcome : Outcome) (id : TaskId) (arguments : Value) (ttl : Duration) (onTimeout : TimeoutAction)
    (asked : Bool) (redactFields : List String) : Prop where
  stored : ∀ submit, ∃ e, (outcome submit).2.tasks.lookup id = some e ∧ e.task.ttl = ttl ∧ e.task.onTimeout = onTimeout
  submits : asked = true → ∃ r, Submits outcome r ∧ r.toolArguments = arguments ∧ r.redactFields = redactFields
  silent : asked = false → ∀ r, ¬ Submits outcome r

/-- The settings of the workflow are those of the task and of what is submitted, and no field that it lists can be read
in the message to the humans. -/
structure SettingsOf (w : HumanWorkflow) (outcome : Outcome) (submit : ApprovalRequest → Except String Unit)
    (id : TaskId) : Prop where
  timeout : ∀ e, (outcome submit).2.tasks.lookup id = some e → e.task.ttl = w.timeoutOrDefault
  onTimeout : ∀ e, (outcome submit).2.tasks.lookup id = some e → e.task.onTimeout = w.onTimeoutOrDefault
  redactFields : ∀ r, Submits outcome r → r.redactFields = w.redactFields.getD []
  redacted : ∀ r, Submits outcome r → ∀ field ∈ w.redactFields.getD [], Redact.Hidden (Redact.parts field) r.displayArgs

theorem Opened.settingsOf_iff {outcome : Outcome} {id : TaskId} {arguments : Value} {ttl : Duration}
    {onTimeout : TimeoutAction} {asked : Bool} {redactFields : List String}
    (h : Opened outcome id arguments ttl onTimeout asked redactFields)
    (w : HumanWorkflow) (submit : ApprovalRequest → Except String Unit) :
    SettingsOf w outcome submit id ↔
      ttl = w.timeoutOrDefault ∧ onTimeout = w.onTimeoutOrDefault ∧
        (asked = true → redactFields = w.redactFields.getD []) := by
  obtain ⟨e, he, httl, honTimeout⟩ := h.stored submit
  constructor
  · intro hsettings
    refine ⟨httl.symm.trans (hsettings.timeout e he), honTimeout.symm.trans (hsettings.onTimeout e he), fun hasked => ?_⟩
    obtain ⟨r, hr, -, hfields⟩ := h.submits hasked
    exact hfields.symm.trans (hsettings.redactFields r hr)
  · rintro ⟨hwttl, hwonTimeout, hredact⟩
    have hfields : ∀ r, Submits outcome r → r.redactFields = w.redactFields.getD [] := by
      intro r hr
      cases asked with
      | false => exact absurd hr (h.silent rfl r)
      | true =>
        obtain ⟨r', hr', -, hr'fields⟩ := h.submits rfl
        rw [hr.redactFields_eq hr', hr'fields, hredact rfl]
    refine ⟨fun e' he' => ?_, fun e' he' => ?_, hfields, fun r hr field hmem => ?_⟩
    · rw [he] at he'
      cases he'
      exact httl.trans hwttl
    · rw [he] at he'
      cases he'
      exact honTimeout.trans hwonTimeout
    · rw [← hfields r hr] at hmem
      exact ApprovalRequest.displayArgs_hidden hmem

section

variable [F64.Fmt] [Sha256]

namespace TaskStore

theorem create_error_tasks {s s' : TaskStore} {id : TaskId} {now : DateTime} {orig pre : ToolCallRequest}
    {principal : Principal} {ttl : Option Duration} {onTimeout : TimeoutAction} {e : TaskError}
    (h : s.create id now orig pre principal ttl onTimeout = (.error e, s')) : s'.tasks = s.tasks := by
  have herr : (s.create id now orig pre principal ttl onTimeout).1 = .error e := by rw [h]
  have hs' : (s.create id now orig pre principal ttl onTimeout).2 = s' := by rw [h]
  rcases create_error herr with ⟨-, hs⟩ | ⟨-, hs⟩
  · rw [← hs', hs]
  · rw [← hs', hs, bounced_tasks]

/-- A created task has the settings it was created with, and keeps them in its first move. -/
theorem settings_of_create {s s₁ s₂ : TaskStore} {id : TaskId} {now moved : DateTime} {orig pre : ToolCallRequest}
    {principal : Principal} {ttl : Duration} {onTimeout : TimeoutAction} {newStatus : TaskStatus}
    {reason : Option String} {task task' : Task}
    (hcreate : s.create id now orig pre principal (some ttl) onTimeout = (.ok task, s₁))
    (hmove : s₁.transition moved task.id newStatus reason = (.ok task', s₂)) :
    ∃ e, s₂.tasks.lookup id = some e ∧ e.task.ttl = clamp ttl s.config.minTtl s.config.maxTtl ∧
      e.task.onTimeout = onTimeout := by
  obtain ⟨hid, -, -, e, he, hetask⟩ := lookup_of_create hcreate
  rw [← hid] at he
  obtain ⟨hget, hsame⟩ := get_ok_of_transition he hmove
  rw [hetask] at hsame
  obtain ⟨⟨-, -, hnew, -⟩, -⟩ := admits_of_create hcreate
  have hsettings : task.ttl = clamp ttl s.config.minTtl s.config.maxTtl ∧ task.onTimeout = onTimeout := by
    unfold Task.new at hnew
    cases hhash : hashRequest pre with
    | error err =>
      rw [hhash] at hnew
      cases hnew
    | ok hash =>
      rw [hhash] at hnew
      cases hnew
      exact ⟨rfl, rfl⟩
  unfold get at hget
  cases hlookup : s₂.tasks.lookup task.id with
  | none =>
    rw [hlookup] at hget
    cases hget
  | some e₂ =>
    rw [hlookup] at hget
    cases hget
    rw [← hid]
    exact ⟨e₂, hlookup, hsame.ttl.trans hsettings.1, hsame.onTimeout.trans hsettings.2⟩

end TaskStore

namespace Evaluator

variable [PipelineLib] {env : StartEnv} {store : TaskStore} {request : ToolCallRequest}
  {workflow : Option HumanWorkflow} {policyId : Option String} {principal : Principal} {trace : EvalTrace}

/-- The engine takes what the workflow says, or else its own defaults. -/
theorem startWithEngine_opened {engine : Engine} (hnew : store.tasks.lookup env.id = none)
    (hcreated : (startWithEngine engine env store request workflow policyId principal trace).2.tasks.lookup env.id ≠
      none) :
    Opened (fun submit => startWithEngine engine { env with submit } store request workflow policyId principal trace)
      env.id request.arguments
      (TaskStore.clamp ((workflow.map (·.timeoutOrDefault)).getD engine.approvalTimeout) store.config.minTtl
        store.config.maxTtl)
      ((workflow.map (·.onTimeoutOrDefault)).getD engine.onTimeout) true ((workflow.bind (·.redactFields)).getD []) := by
  cases hpre : engine.pipeline.preApprovalAmber env.inspect request with
  | error e =>
    simp only [startWithEngine, Engine.startApproval, hpre] at hcreated
    exact absurd hnew hcreated
  | ok pre =>
    cases hcreate : store.create env.id env.created request pre.transformedRequest principal
        (some ((workflow.map (·.timeoutOrDefault)).getD engine.approvalTimeout))
        ((workflow.map (·.onTimeoutOrDefault)).getD engine.onTimeout) with
    | mk answer s₁ =>
      cases answer with
      | error e =>
        simp only [startWithEngine, Engine.startApproval, hpre, hcreate, TaskStore.create_error_tasks hcreate] at hcreated
        exact absurd hnew hcreated
      | ok task =>
        obtain ⟨hadmits, rfl⟩ := TaskStore.admits_of_create hcreate
        obtain ⟨t', s₂, hmove, -⟩ := TaskStore.admitted_transition hadmits env.moved
        have hstored := TaskStore.settings_of_create hcreate hmove
        refine ⟨fun submit => ?_, fun _ => ?_, fun h => by cases h⟩
        · obtain ⟨e, he, httl, honTimeout⟩ := hstored
          refine ⟨e, ?_, httl, honTimeout⟩
          simp only [startWithEngine, Engine.startApproval, hpre, hcreate, hmove]
          cases submit ⟨task.id, request.name, request.arguments, principal, task.expiresAt, task.createdAt,
            env.correlationId, (workflow.bind (·.redactFields)).getD []⟩ <;> exact he
        · refine ⟨⟨task.id, request.name, request.arguments, principal, task.expiresAt, task.createdAt,
            env.correlationId, (workflow.bind (·.redactFields)).getD []⟩, ⟨fun submit submit' heq => ?_, fun h => ?_⟩, rfl, rfl⟩
          · simp only [startWithEngine, Engine.startApproval, hpre, hcreate, hmove, heq]
          · have hdecision := congrArg decision h
            simp only [startWithEngine, Engine.startApproval, hpre, hcreate, hmove, decision, deny] at hdecision
            cases hdecision

omit [PipelineLib] in
/-- The legacy path has settings of its own, and takes from the workflow what is redacted. -/
theorem startLegacy_opened {hasScheduler : Bool} (hnew : store.tasks.lookup env.id = none)
    (hcreated : (startLegacy hasScheduler env store request workflow policyId principal trace).2.tasks.lookup env.id ≠
      none) :
    Opened (fun submit => startLegacy hasScheduler { env with submit } store request workflow policyId principal trace)
      env.id request.arguments
      (TaskStore.clamp (Duration.fromSecs defaultApprovalTtlSecs) store.config.minTtl store.config.maxTtl) .deny
      hasScheduler ((workflow.bind (·.redactFields)).getD []) := by
  cases hcreate : store.create env.id env.created request request principal
      (some (Duration.fromSecs defaultApprovalTtlSecs)) .deny with
  | mk answer s₁ =>
    cases answer with
    | error e =>
      simp only [startLegacy, hcreate, TaskStore.create_error_tasks hcreate] at hcreated
      exact absurd hnew hcreated
    | ok task =>
      obtain ⟨hadmits, rfl⟩ := TaskStore.admits_of_create hcreate
      obtain ⟨t', s₂, hmove, -, e₂, he₂, hst₂⟩ := TaskStore.admitted_transition hadmits env.moved
      have hstored := TaskStore.settings_of_create hcreate hmove
      refine ⟨fun submit => ?_, fun hasked => ?_, fun hsilent r hr => ?_⟩
      · obtain ⟨e, he, httl, honTimeout⟩ := hstored
        refine ⟨e, ?_, httl, honTimeout⟩
        simp only [startLegacy, hcreate, hmove]
        split
        · -- the clean-up after a refusal is refused itself
          cases submit ⟨task.id, request.name, request.arguments, principal, task.expiresAt, env.moved, task.id,
            (workflow.bind (·.redactFields)).getD []⟩ with
          | error e' => exact (congrArg (fun s => s.tasks.lookup env.id)
              (TaskStore.transition_failed_refused he₂ hst₂ _)).trans he
          | ok u => exact he
        · exact he
      · subst hasked
        refine ⟨⟨task.id, request.name, request.arguments, principal, task.expiresAt, env.moved, task.id,
          (workflow.bind (·.redactFields)).getD []⟩, ⟨fun submit submit' heq => ?_, fun h => ?_⟩, rfl, rfl⟩
        · simp only [startLegacy, hcreate, hmove, heq]
        · have hdecision := congrArg decision h
          simp only [startLegacy, hcreate, hmove, decision, deny, if_true] at hdecision
          cases hdecision
      · subst hsilent
        refine hr.asked ?_
        simp only [startLegacy, hcreate, hmove, Bool.false_eq_true, if_false]

end Evaluator

end

/-! ### The workflow of a rule -/

section

variable [Glob]

namespace Config

/-- The workflow that a rule asks for: the one that it names, or the only one that there is. -/
def applicableWorkflow (config : Config) (found : MatchResult) : Option HumanWorkflow :=
  match found.approvalWorkflow, config.approval.getD [] with
  | some name, _ => config.getWorkflow name
  | none, [(_, workflow)] => some workflow
  | none, _ => none

theorem applicableWorkflow_named (config : Config) {found : MatchResult} {name : String}
    (h : found.approvalWorkflow = some name) : config.applicableWorkflow found = config.getWorkflow name := by
  unfold applicableWorkflow
  rw [h]

end Config

variable [Cedar]

namespace Evaluator

/-- How long an approval may take where no workflow is looked up. -/
def defaultTtl (ev : Evaluator) : Duration :=
  match ev.approvalEngine with
  | some engine => engine.approvalTimeout
  | none => Duration.fromSecs defaultApprovalTtlSecs

/-- What happens to an approval without a decision where no workflow is looked up. -/
def defaultOnTimeout (ev : Evaluator) : TimeoutAction :=
  match ev.approvalEngine with
  | some engine => engine.onTimeout
  | none => .deny

/-- There is somebody to submit an approval to. -/
def asks (ev : Evaluator) : Bool := ev.approvalEngine.isSome || ev.hasScheduler

/-- What Gate 2 finds for a request. -/
def found (ev : Evaluator) (req : EvaluateRequest) (name : String) : MatchResult :=
  ev.config.governance.evaluate name req.serverId

variable [F64.Fmt] [Sha256] [PipelineLib]

omit [F64.Fmt] [Sha256] [PipelineLib] in
/-- A governed request comes to Gate 4: by a rule or a default that asks for an approval, or by a policy that permits
it. -/
structure ReachesGate4 [F64.Fmt] [F64.Display] (ev : Evaluator) (time : TimeContext) (req : EvaluateRequest)
    (principal : Principal) (name : String) : Prop where
  production : ev.profile = .production
  request : req.messageType = .request
  direction : req.direction = .agentToServer
  gated : methodRequiresGates req.method = true
  named : extractResourceName req.method req.params = some name
  visible : hidden ev.config req.serverId name = none
  passed : (ev.found req name).action = .approve ∨ (ev.found req name).action = .policy ∧
    ∃ engine ids, ev.cedarEngine = some engine ∧
      engine.evaluateV2 (cedarRequest time req name ((ev.found req name).policyId.getD "default") principal) = .permit ids

theorem startApproval_opened {ev : Evaluator} (hprod : ev.profile = .production) {env : EvalEnv} {store : TaskStore}
    {req : EvaluateRequest} {name : String} {policyId approvalWorkflow : Option String} {principal : Principal}
    {trace : EvalTrace} (hnew : store.tasks.lookup env.start.id = none)
    (hcreated : (ev.startApproval env store req name policyId approvalWorkflow principal trace).2.tasks.lookup
      env.start.id ≠ none) :
    let workflow := approvalWorkflow.bind ev.config.getWorkflow
    Opened (fun submit => ev.startApproval { env with start := { env.start with submit } } store req name policyId
        approvalWorkflow principal trace) env.start.id (extractArguments req.params)
      (TaskStore.clamp (if ev.approvalEngine.isSome then (workflow.map (·.timeoutOrDefault)).getD ev.defaultTtl
        else ev.defaultTtl) store.config.minTtl store.config.maxTtl)
      (if ev.approvalEngine.isSome then (workflow.map (·.onTimeoutOrDefault)).getD ev.defaultOnTimeout
        else ev.defaultOnTimeout)
      ev.asks ((workflow.bind (·.redactFields)).getD []) := by
  have hdev : ¬ ev.profile = .development := by simp [hprod]
  unfold startApproval at hcreated ⊢
  rw [if_neg hdev] at hcreated
  simp only [if_neg hdev, defaultTtl, defaultOnTimeout, asks]
  cases hengine : ev.approvalEngine with
  | some engine =>
    rw [hengine] at hcreated
    simp only [Option.isSome_some, if_true, Bool.true_or]
    exact startWithEngine_opened hnew hcreated
  | none =>
    rw [hengine] at hcreated
    simp only [Option.isSome_none, Bool.false_eq_true, if_false, Bool.false_or]
    exact startLegacy_opened hnew hcreated

variable [F64.Display]

/-- At Gate 4 an evaluation is the start of an approval, under the name that the rule carries. -/
theorem ReachesGate4.evaluate_eq {ev : Evaluator} {time : TimeContext} {req : EvaluateRequest}
    {principalOverride : Option Principal} {name : String}
    (h : ReachesGate4 ev time req (principalOverride.getD ev.principal) name) (store : TaskStore) :
    ∃ policyId trace, ∀ start : StartEnv, ev.evaluateWithPrincipal ⟨time, start⟩ store req principalOverride =
      ev.startApproval ⟨time, start⟩ store req name policyId (ev.found req name).approvalWorkflow
        (principalOverride.getD ev.principal) trace := by
  have hpassed := h.passed
  unfold evaluateWithPrincipal
  simp only [h.request, h.direction, ne_eq, not_true_eq_false, or_self, if_false, h.gated, Bool.not_true,
    Bool.false_eq_true, h.named, h.visible]
  change _ ∨ _ ∧ _ at hpassed
  unfold found at hpassed ⊢
  rcases hpassed with haction | ⟨haction, engine, ids, hengine, hpermit⟩
  · rw [haction]
    exact ⟨_, _, fun start => rfl⟩
  · rw [haction]
    dsimp only
    unfold evaluateCedar
    rw [hengine]
    dsimp only
    rw [hpermit]
    exact ⟨_, _, fun start => rfl⟩

/-- The evaluation of a request, for each way in which the scheduler may answer. -/
def outcome (ev : Evaluator) (env : EvalEnv) (store : TaskStore) (req : EvaluateRequest)
    (principalOverride : Option Principal) : Outcome :=
  fun submit => ev.evaluateWithPrincipal { env with start := { env.start with submit } } store req principalOverride

omit [F64.Fmt] [Sha256] [PipelineLib] [F64.Display] in
/-- The rule names the workflow, or what takes its place says the same. -/
structure InForce (ev : Evaluator) (limits : TaskStoreConfig) (named : Bool) (w : HumanWorkflow) : Prop where
  timeout : TaskStore.clamp (if ev.approvalEngine.isSome && named then w.timeoutOrDefault else ev.defaultTtl)
    limits.minTtl limits.maxTtl = w.timeoutOrDefault
  onTimeout : (ev.approvalEngine.isSome && named) = true ∨ ev.defaultOnTimeout = w.onTimeoutOrDefault
  redactFields : named = true ∨ ev.asks = false ∨ w.redactFields.getD [] = []

theorem outcome_opened {ev : Evaluator} {env : EvalEnv} {store : TaskStore} {req : EvaluateRequest}
    {principalOverride : Option Principal} {name : String}
    (hreach : ReachesGate4 ev env.time req (principalOverride.getD ev.principal) name)
    (hnew : store.tasks.lookup env.start.id = none)
    (hcreated : (ev.evaluateWithPrincipal env store req principalOverride).2.tasks.lookup env.start.id ≠ none) :
    let workflow := (ev.found req name).approvalWorkflow.bind ev.config.getWorkflow
    Opened (ev.outcome env store req principalOverride) env.start.id (extractArguments req.params)
      (TaskStore.clamp (if ev.approvalEngine.isSome then (workflow.map (·.timeoutOrDefault)).getD ev.defaultTtl
        else ev.defaultTtl) store.config.minTtl store.config.maxTtl)
      (if ev.approvalEngine.isSome then (workflow.map (·.onTimeoutOrDefault)).getD ev.defaultOnTimeout
        else ev.defaultOnTimeout)
      ev.asks ((workflow.bind (·.redactFields)).getD []) := by
  obtain ⟨policyId, trace, heq⟩ := hreach.evaluate_eq store
  have hout : ev.outcome env store req principalOverride = fun submit =>
      ev.startApproval { env with start := { env.start with submit } } store req name policyId
        (ev.found req name).approvalWorkflow (principalOverride.getD ev.principal) trace := by
    funext submit
    exact heq { env.start with submit }
  rw [hout]
  have hstart := heq env.start
  rw [hstart] at hcreated
  exact startApproval_opened hreach.production hnew hcreated

/-- The task and the submission have the settings of the applicable workflow exactly where these are in force. -/
theorem settingsOf_iff {ev : Evaluator} {env : EvalEnv} {store : TaskStore} {req : EvaluateRequest}
    {principalOverride : Option Principal} {name : String} {w : HumanWorkflow}
    (hreach : ReachesGate4 ev env.time req (principalOverride.getD ev.principal) name)
    (hnew : store.tasks.lookup env.start.id = none)
    (hcreated : (ev.evaluateWithPrincipal env store req principalOverride).2.tasks.lookup env.start.id ≠ none)
    (hw : ev.config.applicableWorkflow (ev.found req name) = some w) :
    SettingsOf w (ev.outcome env store req principalOverride) env.start.submit env.start.id ↔
      InForce ev store.config (ev.found req name).approvalWorkflow.isSome w := by
  have hopened := outcome_opened hreach hnew hcreated
  dsimp only at hopened
  rw [hopened.settingsOf_iff w env.start.submit]
  cases happroval : (ev.found req name).approvalWorkflow with
  | some workflow =>
    rw [Config.applicableWorkflow_named _ happroval] at hw
    rw [Option.bind_some, hw]
    simp only [Option.map_some, Option.getD_some, Option.bind_some, Option.isSome_some]
    constructor
    · rintro ⟨httl, honTimeout, -⟩
      refine ⟨by rwa [Bool.and_true], ?_, Or.inl rfl⟩
      rw [Bool.and_true]
      by_cases hengine : ev.approvalEngine.isSome = true
      · exact Or.inl hengine
      · rw [if_neg hengine] at honTimeout
        exact Or.inr honTimeout
    · rintro ⟨httl, honTimeout, -⟩
      rw [Bool.and_true] at httl honTimeout
      refine ⟨httl, ?_, fun _ => trivial⟩
      split
      · rfl
      · next hengine => exact honTimeout.resolve_left hengine
  | none =>
    simp only [Option.bind_none, Option.map_none, Option.getD_none, ite_self, Option.isSome_none]
    constructor
    · rintro ⟨httl, honTimeout, hredact⟩
      refine ⟨by rwa [Bool.and_false, if_neg Bool.false_ne_true], Or.inr honTimeout, Or.inr ?_⟩
      by_cases hasks : ev.asks = true
      · exact Or.inr (hredact hasks).symm
      · exact Or.inl (Bool.eq_false_of_not_eq_true hasks)
    · rintro ⟨httl, honTimeout, hredact⟩
      rw [Bool.and_false, if_neg Bool.false_ne_true] at httl
      refine ⟨httl, ?_, fun hasks => ?_⟩
      · rcases honTimeout with h | h
        · rw [Bool.and_false] at h
          cases h
        · exact h
      · rcases hredact with h | h | h
        · cases h
        · rw [hasks] at h
          cases h
        · exact h.symm

end Evaluator

/-! ### How long a connection is held -/

namespace McpState

variable [F64.Fmt] [Sha256] [PipelineLib] [F64.Display]

/-- A blocking approval is waited for as long as the match of its resource says. -/
theorem routeThroughGates_blocking {state : McpState} {ev : Evaluator} (hstate : state.Asks ev) {env : EvalEnv}
    {store : TaskStore} {principal : Option Principal} {request : McpRequest} {id : TaskId} {name : String}
    {requestId : Option JsonRpcId} {blockingTimeout pollInterval : Duration}
    (h : (state.routeThroughGates env store principal request).result =
      .blockingApproval id name requestId blockingTimeout pollInterval) :
    blockingTimeout = state.blockingTimeout (ev.config.governance.evaluate name state.getSourceId).approvalWorkflow := by
  unfold routeThroughGates at h
  rw [hstate.1, hstate.2] at h
  dsimp only at h
  split at h
  · cases h
  · split at h
    · cases h
    · unfold act at h
      split at h
      · cases h
      · cases h
      · dsimp only at h
        split at h
        · split at h
          · cases h
            rfl
          · cases h
        · cases h

omit [F64.Fmt] [Sha256] [PipelineLib] [F64.Display] in
theorem blockingTimeout_eq_iff {state : McpState} {config : Config} (hconfig : state.config = some config)
    {found : MatchResult} {w : HumanWorkflow} (hw : config.applicableWorkflow found = some w) :
    state.blockingTimeout found.approvalWorkflow = w.blockingTimeoutOrDefault ↔
      found.approvalWorkflow.isSome = true ∨
        Duration.fromSecs state.blockingApprovalTimeoutSecs = w.blockingTimeoutOrDefault := by
  unfold blockingTimeout
  cases happroval : found.approvalWorkflow with
  | some workflow =>
    rw [Config.applicableWorkflow_named _ happroval] at hw
    rw [hconfig, Option.bind_some, Option.bind_some, hw]
    exact iff_of_true rfl (Or.inl rfl)
  | none => simp

end McpState

variable [F64.Fmt] [Sha256] [PipelineLib] [F64.Display]

/-- The settings of an approval are those of the applicable workflow exactly if the matching rule names it, with an
engine and within the limits of the store, or the defaults in its place happen to say the same; and a connection is
held as long as the workflow says exactly if the rule names it or the handler's default is the same. -/
theorem approval_settings_iff (ev : Evaluator) :
    (∀ (env : EvalEnv) (store : TaskStore) (req : EvaluateRequest) (principalOverride : Option Principal) (name : String)
      (w : HumanWorkflow),
      ev.ReachesGate4 env.time req (principalOverride.getD ev.principal) name →
      store.tasks.lookup env.start.id = none →
      (ev.evaluateWithPrincipal env store req principalOverride).2.tasks.lookup env.start.id ≠ none →
      ev.config.applicableWorkflow (ev.found req name) = some w →
      (SettingsOf w (ev.outcome env store req principalOverride) env.start.submit env.start.id ↔
        ev.InForce store.config (ev.found req name).approvalWorkflow.isSome w)) ∧
    ∀ (state : McpState) (env : EvalEnv) (store : TaskStore) (principal : Option Principal) (request : McpRequest)
      (id : TaskId) (name : String) (requestId : Option JsonRpcId) (blockingTimeout pollInterval : Duration)
      (w : HumanWorkflow),
      state.Asks ev →
      (state.routeThroughGates env store principal request).result =
        .blockingApproval id name requestId blockingTimeout pollInterval →
      ev.config.applicableWorkflow (ev.config.governance.evaluate name state.getSourceId) = some w →
      (blockingTimeout = w.blockingTimeoutOrDefault ↔
        (ev.config.governance.evaluate name state.getSourceId).approvalWorkflow.isSome = true ∨
          Duration.fromSecs state.blockingApprovalTimeoutSecs = w.blockingTimeoutOrDefault) := by
  refine ⟨?_, ?_⟩
  · intro env store req principalOverride name w hreach hnew hcreated hw
    exact Evaluator.settingsOf_iff hreach hnew hcreated hw
  · intro state env store principal request id name requestId blockingTimeout pollInterval w hstate hrouted hw
    rw [McpState.routeThroughGates_blocking hstate hrouted]
    exact McpState.blockingTimeout_eq_iff hstate.2 hw

end

section

attribute [local instance] Sample.glob Sample.cedar Sample.f64Fmt Sample.f64Display Sample.sha256 Sample.pipelineLib

namespace Sample

/-- Half an hour to decide, five minutes on the line, and no passwords. -/
def careful : HumanWorkflow where
  timeout := some (Duration.fromSecs 1800)
  onTimeout := some .deny
  blockingTimeout := some (Duration.fromSecs 120)
  redactFields := some ["password"]

/-- The tool `read` needs an approval, for which there is one workflow. -/
def approving (approval : Option String) : Evaluator :=
  { evaluator [{ id := "upstream" }] .deny [{ pattern := "read", action := .approve, approval }] with
    config := {
      sources := [{ id := "upstream" }]
      governance := { defaultAction := .deny, rules := [{ pattern := "read", action := .approve, approval }] }
      approval := some [("ops", careful)] }
    approvalEngine := some engine }

/-- A call with a password. -/
def secretCall : EvaluateRequest :=
  { toolCall (some (.object
      [("name", .string "read"), ("arguments", .object [("password", .string "hunter2")])])) with
    serverId := "upstream" }

theorem secretCall_reaches (approval : Option String) :
    (approving approval).ReachesGate4 evalEnv.time secretCall principal "read" where
  production := rfl
  request := rfl
  direction := rfl
  gated := rfl
  named := rfl
  visible := rfl
  passed := Or.inl rfl

end Sample

theorem Sample.secretCall_creates (approval : Option String) (h : approval = none ∨ approval = some "ops") :
    ((approving approval).evaluateWithPrincipal evalEnv (.new {}) secretCall none).2.tasks.lookup "tg_1" ≠ none := by
  rw [← Option.isSome_iff_ne_none]
  rcases h with rfl | rfl <;> decide

theorem approval_settings_iff_sample :
    SettingsOf Sample.careful ((Sample.approving (some "ops")).outcome Sample.evalEnv (.new {}) Sample.secretCall none)
      Sample.evalEnv.start.submit "tg_1" := by
  refine ((approval_settings_iff (Sample.approving (some "ops"))).1 Sample.evalEnv (.new {}) Sample.secretCall none "read"
    Sample.careful (Sample.secretCall_reaches _) rfl (Sample.secretCall_creates _ (Or.inr rfl)) rfl).mpr ⟨?_, ?_, ?_⟩
  · decide
  · exact Or.inl rfl
  · exact Or.inl rfl

namespace Sample

/-- A proxy with this evaluator, and the call without task metadata. -/
def holding (ev : Evaluator) : McpState := { proxy ev with approvalEngine := ev.approvalEngine }

def heldCall : McpRequest where
  id := some (.number 1)
  method := "tools/call"
  params := secretCall.params
  taskMetadata := none

/-- How long the connection is held, if it is. -/
def held : GateResult → Option Duration
  | .blockingApproval _ _ _ blockingTimeout _ => some blockingTimeout
  | .immediate _ => none

end Sample

/-- `validate` accepts a rule that leaves the choice of the only workflow to it. Then the password is shown to the
humans, the task lives as long as the engine says, and the connection is held as long as the handler says. -/
theorem settings_dropped :
    (Sample.approving none).config.validate .v02 = .ok () ∧
      (Sample.approving none).config.applicableWorkflow ((Sample.approving none).found Sample.secretCall "read") =
        some Sample.careful ∧
      (∃ r, Submits ((Sample.approving none).outcome Sample.evalEnv (.new {}) Sample.secretCall none) r ∧
        (Redact.valueAt ["password"] r.displayArgs).bind Value.asStr = some "hunter2") ∧
      ¬ SettingsOf Sample.careful ((Sample.approving none).outcome Sample.evalEnv (.new {}) Sample.secretCall none)
        Sample.evalEnv.start.submit "tg_1" ∧
      Sample.held ((Sample.holding (Sample.approving none)).routeThroughGates Sample.evalEnv (.new {}) none
        Sample.heldCall).result = some (Duration.fromSecs 300) ∧
      Sample.careful.blockingTimeoutOrDefault = Duration.fromSecs 120 := by
  have hreach : (Sample.approving none).ReachesGate4 Sample.evalEnv.time Sample.secretCall
      (Option.getD none (Sample.approving none).principal) "read" := Sample.secretCall_reaches none
  have hnew : (TaskStore.new {}).tasks.lookup Sample.evalEnv.start.id = none := rfl
  have hopened := Evaluator.outcome_opened hreach hnew (Sample.secretCall_creates none (Or.inl rfl))
  obtain ⟨r, hr, hargs, hfields⟩ := hopened.submits rfl
  have hshown : r.displayArgs = .object [("password", .string "hunter2")] := by
    unfold ApprovalRequest.displayArgs
    rw [hargs, hfields]
    rfl
  refine ⟨rfl, rfl, ⟨r, hr, ?_⟩, fun h => ?_, by decide, rfl⟩
  · rw [hshown]
    rfl
  · have hredact := h.redactFields r hr
    rw [hfields] at hredact
    cases hredact

end

end ThoughtGate
