import ThoughtGate.Engine.Authorisation
import ThoughtGate.Gate.Evaluator
import ThoughtGate.Task.Failures

/-!
# Approvals that fail to start

Both ways to start an approval create a task, move it to `InputRequired` and submit it to the scheduler. A failure
before the submission leaves nothing behind. A refused submission leaves the task: the engine does not clean up, and
the legacy path tries to with a move from `InputRequired` to `Failed`, which the status machine does not have. So a
failed start leaves nothing exactly when the submission is not what failed (`failed_start_clean_iff`).
-/

namespace ThoughtGate

/-- What stands after a call was there before: no pending task more, and the same counters. -/
structure LeftNothing (s s' : TaskStore) : Prop where
  tasks : ∀ id e, s'.tasks.lookup id = some e → e.task.status.isTerminal = false → s.tasks.lookup id = some e
  pendingCount : s'.pendingCount = s.pendingCount
  principalCount : ∀ key, s'.principalCount key = s.principalCount key
  pendingBytes : s'.pendingBytes = s.pendingBytes

theorem LeftNothing.refl (s : TaskStore) : LeftNothing s s := ⟨fun _ _ he _ => he, rfl, fun _ => rfl, rfl⟩

section

variable [F64.Fmt] [Sha256]

namespace TaskStore

/-! ### A creation and its first move -/

/-- The limits leave room for the request, and `task` is what `Task::new` makes of it. -/
def Admits (s : TaskStore) (id : TaskId) (now : DateTime) (originalRequest preApprovalTransformed : ToolCallRequest)
    (principal : Principal) (ttl : Duration) (onTimeout : TimeoutAction) (task : Task) : Prop :=
  s.pendingCount < s.config.maxPendingGlobal ∧
    s.principalCount principal.rateLimitKey < s.config.maxPendingPerPrincipal ∧
    Task.new id now originalRequest preApprovalTransformed principal (clamp ttl s.config.minTtl s.config.maxTtl)
      onTimeout = .ok task ∧
    s.pendingBytes + estimateBytes task ≤ s.config.maxPendingBytes

variable {s s' : TaskStore} {id : TaskId} {now : DateTime} {orig pre : ToolCallRequest} {principal : Principal}
  {ttl : Duration} {onTimeout : TimeoutAction} {task : Task}

theorem create_of_admits (h : s.Admits id now orig pre principal ttl onTimeout task) :
    s.create id now orig pre principal (some ttl) onTimeout =
      (.ok task, s.admitted id task (estimateBytes task)) := by
  obtain ⟨hroom, hslots, hnew, hbytes⟩ := h
  obtain ⟨-, rfl, -⟩ := Task.new_ok hnew
  -- the store with the slots taken has the limits and the bytes of the one before
  obtain ⟨r, hr⟩ : ∃ r, r = { s with pendingCount := s.pendingCount + 1 }.principalEntry task.principal.rateLimitKey :=
    ⟨_, rfl⟩
  have hprev : r.principalCount task.principal.rateLimitKey = s.principalCount task.principal.rateLimitKey := by
    rw [hr, principalEntry_principalCount]
    rfl
  have hconfig : (r.addPrincipal task.principal.rateLimitKey).config = s.config := by
    rw [hr]
    exact principalEntry_config _ _
  have hsum : (r.addPrincipal task.principal.rateLimitKey).pendingBytes = s.pendingBytes := by
    rw [hr]
    exact principalEntry_pendingBytes _ _
  have hadmitted : s.admitted id task (estimateBytes task) =
      ({ r.addPrincipal task.principal.rateLimitKey with
          pendingBytes := (r.addPrincipal task.principal.rateLimitKey).pendingBytes + estimateBytes task }.put id
        ⟨task, none, 0, estimateBytes task⟩).indexTask task.principal.rateLimitKey id := by
    rw [hr]
    rfl
  rw [hadmitted]
  unfold create
  rw [if_neg (by omega)]
  dsimp only
  rw [← hr, if_neg (by rw [hconfig, hprev]; omega), Option.getD_some]
  split
  · rename_i e he
    rw [hconfig, hnew] at he
    cases he
  · rename_i made hmade
    rw [hconfig, hnew] at hmade
    cases hmade
    rw [if_neg (by rw [hconfig, hsum]; omega)]

theorem admits_of_create (h : s.create id now orig pre principal (some ttl) onTimeout = (.ok task, s')) :
    s.Admits id now orig pre principal ttl onTimeout task ∧ s' = s.admitted id task (estimateBytes task) := by
  have hadmits : s.Admits id now orig pre principal ttl onTimeout task := by
    unfold create at h
    split at h
    · cases h
    · rename_i hroom
      dsimp only at h
      split at h
      · cases h
      · rename_i hslots
        split at h
        · cases h
        · rename_i made hmade
          split at h
          · cases h
          · rename_i hbytes
            cases h
            simp only [addPrincipal, principalEntry_config, principalEntry_principalCount,
              principalEntry_pendingBytes] at hslots hmade hbytes
            exact ⟨Nat.lt_of_not_le hroom, Nat.lt_of_not_le hslots, hmade, Nat.le_of_not_lt hbytes⟩
  refine ⟨hadmits, ?_⟩
  rw [create_of_admits hadmits] at h
  cases h
  rfl

/-- A refused creation leaves nothing. -/
theorem leftNothing_of_create_error {ttl : Option Duration} {err : TaskError}
    (h : s.create id now orig pre principal ttl onTimeout = (.error err, s')) : LeftNothing s s' := by
  have herr : (s.create id now orig pre principal ttl onTimeout).1 = .error err := by rw [h]
  have hs' : (s.create id now orig pre principal ttl onTimeout).2 = s' := by rw [h]
  rcases create_error herr with ⟨_, hs⟩ | ⟨_, hs⟩
  · rw [← hs', hs]
    exact .refl s
  · rw [← hs', hs]
    obtain ⟨hcount, hbytes, hprincipal, -⟩ := bounced_counters s principal.rateLimitKey
    refine ⟨fun id e he _ => ?_, hcount, hprincipal, hbytes⟩
    rwa [bounced_tasks] at he

/-- The first move of an admitted task succeeds, and the task then waits for a decision. -/
theorem admitted_transition (h : s.Admits id now orig pre principal ttl onTimeout task) (moved : DateTime) :
    ∃ t' s₂, (s.admitted id task (estimateBytes task)).transition moved task.id .inputRequired none = (.ok t', s₂) ∧
      s₂.pendingCount = s.pendingCount + 1 ∧
      ∃ e, s₂.tasks.lookup task.id = some e ∧ e.task.status = .inputRequired := by
  obtain ⟨-, -, hnew, -⟩ := h
  obtain ⟨rfl, -, hst, -⟩ := Task.new_ok hnew
  have hcan : task.status.canTransitionTo .inputRequired = true := by
    rw [hst]
    rfl
  obtain ⟨t', ht⟩ := Task.transition_of_can moved none hcan
  have hlookup : (s.admitted task.id task (estimateBytes task)).tasks.lookup task.id =
      some ⟨task, none, 0, estimateBytes task⟩ := by simp
  have hstatus : t'.status = .inputRequired := by
    obtain ⟨-, rfl⟩ := Task.transition_ok ht
    rfl
  have hlive : ¬ (!task.status.isTerminal && t'.status.isTerminal) = true := by simp [hstatus, TaskStatus.isTerminal]
  refine ⟨t', (s.admitted task.id task (estimateBytes task)).put task.id ⟨t', none, 0, estimateBytes task⟩,
    ?_, ?_, ⟨t', none, 0, estimateBytes task⟩, AList.lookup_insert _, hstatus⟩
  · simp only [transition, hlookup, ht, settle, if_neg hlive]
  · exact (reserved_counters s task.principal.rateLimitKey).1

omit [F64.Fmt] [Sha256] in
/-- A task that waits for a decision cannot be moved to `Failed`. -/
theorem transition_failed_refused {e : TaskEntry} (he : s.tasks.lookup id = some e)
    (hst : e.task.status = .inputRequired) (reason : Option String) :
    (s.transition now id .failed reason).2 = s := by
  simp [transition, he, Task.transition, hst, TaskStatus.isTerminal, TaskStatus.canTransitionTo]

omit [F64.Fmt] [Sha256] in
theorem not_leftNothing (h : s'.pendingCount = s.pendingCount + 1) : ¬ LeftNothing s s' := by
  intro hclean
  have := hclean.pendingCount
  omega

end TaskStore

/-! ### The two ways to start -/

variable [PipelineLib]

/-- The scheduler refuses the task that the engine opens. -/
def Engine.SubmissionFails (g : Engine) (env : StartEnv) (store : TaskStore) (request : ToolCallRequest)
    (principal : Principal) (workflowTimeout : Option Duration) (onTimeoutOverride : Option TimeoutAction)
    (redactFields : List String) : Prop :=
  ∃ pre task e, g.pipeline.preApprovalAmber env.inspect request = .ok pre ∧
    store.Admits env.id env.created request pre.transformedRequest principal
      (workflowTimeout.getD g.approvalTimeout) (onTimeoutOverride.getD g.onTimeout) task ∧
    env.submit ⟨task.id, request.name, request.arguments, principal, task.expiresAt, task.createdAt,
      env.correlationId, redactFields⟩ = .error e

theorem Engine.startApproval_clean_iff (g : Engine) (env : StartEnv) (store : TaskStore) (request : ToolCallRequest)
    (principal : Principal) (workflowTimeout : Option Duration) (onTimeoutOverride : Option TimeoutAction)
    (redactFields : List String) :
    (∀ err, (g.startApproval env store request principal workflowTimeout onTimeoutOverride redactFields).1 = .error err →
      LeftNothing store
        (g.startApproval env store request principal workflowTimeout onTimeoutOverride redactFields).2) ↔
    ¬ g.SubmissionFails env store request principal workflowTimeout onTimeoutOverride redactFields := by
  unfold Engine.startApproval Engine.SubmissionFails
  cases hpre : g.pipeline.preApprovalAmber env.inspect request with
  | error e => simp [LeftNothing.refl]
  | ok pre =>
    dsimp only
    cases hcreate : store.create env.id env.created request pre.transformedRequest principal
        (some (workflowTimeout.getD g.approvalTimeout)) (onTimeoutOverride.getD g.onTimeout) with
    | mk answer s₁ =>
      cases answer with
      | error e =>
        refine iff_of_true (fun _ _ => TaskStore.leftNothing_of_create_error hcreate) ?_
        rintro ⟨pre', task, e', hpre', hadmits, -⟩
        cases hpre'
        rw [TaskStore.create_of_admits hadmits] at hcreate
        cases hcreate
      | ok task =>
        obtain ⟨hadmits, rfl⟩ := TaskStore.admits_of_create hcreate
        obtain ⟨t', s₂, hmove, hcount, -⟩ := TaskStore.admitted_transition hadmits env.moved
        dsimp only
        rw [hmove]
        dsimp only
        cases hsubmit : env.submit ⟨task.id, request.name, request.arguments, principal, task.expiresAt,
            task.createdAt, env.correlationId, redactFields⟩ with
        | error e =>
          refine iff_of_false ?_ (not_not.mpr ⟨pre, task, e, rfl, hadmits, hsubmit⟩)
          exact fun hall => TaskStore.not_leftNothing hcount (hall _ rfl)
        | ok u =>
          refine iff_of_true (fun err herr => by cases herr) ?_
          rintro ⟨pre', task', e, hpre', hadmits', hsubmit'⟩
          cases hpre'
          rw [TaskStore.create_of_admits hadmits'] at hcreate
          cases hcreate
          rw [hsubmit] at hsubmit'
          cases hsubmit'

namespace Evaluator

omit [PipelineLib] in
/-- The scheduler refuses the task that the legacy path opens. -/
def SubmissionFailsLegacy (hasScheduler : Bool) (env : StartEnv) (store : TaskStore) (request : ToolCallRequest)
    (workflow : Option HumanWorkflow) (principal : Principal) : Prop :=
  hasScheduler = true ∧ ∃ task e,
    store.Admits env.id env.created request request principal (Duration.fromSecs defaultApprovalTtlSecs) .deny task ∧
    env.submit ⟨task.id, request.name, request.arguments, principal, task.expiresAt, env.moved, task.id,
      (workflow.bind (·.redactFields)).getD []⟩ = .error e

omit [PipelineLib] in
theorem startLegacy_clean_iff (hasScheduler : Bool) (env : StartEnv) (store : TaskStore) (request : ToolCallRequest)
    (workflow : Option HumanWorkflow) (policyId : Option String) (principal : Principal) (trace : EvalTrace) :
    (decision (startLegacy hasScheduler env store request workflow policyId principal trace) = .deny →
      LeftNothing store (startLegacy hasScheduler env store request workflow policyId principal trace).2) ↔
    ¬ SubmissionFailsLegacy hasScheduler env store request workflow principal := by
  unfold startLegacy SubmissionFailsLegacy
  cases hcreate : store.create env.id env.created request request principal
      (some (Duration.fromSecs defaultApprovalTtlSecs)) .deny with
  | mk answer s₁ =>
    cases answer with
    | error e =>
      refine iff_of_true (fun _ => TaskStore.leftNothing_of_create_error hcreate) ?_
      rintro ⟨-, task, e', hadmits, -⟩
      rw [TaskStore.create_of_admits hadmits] at hcreate
      cases hcreate
    | ok task =>
      obtain ⟨hadmits, rfl⟩ := TaskStore.admits_of_create hcreate
      obtain ⟨t', s₂, hmove, hcount, e₂, he₂, hst₂⟩ := TaskStore.admitted_transition hadmits env.moved
      dsimp only
      rw [hmove]
      dsimp only
      cases hasScheduler with
      | false => exact iff_of_true (fun hdeny => by cases hdeny) (by simp)
      | true =>
        rw [if_pos rfl]
        cases hsubmit : env.submit ⟨task.id, request.name, request.arguments, principal, task.expiresAt, env.moved,
            task.id, (workflow.bind (·.redactFields)).getD []⟩ with
        | error e =>
          refine iff_of_false ?_ (not_not.mpr ⟨rfl, task, e, hadmits, hsubmit⟩)
          intro hclean
          have hleft := hclean rfl
          -- the clean-up is refused, so the task stays
          rw [TaskStore.transition_failed_refused he₂ hst₂] at hleft
          exact TaskStore.not_leftNothing hcount hleft
        | ok u =>
          refine iff_of_true (fun hdeny => by cases hdeny) ?_
          rintro ⟨-, task', e, hadmits', hsubmit'⟩
          rw [TaskStore.create_of_admits hadmits'] at hcreate
          cases hcreate
          rw [hsubmit] at hsubmit'
          cases hsubmit'

/-- The preferred path denies exactly when the engine fails. -/
theorem startWithEngine_clean_iff (engine : Engine) (env : StartEnv) (store : TaskStore) (request : ToolCallRequest)
    (workflow : Option HumanWorkflow) (policyId : Option String) (principal : Principal) (trace : EvalTrace) :
    (decision (startWithEngine engine env store request workflow policyId principal trace) = .deny →
      LeftNothing store (startWithEngine engine env store request workflow policyId principal trace).2) ↔
    ¬ engine.SubmissionFails env store request principal (workflow.map (·.timeoutOrDefault))
      (workflow.map (·.onTimeoutOrDefault)) ((workflow.bind (·.redactFields)).getD []) := by
  rw [← Engine.startApproval_clean_iff]
  unfold startWithEngine
  cases hstart : engine.startApproval env store request principal (workflow.map (·.timeoutOrDefault))
      (workflow.map (·.onTimeoutOrDefault)) ((workflow.bind (·.redactFields)).getD []) with
  | mk answer s' =>
    cases answer with
    | error e => exact ⟨fun h _ _ => h rfl, fun h _ => h _ rfl⟩
    | ok result => exact iff_of_true (fun hdeny => by cases hdeny) fun err herr => by cases herr

variable [Glob] [Cedar]

/-- The scheduler refuses the task that Gate 4 opens. -/
def SubmissionFails (ev : Evaluator) (env : EvalEnv) (store : TaskStore) (req : EvaluateRequest)
    (resourceName : String) (approvalWorkflow : Option String) (principal : Principal) : Prop :=
  ev.profile = .production ∧
    match ev.approvalEngine with
    | some engine =>
      engine.SubmissionFails env.start store (toolRequest req resourceName) principal
        ((approvalWorkflow.bind ev.config.getWorkflow).map (·.timeoutOrDefault))
        ((approvalWorkflow.bind ev.config.getWorkflow).map (·.onTimeoutOrDefault))
        (((approvalWorkflow.bind ev.config.getWorkflow).bind (·.redactFields)).getD [])
    | none =>
      SubmissionFailsLegacy ev.hasScheduler env.start store (toolRequest req resourceName)
        (approvalWorkflow.bind ev.config.getWorkflow) principal

theorem startApproval_clean_iff (ev : Evaluator) (env : EvalEnv) (store : TaskStore) (req : EvaluateRequest)
    (resourceName : String) (policyId approvalWorkflow : Option String) (principal : Principal) (trace : EvalTrace) :
    (decision (ev.startApproval env store req resourceName policyId approvalWorkflow principal trace) = .deny →
      LeftNothing store (ev.startApproval env store req resourceName policyId approvalWorkflow principal trace).2) ↔
    ¬ ev.SubmissionFails env store req resourceName approvalWorkflow principal := by
  unfold startApproval SubmissionFails
  cases hprofile : ev.profile with
  | development => exact iff_of_true (fun hdeny => by cases hdeny) (by simp)
  | production =>
    dsimp only
    rw [if_neg (by simp)]
    cases ev.approvalEngine with
    | some engine =>
      simp only [true_and]
      exact startWithEngine_clean_iff engine env.start store _ _ policyId principal trace
    | none =>
      simp only [true_and]
      exact startLegacy_clean_iff ev.hasScheduler env.start store _ _ policyId principal trace

end Evaluator

/-- A failed start of the engine, and a denial of Gate 4 on either path, leave nothing pending exactly when it is not the
submission to the scheduler that fails. -/
theorem failed_start_clean_iff [Glob] [Cedar] :
    (∀ (g : Engine) (env : StartEnv) (store : TaskStore) (request : ToolCallRequest) (principal : Principal)
      (workflowTimeout : Option Duration) (onTimeoutOverride : Option TimeoutAction) (redactFields : List String),
      (∀ err, (g.startApproval env store request principal workflowTimeout onTimeoutOverride redactFields).1 =
          .error err →
        LeftNothing store
          (g.startApproval env store request principal workflowTimeout onTimeoutOverride redactFields).2) ↔
      ¬ g.SubmissionFails env store request principal workflowTimeout onTimeoutOverride redactFields) ∧
    (∀ (ev : Evaluator) (env : EvalEnv) (store : TaskStore) (req : EvaluateRequest) (resourceName : String)
      (policyId approvalWorkflow : Option String) (principal : Principal) (trace : EvalTrace),
      (Evaluator.decision (ev.startApproval env store req resourceName policyId approvalWorkflow principal trace) =
          .deny →
        LeftNothing store
          (ev.startApproval env store req resourceName policyId approvalWorkflow principal trace).2) ↔
      ¬ ev.SubmissionFails env store req resourceName approvalWorkflow principal) :=
  ⟨Engine.startApproval_clean_iff, Evaluator.startApproval_clean_iff⟩

end

section

attribute [local instance] Sample.glob Sample.cedar Sample.f64Fmt Sample.f64Display Sample.sha256 Sample.pipelineLib

/-- The scheduler refuses every submission. -/
def Sample.outage : EvalEnv :=
  { evalEnv with start := { evalEnv.start with submit := fun _ => .error "Slack is down" } }

/-- Every call needs an approval, which the legacy path starts. -/
def Sample.legacy : Evaluator := { evaluator [{ id := "files" }] .approve [] with hasScheduler := true }

/-- During an outage of the scheduler a failed start leaves its task and takes a slot, on either path. -/
theorem failed_start_leaves_task :
    ((Sample.engine.startApproval Sample.outage.start (.new {}) Sample.request Sample.principal none none []).1 =
        .error (.postFailed "Slack is down") ∧
      ¬ LeftNothing (.new {})
        (Sample.engine.startApproval Sample.outage.start (.new {}) Sample.request Sample.principal none none []).2) ∧
    (Evaluator.decision (Sample.legacy.startApproval Sample.outage (.new {}) Sample.readCall "read" none none
        Sample.principal {}) = .deny ∧
      ¬ LeftNothing (.new {}) (Sample.legacy.startApproval Sample.outage (.new {}) Sample.readCall "read" none none
        Sample.principal {}).2) := by
  refine ⟨⟨?_, ?_⟩, ?_, ?_⟩
  · decide
  · exact TaskStore.not_leftNothing (by decide)
  · decide
  · exact TaskStore.not_leftNothing (by decide)

end

end ThoughtGate
