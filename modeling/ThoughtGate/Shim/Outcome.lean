import ThoughtGate.Engine.Audit
import ThoughtGate.Gate.Drift
import ThoughtGate.Shim.Polling

/-!
# The outcome of an approval on the two transports

Over HTTP the engine decides at `execute_on_result`, from the status of the task, its approval with the window it is
valid for, `on_timeout`, the policies and the inspectors. Over stdio the shim decides, from what `task_status_handler`
makes of the task and from the policies, asked without the approval. The two agree by status (`Deployment.Agree`): on a
task that is waiting they do, on one that was approved the shim knows nothing of the window, the inspectors and the guard,
on one that was executed or failed it forwards all the same, and on one that expired it does not know `on_timeout`.

What makes the cases few is that an approval fits its task (`Task.ApprovalFits`): a granted one stands on a task that is
executing, executed or failed, or was written on an expired one; a refusal only on a rejected task.
-/

namespace ThoughtGate

/-! ### The approvals of stored tasks -/

/-- Where an approval can stand. -/
def Task.ApprovalFits (t : Task) : Prop :=
  ∀ r, t.approval = some r →
    (r.decision = .approved ∧
      (t.status = .executing ∨ t.status = .completed ∨ t.status = .failed ∨ t.status = .expired)) ∨
    ((∃ reason, r.decision = .rejected reason) ∧ t.status = .rejected)

/-- A task that moves on with its approval was executing. -/
theorem Task.ApprovalFits.moved {t : Task} (ht : t.ApprovalFits) {newStatus : TaskStatus}
    (hcan : t.status.canTransitionTo newStatus = true) {r : ApprovalRecord} (hr : t.approval = some r) :
    r.decision = .approved ∧ (newStatus = .completed ∨ newStatus = .failed) := by
  rcases ht r hr with ⟨hgranted, hst | hst | hst | hst⟩ | ⟨-, hst⟩
  · rw [hst] at hcan
    refine ⟨hgranted, ?_⟩
    cases newStatus with
    | completed => exact Or.inl rfl
    | failed => exact Or.inr rfl
    | _ => cases hcan
  all_goals
    rw [hst] at hcan
    cases hcan

theorem TaskStep.approvalFits {t t' : Task} (h : TaskStep (fun _ => False) t t') (ht : t.ApprovalFits) :
    t'.ApprovalFits := by
  intro r hr
  cases h with
  | move h | completed h | failed h =>
    obtain ⟨hcan, rfl⟩ := Task.transition_ok h
    obtain ⟨hgranted, hst⟩ := ht.moved hcan hr
    exact Or.inl ⟨hgranted, Or.inr (hst.imp_right Or.inl)⟩
  | decided h =>
    obtain ⟨-, rfl⟩ := Task.transition_ok h
    cases hr
    cases hd : r.decision with
    | approved => exact Or.inl ⟨rfl, Or.inl (by simp [TaskStore.decisionTarget])⟩
    | rejected reason => exact Or.inr ⟨⟨reason, rfl⟩, by simp [TaskStore.decisionTarget]⟩
  | noted _ => exact ht r hr
  | autoResult hauto => exact hauto.elim

theorem Task.ApprovalFits.kept (g : Engine) : Task.Kept g Task.ApprovalFits where
  new t _ _ hap _ := by
    intro r hr
    rw [hap] at hr
    cases hr
  step _ _ ht hstep := hstep.approvalFits ht
  autoResult t now granted result reason _ hst := by
    intro r hr
    cases hr
    exact Or.inl ⟨rfl, Or.inr (Or.inr (Or.inr hst))⟩

/-- An approval that fits its task is a granted one unless the task is rejected. -/
theorem Task.ApprovalFits.granted_iff {t : Task} (ht : t.ApprovalFits) :
    (∃ r, t.approval = some r ∧ r.decision = .approved) ↔ t.approval.isSome = true ∧ t.status ≠ .rejected := by
  constructor
  · rintro ⟨r, hr, hgranted⟩
    refine ⟨by simp [hr], ?_⟩
    rcases ht r hr with ⟨-, hst | hst | hst | hst⟩ | ⟨⟨reason, hrejected⟩, -⟩
    · simp [hst]
    · simp [hst]
    · simp [hst]
    · simp [hst]
    · rw [hgranted] at hrejected
      cases hrejected
  · rintro ⟨hsome, hne⟩
    obtain ⟨r, hr⟩ := Option.isSome_iff_exists.mp hsome
    rcases ht r hr with ⟨hgranted, -⟩ | ⟨-, hst⟩
    · exact ⟨r, hr, hgranted⟩
    · exact absurd hst hne

/-- A task that waits, or was cancelled while it waited, has no approval. -/
theorem Task.ApprovalFits.no_approval {t : Task} (ht : t.ApprovalFits)
    (hst : t.status = .working ∨ t.status = .inputRequired ∨ t.status = .cancelled) : t.approval = none := by
  cases hr : t.approval with
  | none => rfl
  | some r =>
    rcases ht r hr with ⟨-, h | h | h | h⟩ | ⟨-, h⟩
    all_goals simp [h] at hst

theorem approvalOutcome_isSome (t : Task) :
    (approvalOutcome t).1.isSome = true ↔ t.approval.isSome = true ∨ t.status = .expired ∨ t.status = .cancelled := by
  unfold approvalOutcome
  cases t.approval with
  | some r => cases hd : r.decision <;> simp [hd]
  | none => cases t.status <;> simp

/-! ### The two paths -/

/-- An engine and a governance service with the same policies; the service may have no policy engine at all. -/
structure Deployment [Glob] [Cedar] where
  engine : Engine
  evaluator : Evaluator
  policies : CedarEngine
  same : ∀ e ∈ evaluator.cedarEngine, e = policies

/-- A shim that waits for an approval, with its deadline still ahead. -/
structure WaitingShim where
  profile : Profile
  deadline : Option Instant
  now : Instant
  waiting : ∀ d ∈ deadline, now < d

/-- What a call of the engine meets besides the clock and the policies. -/
structure CallChance where
  inspect : Nat → String → String → InspectorReply
  settled : DateTime
  ending : CallEnd

namespace Deployment

section

variable [Glob] [Cedar] (d : Deployment)

/-- The service as it answers about a store. -/
def service (store : TaskStore) : GovernanceServiceState := ⟨some d.evaluator, some store⟩

/-- A policy engine is asked in a thread that does not fail. -/
def ask (engine : CedarEngine) (request : PolicyRequest) : Except String PolicyAction := .ok (engine.evaluate request)

/-- The stdio path: polling this store ends approved, and the revalidation lets the message pass. -/
def StdioForwards (shim : WaitingShim) (store : TaskStore) (id : TaskId) : Prop :=
  (∃ n, Shim.pollApprovalStatus shim.profile shim.deadline 0 (List.replicate n
      ⟨shim.now, false, .served ((d.service store).taskStatusHandler id)⟩) = some .approved) ∧
    Shim.revalidationOk shim.profile
      (Shim.revalidateBeforeForward (.served ((d.service store).revalidateHandler ask id))) = true

/-- The stdio path is told a decision. -/
def ToldDecision (store : TaskStore) (id : TaskId) : Prop :=
  ∃ response outcome, (d.service store).taskStatusHandler id = .ok response ∧ response.decision = some outcome

/-- A call of the engine at a time, under the policies. -/
def callEnv (now : DateTime) (chance : CallChance) : CallEnv where
  granted := now
  pipeline := { now, policy := ask d.policies, inspect := chance.inspect }
  settled := chance.settled
  ending := chance.ending

/-- The HTTP path: the call sends the request upstream. -/
def EngineForwards [F64.Fmt] [Sha256] [PipelineLib] (now : DateTime) (chance : CallChance) (s : EngineState)
    (id : TaskId) : Prop :=
  (d.engine.executeOnResult (d.callEnv now chance) s id).2.forwards ≠ s.forwards

/-! ### When they agree -/

/-- The service finds no drift: it has no policy engine, or the policies permit the request without its approval. -/
def NoDrift (t : Task) : Prop :=
  d.evaluator.cedarEngine = none ∨
    (d.policies.evaluate (Pipeline.buildPolicyRequest t.preApprovalTransformed t.principal none)).isReject = false

/-- The engine lets the task pass on an approval: the guard is free, the approval in its window, the policies permit
the request with it, the inspectors pass it and the timeout does not come first. -/
structure Passes [F64.Fmt] [Sha256] [PipelineLib] (now : DateTime) (chance : CallChance) (executing : List TaskId)
    (id : TaskId) (t : Task) (r : ApprovalRecord) : Prop where
  free : id ∉ executing
  valid : now ≤ r.approvalValidUntil
  permitted : (d.policies.evaluate (Pipeline.reevaluationRequest t r)).isReject = false
  inspected : (d.engine.pipeline.postApprovalAmber chance.inspect t).isOk = true
  inTime : chance.ending ≠ .timeoutBefore

/-- When the two paths agree on a task and the shim is not left waiting for a terminal one, by its status. -/
def Agree [F64.Fmt] [Sha256] [PipelineLib] (now : DateTime) (chance : CallChance) (executing : List TaskId)
    (id : TaskId) (t : Task) : Prop :=
  match t.status with
  | .working | .inputRequired | .cancelled => True
  | .rejected => t.approval.isSome
  | .executing => ∀ r, t.approval = some r → (d.NoDrift t ↔ d.Passes now chance executing id t r)
  | .completed | .failed => t.approval.isSome ∧ ¬ d.NoDrift t
  | .expired => (t.approval.isSome ∧ d.NoDrift t) ↔
      (t.onTimeout = .approve ∧ d.Passes now chance executing id t (d.engine.syntheticApproval now))

variable {d}

theorem noDrift_iff (t : Task) :
    d.NoDrift t ↔ ∀ engine ∈ d.evaluator.cedarEngine,
      (engine.evaluate (Pipeline.buildPolicyRequest t.preApprovalTransformed t.principal none)).isReject = false := by
  unfold NoDrift
  cases hcedar : d.evaluator.cedarEngine with
  | none => simp
  | some engine =>
    have hsame := d.same engine hcedar
    simp [hsame]

theorem toldDecision_iff {store : TaskStore} {id : TaskId} {e : TaskEntry} (he : store.tasks.lookup id = some e) :
    d.ToldDecision store id ↔ (approvalOutcome e.task).1.isSome = true := by
  unfold ToldDecision service
  rw [GovernanceServiceState.taskStatusHandler_stored he, Option.isSome_iff_exists]
  constructor
  · rintro ⟨response, outcome, hresponse, hdecision⟩
    cases hresponse
    exact ⟨outcome, hdecision⟩
  · rintro ⟨outcome, hdecision⟩
    exact ⟨_, outcome, rfl, hdecision⟩

/-- The shim forwards exactly what carries a granted approval and has not drifted, whatever its status. -/
theorem stdioForwards_iff (shim : WaitingShim) {store : TaskStore} {id : TaskId} {e : TaskEntry}
    (he : store.tasks.lookup id = some e) :
    d.StdioForwards shim store id ↔ (∃ r, e.task.approval = some r ∧ r.decision = .approved) ∧ d.NoDrift e.task := by
  obtain ⟨response, hresponse, hallowed⟩ := GovernanceServiceState.revalidateHandler_stored d.evaluator he
  have hpoll : (approvalOutcome e.task).1 = some .approved ↔
      ∃ r, e.task.approval = some r ∧ r.decision = .approved := by
    unfold approvalOutcome
    cases happ : e.task.approval with
    | none => cases e.task.status <;> simp
    | some r => cases hd : r.decision <;> simp [hd]
  unfold StdioForwards service
  rw [GovernanceServiceState.taskStatusHandler_stored he]
  refine and_congr ((Shim.pollApprovalStatus_first shim.waiting _).trans hpoll) ?_
  rw [noDrift_iff, ← hallowed]
  show Shim.revalidationOk shim.profile (Shim.revalidateBeforeForward (.served (GovernanceServiceState.revalidateHandler
    ⟨some d.evaluator, some store⟩ (fun engine request => .ok (engine.evaluate request)) id))) = true ↔ _
  rw [hresponse]
  rfl

variable [F64.Fmt] [Sha256] [PipelineLib]

/-- The engine forwards a task that is executing on its approval, or one that expired into approval. -/
theorem engineForwards_iff (now : DateTime) (chance : CallChance) {s : EngineState} {id : TaskId} {e : TaskEntry}
    (he : s.store.tasks.lookup id = some e) :
    d.EngineForwards now chance s id ↔
      (e.task.status = .executing ∧ ∃ r, e.task.approval = some r ∧ d.Passes now chance s.executing id e.task r) ∨
      (e.task.status = .expired ∧ e.task.onTimeout = .approve ∧
        d.Passes now chance s.executing id e.task (d.engine.syntheticApproval now)) := by
  have hsent : ∀ r, id ∉ s.executing ∧ (d.engine.runPipeline (d.callEnv now chance) e.task r).2.isSome = true ↔
      d.Passes now chance s.executing id e.task r := by
    intro r
    have hprepare : (d.engine.pipeline.prepare (d.callEnv now chance).pipeline (Engine.pipelineTask e.task) r).isOk =
        true ↔ now ≤ r.approvalValidUntil ∧
          (d.policies.evaluate (Pipeline.reevaluationRequest e.task r)).isReject = false ∧
          (d.engine.pipeline.postApprovalAmber chance.inspect e.task).isOk = true := by
      rw [prepare_isOk_iff rfl]
      refine and_congr Iff.rfl (and_congr ?_ Iff.rfl)
      constructor
      · rintro ⟨a, ha, hnot⟩
        cases ha
        exact hnot
      · exact fun hnot => ⟨_, rfl, hnot⟩
    rw [runPipeline_isSome]
    constructor
    · rintro ⟨hfree, hsome⟩
      cases hend : chance.ending with
      | timeoutBefore =>
        simp only [callEnv, hend] at hsome
        cases hsome
      | timeoutAfter | reply =>
        simp only [callEnv, hend] at hsome
        obtain ⟨hvalid, hpermitted, hinspected⟩ := hprepare.mp hsome
        exact ⟨hfree, hvalid, hpermitted, hinspected, by simp [hend]⟩
    · rintro ⟨hfree, hvalid, hpermitted, hinspected, hend⟩
      refine ⟨hfree, ?_⟩
      have hok := hprepare.mpr ⟨hvalid, hpermitted, hinspected⟩
      cases hending : chance.ending with
      | timeoutBefore => exact absurd hending hend
      | timeoutAfter | reply =>
        simp only [callEnv, hending]
        exact hok
  unfold EngineForwards
  rw [executeOnResult_sends_iff _ he]
  constructor
  · rintro ⟨hgo, hfree, r, happ, hsome⟩
    have hpasses := (hsent r).mp ⟨hfree, hsome⟩
    rcases dispatch_none hgo with hst | ⟨hst, hto⟩
    · rw [Engine.approvalOf, if_neg (by rw [hst]; decide)] at happ
      exact Or.inl ⟨hst, r, happ, hpasses⟩
    · rw [Engine.approvalOf, if_pos hst] at happ
      cases happ
      exact Or.inr ⟨hst, hto, hpasses⟩
  · rintro (⟨hst, r, happ, hpasses⟩ | ⟨hst, hto, hpasses⟩)
    · obtain ⟨hfree, hsome⟩ := (hsent r).mpr hpasses
      refine ⟨by simp [Engine.dispatch, hst], hfree, r, ?_, hsome⟩
      rw [Engine.approvalOf, if_neg (by rw [hst]; decide), happ]
    · obtain ⟨hfree, hsome⟩ := (hsent _).mpr hpasses
      refine ⟨by simp [Engine.dispatch, hst, hto], hfree, _, ?_, hsome⟩
      rw [Engine.approvalOf, if_pos hst]
      rfl

/-- On a task of a reachable state the two transports come to the same outcome, and the shim is told one once the task is
terminal, exactly when they `Agree`. -/
theorem outcomes_agree_iff (d : Deployment) (shim : WaitingShim) (now : DateTime) (chance : CallChance)
    {config : TaskStoreConfig} {s : ThreadState EngineState EnginePc}
    (h : (engineMachine d.engine config).Reachable s) {id : TaskId} {e : TaskEntry}
    (he : s.shared.store.tasks.lookup id = some e) :
    ((d.StdioForwards shim s.shared.store id ↔ d.EngineForwards now chance s.shared id) ∧
      (e.task.status.isTerminal = true → d.ToldDecision s.shared.store id)) ↔
    d.Agree now chance s.shared.executing id e.task := by
  have hfits := (Task.ApprovalFits.kept d.engine).reachable h id e he
  rw [stdioForwards_iff shim he, engineForwards_iff now chance he, toldDecision_iff he, hfits.granted_iff,
    approvalOutcome_isSome, Agree]
  have hnone := hfits.no_approval
  cases hst : e.task.status with
  | working | inputRequired | cancelled => simp [hnone (by simp [hst]), TaskStatus.isTerminal]
  | rejected => simp [TaskStatus.isTerminal]
  | executing =>
    cases hr : e.task.approval with
    | none => simp [TaskStatus.isTerminal]
    | some r => simp [TaskStatus.isTerminal]
  | completed | failed =>
    -- told a decision, the shim has an approval, and then only the drift keeps it from forwarding
    have hsplit : (¬ (e.task.approval.isSome = true ∧ d.NoDrift e.task) ∧ e.task.approval.isSome = true) ↔
        e.task.approval.isSome = true ∧ ¬ d.NoDrift e.task := by
      grind
    simpa [TaskStatus.isTerminal] using hsplit
  | expired => simp [TaskStatus.isTerminal]

end

end Deployment

namespace Sample

section

attribute [local instance] glob cedar

/-- The engine and the service under the default policies. -/
def deployment : Deployment where
  engine := engine
  evaluator := guarded defaults
  policies := defaults
  same e he := by
    cases he
    rfl

end

def waitingShim : WaitingShim where
  profile := .production
  deadline := none
  now := 0
  waiting d hd := by cases hd

/-- The inspectors pass the request, and upstream answers. -/
def chance : CallChance where
  inspect _ _ _ := .approve
  settled := 64000000000
  ending := answers "a"

end Sample

section

attribute [local instance] Sample.glob Sample.cedar Sample.f64Fmt Sample.sha256 Sample.pipelineLib

/-- The task was approved for 60 s. After 63 s the engine refuses it, and the shim forwards it. -/
theorem shim_forwards_stale_approval :
    ∃ s e, (engineMachine Sample.deployment.engine {}).Reachable s ∧ s.shared.store.tasks.lookup "tg_1" = some e ∧
      Sample.deployment.StdioForwards Sample.waitingShim s.shared.store "tg_1" ∧
      ¬ Sample.deployment.EngineForwards 63000000000 Sample.chance s.shared "tg_1" := by
  have hrun : ((engineMachine Sample.deployment.engine {}).exec (engineMachine Sample.deployment.engine {}).init
      Sample.approved).any (fun s => (s.shared.store.tasks.lookup "tg_1").any fun e =>
        decide (e.task.status = .executing) && e.task.approval.any (fun r =>
          decide (r.decision = .approved) && decide (r.approvalValidUntil < 63000000000)) &&
        !(Sample.defaults.evaluate
          (Pipeline.buildPolicyRequest e.task.preApprovalTransformed e.task.principal none)).isReject) = true := by
    decide
  obtain ⟨s, hreach, hany⟩ := Machine.exists_reachable_of_exec hrun
  obtain ⟨e, he, htests⟩ := (Option.any_eq_true ..).mp hany
  obtain ⟨htask, hpermit⟩ := Bool.and_eq_true_iff.mp htests
  obtain ⟨hst, happ⟩ := Bool.and_eq_true_iff.mp htask
  obtain ⟨r, hr, hboth⟩ := (Option.any_eq_true ..).mp happ
  obtain ⟨hgranted, hstale⟩ := Bool.and_eq_true_iff.mp hboth
  refine ⟨s, e, hreach, he, ?_, ?_⟩
  · rw [Deployment.stdioForwards_iff _ he]
    rw [Bool.not_eq_true'] at hpermit
    exact ⟨⟨r, hr, of_decide_eq_true hgranted⟩, Or.inr hpermit⟩
  · rw [Deployment.engineForwards_iff _ _ he]
    rintro (⟨-, r', hr', hpasses⟩ | ⟨hexp, -⟩)
    · rw [hr] at hr'
      cases hr'
      have hvalid := hpasses.valid
      have hlt := of_decide_eq_true hstale
      exact absurd hvalid (Int.not_le.mpr hlt)
    · rw [of_decide_eq_true hst] at hexp
      cases hexp

/-- Within its window both forward it. -/
theorem outcomes_agree_iff_sample :
    ∃ s e, (engineMachine Sample.deployment.engine {}).Reachable s ∧ s.shared.store.tasks.lookup "tg_1" = some e ∧
      e.task.status = .executing ∧
      ((Sample.deployment.StdioForwards Sample.waitingShim s.shared.store "tg_1" ↔
          Sample.deployment.EngineForwards 3 Sample.chance s.shared "tg_1") ∧
        (e.task.status.isTerminal = true → Sample.deployment.ToldDecision s.shared.store "tg_1")) := by
  have hrun : ((engineMachine Sample.deployment.engine {}).exec (engineMachine Sample.deployment.engine {}).init
      Sample.approved).any (fun s => (s.shared.store.tasks.lookup "tg_1").any fun e =>
        decide (e.task.status = .executing) && decide ("tg_1" ∉ s.shared.executing) &&
        !(Sample.defaults.evaluate
          (Pipeline.buildPolicyRequest e.task.preApprovalTransformed e.task.principal none)).isReject &&
        (Sample.deployment.engine.pipeline.postApprovalAmber Sample.chance.inspect e.task).isOk &&
        e.task.approval.all fun r => decide (3 ≤ r.approvalValidUntil) &&
          !(Sample.defaults.evaluate (Pipeline.reevaluationRequest e.task r)).isReject) = true := by
    decide
  obtain ⟨s, hreach, hany⟩ := Machine.exists_reachable_of_exec hrun
  obtain ⟨e, he, htests⟩ := (Option.any_eq_true ..).mp hany
  simp only [Bool.and_eq_true, decide_eq_true_eq, Bool.not_eq_true', Option.all_eq_true] at htests
  obtain ⟨⟨⟨⟨hst, hfree⟩, hpermit⟩, hinspected⟩, happ⟩ := htests
  refine ⟨s, e, hreach, he, hst, (Deployment.outcomes_agree_iff _ _ _ _ hreach he).mpr ?_⟩
  rw [Deployment.Agree, hst]
  intro r hr
  obtain ⟨hvalid, hgrant⟩ := happ r hr
  refine ⟨fun _ => ⟨hfree, hvalid, hgrant, hinspected, ?_⟩, fun _ => Or.inr hpermit⟩
  simp [Sample.chance, Sample.answers]

end

end ThoughtGate
