import ThoughtGate.Engine.Authorisation

/-!
# Tasks approved by their timeout

An expired task whose `on_timeout` is `approve` is executed by the call that asks for its result. `Expired` is
terminal, so the status cannot record that this has happened; the executing set forgets it when the call returns,
and nothing reads the result that `record_auto_approve_result` writes. One call after the other therefore sends
the request again (`autoApprove_sent_twice`).

`executeAll` makes the calls of a list one after the other. What a call comes to depends on what the task keeps for
life and on the call's own environment (`executeOnResult_expired`), so a list of calls sends the request once for
each call that `sends`, and the exact condition for at most once follows.

The calls as functions and as threads agree: `executeOnResult_solo`.
-/

namespace ThoughtGate

section

variable [F64.Fmt] [Sha256] [PipelineLib] {g : Engine}

/-! ### A call alone is a thread alone -/

theorem solo_settle (g : Engine) (config : TaskStoreConfig) (s : EngineState) (id : TaskId) (task : Task)
    (approval : ApprovalRecord) (result : PipelineResult) (now : DateTime) :
    (engineProgram g config).solo s (.settle id task approval result) [.clock now now, .go] =
      some { s with
        store := Engine.settleStore s.store now id task approval result
        executing := s.executing.erase id } := rfl

/-- The end of a call once its wait is over. -/
def outcomeState (s : EngineState) (now : DateTime) (id : TaskId) (task : Task) (approval : ApprovalRecord) :
    Option PipelineResult → EngineState
  | none => { s with executing := s.executing.erase id }
  | some result => { s with
      store := Engine.settleStore s.store now id task approval result
      executing := s.executing.erase id }

theorem solo_timedOut (g : Engine) (config : TaskStoreConfig) (s : EngineState) (id : TaskId) (task : Task)
    (approval : ApprovalRecord) (now : DateTime) :
    ∃ is, (engineProgram g config).solo s (EnginePc.timedOut g id task approval) is =
      some (outcomeState s now id task approval
        (if task.status = .expired then none else some (.failure g.timeoutFailure))) := by
  unfold EnginePc.timedOut
  split
  · exact ⟨[.go], rfl⟩
  · exact ⟨[.clock now now, .go], rfl⟩

/-- One step and the rest. -/
theorem solo_cons {config : TaskStoreConfig} {s r : EngineState} {p : EnginePc} (i : EngineInput) (s' : EngineState)
    (p' : EnginePc) (hnext : p.next g s i = some (s', some p'))
    (h : ∃ is, (engineProgram g config).solo s' p' is = some r) :
    ∃ is, (engineProgram g config).solo s p is = some r := by
  obtain ⟨is, his⟩ := h
  refine ⟨i :: is, ?_⟩
  have hnext' : (engineProgram g config).next s p i = some (s', some p') := hnext
  rw [Program.solo, hnext']
  exact his

/-- The phases before the sending, and what follows it. -/
theorem solo_prepare (g : Engine) (config : TaskStoreConfig) {env : CallEnv} (s : EngineState) (id : TaskId)
    {task : Task} {approval : ApprovalRecord} (final : ToolCallRequest → EngineState)
    (hval : Pipeline.validateApproval env.pipeline.now (Engine.pipelineTask task) approval = .ok ())
    (hsent : ∀ request, ∃ is, (engineProgram g config).solo { s with forwards := s.forwards ++
      [⟨id, task, approval, env.pipeline.now, env.pipeline.policy, request⟩] } (.sent id task approval) is =
        some (final request)) :
    ∃ is, (engineProgram g config).solo s (.policing id task approval env.pipeline.now) is =
      match g.pipeline.prepare env.pipeline (Engine.pipelineTask task) approval with
      | .error info => some (outcomeState s env.settled id task approval (some (.failure info)))
      | .ok request => some (final request) := by
  have hprep : g.pipeline.prepare env.pipeline (Engine.pipelineTask task) approval =
      (Pipeline.reevaluatePolicy env.pipeline.policy (Engine.pipelineTask task) approval >>= fun _ =>
        g.pipeline.postApprovalAmber env.pipeline.inspect (Engine.pipelineTask task)) := by
    simp only [Pipeline.prepare, hval]
    rfl
  have hfail : ∀ info, ∃ is, (engineProgram g config).solo s (.settle id task approval (.failure info)) is =
      some (outcomeState s env.settled id task approval (some (.failure info))) :=
    fun info => ⟨_, solo_settle g config s id task approval (.failure info) env.settled⟩
  rw [hprep]
  cases hpol : Pipeline.reevaluatePolicy env.pipeline.policy (Engine.pipelineTask task) approval with
  | error info =>
    refine solo_cons (.policy env.pipeline.policy) s (.settle id task approval (.failure info)) ?_ (hfail info)
    simp only [EnginePc.next, hpol]
  | ok u =>
    have hambering : EnginePc.next g s (.policing id task approval env.pipeline.now) (.policy env.pipeline.policy) =
        some (s, some (.ambering id task approval env.pipeline.now env.pipeline.policy)) := by
      simp only [EnginePc.next, hpol]
    simp only [bind, Except.bind]
    cases hamber : g.pipeline.postApprovalAmber env.pipeline.inspect (Engine.pipelineTask task) with
    | error info =>
      refine solo_cons _ _ _ hambering (solo_cons (.inspect env.pipeline.inspect) s
        (.settle id task approval (.failure info)) ?_ (hfail info))
      simp only [EnginePc.next, hamber]
    | ok request =>
      refine solo_cons _ _ _ hambering (solo_cons (.inspect env.pipeline.inspect) _ (.sent id task approval) ?_
        (hsent request))
      simp only [EnginePc.next, hamber]

/-- The pipeline of a call as the thread runs it from the guard on. -/
theorem solo_guarded (g : Engine) (config : TaskStoreConfig) (env : CallEnv) (s : EngineState) (id : TaskId)
    {task : Task} {approval : ApprovalRecord} (happ : g.approvalOf task env.granted = some approval) :
    ∃ is, (engineProgram g config).solo s (.guarded id task) is =
      some (outcomeState { s with forwards := (g.runPipeline env task approval).2.elim s.forwards fun request =>
          s.forwards ++ [⟨id, task, approval, env.pipeline.now, env.pipeline.policy, request⟩] }
        env.settled id task approval (g.runPipeline env task approval).1) := by
  unfold Engine.runPipeline
  cases hval : Pipeline.validateApproval env.pipeline.now (Engine.pipelineTask task) approval with
  | error info =>
    refine solo_cons (.clock env.granted env.pipeline.now) s (.settle id task approval (.failure info)) ?_
      ⟨_, solo_settle g config s id task approval (.failure info) env.settled⟩
    simp only [EnginePc.next, happ, hval]
  | ok u =>
    refine solo_cons (.clock env.granted env.pipeline.now) s (.policing id task approval env.pipeline.now) ?_ ?_
    · simp only [EnginePc.next, happ, hval]
    · cases hend : env.ending with
      | timeoutBefore => exact solo_cons .timeout _ _ rfl (solo_timedOut g config s id task approval env.settled)
      | timeoutAfter =>
        obtain ⟨is, his⟩ := solo_prepare g config s id _ hval fun request =>
          solo_cons .timeout _ _ rfl (solo_timedOut g config _ id task approval env.settled)
        refine ⟨is, his.trans ?_⟩
        cases g.pipeline.prepare env.pipeline (Engine.pipelineTask task) approval <;> rfl
      | reply r =>
        obtain ⟨is, his⟩ := solo_prepare g config s id _ hval fun request =>
          solo_cons (.reply r) _ _ rfl ⟨_, solo_settle g config _ id task approval _ env.settled⟩
        refine ⟨is, his.trans ?_⟩
        cases g.pipeline.prepare env.pipeline (Engine.pipelineTask task) approval <;> rfl

/-- An uninterrupted call is one run of its thread. -/
theorem executeOnResult_solo (g : Engine) (config : TaskStoreConfig) (env : CallEnv) (s : EngineState) (id : TaskId) :
    ∃ is, (engineProgram g config).solo s (.start id) is = some (g.executeOnResult env s id).2 := by
  unfold Engine.executeOnResult Engine.getTask
  cases hget : s.store.get id with
  | error e =>
    refine ⟨[.go], ?_⟩
    cases e <;> simp [Program.solo, engineProgram, EnginePc.next, hget]
  | ok task =>
    simp only
    cases hgo : Engine.dispatch id task with
    | some answer => exact ⟨[.go], by simp [Program.solo, engineProgram, EnginePc.next, hget, hgo]⟩
    | none =>
      simp only
      by_cases hbusy : id ∈ s.executing
      · exact ⟨[.go, .go], by simp [Program.solo, engineProgram, EnginePc.next, hget, hgo, hbusy]⟩
      · rw [if_neg hbusy]
        refine solo_cons .go s (.acquire id task) (by simp [EnginePc.next, hget, hgo]) ?_
        refine solo_cons .go { s with executing := id :: s.executing } (.guarded id task)
          (by simp [EnginePc.next, hbusy]) ?_
        cases happ : g.approvalOf task env.granted with
        | none =>
          refine solo_cons (.clock env.granted env.granted) _ (.release id) (by simp [EnginePc.next, happ]; rfl)
            ⟨[.go], ?_⟩
          simp [Program.solo, engineProgram, EnginePc.next]
        | some approval =>
          obtain ⟨is, his⟩ := solo_guarded g config env { s with executing := id :: s.executing } id happ
          refine ⟨is, his.trans ?_⟩
          cases hrun : g.runPipeline env task approval with
          | mk result sent =>
            cases result with
            | none => cases sent <;> simp [outcomeState, hrun]
            | some result => cases sent <;> simp [outcomeState, hrun]

/-- Among other calls, too, a call that is not interrupted does what the function says. -/
theorem executeOnResult_exec (g : Engine) (config : TaskStoreConfig) (env : CallEnv) (s : EngineState)
    {threads : Table Nat EnginePc} {t : Nat} (hnone : threads.lookup t = none) (id : TaskId) :
    (engineMachine g config).Leads ⟨s, threads⟩ ⟨(g.executeOnResult env s id).2, threads⟩ := by
  obtain ⟨is, his⟩ := executeOnResult_solo g config env s id
  have hrun := Program.exec_of_solo (fun _ => rfl) hnone his
  have hspawn : (engineMachine g config).step ⟨s, threads⟩ (.spawn t (.start id)) =
      some ⟨s, threads.insert t (.start id)⟩ := by
    simp only [engineMachine, Program.machine, hnone, engineProgram, EnginePc.starts, and_self, if_true]
  exact Relation.ReflTransGen.head ⟨_, hspawn⟩ (Machine.leads_of_exec hrun)

/-! ### One call on an expired task -/

/-- The request of a call on an expired task is sent: it passes the phases, and the timeout does not come first. -/
def CallEnv.sends (g : Engine) (task : Task) (env : CallEnv) : Bool :=
  match env.ending with
  | .timeoutBefore => false
  | _ => (g.pipeline.prepare env.pipeline (Engine.pipelineTask task) (g.syntheticApproval env.granted)).isOk

/-- It is sent and upstream answers without an error. -/
def CallEnv.succeeds (g : Engine) (task : Task) (env : CallEnv) : Bool :=
  match env.ending with
  | .reply (.response _ none) => env.sends g task
  | _ => false

theorem sends_of_succeeds {task : Task} {env : CallEnv} (h : env.succeeds g task = true) : env.sends g task = true := by
  unfold CallEnv.succeeds at h
  split at h
  · exact h
  · cases h

/-- The pipeline reads of a task only what it keeps for life, and its status. -/
theorem runPipeline_congr {t t' : Task} (horigin : SameOrigin t t') (hst : t'.status = t.status) (env : CallEnv)
    (approval : ApprovalRecord) : g.runPipeline env t' approval = g.runPipeline env t approval := by
  have hquestion : Pipeline.reevaluationRequest (Engine.pipelineTask t') approval =
      Pipeline.reevaluationRequest (Engine.pipelineTask t) approval := by
    simp only [Pipeline.reevaluationRequest, Engine.pipelineTask, horigin.preApprovalTransformed, horigin.principal,
      horigin.id]
  have hpolicy : Pipeline.reevaluatePolicy env.pipeline.policy (Engine.pipelineTask t') approval =
      Pipeline.reevaluatePolicy env.pipeline.policy (Engine.pipelineTask t) approval := by
    simp only [Pipeline.reevaluatePolicy, hquestion]
  have hamber : g.pipeline.postApprovalAmber env.pipeline.inspect (Engine.pipelineTask t') =
      g.pipeline.postApprovalAmber env.pipeline.inspect (Engine.pipelineTask t) := by
    simp only [Pipeline.postApprovalAmber, Engine.pipelineTask, horigin.originalRequest, horigin.requestHash,
      horigin.preApprovalTransformed]
    rfl
  have hvalid : Pipeline.validateApproval env.pipeline.now (Engine.pipelineTask t') approval =
      Pipeline.validateApproval env.pipeline.now (Engine.pipelineTask t) approval := rfl
  simp only [Engine.runPipeline, Pipeline.prepare, hst, hpolicy, hamber, hvalid]

/-- What a call on an expired task returns. -/
def Engine.autoAnswer (g : Engine) (task : Task) (env : CallEnv) : Except ThoughtGateError ToolCallResult :=
  match (g.runPipeline env task (g.syntheticApproval env.granted)).1 with
  | none => .error (.serviceUnavailable ("Auto-approved task execution timed out after " ++
      toString (Duration.asSecs g.executionTimeout) ++ "s"))
  | some result => g.answer task result

theorem prepare_of_invalid {p : Pipeline} {env : PipelineEnv} {task : Task} {approval : ApprovalRecord}
    {info : FailureInfo} (h : Pipeline.validateApproval env.now task approval = .error info) :
    p.prepare env task approval = .error info := by
  simp only [Pipeline.prepare, h]
  rfl

/-- A request is sent when it passes the phases and the timeout does not come first. -/
theorem runPipeline_isSome (task : Task) (approval : ApprovalRecord) (env : CallEnv) :
    (g.runPipeline env task approval).2.isSome =
      match env.ending with
      | .timeoutBefore => false
      | _ => (g.pipeline.prepare env.pipeline (Engine.pipelineTask task) approval).isOk := by
  unfold Engine.runPipeline
  cases hval : Pipeline.validateApproval env.pipeline.now (Engine.pipelineTask task) approval with
  | error info =>
    rw [prepare_of_invalid hval]
    cases env.ending <;> rfl
  | ok u =>
    cases env.ending with
    | timeoutBefore => rfl
    | timeoutAfter | reply r =>
      cases g.pipeline.prepare env.pipeline (Engine.pipelineTask task) approval <;> rfl

theorem runPipeline_sent (task : Task) (env : CallEnv) :
    (g.runPipeline env task (g.syntheticApproval env.granted)).2.isSome = env.sends g task :=
  runPipeline_isSome task _ env

/-- A call on a stored task sends when it goes on, finds the guard free and an approval, and the pipeline sends. -/
theorem executeOnResult_sends_iff {s : EngineState} {id : TaskId} {e : TaskEntry} (env : CallEnv)
    (he : s.store.tasks.lookup id = some e) :
    (g.executeOnResult env s id).2.forwards ≠ s.forwards ↔
      Engine.dispatch id e.task = none ∧ id ∉ s.executing ∧ ∃ approval,
        g.approvalOf e.task env.granted = some approval ∧ (g.runPipeline env e.task approval).2.isSome = true := by
  unfold Engine.executeOnResult Engine.getTask
  simp only [TaskStore.get, he]
  cases hgo : Engine.dispatch id e.task with
  | some answer => simp
  | none =>
    by_cases hbusy : id ∈ s.executing
    · simp [hbusy]
    · cases happ : g.approvalOf e.task env.granted with
      | none => simp [hbusy]
      | some approval =>
        cases hrun : g.runPipeline env e.task approval with
        | mk result sent =>
          cases sent <;> cases result <;> simp [hbusy, hrun]

/-- What the phases before the sending check. -/
theorem prepare_isOk_iff {p : Pipeline} {env : PipelineEnv} {task : Task} {approval : ApprovalRecord}
    (hst : task.status = .executing) :
    (p.prepare env task approval).isOk = true ↔
      env.now ≤ approval.approvalValidUntil ∧
      (∃ a, env.policy (Pipeline.reevaluationRequest task approval) = .ok a ∧ a.isReject = false) ∧
      (p.postApprovalAmber env.inspect task).isOk = true := by
  have hvalid : Pipeline.validateApproval env.now task approval = .ok () ↔
      env.now ≤ approval.approvalValidUntil := by
    refine ⟨validateApproval_ok, fun hle => ?_⟩
    unfold Pipeline.validateApproval
    rw [if_neg (Int.not_lt.mpr hle), if_neg (not_not.mpr hst)]
  have hpolicy : Pipeline.reevaluatePolicy env.policy task approval = .ok () ↔
      ∃ a, env.policy (Pipeline.reevaluationRequest task approval) = .ok a ∧ a.isReject = false := by
    refine ⟨reevaluatePolicy_ok, ?_⟩
    rintro ⟨a, ha, hnot⟩
    unfold Pipeline.reevaluatePolicy
    rw [ha]
    cases a with
    | reject reason => cases hnot
    | _ => rfl
  rw [← hvalid, ← hpolicy]
  unfold Pipeline.prepare
  cases Pipeline.validateApproval env.now task approval with
  | error info => simp [bind, Except.bind, Except.isOk, Except.toBool]
  | ok u =>
    cases Pipeline.reevaluatePolicy env.policy task approval with
    | error info => simp [bind, Except.bind, Except.isOk, Except.toBool]
    | ok v => simp [bind, Except.bind]

omit [F64.Fmt] [Sha256] [PipelineLib] in
theorem answer_failure {task : Task} (hexp : task.status = .expired) (info : FailureInfo) (r : ToolCallResult) :
    g.answer task (.failure info) ≠ .ok r := by
  simp [Engine.answer, hexp]

omit [F64.Fmt] [Sha256] [PipelineLib] in
theorem forwardToUpstream_ok {task : Task} (hexp : task.status = .expired) (reply : UpstreamReply) :
    (∃ r, g.answer task (Pipeline.forwardToUpstream reply) = .ok r) ↔ ∃ result, reply = .response result none := by
  constructor
  · rintro ⟨r, hr⟩
    cases reply with
    | response result error =>
      cases error with
      | none => exact ⟨result, rfl⟩
      | some error => exact absurd hr (answer_failure hexp _ r)
    | failed e | timedOut => exact absurd hr (answer_failure hexp _ r)
  · rintro ⟨result, rfl⟩
    exact ⟨_, rfl⟩

theorem autoAnswer_ok {task : Task} (hexp : task.status = .expired) (env : CallEnv) :
    (∃ r, g.autoAnswer task env = .ok r) ↔ env.succeeds g task = true := by
  have hfail : ∀ info, ¬ ∃ r, g.answer task (.failure info) = .ok r :=
    fun info ⟨r, hr⟩ => answer_failure hexp info r hr
  unfold Engine.autoAnswer Engine.runPipeline CallEnv.succeeds CallEnv.sends
  rw [if_pos hexp]
  cases hval : Pipeline.validateApproval env.pipeline.now (Engine.pipelineTask task)
      (g.syntheticApproval env.granted) with
  | error info =>
    rw [prepare_of_invalid hval]
    simp only [hfail, false_iff]
    cases env.ending with
    | timeoutBefore | timeoutAfter => simp
    | reply reply =>
      split
      · simp [Except.isOk, Except.toBool]
      · simp
  | ok u =>
    cases hend : env.ending with
    | timeoutBefore => simp
    | timeoutAfter =>
      cases g.pipeline.prepare env.pipeline (Engine.pipelineTask task) (g.syntheticApproval env.granted) with
      | error info => simp [hfail]
      | ok request => simp
    | reply reply =>
      cases g.pipeline.prepare env.pipeline (Engine.pipelineTask task) (g.syntheticApproval env.granted) with
      | error info =>
        simp only [hfail, false_iff]
        split <;> simp [Except.isOk, Except.toBool]
      | ok request =>
        rw [forwardToUpstream_ok hexp]
        cases reply with
        | response result error => cases error <;> simp [Except.isOk, Except.toBool]
        | failed e | timedOut => simp

omit [F64.Fmt] [Sha256] [PipelineLib] in
/-- Writing an automatic result changes neither the status nor what the task keeps for life. -/
theorem recordAutoApproveResult_lookup {store : TaskStore} {id : TaskId} {e : TaskEntry}
    (he : store.tasks.lookup id = some e) (now : DateTime) (result : ToolCallResult) (approval : ApprovalRecord) :
    ∃ e', (store.recordAutoApproveResult now id result approval).2.tasks.lookup id = some e' ∧
      SameOrigin e.task e'.task ∧ e'.task.status = e.task.status := by
  rw [TaskStore.recordAutoApproveResult, he]
  exact ⟨_, AList.lookup_insert _, ⟨rfl, rfl, rfl, rfl, rfl, rfl, rfl, rfl, rfl⟩, rfl⟩

/-- One call on an expired task with a free guard: its answer, the log, and the task that is left. -/
theorem executeOnResult_expired {s : EngineState} {id : TaskId} {e : TaskEntry} (env : CallEnv)
    (he : s.store.tasks.lookup id = some e) (hexp : e.task.status = .expired) (hto : e.task.onTimeout = .approve)
    (hfree : id ∉ s.executing) :
    (g.executeOnResult env s id).1 = g.autoAnswer e.task env ∧
    (g.executeOnResult env s id).2.forwards.length =
      s.forwards.length + (if env.sends g e.task then 1 else 0) ∧
    (g.executeOnResult env s id).2.executing = s.executing ∧
    ∃ e', (g.executeOnResult env s id).2.store.tasks.lookup id = some e' ∧ SameOrigin e.task e'.task ∧
      e'.task.status = .expired := by
  have hgo : Engine.dispatch id e.task = none := by
    simp [Engine.dispatch, hexp, hto]
  have hsent := runPipeline_sent (g := g) e.task env
  unfold Engine.executeOnResult Engine.getTask Engine.autoAnswer
  simp only [TaskStore.get, he, hgo, if_neg hfree, Engine.approvalOf, if_pos hexp]
  cases hrun : g.runPipeline env e.task (g.syntheticApproval env.granted) with
  | mk result sent =>
    rw [hrun] at hsent
    rw [← hsent]
    refine ⟨?_, ?_, ?_, ?_⟩
    · cases result <;> rfl
    · cases result <;> cases sent <;> simp
    · cases result <;> rfl
    · cases result with
      | none => exact ⟨e, he, .refl _, hexp⟩
      | some result =>
        cases result with
        | failure info => exact ⟨e, by simp [Engine.settleStore, hexp, he], .refl _, hexp⟩
        | success result =>
          obtain ⟨e', he', horigin, hst⟩ :=
            recordAutoApproveResult_lookup he env.settled result (g.syntheticApproval env.granted)
          exact ⟨e', by simp only [Engine.settleStore, if_pos hexp, he'], horigin, hst.trans hexp⟩

/-! ### Calls one after the other -/

/-- The calls of a list, one after the other: the answers and the state afterwards. -/
def Engine.executeAll (g : Engine) (s : EngineState) (id : TaskId) :
    List CallEnv → List (Except ThoughtGateError ToolCallResult) × EngineState
  | [] => ([], s)
  | env :: envs =>
    let (answer, s') := g.executeOnResult env s id
    let (answers, s'') := executeAll g s' id envs
    (answer :: answers, s'')

omit [F64.Fmt] [Sha256] [PipelineLib] in
theorem SameOrigin.trans {t t' t'' : Task} (h : SameOrigin t t') (h' : SameOrigin t' t'') : SameOrigin t t'' :=
  ⟨h'.id.trans h.id, h'.originalRequest.trans h.originalRequest,
    h'.preApprovalTransformed.trans h.preApprovalTransformed, h'.requestHash.trans h.requestHash,
    h'.principal.trans h.principal, h'.createdAt.trans h.createdAt, h'.ttl.trans h.ttl,
    h'.expiresAt.trans h.expiresAt, h'.onTimeout.trans h.onTimeout⟩

theorem sends_congr {t t' : Task} (horigin : SameOrigin t t') (hst : t'.status = t.status) (env : CallEnv) :
    env.sends g t' = env.sends g t := by
  rw [← runPipeline_sent, ← runPipeline_sent, runPipeline_congr horigin hst]

theorem autoAnswer_congr {t t' : Task} (horigin : SameOrigin t t') (hexp : t.status = .expired)
    (hst : t'.status = t.status) (env : CallEnv) : g.autoAnswer t' env = g.autoAnswer t env := by
  unfold Engine.autoAnswer
  rw [runPipeline_congr horigin hst]
  split
  · rfl
  · rename_i result _
    cases result with
    | success r => rfl
    | failure info => simp only [Engine.answer, hst, hexp, if_true]

/-- Every call of a list does what it would do as the first one. -/
theorem executeAll_expired (t : Task) (hexp : t.status = .expired) (hto : t.onTimeout = .approve)
    (envs : List CallEnv) {s : EngineState} {id : TaskId} {e : TaskEntry} (he : s.store.tasks.lookup id = some e)
    (horigin : SameOrigin t e.task) (hst : e.task.status = t.status) (hfree : id ∉ s.executing) :
    (g.executeAll s id envs).1 = envs.map (g.autoAnswer t) ∧
    (g.executeAll s id envs).2.forwards.length = s.forwards.length + envs.countP (·.sends g t) := by
  induction envs generalizing s e with
  | nil => exact ⟨rfl, rfl⟩
  | cons env envs ih =>
    obtain ⟨hanswer, hlog, hexec, e', he', horigin', hexp'⟩ :=
      executeOnResult_expired (g := g) env he (hst.trans hexp) (horigin.onTimeout.trans hto) hfree
    have hrest := ih he' (horigin.trans horigin') (hexp'.trans hexp.symm) (by rw [hexec]; exact hfree)
    constructor
    · simp only [Engine.executeAll, List.map_cons, hrest.1, hanswer, autoAnswer_congr horigin hexp hst]
    · simp only [Engine.executeAll, List.countP_cons, hrest.2, hlog, sends_congr horigin hst]
      omega

/-- Of all the calls the request is sent at most once, and every call after a successful one returns the result
that it has recorded. -/
def ExecutedOnce (g : Engine) (s : EngineState) (id : TaskId) (envs : List CallEnv) : Prop :=
  (g.executeAll s id envs).2.forwards.length ≤ s.forwards.length + 1 ∧
    (g.executeAll s id envs).1.Pairwise fun a b => ∀ r, a = .ok r → b = .ok r

omit [F64.Fmt] [Sha256] [PipelineLib] in
theorem countP_le_one_iff {α : Type} (p : α → Bool) (l : List α) :
    l.countP p ≤ 1 ↔ l.Pairwise fun a b => ¬ (p a = true ∧ p b = true) := by
  induction l with
  | nil => simp
  | cons a l ih =>
    rw [List.countP_cons, List.pairwise_cons, ← ih]
    by_cases ha : p a = true
    · have hzero : l.countP p + 1 ≤ 1 ↔ ∀ b ∈ l, ¬ p b = true := by
        rw [← List.countP_eq_zero]
        omega
      simp only [ha, if_true, true_and, hzero]
      constructor
      · intro h
        exact ⟨h, by rw [List.countP_eq_zero.mpr h]; omega⟩
      · exact fun h => h.1
    · simp [ha]

/-- The calls on an expired task execute it at most once exactly when no two of them get as far as sending the
request and none of them comes after one that succeeds. -/
theorem autoApprove_once_iff {s : EngineState} {id : TaskId} {e : TaskEntry}
    (he : s.store.tasks.lookup id = some e) (hexp : e.task.status = .expired) (hto : e.task.onTimeout = .approve)
    (hfree : id ∉ s.executing) (envs : List CallEnv) :
    ExecutedOnce g s id envs ↔
      envs.Pairwise fun a b => ¬ (a.sends g e.task = true ∧ b.sends g e.task = true) ∧
        a.succeeds g e.task = false := by
  obtain ⟨hanswers, hlog⟩ := executeAll_expired (g := g) e.task hexp hto envs he (.refl _) rfl hfree
  rw [ExecutedOnce, hanswers, hlog, List.pairwise_map, Nat.add_le_add_iff_left, countP_le_one_iff, List.pairwise_and_iff]
  constructor
  · rintro ⟨hsend, hsame⟩
    refine ⟨hsend, (hsend.and hsame).imp ?_⟩
    rintro a b ⟨hnot, hab⟩
    by_contra ha
    rw [Bool.not_eq_false] at ha
    obtain ⟨r, hr⟩ := (autoAnswer_ok hexp a).mpr ha
    have hb := (autoAnswer_ok hexp b).mp ⟨r, hab r hr⟩
    exact hnot ⟨sends_of_succeeds ha, sends_of_succeeds hb⟩
  · rintro ⟨hsend, hlast⟩
    refine ⟨hsend, hlast.imp ?_⟩
    intro a b ha r hr
    have := (autoAnswer_ok hexp a).mp ⟨r, hr⟩
    rw [ha] at this
    cases this

end

namespace Sample

/-- The task `tg_1` is created with `on_timeout: approve` and expires. -/
def expired : List (ThreadAct EnginePc EngineInput) :=
  storeCall (.create "tg_1" 0 request request principal none .approve) ++
  storeCall (.expireOverdue (700 * 1000000000))

/-- A call whose request passes and that ends in the given way. -/
def call (ending : CallEnd) : CallEnv where
  granted := 701 * 1000000000
  pipeline := { now := 701 * 1000000000, policy := fun _ => .ok .forward, inspect := fun _ _ _ => .approve }
  settled := 702 * 1000000000
  ending

/-- Upstream answers with a text. -/
def answers (text : String) : CallEnd := .reply (.response (some (.string text)) none)

def isAutoApproved (s : ThreadState EngineState EnginePc) : Bool :=
  decide ("tg_1" ∉ s.shared.executing) && (s.shared.store.tasks.lookup "tg_1").any fun e =>
    decide (e.task.status = .expired ∧ e.task.onTimeout = .approve)

end Sample

section

attribute [local instance] Sample.f64Fmt Sample.sha256 Sample.pipelineLib

theorem exists_autoApproved {s : ThreadState EngineState EnginePc} (h : Sample.isAutoApproved s = true) :
    "tg_1" ∉ s.shared.executing ∧ ∃ e, s.shared.store.tasks.lookup "tg_1" = some e ∧ e.task.status = .expired ∧
      e.task.onTimeout = .approve := by
  obtain ⟨hfree, hany⟩ := Bool.and_eq_true_iff.mp h
  obtain ⟨e, he, hboth⟩ := (Option.any_eq_true ..).mp hany
  exact ⟨of_decide_eq_true hfree, e, he, of_decide_eq_true hboth⟩

/-- Two calls, one after the other: both send the request, and the second one returns another result. -/
def Sample.sentTwice : (engineMachine Sample.engine {}).RunTo (fun _ _ => true) fun s =>
    isAutoApproved s && decide ((Sample.engine.executeAll s.shared "tg_1"
      [call (answers "a"), call (answers "b")]).2.forwards.length = s.shared.forwards.length + 2) where
  actions := expired
  passes := by decide +kernel

theorem autoApprove_sent_twice :
    ∃ s, (engineMachine Sample.engine {}).Reachable s ∧
      ("tg_1" ∉ s.shared.executing ∧ ∃ e, s.shared.store.tasks.lookup "tg_1" = some e ∧ e.task.status = .expired ∧
        e.task.onTimeout = .approve) ∧
      ¬ ExecutedOnce Sample.engine s.shared "tg_1" [Sample.call (Sample.answers "a"), Sample.call (Sample.answers "b")] := by
  obtain ⟨s, hreach, hboth⟩ := Sample.sentTwice.exists_reachable
  obtain ⟨hauto, hlen⟩ := Bool.and_eq_true_iff.mp hboth
  refine ⟨s, hreach, exists_autoApproved hauto, ?_⟩
  intro honce
  have hle := honce.1
  rw [of_decide_eq_true hlen] at hle
  omega

/-- A call that times out before its request is sent, and then one that succeeds. -/
theorem autoApprove_once_iff_sample :
    ∃ s, (engineMachine Sample.engine {}).Reachable s ∧
      ExecutedOnce Sample.engine s.shared "tg_1" [Sample.call .timeoutBefore, Sample.call (Sample.answers "a")] := by
  have hrun : ((engineMachine Sample.engine {}).exec (engineMachine Sample.engine {}).init Sample.expired).any
      Sample.isAutoApproved = true := by
    decide
  obtain ⟨s, hreach, hauto⟩ := Machine.exists_reachable_of_exec hrun
  obtain ⟨hfree, e, he, hexp, hto⟩ := exists_autoApproved hauto
  refine ⟨s, hreach, (autoApprove_once_iff he hexp hto hfree _).mpr ?_⟩
  simp [Sample.call, CallEnv.sends, CallEnv.succeeds]

end

end ThoughtGate
