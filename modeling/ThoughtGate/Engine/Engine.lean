import ThoughtGate.Engine.Pipeline
import ThoughtGate.Task.Effects
import ThoughtGate.Lib.Threads

/-!
# The approval engine

`execute_on_result` of `governance/engine.rs`, twice: as a function of one call's environment
(`executeOnResult`), and as a thread that is interleaved with other calls and with the operations of the store
(`engineProgram`), cut where the source awaits or touches shared data:

* `start` reads the task from the store, and all later decisions are about this copy;
* `acquire` inserts the id into the executing set;
* `guarded`, `policing` and `ambering` are the phases of the pipeline before the request is sent;
* `sent` waits for upstream, `settle` writes the outcome to the store, `release` drops the `ExecutingGuard`.

A caller's future can be dropped at an await (`cancel`), which drops the guard, and the timeout around the
pipeline can fire there (`timeout`). What is sent upstream is logged in `forwards`.
-/

namespace ThoughtGate

/-- `ApprovalEngine`: its pipeline and the fields of its configuration that are read. -/
structure Engine where
  pipeline : Pipeline
  approvalTimeout : Duration := Duration.fromSecs 600
  onTimeout : TimeoutAction := .deny
  executionTimeout : Duration := Duration.fromSecs 30

/-- A request sent upstream, with the task as the call had read it and what let it pass: the approval, the clock
when it was validated and the policy engine that was asked again. -/
structure Forward where
  id : TaskId
  task : Task
  approval : ApprovalRecord
  now : DateTime
  policy : PolicyRequest → Except String PolicyAction
  request : ToolCallRequest

/-- The shared state. `issued` are the ids drawn so far, `forwards` the log of what was sent. -/
structure EngineState where
  store : TaskStore
  executing : List TaskId
  issued : List TaskId
  forwards : List Forward

namespace Engine

/-! ### Pieces of a call -/

/-- The approval that `handle_expired_task` makes up. -/
def syntheticApproval (g : Engine) (now : DateTime) : ApprovalRecord where
  decision := .approved
  decidedBy := "system:auto-approve"
  decidedAt := now
  approvalValidUntil := now + g.executionTimeout.toChrono.getD 0
  metadata := some (.object [("auto_approve", .bool true), ("reason", .string "timeout with on_timeout: approve")])

/-- The approval a call goes by: the recorded one, or the synthetic one for an expired task. -/
def approvalOf (g : Engine) (task : Task) (now : DateTime) : Option ApprovalRecord :=
  if task.status = .expired then some (g.syntheticApproval now) else task.approval

/-- The task as the pipeline sees it: an expired one is passed with its status patched. -/
def pipelineTask (task : Task) : Task := { task with status := .executing }

def timeoutFailure (g : Engine) : FailureInfo :=
  ⟨.upstreamError, "Pipeline execution timed out after " ++ toString (Duration.asSecs g.executionTimeout) ++ "s",
    true⟩

/-- `task_store.get` with its error mapped. -/
def getTask (store : TaskStore) (id : TaskId) : Except ThoughtGateError Task :=
  match store.get id with
  | .ok task => .ok task
  | .error (.notFound id) => .error (.taskNotFound id)
  | .error e => .error (.serviceUnavailable e.display)

/-- The dispatch on the status: `none` for the two that go on to the pipeline. -/
def dispatch (id : TaskId) (task : Task) : Option (Except ThoughtGateError ToolCallResult) :=
  match task.status with
  | .inputRequired | .working => some (.error (.taskResultNotReady id))
  | .executing => none
  | .rejected => some (.error (.approvalRejected task.originalRequest.name (task.approval.map (·.decidedBy)) none))
  | .expired =>
    match task.onTimeout with
    | .deny => some (.error (.approvalTimeout task.originalRequest.name (Duration.asSecs task.ttl) none))
    | .approve => none
  | .failed => some (.error (.serviceUnavailable ((task.failure.map (·.reason)).getD "Task failed")))
  | .cancelled => some (.error (.taskCancelled id))
  | .completed =>
    match task.result with
    | some result => some (.ok result)
    | none => some (.error (.serviceUnavailable "Task completed but no result available"))

/-- Whether a text contains another one (`str::contains`). -/
def contains (text part : String) : Bool := text.toList.tails.any fun t => part.toList.isPrefixOf t

/-- `map_pipeline_failure`. -/
def mapPipelineFailure (g : Engine) (info : FailureInfo) (task : Task) : ThoughtGateError :=
  let tool := task.originalRequest.name
  match info.stage with
  | .approvalTimeout => .approvalTimeout tool (Duration.asSecs g.approvalTimeout) none
  | .approvalRejected => .approvalRejected tool (task.approval.map (·.decidedBy)) none
  | .policyDrift => .policyDrift tool task.id
  | .transformDrift => .transformDrift tool task.id
  | .upstreamError =>
    if contains info.reason "timeout" || contains info.reason "timed out" then
      .upstreamTimeout "unknown" (Duration.asSecs g.executionTimeout)
    else .upstreamError (-32002) info.reason
  | _ => .serviceUnavailable info.reason

/-- The store after the outcome of a call is written: `complete` or `fail` for an approved task,
`record_auto_approve_result` for the success of an expired one. -/
def settleStore (store : TaskStore) (now : DateTime) (id : TaskId) (task : Task) (approval : ApprovalRecord) :
    PipelineResult → TaskStore
  | .success result =>
    if task.status = .expired then (store.recordAutoApproveResult now id result approval).2
    else (store.complete now id result).2
  | .failure info => if task.status = .expired then store else (store.fail now id info).2

/-- What a call returns for an outcome of the pipeline. -/
def answer (g : Engine) (task : Task) : PipelineResult → Except ThoughtGateError ToolCallResult
  | .success result => .ok result
  | .failure info =>
    if task.status = .expired then
      .error (.serviceUnavailable ("Auto-approved task execution failed: " ++ info.reason))
    else .error (g.mapPipelineFailure info task)

end Engine

/-! ### One call by itself -/

/-- How the wait of a call ends: the timeout around the pipeline fires before the request is sent, it fires
after, or upstream answers. -/
inductive CallEnd where
  | timeoutBefore
  | timeoutAfter
  | reply (reply : UpstreamReply)

/-- Everything one call sees of the world: the clock when it grants (auto-approval), when it validates and when it
writes the outcome, the policy engine, the inspectors and how it ends. -/
structure CallEnv where
  granted : DateTime
  pipeline : PipelineEnv
  settled : DateTime
  ending : CallEnd

namespace Engine

variable [F64.Fmt] [Sha256] [PipelineLib]

/-- The outcome of the pipeline, and the request if it was sent. The timeout has no outcome of its own on the
auto-approval path. -/
def runPipeline (g : Engine) (env : CallEnv) (task : Task) (approval : ApprovalRecord) :
    Option PipelineResult × Option ToolCallRequest :=
  let timedOut := if task.status = .expired then none else some (.failure g.timeoutFailure)
  match Pipeline.validateApproval env.pipeline.now (pipelineTask task) approval with
  | .error info => (some (.failure info), none)
  | .ok () =>
    match env.ending with
    | .timeoutBefore => (timedOut, none)
    | .timeoutAfter | .reply _ =>
      match g.pipeline.prepare env.pipeline (pipelineTask task) approval with
      | .error info => (some (.failure info), none)
      | .ok request =>
        match env.ending with
        | .reply reply => (some (Pipeline.forwardToUpstream reply), some request)
        | _ => (timedOut, some request)

/-- `execute_on_result`, uninterrupted: the answer and the state afterwards. -/
def executeOnResult (g : Engine) (env : CallEnv) (s : EngineState) (id : TaskId) :
    Except ThoughtGateError ToolCallResult × EngineState :=
  match getTask s.store id with
  | .error e => (.error e, s)
  | .ok task =>
    match dispatch id task with
    | some answer => (answer, s)
    | none =>
      if id ∈ s.executing then (.error (.serviceUnavailable "Task execution already in progress"), s)
      else
        match g.approvalOf task env.granted with
        | none => (.error (.serviceUnavailable "Task approved but no approval record"), s)
        | some approval =>
          let (result, sent) := g.runPipeline env task approval
          let forwards := match sent with
            | none => s.forwards
            | some request => s.forwards ++
              [{ id, task, approval, now := env.pipeline.now, policy := env.pipeline.policy, request }]
          match result with
          | none =>
            (.error (.serviceUnavailable ("Auto-approved task execution timed out after " ++
              toString (Duration.asSecs g.executionTimeout) ++ "s")), { s with forwards })
          | some result =>
            (g.answer task result,
              { s with store := settleStore s.store env.settled id task approval result, forwards })

end Engine

/-! ### Calls as threads -/

/-- Where a call stands; `op` is a call of the store from elsewhere. -/
inductive EnginePc where
  | start (id : TaskId)
  | acquire (id : TaskId) (task : Task)
  | guarded (id : TaskId) (task : Task)
  | policing (id : TaskId) (task : Task) (approval : ApprovalRecord) (now : DateTime)
  | ambering (id : TaskId) (task : Task) (approval : ApprovalRecord) (now : DateTime)
      (policy : PolicyRequest → Except String PolicyAction)
  | sent (id : TaskId) (task : Task) (approval : ApprovalRecord)
  | settle (id : TaskId) (task : Task) (approval : ApprovalRecord) (result : PipelineResult)
  | release (id : TaskId)
  | op (o : StoreOp)

/-- What a step of a call takes from outside. -/
inductive EngineInput where
  | go
  | clock (granted now : DateTime)
  | policy (f : PolicyRequest → Except String PolicyAction)
  | inspect (f : Nat → String → String → InspectorReply)
  | reply (r : UpstreamReply)
  | timeout
  | cancel

namespace EnginePc

variable [F64.Fmt] [Sha256] [PipelineLib]

/-- The timeout around the pipeline: a failure to record on the approved path, a plain return on the other. -/
def timedOut (g : Engine) (id : TaskId) (task : Task) (approval : ApprovalRecord) : EnginePc :=
  if task.status = .expired then .release id else .settle id task approval (.failure g.timeoutFailure)

/-- The future is dropped, and the guard with it. -/
def drop (s : EngineState) (id : TaskId) : Option (EngineState × Option EnginePc) :=
  some ({ s with executing := s.executing.erase id }, none)

/-- One step of a call. -/
def next (g : Engine) (s : EngineState) (p : EnginePc) (i : EngineInput) :
    Option (EngineState × Option EnginePc) :=
  match p with
  | .start id =>
    match i with
    | .go =>
      match s.store.get id with
      | .error _ => some (s, none)
      | .ok task => if Engine.dispatch id task = none then some (s, some (.acquire id task)) else some (s, none)
    | .cancel => some (s, none)
    | _ => none
  | .acquire id task =>
    match i with
    | .go =>
      if id ∈ s.executing then some (s, none)
      else some ({ s with executing := id :: s.executing }, some (.guarded id task))
    | _ => none
  | .guarded id task =>
    match i with
    | .clock granted now =>
      match g.approvalOf task granted with
      | none => some (s, some (.release id))
      | some approval =>
        match Pipeline.validateApproval now (Engine.pipelineTask task) approval with
        | .error info => some (s, some (.settle id task approval (.failure info)))
        | .ok () => some (s, some (.policing id task approval now))
    | _ => none
  | .policing id task approval now =>
    match i with
    | .policy f =>
      match Pipeline.reevaluatePolicy f (Engine.pipelineTask task) approval with
      | .error info => some (s, some (.settle id task approval (.failure info)))
      | .ok () => some (s, some (.ambering id task approval now f))
    | .timeout => some (s, some (timedOut g id task approval))
    | .cancel => drop s id
    | _ => none
  | .ambering id task approval now policy =>
    match i with
    | .inspect f =>
      match g.pipeline.postApprovalAmber f (Engine.pipelineTask task) with
      | .error info => some (s, some (.settle id task approval (.failure info)))
      | .ok request =>
        some ({ s with forwards := s.forwards ++ [{ id, task, approval, now, policy, request }] },
          some (.sent id task approval))
    | .timeout => some (s, some (timedOut g id task approval))
    | .cancel => drop s id
    | _ => none
  | .sent id task approval =>
    match i with
    | .reply r => some (s, some (.settle id task approval (Pipeline.forwardToUpstream r)))
    | .timeout => some (s, some (timedOut g id task approval))
    | .cancel => drop s id
    | _ => none
  | .settle id task approval result =>
    match i with
    | .clock _ now =>
      some ({ s with store := Engine.settleStore s.store now id task approval result }, some (.release id))
    | _ => none
  | .release id =>
    match i with
    | .go => some ({ s with executing := s.executing.erase id }, none)
    | _ => none
  | .op o =>
    match i with
    | .go =>
      if ∀ id ∈ o.newId, id ∉ s.issued then
        some ({ s with store := o.apply s.store, issued := o.newId.toList ++ s.issued }, none)
      else none
    | _ => none

/-- Calls start at `start`; the store is called from elsewhere with every operation but
`record_auto_approve_result`, which only the engine calls. -/
def starts : EnginePc → Bool
  | .start _ => true
  | .op (.recordAutoApproveResult ..) => false
  | .op _ => true
  | _ => false

end EnginePc

/-- The engine, its store and their callers. -/
def engineProgram [F64.Fmt] [Sha256] [PipelineLib] (g : Engine) (config : TaskStoreConfig) :
    Program EngineState EnginePc EngineInput Unit where
  init := { store := .new config, executing := [], issued := [], forwards := [] }
  start _ _ p := p.starts
  next s p i := p.next g s i
  held _ := []
  wants _ := none

abbrev engineMachine [F64.Fmt] [Sha256] [PipelineLib] (g : Engine) (config : TaskStoreConfig) :
    Machine (ThreadState EngineState EnginePc) (ThreadAct EnginePc EngineInput) :=
  (engineProgram g config).machine

/-! ### What a step can do -/

namespace EnginePc

/-- The task a call goes by, as it read it. -/
def snapshot : EnginePc → Option (TaskId × Task)
  | .acquire id task | .guarded id task | .policing id task _ _ | .ambering id task _ _ _ | .sent id task _
  | .settle id task _ _ => some (id, task)
  | _ => none

/-- The id whose guard a call holds. -/
def guards : EnginePc → Option TaskId
  | .guarded id _ | .policing id _ _ _ | .ambering id _ _ _ _ | .sent id _ _ | .settle id _ _ _ | .release id =>
    some id
  | _ => none

/-- The calls that hold a guard and have sent nothing. -/
def preparing : EnginePc → Option (TaskId × Task)
  | .guarded id task | .policing id task _ _ | .ambering id task _ _ _ => some (id, task)
  | _ => none

/-- The approval a call goes by, or may come to go by. -/
def grants (g : Engine) : EnginePc → ApprovalRecord → Prop
  | .guarded _ task, r => ∃ granted, g.approvalOf task granted = some r
  | .policing _ _ approval _, r | .ambering _ _ approval _ _, r | .sent _ _ approval, r | .settle _ _ approval _, r =>
    r = approval
  | _, _ => False

/-- The calls whose outcome is yet to be written. -/
def unsettled : EnginePc → Option (TaskId × Task)
  | .sent id task _ | .settle id task _ _ => some (id, task)
  | _ => none

end EnginePc

/-- The steps of a call: what each has seen, and what it makes of the state. -/
inductive EngineStep [F64.Fmt] [Sha256] [PipelineLib] (g : Engine) (s : EngineState) :
    EnginePc → EngineInput → EngineState → Option EnginePc → Prop
  | leave {p : EnginePc} {i : EngineInput} : p.guards = none → p.unsettled = none → EngineStep g s p i s none
  | read {id : TaskId} {e : TaskEntry} {i : EngineInput} :
      s.store.tasks.lookup id = some e → Engine.dispatch id e.task = none →
      EngineStep g s (.start id) i s (some (.acquire id e.task))
  | acquired {id : TaskId} {task : Task} {i : EngineInput} : id ∉ s.executing →
      EngineStep g s (.acquire id task) i { s with executing := id :: s.executing } (some (.guarded id task))
  | validated {id : TaskId} {task : Task} {approval : ApprovalRecord} {granted now : DateTime} :
      g.approvalOf task granted = some approval →
      Pipeline.validateApproval now (Engine.pipelineTask task) approval = .ok () →
      EngineStep g s (.guarded id task) (.clock granted now) s (some (.policing id task approval now))
  | permitted {id : TaskId} {task : Task} {approval : ApprovalRecord} {now : DateTime}
      {f : PolicyRequest → Except String PolicyAction} :
      Pipeline.reevaluatePolicy f (Engine.pipelineTask task) approval = .ok () →
      EngineStep g s (.policing id task approval now) (.policy f) s (some (.ambering id task approval now f))
  | forwarded {id : TaskId} {task : Task} {approval : ApprovalRecord} {now : DateTime}
      {policy : PolicyRequest → Except String PolicyAction} {f : Nat → String → String → InspectorReply}
      {request : ToolCallRequest} :
      g.pipeline.postApprovalAmber f (Engine.pipelineTask task) = .ok request →
      EngineStep g s (.ambering id task approval now policy) (.inspect f)
        { s with forwards := s.forwards ++ [{ id, task, approval, now, policy, request }] }
        (some (.sent id task approval))
  | ended {p : EnginePc} {i : EngineInput} {id : TaskId} {task : Task} {approval : ApprovalRecord}
      {result : PipelineResult} : p.guards = some id → p.snapshot = some (id, task) → p.grants g approval →
      EngineStep g s p i s (some (.settle id task approval result))
  | abandoned {p : EnginePc} {i : EngineInput} {id : TaskId} : p.guards = some id →
      (∀ task, p.unsettled = some (id, task) → task.status = .expired) →
      EngineStep g s p i s (some (.release id))
  | settled {id : TaskId} {task : Task} {approval : ApprovalRecord} {result : PipelineResult}
      {granted now : DateTime} :
      EngineStep g s (.settle id task approval result) (.clock granted now)
        { s with store := Engine.settleStore s.store now id task approval result } (some (.release id))
  | dropped {p : EnginePc} {id : TaskId} : p.guards = some id →
      EngineStep g s p .cancel { s with executing := s.executing.erase id } none
  | released {id : TaskId} {i : EngineInput} :
      EngineStep g s (.release id) i { s with executing := s.executing.erase id } none
  | op {o : StoreOp} {i : EngineInput} : (∀ id ∈ o.newId, id ∉ s.issued) →
      EngineStep g s (.op o) i
        { s with store := o.apply s.store, issued := o.newId.toList ++ s.issued } none

/-- Running out of time gives up the approval, or ends with a failure that is recorded. -/
theorem EngineStep.timedOut [F64.Fmt] [Sha256] [PipelineLib] {g : Engine} {s : EngineState} {p : EnginePc}
    {i : EngineInput} {id : TaskId} {task : Task} {approval : ApprovalRecord} (hguards : p.guards = some id)
    (hsnapshot : p.snapshot = some (id, task)) (hgrants : p.grants g approval)
    (hunsettled : ∀ task', p.unsettled = some (id, task') → task' = task) :
    EngineStep g s p i s (some (EnginePc.timedOut g id task approval)) := by
  unfold EnginePc.timedOut
  split
  · rename_i hexpired
    refine .abandoned hguards fun task' htask' => ?_
    rw [hunsettled task' htask']
    exact hexpired
  · exact .ended hguards hsnapshot hgrants

theorem engine_next [F64.Fmt] [Sha256] [PipelineLib] {g : Engine} {s s' : EngineState} {p : EnginePc}
    {i : EngineInput} {p' : Option EnginePc} (h : p.next g s i = some (s', p')) : EngineStep g s p i s' p' := by
  cases p with
  | start id =>
    cases i with
    | go =>
      simp only [EnginePc.next, TaskStore.get] at h
      cases he : s.store.tasks.lookup id with
      | none =>
        rw [he] at h
        cases h
        exact .leave rfl rfl
      | some e =>
        rw [he] at h
        dsimp only at h
        split at h
        · rename_i hgo
          cases h
          exact .read he hgo
        · cases h
          exact .leave rfl rfl
    | cancel =>
      cases h
      exact .leave rfl rfl
    | _ => cases h
  | acquire id task =>
    cases i with
    | go =>
      simp only [EnginePc.next] at h
      split at h
      · cases h
        exact .leave rfl rfl
      · rename_i hfree
        cases h
        exact .acquired hfree
    | _ => cases h
  | guarded id task =>
    cases i with
    | clock granted now =>
      simp only [EnginePc.next] at h
      split at h
      · cases h
        exact .abandoned rfl fun task htask => by cases htask
      · rename_i approval happ
        split at h
        · cases h
          exact .ended rfl rfl ⟨granted, happ⟩
        · rename_i hval
          cases h
          exact .validated happ hval
    | _ => cases h
  | policing id task approval now =>
    cases i with
    | policy f =>
      simp only [EnginePc.next] at h
      split at h
      · cases h
        exact .ended rfl rfl rfl
      · rename_i hok
        cases h
        exact .permitted hok
    | timeout =>
      cases h
      exact .timedOut rfl rfl rfl fun _ htask => by cases htask
    | cancel =>
      cases h
      exact .dropped rfl
    | _ => cases h
  | ambering id task approval now policy =>
    cases i with
    | inspect f =>
      simp only [EnginePc.next] at h
      split at h
      · cases h
        exact .ended rfl rfl rfl
      · rename_i request hok
        cases h
        exact .forwarded hok
    | timeout =>
      cases h
      exact .timedOut rfl rfl rfl fun _ htask => by cases htask
    | cancel =>
      cases h
      exact .dropped rfl
    | _ => cases h
  | sent id task approval =>
    cases i with
    | reply r =>
      cases h
      exact .ended rfl rfl rfl
    | timeout =>
      cases h
      exact .timedOut rfl rfl rfl fun _ htask => by
        cases htask
        rfl
    | cancel =>
      cases h
      exact .dropped rfl
    | _ => cases h
  | settle id task approval result =>
    cases i with
    | clock granted now =>
      cases h
      exact .settled
    | _ => cases h
  | release id =>
    cases i with
    | go =>
      cases h
      exact .released
    | _ => cases h
  | op o =>
    cases i with
    | go =>
      simp only [EnginePc.next] at h
      split at h
      · rename_i hfresh
        cases h
        exact .op hfresh
      · cases h
    | _ => cases h

end ThoughtGate
