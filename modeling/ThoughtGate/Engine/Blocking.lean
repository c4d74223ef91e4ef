import ThoughtGate.Engine.AtMostOnce

/-!
# Blocking calls

`wait_and_execute` of `governance/engine.rs`: a caller that waits for its approval polls `execute_on_result` until
there is an answer. It reports "The tool call was NOT executed" in two cases: its own deadline has passed, or the poll
is answered with an `ApprovalTimeout`. The second report is earned, the first one is not: the deadline is the
caller's, the task goes by its own clock and can be approved and sent afterwards by another call, or have been sent
already (`reported_and_sent`).

A waiting caller is a thread `t` that runs its polls itself, as the call `t` of the engine; everything else happens
between its steps. `quiet` rules out the reports that come too early or too late, and then a report is right from the
moment it is made (`report_is_true`). The invariant is `Silent`: nothing has been sent for the task, no call prepares it,
and the stored task is one that no call goes on with.
-/

namespace ThoughtGate

/-! ### The model -/

/-- What `wait_and_execute` returns when the approval timed out. -/
def timedOutResult (secs : Nat) (tool : String) : ToolCallResult where
  content := .array [.object [("type", .string "text"), ("text", .string ("Approval timed out after " ++ toString secs ++
    "s for tool '" ++ tool ++ "'. The request was sent to the approval channel but no response was received. " ++
    "The tool call was NOT executed. You may retry."))]]
  isError := true

/-- The heartbeat for the caller's client. -/
def progressNotification (id : TaskId) : Value :=
  .object [("jsonrpc", .string "2.0"), ("method", .string "notifications/progress"),
    ("params", .object [("progressToken", .string ("blocking-" ++ id)), ("progress", .number (.posInt 0)),
      ("total", .number (.posInt 1)), ("message", .string "Awaiting approval...")])]

/-- How a wait ends: with a report, or with the answer of the last poll. -/
inductive BlockingEnd where
  | timedOut (secs : Nat) (tool : String)
  | answered (answer : Except ThoughtGateError ToolCallResult)

def BlockingEnd.isTimeout : BlockingEnd → Bool
  | .timedOut .. => true
  | .answered _ => false

/-- What `wait_and_execute` returns. -/
def BlockingEnd.result : BlockingEnd → Except ThoughtGateError ToolCallResult
  | .timedOut secs tool => .ok (timedOutResult secs tool)
  | .answered answer => answer

/-- The `match` on the answer of a poll: `none` is to go on waiting. -/
def afterAnswer : Except ThoughtGateError ToolCallResult → Option BlockingEnd
  | .error (.taskResultNotReady _) => none
  | .error (.approvalTimeout tool secs _) => some (.timedOut secs tool)
  | answer => some (.answered answer)

/-- The answer of `execute_on_result`, at the step of the call that decides it. -/
def EnginePc.answer (g : Engine) (s : EngineState) (p : EnginePc) (i : EngineInput) :
    Option (Except ThoughtGateError ToolCallResult) :=
  match p, i with
  | .start id, .go =>
    match Engine.getTask s.store id with
    | .error e => some (.error e)
    | .ok task => Engine.dispatch id task
  | .acquire id _, .go =>
    if id ∈ s.executing then some (.error (.serviceUnavailable "Task execution already in progress")) else none
  | .guarded _ task, .clock granted _ =>
    match g.approvalOf task granted with
    | none => some (.error (.serviceUnavailable "Task approved but no approval record"))
    | some _ => none
  | .policing _ task _ _, .timeout | .ambering _ task _ _ _, .timeout | .sent _ task _, .timeout =>
    if task.status = .expired then
      some (.error (.serviceUnavailable ("Auto-approved task execution timed out after " ++
        toString (Duration.asSecs g.executionTimeout) ++ "s")))
    else none
  | .settle _ task _ result, .clock _ _ => some (g.answer task result)
  | _, _ => none

/-- Where a waiting caller stands: before the check of its deadline, waiting for the next tick, or polling, with
the answer as soon as there is one. -/
inductive BlockingStage where
  | checking
  | ticking
  | polling (answer : Option (Except ThoughtGateError ToolCallResult))

/-- A caller in `wait_and_execute`; `heartbeat` is the interval, when there is a `progress_tx`. -/
structure BlockingCall where
  id : TaskId
  tool : String
  timeout : Duration
  heartbeat : Option Duration
  deadline : Instant
  lastHeartbeat : Instant
  stage : BlockingStage

/-- The engine with its waiting callers, the heartbeats they sent and what they returned. -/
structure BlockingState where
  calls : ThreadState EngineState EnginePc
  waiters : Table Nat BlockingCall
  progress : List Value
  returned : List (TaskId × BlockingEnd)

/-- What happens: a step of a call or a store operation of its own, or the next step of a waiting caller. -/
inductive BlockingAct where
  | call (a : ThreadAct EnginePc EngineInput)
  | enter (t : Nat) (id : TaskId) (tool : String) (timeout : Duration) (heartbeat : Option Duration) (now : Instant)
  | check (t : Nat) (now : Instant)
  | tick (t : Nat) (now : Instant)
  | poll (t : Nat) (i : EngineInput)
  | resume (t : Nat)

/-- The thread that an action of the engine is about. -/
def threadOf : ThreadAct EnginePc EngineInput → Nat
  | .spawn t _ => t
  | .run t _ => t

namespace BlockingState

def setStage (s : BlockingState) (t : Nat) (x : BlockingCall) (stage : BlockingStage) : BlockingState :=
  { s with waiters := s.waiters.insert t { x with stage } }

/-- The caller returns. -/
def leave (s : BlockingState) (t : Nat) (id : TaskId) (e : BlockingEnd) : BlockingState :=
  { s with waiters := s.waiters.erase t, returned := s.returned ++ [(id, e)] }

/-- The heartbeat of the loop, once its interval has passed. -/
def beat (s : BlockingState) (x : BlockingCall) (now : Instant) : BlockingState × BlockingCall :=
  match x.heartbeat with
  | none => (s, x)
  | some interval =>
    if x.lastHeartbeat + interval ≤ now then
      ({ s with progress := s.progress ++ [progressNotification x.id] }, { x with lastHeartbeat := now })
    else (s, x)

variable [F64.Fmt] [Sha256] [PipelineLib]

/-- One step. A caller whose future is dropped takes no further step. -/
def step (g : Engine) (config : TaskStoreConfig) (s : BlockingState) : BlockingAct → Option BlockingState
  | .call a =>
    if s.waiters.lookup (threadOf a) = none then
      ((engineMachine g config).step s.calls a).map fun calls => { s with calls }
    else none
  | .enter t id tool timeout heartbeat now =>
    if s.waiters.lookup t = none ∧ s.calls.threads.lookup t = none then
      let x : BlockingCall :=
        { id, tool, timeout, heartbeat, deadline := now + timeout, lastHeartbeat := now, stage := .checking }
      some { s with waiters := s.waiters.insert t x }
    else none
  | .check t now =>
    match s.waiters.lookup t with
    | none => none
    | some x =>
      match x.stage with
      | .checking =>
        if x.deadline ≤ now then some (s.leave t x.id (.timedOut (Duration.asSecs x.timeout) x.tool))
        else some (s.setStage t x .ticking)
      | _ => none
  | .tick t now =>
    match s.waiters.lookup t with
    | none => none
    | some x =>
      match x.stage with
      | .ticking =>
        let (s, x) := s.beat x now
        ((engineMachine g config).step s.calls (.spawn t (.start x.id))).map fun calls =>
          { s with calls }.setStage t x (.polling none)
      | _ => none
  | .poll t i =>
    match s.waiters.lookup t, s.calls.threads.lookup t with
    | some x, some p =>
      match x.stage with
      | .polling answer =>
        ((engineMachine g config).step s.calls (.run t i)).map fun calls =>
          { s with calls }.setStage t x (.polling ((p.answer g s.calls.shared i).or answer))
      | _ => none
    | _, _ => none
  | .resume t =>
    match s.waiters.lookup t, s.calls.threads.lookup t with
    | some x, none =>
      match x.stage with
      | .polling (some answer) =>
        match afterAnswer answer with
        | some e => some (s.leave t x.id e)
        | none => some (s.setStage t x .checking)
      | _ => none
    | _, _ => none

end BlockingState

/-- The engine with its waiting callers. -/
def blockingMachine [F64.Fmt] [Sha256] [PipelineLib] (g : Engine) (config : TaskStoreConfig) :
    Machine BlockingState BlockingAct where
  init := { calls := (engineMachine g config).init, waiters := ∅, progress := [], returned := [] }
  step s a := s.step g config a

/-! ### When a report is right -/

/-- As the task stands, it has not been executed and will not be unless somebody approves it. -/
def Task.unexecuted (t : Task) : Bool :=
  match t.status with
  | .working | .inputRequired | .expired => decide (t.onTimeout = .deny)
  | .rejected | .cancelled => true
  | .failed => t.approval.isNone
  | .executing | .completed => false

/-- The operation takes the task, which waits for its approval, to `Executing`. -/
def StoreOp.executes (o : StoreOp) (s : TaskStore) (id : TaskId) : Bool :=
  (s.tasks.lookup id).any (·.task.status == .inputRequired) &&
    match o with
    | .transition _ id' newStatus _ => id' == id && newStatus == .executing
    | .transitionIf _ id' _ newStatus _ => id' == id && newStatus == .executing
    | .recordApproval _ id' decision _ _ => id' == id && decision == .approved
    | _ => false

/-- Some caller was told that the call on the task timed out and was not executed. -/
def BlockingState.reported (s : BlockingState) (id : TaskId) : Bool :=
  s.returned.any fun r => r.1 == id && r.2.isTimeout

/-- The steps that leave a report on the task right: the calls are undisturbed, the task is not approved any more once
it was reported, and a caller whose own deadline has passed reports it only when it stands unexecuted. -/
def quiet (id : TaskId) (s : BlockingState) : BlockingAct → Bool
  | .call (.run t i) =>
    undisturbedFor id s.calls (.run t i) &&
      match s.calls.threads.lookup t with
      | some (.op o) => !(s.reported id && o.executes s.calls.shared.store id)
      | _ => true
  | .poll t i => undisturbedFor id s.calls (.run t i)
  | .check t now =>
    match s.waiters.lookup t with
    | some x =>
      x.id != id || decide (now < x.deadline) || (s.calls.shared.store.tasks.lookup id).any (·.task.unexecuted)
    | none => true
  | _ => true

/-! ### The operations that execute nothing -/

section

open TaskStore

variable {s : TaskStore} {id : TaskId}

theorem TaskStatus.inputRequired_of_executing {a : TaskStatus} (h : a.canTransitionTo .executing = true) :
    a = .inputRequired := by
  cases a with
  | inputRequired => rfl
  | _ => cases h

/-- The task with that id, if stored, is not `Executing`. -/
abbrev NotExecuting (s : TaskStore) (id : TaskId) : Prop := StatusIn s id (· ≠ .executing)

theorem StoreOp.gives_unique {o : StoreOp} {a b : TaskStatus} (ha : o.gives id a) (hb : o.gives id b) : a = b := by
  cases o with
  | create | recordAutoApproveResult | cleanupTerminal => exact ha.elim
  | expireOverdue | failAllPending => exact ha.trans (Eq.symm hb)
  | _ => exact ha.2.trans hb.2.symm

/-- Only the operations that `executes` names take a task to `Executing`. -/
theorem NotExecuting.apply [F64.Fmt] [Sha256] {o : StoreOp} (hs : NotExecuting s id) (hnew : o.newId ≠ some id)
    (hno : o.executes s id = false) : NotExecuting (o.apply s) id := by
  by_cases hexec : o.gives id .executing
  · -- the task does not wait for its approval, so it is not moved
    have hany : (s.tasks.lookup id).any (·.task.status == .inputRequired) = false := by
      cases o with
      | transition | transitionIf =>
        obtain ⟨rfl, rfl⟩ := hexec
        simpa [StoreOp.executes] using hno
      | recordApproval now id' decision =>
        obtain ⟨rfl, hdecision⟩ := hexec
        cases decision with
        | approved => simpa [StoreOp.executes] using hno
        | rejected reason => cases hdecision
      | complete | fail | cancel => cases hexec.2
      | expireOverdue | failAllPending => cases hexec
      | create | recordAutoApproveResult | cleanupTerminal => exact hexec.elim
    have hboth : StatusIn s id fun st => st ≠ .executing ∧ st ≠ .inputRequired := by
      intro e he
      refine ⟨hs e he, ?_⟩
      rw [he] at hany
      simpa using hany
    refine StatusIn.mono (hboth.apply hnew ?_) fun _ h => h.1
    intro b hb a ha hcan
    rw [StoreOp.gives_unique hb hexec] at hcan
    exact absurd (TaskStatus.inputRequired_of_executing hcan) ha.2
  · refine StatusIn.apply hs hnew ?_
    rintro b hb a - - rfl
    exact hexec hb

/-- The end of a call executes nothing. -/
theorem NotExecuting.settleStore {id' : TaskId} (hs : NotExecuting s id) (now : DateTime) (task : Task)
    (approval : ApprovalRecord) (result : PipelineResult) :
    NotExecuting (Engine.settleStore s now id' task approval result) id := by
  refine StatusIn.settleStore hs ?_ ?_ now task approval result
  · rintro - a - -
    decide
  · rintro - a - -
    decide

end

/-! ### Tasks that no call goes on with -/

/-- The task is at its end, and no timeout approves it. -/
def Task.Dead (t : Task) : Prop := t.status.isTerminal = true ∧ (t.status = .expired → t.onTimeout = .deny)

/-- No timeout approves the task. -/
def Task.Denies (t : Task) : Prop := t.status.isTerminal = false ∨ t.status = .expired → t.onTimeout = .deny

/-- The task is not executed, and no timeout approves it. -/
def Task.Shut (t : Task) : Prop := t.status ≠ .executing ∧ t.Denies

theorem Task.Dead.shut {t : Task} (h : t.Dead) : t.Shut := by
  obtain ⟨hterm, hexp⟩ := h
  constructor
  · intro hst
    rw [hst] at hterm
    cases hterm
  · intro hlive
    apply hexp
    apply hlive.resolve_left
    rw [hterm]
    decide

theorem Task.Dead.step {auto : ApprovalRecord → Prop} {t t' : Task} (h : t.Dead) (hstep : TaskStep auto t t') :
    t'.Dead := by
  rcases hstep.status with hst | hcan
  · unfold Task.Dead
    rw [hst, hstep.sameOrigin.onTimeout]
    exact h
  · have hlive := TaskStatus.canTransitionTo_not_terminal hcan
    rw [h.1] at hlive
    cases hlive

theorem Task.Denies.step {auto : ApprovalRecord → Prop} {t t' : Task} (h : t.Denies) (hstep : TaskStep auto t t') :
    t'.Denies := by
  intro hlive
  rw [hstep.sameOrigin.onTimeout]
  rcases hstep.status with hst | hcan
  · rw [hst] at hlive
    exact h hlive
  · exact h (Or.inl (TaskStatus.canTransitionTo_not_terminal hcan))

theorem Task.Shut.dispatch {t : Task} (h : t.Shut) (id : TaskId) : Engine.dispatch id t ≠ none := by
  intro hgo
  rcases dispatch_none hgo with hst | ⟨hst, happrove⟩
  · exact h.1 hst
  · have hdeny := h.2 (Or.inr hst)
    rw [happrove] at hdeny
    cases hdeny

theorem Task.shut_of_unexecuted {t : Task} (h : t.unexecuted = true) : t.Shut := by
  unfold Task.unexecuted at h
  unfold Task.Shut Task.Denies
  cases hst : t.status with
  | working | inputRequired | expired =>
    rw [hst] at h
    exact ⟨by decide, fun _ => of_decide_eq_true h⟩
  | rejected | cancelled | failed => simp [TaskStatus.isTerminal]
  | executing | completed =>
    rw [hst] at h
    cases h

section

variable [F64.Fmt] [Sha256] [PipelineLib] {g : Engine} {config : TaskStoreConfig} {id : TaskId}
  {s s' : ThreadState EngineState EnginePc} {a : ThreadAct EnginePc EngineInput}

/-- Nothing was sent for the task, no call prepares it, and the stored task satisfies `P`. -/
structure Silent (P : Task → Prop) (id : TaskId) (s : ThreadState EngineState EnginePc) : Prop where
  issued : id ∈ s.shared.issued
  unsent : ∀ f ∈ s.shared.forwards, f.id ≠ id
  idle : s.threads.All fun _ p => ∀ task, p.preparing = some (id, task) → task.approval = none
  copies : s.threads.All fun _ p => ∀ task, p.snapshot = some (id, task) → task.status ≠ .expired
  stored : ∀ e, s.shared.store.tasks.lookup id = some e → P e.task

omit [F64.Fmt] [Sha256] [PipelineLib] in
theorem preparing_snapshot {p : EnginePc} {x : TaskId × Task} (h : p.preparing = some x) : p.snapshot = some x := by
  cases p with
  | guarded | policing | ambering => exact h
  | _ => cases h

/-- A call on a task without approval sends nothing. -/
theorem Silent.forwards {P : Task → Prop} {i : EngineInput} {t : Nat} {p : EnginePc} {shared : EngineState}
    {p' : Option EnginePc} (hs : Silent P id s) (hinv : EngineInv g s) (hp : s.threads.lookup t = some p)
    (hstep : EngineStep g s.shared p i shared p') : ∀ f ∈ shared.forwards, f.id ≠ id := by
  rcases hstep.forwards with hsame | ⟨id', task, approval, now, policy, inspect, request, rfl, -, -, happend⟩
  · rw [hsame]
    exact hs.unsent
  · rw [happend]
    intro f hf hid
    rcases List.mem_append.mp hf with hold | hlast
    · exact hs.unsent f hold hid
    · rw [List.mem_singleton] at hlast
      subst hlast
      have hid' : id' = id := hid
      subst hid'
      obtain ⟨⟨granted, happ⟩, -⟩ := hinv.sound t _ hp
      rw [Engine.approvalOf, if_neg (hs.copies t _ hp task rfl), hs.idle t _ hp task rfl] at happ
      cases happ

/-- One step, when the stored task is a shut one before. -/
theorem Silent.step {P : Task → Prop} (hP : ∀ t, P t → t.Shut) (hs : Silent P id s)
    (h : (engineMachine g config).Reachable s) (hok : undisturbedFor id s a = true)
    (ha : (engineMachine g config).step s a = some s')
    (hstored : ∀ e, s'.shared.store.tasks.lookup id = some e → P e.task) : Silent P id s' := by
  have hinv := reachable_engineInv h
  refine ⟨issued_step hinv ha hs.issued, ?_, ?_, ?_, hstored⟩
  · rcases Program.step_cases ha with ⟨t, p, rfl, -, -, rfl⟩ | ⟨t, i, p, shared, p', rfl, hp, -, hnext, rfl⟩
    · exact hs.unsent
    · exact hs.forwards hinv hp (engine_next hnext)
  · rcases Program.step_cases ha with ⟨t, p, rfl, -, hstart, rfl⟩ | ⟨t, i, p, shared, p', rfl, hp, -, hnext, rfl⟩
    · refine hs.idle.insert ?_
      intro task hprep
      cases p with
      | start | op => cases hprep
      | _ => cases hstart
    · intro u q hq task hprep
      rcases Program.settle_cases hq with ⟨rfl, rfl⟩ | ⟨-, hother⟩
      · rcases (engine_next hnext).preparing hprep with hsame | ⟨rfl, -⟩
        · exact hs.idle u p hp task hsame
        · -- the guard is taken on a copy of an executing task, and the stored one is not
          have hexec : task.status = .executing := by
            have hgo := ((reachable_follows h).1 u _ hp id task rfl).read
            exact (dispatch_none hgo).resolve_right fun hexp => hs.copies u _ hp task rfl hexp.1
          obtain ⟨e, he, hest⟩ := undisturbed_acquire hok hp hexec
          exact absurd hest (hP _ (hs.stored e he)).1
      · exact hs.idle u q hother task hprep
  · rcases Program.step_cases ha with ⟨t, p, rfl, -, hstart, rfl⟩ | ⟨t, i, p, shared, p', rfl, hp, -, hnext, rfl⟩
    · refine hs.copies.insert ?_
      intro task hsnap
      cases p with
      | start | op => cases hsnap
      | _ => cases hstart
    · intro u q hq task hsnap
      rcases Program.settle_cases hq with ⟨rfl, rfl⟩ | ⟨-, hother⟩
      · rcases (engine_next hnext).snapshot hsnap with hsame | ⟨⟨e, he, rfl⟩, hgo⟩
        · exact hs.copies u p hp task hsame
        · exact absurd hgo ((hP _ (hs.stored e he)).dispatch id)
      · exact hs.copies u q hother task hsnap

theorem Silent.dead_step (hs : Silent Task.Dead id s) (h : (engineMachine g config).Reachable s)
    (hok : undisturbedFor id s a = true) (ha : (engineMachine g config).step s a = some s') :
    Silent Task.Dead id s' := by
  refine hs.step (fun _ ht => ht.shut) h hok ha ?_
  exact taskIn_step (reachable_engineInv h) ha (fun _ _ ht hstep => ht.step hstep) hs.issued hs.stored

/-- A step of the engine that does not take the task to `Executing`. -/
def Unapproving (id : TaskId) (s : ThreadState EngineState EnginePc) (a : ThreadAct EnginePc EngineInput) : Prop :=
  ∀ t i o, a = .run t i → s.threads.lookup t = some (.op o) → o.executes s.shared.store id = false

omit [F64.Fmt] [Sha256] [PipelineLib] in
theorem unapproving_call {t : Nat} {i : EngineInput} {p : EnginePc} {id' : TaskId} (hp : s.threads.lookup t = some p)
    (hcall : ∀ o, p ≠ .op o) : Unapproving id' s (.run t i) := by
  intro u j o hact ho
  cases hact
  rw [hp] at ho
  cases ho
  exact absurd rfl (hcall o)

theorem notExecuting_step (ha : (engineMachine g config).step s a = some s') (hid : id ∈ s.shared.issued)
    (hno : Unapproving id s a) (hs : NotExecuting s.shared.store id) : NotExecuting s'.shared.store id := by
  rcases Program.step_cases ha with ⟨t, p, rfl, -, -, rfl⟩ | ⟨t, i, p, shared, p', rfl, hp, -, hnext, rfl⟩
  · exact hs
  · cases engine_next hnext with
    | settled => exact hs.settleStore _ _ _ _
    | @op o _ hfresh => exact hs.apply (fun hnew => hfresh id hnew hid) (hno t i o rfl hp)
    | _ => exact hs

theorem Silent.shut_step (hs : Silent Task.Shut id s) (h : (engineMachine g config).Reachable s)
    (hok : undisturbedFor id s a = true) (hno : Unapproving id s a)
    (ha : (engineMachine g config).step s a = some s') : Silent Task.Shut id s' := by
  refine hs.step (fun _ ht => ht) h hok ha ?_
  have hidle : NotExecuting s'.shared.store id := notExecuting_step ha hs.issued hno fun e he => (hs.stored e he).1
  have hdenies := taskIn_step (reachable_engineInv h) ha (P := Task.Denies) (fun _ _ ht hstep => ht.step hstep) hs.issued
    fun e he => (hs.stored e he).2
  intro e he
  exact ⟨hidle e he, hdenies e he⟩

omit [F64.Fmt] [Sha256] [PipelineLib] in
theorem Silent.shut (hs : Silent Task.Dead id s) : Silent Task.Shut id s :=
  ⟨hs.issued, hs.unsent, hs.idle, hs.copies, fun e he => (hs.stored e he).shut⟩

/-! ### A task that stands unexecuted -/

omit [F64.Fmt] [Sha256] [PipelineLib] in
theorem TaskStep.approval_none {auto : ApprovalRecord → Prop} {t t' : Task} (hstep : TaskStep auto t t')
    (h : t'.approval = none) : t.approval = none := by
  cases hstep with
  | move ht | completed ht | failed ht =>
    obtain ⟨-, rfl⟩ := Task.transition_ok ht
    exact h
  | decided ht =>
    obtain ⟨-, rfl⟩ := Task.transition_ok ht
    cases h
  | noted => exact h
  | autoResult => cases h

/-- What was read differs from what is stored now by a later approval, if at all. -/
theorem ReadFrom.stored {task : Task} (hr : ReadFrom g config s id task) {e : TaskEntry}
    (he : s.shared.store.tasks.lookup id = some e) :
    e.task.onTimeout = task.onTimeout ∧ (e.task.approval = none → task.approval = none) := by
  obtain ⟨s₀, h₀, hlead, ⟨e₀, he₀, rfl⟩, -⟩ := hr
  refine (Machine.Leads.invariant (I := fun s => id ∈ s.shared.issued ∧ ∀ e, s.shared.store.tasks.lookup id = some e →
    e.task.onTimeout = e₀.task.onTimeout ∧ (e.task.approval = none → e₀.task.approval = none)) ?_ ?_ hlead).2 e he
  · refine ⟨(reachable_engineInv h₀).issued id e₀ he₀, ?_⟩
    intro e he
    rw [he₀] at he
    cases he
    exact ⟨rfl, fun h => h⟩
  · intro u b u' hu hI hb
    have hinv := reachable_engineInv (h₀.leads hu)
    refine ⟨issued_step hinv hb hI.1, ?_⟩
    refine taskIn_step (P := fun t => t.onTimeout = e₀.task.onTimeout ∧ (t.approval = none → e₀.task.approval = none))
      hinv hb ?_ hI.1 hI.2
    intro t t' ht hstep
    exact ⟨hstep.sameOrigin.onTimeout.trans ht.1, fun h => ht.2 (hstep.approval_none h)⟩

/-- Of a task that stands unexecuted there is no copy but of one that was never approved. -/
theorem copy_of_unexecuted {e : TaskEntry} (he : s.shared.store.tasks.lookup id = some e)
    (hun : e.task.unexecuted = true) {task : Task} (hf : Follows s.shared id task)
    (hr : ReadFrom g config s id task) : task.status = .executing ∧ task.approval = none := by
  obtain ⟨honTimeout, happroval⟩ := hr.stored he
  have hbecomes := hf.status e he
  unfold Task.unexecuted at hun
  rcases dispatch_none hf.read with hexec | ⟨hexp, happrove⟩
  · refine ⟨hexec, ?_⟩
    rw [hexec] at hbecomes
    rcases hbecomes.of_executing with hst | hst | hst
    · rw [hst] at hun
      cases hun
    · rw [hst] at hun
      cases hun
    · rw [hst] at hun
      exact happroval (Option.isNone_iff_eq_none.mp hun)
  · rw [hexp] at hbecomes
    have hdeny : e.task.onTimeout = .deny := by
      rw [hbecomes.of_terminal rfl] at hun
      exact of_decide_eq_true hun
    rw [honTimeout, happrove] at hdeny
    cases hdeny

theorem silent_of_unexecuted {P : Task → Prop} (h : (engineMachine g config).Reachable s) {e : TaskEntry}
    (he : s.shared.store.tasks.lookup id = some e) (hun : e.task.unexecuted = true) (hP : P e.task) :
    Silent P id s := by
  have hcopy : ∀ t p task, s.threads.lookup t = some p → p.snapshot = some (id, task) →
      task.status = .executing ∧ task.approval = none := by
    intro t p task hp hsnap
    exact copy_of_unexecuted he hun ((reachable_follows h).1 t p hp id task hsnap)
      ((reachable_readFrom h).1 t p hp id task hsnap)
  refine ⟨(reachable_engineInv h).issued id e he, ?_, ?_, ?_, ?_⟩
  · rintro f hf rfl
    obtain ⟨hexec, hnone⟩ := copy_of_unexecuted he hun ((reachable_follows h).2 f hf) ((reachable_readFrom h).2 f hf)
    rcases (reachable_authorised h f hf).live with ⟨-, r, hr, -⟩ | ⟨hexp, -⟩
    · rw [hnone] at hr
      cases hr
    · rw [hexec] at hexp
      cases hexp
  · intro t p hp task hprep
    exact (hcopy t p task hp (preparing_snapshot hprep)).2
  · intro t p hp task hsnap
    rw [(hcopy t p task hp hsnap).1]
    decide
  · intro e' he'
    rw [he] at he'
    cases he'
    exact hP

/-! ### A poll that finds the approval out of date -/

omit [F64.Fmt] [Sha256] [PipelineLib] in
theorem reevaluatePolicy_error {policy : PolicyRequest → Except String PolicyAction} {task : Task}
    {approval : ApprovalRecord} {info : FailureInfo}
    (h : Pipeline.reevaluatePolicy policy task approval = .error info) : info.stage = .policyDrift := by
  unfold Pipeline.reevaluatePolicy at h
  split at h
  · cases h
    rfl
  · cases h
  · cases h
  · cases h
    rfl

theorem postApprovalAmber_error {p : Pipeline} {inspect : Nat → String → String → InspectorReply} {task : Task}
    {info : FailureInfo} (h : p.postApprovalAmber inspect task = .error info) : info.stage ≠ .approvalTimeout := by
  unfold Pipeline.postApprovalAmber at h
  split at h
  · cases h
    simp
  · cases h
    simp
  · split at h
    · cases h
      simp
    · split at h
      · split at h
        · cases h
          simp
        · cases h
      · cases h

omit [F64.Fmt] [Sha256] [PipelineLib] in
theorem forwardToUpstream_failure {r : UpstreamReply} {info : FailureInfo}
    (h : Pipeline.forwardToUpstream r = .failure info) : info.stage = .upstreamError := by
  cases r with
  | response result error =>
    cases error with
    | none => cases h
    | some e =>
      cases h
      rfl
  | failed e | timedOut =>
    cases h
    rfl

omit [F64.Fmt] [Sha256] [PipelineLib] in
theorem timedOut_failure {id' : TaskId} {task task' : Task} {approval approval' : ApprovalRecord} {info : FailureInfo}
    (h : EnginePc.timedOut g id' task approval = .settle id task' approval' (.failure info)) :
    info.stage = .upstreamError := by
  unfold EnginePc.timedOut at h
  split at h
  · cases h
  · cases h
    rfl

/-- An approval is found out of date at the validation, before anything is sent. -/
theorem guarded_of_lapsed {p : EnginePc} {i : EngineInput} {t t' : EngineState} {task : Task}
    {approval : ApprovalRecord} {info : FailureInfo}
    (h : p.next g t i = some (t', some (.settle id task approval (.failure info))))
    (hstage : info.stage = .approvalTimeout) : p = .guarded id task := by
  have hends : p.guards = some id ∧ p.snapshot = some (id, task) := by
    cases engine_next h with
    | ended hguards hsnap => exact ⟨hguards, hsnap⟩
  obtain ⟨hguards, hsnap⟩ := hends
  cases p with
  | guarded =>
    cases hsnap
    rfl
  | policing =>
    -- at the later stages the failure is another one
    cases i with
    | policy f =>
      simp only [EnginePc.next] at h
      split at h
      · rename_i herr
        cases h
        rw [reevaluatePolicy_error herr] at hstage
        cases hstage
      · cases h
    | timeout =>
      simp only [EnginePc.next, Option.some.injEq, Prod.mk.injEq] at h
      rw [timedOut_failure h.2] at hstage
      cases hstage
    | _ => cases h
  | ambering =>
    cases i with
    | inspect f =>
      simp only [EnginePc.next] at h
      split at h
      · rename_i herr
        cases h
        exact absurd hstage (postApprovalAmber_error herr)
      · cases h
    | timeout =>
      simp only [EnginePc.next, Option.some.injEq, Prod.mk.injEq] at h
      rw [timedOut_failure h.2] at hstage
      cases hstage
    | _ => cases h
  | sent =>
    cases i with
    | reply r =>
      simp only [EnginePc.next, Option.some.injEq, Prod.mk.injEq, EnginePc.settle.injEq] at h
      rw [forwardToUpstream_failure h.2.2.2.2] at hstage
      cases hstage
    | timeout =>
      simp only [EnginePc.next, Option.some.injEq, Prod.mk.injEq] at h
      rw [timedOut_failure h.2] at hstage
      cases hstage
    | _ => cases h
  | settle => cases i <;> cases h
  | start | acquire | op => cases hguards
  | release => cases hsnap

/-- A call that found its approval out of date, and has this still to write down. -/
def EnginePc.Lapsed (id : TaskId) (p : EnginePc) : Prop :=
  ∃ task approval info, p = .settle id task approval (.failure info) ∧ info.stage = .approvalTimeout ∧
    task.status = .executing

/-- Nothing has been sent for a task whose approval is found out of date. -/
def LapsedUnsent (id : TaskId) (s : ThreadState EngineState EnginePc) : Prop :=
  s.threads.All fun _ p => p.Lapsed id → ∀ f ∈ s.shared.forwards, f.id ≠ id

/-- The first call of an approved task finds nothing in the log. -/
theorem unsent_of_fresh {task : Task} (hr : ReadFrom g config s id task) (hst : task.status = .executing)
    (hzero : approvedForwards s.shared id = 0) : ∀ f ∈ s.shared.forwards, f.id ≠ id := by
  obtain ⟨s₀, h₀, hlead, ⟨e, he, rfl⟩, -⟩ := hr
  have hcopies := copies_of_executing h₀ he hst hlead
  intro f hf hid
  have hmem : f ∈ s.shared.forwards.filter fun f => decide (f.id = id ∧ f.task.status = .executing) := by
    rw [List.mem_filter]
    exact ⟨hf, decide_eq_true ⟨hid, hcopies.2 f hf hid⟩⟩
  rw [List.length_eq_zero_iff.mp hzero] at hmem
  cases hmem

theorem LapsedUnsent.step (hs : LapsedUnsent id s)
    (h : (engineMachine g config).ReachableWhen (fun s a => undisturbedFor id s a = true) s)
    (ha : (engineMachine g config).step s a = some s') : LapsedUnsent id s' := by
  rcases Program.step_cases ha with ⟨t, p, rfl, -, hstart, rfl⟩ | ⟨t, i, p, shared, p', rfl, hp, -, hnext, rfl⟩
  · refine hs.insert ?_
    rintro ⟨task, approval, info, rfl, -, -⟩
    cases hstart
  · have hstep := engine_next hnext
    intro u q hq hlapsed
    rcases Program.settle_cases hq with ⟨rfl, rfl⟩ | ⟨hut, hother⟩
    · obtain ⟨task, approval, info, rfl, hstage, hst⟩ := hlapsed
      have hguarded := guarded_of_lapsed hnext hstage
      subst hguarded
      have hzero := (reachable_onceFor h).fresh u _ hp task rfl hst
      have hread := (reachable_readFrom h.reachable).1 u _ hp id task rfl
      rcases hstep.forwards with hsame | ⟨_, _, _, _, _, _, _, hamber, -⟩
      · rw [hsame]
        exact unsent_of_fresh hread hst hzero
      · cases hamber
    · have hold := hs u q hother hlapsed
      rcases hstep.forwards with
        hsame | ⟨id', task', approval', now, policy, inspect, request, rfl, -, -, happend⟩
      · rw [hsame]
        exact hold
      · rw [happend]
        intro f hf hid
        rcases List.mem_append.mp hf with hin | hlast
        · exact hold f hin hid
        · -- two calls would hold the guard
          rw [List.mem_singleton] at hlast
          subst hlast
          have hid' : id' = id := hid
          subst hid'
          obtain ⟨task, approval, info, rfl, -, -⟩ := hlapsed
          exact hut (guards_unique h.reachable hp hother rfl rfl)

theorem reachable_lapsedUnsent
    (h : (engineMachine g config).ReachableWhen (fun s a => undisturbedFor id s a = true) s) : LapsedUnsent id s := by
  refine Machine.ReachableWhen.invariant (I := LapsedUnsent id) ?_ ?_ h
  · exact Table.All.empty _
  · intro s a s' hs hI _ ha
    exact hI.step hs ha

/-- When this is written down, the task is at its end and nothing was sent for it. -/
theorem silent_of_lapsed (h : (engineMachine g config).ReachableWhen (fun s a => undisturbedFor id s a = true) s)
    {t : Nat} {p : EnginePc} (hp : s.threads.lookup t = some p) (hlapsed : p.Lapsed id) {granted now : DateTime}
    (ha : (engineMachine g config).step s (.run t (.clock granted now)) = some s') : Silent Task.Dead id s' := by
  have hreach := h.reachable
  have hinv := reachable_engineInv hreach
  have hunsent := reachable_lapsedUnsent h t p hp hlapsed
  obtain ⟨task, approval, info, rfl, hstage, hst⟩ := hlapsed
  have hfollows := (reachable_follows hreach).1 t _ hp id task rfl
  have hstatus := hfollows.status
  rw [hst] at hstatus
  obtain ⟨s₀, h₀, hlead, ⟨e, he, rfl⟩, -⟩ := (reachable_readFrom hreach).1 t _ hp id task rfl
  have hcopies := copies_of_executing h₀ he hst hlead
  have hafter := statusIn_step hinv ha (fun _ _ hab hcan => hab.tail hcan) hfollows.issued hstatus
  rcases Program.step_cases ha with ⟨_, _, hact, -⟩ | ⟨u, j, q, shared, q', hact, hq, -, hnext, rfl⟩
  · cases hact
  · cases hact
    rw [hp] at hq
    cases hq
    cases hnext
    refine ⟨hfollows.issued, hunsent, ?_, ?_, ?_⟩
    · intro u q hq task hprep
      rcases Program.settle_cases hq with ⟨-, hnew⟩ | ⟨hut, hother⟩
      · cases hnew
        cases hprep
      · exact absurd (guards_unique hreach hp hother rfl (preparing_guards hprep)) hut
    · intro u q hq task hsnap
      rcases Program.settle_cases hq with ⟨-, hnew⟩ | ⟨hut, hother⟩
      · cases hnew
        cases hsnap
      · rw [hcopies.1 u q hother id task hsnap rfl]
        decide
    · intro e' he'
      refine ⟨settleStore_terminal hst hstatus now approval _ e' he', ?_⟩
      intro hexp
      rcases (hafter e' he').of_executing with hend | hend | hend
      · rw [hexp] at hend
        cases hend
      · rw [hexp] at hend
        cases hend
      · rw [hexp] at hend
        cases hend

/-! ### The answers that make a report -/

/-- The task a call is about. -/
def EnginePc.callId : EnginePc → Option TaskId
  | .start id | .acquire id _ | .guarded id _ | .policing id _ _ _ | .ambering id _ _ _ _ | .sent id _ _
  | .settle id _ _ _ | .release id => some id
  | .op _ => none

omit [F64.Fmt] [Sha256] [PipelineLib] in
theorem callId_of_guards {p : EnginePc} (h : p.guards = some id) : p.callId = some id := by
  cases p with
  | start | acquire | op => cases h
  | _ => exact h

theorem EngineStep.callId {t t' : EngineState} {p q : EnginePc} {i : EngineInput}
    (h : EngineStep g t p i t' (some q)) : q.callId = p.callId := by
  cases h with
  | read | acquired | validated | permitted | forwarded | settled => rfl
  | ended hg | abandoned hg => rw [callId_of_guards hg]; rfl

omit [F64.Fmt] [Sha256] [PipelineLib] in
theorem afterAnswer_timeout {answer : Except ThoughtGateError ToolCallResult} {e : BlockingEnd}
    (h : afterAnswer answer = some e) (he : e.isTimeout = true) :
    ∃ tool secs workflow, answer = .error (.approvalTimeout tool secs workflow) := by
  unfold afterAnswer at h
  split at h
  · cases h
  · exact ⟨_, _, _, rfl⟩
  · cases h
    cases he

omit [F64.Fmt] [Sha256] [PipelineLib] in
theorem dispatch_timeout {task : Task} {tool : String} {secs : Nat} {workflow : Option String}
    (h : Engine.dispatch id task = some (.error (.approvalTimeout tool secs workflow))) :
    task.status = .expired ∧ task.onTimeout = .deny := by
  unfold Engine.dispatch at h
  cases hst : task.status with
  | expired =>
    simp only [hst] at h
    cases hto : task.onTimeout with
    | deny => exact ⟨rfl, rfl⟩
    | approve =>
      simp only [hto] at h
      cases h
  | completed =>
    simp only [hst] at h
    split at h
    · cases h
    · cases h
  | _ =>
    simp only [hst] at h
    cases h

omit [F64.Fmt] [Sha256] [PipelineLib] in
theorem Engine.answer_timeout {task : Task} {result : PipelineResult} {tool : String} {secs : Nat}
    {workflow : Option String} (h : g.answer task result = .error (.approvalTimeout tool secs workflow)) :
    task.status ≠ .expired ∧ ∃ info, result = .failure info ∧ info.stage = .approvalTimeout := by
  cases result with
  | success result => cases h
  | failure info =>
    simp only [Engine.answer] at h
    split at h
    · cases h
    · rename_i hexp
      refine ⟨hexp, info, rfl, ?_⟩
      simp only [Engine.mapPipelineFailure, Except.error.injEq] at h
      cases hstage : info.stage with
      | approvalTimeout => rfl
      | upstreamError =>
        simp only [hstage] at h
        split at h
        · cases h
        · cases h
      | _ =>
        simp only [hstage] at h
        cases h

omit [F64.Fmt] [Sha256] [PipelineLib] in
/-- The calls that are answered with a timeout: a task that expired, or an approval out of date. -/
theorem EnginePc.answer_timeout {t : EngineState} {p : EnginePc} {i : EngineInput} {tool : String} {secs : Nat}
    {workflow : Option String} (h : p.answer g t i = some (.error (.approvalTimeout tool secs workflow))) :
    (∃ id e, p = .start id ∧ t.store.tasks.lookup id = some e ∧ e.task.status = .expired ∧ e.task.onTimeout = .deny) ∨
    ∃ id task approval info granted now, p = .settle id task approval (.failure info) ∧ i = .clock granted now ∧
      info.stage = .approvalTimeout ∧ task.status ≠ .expired := by
  unfold EnginePc.answer at h
  split at h
  · rename_i id'
    left
    unfold Engine.getTask TaskStore.get at h
    cases he : t.store.tasks.lookup id' with
    | none =>
      rw [he] at h
      cases h
    | some e =>
      rw [he] at h
      obtain ⟨hexp, hdeny⟩ := dispatch_timeout h
      exact ⟨id', e, rfl, he, hexp, hdeny⟩
  · split at h
    · cases h
    · cases h
  · split at h
    · cases h
    · cases h
  · split at h
    · cases h
    · cases h
  · split at h
    · cases h
    · cases h
  · split at h
    · cases h
    · cases h
  · rename_i id' task approval result granted now
    right
    obtain ⟨hexp, info, rfl, hstage⟩ := Engine.answer_timeout (Option.some.inj h)
    exact ⟨id', task, approval, info, granted, now, rfl, rfl, hstage, hexp⟩
  · cases h

/-- After such an answer nothing was sent for the task, and nothing will be. -/
theorem silent_of_timeout (h : (engineMachine g config).ReachableWhen (fun s a => undisturbedFor id s a = true) s)
    {t : Nat} {i : EngineInput} {p : EnginePc} (hp : s.threads.lookup t = some p) (hid : p.callId = some id)
    (hok : undisturbedFor id s (.run t i) = true) {tool : String} {secs : Nat} {workflow : Option String}
    (hanswer : p.answer g s.shared i = some (.error (.approvalTimeout tool secs workflow)))
    (ha : (engineMachine g config).step s (.run t i) = some s') : Silent Task.Dead id s' := by
  rcases EnginePc.answer_timeout hanswer with
    ⟨id', e, rfl, he, hexp, hdeny⟩ | ⟨id', task, approval, info, granted, now, rfl, rfl, hstage, hexp⟩
  · cases hid
    have hdead : e.task.Dead := by
      refine ⟨?_, fun _ => hdeny⟩
      rw [hexp]
      rfl
    have hun : e.task.unexecuted = true := by simp [Task.unexecuted, hexp, hdeny]
    exact (silent_of_unexecuted h.reachable he hun hdead).dead_step h.reachable hok ha
  · cases hid
    have hgo := ((reachable_follows h.reachable).1 t _ hp id task rfl).read
    have hst := (dispatch_none hgo).resolve_right fun hboth => hexp hboth.1
    exact silent_of_lapsed h hp ⟨task, approval, info, rfl, hstage, hst⟩ ha

/-! ### The steps of a waiting caller -/

/-- The other threads stay where they are. -/
theorem thread_kept {t : Nat} (ha : (engineMachine g config).step s a = some s') (ht : t ≠ threadOf a) :
    s'.threads.lookup t = s.threads.lookup t := by
  rcases Program.step_cases ha with ⟨u, p, rfl, -, -, rfl⟩ | ⟨u, i, p, shared, p', rfl, -, -, -, rfl⟩
  · exact AList.lookup_insert_ne ht
  · exact Program.settle_lookup_ne _ ht _

/-- A call stays about its task. -/
theorem callId_kept {t : Nat} {i : EngineInput} {p q : EnginePc} (hp : s.threads.lookup t = some p)
    (ha : (engineMachine g config).step s (.run t i) = some s') (hq : s'.threads.lookup t = some q) :
    q.callId = p.callId := by
  rcases Program.step_cases ha with ⟨_, _, hact, -⟩ | ⟨u, j, p₀, shared, p', hact, hp₀, -, hnext, rfl⟩
  · cases hact
  · cases hact
    rw [hp] at hp₀
    cases hp₀
    rw [Program.settle_lookup] at hq
    subst hq
    exact (engine_next hnext).callId

namespace BlockingState

omit [F64.Fmt] [Sha256] [PipelineLib] in
theorem beat_frame (w : BlockingState) (x : BlockingCall) (now : Instant) :
    ∃ progress y, w.beat x now = ({ w with progress }, y) ∧ y.id = x.id := by
  unfold beat
  split
  · exact ⟨w.progress, x, rfl, rfl⟩
  · split
    · exact ⟨_, _, rfl, rfl⟩
    · exact ⟨w.progress, x, rfl, rfl⟩

omit [F64.Fmt] [Sha256] [PipelineLib] in
theorem setStage_lookup (w : BlockingState) {t u : Nat} {x y : BlockingCall} {stage : BlockingStage}
    (h : (w.setStage t x stage).waiters.lookup u = some y) :
    (u = t ∧ y = { x with stage }) ∨ (u ≠ t ∧ w.waiters.lookup u = some y) := by
  by_cases hu : u = t
  · subst hu
    rw [setStage, AList.lookup_insert] at h
    exact Or.inl ⟨rfl, (Option.some.inj h).symm⟩
  · rw [setStage, AList.lookup_insert_ne hu] at h
    exact Or.inr ⟨hu, h⟩

end BlockingState

/-- What a step does. -/
inductive BlockingStep [F64.Fmt] [Sha256] [PipelineLib] (g : Engine) (config : TaskStoreConfig) (w : BlockingState) :
    BlockingAct → BlockingState → Prop
  | call {b : ThreadAct EnginePc EngineInput} {calls : ThreadState EngineState EnginePc} :
      w.waiters.lookup (threadOf b) = none → (engineMachine g config).step w.calls b = some calls →
      BlockingStep g config w (.call b) { w with calls }
  | enter {t : Nat} {x : BlockingCall} {now : Instant} : w.calls.threads.lookup t = none → x.stage = .checking →
      BlockingStep g config w (.enter t x.id x.tool x.timeout x.heartbeat now)
        { w with waiters := w.waiters.insert t x }
  | overdue {t : Nat} {now : Instant} {x : BlockingCall} : w.waiters.lookup t = some x → x.deadline ≤ now →
      BlockingStep g config w (.check t now) (w.leave t x.id (.timedOut (Duration.asSecs x.timeout) x.tool))
  | inTime {t : Nat} {now : Instant} {x : BlockingCall} : w.waiters.lookup t = some x →
      BlockingStep g config w (.check t now) (w.setStage t x .ticking)
  | tick {t : Nat} {now : Instant} {x y : BlockingCall} {progress : List Value}
      {calls : ThreadState EngineState EnginePc} : w.waiters.lookup t = some x → y.id = x.id →
      (engineMachine g config).step w.calls (.spawn t (.start x.id)) = some calls →
      BlockingStep g config w (.tick t now) ({ w with calls, progress }.setStage t y (.polling none))
  | poll {t : Nat} {i : EngineInput} {x : BlockingCall} {p : EnginePc} {calls : ThreadState EngineState EnginePc}
      {answer : Option (Except ThoughtGateError ToolCallResult)} : w.waiters.lookup t = some x →
      w.calls.threads.lookup t = some p → x.stage = .polling answer →
      (engineMachine g config).step w.calls (.run t i) = some calls →
      BlockingStep g config w (.poll t i)
        ({ w with calls }.setStage t x (.polling ((p.answer g w.calls.shared i).or answer)))
  | ended {t : Nat} {x : BlockingCall} {answer : Except ThoughtGateError ToolCallResult} {e : BlockingEnd} :
      w.waiters.lookup t = some x → x.stage = .polling (some answer) → afterAnswer answer = some e →
      BlockingStep g config w (.resume t) (w.leave t x.id e)
  | notReady {t : Nat} {x : BlockingCall} : w.waiters.lookup t = some x → w.calls.threads.lookup t = none →
      BlockingStep g config w (.resume t) (w.setStage t x .checking)

theorem blocking_step {w w' : BlockingState} {b : BlockingAct} (h : w.step g config b = some w') :
    BlockingStep g config w b w' := by
  cases b with
  | call b =>
    simp only [BlockingState.step] at h
    split at h
    · rename_i hnone
      obtain ⟨calls, hcalls, rfl⟩ := Option.map_eq_some_iff.mp h
      exact .call hnone hcalls
    · cases h
  | enter t id tool timeout heartbeat now =>
    simp only [BlockingState.step] at h
    split at h
    · rename_i hnone
      cases h
      exact .enter (x := ⟨id, tool, timeout, heartbeat, now + timeout, now, .checking⟩) hnone.2 rfl
    · cases h
  | check t now =>
    simp only [BlockingState.step] at h
    split at h
    · cases h
    · rename_i x hx
      split at h
      · split at h
        · rename_i hlate
          cases h
          exact .overdue hx hlate
        · cases h
          exact .inTime hx
      · cases h
  | tick t now =>
    simp only [BlockingState.step] at h
    split at h
    · cases h
    · rename_i x hx
      split at h
      · obtain ⟨progress, y, hbeat, hid⟩ := w.beat_frame x now
        rw [hbeat] at h
        obtain ⟨calls, hcalls, rfl⟩ := Option.map_eq_some_iff.mp h
        rw [hid] at hcalls
        exact .tick hx hid hcalls
      · cases h
  | poll t i =>
    simp only [BlockingState.step] at h
    split at h
    · rename_i x p hx hp
      split at h
      · rename_i answer hstage
        obtain ⟨calls, hcalls, rfl⟩ := Option.map_eq_some_iff.mp h
        exact .poll hx hp hstage hcalls
      · cases h
    · cases h
  | resume t =>
    simp only [BlockingState.step] at h
    split at h
    · rename_i x hx hnone
      split at h
      · rename_i answer hstage
        split at h
        · rename_i e he
          cases h
          exact .ended hx hstage he
        · cases h
          exact .notReady hx hnone
      · cases h
    · cases h

/-! ### Reports are right -/

/-- What was reported is right, and what is about to be. -/
structure Truthful (g : Engine) (config : TaskStoreConfig) (id : TaskId) (w : BlockingState) : Prop where
  calls : (engineMachine g config).ReachableWhen (fun s a => undisturbedFor id s a = true) w.calls
  own : ∀ t x p, w.waiters.lookup t = some x → w.calls.threads.lookup t = some p → p.callId = some x.id
  answered : ∀ t x tool secs workflow, w.waiters.lookup t = some x →
    x.stage = .polling (some (.error (.approvalTimeout tool secs workflow))) → x.id = id → Silent Task.Dead id w.calls
  reported : w.reported id = true → Silent Task.Shut id w.calls

omit [F64.Fmt] [Sha256] [PipelineLib] in
theorem reported_leave (w : BlockingState) (t : Nat) (id id' : TaskId) (e : BlockingEnd) :
    (w.leave t id' e).reported id = (w.reported id || id' == id && e.isTimeout) := by
  simp [BlockingState.reported, BlockingState.leave]

/-- A caller moves on within its loop. -/
theorem Truthful.setStage {w : BlockingState} (hs : Truthful g config id w) {t : Nat} {x : BlockingCall}
    (hx : w.waiters.lookup t = some x) {stage : BlockingStage}
    (hstage : ∀ answer, stage ≠ .polling (some answer)) : Truthful g config id (w.setStage t x stage) := by
  refine ⟨hs.calls, ?_, ?_, hs.reported⟩
  · intro u y p hy hp
    rcases w.setStage_lookup hy with ⟨rfl, rfl⟩ | ⟨-, hother⟩
    · exact hs.own u x p hx hp
    · exact hs.own u y p hother hp
  · intro u y tool secs workflow hy hanswer hid
    rcases w.setStage_lookup hy with ⟨rfl, rfl⟩ | ⟨-, hother⟩
    · exact absurd hanswer (hstage _)
    · exact hs.answered u y tool secs workflow hother hanswer hid

/-- A caller returns, and a report of its own is right. -/
theorem Truthful.leave {w : BlockingState} (hs : Truthful g config id w) (t : Nat) {id' : TaskId} {e : BlockingEnd}
    (he : id' = id → e.isTimeout = true → Silent Task.Shut id w.calls) :
    Truthful g config id (w.leave t id' e) := by
  have hwaits : ∀ u y, (w.leave t id' e).waiters.lookup u = some y → w.waiters.lookup u = some y := by
    intro u y hy
    by_cases hu : u = t
    · subst hu
      rw [BlockingState.leave, AList.lookup_erase] at hy
      cases hy
    · rwa [BlockingState.leave, AList.lookup_erase_ne hu] at hy
  refine ⟨hs.calls, ?_, ?_, ?_⟩
  · intro u y p hy hp
    exact hs.own u y p (hwaits u y hy) hp
  · intro u y tool secs workflow hy hanswer hid
    exact hs.answered u y tool secs workflow (hwaits u y hy) hanswer hid
  · intro hreported
    rw [reported_leave, Bool.or_eq_true, Bool.and_eq_true, beq_iff_eq] at hreported
    rcases hreported with hbefore | ⟨hid, htimeout⟩
    · exact hs.reported hbefore
    · exact he hid htimeout

/-- Another call moves, or an operation of the store is carried out. -/
theorem Truthful.call {w : BlockingState} (hs : Truthful g config id w) {b : ThreadAct EnginePc EngineInput}
    (hok : quiet id w (.call b) = true) (hnone : w.waiters.lookup (threadOf b) = none)
    {calls : ThreadState EngineState EnginePc} (hcalls : (engineMachine g config).step w.calls b = some calls) :
    Truthful g config id { w with calls } := by
  have hreach := hs.calls.reachable
  obtain ⟨hundisturbed, hunapproving⟩ : undisturbedFor id w.calls b = true ∧
      (w.reported id = true → Unapproving id w.calls b) := by
    cases b with
    | spawn t p =>
      refine ⟨rfl, fun _ t i o hact => ?_⟩
      cases hact
    | run t i =>
      simp only [quiet, Bool.and_eq_true] at hok
      refine ⟨hok.1, ?_⟩
      intro hreported u j o hact ho
      cases hact
      simpa [ho, hreported] using hok.2
  refine ⟨.step hs.calls hundisturbed hcalls, ?_, ?_, ?_⟩
  · intro t x p hx hp
    have ht : t ≠ threadOf b := by
      rintro rfl
      rw [hnone] at hx
      cases hx
    rw [thread_kept hcalls ht] at hp
    exact hs.own t x p hx hp
  · intro t x tool secs workflow hx hanswer hid
    exact (hs.answered t x tool secs workflow hx hanswer hid).dead_step hreach hundisturbed hcalls
  · intro hreported
    exact (hs.reported hreported).shut_step hreach hundisturbed (hunapproving hreported) hcalls

/-- A caller begins to wait. -/
theorem Truthful.enter {w : BlockingState} (hs : Truthful g config id w) {t : Nat}
    {x : BlockingCall} (hnone : w.calls.threads.lookup t = none) (hstage : x.stage = .checking) :
    Truthful g config id { w with waiters := w.waiters.insert t x } := by
  refine ⟨hs.calls, ?_, ?_, hs.reported⟩
  · intro u y p hy hp
    by_cases hu : u = t
    · subst hu
      rw [hnone] at hp
      cases hp
    · rw [AList.lookup_insert_ne hu] at hy
      exact hs.own u y p hy hp
  · intro u y tool secs workflow hy hanswer hid
    by_cases hu : u = t
    · subst hu
      rw [AList.lookup_insert] at hy
      cases hy
      rw [hstage] at hanswer
      cases hanswer
    · rw [AList.lookup_insert_ne hu] at hy
      exact hs.answered u y tool secs workflow hy hanswer hid

/-- A caller takes a step of its own poll; the other callers keep their threads and answers. -/
theorem Truthful.turn {w : BlockingState} (hs : Truthful g config id w) {a : ThreadAct EnginePc EngineInput}
    {y : BlockingCall} {calls : ThreadState EngineState EnginePc} {progress : List Value} {stage : BlockingStage}
    (hundisturbed : undisturbedFor id w.calls a = true) (hno : Unapproving id w.calls a)
    (hcalls : (engineMachine g config).step w.calls a = some calls)
    (hown : ∀ p, calls.threads.lookup (threadOf a) = some p → p.callId = some y.id)
    (hanswer : ∀ tool secs workflow, stage = .polling (some (.error (.approvalTimeout tool secs workflow))) →
      y.id = id → Silent Task.Dead id calls) :
    Truthful g config id ({ w with calls, progress }.setStage (threadOf a) y stage) := by
  have hreach := hs.calls.reachable
  refine ⟨.step hs.calls hundisturbed hcalls, ?_, ?_, ?_⟩
  · intro u z p hz hp
    rcases BlockingState.setStage_lookup _ hz with ⟨rfl, rfl⟩ | ⟨hu, hother⟩
    · exact hown p hp
    · have hold : w.calls.threads.lookup u = some p := by
        rw [← thread_kept hcalls hu]
        exact hp
      exact hs.own u z p hother hold
  · intro u z tool secs workflow hz hstage hid
    rcases BlockingState.setStage_lookup _ hz with ⟨rfl, rfl⟩ | ⟨-, hother⟩
    · exact hanswer tool secs workflow hstage hid
    · exact (hs.answered u z tool secs workflow hother hstage hid).dead_step hreach hundisturbed hcalls
  · intro hreported
    exact (hs.reported hreported).shut_step hreach hundisturbed hno hcalls

theorem Truthful.step {w w' : BlockingState} {b : BlockingAct} (hs : Truthful g config id w)
    (hok : quiet id w b = true) (h : BlockingStep g config w b w') : Truthful g config id w' := by
  have hreach := hs.calls.reachable
  cases h with
  | call hnone hcalls => exact hs.call hok hnone hcalls
  | enter hnone hstage => exact hs.enter hnone hstage
  | @overdue t now x hx hlate =>
    refine hs.leave t ?_
    rintro rfl -
    -- the report of a caller whose own deadline has passed
    simp only [quiet, hx, bne_self_eq_false, Bool.false_or, Bool.or_eq_true, decide_eq_true_eq] at hok
    have hstands := hok.resolve_left (Int.not_lt.mpr hlate)
    obtain ⟨e, he, hun⟩ := (Option.any_eq_true ..).mp hstands
    exact silent_of_unexecuted hreach he hun (Task.shut_of_unexecuted hun)
  | inTime hx => exact hs.setStage hx fun _ => by simp
  | @tick t now x y progress calls hx hid hcalls =>
    refine hs.turn (a := .spawn t (.start x.id)) rfl ?_ hcalls ?_ ?_
    · intro u i o hact
      cases hact
    · intro p hp
      rcases Program.step_cases hcalls with ⟨_, _, hact, -, -, rfl⟩ | ⟨_, _, _, _, _, hact, -⟩
      · cases hact
        have hp' : (w.calls.threads.insert t (EnginePc.start x.id)).lookup t = some p := hp
        rw [AList.lookup_insert] at hp'
        cases hp'
        exact congrArg some hid.symm
      · cases hact
    · intro tool secs workflow hstage
      cases hstage
  | @poll t i x p calls answer hx hp hstage hcalls =>
    have hundisturbed : undisturbedFor id w.calls (.run t i) = true := hok
    have hcall := hs.own t x p hx hp
    refine hs.turn (a := .run t i) hundisturbed ?_ hcalls ?_ ?_
    · refine unapproving_call hp ?_
      rintro o rfl
      cases hcall
    · intro q hq
      exact (callId_kept hp hcalls hq).trans hcall
    · intro tool secs workflow hanswer hid
      cases hnew : p.answer g w.calls.shared i with
      | none =>
        simp only [hnew, Option.none_or, BlockingStage.polling.injEq] at hanswer
        rw [hanswer] at hstage
        exact (hs.answered t x tool secs workflow hx hstage hid).dead_step hreach hundisturbed hcalls
      | some a =>
        simp only [hnew, Option.some_or, BlockingStage.polling.injEq, Option.some.injEq] at hanswer
        rw [hanswer] at hnew
        rw [hid] at hcall
        exact silent_of_timeout hs.calls hp hcall hundisturbed hnew hcalls
  | @ended t x answer e hx hstage he =>
    refine hs.leave t ?_
    intro hid htimeout
    obtain ⟨tool, secs, workflow, rfl⟩ := afterAnswer_timeout he htimeout
    exact (hs.answered t x tool secs workflow hx hstage hid).shut
  | notReady hx => exact hs.setStage hx fun _ => by simp

theorem reachable_truthful {w : BlockingState}
    (h : (blockingMachine g config).ReachableWhen (fun w b => quiet id w b = true) w) : Truthful g config id w := by
  refine Machine.ReachableWhen.invariant (I := Truthful g config id) ?_ ?_ h
  · refine ⟨.init, ?_, ?_, ?_⟩
    · intro t x p hx
      cases hx
    · intro t x tool secs workflow hx
      cases hx
    · intro hreported
      cases hreported
  · intro w b w' _ hI hok hb
    exact hI.step hok (blocking_step hb)

/-- In a quiet run of waiting callers, other calls and operations of the store, nothing is sent for a task that was
reported as timed out: not before the report and not after it. -/
theorem report_is_true {w : BlockingState}
    (h : (blockingMachine g config).ReachableWhen (fun w b => quiet id w b = true) w) {secs : Nat} {tool : String}
    (hreport : (id, BlockingEnd.timedOut secs tool) ∈ w.returned) : ∀ f ∈ w.calls.shared.forwards, f.id ≠ id := by
  have hreported : w.reported id = true := by
    rw [BlockingState.reported, List.any_eq_true]
    exact ⟨_, hreport, by simp [BlockingEnd.isTimeout]⟩
  exact ((reachable_truthful h).reported hreported).unsent

end

namespace Sample

/-- Steps of other calls. -/
def elsewhere (acts : List (ThreadAct EnginePc EngineInput)) : List BlockingAct := acts.map .call

/-- The task `tg_1` waits for its approval, and a caller waits for the task. -/
def waits : List BlockingAct :=
  elsewhere (storeCall (.create "tg_1" 0 request request principal none .deny) ++
    storeCall (.transition 1 "tg_1" .inputRequired none)) ++
  [BlockingAct.enter 9 "tg_1" "search" (Duration.fromSecs 5) none 0]

/-- One round of the loop. -/
def round : List BlockingAct := [.check 9 1, .tick 9 2, .poll 9 .go, .resume 9]

/-- The caller finds its own deadline passed. -/
def givesUp : BlockingAct := .check 9 (Duration.fromSecs 5)

/-- A human approves the task, and another call sends it. -/
def approvedElsewhere : List BlockingAct :=
  elsewhere (storeCall (.recordApproval 2 "tg_1" .approved "alice" (Duration.fromSecs 60)) ++ read 1 ++
    [ThreadAct.run 1 EngineInput.go] ++ send 1)

/-- The task is sent after the report. -/
def sentLater : List BlockingAct := waits ++ round ++ [givesUp] ++ approvedElsewhere

/-- The task is sent, and then the caller reports. -/
def sentBefore : List BlockingAct := waits ++ round ++ approvedElsewhere ++ [givesUp]

/-- The sweep expires the task, and the next poll is answered with a timeout. -/
def sweptAway : List BlockingAct :=
  waits ++ round ++ elsewhere (storeCall (.expireOverdue (Duration.fromSecs 10000))) ++ round

end Sample

section

attribute [local instance] Sample.f64Fmt Sample.sha256 Sample.pipelineLib

/-- The run ends with a report on `tg_1` and a request sent for it. -/
def ReportedAndSent (run : List BlockingAct) : Prop :=
  ∃ w, (blockingMachine Sample.engine {}).Reachable w ∧
    (blockingMachine Sample.engine {}).exec (blockingMachine Sample.engine {}).init run = some w ∧
    (∃ secs tool, ("tg_1", BlockingEnd.timedOut secs tool) ∈ w.returned) ∧ ∃ f ∈ w.calls.shared.forwards, f.id = "tg_1"

theorem exists_report {w : BlockingState} {id : TaskId} (h : w.reported id = true) :
    ∃ secs tool, (id, BlockingEnd.timedOut secs tool) ∈ w.returned := by
  obtain ⟨r, hr, hboth⟩ := List.any_eq_true.mp h
  obtain ⟨id', e⟩ := r
  obtain ⟨hid, htimeout⟩ := Bool.and_eq_true_iff.mp hboth
  have hid' : id' = id := beq_iff_eq.mp hid
  subst hid'
  cases e with
  | timedOut secs tool => exact ⟨secs, tool, hr⟩
  | answered answer => cases htimeout

theorem reportedAndSent_of_exec {run : List BlockingAct}
    (h : ((blockingMachine Sample.engine {}).exec (blockingMachine Sample.engine {}).init run).any (fun w =>
      w.reported "tg_1" && w.calls.shared.forwards.any fun f => f.id == "tg_1") = true) : ReportedAndSent run := by
  obtain ⟨w, hw, hboth⟩ := (Option.any_eq_true ..).mp h
  obtain ⟨hreported, hany⟩ := Bool.and_eq_true_iff.mp hboth
  obtain ⟨f, hf, hid⟩ := List.any_eq_true.mp hany
  exact ⟨w, Machine.reachable_of_exec hw, hw, exists_report hreported, f, hf, beq_iff_eq.mp hid⟩

/-- A caller that goes by its own deadline reports a call as not executed that is sent afterwards, or that has been
sent already. -/
theorem reported_and_sent : ReportedAndSent Sample.sentLater ∧ ReportedAndSent Sample.sentBefore := by
  constructor
  · apply reportedAndSent_of_exec
    decide
  · apply reportedAndSent_of_exec
    decide

theorem report_is_true_sample :
    ∃ w secs tool, (blockingMachine Sample.engine {}).Reachable w ∧
      ("tg_1", BlockingEnd.timedOut secs tool) ∈ w.returned ∧ ∀ f ∈ w.calls.shared.forwards, f.id ≠ "tg_1" := by
  have hrun : ((blockingMachine Sample.engine {}).execWhen (quiet "tg_1") (blockingMachine Sample.engine {}).init
      Sample.sweptAway).any (fun w => w.reported "tg_1") = true := by
    decide
  obtain ⟨w, hreach, hreported⟩ := Machine.exists_reachableWhen_of_execWhen hrun
  obtain ⟨secs, tool, hreport⟩ := exists_report hreported
  exact ⟨w, secs, tool, hreach.reachable, hreport, report_is_true hreach hreport⟩

end

end ThoughtGate
