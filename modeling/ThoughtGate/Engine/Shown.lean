import ThoughtGate.Engine.AtMostOnce
import ThoughtGate.Engine.Fingerprint
import ThoughtGate.Engine.Start

/-!
# What the approver is shown

The request that `start_approval` hands to the scheduler carries the name and the arguments that were asked for. What is
sent later is what the inspectors made of them. The two agree where the inspectors, at the start, changed neither
(`sent_is_shown_iff`).
-/

namespace ThoughtGate

open Value

/-- The approver is shown this call. -/
structure ApprovalRequest.Shows (shown : ApprovalRequest) (r : ToolCallRequest) : Prop where
  name : r.name = shown.toolName
  arguments : Reordered shown.toolArguments r.arguments

/-- The arguments that serde_json reads in the answer of an inspector are as it makes them. -/
def PipelineLib.Reads [PipelineLib] : Prop :=
  ∀ bytes name arguments, PipelineLib.partialRequest bytes = .ok (name, arguments) → arguments.Keyed ∧ arguments.Signed

section

variable [F64.Fmt] [Sha256] [PipelineLib]

/-! ### The start -/

omit [F64.Fmt] [Sha256] [PipelineLib] in
/-- The request that `start_approval` submits for its task. -/
def StartEnv.submitted (env : StartEnv) (request : ToolCallRequest) (principal : Principal) (redactFields : List String)
    (task : Task) : ApprovalRequest :=
  ⟨task.id, request.name, request.arguments, principal, task.expiresAt, task.createdAt, env.correlationId, redactFields⟩

omit [F64.Fmt] [Sha256] [PipelineLib] in
/-- The creation of the task that a start makes. -/
def Engine.creation (g : Engine) (env : StartEnv) (request : ToolCallRequest) (pre : PreHitlResult) (principal : Principal)
    (workflowTimeout : Option Duration) (onTimeoutOverride : Option TimeoutAction) : StoreOp :=
  .create env.id env.created request pre.transformedRequest principal (some (workflowTimeout.getD g.approvalTimeout))
    (onTimeoutOverride.getD g.onTimeout)

omit [PipelineLib] in
theorem Task.new_transformed {id : TaskId} {now : DateTime} {orig pre : ToolCallRequest} {principal : Principal}
    {ttl : Duration} {onTimeout : TimeoutAction} {t : Task}
    (h : Task.new id now orig pre principal ttl onTimeout = .ok t) :
    t.preApprovalTransformed = pre ∧ hashRequest pre = .ok t.requestHash := by
  unfold Task.new at h
  cases hhash : hashRequest pre with
  | error e =>
    rw [hhash] at h
    cases h
  | ok hash =>
    rw [hhash] at h
    cases h
    exact ⟨rfl, rfl⟩

omit [PipelineLib] in
/-- What is stored under a new id after a creation is the new task. -/
theorem TaskStore.create_stored {s : TaskStore} {id : TaskId} {now : DateTime} {orig pre : ToolCallRequest}
    {principal : Principal} {ttl : Option Duration} {onTimeout : TimeoutAction} {e : TaskEntry}
    (hfresh : s.tasks.lookup id = none)
    (he : (s.create id now orig pre principal ttl onTimeout).2.tasks.lookup id = some e) :
    ∃ ttl, Task.new id now orig pre principal ttl onTimeout = .ok e.task := by
  have hbounced : (s.bounced principal.rateLimitKey).tasks.lookup id ≠ some e := by
    rw [bounced_tasks, hfresh]
    exact fun h => by cases h
  unfold create at he
  split at he
  · rw [hfresh] at he
    cases he
  · dsimp only at he
    split at he
    · exact absurd he hbounced
    · split at he
      · exact absurd he hbounced
      · rename_i task htask
        split at he
        · exact absurd he hbounced
        · simp only [indexTask, put, AList.lookup_insert, Option.some.injEq] at he
          rw [← he]
          exact ⟨_, htask⟩

/-- A start that succeeds has created the task and has submitted its request. -/
theorem Engine.startApproval_ok {g : Engine} {env : StartEnv} {store store' : TaskStore} {request : ToolCallRequest}
    {principal : Principal} {workflowTimeout : Option Duration} {onTimeoutOverride : Option TimeoutAction}
    {redactFields : List String} {result : ApprovalStartResult}
    (h : g.startApproval env store request principal workflowTimeout onTimeoutOverride redactFields =
      (.ok result, store')) :
    ∃ pre task, g.pipeline.preApprovalAmber env.inspect request = .ok pre ∧ result.taskId = env.id ∧
      ((g.creation env request pre principal workflowTimeout onTimeoutOverride).apply store).get env.id = .ok task ∧
      env.submit (env.submitted request principal redactFields task) = .ok () := by
  unfold Engine.startApproval at h
  split at h
  · cases h
  · rename_i pre hpre
    split at h
    · cases h
    · rename_i task stored hcreate
      obtain ⟨hid, -, -, e, he, rfl⟩ := TaskStore.lookup_of_create hcreate
      have hstored : ((g.creation env request pre principal workflowTimeout onTimeoutOverride).apply store).get env.id =
          .ok e.task := by
        rw [Engine.creation, StoreOp.apply, hcreate, TaskStore.get, he]
      split at h
      · cases h
      · split at h
        · cases h
        · rename_i hsubmit
          cases h
          exact ⟨pre, e.task, hpre, hid, hstored, hsubmit⟩

/-! ### The inspectors -/

omit [Sha256] in
theorem Pipeline.runInspector_wellFormed (hlib : PipelineLib.Reads) {p : Pipeline}
    {inspect : Nat → String → String → InspectorReply} {i : Nat} {name : String} {current r : ToolCallRequest}
    (hcurrent : current.WellFormed) (h : p.runInspector inspect i name current = .ok r) : r.WellFormed := by
  unfold Pipeline.runInspector at h
  dsimp only at h
  split at h
  · cases h
  · split at h
    · cases h
    · cases h
    · cases h
      exact hcurrent
    · split at h
      · cases h
      · rename_i toolName arguments hread
        cases h
        obtain ⟨hkeyed, hsigned⟩ := hlib _ _ _ hread
        exact ⟨hkeyed, hsigned⟩
    · cases h

omit [Sha256] in
theorem Pipeline.runInspectorsFrom_wellFormed (hlib : PipelineLib.Reads) {p : Pipeline}
    {inspect : Nat → String → String → InspectorReply} (names : List String) {r : ToolCallRequest} :
    ∀ {i : Nat} {current : ToolCallRequest}, current.WellFormed →
      p.runInspectorsFrom inspect i names current = .ok r → r.WellFormed := by
  induction names with
  | nil =>
    intro i current hcurrent h
    cases h
    exact hcurrent
  | cons name names ih =>
    intro i current hcurrent h
    rw [Pipeline.runInspectorsFrom] at h
    cases hnext : p.runInspector inspect i name current with
    | error e =>
      rw [hnext] at h
      cases h
    | ok next =>
      rw [hnext] at h
      exact ih (Pipeline.runInspector_wellFormed hlib hcurrent hnext) h

omit [Sha256] in
theorem Pipeline.runInspectorChain_wellFormed (hlib : PipelineLib.Reads) {p : Pipeline}
    {inspect : Nat → String → String → InspectorReply} {request r : ToolCallRequest} (hrequest : request.WellFormed)
    (h : p.runInspectorChain inspect request = .ok r) : r.WellFormed :=
  Pipeline.runInspectorsFrom_wellFormed hlib p.inspectors hrequest h

theorem Pipeline.preApprovalAmber_ok {p : Pipeline} {inspect : Nat → String → String → InspectorReply}
    {request : ToolCallRequest} {pre : PreHitlResult} (h : p.preApprovalAmber inspect request = .ok pre) :
    p.runInspectorChain inspect request = .ok pre.transformedRequest ∧
      hashRequest pre.transformedRequest = .ok pre.requestHash := by
  unfold Pipeline.preApprovalAmber at h
  cases hchain : p.runInspectorChain inspect request with
  | error e =>
    rw [hchain] at h
    cases h
  | ok transformed =>
    rw [hchain] at h
    dsimp only [bind, Except.bind] at h
    split at h
    · cases h
    · rename_i requestHash hhash
      cases h
      exact ⟨rfl, hhash⟩

/-- What passes the drift check: a transform with the approved fingerprint, or the approved request itself. -/
theorem Pipeline.postApprovalAmber_cases {p : Pipeline} {inspect : Nat → String → String → InspectorReply} {task : Task}
    {r : ToolCallRequest} (h : p.postApprovalAmber inspect task = .ok r) :
    (p.runInspectorChain inspect task.originalRequest = .ok r ∧ hashRequest r = .ok task.requestHash) ∨
      r = task.preApprovalTransformed := by
  unfold Pipeline.postApprovalAmber at h
  split at h
  · cases h
  · cases h
  · rename_i transformed hchain
    split at h
    · cases h
    · rename_i newHash hhash
      by_cases hdrift : newHash ≠ task.requestHash
      · rw [if_pos hdrift] at h
        split at h
        · cases h
        · exact .inr (Except.ok.inj h).symm
      · rw [if_neg hdrift] at h
        cases h
        rw [not_not] at hdrift
        exact .inl ⟨hchain, by rw [hhash, hdrift]⟩

/-! ### The run -/

/-- The task was started for this request, which the inspectors made into `transformed`. -/
structure Task.StartedFor (task : Task) (request transformed : ToolCallRequest) : Prop where
  originalRequest : task.originalRequest = request
  preApprovalTransformed : task.preApprovalTransformed = transformed
  requestHash : hashRequest transformed = .ok task.requestHash

omit [PipelineLib] in
theorem Task.StartedFor.sameOrigin {t t' : Task} {request transformed : ToolCallRequest}
    (h : t.StartedFor request transformed) (hsame : SameOrigin t t') : t'.StartedFor request transformed :=
  ⟨hsame.originalRequest.trans h.originalRequest, hsame.preApprovalTransformed.trans h.preApprovalTransformed,
    by rw [hsame.requestHash]; exact h.requestHash⟩

variable {g : Engine} {config : TaskStoreConfig} {id : TaskId} {request transformed : ToolCallRequest}

/-- When the inspectors are asked again for the task, their result does not run together with what they made of the
request at the start. -/
def Unconfused (g : Engine) (id : TaskId) (request transformed : ToolCallRequest)
    (s : ThreadState EngineState EnginePc) (a : ThreadAct EnginePc EngineInput) : Prop :=
  ∀ t inspect, a = .run t (.inspect inspect) →
    (∃ task approval now policy, s.threads.lookup t = some (.ambering id task approval now policy)) →
    ∀ r, g.pipeline.runInspectorChain inspect request = .ok r → ¬ Confusable transformed r

/-- What is stored, copied and sent for the task. -/
structure Conveys (id : TaskId) (request transformed : ToolCallRequest) (s : ThreadState EngineState EnginePc) : Prop where
  issued : id ∈ s.shared.issued
  stored : ∀ e, s.shared.store.tasks.lookup id = some e → e.task.StartedFor request transformed
  copies : OfCopies (fun id' task => id' = id → task.StartedFor request transformed) s
  sent : ∀ f ∈ s.shared.forwards, f.id = id → transformed.Same f.request

omit [F64.Fmt] [Sha256] [PipelineLib] in
theorem ToolCallRequest.Same.refl (r : ToolCallRequest) : r.Same r := ⟨rfl, rfl, .refl _⟩

/-- One run of the inspectors on a started task gives the approved request, up to the order of keys. -/
theorem same_of_postApprovalAmber (hfmt : F64.Decimal) (hsha : Function.Injective Sha256.hex) (hlib : PipelineLib.Reads)
    {task : Task} {inspect : Nat → String → String → InspectorReply} {r : ToolCallRequest}
    (hrequest : request.WellFormed) (htransformed : transformed.WellFormed) (htask : task.StartedFor request transformed)
    (hclear : ∀ r, g.pipeline.runInspectorChain inspect request = .ok r → ¬ Confusable transformed r)
    (h : g.pipeline.postApprovalAmber inspect task = .ok r) : transformed.Same r := by
  rcases Pipeline.postApprovalAmber_cases h with ⟨hchain, hhash⟩ | rfl
  · rw [htask.originalRequest] at hchain
    have hr := Pipeline.runInspectorChain_wellFormed hlib hrequest hchain
    have hboth : (hashInput transformed).map Sha256.hex = (hashInput r).map Sha256.hex := by
      rw [← hashRequest_eq, ← hashRequest_eq, hhash, htask.requestHash]
    cases hi : hashInput transformed with
    | error e =>
      have hhashed := htask.requestHash
      rw [hashRequest_eq, hi] at hhashed
      cases hhashed
    | ok i =>
      cases hj : hashInput r with
      | error e =>
        rw [hi, hj] at hboth
        cases hboth
      | ok j =>
        rw [hi, hj] at hboth
        have hinput : i = j := hsha (Except.ok.inj hboth)
        rw [← hinput] at hj
        exact (same_or_confusable hfmt htransformed hr hi hj).resolve_right (hclear r hchain)
  · rw [htask.preApprovalTransformed]
    exact .refl _

/-- One step keeps what is carried for the task. -/
theorem Conveys.step (hfmt : F64.Decimal) (hsha : Function.Injective Sha256.hex) (hlib : PipelineLib.Reads)
    (hrequest : request.WellFormed) (htransformed : transformed.WellFormed) {s s' : ThreadState EngineState EnginePc}
    {a : ThreadAct EnginePc EngineInput} (hinv : EngineInv g s) (hs : Conveys id request transformed s)
    (hok : Unconfused g id request transformed s a) (ha : (engineMachine g config).step s a = some s') :
    Conveys id request transformed s' := by
  refine ⟨issued_step hinv ha hs.issued, ?_, ?_, ?_⟩
  · refine taskIn_step (P := fun task => task.StartedFor request transformed) hinv ha ?_ hs.issued hs.stored
    intro t t' ht hstep
    exact ht.sameOrigin hstep.sameOrigin
  · refine hs.copies.step ha (fun _ _ h => h) ?_
    intro id' e he _ hid
    rw [hid] at he
    exact hs.stored e he
  · rcases Program.step_cases ha with ⟨t, p, rfl, -, -, rfl⟩ | ⟨t, i, p, shared, p', rfl, hp, -, hnext, rfl⟩
    · exact hs.sent
    · cases engine_next hnext with
      | @forwarded id' task approval now policy inspect r hamber =>
        intro f hf hid
        rcases List.mem_append.mp hf with hold | hlast
        · exact hs.sent f hold hid
        · rw [List.mem_singleton] at hlast
          subst hlast
          have hid' : id' = id := hid
          have htask := hs.copies.1 t _ hp id' task rfl hid'
          have hpatched : (Engine.pipelineTask task).StartedFor request transformed :=
            ⟨htask.originalRequest, htask.preApprovalTransformed, htask.requestHash⟩
          refine same_of_postApprovalAmber hfmt hsha hlib hrequest htransformed hpatched ?_ hamber
          exact hok t inspect rfl ⟨task, approval, now, policy, by rw [← hid']; exact hp⟩
      | _ => exact hs.sent

/-- The creation of the task is the beginning: nothing goes by its id before. -/
theorem Conveys.of_create {s₀ s₁ : ThreadState EngineState EnginePc} (h₀ : (engineMachine g config).Reachable s₀)
    {t : Nat} {now : DateTime} {principal : Principal} {ttl : Option Duration} {onTimeout : TimeoutAction}
    (hthread : s₀.threads.lookup t = some (.op (.create id now request transformed principal ttl onTimeout)))
    (h₁ : (engineMachine g config).step s₀ (.run t .go) = some s₁) : Conveys id request transformed s₁ := by
  have hinv := reachable_engineInv h₀
  obtain ⟨hthreads, hlog⟩ := reachable_follows h₀
  rcases Program.step_cases h₁ with ⟨_, _, hact, -⟩ | ⟨t', i, p, shared, p', hact, hp, -, hnext, rfl⟩
  · cases hact
  · cases hact
    rw [hthread] at hp
    cases hp
    have hnext' : (if ∀ id' ∈ (StoreOp.create id now request transformed principal ttl onTimeout).newId,
          id' ∉ s₀.shared.issued then
        some ({ s₀.shared with
          store := (StoreOp.create id now request transformed principal ttl onTimeout).apply s₀.shared.store
          issued := [id] ++ s₀.shared.issued }, (none : Option EnginePc))
      else none) = some (shared, p') := hnext
    split at hnext'
    · rename_i hfresh
      have hnot : id ∉ s₀.shared.issued := hfresh id rfl
      cases hnext'
      refine ⟨List.mem_cons_self, ?_, ?_, ?_⟩
      · intro e he
        have hnone : s₀.shared.store.tasks.lookup id = none := by
          by_contra hsome
          obtain ⟨e₀, he₀⟩ := Option.ne_none_iff_exists'.mp hsome
          exact hnot (hinv.issued id e₀ he₀)
        obtain ⟨ttl', hnew⟩ := TaskStore.create_stored hnone he
        exact ⟨Task.new_originalRequest hnew, (Task.new_transformed hnew).1, (Task.new_transformed hnew).2⟩
      · have hother : OfCopies (fun id' _ => id' ∈ s₀.shared.issued) s₀ :=
          ⟨hthreads.mono fun _ p h id' task hsnap => (h id' task hsnap).issued, fun f hf => (hlog f hf).issued⟩
        refine hother.step h₁ (fun id' task hid heq => absurd (heq ▸ hid) hnot) ?_
        intro id' e he _ heq
        exact absurd (heq ▸ hinv.issued id' e he) hnot
      · intro f hf heq
        exact absurd (heq ▸ (hlog f hf).issued) hnot
    · cases hnext'

omit [F64.Fmt] [Sha256] [PipelineLib] in
theorem ApprovalRequest.shows_congr {shown : ApprovalRequest} {r s : ToolCallRequest} (h : r.Same s) :
    shown.Shows s ↔ shown.Shows r := by
  constructor
  · intro hs
    exact ⟨h.name.trans hs.name, hs.arguments.trans h.arguments.symm⟩
  · intro hr
    exact ⟨h.name.symm.trans hr.name, hr.arguments.trans h.arguments⟩

/-- In every run from the creation of the task on, in which the inspectors do not come to a request that runs together with
the approved one: what is sent for the task is what the approver was shown, if and only if the inspectors left it as it was
when the approval was started. -/
theorem sent_is_shown_iff (hfmt : F64.Decimal) (hsha : Function.Injective Sha256.hex) (hlib : PipelineLib.Reads)
    (hrequest : request.WellFormed) {env : StartEnv} {pre : PreHitlResult} {principal : Principal}
    {workflowTimeout : Option Duration} {onTimeoutOverride : Option TimeoutAction}
    (hpre : g.pipeline.preApprovalAmber env.inspect request = .ok pre) {s₀ s₁ s : ThreadState EngineState EnginePc}
    (h₀ : (engineMachine g config).Reachable s₀) {t : Nat}
    (hthread : s₀.threads.lookup t =
      some (.op (g.creation env request pre principal workflowTimeout onTimeoutOverride)))
    (h₁ : (engineMachine g config).step s₀ (.run t .go) = some s₁)
    (hrun : (engineMachine g config).LeadsWhen (Unconfused g env.id request pre.transformedRequest) s₁ s)
    (redactFields : List String) :
    (∀ store result store', g.startApproval env store request principal workflowTimeout onTimeoutOverride redactFields =
      (.ok result, store') → ∃ task, result.taskId = env.id ∧
        ((g.creation env request pre principal workflowTimeout onTimeoutOverride).apply store).get env.id = .ok task ∧
        env.submit (env.submitted request principal redactFields task) = .ok ()) ∧
    ∀ task, ∀ f ∈ s.shared.forwards, f.id = env.id →
      ((env.submitted request principal redactFields task).Shows f.request ↔
        (env.submitted request principal redactFields task).Shows pre.transformedRequest) := by
  have htransformed := Pipeline.runInspectorChain_wellFormed hlib hrequest (Pipeline.preApprovalAmber_ok hpre).1
  have hcarries : EngineInv g s ∧ Conveys env.id request pre.transformedRequest s := by
    refine Machine.LeadsWhen.invariant
      (I := fun u => EngineInv g u ∧ Conveys env.id request pre.transformedRequest u) ?_ ?_ hrun
    · exact ⟨reachable_engineInv (h₀.step h₁), Conveys.of_create h₀ hthread h₁⟩
    · intro u a u' hu hok ha
      exact ⟨hu.1.step ha, hu.2.step hfmt hsha hlib hrequest htransformed hu.1 hok ha⟩
  refine ⟨fun store result store' hstart => ?_, fun task f hf hid => ?_⟩
  · obtain ⟨pre', task, hpre', hid, hstored, hsubmit⟩ := Engine.startApproval_ok hstart
    rw [hpre, Except.ok.injEq] at hpre'
    subst hpre'
    exact ⟨task, hid, hstored, hsubmit⟩
  · exact ApprovalRequest.shows_congr (hcarries.2.sent f hf hid)

end

namespace Sample

/-- A digest for every text, the real one for the text that `request` is hashed from. -/
@[reducible] def distinctSha256 : Sha256 where
  hex text :=
    if text = "tools/callsearch\x7b\x7d" then
      "2aa334fd72b6989634f84e0bc7d727f223bc672b5fd12127375f9b4e6d274395"
    else "x" ++ text

/-- The inspector answers with the name of another tool. -/
@[reducible] def renamingLib : PipelineLib where
  partialRequest bytes := .ok (bytes, .emptyObject)
  uriError _ := none

theorem distinctSha256_injective : Function.Injective distinctSha256.hex := by
  intro a b h
  have hne : ∀ text : String, "2aa334fd72b6989634f84e0bc7d727f223bc672b5fd12127375f9b4e6d274395" ≠ "x" ++ text := by
    intro text heq
    have hhead := congrArg (fun s : String => s.toList.head?) heq
    simp at hhead
  have hab : (if a = "tools/callsearch\x7b\x7d" then
        "2aa334fd72b6989634f84e0bc7d727f223bc672b5fd12127375f9b4e6d274395" else "x" ++ a) =
      if b = "tools/callsearch\x7b\x7d" then
        "2aa334fd72b6989634f84e0bc7d727f223bc672b5fd12127375f9b4e6d274395" else "x" ++ b := h
  split at hab
  · rename_i ha
    split at hab
    · rename_i hb
      rw [ha, hb]
    · exact absurd hab (hne b)
  · split at hab
    · exact absurd hab.symm (hne a)
    · exact (String.append_right_inj _).mp hab

/-- The start of an approval for `request`. -/
def startEnv (inspect : Nat → String → String → InspectorReply) : StartEnv where
  id := "tg_1"
  correlationId := "corr"
  created := 0
  moved := 1
  failed := 1
  inspect
  submit _ := .ok ()

def approves : Nat → String → String → InspectorReply := fun _ _ _ => .approve

def renames : Nat → String → String → InspectorReply := fun _ _ _ => .modify "delete"

/-- An engine with one inspector. -/
def inspected : Engine where
  pipeline := { config := {}, inspectors := ["rename"] }

/-- The task that was created is approved and executed, with these answers of the inspectors. -/
def approveAndSend (inspect : Nat → String → String → InspectorReply) : List (ThreadAct EnginePc EngineInput) :=
  storeCall (.transition 1 "tg_1" .inputRequired none) ++
  storeCall (.recordApproval 2 "tg_1" .approved "alice" (Duration.fromSecs 60)) ++
  [ThreadAct.spawn 1 (EnginePc.start "tg_1"), .run 1 EngineInput.go, .run 1 .go, .run 1 (.clock 3 3),
    .run 1 (.policy fun _ => .ok .forward), .run 1 (.inspect inspect)]

end Sample

section

attribute [local instance] Sample.decimalFmt Sample.distinctSha256 Sample.renamingLib

namespace Sample

/-- What the inspector has made of `request` when the approval is started. -/
def renamed : PreHitlResult := ⟨{ request with name := "delete" }, "xtools/calldelete\x7b\x7d"⟩

example : inspected.pipeline.preApprovalAmber renames request = .ok renamed := rfl

/-- Without inspectors the request stays as it is. -/
def unchanged : PreHitlResult := ⟨request, "2aa334fd72b6989634f84e0bc7d727f223bc672b5fd12127375f9b4e6d274395"⟩

theorem renamingLib_reads : PipelineLib.Reads := by
  intro bytes name arguments h
  cases h
  exact ⟨.object List.nodup_nil fun f hf => (by cases hf), .object fun f hf => (by cases hf)⟩

theorem request_wellFormed : request.WellFormed :=
  ⟨.object List.nodup_nil fun f hf => (by cases hf), .object fun f hf => (by cases hf)⟩

theorem unconfused (s : ThreadState EngineState EnginePc) (a : ThreadAct EnginePc EngineInput) :
    Unconfused engine "tg_1" request request s a := by
  intro t inspect _ _ r hr hconf
  cases hr
  exact hconf.not_same (.refl _)

/-- The thread that creates the task. -/
def creating : EnginePc := .op (engine.creation (startEnv approves) request unchanged principal none none)

end Sample

theorem sent_is_shown_iff_sample : ∃ s f, (engineMachine Sample.engine {}).Reachable s ∧ f ∈ s.shared.forwards ∧
    f.id = "tg_1" ∧ ∀ task,
      (((Sample.startEnv Sample.approves).submitted Sample.request Sample.principal [] task).Shows f.request ↔
        ((Sample.startEnv Sample.approves).submitted Sample.request Sample.principal [] task).Shows Sample.request) := by
  have hrun : (((engineMachine Sample.engine {}).step (engineMachine Sample.engine {}).init (.spawn 0 Sample.creating)).any
      fun s₀ => ((engineMachine Sample.engine {}).step s₀ (.run 0 .go)).any fun s₁ =>
        ((engineMachine Sample.engine {}).exec s₁ (Sample.approveAndSend Sample.approves)).any fun s =>
          s.shared.forwards.any fun f => f.id == "tg_1") = true := by
    decide
  obtain ⟨s₀, hs₀, hrest⟩ := (Option.any_eq_true ..).mp hrun
  obtain ⟨s₁, hs₁, hrest⟩ := (Option.any_eq_true ..).mp hrest
  obtain ⟨s, hs, hany⟩ := (Option.any_eq_true ..).mp hrest
  obtain ⟨f, hf, hid⟩ := List.any_eq_true.mp hany
  have hthread : s₀.threads.lookup 0 = some Sample.creating := by
    cases hs₀
    exact AList.lookup_insert _
  have hlead := Machine.leads_of_exec hs
  have h₀ : (engineMachine Sample.engine {}).Reachable s₀ := Machine.Reachable.step .init hs₀
  have hpre : Sample.engine.pipeline.preApprovalAmber (Sample.startEnv Sample.approves).inspect Sample.request =
      .ok Sample.unchanged := rfl
  have hshown := sent_is_shown_iff Sample.decimal_decimalFmt Sample.distinctSha256_injective Sample.renamingLib_reads
    Sample.request_wellFormed hpre h₀ hthread hs₁ (hlead.leadsWhen Sample.unconfused) []
  have hreach : (engineMachine Sample.engine {}).Reachable s := (h₀.step hs₁).leads hlead
  exact ⟨s, f, hreach, hf, beq_iff_eq.mp hid, fun task => hshown.2 task f hf (beq_iff_eq.mp hid)⟩

/-- The approver is shown `search`, and `delete` is sent. -/
theorem another_tool_sent :
    (Sample.inspected.startApproval (Sample.startEnv Sample.renames) (.new {}) Sample.request Sample.principal none none
        []).1 = .ok ⟨"tg_1", .inputRequired, Duration.fromSecs 10⟩ ∧
      (∀ task, ((Sample.startEnv Sample.renames).submitted Sample.request Sample.principal [] task).toolName = "search") ∧
      ∃ s, (engineMachine Sample.inspected {}).exec (engineMachine Sample.inspected {}).init
          (Sample.storeCall (Sample.inspected.creation (Sample.startEnv Sample.renames) Sample.request Sample.renamed
            Sample.principal none none) ++ Sample.approveAndSend Sample.renames) = some s ∧
        ∃ f ∈ s.shared.forwards, f.id = "tg_1" ∧ f.request.name = "delete" := by
  have hrun : ((engineMachine Sample.inspected {}).exec (engineMachine Sample.inspected {}).init
      (Sample.storeCall (Sample.inspected.creation (Sample.startEnv Sample.renames) Sample.request Sample.renamed
        Sample.principal none none) ++ Sample.approveAndSend Sample.renames)).any
      (fun s => s.shared.forwards.any fun f => f.id == "tg_1" && f.request.name == "delete") = true := by
    decide
  refine ⟨by decide, fun _ => rfl, ?_⟩
  obtain ⟨s, hs, hany⟩ := (Option.any_eq_true ..).mp hrun
  obtain ⟨f, hf, hboth⟩ := List.any_eq_true.mp hany
  rw [Bool.and_eq_true, beq_iff_eq, beq_iff_eq] at hboth
  exact ⟨s, hs, f, hf, hboth⟩

end

end ThoughtGate
