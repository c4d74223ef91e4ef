import ThoughtGate.Engine.Engine

/-!
# Nothing is sent upstream without authorisation

The guarantee is spread over the phases of a call, so it is followed along them: `EnginePc.Sound` says what is
known at each point of a call, `EngineStep.sound` that a step keeps it, and `EngineInv` collects what holds of the
store and of all calls in every reachable state. A request in the log then rests on the task as it stood in an
earlier reachable state (`ReadFrom`), and what was checked since is the rest of `Authorised`.

The store contributes `LiveApproved`: a task that is still `Executing` carries no approval but a granted one, so
the operations that move a task to `Executing` without recording an approval do not matter.
-/

namespace ThoughtGate

section

variable [F64.Fmt] [Sha256] [PipelineLib] {g : Engine} {config : TaskStoreConfig}

/-! ### The checks of the pipeline -/

omit [F64.Fmt] [Sha256] [PipelineLib] in
theorem validateApproval_ok {now : DateTime} {task : Task} {approval : ApprovalRecord}
    (h : Pipeline.validateApproval now task approval = .ok ()) : now ≤ approval.approvalValidUntil := by
  unfold Pipeline.validateApproval at h
  split at h
  · cases h
  · rename_i hnot
    exact Int.not_lt.mp hnot

omit [F64.Fmt] [Sha256] [PipelineLib] in
theorem reevaluatePolicy_ok {policy : PolicyRequest → Except String PolicyAction} {task : Task}
    {approval : ApprovalRecord} (h : Pipeline.reevaluatePolicy policy task approval = .ok ()) :
    ∃ a, policy (Pipeline.reevaluationRequest task approval) = .ok a ∧ a.isReject = false := by
  unfold Pipeline.reevaluatePolicy at h
  split at h
  · cases h
  · rename_i ha
    exact ⟨_, ha, rfl⟩
  · rename_i ha
    exact ⟨_, ha, rfl⟩
  · cases h

theorem postApprovalAmber_ok {p : Pipeline} {inspect : Nat → String → String → InspectorReply} {task : Task}
    {request : ToolCallRequest} (h : p.postApprovalAmber inspect task = .ok request) :
    hashRequest request = .ok task.requestHash ∨ request = task.preApprovalTransformed := by
  unfold Pipeline.postApprovalAmber at h
  split at h
  · cases h
  · cases h
  · split at h
    · cases h
    · rename_i newHash hhash
      split at h
      · split at h
        · cases h
        · cases h
          exact Or.inr rfl
      · rename_i heq
        cases h
        rw [not_not] at heq
        rw [hhash, heq]
        exact Or.inl rfl

omit [F64.Fmt] [Sha256] [PipelineLib] in
/-- The two kinds of task that a call goes on with. -/
theorem dispatch_none {id : TaskId} {task : Task} (h : Engine.dispatch id task = none) :
    task.status = .executing ∨ (task.status = .expired ∧ task.onTimeout = .approve) := by
  unfold Engine.dispatch at h
  split at h
  · cases h
  · cases h
  · rename_i hst
    exact Or.inl hst
  · cases h
  · rename_i hst
    split at h
    · cases h
    · rename_i hto
      exact Or.inr ⟨hst, hto⟩
  · cases h
  · cases h
  · split at h
    · cases h
    · cases h

/-! ### What is known along a call -/

/-- What each point of a call has established; from outside the store is never told an automatic result. -/
def EnginePc.Sound (g : Engine) : EnginePc → Prop
  | .policing _ task approval now =>
    (∃ granted, g.approvalOf task granted = some approval) ∧ now ≤ approval.approvalValidUntil
  | .ambering _ task approval now policy =>
    (∃ granted, g.approvalOf task granted = some approval) ∧ now ≤ approval.approvalValidUntil ∧
      ∃ a, policy (Pipeline.reevaluationRequest (Engine.pipelineTask task) approval) = .ok a ∧ a.isReject = false
  | .sent _ task approval | .settle _ task approval _ => ∃ granted, g.approvalOf task granted = some approval
  | .op o => o.autoApproval = none
  | _ => True

omit [F64.Fmt] [Sha256] [PipelineLib] in
theorem EnginePc.sound_of_starts {p : EnginePc} (h : p.starts = true) : p.Sound g := by
  cases p with
  | start id => trivial
  | op o =>
    cases o with
    | recordAutoApproveResult => cases h
    | _ => rfl
  | _ => cases h

omit [F64.Fmt] [Sha256] [PipelineLib] in
/-- The approval a call goes by belongs to the task it read. -/
theorem EnginePc.Sound.approvalOf {p : EnginePc} (hp : p.Sound g) {id : TaskId} {task : Task}
    {approval : ApprovalRecord} (hsnap : p.snapshot = some (id, task)) (hgrant : p.grants g approval) :
    ∃ granted, g.approvalOf task granted = some approval := by
  cases p with
  | guarded id' task' =>
    cases hsnap
    exact hgrant
  | policing id' task' approval' now =>
    cases hsnap
    cases hgrant
    exact hp.1
  | ambering id' task' approval' now policy =>
    cases hsnap
    cases hgrant
    exact hp.1
  | sent id' task' approval' | settle id' task' approval' result =>
    cases hsnap
    cases hgrant
    exact hp
  | _ => exact hgrant.elim

theorem EngineStep.sound {s s' : EngineState} {p : EnginePc} {i : EngineInput} {p' : Option EnginePc}
    (h : EngineStep g s p i s' p') (hp : p.Sound g) : ∀ q ∈ p', q.Sound g := by
  intro q hq
  cases h with
  | leave | dropped | released | op => cases hq
  | read | acquired | abandoned | settled =>
    cases hq
    trivial
  | validated happ hval =>
    cases hq
    exact ⟨⟨_, happ⟩, validateApproval_ok hval⟩
  | permitted hok =>
    cases hq
    exact ⟨hp.1, hp.2, reevaluatePolicy_ok hok⟩
  | forwarded _ =>
    cases hq
    exact hp.1
  | ended _ hsnap hgrant =>
    cases hq
    exact hp.approvalOf hsnap hgrant

omit [F64.Fmt] [Sha256] [PipelineLib] in
/-- An expired task goes by a granted approval. -/
theorem approvalOf_expired {task : Task} {granted : DateTime} {approval : ApprovalRecord}
    (h : g.approvalOf task granted = some approval) (hexp : task.status = .expired) :
    approval.decision = .approved := by
  rw [Engine.approvalOf, if_pos hexp] at h
  cases h
  rfl

omit [F64.Fmt] [Sha256] [PipelineLib] in
theorem settleStore_effects {new : TaskId → Prop} {auto : ApprovalRecord → Prop} (store : TaskStore)
    (now : DateTime) (id : TaskId) {task : Task} {approval : ApprovalRecord} (result : PipelineResult)
    (hauto : task.status = .expired → auto approval) :
    Effects new auto store (Engine.settleStore store now id task approval result) := by
  cases result with
  | success result =>
    simp only [Engine.settleStore]
    split
    · rename_i hexp
      exact recordAutoApproveResult_effects store now id result (hauto hexp)
    · exact complete_effects store now id result
  | failure info =>
    simp only [Engine.settleStore]
    split
    · exact .refl
    · exact fail_effects store now id info

omit [F64.Fmt] [Sha256] [PipelineLib] in
/-- The end of a call completes or fails its own task, or leaves its status. -/
theorem StatusIn.settleStore {store : TaskStore} {id id' : TaskId} {P : TaskStatus → Prop} (hs : StatusIn store id P)
    (hcompleted : id' = id → StaysAt P .completed) (hfailed : id' = id → StaysAt P .failed) (now : DateTime)
    (task : Task) (approval : ApprovalRecord) (result : PipelineResult) :
    StatusIn (Engine.settleStore store now id' task approval result) id P := by
  cases result with
  | success result =>
    simp only [Engine.settleStore]
    split
    · exact hs.recordAutoApproveResult now result approval
    · exact hs.complete hcompleted now result
  | failure info =>
    simp only [Engine.settleStore]
    split
    · exact hs
    · exact hs.fail hfailed now info

/-! ### The invariant -/

/-- What holds of the store and of all calls. -/
structure EngineInv (g : Engine) (s : ThreadState EngineState EnginePc) : Prop where
  keyed : WellKeyed s.shared.store
  live : LiveApproved s.shared.store
  issued : s.shared.store.tasks.All fun id _ => id ∈ s.shared.issued
  sound : s.threads.All fun _ p => p.Sound g

/-- What a step of a sound call does to the store; only a creation accepts an id, and a new one. -/
theorem EngineStep.store_effects {s s' : EngineState} {p : EnginePc} {i : EngineInput} {p' : Option EnginePc}
    (h : EngineStep g s p i s' p') (hp : p.Sound g) (hkeyed : WellKeyed s.store)
    (hissued : s.store.tasks.All fun id _ => id ∈ s.issued) :
    ∃ new : TaskId → Prop, Effects new (fun r => r.decision = .approved) s.store s'.store ∧
      (∀ id, new id → id ∉ s.issued ∧ id ∈ s'.issued) ∧ ∀ id ∈ s.issued, id ∈ s'.issued := by
  cases h with
  | leave | read | acquired | validated | permitted | forwarded | ended | abandoned | dropped | released =>
    exact ⟨fun _ => False, .refl, fun _ h => h.elim, fun _ h => h⟩
  | settled =>
    obtain ⟨_, happ⟩ := hp
    exact ⟨fun _ => False, settleStore_effects _ _ _ _ (approvalOf_expired happ), fun _ h => h.elim, fun _ h => h⟩
  | @op o _ hfresh =>
    have hauto : o.autoApproval = none := hp
    refine ⟨fun id => o.newId = some id, StoreOp.apply_effects hkeyed ?_ ?_, ?_, ?_⟩
    · intro id hid
      by_contra hne
      obtain ⟨e, he⟩ := Option.ne_none_iff_exists'.mp hne
      exact hfresh id hid (hissued id e he)
    · rw [hauto]
      intro r hr
      cases hr
    · intro id hid
      refine ⟨hfresh id hid, ?_⟩
      simp [hid]
    · intro id hid
      exact List.mem_append_right _ hid

theorem EngineInv.step {s s' : ThreadState EngineState EnginePc} {a : ThreadAct EnginePc EngineInput}
    (hs : EngineInv g s) (h : (engineMachine g config).step s a = some s') : EngineInv g s' := by
  rcases Program.step_cases h with ⟨t, p, rfl, -, hstart, rfl⟩ | ⟨t, i, p, shared, p', rfl, hp, -, hnext, rfl⟩
  · exact ⟨hs.keyed, hs.live, hs.issued, hs.sound.insert (EnginePc.sound_of_starts hstart)⟩
  · have hstep := engine_next hnext
    have hsound := hs.sound t p hp
    obtain ⟨new, heff, hnew, hkeep⟩ := hstep.store_effects hsound hs.keyed hs.issued
    refine ⟨hs.keyed.effects heff, ?_, ?_, ?_⟩
    · exact Effects.invariant (fun _ _ h h' => LiveApproved.effect h h') hs.live heff
    · intro id e he
      rcases heff.stored he with ⟨e₀, he₀⟩ | hid
      · exact hkeep id (hs.issued id e₀ he₀)
      · exact (hnew id hid).2
    · intro u q hq
      rcases Program.settle_cases hq with ⟨_, hp'⟩ | ⟨_, hold⟩
      · exact hstep.sound hsound q hp'
      · exact hs.sound u q hold

theorem reachable_engineInv {s : ThreadState EngineState EnginePc} (h : (engineMachine g config).Reachable s) :
    EngineInv g s := by
  refine Machine.Reachable.invariant ?_ (fun _ _ _ hs ha => hs.step ha) h
  exact ⟨Table.All.empty _, Table.All.empty _, Table.All.empty _, Table.All.empty _⟩

/-! ### What was sent -/

/-- In an earlier state the task stood in the store as the call read it. -/
def ReadFrom (g : Engine) (config : TaskStoreConfig) (s : ThreadState EngineState EnginePc) (id : TaskId)
    (task : Task) : Prop :=
  ∃ s₀, (engineMachine g config).Reachable s₀ ∧ (engineMachine g config).Leads s₀ s ∧
    (∃ e, s₀.shared.store.tasks.lookup id = some e ∧ e.task = task) ∧ Engine.dispatch id task = none

theorem ReadFrom.step {s s' : ThreadState EngineState EnginePc} {a : ThreadAct EnginePc EngineInput} {id : TaskId}
    {task : Task} (h : ReadFrom g config s id task) (ha : (engineMachine g config).step s a = some s') :
    ReadFrom g config s' id task := by
  obtain ⟨s₀, hs₀, hlead, hread⟩ := h
  exact ⟨s₀, hs₀, hlead.tail ha, hread⟩

/-- The authorisation of a request that was sent, for the task `f.task` that the call had read. -/
structure Authorised (f : Forward) : Prop where
  /-- The recorded approval is a granted one, in its validity window, or the timeout approves. -/
  live : (f.task.status = .executing ∧ ∃ r, f.task.approval = some r ∧ r.decision = .approved ∧
      f.now ≤ r.approvalValidUntil) ∨
    (f.task.status = .expired ∧ f.task.onTimeout = .approve)
  /-- The policy engine, asked about `pre_approval_transformed`, did not reject. -/
  permitted : ∃ a, f.policy (Pipeline.buildPolicyRequest f.task.preApprovalTransformed f.task.principal
      (some ⟨f.task.id, f.approval.decidedBy, Pipeline.timestamp f.approval.decidedAt⟩)) = .ok a ∧
    a.isReject = false
  /-- What was sent is what was approved. -/
  same : hashRequest f.request = .ok f.task.requestHash ∨ f.request = f.task.preApprovalTransformed

/-- A request is authorised when it passed the phases and its task was read from a reachable state. -/
theorem ReadFrom.authorised {s : ThreadState EngineState EnginePc} {id : TaskId} {task : Task}
    {approval : ApprovalRecord} {now : DateTime} {policy : PolicyRequest → Except String PolicyAction}
    {inspect : Nat → String → String → InspectorReply} {request : ToolCallRequest}
    (hread : ReadFrom g config s id task) (hp : (EnginePc.ambering id task approval now policy).Sound g)
    (hamber : g.pipeline.postApprovalAmber inspect (Engine.pipelineTask task) = .ok request) :
    Authorised ⟨id, task, approval, now, policy, request⟩ := by
  obtain ⟨s₀, hs₀, -, ⟨e, he, rfl⟩, hgo⟩ := hread
  obtain ⟨⟨granted, happ⟩, hnow, hpol⟩ := hp
  refine ⟨?_, hpol, postApprovalAmber_ok hamber⟩
  rcases dispatch_none hgo with hexec | hexp
  · have hrec : e.task.approval = some approval := by
      have hne : e.task.status ≠ .expired := by rw [hexec]; decide
      rwa [Engine.approvalOf, if_neg hne] at happ
    have hlive : e.task.status.isTerminal = false := by rw [hexec]; rfl
    exact Or.inl ⟨hexec, approval, hrec, (reachable_engineInv hs₀).live id e he hlive approval hrec, hnow⟩
  · exact Or.inr hexp

/-- What a step appends to the log. -/
theorem EngineStep.forwards {s s' : EngineState} {p : EnginePc} {i : EngineInput} {p' : Option EnginePc}
    (h : EngineStep g s p i s' p') :
    s'.forwards = s.forwards ∨ ∃ id task approval now policy inspect request,
      p = .ambering id task approval now policy ∧ p' = some (.sent id task approval) ∧
      g.pipeline.postApprovalAmber inspect (Engine.pipelineTask task) = .ok request ∧
      s'.forwards = s.forwards ++ [⟨id, task, approval, now, policy, request⟩] := by
  cases h with
  | forwarded hok => exact Or.inr ⟨_, _, _, _, _, _, _, rfl, rfl, hok, rfl⟩
  | _ => exact Or.inl rfl

/-- The copy a call goes by after its step: the one it had, or the one it reads now. -/
theorem EngineStep.snapshot {s s' : EngineState} {p q : EnginePc} {i : EngineInput}
    (h : EngineStep g s p i s' (some q)) {id : TaskId} {task : Task} (hq : q.snapshot = some (id, task)) :
    p.snapshot = some (id, task) ∨
      ((∃ e, s.store.tasks.lookup id = some e ∧ e.task = task) ∧ Engine.dispatch id task = none) := by
  cases h with
  | read he hgo =>
    cases hq
    exact Or.inr ⟨⟨_, he, rfl⟩, hgo⟩
  | acquired | validated | permitted | forwarded =>
    cases hq
    exact Or.inl rfl
  | ended _ hsnap _ =>
    cases hq
    exact Or.inl hsnap
  | abandoned | settled => cases hq

/-- A property of the copies that the calls go by and of those in the log. -/
def OfCopies (Q : TaskId → Task → Prop) (s : ThreadState EngineState EnginePc) : Prop :=
  (s.threads.All fun _ p => ∀ id task, p.snapshot = some (id, task) → Q id task) ∧
    ∀ f ∈ s.shared.forwards, Q f.id f.task

theorem OfCopies.init (Q : TaskId → Task → Prop) : OfCopies Q (engineMachine g config).init :=
  ⟨Table.All.empty _, fun f hf => by cases hf⟩

/-- One step: the copies stay, but for one that is read from the store. -/
theorem OfCopies.step {Q Q' : TaskId → Task → Prop} {s s' : ThreadState EngineState EnginePc}
    {a : ThreadAct EnginePc EngineInput} (hs : OfCopies Q s) (ha : (engineMachine g config).step s a = some s')
    (hkeep : ∀ id task, Q id task → Q' id task)
    (hread : ∀ id e, s.shared.store.tasks.lookup id = some e → Engine.dispatch id e.task = none → Q' id e.task) :
    OfCopies Q' s' := by
  obtain ⟨hthreads, hlog⟩ := hs
  have hthreads' : s.threads.All fun _ p => ∀ id task, p.snapshot = some (id, task) → Q' id task :=
    hthreads.mono fun _ p hp id task hsnap => hkeep id task (hp id task hsnap)
  have hlog' : ∀ f ∈ s.shared.forwards, Q' f.id f.task := fun f hf => hkeep _ _ (hlog f hf)
  rcases Program.step_cases ha with ⟨t, p, rfl, -, hstart, rfl⟩ | ⟨t, i, p, shared, p', rfl, hp, -, hnext, rfl⟩
  · refine ⟨hthreads'.insert ?_, hlog'⟩
    intro id task hsnap
    cases p with
    | start | op => cases hsnap
    | _ => cases hstart
  · have hstep := engine_next hnext
    constructor
    · intro u q hq
      rcases Program.settle_cases hq with ⟨_, rfl⟩ | ⟨_, hother⟩
      · intro id task hsnap
        rcases hstep.snapshot hsnap with hsame | ⟨⟨e, he, rfl⟩, hgo⟩
        · exact hthreads' t p hp id task hsame
        · exact hread id e he hgo
      · exact hthreads' u q hother
    · rcases hstep.forwards with hsame | ⟨id, task, approval, now, policy, inspect, request, rfl, rfl, hok, happend⟩
      · rw [hsame]
        exact hlog'
      · rw [happend]
        intro f hf
        rcases List.mem_append.mp hf with hf | hf
        · exact hlog' f hf
        · rw [List.mem_singleton] at hf
          subst hf
          exact hthreads' t _ hp id task rfl

theorem reachable_readFrom {s : ThreadState EngineState EnginePc} (h : (engineMachine g config).Reachable s) :
    OfCopies (ReadFrom g config s) s := by
  refine Machine.ReachableWhen.invariant (I := fun s => OfCopies (ReadFrom g config s) s) (OfCopies.init _) ?_ h
  intro s a s' hs hI _ ha
  refine hI.step ha (fun id task hread => hread.step ha) ?_
  intro id e he hgo
  exact ⟨s, hs, Relation.ReflTransGen.single ⟨a, ha⟩, ⟨e, he, rfl⟩, hgo⟩

theorem reachable_authorised {s : ThreadState EngineState EnginePc} (h : (engineMachine g config).Reachable s) :
    ∀ f ∈ s.shared.forwards, Authorised f := by
  refine Machine.ReachableWhen.invariant (I := fun s => ∀ f ∈ s.shared.forwards, Authorised f)
    (fun f hf => by cases hf) ?_ h
  intro s a s' hs hlog _ ha
  rcases Program.step_cases ha with ⟨t, p, rfl, -, -, rfl⟩ | ⟨t, i, p, shared, p', rfl, hp, -, hnext, rfl⟩
  · exact hlog
  · rcases (engine_next hnext).forwards with
      hsame | ⟨id, task, approval, now, policy, inspect, request, rfl, -, hok, happend⟩
    · rw [hsame]
      exact hlog
    · rw [happend]
      intro f hf
      rcases List.mem_append.mp hf with hf | hf
      · exact hlog f hf
      · rw [List.mem_singleton] at hf
        subst hf
        exact ((reachable_readFrom hs).1 t _ hp id task rfl).authorised ((reachable_engineInv hs).sound t _ hp) hok

/-- Every request ever sent, in any interleaving of calls and store operations and for any clock, policy engine
and inspectors, is authorised for the task as its call read it from a reachable state. -/
theorem forward_authorised {s : ThreadState EngineState EnginePc} (h : (engineMachine g config).Reachable s)
    {f : Forward} (hf : f ∈ s.shared.forwards) :
    ∃ s₀, (engineMachine g config).Reachable s₀ ∧ (engineMachine g config).Leads s₀ s ∧
      (∃ e, s₀.shared.store.tasks.lookup f.id = some e ∧ e.task = f.task) ∧ Authorised f := by
  obtain ⟨s₀, hs₀, hlead, hstored, -⟩ := (reachable_readFrom h).2 f hf
  exact ⟨s₀, hs₀, hlead, hstored, reachable_authorised h f hf⟩

end

namespace Sample

def engine : Engine where
  pipeline := { config := {}, inspectors := [] }

/-- A call of the store from outside, as one thread that starts and ends. -/
def storeCall (o : StoreOp) : List (ThreadAct EnginePc EngineInput) := [.spawn 0 (.op o), .run 0 .go]

/-- The task `tg_1` is created and approved by a human. -/
def approved : List (ThreadAct EnginePc EngineInput) :=
  storeCall (.create "tg_1" 0 request request principal none .deny) ++
  storeCall (.transition 1 "tg_1" .inputRequired none) ++
  storeCall (.recordApproval 2 "tg_1" .approved "alice" (Duration.fromSecs 60))

/-- The steps of a call from the guard until its request is sent. -/
def send (t : Nat) : List (ThreadAct EnginePc EngineInput) :=
  [.run t (.clock 3 3), .run t (.policy fun _ => .ok .forward), .run t (.inspect fun _ _ _ => .approve)]

end Sample

section

attribute [local instance] Sample.f64Fmt Sample.sha256 Sample.pipelineLib

theorem forward_authorised_sample :
    ∃ s f, (engineMachine Sample.engine {}).Reachable s ∧ f ∈ s.shared.forwards ∧ f.id = "tg_1" ∧
      ∃ s₀, (engineMachine Sample.engine {}).Reachable s₀ ∧ (engineMachine Sample.engine {}).Leads s₀ s ∧
        (∃ e, s₀.shared.store.tasks.lookup f.id = some e ∧ e.task = f.task) ∧ Authorised f := by
  have hrun : ((engineMachine Sample.engine {}).exec (engineMachine Sample.engine {}).init
      (Sample.approved ++ [ThreadAct.spawn 1 (EnginePc.start "tg_1"), .run 1 EngineInput.go, .run 1 .go] ++ Sample.send 1)).any
        (fun s => s.shared.forwards.any fun f => f.id == "tg_1") = true := by
    decide
  obtain ⟨s, hreach, hany⟩ := Machine.exists_reachable_of_exec hrun
  obtain ⟨f, hf, hid⟩ := List.any_eq_true.mp hany
  exact ⟨s, f, hreach, hf, beq_iff_eq.mp hid, forward_authorised hreach hf⟩

end

end ThoughtGate
