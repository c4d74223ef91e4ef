import ThoughtGate.Engine.AtMostOnce
import ThoughtGate.Engine.AutoApprove
import Mathlib.Data.List.Chain

/-!
# The audit trail of a task

Every operation that moves a task goes through `Task::transition`, which appends the edge it follows, so the trail
of a task is a path of the status machine from `Working` to the status it has. The one entry that is not an edge
is `Expired -> Expired`, which `record_auto_approve_result` appends; it checks no status, and what makes the entry
fit is that the engine only calls it for a task it has read as `Expired`, a status that nothing leaves.
-/

namespace ThoughtGate

/-- The trail of a task is a path from `Working` to its status. -/
structure Task.Trail (t : Task) : Prop where
  empty : t.transitions = [] → t.status = .working
  first : ∀ x ∈ t.transitions.head?, x.source = .working
  chained : t.transitions.IsChain fun x y => x.target = y.source
  last : ∀ x ∈ t.transitions.getLast?, x.target = t.status

/-- A line of the trail: an edge of the status machine, or the note of an automatic approval. -/
def TaskTransition.Lawful (x : TaskTransition) : Prop :=
  x.source.canTransitionTo x.target = true ∨ (x.source = .expired ∧ x.target = .expired)

/-- What the record of a task says about its past. -/
structure Task.Recorded (g : Engine) (t : Task) : Prop where
  trail : t.Trail
  lawful : ∀ x ∈ t.transitions, x.Lawful
  result : t.result.isSome → t.status = .completed ∨
    (t.status = .expired ∧ ∃ now, t.approval = some (g.syntheticApproval now))

/-- The entry of a task with its record in order; the terminal time is there exactly when the status is terminal. -/
structure Audited (g : Engine) (e : TaskEntry) : Prop where
  recorded : e.task.Recorded g
  terminalAt : e.terminalAt.isSome = e.task.status.isTerminal

/-! ### One line more -/

/-- Appending a line that starts where the task stands. -/
theorem Task.Trail.append {t t' : Task} (ht : t.Trail) {x : TaskTransition} (hsource : x.source = t.status)
    (htr : t'.transitions = t.transitions ++ [x]) (htarget : t'.status = x.target) : t'.Trail := by
  refine ⟨fun h => ?_, fun y hy => ?_, ?_, fun y hy => ?_⟩
  · simp [htr] at h
  · rw [htr] at hy
    cases hl : t.transitions with
    | nil =>
      rw [hl] at hy
      cases hy
      exact hsource.trans (ht.empty hl)
    | cons z zs =>
      rw [hl] at hy
      cases hy
      exact ht.first _ (by rw [hl]; rfl)
  · rw [htr]
    refine ht.chained.append (.singleton x) fun y hy z hz => ?_
    cases hz
    rw [ht.last y hy, hsource]
  · rw [htr, List.getLast?_concat] at hy
    cases hy
    exact htarget.symm

/-- A transition of a task, whatever was written into it besides its status and its trail. -/
theorem Task.Recorded.moved {g : Engine} {t u t' : Task} {now : DateTime} {newStatus : TaskStatus}
    {reason : Option String} (ht : t.Recorded g) (h : u.transition now newStatus reason = .ok t')
    (hstatus : u.status = t.status) (htransitions : u.transitions = t.transitions) :
    t'.Trail ∧ ∀ x ∈ t'.transitions, x.Lawful := by
  obtain ⟨hcan, rfl⟩ := Task.transition_ok h
  refine ⟨ht.trail.append (x := ⟨u.status, newStatus, now, reason⟩) hstatus (by rw [htransitions]) rfl, ?_⟩
  intro x hx
  rcases List.mem_append.mp hx with hx | hx
  · rw [htransitions] at hx
    exact ht.lawful x hx
  · rw [List.mem_singleton] at hx
    subst hx
    exact Or.inl hcan

/-- A task that can still move has no result. -/
theorem Task.Recorded.no_result {g : Engine} {t : Task} (ht : t.Recorded g) {b : TaskStatus}
    (hcan : t.status.canTransitionTo b = true) : t.result = none := by
  have hlive := TaskStatus.canTransitionTo_not_terminal hcan
  by_contra hne
  rcases ht.result (Option.isSome_iff_ne_none.mpr hne) with hst | ⟨hst, -⟩
  · rw [hst] at hlive
    cases hlive
  · rw [hst] at hlive
    cases hlive

/-- Every step but `record_auto_approve_result` keeps the record in order. -/
theorem TaskStep.recorded {g : Engine} {t t' : Task} (h : TaskStep (fun _ => False) t t') (ht : t.Recorded g) :
    t'.Recorded g := by
  cases h with
  | move h | decided h | failed h =>
    obtain ⟨htrail, hlawful⟩ := ht.moved h rfl rfl
    refine ⟨htrail, hlawful, ?_⟩
    obtain ⟨hcan, rfl⟩ := Task.transition_ok h
    intro hres
    rw [ht.no_result hcan] at hres
    cases hres
  | completed h =>
    obtain ⟨htrail, hlawful⟩ := ht.moved h rfl rfl
    refine ⟨htrail, hlawful, ?_⟩
    obtain ⟨-, rfl⟩ := Task.transition_ok h
    exact fun _ => Or.inl rfl
  | noted _ =>
    exact ⟨⟨ht.trail.empty, ht.trail.first, ht.trail.chained, ht.trail.last⟩, ht.lawful, ht.result⟩
  | autoResult hauto => exact hauto.elim

/-- On an expired task the note of an automatic approval fits its trail. -/
theorem Task.Recorded.autoResult {g : Engine} {t : Task} (ht : t.Recorded g) (hst : t.status = .expired)
    (now granted : DateTime) (result : ToolCallResult) (reason : Option String) :
    Task.Recorded g { t with
      result := some result
      approval := some (g.syntheticApproval granted)
      transitions := t.transitions ++ [⟨.expired, .expired, now, reason⟩] } := by
  refine ⟨ht.trail.append hst.symm rfl hst, ?_, fun _ => Or.inr ⟨hst, granted, rfl⟩⟩
  intro x hx
  rcases List.mem_append.mp hx with hx | hx
  · exact ht.lawful x hx
  · rw [List.mem_singleton] at hx
    subst hx
    exact Or.inr ⟨rfl, rfl⟩

theorem Task.Recorded.of_new {g : Engine} {t : Task} (hst : t.status = .working) (htr : t.transitions = [])
    (hres : t.result = none) : t.Recorded g := by
  refine ⟨⟨fun _ => hst, ?_, ?_, ?_⟩, ?_, ?_⟩
  · simp [htr]
  · simp [htr]
  · simp [htr]
  · simp [htr]
  · simp [hres]

/-! ### What every stored task keeps -/

/-- A property that new tasks have and that nothing takes from a task: no step of a store operation, and no automatic
result of the engine, which is written to an expired task. -/
structure Task.Kept (g : Engine) (P : Task → Prop) : Prop where
  new : ∀ t : Task, t.status = .working → t.transitions = [] → t.approval = none → t.result = none → P t
  step : ∀ t t', P t → TaskStep (fun _ => False) t t' → P t'
  autoResult : ∀ t now granted result reason, P t → t.status = .expired →
    P { t with
      result := some result
      approval := some (g.syntheticApproval granted)
      transitions := t.transitions ++ [⟨.expired, .expired, now, reason⟩] }

theorem Task.Recorded.kept (g : Engine) : Task.Kept g (Task.Recorded g) where
  new _ hst htr _ hres := .of_new hst htr hres
  step _ _ ht hstep := hstep.recorded ht
  autoResult _ now granted result reason ht hst := ht.autoResult hst now granted result reason

namespace Task.Kept

open TaskStore

variable {g : Engine} {P : Task → Prop}

theorem effect (hP : Kept g P) {new : TaskId → Prop} {s s' : TaskStore} (hs : s.tasks.All fun _ e => P e.task)
    (h : Effect new (fun _ => False) s s') : s'.tasks.All fun _ e => P e.task := by
  cases h with
  | @touch id e t' he hstep _ => exact Table.All.insert hs (hP.step _ _ (hs id e he) hstep)
  | @finish now id e t' he hstep _ _ =>
    have ht' := hP.step _ _ (hs id e he) hstep
    simp only [becomeTerminal, put_tasks, decrementPendingCounters_tasks]
    exact Table.All.insert (Table.All.insert hs ht') ht'
  | @accept id task n _ _ _ hst htr hap hres _ =>
    rw [admitted_tasks]
    exact Table.All.insert hs (hP.new task hst htr hap hres)
  | bounce _ =>
    rw [bounced_tasks]
    exact hs
  | @drop id e he _ =>
    obtain ⟨index, hframe⟩ := cleanupOne_frame he
    rw [hframe]
    exact Table.All.erase hs id

theorem effects (hP : Kept g P) (new : TaskId → Prop) {s s' : TaskStore} (hs : s.tasks.All fun _ e => P e.task)
    (h : Effects new (fun _ => False) s s') : s'.tasks.All fun _ e => P e.task :=
  Effects.invariant (I := fun s => s.tasks.All fun _ e => P e.task) (fun _ _ => hP.effect) hs h

/-- What a call writes at its end: for an expired task, what fits one that is still `Expired`. -/
theorem settleStore (hP : Kept g P) {s : TaskStore} (hs : s.tasks.All fun _ e => P e.task) (now granted : DateTime)
    {id : TaskId} {task : Task} {approval : ApprovalRecord} (happ : g.approvalOf task granted = some approval)
    (hexp : task.status = .expired → StatusIn s id (· = .expired)) (result : PipelineResult) :
    (Engine.settleStore s now id task approval result).tasks.All fun _ e => P e.task := by
  cases result with
  | success result =>
    simp only [Engine.settleStore]
    split
    · rename_i hst
      rw [Engine.approvalOf, if_pos hst] at happ
      cases happ
      unfold recordAutoApproveResult
      split
      · exact hs
      · rename_i e he
        exact Table.All.insert hs (hP.autoResult e.task now granted result _ (hs id e he) (hexp hst e he))
    · exact hP.effects (fun _ => False) hs (complete_effects s now id result)
  | failure info =>
    simp only [Engine.settleStore]
    split
    · exact hs
    · exact hP.effects (fun _ => False) hs (fail_effects s now id info)

end Task.Kept

/-! ### Whole runs -/

section

variable [F64.Fmt] [Sha256] [PipelineLib] {g : Engine} {config : TaskStoreConfig}

theorem Task.Kept.machine_step {P : Task → Prop} (hP : Task.Kept g P) {s s' : ThreadState EngineState EnginePc}
    {a : ThreadAct EnginePc EngineInput} (hreach : (engineMachine g config).Reachable s)
    (hs : s.shared.store.tasks.All fun _ e => P e.task) (ha : (engineMachine g config).step s a = some s') :
    s'.shared.store.tasks.All fun _ e => P e.task := by
  have hinv := reachable_engineInv hreach
  rcases Program.step_cases ha with ⟨t, p, rfl, -, -, rfl⟩ | ⟨t, i, p, shared, p', rfl, hp, -, hnext, rfl⟩
  · exact hs
  · have hsound := hinv.sound t p hp
    cases engine_next hnext with
    | leave | read | acquired | validated | permitted | forwarded | ended | abandoned | dropped | released => exact hs
    | @settled id task approval result granted now =>
      obtain ⟨granted', happ⟩ := hsound
      refine hP.settleStore hs now granted' happ ?_ result
      -- the copy is `Expired`, and so is the stored task, which has only moved on from the copy
      intro hst e he
      have hbecomes := ((reachable_follows hreach).1 t _ hp id task rfl).status e he
      rw [hst] at hbecomes
      exact hbecomes.of_terminal rfl
    | @op o _ hfresh =>
      have hauto : o.autoApproval = none := hsound
      refine hP.effects _ hs (StoreOp.apply_effects hinv.keyed ?_ ?_)
      · intro id hid
        by_contra hne
        obtain ⟨e, he⟩ := Option.ne_none_iff_exists'.mp hne
        exact hfresh id hid (hinv.issued id e he)
      · rw [hauto]
        intro r hr
        cases hr

/-- The rule: what tasks keep, every stored task has in every reachable state. -/
theorem Task.Kept.reachable {P : Task → Prop} (hP : Task.Kept g P) {s : ThreadState EngineState EnginePc}
    (h : (engineMachine g config).Reachable s) : s.shared.store.tasks.All fun _ e => P e.task := by
  refine Machine.ReachableWhen.invariant (I := fun s => s.shared.store.tasks.All fun _ e => P e.task)
    (Table.All.empty _) ?_ h
  intro s a s' hs hI _ ha
  exact hP.machine_step hs hI ha

/-- Every stored task has its record in order. -/
def Recorded (g : Engine) (s : TaskStore) : Prop := s.tasks.All fun _ e => e.task.Recorded g

theorem reachable_recorded {s : ThreadState EngineState EnginePc} (h : (engineMachine g config).Reachable s) :
    Recorded g s.shared.store :=
  (Task.Recorded.kept g).reachable h

/-- A terminal task keeps its status for as long as it is stored. -/
theorem terminal_stays {s s' : ThreadState EngineState EnginePc} (h : (engineMachine g config).Reachable s)
    (hlead : (engineMachine g config).Leads s s') {id : TaskId} {e : TaskEntry}
    (he : s.shared.store.tasks.lookup id = some e) (hterm : e.task.status.isTerminal = true) :
    StatusIn s'.shared.store id (· = e.task.status) := by
  have hnow : StatusIn s.shared.store id (· = e.task.status) := by
    intro e' he'
    rw [he] at he'
    cases he'
    rfl
  have hid : id ∈ s.shared.issued := (reachable_engineInv h).issued id e he
  refine (Machine.Leads.invariant (I := fun s' => id ∈ s'.shared.issued ∧
    StatusIn s'.shared.store id (· = e.task.status)) ⟨hid, hnow⟩ ?_ hlead).2
  intro u a u' hu hI ha
  have hinv := reachable_engineInv (h.leads hu)
  refine ⟨issued_step hinv ha hI.1, statusIn_step hinv ha ?_ hI.1 hI.2⟩
  rintro a b rfl hcan
  have hlive := TaskStatus.canTransitionTo_not_terminal hcan
  rw [hterm] at hlive
  cases hlive

/-- In every reachable state every stored task is audited, and from then on a terminal one keeps its status. -/
theorem audit_trail {s : ThreadState EngineState EnginePc} (h : (engineMachine g config).Reachable s) {id : TaskId}
    {e : TaskEntry} (he : s.shared.store.tasks.lookup id = some e) :
    Audited g e ∧ (e.task.status.isTerminal = true → ∀ s', (engineMachine g config).Leads s s' →
      ∀ e', s'.shared.store.tasks.lookup id = some e' → e'.task.status = e.task.status) := by
  have hat := ((reachable_engineInv h).keyed id e he).2
  exact ⟨⟨reachable_recorded h id e he, hat⟩, fun hterm s' hlead => terminal_stays h hlead he hterm⟩

end

/-- The expired task `tg_1` is executed on its automatic approval. -/
def Sample.autoExecuted : List (ThreadAct EnginePc EngineInput) :=
  expired ++ [ThreadAct.spawn 1 (EnginePc.start "tg_1"), .run 1 EngineInput.go, .run 1 .go,
    .run 1 (.clock (701 * 1000000000) (701 * 1000000000)), .run 1 (.policy fun _ => .ok .forward),
    .run 1 (.inspect fun _ _ _ => .approve), .run 1 (.reply (.response (some (.string "a")) none)),
    .run 1 (.clock 0 (702 * 1000000000))]

section

attribute [local instance] Sample.f64Fmt Sample.sha256 Sample.pipelineLib

theorem audit_trail_sample :
    ∃ s e, (engineMachine Sample.engine {}).Reachable s ∧ s.shared.store.tasks.lookup "tg_1" = some e ∧
      e.task.result.isSome ∧ Audited Sample.engine e ∧
      ∀ s', (engineMachine Sample.engine {}).Leads s s' → ∀ e', s'.shared.store.tasks.lookup "tg_1" = some e' →
        e'.task.status = e.task.status := by
  have hrun : ((engineMachine Sample.engine {}).exec (engineMachine Sample.engine {}).init
      Sample.autoExecuted).any (fun s => (s.shared.store.tasks.lookup "tg_1").any fun e =>
        e.task.result.isSome && e.task.status.isTerminal) = true := by
    decide
  obtain ⟨s, hreach, hany⟩ := Machine.exists_reachable_of_exec hrun
  obtain ⟨e, he, hboth⟩ := (Option.any_eq_true ..).mp hany
  obtain ⟨hres, hterm⟩ := Bool.and_eq_true_iff.mp hboth
  obtain ⟨haudit, hstays⟩ := audit_trail hreach he
  exact ⟨s, e, hreach, he, hres, haudit, hstays hterm⟩

/-- The note of an automatic approval is not an edge of the status machine. -/
theorem trail_leaves_status_machine :
    ∃ s e x, (engineMachine Sample.engine {}).Reachable s ∧ s.shared.store.tasks.lookup "tg_1" = some e ∧
      x ∈ e.task.transitions ∧ x.source.canTransitionTo x.target = false := by
  have hrun : ((engineMachine Sample.engine {}).exec (engineMachine Sample.engine {}).init
      Sample.autoExecuted).any (fun s => (s.shared.store.tasks.lookup "tg_1").any fun e =>
        e.task.transitions.any fun x => !x.source.canTransitionTo x.target) = true := by
    decide
  obtain ⟨s, hreach, hany⟩ := Machine.exists_reachable_of_exec hrun
  obtain ⟨e, he, hline⟩ := (Option.any_eq_true ..).mp hany
  obtain ⟨x, hx, hnot⟩ := List.any_eq_true.mp hline
  exact ⟨s, e, x, hreach, he, hx, by simpa using hnot⟩

end

end ThoughtGate
