import ThoughtGate.Engine.Authorisation

/-!
# The approved path and at-most-once

The guard keeps two calls from running the pipeline of one task at the same time, and the status keeps a later call
from running it again. Between the two there are gaps: a call that read the task before another one completed it
takes the guard afterwards and goes by its stale copy, and a caller that goes away after its request was sent
releases the guard with the task still `Executing`. Either way the request is sent twice (`approved_sent_twice`).

`undisturbed` rules out these two kinds of step, and then at most one request is sent for an approved task. The
argument: a guard has one holder (`reachable_guards`); a copy only grows stale along the status machine
(`Follows`); and as long as a request is in the log, the task is terminal or the call that sent it is still there
to settle it (`Once`, one task at a time in `OnceFor`).
-/

namespace ThoughtGate

open Relation (ReflTransGen)

/-! ### Statuses that follow one another -/

/-- A status is reached from another one by transitions. -/
def TaskStatus.Becomes : TaskStatus → TaskStatus → Prop :=
  ReflTransGen fun a b => a.canTransitionTo b = true

theorem TaskStatus.Becomes.of_terminal {a b : TaskStatus} (h : a.Becomes b) (ha : a.isTerminal = true) : b = a := by
  induction h with
  | refl => rfl
  | tail _ hcan ih =>
    subst ih
    have hlive := TaskStatus.canTransitionTo_not_terminal hcan
    rw [ha] at hlive
    cases hlive

theorem TaskStatus.Becomes.of_executing {b : TaskStatus} (h : TaskStatus.executing.Becomes b) :
    b = .executing ∨ b = .completed ∨ b = .failed := by
  induction h with
  | refl => exact Or.inl rfl
  | @tail b c _ hcan ih =>
    rcases ih with rfl | rfl | rfl
    · cases c with
      | completed => exact Or.inr (Or.inl rfl)
      | failed => exact Or.inr (Or.inr rfl)
      | _ => cases hcan
    · cases hcan
    · cases hcan

section

variable [F64.Fmt] [Sha256] [PipelineLib] {g : Engine} {config : TaskStoreConfig}

/-- The store has moved on from a copy, if at all, along the status machine. -/
structure Follows (s : EngineState) (id : TaskId) (task : Task) : Prop where
  issued : id ∈ s.issued
  status : StatusIn s.store id task.status.Becomes
  read : Engine.dispatch id task = none

/-- What a step does to the store, for a state that satisfies the invariant. -/
theorem machine_store_effects {s s' : ThreadState EngineState EnginePc} {a : ThreadAct EnginePc EngineInput}
    (hs : EngineInv g s) (ha : (engineMachine g config).step s a = some s') :
    ∃ new : TaskId → Prop, Effects new (fun r => r.decision = .approved) s.shared.store s'.shared.store ∧
      (∀ id, new id → id ∉ s.shared.issued ∧ id ∈ s'.shared.issued) ∧
      ∀ id ∈ s.shared.issued, id ∈ s'.shared.issued := by
  rcases Program.step_cases ha with ⟨t, p, rfl, -, -, rfl⟩ | ⟨t, i, p, shared, p', rfl, hp, -, hnext, rfl⟩
  · exact ⟨fun _ => False, .refl, fun _ h => h.elim, fun _ h => h⟩
  · exact (engine_next hnext).store_effects (hs.sound t p hp) hs.keyed hs.issued

/-- What every step of a task keeps is kept for an id that was drawn. -/
theorem taskIn_step {s s' : ThreadState EngineState EnginePc} {a : ThreadAct EnginePc EngineInput} {P : Task → Prop}
    (hs : EngineInv g s) (ha : (engineMachine g config).step s a = some s')
    (hkept : ∀ t t', P t → TaskStep (fun r => r.decision = .approved) t t' → P t') {id : TaskId}
    (hid : id ∈ s.shared.issued) (hstored : ∀ e, s.shared.store.tasks.lookup id = some e → P e.task) :
    ∀ e, s'.shared.store.tasks.lookup id = some e → P e.task := by
  obtain ⟨new, heff, hnew, -⟩ := machine_store_effects hs ha
  refine Effects.taskIn hkept ?_ heff hstored
  intro h
  exact (hnew id h).1 hid

/-- Statuses that no transition leaves are kept for an id that was drawn. -/
theorem statusIn_step {s s' : ThreadState EngineState EnginePc} {a : ThreadAct EnginePc EngineInput}
    {P : TaskStatus → Prop} (hs : EngineInv g s) (ha : (engineMachine g config).step s a = some s')
    (hclosed : ∀ a b, P a → a.canTransitionTo b = true → P b) {id : TaskId} (hid : id ∈ s.shared.issued)
    (hst : StatusIn s.shared.store id P) : StatusIn s'.shared.store id P := by
  obtain ⟨new, heff, hnew, -⟩ := machine_store_effects hs ha
  refine heff.statusIn hclosed ?_ hst
  intro h
  exact (hnew id h).1 hid

theorem issued_step {s s' : ThreadState EngineState EnginePc} {a : ThreadAct EnginePc EngineInput}
    (hs : EngineInv g s) (ha : (engineMachine g config).step s a = some s') {id : TaskId}
    (hid : id ∈ s.shared.issued) : id ∈ s'.shared.issued := by
  obtain ⟨new, -, -, hkeep⟩ := machine_store_effects hs ha
  exact hkeep id hid

theorem Follows.step {s s' : ThreadState EngineState EnginePc} {a : ThreadAct EnginePc EngineInput} {id : TaskId}
    {task : Task} (h : Follows s.shared id task) (hs : EngineInv g s)
    (ha : (engineMachine g config).step s a = some s') : Follows s'.shared id task := by
  refine ⟨issued_step hs ha h.issued, ?_, h.read⟩
  exact statusIn_step hs ha (fun a b hab hcan => hab.tail hcan) h.issued h.status

theorem reachable_follows {s : ThreadState EngineState EnginePc} (h : (engineMachine g config).Reachable s) :
    OfCopies (Follows s.shared) s := by
  refine Machine.ReachableWhen.invariant (I := fun s => OfCopies (Follows s.shared) s) (OfCopies.init _) ?_ h
  intro s a s' hs hI _ ha
  have hinv := reachable_engineInv hs
  refine hI.step ha (fun id task hf => hf.step hinv ha) ?_
  intro id e he hgo
  have hnow : Follows s.shared id e.task := by
    refine ⟨hinv.issued id e he, ?_, hgo⟩
    intro e' he'
    rw [he] at he'
    cases he'
    exact ReflTransGen.refl
  exact hnow.step hinv ha

/-! ### One holder for each guard -/

/-- Whether a call holds the guard of an id. -/
def guardWeight (id : TaskId) (p : EnginePc) : Nat := if p.guards = some id then 1 else 0

/-- How a step moves the guards. -/
theorem EngineStep.guards {s s' : EngineState} {p : EnginePc} {i : EngineInput} {p' : Option EnginePc}
    (h : EngineStep g s p i s' p') :
    (s'.executing = s.executing ∧ p'.bind EnginePc.guards = p.guards) ∨
    (∃ id, id ∉ s.executing ∧ s'.executing = id :: s.executing ∧ p.guards = none ∧
      p'.bind EnginePc.guards = some id) ∨
    (∃ id, s'.executing = s.executing.erase id ∧ p.guards = some id ∧ p' = none) := by
  cases h with
  | leave hno _ => exact Or.inl ⟨rfl, hno.symm⟩
  | read | validated | permitted | forwarded | settled | op => exact Or.inl ⟨rfl, rfl⟩
  | ended hg _ _ | abandoned hg _ => exact Or.inl ⟨rfl, hg.symm⟩
  | acquired hfree => exact Or.inr (Or.inl ⟨_, hfree, rfl, rfl, rfl⟩)
  | dropped hg => exact Or.inr (Or.inr ⟨_, rfl, hg, rfl⟩)
  | released => exact Or.inr (Or.inr ⟨_, rfl, rfl, rfl⟩)

omit [F64.Fmt] [Sha256] [PipelineLib] in
theorem weigh_guardWeight (id : TaskId) (p' : Option EnginePc) :
    Program.weigh (guardWeight id) p' = if p'.bind EnginePc.guards = some id then 1 else 0 := by
  cases p' with
  | none => rfl
  | some p => rfl

/-- The guards that are held are those in the executing set, each once. -/
theorem reachable_guards {s : ThreadState EngineState EnginePc} (h : (engineMachine g config).Reachable s)
    (id : TaskId) :
    Table.total (fun _ p => guardWeight id p) s.threads = s.shared.executing.count id ∧
      s.shared.executing.count id ≤ 1 := by
  refine Program.total_invariant (R := fun s n => n = s.executing.count id ∧ s.executing.count id ≤ 1)
    (guardWeight id) ⟨rfl, by simp [engineProgram]⟩ ?_ ?_ h
  · intro s threads p hstart
    cases p with
    | start | op => rfl
    | _ => cases hstart
  · intro s t i p shared p' _ _ _ hnext ⟨htotal, hle⟩
    rw [weigh_guardWeight]
    unfold guardWeight at htotal ⊢
    rcases (engine_next hnext).guards with ⟨hex, hg⟩ | ⟨id', hfree, hex, hno, hg⟩ | ⟨id', hex, hg, rfl⟩
    · rw [hex, hg]
      exact ⟨htotal, hle⟩
    · rw [hno] at htotal
      rw [hex, hg]
      by_cases hid : id' = id
      · subst hid
        have hzero : s.shared.executing.count id' = 0 := List.count_eq_zero.mpr hfree
        rw [List.count_cons_self]
        simp at htotal ⊢
        omega
      · rw [List.count_cons_of_ne hid]
        simp [hid] at htotal ⊢
        omega
    · rw [hg] at htotal
      rw [hex]
      by_cases hid : id' = id
      · subst hid
        rw [List.count_erase_self]
        simp at htotal ⊢
        omega
      · rw [List.count_erase_of_ne (Ne.symm hid)]
        simp [hid] at htotal ⊢
        omega

theorem guards_mem {s : ThreadState EngineState EnginePc} (h : (engineMachine g config).Reachable s) {t : Nat}
    {p : EnginePc} (hp : s.threads.lookup t = some p) {id : TaskId} (hg : p.guards = some id) :
    id ∈ s.shared.executing := by
  have hle := Table.le_total (fun _ q => guardWeight id q) hp
  have htotal := (reachable_guards h id).1
  simp only [guardWeight, hg, if_true] at hle
  rw [← List.count_pos_iff]
  unfold guardWeight at htotal
  omega

theorem guards_unique {s : ThreadState EngineState EnginePc} (h : (engineMachine g config).Reachable s) {t u : Nat}
    {p q : EnginePc} (hp : s.threads.lookup t = some p) (hq : s.threads.lookup u = some q) {id : TaskId}
    (hgp : p.guards = some id) (hgq : q.guards = some id) : u = t := by
  by_contra hne
  have hle := Table.add_le_total (fun _ q => guardWeight id q) hne hq hp
  obtain ⟨htotal, hone⟩ := reachable_guards h id
  simp only [guardWeight, hgp, hgq, if_true] at hle
  unfold guardWeight at htotal
  omega

/-! ### At most once -/

/-- The requests sent for a task on the approved path. -/
def approvedForwards (s : EngineState) (id : TaskId) : Nat :=
  (s.forwards.filter fun f => decide (f.id = id ∧ f.task.status = .executing)).length

/-- A call on an approved task takes its guard only while the stored task is still `Executing`, and its caller does
not go away between the sending of the request and the recording of its outcome. -/
def undisturbed (s : ThreadState EngineState EnginePc) : ThreadAct EnginePc EngineInput → Bool
  | .spawn _ _ => true
  | .run t i =>
    match s.threads.lookup t with
    | none => true
    | some (.acquire id task) =>
      task.status != .executing || (s.shared.store.tasks.lookup id).any (·.task.status == .executing)
    | some p =>
      match i, p.unsettled with
      | .cancel, some (_, task) => task.status != .executing
      | _, _ => true

/-- `undisturbed` for the calls about one task. -/
def undisturbedFor (id : TaskId) (s : ThreadState EngineState EnginePc) : ThreadAct EnginePc EngineInput → Bool
  | .spawn _ _ => true
  | .run t i =>
    match s.threads.lookup t with
    | none => true
    | some (.acquire id' task) =>
      id' != id || task.status != .executing ||
        (s.shared.store.tasks.lookup id).any (·.task.status == .executing)
    | some p =>
      match i, p.unsettled with
      | .cancel, some (id', task) => id' != id || task.status != .executing
      | _, _ => true

omit [F64.Fmt] [Sha256] [PipelineLib] in
theorem undisturbedFor_of_undisturbed {s : ThreadState EngineState EnginePc} {a : ThreadAct EnginePc EngineInput}
    (h : undisturbed s a = true) (id : TaskId) : undisturbedFor id s a = true := by
  cases a with
  | spawn => rfl
  | run t i =>
    cases hp : s.threads.lookup t with
    | none => simp [undisturbedFor, hp]
    | some p =>
      cases p with
      | acquire id' task =>
        by_cases hid : id' = id
        · subst hid
          simpa [undisturbed, undisturbedFor, hp] using h
        · simp [undisturbedFor, hp, hid]
      | sent id' task approval | settle id' task approval result =>
        cases i with
        | cancel =>
          simp only [undisturbed, hp, EnginePc.unsettled] at h
          simp only [undisturbedFor, hp, EnginePc.unsettled, h, Bool.or_true]
        | _ => simp [undisturbedFor, hp]
      | _ => simp [undisturbedFor, hp, EnginePc.unsettled]

omit [F64.Fmt] [Sha256] [PipelineLib] in
theorem undisturbed_acquire {s : ThreadState EngineState EnginePc} {t : Nat} {i : EngineInput} {id : TaskId}
    {task : Task} (h : undisturbedFor id s (.run t i) = true) (hp : s.threads.lookup t = some (.acquire id task))
    (hst : task.status = .executing) :
    ∃ e, s.shared.store.tasks.lookup id = some e ∧ e.task.status = .executing := by
  simp only [undisturbedFor, hp, hst, bne_self_eq_false, Bool.false_or] at h
  obtain ⟨e, he, heq⟩ := (Option.any_eq_true ..).mp h
  exact ⟨e, he, eq_of_beq heq⟩

omit [F64.Fmt] [Sha256] [PipelineLib] in
theorem undisturbed_cancel {s : ThreadState EngineState EnginePc} {t : Nat} {p : EnginePc} {id : TaskId}
    {task : Task} (h : undisturbedFor id s (.run t .cancel) = true) (hp : s.threads.lookup t = some p)
    (hun : p.unsettled = some (id, task)) : task.status ≠ .executing := by
  cases p with
  | sent id' task' approval | settle id' task' approval result =>
    cases hun
    simpa [undisturbedFor, hp, EnginePc.unsettled] using h
  | _ => cases hun

omit [F64.Fmt] [Sha256] [PipelineLib] in
theorem unsettled_snapshot {p : EnginePc} {x : TaskId × Task} (h : p.unsettled = some x) : p.snapshot = some x := by
  cases p with
  | sent | settle => exact h
  | _ => cases h

omit [F64.Fmt] [Sha256] [PipelineLib] in
theorem unsettled_guards {p : EnginePc} {id : TaskId} {task : Task} (h : p.unsettled = some (id, task)) :
    p.guards = some id := by
  cases p with
  | sent | settle =>
    cases h
    rfl
  | _ => cases h

omit [F64.Fmt] [Sha256] [PipelineLib] in
theorem preparing_guards {p : EnginePc} {id : TaskId} {task : Task} (h : p.preparing = some (id, task)) :
    p.guards = some id := by
  cases p with
  | guarded | policing | ambering =>
    cases h
    rfl
  | _ => cases h

/-- The log after a step. -/
theorem EngineStep.approvedForwards {s s' : EngineState} {p : EnginePc} {i : EngineInput} {p' : Option EnginePc}
    (h : EngineStep g s p i s' p') (id : TaskId) :
    approvedForwards s' id = approvedForwards s id ∨
    ∃ task q, p.preparing = some (id, task) ∧ task.status = .executing ∧ p' = some q ∧
      q.unsettled = some (id, task) ∧ approvedForwards s' id = approvedForwards s id + 1 := by
  rcases h.forwards with hsame | ⟨id', task, approval, now, policy, inspect, request, rfl, rfl, -, happend⟩
  · left
    unfold ThoughtGate.approvedForwards
    rw [hsame]
  · by_cases hcount : id' = id ∧ task.status = .executing
    · right
      obtain ⟨rfl, hst⟩ := hcount
      refine ⟨task, _, rfl, hst, rfl, rfl, ?_⟩
      simp [ThoughtGate.approvedForwards, happend, hst]
    · left
      simp [ThoughtGate.approvedForwards, happend, hcount]

/-- Who prepares a request after a step prepared it before or has just got the guard. -/
theorem EngineStep.preparing {s s' : EngineState} {p q : EnginePc} {i : EngineInput}
    (h : EngineStep g s p i s' (some q)) {id : TaskId} {task : Task} (hq : q.preparing = some (id, task)) :
    p.preparing = some (id, task) ∨ (p = .acquire id task ∧ id ∉ s.executing) := by
  cases h with
  | acquired hfree =>
    cases hq
    exact Or.inr ⟨rfl, hfree⟩
  | validated | permitted =>
    cases hq
    exact Or.inl rfl
  | read | forwarded | ended | abandoned | settled => cases hq

/-- Who has an outcome of the approved path to write still has it after a step, or writes it, or goes away. -/
theorem EngineStep.unsettled {s s' : EngineState} {p : EnginePc} {i : EngineInput} {p' : Option EnginePc}
    (h : EngineStep g s p i s' p') {id : TaskId} {task : Task} (hp : p.unsettled = some (id, task))
    (hst : task.status = .executing) :
    (∃ q, p' = some q ∧ q.unsettled = some (id, task)) ∨
    (∃ now approval result, s'.store = Engine.settleStore s.store now id task approval result) ∨
    i = .cancel := by
  cases h with
  | leave _ hno =>
    rw [hno] at hp
    cases hp
  | read | acquired | validated | permitted | forwarded | released | op => cases hp
  | ended _ hsnap _ =>
    rw [unsettled_snapshot hp] at hsnap
    cases hsnap
    exact Or.inl ⟨_, rfl, rfl⟩
  | abandoned hg hexp =>
    rw [unsettled_guards hp] at hg
    cases hg
    have hne := hexp task hp
    rw [hst] at hne
    cases hne
  | settled =>
    cases hp
    exact Or.inr (Or.inl ⟨_, _, _, rfl⟩)
  | dropped _ => exact Or.inr (Or.inr rfl)

omit [F64.Fmt] [Sha256] [PipelineLib] in
theorem complete_of_executing {store : TaskStore} {id : TaskId} {e : TaskEntry}
    (he : store.tasks.lookup id = some e) (hst : e.task.status = .executing) (now : DateTime)
    (result : ToolCallResult) :
    ∃ t', t'.status = .completed ∧ (store.complete now id result).2 = store.becomeTerminal now id { e with task := t' } := by
  have hcan : e.task.status.canTransitionTo .completed = true := by rw [hst]; rfl
  obtain ⟨t', ht⟩ := Task.transition_of_can (t := { e.task with result := some result }) now
    (some "Execution completed") hcan
  refine ⟨t', ?_, ?_⟩
  · obtain ⟨_, rfl⟩ := Task.transition_ok ht
    rfl
  · rw [TaskStore.complete, he]
    dsimp only at ht ⊢
    rw [if_neg (not_not.mpr hst), ht]

omit [F64.Fmt] [Sha256] [PipelineLib] in
theorem fail_of_executing {store : TaskStore} {id : TaskId} {e : TaskEntry}
    (he : store.tasks.lookup id = some e) (hst : e.task.status = .executing) (now : DateTime) (info : FailureInfo) :
    ∃ t', t'.status = .failed ∧ (store.fail now id info).2 = store.becomeTerminal now id { e with task := t' } := by
  have hcan : e.task.status.canTransitionTo .failed = true := by rw [hst]; rfl
  obtain ⟨t', ht⟩ := Task.transition_of_can (t := { e.task with failure := some info }) now (some info.reason) hcan
  refine ⟨t', ?_, ?_⟩
  · obtain ⟨_, rfl⟩ := Task.transition_ok ht
    rfl
  · have hlive : e.task.status.isTerminal = false := by rw [hst]; rfl
    rw [TaskStore.fail, he]
    dsimp only at ht ⊢
    rw [hlive, if_neg Bool.false_ne_true, ht]

omit [F64.Fmt] [Sha256] [PipelineLib] in
/-- Writing an outcome of the approved path leaves no task that could be executed again. -/
theorem settleStore_terminal {store : TaskStore} {id : TaskId} {task : Task} (hst : task.status = .executing)
    (hstored : StatusIn store id TaskStatus.executing.Becomes) (now : DateTime) (approval : ApprovalRecord)
    (result : PipelineResult) :
    StatusIn (Engine.settleStore store now id task approval result) id (·.isTerminal = true) := by
  have hne : task.status ≠ .expired := by rw [hst]; decide
  by_cases hex : ∃ e, store.tasks.lookup id = some e ∧ e.task.status = .executing
  · -- the task is still `Executing`: the outcome is written
    obtain ⟨e, he, hest⟩ := hex
    intro e' he'
    cases result with
    | success result =>
      obtain ⟨t', ht', hstore⟩ := complete_of_executing he hest now result
      rw [Engine.settleStore, if_neg hne, hstore, TaskStore.becomeTerminal_lookup] at he'
      cases he'
      simp [TaskStore.terminalEntry, ht', TaskStatus.isTerminal]
    | failure info =>
      obtain ⟨t', ht', hstore⟩ := fail_of_executing he hest now info
      rw [Engine.settleStore, if_neg hne, hstore, TaskStore.becomeTerminal_lookup] at he'
      cases he'
      simp [TaskStore.terminalEntry, ht', TaskStatus.isTerminal]
  · -- it is terminal or gone already, and stays so
    have hterm : StatusIn store id (·.isTerminal = true) := by
      intro e he
      rcases (hstored e he).of_executing with hest | hest | hest
      · exact absurd ⟨e, he, hest⟩ hex
      · rw [hest]
        rfl
      · rw [hest]
        rfl
    have heff : Effects (fun _ => False) (fun _ => True) store
        (Engine.settleStore store now id task approval result) :=
      settleStore_effects store now id result fun _ => trivial
    refine heff.statusIn ?_ (fun h => h) hterm
    intro a b ha hcan
    rw [TaskStatus.canTransitionTo_not_terminal hcan] at ha
    cases ha

/-- Copies on the approved path are prepared before anything is sent, what was sent is settled or about to be, and
nothing is sent twice. -/
structure Once (s : ThreadState EngineState EnginePc) : Prop where
  fresh : s.threads.All fun _ p => ∀ id task, p.preparing = some (id, task) → task.status = .executing →
    approvedForwards s.shared id = 0
  recorded : ∀ id, approvedForwards s.shared id ≠ 0 → StatusIn s.shared.store id (·.isTerminal = true) ∨
    ∃ t p task, s.threads.lookup t = some p ∧ p.unsettled = some (id, task) ∧ task.status = .executing
  atMostOne : ∀ id, approvedForwards s.shared id ≤ 1

/-- `Once` for one task. -/
structure OnceFor (id : TaskId) (s : ThreadState EngineState EnginePc) : Prop where
  fresh : s.threads.All fun _ p => ∀ task, p.preparing = some (id, task) → task.status = .executing →
    approvedForwards s.shared id = 0
  recorded : approvedForwards s.shared id ≠ 0 → StatusIn s.shared.store id (·.isTerminal = true) ∨
    ∃ t p task, s.threads.lookup t = some p ∧ p.unsettled = some (id, task) ∧ task.status = .executing
  atMostOne : approvedForwards s.shared id ≤ 1

/-- An id in the log was drawn. -/
theorem issued_of_forwards {s : ThreadState EngineState EnginePc} (h : (engineMachine g config).Reachable s)
    {id : TaskId} (hne : approvedForwards s.shared id ≠ 0) : id ∈ s.shared.issued := by
  obtain ⟨f, hf⟩ := List.exists_mem_of_length_pos (Nat.pos_of_ne_zero hne)
  rw [List.mem_filter, decide_eq_true_eq] at hf
  obtain ⟨hmem, rfl, _⟩ := hf
  exact ((reachable_follows h).2 f hmem).issued

/-- Nothing was sent for a task that is `Executing` and whose guard is free. -/
theorem OnceFor.free {s : ThreadState EngineState EnginePc} {id : TaskId} (hs : OnceFor id s)
    (h : (engineMachine g config).Reachable s) {e : TaskEntry} (he : s.shared.store.tasks.lookup id = some e)
    (hst : e.task.status = .executing) (hfree : id ∉ s.shared.executing) : approvedForwards s.shared id = 0 := by
  by_contra hne
  rcases hs.recorded hne with hterm | ⟨t, p, task, hp, hun, -⟩
  · have := hterm e he
    rw [hst] at this
    cases this
  · exact hfree (guards_mem h hp (unsettled_guards hun))

omit [F64.Fmt] [Sha256] [PipelineLib] in
theorem OnceFor.spawn {s : ThreadState EngineState EnginePc} {id : TaskId} {t : Nat} {p : EnginePc}
    (hs : OnceFor id s) (hnone : s.threads.lookup t = none) (hstart : p.starts = true) :
    OnceFor id { s with threads := s.threads.insert t p } := by
  refine ⟨hs.fresh.insert ?_, ?_, hs.atMostOne⟩
  · intro task hprep
    cases p with
    | start | op => cases hprep
    | _ => cases hstart
  · intro hne
    rcases hs.recorded hne with hterm | ⟨u, q, task, hq, hun, hst⟩
    · exact Or.inl hterm
    · refine Or.inr ⟨u, q, task, ?_, hun, hst⟩
      have hut : u ≠ t := by
        rintro rfl
        rw [hnone] at hq
        cases hq
      rw [AList.lookup_insert_ne hut]
      exact hq

theorem OnceFor.run {s : ThreadState EngineState EnginePc} {id : TaskId} {t : Nat} {i : EngineInput} {p : EnginePc}
    {shared : EngineState} {p' : Option EnginePc} (hs : OnceFor id s) (h : (engineMachine g config).Reachable s)
    (hok : undisturbedFor id s (.run t i) = true) (hp : s.threads.lookup t = some p)
    (ha : (engineMachine g config).step s (.run t i) = some ⟨shared, Program.settle s.threads t p'⟩)
    (hstep : EngineStep g s.shared p i shared p') : OnceFor id ⟨shared, Program.settle s.threads t p'⟩ := by
  -- no other call prepares or settles a task whose guard this call holds
  have hother : ∀ u q, u ≠ t → s.threads.lookup u = some q → q.guards = some id → p.guards ≠ some id :=
    fun u q hut hq hgq hgp => hut (guards_unique h hp hq hgp hgq)
  refine ⟨?_, ?_, ?_⟩
  · intro u q hq task hprep hst
    have hzero : approvedForwards s.shared id = 0 := by
      rcases Program.settle_cases hq with ⟨rfl, rfl⟩ | ⟨hut, hq⟩
      · rcases hstep.preparing hprep with hprep | ⟨rfl, hfree⟩
        · exact hs.fresh _ p hp task hprep hst
        · obtain ⟨e, he, hest⟩ := undisturbed_acquire hok hp hst
          exact hs.free h he hest hfree
      · exact hs.fresh u q hq task hprep hst
    rcases hstep.approvedForwards id with hsame | ⟨task', q', hpp, hst', rfl, hun, -⟩
    · rw [hsame]
      exact hzero
    · -- the call that sends prepares no longer, and nobody else prepares the same task
      exfalso
      rcases Program.settle_cases hq with ⟨rfl, hq'⟩ | ⟨hut, hq⟩
      · cases hq'
        cases q with
        | sent | settle => cases hprep
        | _ => cases hun
      · exact hother u q hut hq (preparing_guards hprep) (preparing_guards hpp)
  · intro hne
    rcases hstep.approvedForwards id with hsame | ⟨task, q, -, hst, rfl, hun, -⟩
    · rw [hsame] at hne
      rcases hs.recorded hne with hterm | ⟨u, q, task, hq, hun, hst⟩
      · refine Or.inl (statusIn_step (reachable_engineInv h) ha ?_ (issued_of_forwards h hne) hterm)
        intro a b ha hcan
        rw [TaskStatus.canTransitionTo_not_terminal hcan] at ha
        cases ha
      · by_cases hut : u = t
        · subst hut
          rw [hp] at hq
          cases hq
          rcases hstep.unsettled hun hst with ⟨q, rfl, hun'⟩ | ⟨now, approval, result, hstore⟩ | rfl
          · exact Or.inr ⟨u, q, task, Program.settle_lookup _ _ _, hun', hst⟩
          · have hfollows := ((reachable_follows h).1 u p hp id task (unsettled_snapshot hun)).status
            rw [hst] at hfollows
            left
            rw [hstore]
            exact settleStore_terminal hst hfollows now approval result
          · exact absurd hst (undisturbed_cancel hok hp hun)
        · exact Or.inr ⟨u, q, task, (Program.settle_lookup_ne _ hut _).trans hq, hun, hst⟩
    · exact Or.inr ⟨t, q, task, Program.settle_lookup _ _ _, hun, hst⟩
  · rcases hstep.approvedForwards id with hsame | ⟨task, q, hpp, hst, -, -, hsucc⟩
    · rw [hsame]
      exact hs.atMostOne
    · rw [hsucc, hs.fresh t p hp task hpp hst]

theorem reachable_onceFor {s : ThreadState EngineState EnginePc} {id : TaskId}
    (h : (engineMachine g config).ReachableWhen (fun s a => undisturbedFor id s a = true) s) : OnceFor id s := by
  refine Machine.ReachableWhen.invariant ?_ ?_ h
  · exact ⟨Table.All.empty _, fun hne => absurd rfl hne, Nat.zero_le _⟩
  · intro s a s' hs hI hok ha
    rcases Program.step_cases ha with ⟨t, p, rfl, hnone, hstart, rfl⟩ | ⟨t, i, p, shared, p', rfl, hp, -, hnext, rfl⟩
    · exact hI.spawn hnone hstart
    · exact hI.run hs.reachable hok hp ha (engine_next hnext)

theorem reachable_once {s : ThreadState EngineState EnginePc}
    (h : (engineMachine g config).ReachableWhen (fun s a => undisturbed s a = true) s) : Once s := by
  have hfor : ∀ id, OnceFor id s := by
    intro id
    refine reachable_onceFor (h.mono ?_)
    intro s a hok
    exact undisturbedFor_of_undisturbed hok id
  exact ⟨fun t p hp id => (hfor id).fresh t p hp, fun id => (hfor id).recorded, fun id => (hfor id).atMostOne⟩

/-- Once a task is `Executing`, every copy of it is one of the approved path. -/
theorem copies_of_executing {s₀ s : ThreadState EngineState EnginePc} (h₀ : (engineMachine g config).Reachable s₀)
    {id : TaskId} {e : TaskEntry} (he : s₀.shared.store.tasks.lookup id = some e)
    (hst : e.task.status = .executing) (hlead : (engineMachine g config).Leads s₀ s) :
    OfCopies (fun id' task => id' = id → task.status = .executing) s := by
  have hinv₀ := reachable_engineInv h₀
  refine (Machine.Leads.invariant (I := fun s => (id ∈ s.shared.issued ∧
    StatusIn s.shared.store id TaskStatus.executing.Becomes) ∧
    OfCopies (fun id' task => id' = id → task.status = .executing) s) ?_ ?_ hlead).2
  · refine ⟨⟨hinv₀.issued id e he, ?_⟩, ?_⟩
    · intro e' he'
      rw [he] at he'
      cases he'
      rw [hst]
      exact ReflTransGen.refl
    · have hcopy : ∀ id' task, Follows s₀.shared id' task → id' = id → task.status = .executing := by
        rintro id' task hf rfl
        rcases dispatch_none hf.read with hexec | ⟨hexp, -⟩
        · exact hexec
        · -- an expired task stays expired
          have hbecomes := hf.status e he
          rw [hexp, hst] at hbecomes
          cases hbecomes.of_terminal rfl
      exact ⟨(reachable_follows h₀).1.mono fun _ p hp id' task hsnap => hcopy id' task (hp id' task hsnap),
        fun f hf => hcopy f.id f.task ((reachable_follows h₀).2 f hf)⟩
  · intro s a s' hlead ⟨⟨hid, hstatus⟩, hcopies⟩ ha
    have hinv := reachable_engineInv (h₀.leads hlead)
    refine ⟨⟨issued_step hinv ha hid, ?_⟩, hcopies.step ha (fun _ _ h => h) ?_⟩
    · exact statusIn_step hinv ha (fun a b hab hcan => hab.tail hcan) hid hstatus
    · rintro id' e' he' hgo rfl
      rcases dispatch_none hgo with hexec | ⟨hexp, -⟩
      · exact hexec
      · rcases (hstatus e' he').of_executing with h | h | h
        · exact h
        · rw [h] at hexp
          cases hexp
        · rw [h] at hexp
          cases hexp

/-- From the moment a task is `Executing` (approved by a human), and in every undisturbed run of any number of calls
and store operations, at most one request is sent for it. -/
theorem approved_at_most_once {s₀ s : ThreadState EngineState EnginePc}
    (h₀ : (engineMachine g config).ReachableWhen (fun s a => undisturbed s a = true) s₀)
    {id : TaskId} {e : TaskEntry} (he : s₀.shared.store.tasks.lookup id = some e)
    (hst : e.task.status = .executing)
    (hlead : (engineMachine g config).LeadsWhen (fun s a => undisturbed s a = true) s₀ s) :
    (s.shared.forwards.filter fun f => f.id = id).length ≤ 1 := by
  have hcopies := copies_of_executing h₀.reachable he hst hlead.leads
  have hall : s.shared.forwards.filter (fun f => f.id = id) =
      s.shared.forwards.filter fun f => decide (f.id = id ∧ f.task.status = .executing) := by
    refine List.filter_congr ?_
    intro f hf
    have := hcopies.2 f hf
    simpa using this
  rw [hall]
  exact (reachable_once (h₀.leadsWhen hlead)).atMostOne id

end

namespace Sample

/-- The steps of a call from its start until it has read the task. -/
def read (t : Nat) : List (ThreadAct EnginePc EngineInput) := [.spawn t (.start "tg_1"), .run t .go]

/-- The steps from the answer of upstream until the guard is released. -/
def finish (t : Nat) : List (ThreadAct EnginePc EngineInput) :=
  [.run t (.reply (.response (some .null) none)), .run t (.clock 4 4), .run t .go]

/-- Two calls read the task; the first one completes it and then the second one takes the guard. -/
def staleCopy : List (ThreadAct EnginePc EngineInput) :=
  read 1 ++ read 2 ++ [ThreadAct.run 1 EngineInput.go] ++ send 1 ++ finish 1 ++ [ThreadAct.run 2 EngineInput.go] ++ send 2

/-- A caller goes away after its request was sent, and another call follows. -/
def goneCaller : List (ThreadAct EnginePc EngineInput) :=
  read 1 ++ [ThreadAct.run 1 EngineInput.go] ++ send 1 ++ [ThreadAct.run 1 EngineInput.cancel] ++ read 2 ++
    [ThreadAct.run 2 EngineInput.go] ++ send 2

/-- Two calls, one after the other has completed the task. -/
def oneByOne : List (ThreadAct EnginePc EngineInput) :=
  read 1 ++ [ThreadAct.run 1 EngineInput.go] ++ send 1 ++ finish 1 ++ read 2

/-- The task stands in the store as a human has approved it. -/
def isApproved (s : ThreadState EngineState EnginePc) : Bool :=
  (s.shared.store.tasks.lookup "tg_1").any fun e =>
    e.task.status == .executing && e.task.approval.any fun r => decide (r.decision = .approved ∧ r.decidedBy = "alice")

end Sample

section

attribute [local instance] Sample.f64Fmt Sample.sha256 Sample.pipelineLib

theorem exists_approved {s : ThreadState EngineState EnginePc} (h : Sample.isApproved s = true) :
    ∃ e r, s.shared.store.tasks.lookup "tg_1" = some e ∧ e.task.status = .executing ∧
      e.task.approval = some r ∧ r.decision = .approved := by
  obtain ⟨e, he, hboth⟩ := (Option.any_eq_true ..).mp h
  obtain ⟨hst, happ⟩ := Bool.and_eq_true_iff.mp hboth
  obtain ⟨r, hr, hd⟩ := (Option.any_eq_true ..).mp happ
  exact ⟨e, r, he, eq_of_beq hst, hr, (of_decide_eq_true hd).1⟩

/-- After a human has approved the task, the run sends its request twice. -/
def SentTwice (run : List (ThreadAct EnginePc EngineInput)) : Prop :=
  ∃ s₀ s, (engineMachine Sample.engine {}).Reachable s₀ ∧
    (∃ e r, s₀.shared.store.tasks.lookup "tg_1" = some e ∧ e.task.status = .executing ∧
      e.task.approval = some r ∧ r.decision = .approved) ∧
    (engineMachine Sample.engine {}).exec s₀ run = some s ∧
    ¬ (s.shared.forwards.filter fun f => f.id = "tg_1").length ≤ 1

theorem sentTwice_of_exec {run : List (ThreadAct EnginePc EngineInput)}
    (h : (((engineMachine Sample.engine {}).exec (engineMachine Sample.engine {}).init Sample.approved).any fun s =>
      Sample.isApproved s && ((engineMachine Sample.engine {}).exec s run).any fun s =>
        (s.shared.forwards.filter fun f => f.id = "tg_1").length == 2) = true) : SentTwice run := by
  obtain ⟨s₀, hs₀, hboth⟩ := (Option.any_eq_true ..).mp h
  obtain ⟨happ, hrest⟩ := Bool.and_eq_true_iff.mp hboth
  obtain ⟨s, hs, htwo⟩ := (Option.any_eq_true ..).mp hrest
  refine ⟨s₀, s, Machine.reachable_of_exec hs₀, exists_approved happ, hs, ?_⟩
  rw [beq_iff_eq.mp htwo]
  omega

/-- A stale copy sends the request of an approved task a second time, and so does a call after a caller that went
away. -/
theorem approved_sent_twice : SentTwice Sample.staleCopy ∧ SentTwice Sample.goneCaller := by
  constructor
  · apply sentTwice_of_exec
    decide
  · apply sentTwice_of_exec
    decide

theorem approved_at_most_once_sample :
    ∃ s, (engineMachine Sample.engine {}).Reachable s ∧ s.shared.forwards.length = 1 ∧
      (s.shared.forwards.filter fun f => f.id = "tg_1").length ≤ 1 := by
  have hrun : (((engineMachine Sample.engine {}).execWhen undisturbed (engineMachine Sample.engine {}).init
      Sample.approved).any fun s => Sample.isApproved s &&
        ((engineMachine Sample.engine {}).execWhen undisturbed s Sample.oneByOne).any fun s =>
          s.shared.forwards.length == 1) = true := by
    decide
  obtain ⟨s₀, s, hs₀, happ, hlead, hlen⟩ := Machine.exists_leadsWhen_of_execWhen hrun
  obtain ⟨e, r, he, hst, -, -⟩ := exists_approved happ
  exact ⟨s, (hs₀.leadsWhen hlead).reachable, beq_iff_eq.mp hlen, approved_at_most_once hs₀ he hst hlead⟩

end

end ThoughtGate
