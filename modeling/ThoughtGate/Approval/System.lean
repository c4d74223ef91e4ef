import ThoughtGate.Approval.Scheduler
import ThoughtGate.Engine.AtMostOnce

/-!
# The scheduler and the engine over one store

The store is where the two meet: the scheduler writes the decisions that its polls find and expires what is overdue, the
engine executes what it is asked for. `System` runs the calls of the engine (`engineMachine`) beside the threads of the
scheduler, under one clock that every reading of the time agrees with. The adapter answers a poll by the task, its
reference and the time.

`run` is one loop: a poll starts when none is in flight, and the tick drops the one in flight before it sweeps. The rest
of the service calls the store only with the operations of `StoreOp.outside`.

What the scheduler does to the store is what a caller of the store could do, so the engine's part of every run is a run of
the engine by itself (`System.calls_reachable`), and what was proved about those holds here.
-/

namespace ThoughtGate

/-- What is called from outside the scheduler and the engine: a task is opened, given up or cancelled, all are failed at
shutdown, old ones are removed. -/
def StoreOp.outside : StoreOp → Bool
  | .create .. | .cancel .. | .failAllPending .. | .cleanupTerminal .. => true
  | .transition _ _ newStatus _ => newStatus = .inputRequired || newStatus = .failed
  | _ => false

/-- When an operation reads the clock. -/
def StoreOp.time : StoreOp → DateTime
  | .create _ now .. | .transition now .. | .transitionIf now .. | .recordApproval now .. | .complete now ..
  | .fail now .. | .cancel now .. | .recordAutoApproveResult now .. | .expireOverdue now | .cleanupTerminal now
  | .failAllPending now _ => now

/-- What the adapter answers to a poll of a task at a time. -/
abbrev Adapter := TaskId → ApprovalReference → DateTime → Except AdapterError (Option PollResult)

/-- The engine with its calls and the store, the threads of the scheduler with its own data, and the clock. -/
structure System where
  calls : ThreadState EngineState EnginePc
  polls : Table Nat SchedulerPc
  pending : PollQueue
  references : Table TaskId ApprovalReference
  log : List SchedulerEvent
  now : DateTime

/-- A call of the engine or of the store takes a step, a thread of the scheduler starts or takes one, the tick sweeps,
or time passes. -/
inductive SystemAct where
  | call (a : ThreadAct EnginePc EngineInput)
  | spawn (t : Nat) (p : SchedulerPc)
  | run (t : Nat) (i : SchedulerInput)
  | sweep
  | pass (d : Duration)

namespace System

def store (s : System) : TaskStore := s.calls.shared.store

/-- The scheduler's view. -/
def scheduler (s : System) : SchedulerState := ⟨s.store, s.pending, s.references, s.log⟩

def setStore (s : System) (store : TaskStore) : System :=
  { s with calls := { s.calls with shared := { s.calls.shared with store } } }

/-- The state after a step of a thread of the scheduler. -/
def stepped (s : System) (t : Nat) (v : SchedulerState) (p' : Option SchedulerPc) : System :=
  { s.setStore v.store with
    polls := Program.settle s.polls t p'
    pending := v.pending
    references := v.references
    log := v.log }

/-- A poll is in flight. -/
def polling (s : System) : Bool := s.polls.entries.any fun e => e.2.isPoll

/-- Where a thread of the scheduler may start. -/
def starts (s : System) : SchedulerPc → Bool
  | .locking => !s.polling
  | .submitting _ | .cancelling _ | .drain => true
  | _ => false

/-- A step of a call is made with the time of the clock; the store is called from outside as it really is. -/
def admits (s : System) : ThreadAct EnginePc EngineInput → Bool
  | .spawn _ _ => true
  | .run t i =>
    match s.calls.threads.lookup t, i with
    | some (.op o), _ => o.outside && o.time = s.now
    | _, .clock granted now => granted = s.now && now = s.now
    | _, _ => true

/-- A step of a thread of the scheduler is made with the time of the clock and the adapter's answer. -/
def grants (adapter : Adapter) (s : System) (p : SchedulerPc) : SchedulerInput → Bool
  | .utc now => now = s.now
  | .polled answer =>
    match p with
    | .polling id r => answer = adapter id r s.now
    | _ => false
  | _ => true

end System

variable [F64.Fmt] [Sha256] [PipelineLib]

def systemMachine (adapter : Adapter) (g : Engine) (config : PollingConfig) (storeConfig : TaskStoreConfig) :
    Machine System SystemAct where
  init := ⟨(engineMachine g storeConfig).init, ∅, ∅, ∅, [], 0⟩
  step s
    | .call a =>
      if s.admits a then ((engineMachine g storeConfig).step s.calls a).map fun calls => { s with calls } else none
    | .spawn t p =>
      if s.polls.lookup t = none ∧ s.starts p = true then some { s with polls := s.polls.insert t p } else none
    | .run t i =>
      match s.polls.lookup t with
      | none => none
      | some p =>
        if s.grants adapter p i then (p.next config s.scheduler i).map fun (v, p') => s.stepped t v p' else none
    | .sweep => if s.polling then none else some (s.setStore (s.store.expireOverdue s.now).2)
    | .pass d => some { s with now := s.now + d }

section

variable {adapter : Adapter} {g : Engine} {config : PollingConfig} {storeConfig : TaskStoreConfig}

/-- The steps of the system. -/
theorem system_step_cases {s s' : System} {a : SystemAct}
    (h : (systemMachine adapter g config storeConfig).step s a = some s') :
    (∃ b calls, a = .call b ∧ s.admits b = true ∧ (engineMachine g storeConfig).step s.calls b = some calls ∧
      s' = { s with calls }) ∨
    (∃ t p, a = .spawn t p ∧ s.polls.lookup t = none ∧ s.starts p = true ∧
      s' = { s with polls := s.polls.insert t p }) ∨
    (∃ t i p v p', a = .run t i ∧ s.polls.lookup t = some p ∧ s.grants adapter p i = true ∧
      p.next config s.scheduler i = some (v, p') ∧ s' = s.stepped t v p') ∨
    (a = .sweep ∧ s.polling = false ∧ s' = s.setStore (s.store.expireOverdue s.now).2) ∨
    (∃ d, a = .pass d ∧ s' = { s with now := s.now + d }) := by
  cases a with
  | call b =>
    simp only [systemMachine] at h
    split at h
    · rename_i hok
      obtain ⟨calls, hcalls, rfl⟩ := Option.map_eq_some_iff.mp h
      exact Or.inl ⟨b, calls, rfl, hok, hcalls, rfl⟩
    · cases h
  | spawn t p =>
    simp only [systemMachine] at h
    split at h
    · rename_i hok
      cases h
      exact Or.inr (Or.inl ⟨t, p, rfl, hok.1, hok.2, rfl⟩)
    · cases h
  | run t i =>
    simp only [systemMachine] at h
    split at h
    · cases h
    · rename_i p hp
      split at h
      · rename_i hok
        obtain ⟨⟨v, p'⟩, hnext, rfl⟩ := Option.map_eq_some_iff.mp h
        exact Or.inr (Or.inr (Or.inl ⟨t, i, p, v, p', rfl, hp, hok, hnext, rfl⟩))
      · cases h
  | sweep =>
    simp only [systemMachine] at h
    split at h
    · cases h
    · rename_i hidle
      cases h
      exact Or.inr (Or.inr (Or.inr (Or.inl ⟨rfl, by simpa using hidle, rfl⟩)))
  | pass d =>
    cases h
    exact Or.inr (Or.inr (Or.inr (Or.inr ⟨d, rfl, rfl⟩)))

/-! ### The engine's part of a run -/

omit [PipelineLib] in
/-- The only steps of the scheduler that touch the store: a task found overdue is expired, a decision is recorded. -/
theorem scheduler_store {v v' : SchedulerState} {p : SchedulerPc} {i : SchedulerInput} {p' : Option SchedulerPc}
    (h : p.next config v i = some (v', p')) (hop : ∀ o, p ≠ .op o) :
    v'.store = v.store ∨
    (∃ id now, p = .expiring id ∧ v'.store = (v.store.transition now id .expired (some "TTL exceeded")).2) ∨
    ∃ id result now, p = .recording id result ∧ i = .utc now ∧ p' = none ∧
      v'.store = (v.store.recordApproval now id result.approvalDecision result.decidedBy config.approvalValidFor).2 := by
  cases p with
  | expiring id =>
    cases i with
    | utc now =>
      cases h
      exact Or.inr (Or.inl ⟨id, now, rfl, rfl⟩)
    | _ => cases h
  | recording id result =>
    cases i with
    | utc now =>
      cases h
      exact Or.inr (Or.inr ⟨id, result, now, rfl, rfl, rfl, rfl⟩)
    | _ => cases h
  | op o => exact absurd rfl (hop o)
  | draining ids =>
    refine Or.inl ?_
    cases ids with
    | nil | cons id ids =>
      unfold SchedulerPc.next at h
      dsimp only at h
      repeat' split at h
      all_goals
        cases h <;> rfl
  | _ =>
    refine Or.inl ?_
    unfold SchedulerPc.next at h
    dsimp only at h
    repeat' split at h
    all_goals
      cases h <;> rfl

/-- A call of the store from outside is a run of the engine. -/
theorem op_leads (s : ThreadState EngineState EnginePc) {o : StoreOp} (hnew : o.newId = none)
    (hstart : (EnginePc.op o).starts = true) :
    (engineMachine g storeConfig).Leads s
      { s with shared := { s.shared with store := o.apply s.shared.store } } := by
  obtain ⟨t, ht⟩ : ∃ t, s.threads.lookup t = none := by
    obtain ⟨t, ht⟩ := Infinite.exists_notMem_finset s.threads.keys.toFinset
    refine ⟨t, AList.lookup_eq_none.mpr ?_⟩
    rwa [List.mem_toFinset] at ht
  have hsolo : (engineProgram g storeConfig).solo s.shared (.op o) [.go] =
      some { s.shared with store := o.apply s.shared.store } := by
    simp [Program.solo, engineProgram, EnginePc.next, hnew]
  have hrun := Program.exec_of_solo (fun _ => rfl) ht hsolo
  have hspawn : (engineMachine g storeConfig).step s (.spawn t (.op o)) =
      some { s with threads := s.threads.insert t (.op o) } := by
    simp only [engineMachine, Program.machine, ht, engineProgram, hstart, and_self, if_true]
  exact Relation.ReflTransGen.head ⟨_, hspawn⟩ (Machine.leads_of_exec hrun)

omit [PipelineLib] in
/-- A poll stays a poll and nothing else becomes one; no thread becomes a call of the store. -/
theorem scheduler_kind {v v' : SchedulerState} {p q : SchedulerPc} {i : SchedulerInput}
    (h : p.next config v i = some (v', some q)) : q.isPoll = p.isPoll ∧ ∀ o, q ≠ .op o := by
  cases p with
  | polling id r =>
    cases i with
    | polled answer =>
      cases h
      unfold SchedulerPc.afterPoll
      repeat' split
      all_goals exact ⟨rfl, fun o ho => by cases ho⟩
    | _ => cases h
  | unlisting id why =>
    cases i with
    | go =>
      cases why with
      | expired | decided =>
        cases h
        exact ⟨rfl, fun o ho => by cases ho⟩
      | _ => cases h
    | _ => cases h
  | draining ids =>
    cases ids with
    | nil | cons id ids =>
      unfold SchedulerPc.next at h
      dsimp only at h
      repeat' split at h
      all_goals
        cases h <;> exact ⟨rfl, fun o ho => by cases ho⟩
  | _ =>
    unfold SchedulerPc.next at h
    dsimp only at h
    repeat' split at h
    all_goals
      cases h <;> exact ⟨rfl, fun o ho => by cases ho⟩

/-- No thread of the scheduler is a call of the store, and at most one is a poll. -/
structure System.Orderly (s : System) : Prop where
  own : s.polls.All fun _ p => ∀ o, p ≠ .op o
  alone : ∀ t t' p p', s.polls.lookup t = some p → p.isPoll = true → s.polls.lookup t' = some p' → p'.isPoll = true →
    t = t'

omit [F64.Fmt] [Sha256] [PipelineLib] in
theorem System.not_polling {s : System} (h : s.polling = false) {t : Nat} {p : SchedulerPc}
    (hp : s.polls.lookup t = some p) : p.isPoll = false := by
  unfold System.polling at h
  rw [List.any_eq_false] at h
  have hmem : (⟨t, p⟩ : Sigma fun _ : Nat => SchedulerPc) ∈ s.polls.entries := Table.mem_entries_iff.mpr hp
  simpa using h _ hmem

theorem System.Orderly.step {s s' : System} {a : SystemAct} (hs : s.Orderly)
    (h : (systemMachine adapter g config storeConfig).step s a = some s') : s'.Orderly := by
  rcases system_step_cases h with ⟨b, calls, rfl, -, -, rfl⟩ | ⟨t, p, rfl, hnone, hstart, rfl⟩ |
    ⟨t, i, p, v, p', rfl, hp, -, hnext, rfl⟩ | ⟨rfl, -, rfl⟩ | ⟨d, rfl, rfl⟩
  · exact ⟨hs.own, hs.alone⟩
  · constructor
    · refine hs.own.insert ?_
      rintro o rfl
      cases hstart
    · -- a poll starts alone
      have hfirst : p.isPoll = true → ∀ u q, s.polls.lookup u = some q → q.isPoll = false := by
        intro hpoll u q hq
        cases p with
        | locking =>
          have hidle : s.polling = false := by simpa [System.starts] using hstart
          exact System.not_polling hidle hq
        | submitting | cancelling | drain => cases hpoll
        | _ => cases hstart
      intro u u' q q' hq hqpoll hq' hqpoll'
      by_cases hu : u = t
      · by_cases hu' : u' = t
        · rw [hu, hu']
        · rw [AList.lookup_insert_ne hu'] at hq'
          rw [hu, AList.lookup_insert] at hq
          cases hq
          rw [hfirst hqpoll u' q' hq'] at hqpoll'
          cases hqpoll'
      · rw [AList.lookup_insert_ne hu] at hq
        by_cases hu' : u' = t
        · rw [hu', AList.lookup_insert] at hq'
          cases hq'
          rw [hfirst hqpoll' u q hq] at hqpoll
          cases hqpoll
        · rw [AList.lookup_insert_ne hu'] at hq'
          exact hs.alone u u' q q' hq hqpoll hq' hqpoll'
  · -- every thread has a predecessor of its own kind
    have hbefore : ∀ u q, (Program.settle s.polls t p').lookup u = some q → q.isPoll = true →
        ∃ q₀, s.polls.lookup u = some q₀ ∧ q₀.isPoll = true := by
      intro u q hq hqpoll
      rcases Program.settle_cases hq with ⟨rfl, rfl⟩ | ⟨-, hold⟩
      · rw [(scheduler_kind hnext).1] at hqpoll
        exact ⟨p, hp, hqpoll⟩
      · exact ⟨q, hold, hqpoll⟩
    constructor
    · intro u q hq
      rcases Program.settle_cases hq with ⟨rfl, rfl⟩ | ⟨-, hold⟩
      · exact (scheduler_kind hnext).2
      · exact hs.own u q hold
    · intro u u' q q' hq hqpoll hq' hqpoll'
      obtain ⟨q₀, hq₀, hpoll₀⟩ := hbefore u q hq hqpoll
      obtain ⟨q₁, hq₁, hpoll₁⟩ := hbefore u' q' hq' hqpoll'
      exact hs.alone u u' q₀ q₁ hq₀ hpoll₀ hq₁ hpoll₁
  · exact ⟨hs.own, hs.alone⟩
  · exact ⟨hs.own, hs.alone⟩

theorem reachable_orderly {s : System} (h : (systemMachine adapter g config storeConfig).Reachable s) :
    s.Orderly := by
  refine Machine.Reachable.invariant ⟨Table.All.empty _, ?_⟩ (fun _ _ _ hs ha => hs.step ha) h
  intro t t' p p' hp
  cases hp

/-- A step of the system is a run of the engine. -/
theorem System.Orderly.calls_leads {s s' : System} {a : SystemAct} (hs : s.Orderly)
    (h : (systemMachine adapter g config storeConfig).step s a = some s') :
    (engineMachine g storeConfig).Leads s.calls s'.calls := by
  rcases system_step_cases h with ⟨b, calls, rfl, -, hcalls, rfl⟩ | ⟨t, p, rfl, -, -, rfl⟩ |
    ⟨t, i, p, v, p', rfl, hp, -, hnext, rfl⟩ | ⟨rfl, -, rfl⟩ | ⟨d, rfl, rfl⟩
  · exact Relation.ReflTransGen.single ⟨b, hcalls⟩
  · exact Relation.ReflTransGen.refl
  · rcases scheduler_store hnext (hs.own t p hp) with hstore | ⟨id, now, -, hstore⟩ | ⟨id, result, now, -, -, -, hstore⟩
    · have hsame : (s.stepped t v p').calls = s.calls := by
        simp only [System.stepped, System.setStore, hstore]
        rfl
      rw [hsame]
      exact Relation.ReflTransGen.refl
    · simp only [System.stepped, System.setStore, hstore]
      exact op_leads (o := .transition now id .expired (some "TTL exceeded")) s.calls rfl rfl
    · simp only [System.stepped, System.setStore, hstore]
      exact op_leads (o := .recordApproval now id result.approvalDecision result.decidedBy config.approvalValidFor)
        s.calls rfl rfl
  · exact op_leads (o := .expireOverdue s.now) s.calls rfl rfl
  · exact Relation.ReflTransGen.refl

/-- In every run of the system the engine runs as it does by itself. -/
theorem System.calls_reachable {s : System} (h : (systemMachine adapter g config storeConfig).Reachable s) :
    (engineMachine g storeConfig).Reachable s.calls := by
  have hinit : (engineMachine g storeConfig).Reachable (systemMachine adapter g config storeConfig).init.calls :=
    Machine.ReachableWhen.init
  refine Machine.ReachableWhen.invariant (I := fun s => (engineMachine g storeConfig).Reachable s.calls) hinit ?_ h
  intro s a s' hs hI _ ha
  exact hI.leads ((reachable_orderly hs).calls_leads ha)

end

end ThoughtGate
