import ThoughtGate.Approval.Queue
import ThoughtGate.Approval.System

/-!
# A rejection against the timeout

A task whose `on_timeout` is `approve` is forwarded once it has expired. A rejection counts from the poll that reads it:
one that comes after the last poll before the deadline is never seen, the task expires and is forwarded
(`rejected_and_forwarded`). A poll that is answered with it while the task still waits settles the matter, whatever the
other threads do (`rejection_beats_timeout`): nothing expires a task while a poll is in flight, the answer is recorded
without an await, and a rejected task is never executed.

The invariant `Refused` follows the answer on its way: the poll carries it to the store, and until then the task waits or
was cancelled; from then on it is closed.
-/

namespace ThoughtGate

/-- From a moment on the adapter answers every poll of the task with a rejection. -/
def RejectsFrom (adapter : Adapter) (id : TaskId) (moment : DateTime) : Prop :=
  ∀ r now, moment ≤ now → ∃ result, adapter id r now = .ok (some result) ∧ result.decision = .rejected

/-- A task that waits for its approval, or was cancelled meanwhile. -/
def Undecided (st : TaskStatus) : Prop := st = .inputRequired ∨ st = .cancelled

/-- A task that will not be executed. -/
def Closed (st : TaskStatus) : Prop := st = .rejected ∨ st = .cancelled

theorem Closed.stays {a b : TaskStatus} (ha : Closed a) (hcan : a.canTransitionTo b = true) : Closed b := by
  have hlive := TaskStatus.canTransitionTo_not_terminal hcan
  rcases ha with rfl | rfl
  · cases hlive
  · cases hlive

/-- A call goes on with none of these tasks. -/
theorem dispatch_of_refused {id : TaskId} {task : Task} (h : Undecided task.status ∨ Closed task.status) :
    Engine.dispatch id task ≠ none := by
  intro hgo
  rcases dispatch_none hgo with hst | ⟨hst, -⟩ <;> simp [Undecided, Closed, hst] at h

/-! ### The operations on an undecided task -/

open TaskStore

section

variable {s : TaskStore} {id : TaskId}

/-- An undecided task can be cancelled, and nothing else happens to it but a decision or its timeout. -/
theorem undecided_staysAt {b : TaskStatus} (hb : b = .inputRequired ∨ b = .failed ∨ b = .cancelled) :
    StaysAt Undecided b := by
  intro a ha hcan
  rcases ha with rfl | rfl <;> rcases hb with rfl | rfl | rfl <;>
    simp [TaskStatus.canTransitionTo, Undecided] at hcan ⊢

/-- From outside an undecided task can only be cancelled. -/
theorem StatusIn.outside [F64.Fmt] [Sha256] (hs : StatusIn s id Undecided) {o : StoreOp} (ho : o.outside = true)
    (hnew : o.newId ≠ some id) : StatusIn (o.apply s) id Undecided := by
  refine hs.apply hnew ?_
  intro b hb
  apply undecided_staysAt
  cases o with
  | transition now id' newStatus reason =>
    obtain ⟨-, rfl⟩ := hb
    have hnew' : b = .inputRequired ∨ b = .failed := by simpa [StoreOp.outside] using ho
    exact hnew'.imp_right Or.inl
  | cancel => exact Or.inr (Or.inr hb.2)
  | failAllPending => exact Or.inr (Or.inl hb)
  | create | cleanupTerminal => exact hb.elim
  | _ => cases ho

/-- A rejection closes an undecided task. -/
theorem StatusIn.recordRejection (hs : StatusIn s id Undecided) (now : DateTime) (reason : Option String)
    (decidedBy : String) (validFor : Duration) :
    StatusIn (s.recordApproval now id (.rejected reason) decidedBy validFor).2 id Closed := by
  unfold TaskStore.recordApproval
  split
  · rename_i hnone
    intro e he
    rw [hnone] at he
    cases he
  · rename_i e he
    split
    · rename_i hne
      intro e' he'
      rw [he] at he'
      cases he'
      exact Or.inr ((hs e he).resolve_left hne)
    · rename_i heq
      rw [not_not] at heq
      dsimp only
      split
      · rename_i err herr
        have hcan : e.task.status.canTransitionTo (decisionTarget (.rejected reason)).1 = true := by
          rw [heq]
          rfl
        obtain ⟨t', ht⟩ := Task.transition_of_can (t := { e.task with approval := some _ }) now
          (decisionTarget (.rejected reason)).2 hcan
        rw [ht] at herr
        cases herr
      · rename_i t' ht
        have hstatus : t'.status = .rejected := by
          obtain ⟨-, rfl⟩ := Task.transition_ok ht
          rfl
        intro e' he'
        have hget := get_settle s now id e t'
        rw [TaskStore.get, he'] at hget
        rw [Except.ok.inj hget, hstatus]
        exact Or.inl rfl

end

/-! ### The way of an answer -/

section

variable [F64.Fmt] [Sha256] [PipelineLib] {adapter : Adapter} {g : Engine} {config : PollingConfig}
  {storeConfig : TaskStoreConfig}

/-- A poll carries a rejection of the task to the store. -/
def Carries (s : System) (id : TaskId) (t : Nat) : Prop :=
  ∃ p result, s.polls.lookup t = some p ∧ result.decision = .rejected ∧
    (p = .unlisting id (.decided result) ∨ p = .recording id result)

/-- The task is refused, or about to be: no call goes by it, and nothing has been sent for it. -/
structure Refused (id : TaskId) (t : Nat) (s : System) : Prop where
  issued : id ∈ s.calls.shared.issued
  copies : OfCopies (fun id' _ => id' ≠ id) s.calls
  status : (Carries s id t ∧ StatusIn s.store id Undecided) ∨ StatusIn s.store id Closed

omit [F64.Fmt] [Sha256] [PipelineLib] in
theorem Carries.isPoll {s : System} {id : TaskId} {t : Nat} (h : Carries s id t) :
    ∃ p, s.polls.lookup t = some p ∧ p.isPoll = true := by
  obtain ⟨p, result, hp, -, rfl | rfl⟩ := h
  · exact ⟨_, hp, rfl⟩
  · exact ⟨_, hp, rfl⟩

/-- A closed task stays closed in every run of the engine. -/
theorem closed_leads {s s' : ThreadState EngineState EnginePc} (h : (engineMachine g storeConfig).Reachable s)
    (hlead : (engineMachine g storeConfig).Leads s s') {id : TaskId} (hid : id ∈ s.shared.issued) :
    id ∈ s'.shared.issued ∧
      (StatusIn s.shared.store id Closed → StatusIn s'.shared.store id Closed) := by
  refine Machine.Leads.invariant (I := fun s' => id ∈ s'.shared.issued ∧
    (StatusIn s.shared.store id Closed → StatusIn s'.shared.store id Closed)) ⟨hid, fun h => h⟩ ?_ hlead
  intro u a u' hu hI ha
  have hinv := reachable_engineInv (h.leads hu)
  refine ⟨issued_step hinv ha hI.1, fun hclosed => ?_⟩
  exact statusIn_step hinv ha (fun _ _ hst hcan => hst.stays hcan) hI.1 (hI.2 hclosed)

/-- A step of a call keeps an undecided task undecided when no call goes by it. -/
theorem undecided_call {s : System} {b : ThreadAct EnginePc EngineInput} {calls : ThreadState EngineState EnginePc}
    {id : TaskId} (hadmits : s.admits b = true) (hb : (engineMachine g storeConfig).step s.calls b = some calls)
    (hid : id ∈ s.calls.shared.issued) (hcopies : OfCopies (fun id' _ => id' ≠ id) s.calls)
    (hst : StatusIn s.store id Undecided) : StatusIn calls.shared.store id Undecided := by
  rcases Program.step_cases hb with ⟨t, p, rfl, -, -, rfl⟩ | ⟨t, i, p, shared, p', rfl, hp, -, hnext, rfl⟩
  · exact hst
  · cases engine_next hnext with
    | leave | read | acquired | validated | permitted | forwarded | ended | abandoned | dropped | released => exact hst
    | @settled id' task approval result granted now =>
      exact hst.settleStore (fun hid => absurd hid (hcopies.1 t _ hp id' task rfl))
        (fun hid => absurd hid (hcopies.1 t _ hp id' task rfl)) now task approval result
    | @op o _ hfresh =>
      have houtside : o.outside = true := by
        simp only [System.admits, hp, Bool.and_eq_true] at hadmits
        exact hadmits.1
      exact hst.outside houtside fun hnew => hfresh id hnew hid

omit [PipelineLib] in
/-- A step of another thread of the scheduler leaves the store alone while a poll carries an answer. -/
theorem store_of_other {s : System} (hs : s.Orderly) {id : TaskId} {t u : Nat} (hcarries : Carries s id t)
    (hne : u ≠ t) {p : SchedulerPc} {i : SchedulerInput} {v : SchedulerState} {p' : Option SchedulerPc}
    (hp : s.polls.lookup u = some p) (hnext : p.next config s.scheduler i = some (v, p')) : v.store = s.store := by
  obtain ⟨q, hq, hqpoll⟩ := hcarries.isPoll
  have hidle : p.isPoll = false := by
    by_contra hpoll
    rw [Bool.not_eq_false] at hpoll
    exact hne (hs.alone u t p q hp hpoll hq hqpoll)
  rcases scheduler_store hnext (hs.own u p hp) with hstore | ⟨id', now, rfl, -⟩ | ⟨id', result, now, rfl, -⟩
  · exact hstore
  · cases hidle
  · cases hidle

omit [PipelineLib] in
/-- The poll's own step: the answer gets to the store, or is recorded and closes the task. -/
theorem carries_step {s : System} {id : TaskId} {t : Nat} {p : SchedulerPc} {result : PollResult}
    {i : SchedulerInput} {v : SchedulerState} {p' : Option SchedulerPc} (hrejected : result.decision = .rejected)
    (hp : p = .unlisting id (.decided result) ∨ p = .recording id result)
    (hst : StatusIn s.store id Undecided) (hnext : p.next config s.scheduler i = some (v, p')) :
    (Carries (s.stepped t v p') id t ∧ StatusIn v.store id Undecided) ∨ StatusIn v.store id Closed := by
  rcases hp with rfl | rfl
  · cases i with
    | go =>
      cases hnext
      refine Or.inl ⟨⟨.recording id result, result, ?_, hrejected, Or.inr rfl⟩, hst⟩
      exact AList.lookup_insert _
    | _ => cases hnext
  · cases i with
    | utc now =>
      cases hnext
      have happ : result.approvalDecision =
          .rejected (some ("Rejected via " ++ result.method.description ++ " by " ++ result.decidedBy)) := by
        simp only [PollResult.approvalDecision, hrejected]
      refine Or.inr ?_
      rw [happ]
      exact hst.recordRejection now _ _ _
    | _ => cases hnext

theorem Refused.step {s s' : System} {a : SystemAct} {id : TaskId} {t : Nat} (hs : Refused id t s)
    (hreach : (systemMachine adapter g config storeConfig).Reachable s)
    (h : (systemMachine adapter g config storeConfig).step s a = some s') : Refused id t s' := by
  have horderly := reachable_orderly hreach
  obtain ⟨hissued, hclosed⟩ := closed_leads (System.calls_reachable hreach) (horderly.calls_leads h) hs.issued
  -- a closed task stays closed, so only the way of the answer is left
  have hstatus : (Carries s id t → StatusIn s.store id Undecided →
      (Carries s' id t ∧ StatusIn s'.store id Undecided) ∨ StatusIn s'.store id Closed) →
      (Carries s' id t ∧ StatusIn s'.store id Undecided) ∨ StatusIn s'.store id Closed := by
    intro hcarried
    rcases hs.status with ⟨hcarries, hst⟩ | hst
    · exact hcarried hcarries hst
    · exact Or.inr (hclosed hst)
  rcases system_step_cases h with ⟨b, calls, rfl, hadmits, hcalls, rfl⟩ | ⟨u, p, rfl, hnone, -, rfl⟩ |
    ⟨u, i, p, v, p', rfl, hp, -, hnext, rfl⟩ | ⟨rfl, hidle, rfl⟩ | ⟨d, rfl, rfl⟩
  · refine ⟨hissued, hs.copies.step hcalls (fun _ _ hne => hne) ?_, hstatus fun hcarries hst => ?_⟩
    · rintro id' e he hgo rfl
      have hrefused : Undecided e.task.status ∨ Closed e.task.status := by
        rcases hs.status with ⟨-, hst⟩ | hst
        · exact Or.inl (hst e he)
        · exact Or.inr (hst e he)
      exact dispatch_of_refused hrefused hgo
    · exact Or.inl ⟨hcarries, undecided_call hadmits hcalls hs.issued hs.copies hst⟩
  · refine ⟨hissued, hs.copies, hstatus fun hcarries hst => Or.inl ⟨?_, hst⟩⟩
    obtain ⟨q, result, hq, hrest⟩ := hcarries
    refine ⟨q, result, ?_, hrest⟩
    have hne : t ≠ u := by
      rintro rfl
      rw [hnone] at hq
      cases hq
    rw [AList.lookup_insert_ne hne]
    exact hq
  · refine ⟨hissued, hs.copies, hstatus fun hcarries hst => ?_⟩
    by_cases hut : u = t
    · subst hut
      obtain ⟨q, result, hq, hrejected, hway⟩ := hcarries
      rw [hp] at hq
      cases hq
      exact carries_step hrejected hway hst hnext
    · have hstore := store_of_other horderly hcarries hut hp hnext
      obtain ⟨q, result, hq, hrest⟩ := hcarries
      refine Or.inl ⟨⟨q, result, ?_, hrest⟩, ?_⟩
      · show (Program.settle s.polls u p').lookup t = some q
        rw [Program.settle_lookup_ne _ (Ne.symm hut)]
        exact hq
      · show StatusIn v.store id Undecided
        rw [hstore]
        exact hst
  · refine ⟨hissued, hs.copies, hstatus fun hcarries _ => ?_⟩
    obtain ⟨q, hq, hqpoll⟩ := hcarries.isPoll
    rw [System.not_polling hidle hq] at hqpoll
    cases hqpoll
  · exact ⟨hissued, hs.copies, hstatus fun hcarries hst => Or.inl ⟨hcarries, hst⟩⟩

/-- A task that waits for its approval was never executed, so no call goes by it. -/
theorem no_copies_of_waiting {s : ThreadState EngineState EnginePc} (h : (engineMachine g storeConfig).Reachable s)
    {id : TaskId} {e : TaskEntry} (he : s.shared.store.tasks.lookup id = some e)
    (hwaits : e.task.status = .inputRequired) : OfCopies (fun id' _ => id' ≠ id) s := by
  have hne : ∀ id' task, Follows s.shared id' task → id' ≠ id := by
    rintro id' task hfollows rfl
    have hbecomes := hfollows.status e he
    rw [hwaits] at hbecomes
    rcases dispatch_none hfollows.read with hst | ⟨hst, -⟩
    · rw [hst] at hbecomes
      rcases hbecomes.of_executing with h | h | h <;> cases h
    · rw [hst] at hbecomes
      cases hbecomes.of_terminal rfl
  obtain ⟨hthreads, hlog⟩ := reachable_follows h
  exact ⟨hthreads.mono fun _ p hp id' task hsnap => hne id' task (hp id' task hsnap), fun f hf => hne _ _ (hlog f hf)⟩

/-- From a moment on the adapter rejects the task, and from then on a poll of it is answered while it still waits: then
its request is never sent, whatever happens before and after and whatever its `on_timeout` is. -/
theorem rejection_beats_timeout {s s' s'' : System} {id : TaskId} {moment : DateTime}
    (h : (systemMachine adapter g config storeConfig).Reachable s) (hrejects : RejectsFrom adapter id moment)
    (hmoment : moment ≤ s.now) {e : TaskEntry} (he : s.store.tasks.lookup id = some e)
    (hwaits : e.task.status = .inputRequired) {t : Nat} {r : ApprovalReference}
    (hpolling : s.polls.lookup t = some (.polling id r)) {answer : Except AdapterError (Option PollResult)}
    (hanswered : (systemMachine adapter g config storeConfig).step s (.run t (.polled answer)) = some s')
    (hlead : (systemMachine adapter g config storeConfig).Leads s' s'') :
    ∀ f ∈ s''.calls.shared.forwards, f.id ≠ id := by
  have hengine := System.calls_reachable h
  obtain ⟨result, hresult, hrejected⟩ := hrejects r s.now hmoment
  -- right after the answer
  have hrefused : Refused id t s' := by
    rcases system_step_cases hanswered with ⟨_, _, ha, -⟩ | ⟨_, _, ha, -⟩ | ⟨u, i, p, v, p', ha, hp, hgrants, hnext, rfl⟩ |
      ⟨ha, -⟩ | ⟨_, ha, -⟩
    · cases ha
    · cases ha
    · cases ha
      rw [hpolling] at hp
      cases hp
      have hanswer : answer = .ok (some result) := by
        have hadapter : answer = adapter id r s.now := by simpa [System.grants] using hgrants
        rw [hadapter, hresult]
      subst hanswer
      cases hnext
      refine ⟨(reachable_engineInv hengine).issued id e he, no_copies_of_waiting hengine he hwaits, Or.inl ⟨?_, ?_⟩⟩
      · exact ⟨.unlisting id (.decided result), result, AList.lookup_insert _, hrejected, Or.inl rfl⟩
      · intro e' he'
        have hsame : s.store.tasks.lookup id = some e' := he'
        rw [he] at hsame
        cases hsame
        exact Or.inl hwaits
    · cases ha
    · cases ha
  have hafter : Refused id t s'' := by
    refine Machine.Leads.invariant hrefused ?_ hlead
    intro u a u' hu hI ha
    exact hI.step ((h.step hanswered).leads hu) ha
  exact hafter.copies.2

end

namespace Sample

def rejection : PollResult where
  decision := .rejected
  decidedBy := "alice"
  decidedAt := 599000000000
  method := .reaction "-1"

/-- Alice rejects the request one second before its deadline. -/
def lateRejection : Adapter := fun _ _ now => if now < 599000000000 then .ok none else .ok (some rejection)

theorem lateRejection_rejects : RejectsFrom lateRejection "tg_1" 599000000000 := by
  intro r now hnow
  exact ⟨rejection, if_neg (Int.not_lt.mpr hnow), rfl⟩

/-- The task `tg_1` is created with `on_timeout: approve` and submitted. -/
def opened : List SystemAct :=
  [.call (.spawn 0 (.op (.create "tg_1" 0 request request principal none .approve))), .call (.run 0 .go),
   .call (.spawn 0 (.op (.transition 0 "tg_1" .inputRequired none))), .call (.run 0 .go),
   .spawn 0 (.submitting approvalRequest), .run 0 .go, .run 0 .go, .run 0 (.posted (.ok reference)), .run 0 .go, .run 0 .go]

/-- A poll at a time, up to its question to the adapter. -/
def pollAt (now : Int) : List SystemAct :=
  [.spawn 1 .locking, .run 1 (.clock now), .run 1 .go, .run 1 (.utc now), .run 1 .go]

/-- There is no decision yet, and the next poll is 10 s away. -/
def askAgain (now : Int) : List SystemAct := [.run 1 (.polled (.ok none)), .run 1 (.clock now), .run 1 .go]

/-- A call for the result that sends the request. -/
def resultAt (now : Int) : List SystemAct :=
  [.call (.spawn 1 (.start "tg_1")), .call (.run 1 .go), .call (.run 1 .go), .call (.run 1 (.clock now now)),
   .call (.run 1 (.policy fun _ => .ok .forward)), .call (.run 1 (.inspect fun _ _ _ => .approve))]

/-- A poll for this task is on its way. -/
def asking (id : TaskId) : SchedulerPc → Bool
  | .polling id' _ => id' == id
  | _ => false

end Sample

section

attribute [local instance] Sample.f64Fmt Sample.sha256 Sample.pipelineLib

/-- The poll at 595 s finds nothing, the rejection comes at 599 s, the sweep at 601 s expires the task, and the next
call for its result sends the request. -/
def Sample.lateApproval : (systemMachine Sample.lateRejection Sample.engine {} {}).RunTo (fun _ _ => true) fun s =>
    (s.store.tasks.lookup "tg_1").any (fun e =>
      decide (e.task.onTimeout = .approve) && decide (599000000000 < e.task.expiresAt)) &&
    s.calls.shared.forwards.any fun f => f.id == "tg_1" where
  actions := opened ++ [SystemAct.pass 595000000000] ++ pollAt 595000000000 ++ askAgain 595000000000 ++
    [SystemAct.pass 6000000000, .sweep] ++ resultAt 601000000000
  passes := by decide +kernel

theorem rejected_and_forwarded :
    ∃ s e, (systemMachine Sample.lateRejection Sample.engine {} {}).Reachable s ∧
      s.store.tasks.lookup "tg_1" = some e ∧ e.task.onTimeout = .approve ∧
      RejectsFrom Sample.lateRejection "tg_1" 599000000000 ∧ 599000000000 < e.task.expiresAt ∧
      ∃ f ∈ s.calls.shared.forwards, f.id = "tg_1" := by
  obtain ⟨s, hreach, hboth⟩ := Sample.lateApproval.exists_reachable
  obtain ⟨htask, hsent⟩ := Bool.and_eq_true_iff.mp hboth
  obtain ⟨e, he, hfields⟩ := (Option.any_eq_true ..).mp htask
  obtain ⟨hto, hexpires⟩ := Bool.and_eq_true_iff.mp hfields
  obtain ⟨f, hf, hid⟩ := List.any_eq_true.mp hsent
  exact ⟨s, e, hreach, he, of_decide_eq_true hto, Sample.lateRejection_rejects, of_decide_eq_true hexpires, f, hf,
    beq_iff_eq.mp hid⟩

/-- A poll at 599 s reads the rejection. -/
theorem rejection_beats_timeout_sample :
    ∃ s s' e, (systemMachine Sample.lateRejection Sample.engine {} {}).Reachable s ∧
      s.store.tasks.lookup "tg_1" = some e ∧ e.task.status = .inputRequired ∧ e.task.onTimeout = .approve ∧
      (systemMachine Sample.lateRejection Sample.engine {} {}).step s
        (.run 1 (.polled (.ok (some Sample.rejection)))) = some s' ∧
      ∀ s'', (systemMachine Sample.lateRejection Sample.engine {} {}).Leads s' s'' →
        ∀ f ∈ s''.calls.shared.forwards, f.id ≠ "tg_1" := by
  have hrun : ((systemMachine Sample.lateRejection Sample.engine {} {}).exec
      (systemMachine Sample.lateRejection Sample.engine {} {}).init
      (Sample.opened ++ [SystemAct.pass 599000000000] ++ Sample.pollAt 599000000000)).any (fun s : System =>
          (s.store.tasks.lookup "tg_1").any (fun e =>
            decide (e.task.status = .inputRequired) && decide (e.task.onTimeout = .approve)) &&
          decide (599000000000 ≤ s.now) &&
          (s.polls.lookup 1).any (Sample.asking "tg_1") &&
          ((systemMachine Sample.lateRejection Sample.engine {} {}).step s
            (.run 1 (.polled (.ok (some Sample.rejection))))).isSome) = true := by
    decide
  obtain ⟨s, hreach, htests⟩ := Machine.exists_reachable_of_exec hrun
  simp only [Bool.and_eq_true, decide_eq_true_eq] at htests
  obtain ⟨⟨⟨htask, hnow⟩, hpoll⟩, hstep⟩ := htests
  obtain ⟨e, he, hfields⟩ := (Option.any_eq_true ..).mp htask
  obtain ⟨hst, hto⟩ := Bool.and_eq_true_iff.mp hfields
  obtain ⟨p, hp, hpolling⟩ := (Option.any_eq_true ..).mp hpoll
  obtain ⟨s', hs'⟩ := Option.isSome_iff_exists.mp hstep
  unfold Sample.asking at hpolling
  split at hpolling
  · rename_i id r
    obtain rfl : id = "tg_1" := beq_iff_eq.mp hpolling
    exact ⟨s, s', e, hreach, he, of_decide_eq_true hst, of_decide_eq_true hto, hs', fun s'' hlead =>
      rejection_beats_timeout hreach Sample.lateRejection_rejects hnow he (of_decide_eq_true hst) hp hs' hlead⟩
  · cases hpolling

end

end ThoughtGate
