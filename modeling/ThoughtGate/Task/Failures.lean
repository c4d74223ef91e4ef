import ThoughtGate.Task.Accounting

/-!
# What a failed store operation leaves behind

`SameStore` compares two stores by everything that can be read from them. A failed call of the store leaves the
same store in all cases but two: a refused creation that had to make the principal's counter keeps it
(`bounced_sameStore_iff`), and `fail` on a task in `InputRequired` writes the failure before the status machine
refuses the move (`fail_error`).
-/

namespace ThoughtGate

/-- Two stores with the same tasks, indexes, keys and counters. -/
structure SameStore (s s' : TaskStore) : Prop where
  tasks : ∀ id, s'.tasks.lookup id = s.tasks.lookup id
  byPrincipal : ∀ key, s'.byPrincipal.lookup key = s.byPrincipal.lookup key
  pendingByPrincipal : ∀ key, s'.pendingByPrincipal.lookup key = s.pendingByPrincipal.lookup key
  pendingCount : s'.pendingCount = s.pendingCount
  pendingBytes : s'.pendingBytes = s.pendingBytes
  config : s'.config = s.config
  underflow : s'.underflow = s.underflow

theorem SameStore.refl (s : TaskStore) : SameStore s s :=
  ⟨fun _ => rfl, fun _ => rfl, fun _ => rfl, rfl, rfl, rfl, rfl⟩

/-- The error of an answer. -/
def errorOf {α : Type} : Except TaskError α → Option TaskError
  | .error e => some e
  | .ok _ => none

theorem errorOf_eq_some {α : Type} {answer : Except TaskError α} {err : TaskError}
    (h : errorOf answer = some err) : answer = .error err := by
  cases answer with
  | error e => cases h; rfl
  | ok a => cases h

namespace TaskStore

/-! ### A refused creation -/

theorem bounced_byPrincipal (s : TaskStore) (key : String) : (s.bounced key).byPrincipal = s.byPrincipal := by
  cases hkey : s.pendingByPrincipal.lookup key <;>
    simp [bounced, rollback, subPendingCount, subPrincipal, addPrincipal, principalEntry, hkey]

/-- The counter of the refused principal is there afterwards, with the value it had or zero. -/
theorem bounced_pendingByPrincipal (s : TaskStore) (key key' : String) :
    (s.bounced key).pendingByPrincipal.lookup key' =
      if key' = key then some (s.principalCount key) else s.pendingByPrincipal.lookup key' := by
  have hentry : ∀ t : TaskStore, key' ≠ key →
      (t.principalEntry key).pendingByPrincipal.lookup key' = t.pendingByPrincipal.lookup key' := by
    intro t hne
    unfold principalEntry
    split
    · rfl
    · exact AList.lookup_insert_ne hne
  split
  · rename_i hk
    subst hk
    cases hkey : s.pendingByPrincipal.lookup key' <;>
      simp [bounced, rollback, subPendingCount, subPrincipal, addPrincipal, principalEntry, principalCount, hkey,
        fetchSub]
  · rename_i hne
    simp only [bounced, rollback, subPendingCount, subPrincipal, addPrincipal, AList.lookup_insert_ne hne]
    exact hentry _ hne

/-- A refused creation is undone exactly when the principal had a counter before. -/
theorem bounced_sameStore_iff (s : TaskStore) (key : String) :
    SameStore s (s.bounced key) ↔ (s.pendingByPrincipal.lookup key).isSome := by
  obtain ⟨hcount, hbytes, -, hunder⟩ := bounced_counters s key
  constructor
  · intro h
    rw [← h.pendingByPrincipal key, bounced_pendingByPrincipal, if_pos rfl]
    rfl
  · intro hsome
    refine ⟨fun id => by rw [bounced_tasks], fun k => by rw [bounced_byPrincipal], fun k => ?_, hcount, hbytes,
      bounced_config s key, hunder⟩
    rw [bounced_pendingByPrincipal]
    split
    · rename_i hk
      subst hk
      obtain ⟨n, hn⟩ := Option.isSome_iff_exists.mp hsome
      simp [principalCount, hn]
    · rfl

/-- A creation fails at once, or after it took its slots. -/
theorem create_error [F64.Fmt] [Sha256] {s : TaskStore} {id : TaskId} {now : DateTime} {orig pre : ToolCallRequest}
    {principal : Principal} {ttl : Option Duration} {onTimeout : TimeoutAction} {e : TaskError}
    (h : (s.create id now orig pre principal ttl onTimeout).1 = .error e) :
    (s.config.maxPendingGlobal ≤ s.pendingCount ∧ (s.create id now orig pre principal ttl onTimeout).2 = s) ∨
    (s.pendingCount < s.config.maxPendingGlobal ∧
      (s.create id now orig pre principal ttl onTimeout).2 = s.bounced principal.rateLimitKey) := by
  unfold create at h ⊢
  split at h
  · rename_i hfull
    rw [if_pos hfull]
    exact Or.inl ⟨hfull, rfl⟩
  · rename_i hroom
    rw [if_neg hroom]
    refine Or.inr ⟨Nat.lt_of_not_le hroom, ?_⟩
    dsimp only at h ⊢
    split at h
    · rename_i hslots
      rw [if_pos hslots]
      rfl
    · rename_i hslots
      rw [if_neg hslots]
      split at h
      · rfl
      · split at h
        · rename_i hbytes
          rw [if_pos hbytes]
          rfl
        · cases h

/-! ### The operations on a stored task -/

theorem put_sameStore_iff {s : TaskStore} {id : TaskId} {e e' : TaskEntry} (he : s.tasks.lookup id = some e) :
    SameStore s (s.put id e') ↔ e' = e := by
  constructor
  · intro h
    have hid := h.tasks id
    rw [put_tasks, AList.lookup_insert, he] at hid
    exact Option.some.inj hid
  · rintro rfl
    refine ⟨fun id' => ?_, fun _ => rfl, fun _ => rfl, rfl, rfl, rfl, rfl⟩
    rw [put_tasks]
    by_cases hid : id' = id
    · subst hid
      rw [AList.lookup_insert, he]
    · exact AList.lookup_insert_ne hid

theorem transition_error {s : TaskStore} {now : DateTime} {id : TaskId} {newStatus : TaskStatus}
    {reason : Option String} {err : TaskError} (h : (s.transition now id newStatus reason).1 = .error err) :
    (s.transition now id newStatus reason).2 = s := by
  unfold transition at h ⊢
  split at h
  · rfl
  · split at h
    · rfl
    · cases h

theorem transitionIf_error {s : TaskStore} {now : DateTime} {id : TaskId} {expected newStatus : TaskStatus}
    {reason : Option String} {err : TaskError}
    (h : (s.transitionIf now id expected newStatus reason).1 = .error err) :
    (s.transitionIf now id expected newStatus reason).2 = s := by
  unfold transitionIf at h ⊢
  split at h
  · rfl
  · split at h
    · rfl
    · cases h

theorem recordApproval_error {s : TaskStore} {now : DateTime} {id : TaskId} {decision : ApprovalDecision}
    {decidedBy : String} {validFor : Duration} {err : TaskError}
    (h : (s.recordApproval now id decision decidedBy validFor).1 = .error err) :
    (s.recordApproval now id decision decidedBy validFor).2 = s := by
  unfold recordApproval at h ⊢
  cases he : s.tasks.lookup id with
  | none => rfl
  | some e =>
    simp only [he] at h ⊢
    split at h
    · rename_i hst
      rw [if_pos hst]
    · rename_i hst
      rw [not_not] at hst
      -- both edges out of `InputRequired` exist, so the written approval is never left with a refused move
      have hcan : e.task.status.canTransitionTo (decisionTarget decision).1 = true := by
        rw [hst]
        cases decision <;> rfl
      obtain ⟨t', ht⟩ := Task.transition_of_can
        (t := { e.task with approval := some ⟨decision, decidedBy, now, now + validFor.toChrono.getD 0, none⟩ }) now
        (decisionTarget decision).2 hcan
      rw [ht] at h
      cases h

theorem complete_error {s : TaskStore} {now : DateTime} {id : TaskId} {result : ToolCallResult} {err : TaskError}
    (h : (s.complete now id result).1 = .error err) : (s.complete now id result).2 = s := by
  unfold complete at h ⊢
  cases he : s.tasks.lookup id with
  | none => rfl
  | some e =>
    simp only [he] at h ⊢
    split at h
    · rename_i hst
      rw [if_pos hst]
    · rename_i hst
      rw [not_not] at hst
      have hcan : e.task.status.canTransitionTo .completed = true := by rw [hst]; rfl
      obtain ⟨t', ht⟩ := Task.transition_of_can (t := { e.task with result := some result }) now
        (some "Execution completed") hcan
      rw [ht] at h
      cases h

theorem cancel_error {s : TaskStore} {now : DateTime} {id : TaskId} {err : TaskError}
    (h : (s.cancel now id).1 = .error err) : (s.cancel now id).2 = s := by
  unfold cancel at h ⊢
  split at h
  · rfl
  · split at h
    · rename_i hst
      rw [if_pos hst]
      split_ifs <;> rfl
    · rename_i hst
      rw [if_neg hst]
      split at h
      · rfl
      · cases h

theorem recordAutoApproveResult_error {s : TaskStore} {now : DateTime} {id : TaskId} {result : ToolCallResult}
    {approval : ApprovalRecord} {err : TaskError}
    (h : (s.recordAutoApproveResult now id result approval).1 = .error err) :
    (s.recordAutoApproveResult now id result approval).2 = s := by
  unfold recordAutoApproveResult at h ⊢
  split at h
  · rfl
  · cases h

/-- A failed `fail` leaves the store alone, or writes the failure into a task in `InputRequired`. -/
theorem fail_error {s : TaskStore} {now : DateTime} {id : TaskId} {failure : FailureInfo} {err : TaskError}
    (h : (s.fail now id failure).1 = .error err) :
    ((s.fail now id failure).2 = s ∧ ∀ e, s.tasks.lookup id = some e → e.task.status ≠ .inputRequired) ∨
    ∃ e, s.tasks.lookup id = some e ∧ e.task.status = .inputRequired ∧
      (s.fail now id failure).2 = s.put id { e with task := { e.task with failure := some failure } } := by
  unfold fail at h ⊢
  cases he : s.tasks.lookup id with
  | none => exact Or.inl ⟨rfl, fun e he => by cases he⟩
  | some e =>
    simp only [he] at h ⊢
    split at h
    · rename_i hterm
      rw [if_pos hterm]
      refine Or.inl ⟨rfl, fun e' he' hst => ?_⟩
      cases he'
      rw [hst] at hterm
      cases hterm
    · rename_i hlive
      rw [if_neg hlive]
      by_cases hst : e.task.status = .inputRequired
      · refine Or.inr ⟨e, rfl, hst, ?_⟩
        split
        · rfl
        · rename_i t' ht
          rw [ht] at h
          cases h
      · -- the two other live statuses have an edge to `Failed`
        have hcan : e.task.status.canTransitionTo .failed = true := by
          cases hs : e.task.status <;> simp_all [TaskStatus.isTerminal, TaskStatus.canTransitionTo]
        obtain ⟨t', ht⟩ := Task.transition_of_can (t := { e.task with failure := some failure }) now
          (some failure.reason) hcan
        rw [ht] at h
        cases h

end TaskStore

/-! ### Every failed call -/

namespace StoreOp

/-- The error a call returns; the sweeps return none. -/
def error [F64.Fmt] [Sha256] (s : TaskStore) : StoreOp → Option TaskError
  | .create id now orig pre principal ttl onTimeout => errorOf (s.create id now orig pre principal ttl onTimeout).1
  | .transition now id newStatus reason => errorOf (s.transition now id newStatus reason).1
  | .transitionIf now id expected newStatus reason => errorOf (s.transitionIf now id expected newStatus reason).1
  | .recordApproval now id decision decidedBy validFor =>
    errorOf (s.recordApproval now id decision decidedBy validFor).1
  | .complete now id result => errorOf (s.complete now id result).1
  | .fail now id failure => errorOf (s.fail now id failure).1
  | .cancel now id => errorOf (s.cancel now id).1
  | .recordAutoApproveResult now id result approval => errorOf (s.recordAutoApproveResult now id result approval).1
  | .expireOverdue _ | .cleanupTerminal _ | .failAllPending _ _ => none

/-- The states from which a failing call is undone: a creation stops at the global limit or finds the
principal's counter, and `fail` does not meet a task in `InputRequired` whose failure it would change. -/
def Undone (s : TaskStore) : StoreOp → Prop
  | .create _ _ _ _ principal _ _ =>
    s.config.maxPendingGlobal ≤ s.pendingCount ∨ (s.pendingByPrincipal.lookup principal.rateLimitKey).isSome
  | .fail _ id failure =>
    ∀ e, s.tasks.lookup id = some e → e.task.status = .inputRequired → e.task.failure = some failure
  | _ => True

end StoreOp

open TaskStore

/-- A call that returns an error leaves the store as it was exactly from the states of `StoreOp.Undone`. -/
theorem failed_call_same_iff [F64.Fmt] [Sha256] {s : TaskStore} {op : StoreOp} {err : TaskError}
    (h : op.error s = some err) : SameStore s (op.apply s) ↔ op.Undone s := by
  have same : ∀ {s' : TaskStore}, s' = s → (SameStore s s' ↔ True) := by
    rintro _ rfl
    exact iff_true_intro (.refl _)
  cases op with
  | create id now orig pre principal ttl onTimeout =>
    simp only [StoreOp.apply, StoreOp.Undone]
    rcases create_error (errorOf_eq_some h) with ⟨hfull, hs⟩ | ⟨hroom, hs⟩
    · rw [hs]
      exact iff_of_true (.refl s) (Or.inl hfull)
    · rw [hs, bounced_sameStore_iff]
      have : ¬ s.config.maxPendingGlobal ≤ s.pendingCount := Nat.not_le.mpr hroom
      simp [this]
  | fail now id failure =>
    simp only [StoreOp.apply, StoreOp.Undone]
    rcases fail_error (errorOf_eq_some h) with ⟨hs, hother⟩ | ⟨e, he, hst, hs⟩
    · rw [hs]
      exact iff_of_true (.refl s) fun e he hst => absurd hst (hother e he)
    · rw [hs, put_sameStore_iff he]
      constructor
      · intro heq e' he' _
        rw [he] at he'
        cases he'
        exact (congrArg (·.task.failure) heq).symm
      · intro hall
        have hfailure := hall e he hst
        simp [← hfailure]
  | transition now id newStatus reason => exact same (transition_error (errorOf_eq_some h))
  | transitionIf now id expected newStatus reason => exact same (transitionIf_error (errorOf_eq_some h))
  | recordApproval now id decision decidedBy validFor => exact same (recordApproval_error (errorOf_eq_some h))
  | complete now id result => exact same (complete_error (errorOf_eq_some h))
  | cancel now id => exact same (cancel_error (errorOf_eq_some h))
  | recordAutoApproveResult now id result approval =>
    exact same (recordAutoApproveResult_error (errorOf_eq_some h))
  | expireOverdue now | cleanupTerminal now | failAllPending now reason => cases h

section

attribute [local instance] Sample.f64Fmt Sample.sha256

/-- A principal at its limit: the refused creation is undone. -/
theorem failed_call_same_sample :
    ∃ s, (storeMachine { maxPendingPerPrincipal := 1 }).Reachable s ∧
      SameStore s ((StoreOp.create "tg_2" 1 Sample.request Sample.request Sample.principal none .deny).apply s) := by
  have hrun : ((storeMachine { maxPendingPerPrincipal := 1 }).exec
      (storeMachine { maxPendingPerPrincipal := 1 }).init
      [.create "tg_1" 0 Sample.request Sample.request Sample.principal none .deny]).any
        (fun s => decide ((StoreOp.create "tg_2" 1 Sample.request Sample.request Sample.principal none .deny).error s =
            some (.rateLimited Sample.principal.rateLimitKey (Duration.fromSecs 60)) ∧
          (s.pendingByPrincipal.lookup Sample.principal.rateLimitKey).isSome)) = true := by
    decide
  obtain ⟨s, hreach, htest⟩ := Machine.exists_reachable_of_exec hrun
  obtain ⟨herr, hkey⟩ := of_decide_eq_true htest
  exact ⟨s, hreach, (failed_call_same_iff herr).mpr (Or.inr hkey)⟩

/-- `fail` on a task that waits for a decision is refused and leaves the failure in it; a creation refused for its
bytes leaves a counter of zero for its principal. -/
theorem failed_call_leaves_traces :
    (∃ s, (storeMachine {}).Reachable s ∧
      (StoreOp.fail 2 "tg_1" ⟨.serviceShutdown, "shutdown", true⟩).error s =
        some (.invalidTransition "tg_1" .inputRequired .failed) ∧
      ¬ SameStore s ((StoreOp.fail 2 "tg_1" ⟨.serviceShutdown, "shutdown", true⟩).apply s)) ∧
    (∃ s, (storeMachine { maxPendingBytes := 100 }).Reachable s ∧
      (StoreOp.create "tg_1" 0 Sample.request Sample.request Sample.principal none .deny).error s =
        some .capacityExceeded ∧
      ¬ SameStore s ((StoreOp.create "tg_1" 0 Sample.request Sample.request Sample.principal none .deny).apply s)) := by
  constructor
  · have hrun : ((storeMachine {}).exec (storeMachine {}).init
        [.create "tg_1" 0 Sample.request Sample.request Sample.principal none .deny,
         .transition 1 "tg_1" .inputRequired none]).any
          (fun s => decide ((StoreOp.fail 2 "tg_1" ⟨.serviceShutdown, "shutdown", true⟩).error s =
              some (.invalidTransition "tg_1" .inputRequired .failed) ∧
            (((StoreOp.fail 2 "tg_1" ⟨.serviceShutdown, "shutdown", true⟩).apply s).tasks.lookup "tg_1").map
                (·.task.failure) ≠ (s.tasks.lookup "tg_1").map (·.task.failure))) = true := by
      decide
    obtain ⟨s, hreach, htest⟩ := Machine.exists_reachable_of_exec hrun
    obtain ⟨herr, hfailure⟩ := of_decide_eq_true htest
    exact ⟨s, hreach, herr, fun hsame => hfailure (congrArg _ (hsame.tasks "tg_1"))⟩
  · have hrun : ((storeMachine { maxPendingBytes := 100 }).exec (storeMachine { maxPendingBytes := 100 }).init []).any
          (fun s => decide ((StoreOp.create "tg_1" 0 Sample.request Sample.request Sample.principal none
              .deny).error s = some .capacityExceeded ∧
            ((StoreOp.create "tg_1" 0 Sample.request Sample.request Sample.principal none
              .deny).apply s).pendingByPrincipal.lookup Sample.principal.rateLimitKey ≠
              s.pendingByPrincipal.lookup Sample.principal.rateLimitKey)) = true := by
      decide
    obtain ⟨s, hreach, htest⟩ := Machine.exists_reachable_of_exec hrun
    obtain ⟨herr, hkey⟩ := of_decide_eq_true htest
    exact ⟨s, hreach, herr, fun hsame => hkey (hsame.pendingByPrincipal _)⟩

end

end ThoughtGate
