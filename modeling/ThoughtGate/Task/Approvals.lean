import ThoughtGate.Task.Effects

/-!
# Who decided

The approval record of a task is written by `record_approval` and by `record_auto_approve_result`, and by nothing else in the
store: every other operation leaves the records that it finds, and a new task has none. `ApprovalsIn.apply` says so for all
operations at once, of whatever is known about the records.
-/

namespace ThoughtGate

open TaskStore

/-- Every approval record in the store is one of those. -/
def ApprovalsIn (P : TaskId → ApprovalRecord → Prop) (s : TaskStore) : Prop :=
  ∀ id e r, s.tasks.lookup id = some e → e.task.approval = some r → P id r

/-- A task whose record, if any, is one of those. -/
def Task.ApprovalIn (P : ApprovalRecord → Prop) (t : Task) : Prop := ∀ r, t.approval = some r → P r

namespace Task.ApprovalIn

variable {P : ApprovalRecord → Prop} {t t' : Task}

theorem of_eq (h : t.ApprovalIn P) (hsame : t'.approval = t.approval) : t'.ApprovalIn P := by
  intro r hr
  rw [hsame] at hr
  exact h r hr

theorem transition (h : t.ApprovalIn P) {now : DateTime} {newStatus : TaskStatus} {reason : Option String}
    (ht : t.transition now newStatus reason = .ok t') : t'.ApprovalIn P := by
  obtain ⟨-, rfl⟩ := Task.transition_ok ht
  exact h

end Task.ApprovalIn

namespace ApprovalsIn

variable {P : TaskId → ApprovalRecord → Prop} {s : TaskStore} {id : TaskId} {e : TaskEntry}

theorem task (hs : ApprovalsIn P s) (he : s.tasks.lookup id = some e) : e.task.ApprovalIn (P id) :=
  fun r hr => hs id e r he hr

theorem new (P : TaskId → ApprovalRecord → Prop) (config : TaskStoreConfig) : ApprovalsIn P (.new config) := by
  intro id e r he
  cases he

theorem mono {Q : TaskId → ApprovalRecord → Prop} (hs : ApprovalsIn P s) (h : ∀ id r, P id r → Q id r) :
    ApprovalsIn Q s :=
  fun id e r he hr => h id r (hs id e r he hr)

theorem of_tasks (hs : ApprovalsIn P s) {s' : TaskStore} (h : s'.tasks = s.tasks) : ApprovalsIn P s' := by
  intro id e r he
  rw [h] at he
  exact hs id e r he

theorem of_insert (hs : ApprovalsIn P s) {s' : TaskStore} (h : s'.tasks = s.tasks.insert id e)
    (he : e.task.ApprovalIn (P id)) : ApprovalsIn P s' := by
  intro j e' r he' hr
  rw [h] at he'
  by_cases hj : j = id
  · subst hj
    rw [AList.lookup_insert] at he'
    cases he'
    exact he r hr
  · rw [AList.lookup_insert_ne hj] at he'
    exact hs j e' r he' hr

theorem put (hs : ApprovalsIn P s) (he : e.task.ApprovalIn (P id)) : ApprovalsIn P (s.put id e) := hs.of_insert rfl he

theorem becomeTerminal (hs : ApprovalsIn P s) (now : DateTime) (he : e.task.ApprovalIn (P id)) :
    ApprovalsIn P (s.becomeTerminal now id e) := by
  intro j e' r he' hr
  by_cases hj : j = id
  · subst hj
    rw [becomeTerminal_lookup] at he'
    cases he'
    exact he r hr
  · rw [becomeTerminal_lookup_ne _ _ _ hj] at he'
    exact hs j e' r he' hr

theorem settle (hs : ApprovalsIn P s) (now : DateTime) {task : Task} (ht : task.ApprovalIn (P id)) :
    ApprovalsIn P (s.settle now id e task) := by
  unfold TaskStore.settle
  split
  · exact hs.becomeTerminal now ht
  · exact hs.put ht

/-! ### The operations -/

theorem transition (hs : ApprovalsIn P s) (now : DateTime) (id : TaskId) (newStatus : TaskStatus) (reason : Option String) :
    ApprovalsIn P (s.transition now id newStatus reason).2 := by
  unfold TaskStore.transition
  split
  · exact hs
  · rename_i e he
    split
    · exact hs
    · rename_i t' ht
      exact hs.settle now ((hs.task he).transition ht)

theorem transitionIf (hs : ApprovalsIn P s) (now : DateTime) (id : TaskId) (expected newStatus : TaskStatus)
    (reason : Option String) : ApprovalsIn P (s.transitionIf now id expected newStatus reason).2 := by
  unfold TaskStore.transitionIf
  split
  · exact hs
  · rename_i e he
    split
    · exact hs
    · rename_i t' ht
      exact hs.settle now ((hs.task he).transition (Task.transitionIf_ok ht).2)

theorem recordApproval (hs : ApprovalsIn P s) (now : DateTime) (id : TaskId) {decision : ApprovalDecision}
    {decidedBy : String} {validFor : Duration}
    (hnew : P id ⟨decision, decidedBy, now, now + validFor.toChrono.getD 0, none⟩) :
    ApprovalsIn P (s.recordApproval now id decision decidedBy validFor).2 := by
  unfold TaskStore.recordApproval
  split
  · exact hs
  · rename_i e he
    split
    · exact hs
    · have hrecord : { e.task with
          approval := some ⟨decision, decidedBy, now, now + validFor.toChrono.getD 0, none⟩ }.ApprovalIn (P id) := by
        intro r hr
        cases hr
        exact hnew
      dsimp only
      split
      · exact hs.put hrecord
      · rename_i t' ht
        exact hs.settle now (hrecord.transition ht)

theorem complete (hs : ApprovalsIn P s) (now : DateTime) (id : TaskId) (result : ToolCallResult) :
    ApprovalsIn P (s.complete now id result).2 := by
  unfold TaskStore.complete
  split
  · exact hs
  · rename_i e he
    split
    · exact hs
    · have hsame : { e.task with result := some result }.ApprovalIn (P id) := (hs.task he).of_eq rfl
      dsimp only
      split
      · exact hs.put hsame
      · rename_i t' ht
        exact hs.becomeTerminal now (hsame.transition ht)

theorem fail (hs : ApprovalsIn P s) (now : DateTime) (id : TaskId) (failure : FailureInfo) :
    ApprovalsIn P (s.fail now id failure).2 := by
  unfold TaskStore.fail
  split
  · exact hs
  · rename_i e he
    split
    · exact hs
    · have hsame : { e.task with failure := some failure }.ApprovalIn (P id) := (hs.task he).of_eq rfl
      dsimp only
      split
      · exact hs.put hsame
      · rename_i t' ht
        exact hs.becomeTerminal now (hsame.transition ht)

theorem cancel (hs : ApprovalsIn P s) (now : DateTime) (id : TaskId) : ApprovalsIn P (s.cancel now id).2 := by
  unfold TaskStore.cancel
  split
  · exact hs
  · rename_i e he
    split
    · split_ifs <;> exact hs
    · split
      · exact hs
      · rename_i t' ht
        exact hs.becomeTerminal now ((hs.task he).transition ht)

theorem recordAutoApproveResult (hs : ApprovalsIn P s) (now : DateTime) (id : TaskId) (result : ToolCallResult)
    {approval : ApprovalRecord} (hnew : P id approval) :
    ApprovalsIn P (s.recordAutoApproveResult now id result approval).2 := by
  unfold TaskStore.recordAutoApproveResult
  split
  · exact hs
  · refine hs.put ?_
    intro r hr
    cases hr
    exact hnew

theorem expireOne {acc : Nat × TaskStore} (hs : ApprovalsIn P acc.2) (now : DateTime) (id : TaskId) :
    ApprovalsIn P (TaskStore.expireOne now acc id).2 := by
  unfold TaskStore.expireOne
  split
  · exact hs
  · rename_i e he
    split
    · split
      · exact hs
      · rename_i t' ht
        exact hs.becomeTerminal now ((hs.task he).transition ht)
    · exact hs

theorem expireOverdue (hs : ApprovalsIn P s) (now : DateTime) : ApprovalsIn P (s.expireOverdue now).2 :=
  List.foldlRecOn (motive := fun acc : Nat × TaskStore => ApprovalsIn P acc.2) _ _ hs
    fun _ hacc id _ => hacc.expireOne now id

theorem failOne {acc : Nat × TaskStore} (hs : ApprovalsIn P acc.2) (now : DateTime) (failure : FailureInfo) (id : TaskId) :
    ApprovalsIn P (TaskStore.failOne now failure acc id).2 := by
  have hfail : ApprovalsIn P (acc.2.fail now id failure).2 := hs.fail now id failure
  unfold TaskStore.failOne
  split <;> simpa [*] using hfail

theorem failAllPending (hs : ApprovalsIn P s) (now : DateTime) (reason : String) :
    ApprovalsIn P (s.failAllPending now reason).2 :=
  List.foldlRecOn (motive := fun acc : Nat × TaskStore => ApprovalsIn P acc.2) _ _ hs
    fun _ hacc id _ => hacc.failOne now _ id

theorem cleanupOne (hs : ApprovalsIn P s) (id : TaskId) : ApprovalsIn P (s.cleanupOne id) := by
  cases hid : s.tasks.lookup id with
  | none =>
    rw [TaskStore.cleanupOne, hid]
    exact hs
  | some e =>
    obtain ⟨index, hframe⟩ := cleanupOne_frame hid
    rw [hframe]
    intro j e' r he'
    by_cases hj : j = id
    · rw [hj, AList.lookup_erase] at he'
      cases he'
    · rw [AList.lookup_erase_ne hj] at he'
      exact hs j e' r he'

theorem cleanupTerminal (hs : ApprovalsIn P s) (now : DateTime) : ApprovalsIn P (s.cleanupTerminal now).2 :=
  List.foldlRecOn (motive := ApprovalsIn P) _ _ hs fun _ hs id _ => hs.cleanupOne id

variable [F64.Fmt] [Sha256]

theorem create (hs : ApprovalsIn P s) (id : TaskId) (now : DateTime) (orig pre : ToolCallRequest) (principal : Principal)
    (ttl : Option Duration) (onTimeout : TimeoutAction) :
    ApprovalsIn P (s.create id now orig pre principal ttl onTimeout).2 := by
  unfold TaskStore.create
  split
  · exact hs
  · dsimp only
    split
    · exact hs.of_tasks (bounced_tasks s _)
    · split
      · exact hs.of_tasks (bounced_tasks s _)
      · rename_i task htask
        split
        · exact hs.of_tasks (bounced_tasks s _)
        · obtain ⟨rfl, rfl, -, -, hnone, -⟩ := Task.new_ok htask
          refine hs.of_insert (admitted_tasks s _ task _) ?_
          intro r hr
          dsimp only at hr
          rw [hnone] at hr
          cases hr

end ApprovalsIn

/-- The record that an operation may write. -/
def StoreOp.decides : StoreOp → TaskId → ApprovalRecord → Prop
  | .recordApproval now id decision decidedBy validFor, id', r =>
    id' = id ∧ r = ⟨decision, decidedBy, now, now + validFor.toChrono.getD 0, none⟩
  | .recordAutoApproveResult _ id _ approval, id', r => id' = id ∧ r = approval
  | _, _, _ => False

/-- After an operation, every record was there before or is the one that the operation writes. -/
theorem ApprovalsIn.apply [F64.Fmt] [Sha256] {P : TaskId → ApprovalRecord → Prop} {s : TaskStore} (hs : ApprovalsIn P s)
    (o : StoreOp) (hnew : ∀ id r, o.decides id r → P id r) : ApprovalsIn P (o.apply s) := by
  cases o with
  | create id now orig pre principal ttl onTimeout => exact hs.create id now orig pre principal ttl onTimeout
  | transition now id newStatus reason => exact hs.transition now id newStatus reason
  | transitionIf now id expected newStatus reason => exact hs.transitionIf now id expected newStatus reason
  | recordApproval now id decision decidedBy validFor => exact hs.recordApproval now id (hnew id _ ⟨rfl, rfl⟩)
  | complete now id result => exact hs.complete now id result
  | fail now id failure => exact hs.fail now id failure
  | cancel now id => exact hs.cancel now id
  | recordAutoApproveResult now id result approval => exact hs.recordAutoApproveResult now id result (hnew id _ ⟨rfl, rfl⟩)
  | expireOverdue now => exact hs.expireOverdue now
  | cleanupTerminal now => exact hs.cleanupTerminal now
  | failAllPending now reason => exact hs.failAllPending now reason

end ThoughtGate
