import ThoughtGate.Task.Store

/-!
# What a store operation can do

Every operation of the store is a sequence of five elementary effects (`Effect`): an entry's task is rewritten
without becoming terminal, a task becomes terminal with its bookkeeping, a task is accepted, a creation is
refused and rolled back, a terminal task is removed. What may happen to the task itself is `TaskStep`.
`StoreOp.apply_effects` is the one place that goes through the operations; the invariants of the store are
proved per effect.

The effects need that entries are stored under their own id and carry a terminal time exactly when they are
terminal (`WellKeyed`), which the effects keep.
-/

namespace ThoughtGate

open Relation (ReflTransGen)

/-- How one operation changes a stored task. `auto` bounds the approvals that
`record_auto_approve_result` writes. -/
inductive TaskStep (auto : ApprovalRecord → Prop) : Task → Task → Prop
  | move {t t' : Task} {now : DateTime} {newStatus : TaskStatus} {reason : Option String} :
      t.transition now newStatus reason = .ok t' → TaskStep auto t t'
  | decided {t t' : Task} {now : DateTime} {r : ApprovalRecord} {reason : Option String} :
      { t with approval := some r }.transition now (TaskStore.decisionTarget r.decision).1 reason = .ok t' →
      TaskStep auto t t'
  | completed {t t' : Task} {now : DateTime} {result : ToolCallResult} {reason : Option String} :
      { t with result := some result }.transition now .completed reason = .ok t' → TaskStep auto t t'
  | failed {t t' : Task} {now : DateTime} {failure : FailureInfo} {reason : Option String} :
      { t with failure := some failure }.transition now .failed reason = .ok t' → TaskStep auto t t'
  | noted {t : Task} {failure : FailureInfo} :
      t.status.isTerminal = false → TaskStep auto t { t with failure := some failure }
  | autoResult {t : Task} {now : DateTime} {result : ToolCallResult} {r : ApprovalRecord}
      {reason : Option String} :
      auto r → TaskStep auto t { t with
        result := some result
        approval := some r
        transitions := t.transitions ++ [⟨.expired, .expired, now, reason⟩] }

/-- What a task keeps for life. -/
structure SameOrigin (t t' : Task) : Prop where
  id : t'.id = t.id
  originalRequest : t'.originalRequest = t.originalRequest
  preApprovalTransformed : t'.preApprovalTransformed = t.preApprovalTransformed
  requestHash : t'.requestHash = t.requestHash
  principal : t'.principal = t.principal
  createdAt : t'.createdAt = t.createdAt
  ttl : t'.ttl = t.ttl
  expiresAt : t'.expiresAt = t.expiresAt
  onTimeout : t'.onTimeout = t.onTimeout

theorem SameOrigin.refl (t : Task) : SameOrigin t t := ⟨rfl, rfl, rfl, rfl, rfl, rfl, rfl, rfl, rfl⟩

theorem SameOrigin.of_transition {t t' : Task} {now : DateTime} {newStatus : TaskStatus}
    {reason : Option String} (h : t.transition now newStatus reason = .ok t') : SameOrigin t t' := by
  obtain ⟨_, rfl⟩ := Task.transition_ok h
  exact ⟨rfl, rfl, rfl, rfl, rfl, rfl, rfl, rfl, rfl⟩

namespace TaskStep

variable {auto : ApprovalRecord → Prop} {t t' : Task}

theorem sameOrigin (h : TaskStep auto t t') : SameOrigin t t' := by
  cases h with
  | move h => exact SameOrigin.of_transition h
  | decided h | completed h | failed h =>
    have := SameOrigin.of_transition h
    exact ⟨this.id, this.originalRequest, this.preApprovalTransformed, this.requestHash, this.principal,
      this.createdAt, this.ttl, this.expiresAt, this.onTimeout⟩
  | noted _ | autoResult _ => exact ⟨rfl, rfl, rfl, rfl, rfl, rfl, rfl, rfl, rfl⟩

/-- The status stays or follows an edge of the status machine. -/
theorem status (h : TaskStep auto t t') :
    t'.status = t.status ∨ t.status.canTransitionTo t'.status = true := by
  cases h with
  | move h | decided h | completed h | failed h =>
    obtain ⟨hcan, rfl⟩ := Task.transition_ok h
    exact Or.inr hcan
  | noted _ | autoResult _ => exact Or.inl rfl

theorem mono {auto' : ApprovalRecord → Prop} (hauto : ∀ r, auto r → auto' r) (h : TaskStep auto t t') :
    TaskStep auto' t t' := by
  cases h with
  | move h => exact .move h
  | decided h => exact .decided h
  | completed h => exact .completed h
  | failed h => exact .failed h
  | noted h => exact .noted h
  | autoResult h => exact .autoResult (hauto _ h)

end TaskStep

namespace TaskStore

/-! ### Fields of the elementary updates -/

@[simp] theorem put_tasks (s : TaskStore) (id : TaskId) (e : TaskEntry) :
    (s.put id e).tasks = s.tasks.insert id e := rfl
@[simp] theorem put_config (s : TaskStore) (id : TaskId) (e : TaskEntry) : (s.put id e).config = s.config := rfl
@[simp] theorem put_pendingCount (s : TaskStore) (id : TaskId) (e : TaskEntry) :
    (s.put id e).pendingCount = s.pendingCount := rfl
@[simp] theorem put_pendingBytes (s : TaskStore) (id : TaskId) (e : TaskEntry) :
    (s.put id e).pendingBytes = s.pendingBytes := rfl
@[simp] theorem put_principalCount (s : TaskStore) (id : TaskId) (e : TaskEntry) (k : String) :
    (s.put id e).principalCount k = s.principalCount k := rfl

@[simp] theorem principalEntry_tasks (s : TaskStore) (key : String) :
    (s.principalEntry key).tasks = s.tasks := by
  unfold principalEntry
  split <;> rfl

@[simp] theorem principalEntry_config (s : TaskStore) (key : String) :
    (s.principalEntry key).config = s.config := by
  unfold principalEntry
  split <;> rfl

@[simp] theorem principalEntry_pendingCount (s : TaskStore) (key : String) :
    (s.principalEntry key).pendingCount = s.pendingCount := by
  unfold principalEntry
  split <;> rfl

@[simp] theorem principalEntry_pendingBytes (s : TaskStore) (key : String) :
    (s.principalEntry key).pendingBytes = s.pendingBytes := by
  unfold principalEntry
  split <;> rfl

@[simp] theorem principalEntry_principalCount (s : TaskStore) (key key' : String) :
    (s.principalEntry key).principalCount key' = s.principalCount key' := by
  unfold principalEntry
  split
  · rfl
  · rename_i hnone
    unfold principalCount
    by_cases hk : key' = key
    · subst hk
      simp [hnone]
    · simp [AList.lookup_insert_ne hk]

@[simp] theorem removePrincipalIfZero_tasks (s : TaskStore) (key : String) :
    (s.removePrincipalIfZero key).tasks = s.tasks := by
  unfold removePrincipalIfZero
  split <;> rfl

@[simp] theorem removePrincipalIfZero_config (s : TaskStore) (key : String) :
    (s.removePrincipalIfZero key).config = s.config := by
  unfold removePrincipalIfZero
  split <;> rfl

@[simp] theorem decrementPendingCounters_tasks (s : TaskStore) (t : Task) (n : Nat) :
    (s.decrementPendingCounters t n).tasks = s.tasks := by
  unfold decrementPendingCounters
  dsimp only
  split
  · rfl
  · split
    · rw [removePrincipalIfZero_tasks]; rfl
    · rfl

@[simp] theorem decrementPendingCounters_config (s : TaskStore) (t : Task) (n : Nat) :
    (s.decrementPendingCounters t n).config = s.config := by
  unfold decrementPendingCounters
  dsimp only
  split
  · rfl
  · split
    · rw [removePrincipalIfZero_config]; rfl
    · rfl

@[simp] theorem becomeTerminal_config (s : TaskStore) (now : DateTime) (id : TaskId) (e : TaskEntry) :
    (s.becomeTerminal now id e).config = s.config := by
  simp [becomeTerminal]

theorem unindexTask_frame (s : TaskStore) (key : String) (id : TaskId) :
    ∃ index, s.unindexTask key id = { s with byPrincipal := index } := by
  unfold unindexTask
  split
  · exact ⟨_, rfl⟩
  · dsimp only
    split <;> exact ⟨_, rfl⟩

theorem cleanupOne_frame {s : TaskStore} {id : TaskId} {e : TaskEntry} (he : s.tasks.lookup id = some e) :
    ∃ index, s.cleanupOne id = { s with tasks := s.tasks.erase id, byPrincipal := index } := by
  rw [cleanupOne, he]
  exact unindexTask_frame _ _ _

/-- The entry of a task that became terminal, as it is stored. -/
def terminalEntry (now : DateTime) (e : TaskEntry) : TaskEntry :=
  { e with terminalAt := some now, notifications := e.notifications + 1 }

theorem becomeTerminal_lookup (s : TaskStore) (now : DateTime) (id : TaskId) (e : TaskEntry) :
    (s.becomeTerminal now id e).tasks.lookup id = some (terminalEntry now e) := by
  simp [becomeTerminal, terminalEntry]

theorem becomeTerminal_lookup_ne (s : TaskStore) (now : DateTime) {id id' : TaskId} (e : TaskEntry)
    (h : id' ≠ id) : (s.becomeTerminal now id e).tasks.lookup id' = s.tasks.lookup id' := by
  simp [becomeTerminal, AList.lookup_insert_ne h]

/-- The store after a refused creation: slots taken and given back. -/
def bounced (s : TaskStore) (key : String) : TaskStore :=
  ((({ s with pendingCount := s.pendingCount + 1 }).principalEntry key).addPrincipal key).rollback key

/-- The store after an admitted creation. -/
def admitted (s : TaskStore) (id : TaskId) (task : Task) (estimatedBytes : Nat) : TaskStore :=
  let key := task.principal.rateLimitKey
  let s := (({ s with pendingCount := s.pendingCount + 1 }).principalEntry key).addPrincipal key
  let s := { s with pendingBytes := s.pendingBytes + estimatedBytes }
  let s := s.put id { task, terminalAt := none, notifications := 0, estimatedBytes }
  s.indexTask key id

@[simp] theorem bounced_tasks (s : TaskStore) (key : String) : (s.bounced key).tasks = s.tasks := by
  simp [bounced, rollback, subPendingCount, subPrincipal, addPrincipal]

@[simp] theorem bounced_config (s : TaskStore) (key : String) : (s.bounced key).config = s.config := by
  simp [bounced, rollback, subPendingCount, subPrincipal, addPrincipal]

@[simp] theorem admitted_tasks (s : TaskStore) (id : TaskId) (task : Task) (n : Nat) :
    (s.admitted id task n).tasks =
      s.tasks.insert id { task, terminalAt := none, notifications := 0, estimatedBytes := n } := by
  simp [admitted, addPrincipal, indexTask]

@[simp] theorem admitted_config (s : TaskStore) (id : TaskId) (task : Task) (n : Nat) :
    (s.admitted id task n).config = s.config := by
  simp [admitted, addPrincipal, indexTask, put]

end TaskStore

/-! ### Effects -/

open TaskStore

/-- One elementary effect of an operation; `new` says which ids may be accepted. -/
inductive Effect (new : TaskId → Prop) (auto : ApprovalRecord → Prop) : TaskStore → TaskStore → Prop
  | touch {s : TaskStore} {id : TaskId} {e : TaskEntry} {t' : Task} :
      s.tasks.lookup id = some e → TaskStep auto e.task t' →
      t'.status.isTerminal = e.task.status.isTerminal → Effect new auto s (s.put id { e with task := t' })
  | finish {s : TaskStore} {now : DateTime} {id : TaskId} {e : TaskEntry} {t' : Task} :
      s.tasks.lookup id = some e → TaskStep auto e.task t' → e.task.status.isTerminal = false →
      t'.status.isTerminal = true → Effect new auto s (s.becomeTerminal now id { e with task := t' })
  | accept {s : TaskStore} {id : TaskId} {task : Task} {estimatedBytes : Nat} :
      new id → s.tasks.lookup id = none → task.id = id → task.status = .working → task.transitions = [] →
      task.approval = none → task.result = none → task.failure = none →
      s.pendingCount < s.config.maxPendingGlobal →
      s.principalCount task.principal.rateLimitKey < s.config.maxPendingPerPrincipal →
      s.pendingBytes + estimatedBytes ≤ s.config.maxPendingBytes →
      Effect new auto s (s.admitted id task estimatedBytes)
  | bounce {s : TaskStore} {key : String} :
      s.pendingCount < s.config.maxPendingGlobal → Effect new auto s (s.bounced key)
  | drop {s : TaskStore} {id : TaskId} {e : TaskEntry} :
      s.tasks.lookup id = some e → e.terminalAt.isSome → Effect new auto s (s.cleanupOne id)

/-- A sequence of effects. -/
abbrev Effects (new : TaskId → Prop) (auto : ApprovalRecord → Prop) : TaskStore → TaskStore → Prop :=
  ReflTransGen (Effect new auto)

/-- Entries are stored under their own id and have a terminal time exactly when they are terminal. -/
def WellKeyed (s : TaskStore) : Prop :=
  s.tasks.All fun id e => e.task.id = id ∧ e.terminalAt.isSome = e.task.status.isTerminal

theorem Effects.invariant {new : TaskId → Prop} {auto : ApprovalRecord → Prop} {I : TaskStore → Prop}
    (hstep : ∀ s s', I s → Effect new auto s s' → I s') {s s' : TaskStore} (hs : I s) (h : Effects new auto s s') :
    I s' := by
  induction h with
  | refl => exact hs
  | tail _ heff ih => exact hstep _ _ ih heff

theorem WellKeyed.effect {new : TaskId → Prop} {auto : ApprovalRecord → Prop} {s s' : TaskStore} (hs : WellKeyed s)
    (h : Effect new auto s s') : WellKeyed s' := by
  cases h with
  | @touch id e t' he hstep hterm =>
    obtain ⟨hid, hat⟩ := hs id e he
    refine Table.All.insert hs ⟨?_, ?_⟩
    · exact hstep.sameOrigin.id.trans hid
    · rw [hat, hterm]
  | @finish now id e t' he hstep _ hterm =>
    have hid : t'.id = id := hstep.sameOrigin.id.trans (hs id e he).1
    simp only [WellKeyed, becomeTerminal, put_tasks, decrementPendingCounters_tasks]
    refine Table.All.insert (Table.All.insert hs ⟨hid, ?_⟩) ⟨hid, ?_⟩
    · simp [hterm]
    · simp [hterm]
  | accept _ _ hid hst =>
    rw [WellKeyed, admitted_tasks]
    refine Table.All.insert hs ⟨hid, ?_⟩
    simp [hst, TaskStatus.isTerminal]
  | bounce _ =>
    rw [WellKeyed, bounced_tasks]
    exact hs
  | @drop id e he _ =>
    obtain ⟨index, hframe⟩ := cleanupOne_frame he
    rw [hframe]
    exact Table.All.erase hs id

theorem Effect.config {new : TaskId → Prop} {auto : ApprovalRecord → Prop} {s s' : TaskStore} (h : Effect new auto s s') :
    s'.config = s.config := by
  cases h with
  | touch => rfl
  | finish => exact becomeTerminal_config _ _ _ _
  | accept => exact admitted_config _ _ _ _
  | bounce => exact bounced_config _ _
  | drop he =>
    obtain ⟨index, hframe⟩ := cleanupOne_frame he
    rw [hframe]

theorem WellKeyed.effects {new : TaskId → Prop} {auto : ApprovalRecord → Prop} {s s' : TaskStore} (hs : WellKeyed s)
    (h : Effects new auto s s') : WellKeyed s' :=
  Effects.invariant (fun _ _ => WellKeyed.effect) hs h

/-! ### The operations as effects -/

section Operations

variable {new : TaskId → Prop} {auto : ApprovalRecord → Prop} {s : TaskStore}

theorem settle_effect {now : DateTime} {id : TaskId} {e : TaskEntry} {t' : Task}
    (he : s.tasks.lookup id = some e) (hstep : TaskStep auto e.task t') :
    Effect new auto s (s.settle now id e t') := by
  unfold settle
  split
  · rename_i hcond
    rw [Bool.and_eq_true, Bool.not_eq_true'] at hcond
    exact .finish he hstep hcond.1 hcond.2
  · rename_i hcond
    refine .touch he hstep ?_
    rcases hstep.status with hsame | hcan
    · rw [hsame]
    · have hlive := TaskStatus.canTransitionTo_not_terminal hcan
      simpa [hlive] using hcond

theorem transition_effects (s : TaskStore) (now : DateTime) (id : TaskId) (newStatus : TaskStatus)
    (reason : Option String) : Effects new auto s (s.transition now id newStatus reason).2 := by
  unfold transition
  split
  · exact .refl
  · rename_i e he
    split
    · exact .refl
    · rename_i t' ht
      exact .single (settle_effect he (.move ht))

theorem transitionIf_effects (s : TaskStore) (now : DateTime) (id : TaskId) (expected newStatus : TaskStatus)
    (reason : Option String) : Effects new auto s (s.transitionIf now id expected newStatus reason).2 := by
  unfold transitionIf
  split
  · exact .refl
  · rename_i e he
    split
    · exact .refl
    · rename_i t' ht
      exact .single (settle_effect he (.move (Task.transitionIf_ok ht).2))

theorem recordApproval_effects (s : TaskStore) (now : DateTime) (id : TaskId) (decision : ApprovalDecision)
    (decidedBy : String) (validFor : Duration) :
    Effects new auto s (s.recordApproval now id decision decidedBy validFor).2 := by
  unfold recordApproval
  split
  · exact .refl
  · rename_i e he
    split
    · exact .refl
    · rename_i hst
      rw [not_not] at hst
      dsimp only
      split
      · rename_i err herr
        -- both edges out of `InputRequired` exist, so the transition is never refused
        have hcan : e.task.status.canTransitionTo (decisionTarget decision).1 = true := by
          rw [hst]
          cases decision <;> rfl
        obtain ⟨t', ht⟩ := Task.transition_of_can (t := { e.task with approval := some _ }) now
          (decisionTarget decision).2 hcan
        rw [ht] at herr
        cases herr
      · rename_i t' ht
        exact .single (settle_effect he (.decided ht))

theorem complete_effects (s : TaskStore) (now : DateTime) (id : TaskId) (result : ToolCallResult) :
    Effects new auto s (s.complete now id result).2 := by
  unfold complete
  split
  · exact .refl
  · rename_i e he
    split
    · exact .refl
    · rename_i hst
      rw [not_not] at hst
      dsimp only
      split
      · rename_i err herr
        have hcan : e.task.status.canTransitionTo .completed = true := by rw [hst]; rfl
        obtain ⟨t', ht⟩ := Task.transition_of_can (t := { e.task with result := some result }) now
          (some "Execution completed") hcan
        rw [ht] at herr
        cases herr
      · rename_i t' ht
        refine .single (.finish he (.completed ht) (by rw [hst]; rfl) ?_)
        obtain ⟨_, rfl⟩ := Task.transition_ok ht
        rfl

theorem fail_effects (s : TaskStore) (now : DateTime) (id : TaskId) (failure : FailureInfo) :
    Effects new auto s (s.fail now id failure).2 := by
  unfold fail
  split
  · exact .refl
  · rename_i e he
    split
    · exact .refl
    · rename_i hlive
      rw [Bool.not_eq_true] at hlive
      dsimp only
      split
      · exact .single (.touch he (.noted hlive) rfl)
      · rename_i t' ht
        refine .single (.finish he (.failed ht) hlive ?_)
        obtain ⟨_, rfl⟩ := Task.transition_ok ht
        rfl

theorem cancel_effects (s : TaskStore) (now : DateTime) (id : TaskId) :
    Effects new auto s (s.cancel now id).2 := by
  unfold cancel
  split
  · exact .refl
  · rename_i e he
    split
    · split_ifs <;> exact .refl
    · rename_i hst
      rw [not_not] at hst
      split
      · exact .refl
      · rename_i t' ht
        refine .single (.finish he (.move ht) (by rw [hst]; rfl) ?_)
        obtain ⟨_, rfl⟩ := Task.transition_ok ht
        rfl

theorem recordAutoApproveResult_effects (s : TaskStore) (now : DateTime) (id : TaskId)
    (result : ToolCallResult) {approval : ApprovalRecord} (hauto : auto approval) :
    Effects new auto s (s.recordAutoApproveResult now id result approval).2 := by
  unfold recordAutoApproveResult
  split
  · exact .refl
  · rename_i e he
    exact .single (.touch he (.autoResult hauto) rfl)

theorem expireOne_effects (now : DateTime) (acc : Nat × TaskStore) (id : TaskId) :
    Effects new auto acc.2 (expireOne now acc id).2 := by
  unfold expireOne
  split
  · exact .refl
  · rename_i e he
    split
    · rename_i hcond
      split
      · exact .refl
      · rename_i t' ht
        rw [Bool.and_eq_true, Bool.not_eq_true'] at hcond
        refine .single (.finish he (.move ht) hcond.1 ?_)
        obtain ⟨_, rfl⟩ := Task.transition_ok ht
        rfl
    · exact .refl

theorem expireOverdue_effects (s : TaskStore) (now : DateTime) : Effects new auto s (s.expireOverdue now).2 :=
  List.foldlRecOn (motive := fun acc : Nat × TaskStore => Effects new auto s acc.2) _ _ .refl
    fun acc h id _ => h.trans (expireOne_effects now acc id)

theorem failOne_effects (now : DateTime) (failure : FailureInfo) (acc : Nat × TaskStore) (id : TaskId) :
    Effects new auto acc.2 (failOne now failure acc id).2 := by
  have h : Effects new auto acc.2 (acc.2.fail now id failure).2 := fail_effects acc.2 now id failure
  unfold failOne
  split <;> simpa [*] using h

theorem failAllPending_effects (s : TaskStore) (now : DateTime) (reason : String) :
    Effects new auto s (s.failAllPending now reason).2 :=
  List.foldlRecOn (motive := fun acc : Nat × TaskStore => Effects new auto s acc.2) _ _ .refl
    fun acc h id _ => h.trans (failOne_effects now _ acc id)

/-- The ids that `cleanup_terminal` collects stay those of terminal entries while it removes them. -/
theorem cleanup_fold_effects (ids : List TaskId) {s : TaskStore}
    (hterm : ∀ id ∈ ids, ∀ e, s.tasks.lookup id = some e → e.terminalAt.isSome) :
    Effects new auto s (ids.foldl cleanupOne s) := by
  induction ids generalizing s with
  | nil => exact .refl
  | cons id ids ih =>
    have hrest : ∀ id' ∈ ids, ∀ e, (s.cleanupOne id).tasks.lookup id' = some e → e.terminalAt.isSome := by
      intro id' hid' e he
      refine hterm id' (List.mem_cons_of_mem _ hid') e ?_
      cases hid : s.tasks.lookup id with
      | none => rwa [cleanupOne, hid] at he
      | some e' =>
        obtain ⟨index, hframe⟩ := cleanupOne_frame hid
        rw [hframe] at he
        by_cases hne : id' = id
        · subst hne
          simp at he
        · rwa [AList.lookup_erase_ne hne] at he
    refine Relation.ReflTransGen.trans ?_ (ih hrest)
    cases he : s.tasks.lookup id with
    | none => rw [cleanupOne, he]
    | some e => exact .single (.drop he (hterm id List.mem_cons_self e he))

theorem cleanupTerminal_effects (hs : WellKeyed s) (now : DateTime) :
    Effects new auto s (s.cleanupTerminal now).2 := by
  refine cleanup_fold_effects _ ?_
  intro id hid e he
  obtain ⟨⟨k, e'⟩, hmem, rfl⟩ := List.mem_map.mp hid
  obtain ⟨hin, hstale⟩ := List.mem_filter.mp hmem
  have hk := Table.mem_entries_iff.mp hin
  have : k = e'.task.id := (hs k e' hk).1.symm
  subst this
  rw [hk] at he
  cases he
  dsimp only at hstale
  split at hstale
  · simp [*]
  · cases hstale

variable [F64.Fmt] [Sha256]

theorem create_effects {id : TaskId} (now : DateTime) (orig pre : ToolCallRequest) (principal : Principal)
    (ttl : Option Duration) (onTimeout : TimeoutAction) (hnew : new id) (hfresh : s.tasks.lookup id = none) :
    Effects new auto s (s.create id now orig pre principal ttl onTimeout).2 := by
  unfold create
  split
  · exact .refl
  · rename_i hroom
    rw [Nat.not_le] at hroom
    dsimp only
    split
    · exact .single (.bounce hroom)
    · rename_i hslots
      split
      · exact .single (.bounce hroom)
      · rename_i task htask
        split
        · exact .single (.bounce hroom)
        · rename_i hbytes
          obtain ⟨hid, rfl, hst, htr, hap, hres, hfail⟩ := Task.new_ok htask
          refine .single (.accept hnew hfresh hid hst htr hap hres hfail hroom ?_ ?_)
          · simp only [addPrincipal, principalEntry_config, principalEntry_principalCount] at hslots
            exact Nat.lt_of_not_le hslots
          · simpa [addPrincipal] using hbytes

end Operations

/-- The approval a call of `record_auto_approve_result` carries. -/
def StoreOp.autoApproval : StoreOp → Option ApprovalRecord
  | .recordAutoApproveResult _ _ _ approval => some approval
  | _ => none

/-- Every operation is a sequence of effects. -/
theorem StoreOp.apply_effects [F64.Fmt] [Sha256] {auto : ApprovalRecord → Prop} {s : TaskStore} {op : StoreOp}
    (hs : WellKeyed s) (hfresh : ∀ id ∈ op.newId, s.tasks.lookup id = none)
    (hauto : ∀ r ∈ op.autoApproval, auto r) : Effects (fun id => op.newId = some id) auto s (op.apply s) := by
  cases op with
  | create id now orig pre principal ttl onTimeout =>
    exact create_effects now orig pre principal ttl onTimeout rfl (hfresh id rfl)
  | transition now id newStatus reason => exact transition_effects s now id newStatus reason
  | transitionIf now id expected newStatus reason => exact transitionIf_effects s now id expected newStatus reason
  | recordApproval now id decision decidedBy validFor =>
    exact recordApproval_effects s now id decision decidedBy validFor
  | complete now id result => exact complete_effects s now id result
  | fail now id failure => exact fail_effects s now id failure
  | cancel now id => exact cancel_effects s now id
  | recordAutoApproveResult now id result approval =>
    exact recordAutoApproveResult_effects s now id result (hauto approval rfl)
  | expireOverdue now => exact expireOverdue_effects s now
  | cleanupTerminal now => exact cleanupTerminal_effects hs now
  | failAllPending now reason => exact failAllPending_effects s now reason

/-- What every effect keeps from a well-keyed store on holds in every reachable store. -/
theorem storeMachine_invariant [F64.Fmt] [Sha256] {config : TaskStoreConfig} {I : TaskStore → Prop}
    (hinit : I (.new config))
    (hstep : ∀ new s s', WellKeyed s → I s → Effect new (fun _ => True) s s' → I s') {s : TaskStore}
    (h : (storeMachine config).Reachable s) : WellKeyed s ∧ I s := by
  have hnew : WellKeyed (.new config) := Table.All.empty _
  refine Machine.Reachable.invariant (I := fun s => WellKeyed s ∧ I s) ⟨hnew, hinit⟩ ?_ h
  intro s op s' hs hop
  simp only [storeMachine] at hop
  split at hop
  · rename_i hfresh
    cases hop
    exact Effects.invariant (I := fun s => WellKeyed s ∧ I s)
      (fun s s' hs heff => ⟨hs.1.effect heff, hstep _ s s' hs.1 hs.2 heff⟩) hs
      (StoreOp.apply_effects hs.1 hfresh fun _ _ => trivial)
  · cases hop

theorem reachable_wellKeyed [F64.Fmt] [Sha256] {config : TaskStoreConfig} {s : TaskStore}
    (h : (storeMachine config).Reachable s) : WellKeyed s :=
  (storeMachine_invariant (I := fun _ => True) trivial (fun _ _ _ _ _ _ => trivial) h).1

/-! ### The life of one task -/

section Life

variable {new : TaskId → Prop} {auto : ApprovalRecord → Prop} {s s' : TaskStore}

/-- What an effect does to one id: nothing, a step of its task, its acceptance, its removal. -/
theorem Effect.lookup_cases (h : Effect new auto s s') (id : TaskId) :
    s'.tasks.lookup id = s.tasks.lookup id ∨
    (∃ e e', s.tasks.lookup id = some e ∧ s'.tasks.lookup id = some e' ∧ TaskStep auto e.task e'.task) ∨
    (new id ∧ ∃ e, s'.tasks.lookup id = some e ∧ e.task.status = .working ∧ e.task.approval = none) ∨
    s'.tasks.lookup id = none := by
  cases h with
  | @touch id' e t' he hstep _ =>
    by_cases hid : id = id'
    · subst hid
      exact Or.inr (Or.inl ⟨e, _, he, AList.lookup_insert _, hstep⟩)
    · exact Or.inl (AList.lookup_insert_ne hid)
  | @finish now id' e t' he hstep _ _ =>
    by_cases hid : id = id'
    · subst hid
      exact Or.inr (Or.inl ⟨e, _, he, becomeTerminal_lookup _ _ _ _, hstep⟩)
    · exact Or.inl (becomeTerminal_lookup_ne _ _ _ hid)
  | @accept id' task n hnew hfresh hid' hst _ hap =>
    rw [admitted_tasks]
    by_cases hid : id = id'
    · subst hid
      exact Or.inr (Or.inr (Or.inl ⟨hnew, _, AList.lookup_insert _, hst, hap⟩))
    · exact Or.inl (AList.lookup_insert_ne hid)
  | bounce =>
    rw [bounced_tasks]
    exact Or.inl rfl
  | @drop id' e he _ =>
    obtain ⟨index, hframe⟩ := cleanupOne_frame he
    rw [hframe]
    by_cases hid : id = id'
    · subst hid
      exact Or.inr (Or.inr (Or.inr (AList.lookup_erase _ _)))
    · exact Or.inl (AList.lookup_erase_ne hid)

/-- What every step of a task keeps, the stored task of an id that is not accepted anew keeps. -/
theorem Effects.taskIn {P : Task → Prop} (hkept : ∀ t t', P t → TaskStep auto t t' → P t') {id : TaskId}
    (hnew : ¬ new id) (h : Effects new auto s s') (hs : ∀ e, s.tasks.lookup id = some e → P e.task) :
    ∀ e, s'.tasks.lookup id = some e → P e.task := by
  refine Effects.invariant (I := fun s : TaskStore => ∀ e, s.tasks.lookup id = some e → P e.task) ?_ hs h
  intro s s' hs heff e' he'
  rcases heff.lookup_cases id with hsame | ⟨e, e'', he, he'', hstep⟩ | ⟨hid, _⟩ | hnone
  · rw [hsame] at he'
    exact hs e' he'
  · rw [he''] at he'
    cases he'
    exact hkept _ _ (hs e he) hstep
  · exact absurd hid hnew
  · rw [hnone] at he'
    cases he'

/-- The task with that id, if stored, has one of the statuses. -/
def StatusIn (s : TaskStore) (id : TaskId) (P : TaskStatus → Prop) : Prop :=
  ∀ e, s.tasks.lookup id = some e → P e.task.status

/-- Statuses that no transition leads out of stay, for an id that is not accepted anew. -/
theorem Effects.statusIn {P : TaskStatus → Prop}
    (hclosed : ∀ a b, P a → a.canTransitionTo b = true → P b) {id : TaskId} (hnew : ¬ new id)
    (h : Effects new auto s s') (hs : StatusIn s id P) : StatusIn s' id P := by
  refine Effects.taskIn (P := fun t => P t.status) ?_ hnew h hs
  intro t t' ht hstep
  rcases hstep.status with hst | hcan
  · rw [hst]
    exact ht
  · exact hclosed _ _ ht hcan

/-- What is stored afterwards was stored before or is accepted. -/
theorem Effects.stored (h : Effects new auto s s') {id : TaskId} {e : TaskEntry}
    (he : s'.tasks.lookup id = some e) : (∃ e₀, s.tasks.lookup id = some e₀) ∨ new id := by
  by_cases hnew : new id
  · exact Or.inr hnew
  · by_contra hno
    push Not at hno
    have hfalse : StatusIn s id (fun _ => False) := fun e₀ he₀ => hno.1 e₀ he₀
    exact h.statusIn (fun _ _ h _ => h) hnew hfalse e he

/-- A task that is not terminal carries no approval but a granted one. -/
def LiveApproved (s : TaskStore) : Prop :=
  s.tasks.All fun _ e => e.task.status.isTerminal = false →
    ∀ r, e.task.approval = some r → r.decision = .approved

theorem TaskStep.liveApproved {t t' : Task} (h : TaskStep (fun r => r.decision = .approved) t t')
    (ht : t.status.isTerminal = false → ∀ r, t.approval = some r → r.decision = .approved)
    (hlive : t'.status.isTerminal = false) {r : ApprovalRecord} (hr : t'.approval = some r) :
    r.decision = .approved := by
  cases h with
  | move h =>
    obtain ⟨hcan, rfl⟩ := Task.transition_ok h
    exact ht (TaskStatus.canTransitionTo_not_terminal hcan) r hr
  | @decided _ now r' reason h =>
    obtain ⟨_, rfl⟩ := Task.transition_ok h
    cases hr
    cases hd : r.decision with
    | approved => rfl
    | rejected reason =>
      -- a rejection leads to a terminal status
      simp only [hd, decisionTarget, TaskStatus.isTerminal] at hlive
      cases hlive
  | completed h | failed h =>
    obtain ⟨_, rfl⟩ := Task.transition_ok h
    cases hlive
  | noted hst => exact ht hst r hr
  | autoResult hauto =>
    cases hr
    exact hauto

theorem LiveApproved.effect (hs : LiveApproved s) (h : Effect new (fun r => r.decision = .approved) s s') :
    LiveApproved s' := by
  intro id e' he'
  rcases h.lookup_cases id with hsame | ⟨e, e'', he, he'', hstep⟩ | ⟨_, e'', he'', _, hap⟩ | hnone
  · rw [hsame] at he'
    exact hs id e' he'
  · rw [he''] at he'
    cases he'
    exact fun hlive r hr => hstep.liveApproved (hs id e he) hlive hr
  · rw [he''] at he'
    cases he'
    intro _ r hr
    rw [hap] at hr
    cases hr
  · rw [hnone] at he'
    cases he'

end Life

/-! ### What leaves the status of a task alone -/

section Alone

variable {s : TaskStore} {id id' : TaskId} {P : TaskStatus → Prop}

theorem StatusIn.put (hs : StatusIn s id P) {e : TaskEntry} (h : id' = id → P e.task.status) :
    StatusIn (s.put id' e) id P := by
  intro e' he'
  by_cases hid : id = id'
  · rw [put_tasks, hid, AList.lookup_insert] at he'
    cases he'
    exact h hid.symm
  · rw [put_tasks, AList.lookup_insert_ne hid] at he'
    exact hs e' he'

theorem StatusIn.becomeTerminal (hs : StatusIn s id P) {now : DateTime} {e : TaskEntry}
    (h : id' = id → P e.task.status) : StatusIn (s.becomeTerminal now id' e) id P := by
  intro e' he'
  by_cases hid : id = id'
  · rw [hid, becomeTerminal_lookup] at he'
    cases he'
    exact h hid.symm
  · rw [becomeTerminal_lookup_ne _ _ _ hid] at he'
    exact hs e' he'

theorem StatusIn.settle (hs : StatusIn s id P) {now : DateTime} {e : TaskEntry} {task : Task}
    (h : id' = id → P task.status) : StatusIn (s.settle now id' e task) id P := by
  unfold TaskStore.settle
  split
  · exact hs.becomeTerminal h
  · exact hs.put h

theorem StatusIn.cleanupOne (hs : StatusIn s id P) (id' : TaskId) : StatusIn (s.cleanupOne id') id P := by
  intro e he
  cases hid' : s.tasks.lookup id' with
  | none =>
    rw [TaskStore.cleanupOne, hid'] at he
    exact hs e he
  | some e' =>
    obtain ⟨index, hframe⟩ := cleanupOne_frame hid'
    rw [hframe] at he
    by_cases hid : id = id'
    · rw [hid, AList.lookup_erase] at he
      cases he
    · rw [AList.lookup_erase_ne hid] at he
      exact hs e he

theorem StatusIn.cleanupTerminal (hs : StatusIn s id P) (now : DateTime) : StatusIn (s.cleanupTerminal now).2 id P :=
  List.foldlRecOn (motive := fun s => StatusIn s id P) _ _ hs fun _ hs id' _ => hs.cleanupOne id'

theorem StatusIn.mono {P' : TaskStatus → Prop} (hs : StatusIn s id P) (h : ∀ a, P a → P' a) : StatusIn s id P' :=
  fun e he => h _ (hs e he)

/-- A transition to `b` stays among the statuses. -/
def StaysAt (P : TaskStatus → Prop) (b : TaskStatus) : Prop := ∀ a, P a → a.canTransitionTo b = true → P b

/-- A task is written back with the status it had. -/
theorem StatusIn.rewrite (hs : StatusIn s id P) {e e' : TaskEntry} (he : s.tasks.lookup id' = some e)
    (hst : e'.task.status = e.task.status) : StatusIn (s.put id' e') id P := by
  refine hs.put ?_
  rintro rfl
  rw [hst]
  exact hs e he

/-- A task is written back after a transition. -/
theorem StatusIn.moved (hs : StatusIn s id P) {e : TaskEntry} (he : s.tasks.lookup id' = some e) {t t' : Task}
    {now : DateTime} {newStatus : TaskStatus} {reason : Option String} (ht : t.transition now newStatus reason = .ok t')
    (hst : t.status = e.task.status) (h : id' = id → StaysAt P newStatus) : id' = id → P t'.status := by
  rintro rfl
  obtain ⟨hcan, rfl⟩ := Task.transition_ok ht
  rw [hst] at hcan
  exact h rfl _ (hs e he) hcan

theorem StatusIn.transition (hs : StatusIn s id P) {newStatus : TaskStatus} (h : id' = id → StaysAt P newStatus)
    (now : DateTime) (reason : Option String) : StatusIn (s.transition now id' newStatus reason).2 id P := by
  unfold TaskStore.transition
  split
  · exact hs
  · rename_i e he
    split
    · exact hs
    · rename_i t' ht
      exact hs.settle (hs.moved he ht rfl h)

theorem StatusIn.transitionIf (hs : StatusIn s id P) {expected newStatus : TaskStatus}
    (h : id' = id → StaysAt P newStatus) (now : DateTime) (reason : Option String) :
    StatusIn (s.transitionIf now id' expected newStatus reason).2 id P := by
  unfold TaskStore.transitionIf
  split
  · exact hs
  · rename_i e he
    split
    · exact hs
    · rename_i t' ht
      exact hs.settle (hs.moved he (Task.transitionIf_ok ht).2 rfl h)

theorem StatusIn.recordApproval (hs : StatusIn s id P) {decision : ApprovalDecision}
    (h : id' = id → StaysAt P (decisionTarget decision).1) (now : DateTime) (decidedBy : String)
    (validFor : Duration) : StatusIn (s.recordApproval now id' decision decidedBy validFor).2 id P := by
  unfold TaskStore.recordApproval
  split
  · exact hs
  · rename_i e he
    split
    · exact hs
    · dsimp only
      split
      · exact hs.rewrite he rfl
      · rename_i t' ht
        exact hs.settle (hs.moved he ht rfl h)

theorem StatusIn.complete (hs : StatusIn s id P) (h : id' = id → StaysAt P .completed) (now : DateTime)
    (result : ToolCallResult) : StatusIn (s.complete now id' result).2 id P := by
  unfold TaskStore.complete
  split
  · exact hs
  · rename_i e he
    split
    · exact hs
    · dsimp only
      split
      · exact hs.rewrite he rfl
      · rename_i t' ht
        exact hs.becomeTerminal (hs.moved he ht rfl h)

theorem StatusIn.fail (hs : StatusIn s id P) (h : id' = id → StaysAt P .failed) (now : DateTime)
    (failure : FailureInfo) : StatusIn (s.fail now id' failure).2 id P := by
  unfold TaskStore.fail
  split
  · exact hs
  · rename_i e he
    split
    · exact hs
    · dsimp only
      split
      · exact hs.rewrite he rfl
      · rename_i t' ht
        exact hs.becomeTerminal (hs.moved he ht rfl h)

theorem StatusIn.cancel (hs : StatusIn s id P) (h : id' = id → StaysAt P .cancelled) (now : DateTime) :
    StatusIn (s.cancel now id').2 id P := by
  unfold TaskStore.cancel
  split
  · exact hs
  · rename_i e he
    split
    · split_ifs <;> exact hs
    · split
      · exact hs
      · rename_i t' ht
        exact hs.becomeTerminal (hs.moved he ht rfl h)

theorem StatusIn.recordAutoApproveResult (hs : StatusIn s id P) (now : DateTime) (result : ToolCallResult)
    (approval : ApprovalRecord) : StatusIn (s.recordAutoApproveResult now id' result approval).2 id P := by
  unfold TaskStore.recordAutoApproveResult
  split
  · exact hs
  · rename_i e he
    exact hs.rewrite he rfl

theorem StatusIn.expireOne {acc : Nat × TaskStore} (hs : StatusIn acc.2 id P) (h : StaysAt P .expired)
    (now : DateTime) : StatusIn (TaskStore.expireOne now acc id').2 id P := by
  unfold TaskStore.expireOne
  split
  · exact hs
  · rename_i e he
    split
    · split
      · exact hs
      · rename_i t' ht
        exact hs.becomeTerminal (hs.moved he ht rfl fun _ => h)
    · exact hs

theorem StatusIn.expireOverdue (hs : StatusIn s id P) (h : StaysAt P .expired) (now : DateTime) :
    StatusIn (s.expireOverdue now).2 id P :=
  List.foldlRecOn (motive := fun acc : Nat × TaskStore => StatusIn acc.2 id P) _ _ hs
    fun _ hacc _ _ => hacc.expireOne h now

theorem StatusIn.failOne {acc : Nat × TaskStore} (hs : StatusIn acc.2 id P) (h : StaysAt P .failed) (now : DateTime)
    (failure : FailureInfo) : StatusIn (TaskStore.failOne now failure acc id').2 id P := by
  have hfail : StatusIn (acc.2.fail now id' failure).2 id P := hs.fail (fun _ => h) now failure
  unfold TaskStore.failOne
  split <;> simpa [*] using hfail

theorem StatusIn.failAllPending (hs : StatusIn s id P) (h : StaysAt P .failed) (now : DateTime) (reason : String) :
    StatusIn (s.failAllPending now reason).2 id P :=
  List.foldlRecOn (motive := fun acc : Nat × TaskStore => StatusIn acc.2 id P) _ _ hs
    fun _ hacc _ _ => hacc.failOne h now _

variable [F64.Fmt] [Sha256]

theorem StatusIn.create (hs : StatusIn s id P) (hid : id' ≠ id) (now : DateTime) (orig pre : ToolCallRequest)
    (principal : Principal) (ttl : Option Duration) (onTimeout : TimeoutAction) :
    StatusIn (s.create id' now orig pre principal ttl onTimeout).2 id P := by
  have hsame : ∀ s' : TaskStore, s'.tasks = s.tasks → StatusIn s' id P := by
    intro s' htasks e he
    rw [htasks] at he
    exact hs e he
  unfold TaskStore.create
  split
  · exact hs
  · dsimp only
    split
    · exact hsame _ (by simp [rollback, subPendingCount, subPrincipal, addPrincipal])
    · split
      · exact hsame _ (by simp [rollback, subPendingCount, subPrincipal, addPrincipal])
      · split
        · exact hsame _ (by simp [rollback, subPendingCount, subPrincipal, addPrincipal])
        · intro e he
          simp only [indexTask, put_tasks, addPrincipal, principalEntry_tasks] at he
          rw [AList.lookup_insert_ne hid.symm] at he
          exact hs e he

/-- The statuses that an operation may give to a task. -/
def StoreOp.gives (id : TaskId) (b : TaskStatus) : StoreOp → Prop
  | .transition _ id' newStatus _ | .transitionIf _ id' _ newStatus _ => id' = id ∧ b = newStatus
  | .recordApproval _ id' decision _ _ => id' = id ∧ b = (decisionTarget decision).1
  | .complete _ id' _ => id' = id ∧ b = .completed
  | .fail _ id' _ => id' = id ∧ b = .failed
  | .cancel _ id' => id' = id ∧ b = .cancelled
  | .expireOverdue _ => b = .expired
  | .failAllPending _ _ => b = .failed
  | .create .. | .recordAutoApproveResult .. | .cleanupTerminal _ => False

/-- An operation keeps the task among the statuses when the one it gives is kept. -/
theorem StatusIn.apply {o : StoreOp} (hs : StatusIn s id P) (hnew : o.newId ≠ some id)
    (h : ∀ b, o.gives id b → StaysAt P b) : StatusIn (o.apply s) id P := by
  cases o with
  | create id' now orig pre principal ttl onTimeout =>
    refine hs.create ?_ now orig pre principal ttl onTimeout
    rintro rfl
    exact hnew rfl
  | transition now id' newStatus reason => exact hs.transition (fun hid => h _ ⟨hid, rfl⟩) now reason
  | transitionIf now id' expected newStatus reason => exact hs.transitionIf (fun hid => h _ ⟨hid, rfl⟩) now reason
  | recordApproval now id' decision decidedBy validFor =>
    exact hs.recordApproval (fun hid => h _ ⟨hid, rfl⟩) now decidedBy validFor
  | complete now id' result => exact hs.complete (fun hid => h _ ⟨hid, rfl⟩) now result
  | fail now id' failure => exact hs.fail (fun hid => h _ ⟨hid, rfl⟩) now failure
  | cancel now id' => exact hs.cancel (fun hid => h _ ⟨hid, rfl⟩) now
  | recordAutoApproveResult now id' result approval => exact hs.recordAutoApproveResult now result approval
  | expireOverdue now => exact hs.expireOverdue (h _ rfl) now
  | cleanupTerminal now => exact hs.cleanupTerminal now
  | failAllPending now reason => exact hs.failAllPending (h _ rfl) now reason

end Alone

/-! ### What is stored after a creation and after a transition -/

namespace TaskStore

theorem get_settle (s : TaskStore) (now : DateTime) (id : TaskId) (e : TaskEntry) (task : Task) :
    (s.settle now id e task).get id = .ok task := by
  unfold settle get
  by_cases hend : (!e.task.status.isTerminal && task.status.isTerminal) = true
  · rw [if_pos hend, becomeTerminal_lookup]
    rfl
  · simp [hend, put]

theorem get_ok_of_transition {s s' : TaskStore} {now : DateTime} {id : TaskId} {newStatus : TaskStatus}
    {reason : Option String} {e : TaskEntry} {task : Task} (he : s.tasks.lookup id = some e)
    (h : s.transition now id newStatus reason = (.ok task, s')) : s'.get id = .ok task ∧ SameOrigin e.task task := by
  unfold transition at h
  rw [he] at h
  dsimp only at h
  cases hmove : e.task.transition now newStatus reason with
  | error err =>
    rw [hmove] at h
    cases h
  | ok t' =>
    rw [hmove] at h
    cases h
    exact ⟨get_settle s now id e task, SameOrigin.of_transition hmove⟩

variable [F64.Fmt] [Sha256]

theorem lookup_of_create {s s' : TaskStore} {id : TaskId} {now : DateTime} {orig pre : ToolCallRequest}
    {principal : Principal} {ttl : Option Duration} {onTimeout : TimeoutAction} {task : Task}
    (h : s.create id now orig pre principal ttl onTimeout = (.ok task, s')) :
    task.id = id ∧ task.originalRequest = orig ∧ task.principal = principal ∧
      ∃ e, s'.tasks.lookup id = some e ∧ e.task = task := by
  unfold create at h
  split at h
  · cases h
  · dsimp only at h
    split at h
    · cases h
    · split at h
      · cases h
      · rename_i made hmade
        split at h
        · cases h
        · cases h
          have horig := Task.new_originalRequest hmade
          obtain ⟨hid, hprincipal, -⟩ := Task.new_ok hmade
          refine ⟨hid, horig, hprincipal, ⟨task, none, 0, estimateBytes task⟩, ?_, rfl⟩
          simp [indexTask, put]

end TaskStore

end ThoughtGate
