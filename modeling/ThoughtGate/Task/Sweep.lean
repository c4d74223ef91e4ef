import ThoughtGate.Task.Waiting
import ThoughtGate.Lib.Sweep

/-!
# The sweeps over the stored tasks

`expire_overdue` and `fail_all_pending` collect the ids of the tasks that are not terminal and then move them one
by one. The collection asks `is_terminal`, the move asks `can_transition_to`, and the two disagree: `Executing` has
no edge to `Expired` and `InputRequired` has none to `Failed`. Each sweep does all it says exactly when it meets no
task of its own gap (`expire_overdue_complete_iff`, `fail_all_pending_complete_iff`).

Both are sweeps in the sense of `PointSweep`: at every id the whole sweep is one function of the stored entry.
-/

namespace ThoughtGate

open TaskStore

/-! ### One round of each sweep -/

namespace TaskStore

/-- What `fail_all_pending` collects. -/
def isPending (e : TaskEntry) : Bool := !e.task.status.isTerminal

/-- What `expire_overdue` collects. -/
def isOverdue (now : DateTime) (e : TaskEntry) : Bool := isPending e && decide (e.task.expiresAt < now)

/-- The status machine lets an overdue task expire. -/
def expires (now : DateTime) (e : TaskEntry) : Bool :=
  decide (e.task.expiresAt < now) && e.task.status.canTransitionTo .expired

/-- What a round of `expire_overdue` makes of an entry. -/
def expiredEntry (now : DateTime) (e : TaskEntry) : TaskEntry :=
  if isOverdue now e then
    match e.task.transition now .expired (some "TTL exceeded") with
    | .error _ => e
    | .ok task => terminalEntry now { e with task }
  else e

/-- What a round of `fail_all_pending` makes of an entry. -/
def failedEntry (now : DateTime) (failure : FailureInfo) (e : TaskEntry) : TaskEntry :=
  if e.task.status.isTerminal then e
  else
    match { e.task with failure := some failure }.transition now .failed (some failure.reason) with
    | .error _ => { e with task := { e.task with failure := some failure } }
    | .ok task => terminalEntry now { e with task }

/-- A move along a missing edge is refused. -/
theorem transition_of_not_can {t : Task} (now : DateTime) {newStatus : TaskStatus} (reason : Option String)
    (h : t.status.canTransitionTo newStatus = false) : ∃ err, t.transition now newStatus reason = .error err := by
  cases hmove : t.transition now newStatus reason with
  | error err => exact ⟨err, rfl⟩
  | ok t' =>
    rw [(Task.transition_ok hmove).1] at h
    cases h

theorem isOverdue_of_expires {now : DateTime} {e : TaskEntry} (h : expires now e = true) : isOverdue now e = true := by
  obtain ⟨hlate, hcan⟩ := Bool.and_eq_true_iff.mp h
  rw [isOverdue, isPending, TaskStatus.canTransitionTo_not_terminal hcan, hlate]
  rfl

theorem expiredEntry_kept {now : DateTime} {e : TaskEntry} (h : expires now e = false) : expiredEntry now e = e := by
  unfold expiredEntry
  split
  · rename_i hover
    obtain ⟨-, hlate⟩ := Bool.and_eq_true_iff.mp hover
    rw [expires, hlate, Bool.true_and] at h
    obtain ⟨err, herr⟩ := transition_of_not_can now (some "TTL exceeded") h
    rw [herr]
  · rfl

theorem expiredEntry_moved {now : DateTime} {e : TaskEntry} {task : Task} (h : expires now e = true)
    (htask : e.task.transition now .expired (some "TTL exceeded") = .ok task) :
    expiredEntry now e = terminalEntry now { e with task } := by
  rw [expiredEntry, if_pos (isOverdue_of_expires h), htask]

/-- The one status that is neither terminal nor has an edge to `Failed`. -/
theorem status_of_failed_gap {st : TaskStatus} (hterm : st.isTerminal = false)
    (hcan : st.canTransitionTo .failed = false) : st = .inputRequired := by
  cases st with
  | inputRequired => rfl
  | working | executing => cases hcan
  | completed | failed | rejected | cancelled | expired => cases hterm

/-- The one status that is neither terminal nor has an edge to `Expired`. -/
theorem status_of_expired_gap {st : TaskStatus} (hterm : st.isTerminal = false)
    (hcan : st.canTransitionTo .expired = false) : st = .executing := by
  cases st with
  | executing => rfl
  | working | inputRequired => cases hcan
  | completed | failed | rejected | cancelled | expired => cases hterm

theorem failedEntry_gap {now : DateTime} {failure : FailureInfo} {e : TaskEntry}
    (hst : e.task.status = .inputRequired) :
    failedEntry now failure e = { e with task := { e.task with failure := some failure } } := by
  have hcan : { e.task with failure := some failure }.status.canTransitionTo .failed = false := by rw [hst]; rfl
  obtain ⟨err, herr⟩ := transition_of_not_can now (some failure.reason) hcan
  have hlive : e.task.status.isTerminal = false := by rw [hst]; rfl
  rw [failedEntry, hlive, if_neg Bool.false_ne_true, herr]

theorem failedEntry_moved {now : DateTime} {failure : FailureInfo} {e : TaskEntry} {task : Task}
    (htask : { e.task with failure := some failure }.transition now .failed (some failure.reason) = .ok task) :
    failedEntry now failure e = terminalEntry now { e with task } := by
  have hlive : e.task.status.isTerminal = false :=
    TaskStatus.canTransitionTo_not_terminal (Task.transition_ok htask).1
  rw [failedEntry, hlive, if_neg Bool.false_ne_true, htask]

/-- A round of `expire_overdue` passes over its entry, or closes it. -/
theorem expireOne_cases (now : DateTime) (acc : Nat × TaskStore) (id : TaskId) :
    (expireOne now acc id = acc ∧ ∀ e, acc.2.tasks.lookup id = some e → expires now e = false) ∨
    ∃ e task, acc.2.tasks.lookup id = some e ∧ expires now e = true ∧
      e.task.transition now .expired (some "TTL exceeded") = .ok task ∧
      expireOne now acc id = (acc.1 + 1, acc.2.becomeTerminal now id { e with task }) := by
  unfold expireOne
  split
  · rename_i hnone
    refine Or.inl ⟨rfl, fun e he => ?_⟩
    rw [hnone] at he
    cases he
  · rename_i e he
    have honly : ∀ e', acc.2.tasks.lookup id = some e' → e' = e := by
      intro e' he'
      rw [he] at he'
      exact (Option.some.inj he').symm
    split
    · rename_i hlate
      obtain ⟨-, hlate⟩ := Bool.and_eq_true_iff.mp hlate
      split
      · rename_i err herr
        refine Or.inl ⟨rfl, fun e' he' => ?_⟩
        rw [honly e' he', expires, hlate, Bool.true_and]
        by_contra hcan
        obtain ⟨t', ht⟩ := Task.transition_of_can now (some "TTL exceeded") (Bool.not_eq_false _ ▸ hcan)
        rw [ht] at herr
        cases herr
      · rename_i task htask
        refine Or.inr ⟨e, task, he, ?_, htask, rfl⟩
        rw [expires, hlate, (Task.transition_ok htask).1, Bool.and_self]
    · rename_i hkept
      refine Or.inl ⟨rfl, fun e' he' => ?_⟩
      rw [honly e' he']
      by_contra hexp
      obtain ⟨hlate, hcan⟩ := Bool.and_eq_true_iff.mp (Bool.not_eq_false _ ▸ hexp)
      rw [TaskStatus.canTransitionTo_not_terminal hcan, hlate] at hkept
      exact hkept rfl

theorem expireOne_sweep (now : DateTime) :
    PointSweep (fun s : TaskStore => s.tasks.lookup) (expiredEntry now) (expires now) (expireOne now) where
  here acc id := by
    rcases expireOne_cases now acc id with ⟨hone, hkept⟩ | ⟨e, task, he, hexp, htask, hone⟩
    · rw [hone]
      cases he : acc.2.tasks.lookup id with
      | none => rfl
      | some e =>
        rw [Option.map_some, expiredEntry_kept (hkept e he)]
    · rw [hone, he, Option.map_some, expiredEntry_moved hexp htask]
      exact becomeTerminal_lookup _ _ _ _
  away acc id j hne := by
    rcases expireOne_cases now acc id with ⟨hone, -⟩ | ⟨e, task, -, -, -, hone⟩
    · rw [hone]
    · rw [hone]
      exact becomeTerminal_lookup_ne _ _ _ hne
  counts acc id := by
    rcases expireOne_cases now acc id with ⟨hone, hkept⟩ | ⟨e, task, he, hexp, -, hone⟩
    · rw [hone]
      cases he : acc.2.tasks.lookup id with
      | none => rfl
      | some e =>
        rw [Option.any_some, hkept e he]
        rfl
    · rw [hone, he, Option.any_some, hexp, if_pos rfl]

/-- A round of `fail_all_pending` finds nothing to fail, writes a failure that leads nowhere, or closes its entry. -/
theorem failOne_cases (now : DateTime) (failure : FailureInfo) (acc : Nat × TaskStore) (id : TaskId) :
    (failOne now failure acc id = acc ∧ ∀ e, acc.2.tasks.lookup id = some e → e.task.status.isTerminal = true) ∨
    (∃ e, acc.2.tasks.lookup id = some e ∧ e.task.status = .inputRequired ∧
      failOne now failure acc id = (acc.1, acc.2.put id { e with task := { e.task with failure := some failure } })) ∨
    ∃ e task, acc.2.tasks.lookup id = some e ∧ e.task.status.canTransitionTo .failed = true ∧
      { e.task with failure := some failure }.transition now .failed (some failure.reason) = .ok task ∧
      failOne now failure acc id = (acc.1 + 1, acc.2.becomeTerminal now id { e with task }) := by
  cases he : acc.2.tasks.lookup id with
  | none =>
    refine Or.inl ⟨?_, fun e h => by cases h⟩
    simp only [failOne, fail, he]
  | some e =>
    cases hterm : e.task.status.isTerminal with
    | true =>
      refine Or.inl ⟨?_, fun e' he' => ?_⟩
      · simp only [failOne, fail, he, hterm, if_true]
      · cases he'
        exact hterm
    | false =>
      right
      cases hcan : e.task.status.canTransitionTo .failed with
      | true =>
        right
        obtain ⟨task, htask⟩ := Task.transition_of_can (t := { e.task with failure := some failure }) now
          (some failure.reason) hcan
        refine ⟨e, task, rfl, hcan, htask, ?_⟩
        simp only [failOne, fail, he, hterm, Bool.false_eq_true, if_false, htask]
      | false =>
        left
        obtain ⟨err, herr⟩ := transition_of_not_can (t := { e.task with failure := some failure }) now
          (some failure.reason) hcan
        refine ⟨e, rfl, status_of_failed_gap hterm hcan, ?_⟩
        simp only [failOne, fail, he, hterm, Bool.false_eq_true, if_false, herr]

theorem failOne_sweep (now : DateTime) (failure : FailureInfo) :
    PointSweep (fun s : TaskStore => s.tasks.lookup) (failedEntry now failure)
      (fun e => e.task.status.canTransitionTo .failed) (failOne now failure) where
  here acc id := by
    rcases failOne_cases now failure acc id with ⟨hone, hterm⟩ | ⟨e, he, hst, hone⟩ | ⟨e, task, he, hcan, htask, hone⟩
    · rw [hone]
      cases he : acc.2.tasks.lookup id with
      | none => rfl
      | some e => rw [Option.map_some, failedEntry, if_pos (hterm e he)]
    · rw [hone, he, Option.map_some, failedEntry_gap hst]
      exact AList.lookup_insert _
    · rw [hone, he, Option.map_some, failedEntry_moved htask]
      exact becomeTerminal_lookup _ _ _ _
  away acc id j hne := by
    rcases failOne_cases now failure acc id with ⟨hone, -⟩ | ⟨e, -, -, hone⟩ | ⟨e, task, -, -, -, hone⟩
    · rw [hone]
    · rw [hone]
      exact AList.lookup_insert_ne hne
    · rw [hone]
      exact becomeTerminal_lookup_ne _ _ _ hne
  counts acc id := by
    rcases failOne_cases now failure acc id with ⟨hone, hterm⟩ | ⟨e, he, hst, hone⟩ | ⟨e, task, he, hcan, -, hone⟩
    · rw [hone]
      cases he : acc.2.tasks.lookup id with
      | none => rfl
      | some e =>
        have hcan : e.task.status.canTransitionTo .failed = false := by
          by_contra hcan
          have hlive := TaskStatus.canTransitionTo_not_terminal (Bool.not_eq_false _ ▸ hcan)
          rw [hterm e he] at hlive
          cases hlive
        rw [Option.any_some, hcan]
        rfl
    · rw [hone, he, Option.any_some, hst]
      rfl
    · rw [hone, he, Option.any_some, hcan, if_pos rfl]

/-! ### The whole sweeps -/

/-- The ids that a sweep collects. -/
def idsWhere (p : TaskEntry → Bool) (s : TaskStore) : List TaskId :=
  (s.tasks.entries.filter fun e => p e.2).map fun e => e.2.task.id

variable {s : TaskStore} {p : TaskEntry → Bool}

/-- Entries are stored under their own id, so the ids collected are keys. -/
theorem idsWhere_eq_keys (hs : WellKeyed s) (p : TaskEntry → Bool) :
    idsWhere p s = (s.tasks.entries.filter fun e => p e.2).map Sigma.fst := by
  refine List.map_congr_left fun e he => ?_
  have hstored := Table.mem_entries_iff.mp (List.mem_of_mem_filter he)
  exact (hs e.1 e.2 hstored).1

theorem idsWhere_nodup (hs : WellKeyed s) (p : TaskEntry → Bool) : (idsWhere p s).Nodup := by
  rw [idsWhere_eq_keys hs]
  exact List.Nodup.sublist (List.filter_sublist.map Sigma.fst) s.tasks.nodupKeys

theorem mem_idsWhere (hs : WellKeyed s) {id : TaskId} :
    id ∈ idsWhere p s ↔ ∃ e, s.tasks.lookup id = some e ∧ p e = true := by
  rw [idsWhere_eq_keys hs, List.mem_map]
  constructor
  · rintro ⟨e, he, rfl⟩
    obtain ⟨hmem, hp⟩ := List.mem_filter.mp he
    exact ⟨e.2, Table.mem_entries_iff.mp hmem, hp⟩
  · rintro ⟨e, he, hp⟩
    exact ⟨⟨id, e⟩, List.mem_filter.mpr ⟨Table.mem_entries_iff.mpr he, hp⟩, rfl⟩

section

variable {rewrite : TaskEntry → TaskEntry} {hit : TaskEntry → Bool} {one : Nat × TaskStore → TaskId → Nat × TaskStore}

/-- A sweep rewrites every stored entry, when the rewriting keeps those that it does not collect. -/
theorem sweep_lookup (h : PointSweep (fun s : TaskStore => s.tasks.lookup) rewrite hit one) (hs : WellKeyed s)
    (hkeeps : ∀ e, p e = false → rewrite e = e) (id : TaskId) :
    ((idsWhere p s).foldl one (0, s)).2.tasks.lookup id = (s.tasks.lookup id).map rewrite := by
  by_cases hid : id ∈ idsWhere p s
  · exact h.foldl_look_mem (idsWhere_nodup hs p) hid (0, s)
  · have hsame : ((idsWhere p s).foldl one (0, s)).2.tasks.lookup id = s.tasks.lookup id :=
      h.foldl_look_not_mem hid (0, s)
    rw [hsame]
    cases he : s.tasks.lookup id with
    | none => rfl
    | some e =>
      have hp : p e = false := by
        by_contra hp
        exact hid ((mem_idsWhere hs).mpr ⟨e, he, Bool.not_eq_false _ ▸ hp⟩)
      rw [Option.map_some, hkeeps e hp]

theorem sweep_count (h : PointSweep (fun s : TaskStore => s.tasks.lookup) rewrite hit one) (hs : WellKeyed s)
    (p : TaskEntry → Bool) :
    ((idsWhere p s).foldl one (0, s)).1 = s.tasks.total fun _ e => if hit e && p e then 1 else 0 := by
  have hcount : ((idsWhere p s).foldl one (0, s)).1 =
      0 + (idsWhere p s).countP fun id => (s.tasks.lookup id).any hit :=
    h.foldl_count (idsWhere_nodup hs p) (0, s)
  rw [hcount, Nat.zero_add, idsWhere_eq_keys hs, List.countP_map, List.countP_filter,
    ← Table.countP_entries fun _ e => hit e && p e]
  refine List.countP_congr fun e he => ?_
  have hstored := Table.mem_entries_iff.mp he
  rw [Function.comp_apply, hstored, Option.any_some]

end

theorem expireOverdue_eq (s : TaskStore) (now : DateTime) :
    s.expireOverdue now = (idsWhere (isOverdue now) s).foldl (expireOne now) (0, s) := rfl

theorem failAllPending_eq (s : TaskStore) (now : DateTime) (reason : String) :
    s.failAllPending now reason =
      (idsWhere isPending s).foldl (failOne now ⟨.serviceShutdown, reason, true⟩) (0, s) := rfl

theorem expireOverdue_lookup (hs : WellKeyed s) (now : DateTime) (id : TaskId) :
    (s.expireOverdue now).2.tasks.lookup id = (s.tasks.lookup id).map (expiredEntry now) := by
  rw [expireOverdue_eq]
  refine sweep_lookup (expireOne_sweep now) hs (fun e hp => ?_) id
  rw [expiredEntry, hp, if_neg Bool.false_ne_true]

theorem expireOverdue_count (hs : WellKeyed s) (now : DateTime) :
    (s.expireOverdue now).1 = s.tasks.total fun _ e => if expires now e then 1 else 0 := by
  rw [expireOverdue_eq, sweep_count (expireOne_sweep now) hs]
  refine Table.total_congr fun e _ => ?_
  cases hexp : expires now e.2 with
  | false => rfl
  | true => rw [isOverdue_of_expires hexp, Bool.and_self]

theorem failAllPending_lookup (hs : WellKeyed s) (now : DateTime) (reason : String) (id : TaskId) :
    (s.failAllPending now reason).2.tasks.lookup id =
      (s.tasks.lookup id).map (failedEntry now ⟨.serviceShutdown, reason, true⟩) := by
  rw [failAllPending_eq]
  refine sweep_lookup (failOne_sweep now _) hs (fun e hp => ?_) id
  have hterm : e.task.status.isTerminal = true := by simpa [isPending] using hp
  rw [failedEntry, if_pos hterm]

theorem failAllPending_count (hs : WellKeyed s) (now : DateTime) (reason : String) :
    (s.failAllPending now reason).1 =
      s.tasks.total fun _ e => if e.task.status.canTransitionTo .failed then 1 else 0 := by
  rw [failAllPending_eq, sweep_count (failOne_sweep now _) hs]
  refine Table.total_congr fun e _ => ?_
  cases hcan : e.2.task.status.canTransitionTo .failed with
  | false => rfl
  | true =>
    rw [isPending, TaskStatus.canTransitionTo_not_terminal hcan]
    rfl

/-! ### The expiry sweep -/

/-- The task was stored and has become expired. -/
def becameExpired (s s' : TaskStore) (id : TaskId) : Bool :=
  (s.tasks.lookup id).any (fun e => decide (e.task.status ≠ .expired)) &&
    (s'.tasks.lookup id).any fun e => decide (e.task.status = .expired)

/-- `expire_overdue` has done all it says: nothing overdue is left, the number is that of the tasks that became
expired, the others are as they were, and only tasks within their TTL hold a pending slot. -/
structure ExpirySwept (s : TaskStore) (now : DateTime) : Prop where
  noneOverdue : ∀ id e, (s.expireOverdue now).2.tasks.lookup id = some e →
    e.task.status.isTerminal = true ∨ now ≤ e.task.expiresAt
  counted : (s.expireOverdue now).1 = s.tasks.keys.countP (becameExpired s (s.expireOverdue now).2)
  othersSame : ∀ id, becameExpired s (s.expireOverdue now).2 id = false →
    (s.expireOverdue now).2.tasks.lookup id = s.tasks.lookup id
  slots : (s.expireOverdue now).2.pendingCount = (s.expireOverdue now).2.tasks.total fun _ e =>
    if e.task.status.isTerminal = false ∧ now ≤ e.task.expiresAt then 1 else 0

theorem expiredEntry_status {now : DateTime} {e : TaskEntry} (h : expires now e = true) :
    e.task.status.isTerminal = false ∧ (expiredEntry now e).task.status = .expired := by
  obtain ⟨-, hcan⟩ := Bool.and_eq_true_iff.mp h
  obtain ⟨task, htask⟩ := Task.transition_of_can now (some "TTL exceeded") hcan
  refine ⟨TaskStatus.canTransitionTo_not_terminal hcan, ?_⟩
  rw [expiredEntry_moved h htask, (Task.transition_ok htask).2]
  rfl

/-- At a stored id, becoming expired is being overdue with an edge to `Expired`. -/
theorem becameExpired_eq (hs : WellKeyed s) (now : DateTime) {id : TaskId} {e : TaskEntry}
    (he : s.tasks.lookup id = some e) : becameExpired s (s.expireOverdue now).2 id = expires now e := by
  have hafter : (s.expireOverdue now).2.tasks.lookup id = some (expiredEntry now e) := by
    rw [expireOverdue_lookup hs, he, Option.map_some]
  rw [becameExpired, he, hafter, Option.any_some, Option.any_some]
  cases hexp : expires now e with
  | true =>
    obtain ⟨hlive, hst⟩ := expiredEntry_status hexp
    have hne : e.task.status ≠ .expired := by
      intro heq
      rw [heq] at hlive
      cases hlive
    rw [hst, decide_eq_true hne]
    rfl
  | false =>
    rw [expiredEntry_kept hexp]
    by_cases hst : e.task.status = .expired
    · simp [hst]
    · simp [hst]

theorem expireOverdue_counted (hs : WellKeyed s) (now : DateTime) :
    (s.expireOverdue now).1 = s.tasks.keys.countP (becameExpired s (s.expireOverdue now).2) := by
  have hkeys : s.tasks.keys.countP (becameExpired s (s.expireOverdue now).2) =
      s.tasks.entries.countP fun e => becameExpired s (s.expireOverdue now).2 e.1 := List.countP_map
  rw [expireOverdue_count hs, hkeys, ← Table.countP_entries fun _ e => expires now e]
  refine List.countP_congr fun e he => ?_
  rw [becameExpired_eq hs now (Table.mem_entries_iff.mp he)]

theorem expireOverdue_othersSame (hs : WellKeyed s) {now : DateTime} {id : TaskId}
    (h : becameExpired s (s.expireOverdue now).2 id = false) :
    (s.expireOverdue now).2.tasks.lookup id = s.tasks.lookup id := by
  rw [expireOverdue_lookup hs]
  cases he : s.tasks.lookup id with
  | none => rfl
  | some e =>
    rw [becameExpired_eq hs now he] at h
    rw [Option.map_some, expiredEntry_kept h]

/-- What is left overdue is executing, and it was so before. -/
theorem overdue_after (hs : WellKeyed s) {now : DateTime} {id : TaskId} {e : TaskEntry}
    (he : (s.expireOverdue now).2.tasks.lookup id = some e) (hlive : e.task.status.isTerminal = false)
    (hlate : e.task.expiresAt < now) : s.tasks.lookup id = some e ∧ e.task.status = .executing := by
  rw [expireOverdue_lookup hs] at he
  obtain ⟨e₀, he₀, hmade⟩ := Option.map_eq_some_iff.mp he
  cases hexp : expires now e₀ with
  | true =>
    have hst := (expiredEntry_status hexp).2
    rw [hmade] at hst
    rw [hst] at hlive
    cases hlive
  | false =>
    rw [expiredEntry_kept hexp] at hmade
    subst hmade
    rw [expires, decide_eq_true hlate, Bool.true_and] at hexp
    exact ⟨he₀, status_of_expired_gap hlive hexp⟩

end TaskStore

section

variable [F64.Fmt] [Sha256] {config : TaskStoreConfig}

/-- The expiry sweep is complete exactly when no overdue task is executing. -/
theorem expire_overdue_complete_iff {s : TaskStore} (h : (storeMachine config).Reachable s) (now : DateTime) :
    ExpirySwept s now ↔
      ∀ id e, s.tasks.lookup id = some e → e.task.status = .executing → now ≤ e.task.expiresAt := by
  have hs := reachable_wellKeyed h
  constructor
  · intro hswept id e he hst
    by_contra hlate
    -- the executing task is not rewritten, so it is there afterwards
    have hgap : expires now e = false := by
      rw [expires, hst]
      exact Bool.and_false _
    have hafter : (s.expireOverdue now).2.tasks.lookup id = some e := by
      rw [expireOverdue_lookup hs, he, Option.map_some, expiredEntry_kept hgap]
    rcases hswept.noneOverdue id e hafter with hterm | hin
    · rw [hst] at hterm
      cases hterm
    · exact hlate hin
  · intro hnone
    have hleft : ∀ id e, (s.expireOverdue now).2.tasks.lookup id = some e →
        e.task.status.isTerminal = true ∨ now ≤ e.task.expiresAt := by
      intro id e he
      cases hlive : e.task.status.isTerminal with
      | true => exact Or.inl rfl
      | false =>
        by_contra hboth
        have hlate : e.task.expiresAt < now := not_le.mp fun hin => hboth (Or.inr hin)
        obtain ⟨hbefore, hst⟩ := overdue_after hs he hlive hlate
        exact not_lt.mpr (hnone id e hbefore hst) hlate
    refine ⟨hleft, expireOverdue_counted hs now, fun id => expireOverdue_othersSame hs, ?_⟩
    have hreach : (storeMachine config).Reachable (s.expireOverdue now).2 :=
      h.step (l := .expireOverdue now) rfl
    rw [(reachable_accounted hreach).count]
    refine Table.total_congr fun e he => ?_
    rcases hleft e.1 e.2 (Table.mem_entries_iff.mp he) with hterm | hin
    · simp [TaskEntry.live, hterm]
    · cases hlive : e.2.task.status.isTerminal <;> simp [TaskEntry.live, hlive, hin]

end

section

attribute [local instance] Sample.f64Fmt Sample.sha256

/-- An overdue task that still waits for a decision. -/
theorem expire_overdue_complete_sample :
    ∃ s, (storeMachine {}).Reachable s ∧ s.pendingCount = 1 ∧ ExpirySwept s (10 ^ 15) ∧
      (s.expireOverdue (10 ^ 15)).1 = 1 := by
  have hrun : ((storeMachine {}).exec (storeMachine {}).init
      [.create "tg_1" 0 Sample.request Sample.request Sample.principal none .deny,
       .transition 1 "tg_1" .inputRequired none]).any (fun s => decide (s.pendingCount = 1 ∧
         (s.expireOverdue (10 ^ 15)).1 = 1) &&
         s.tasks.entries.all fun e => decide (e.2.task.status ≠ .executing)) = true := by
    decide
  obtain ⟨s, hreach, htest⟩ := Machine.exists_reachable_of_exec hrun
  obtain ⟨hfacts, hnone⟩ := Bool.and_eq_true_iff.mp htest
  obtain ⟨hpending, hone⟩ := of_decide_eq_true hfacts
  refine ⟨s, hreach, hpending, (expire_overdue_complete_iff hreach _).mpr fun id e he hst => ?_, hone⟩
  have hother := List.all_eq_true.mp hnone ⟨id, e⟩ (Table.mem_entries_iff.mpr he)
  exact absurd hst (of_decide_eq_true hother)

/-- A task is approved and its execution never reports back: long past its TTL the sweep expires nothing, and the
task keeps its slot. -/
theorem expire_overdue_skips_executing :
    ∃ s, (storeMachine {}).Reachable s ∧ (s.expireOverdue (10 ^ 15)).1 = 0 ∧
      (s.expireOverdue (10 ^ 15)).2.pendingCount = 1 ∧ ¬ ExpirySwept s (10 ^ 15) := by
  have hrun : ((storeMachine {}).exec (storeMachine {}).init
      [.create "tg_1" 0 Sample.request Sample.request Sample.principal none .deny,
       .transition 1 "tg_1" .inputRequired none,
       .recordApproval 2 "tg_1" .approved "alice" (Duration.fromSecs 60)]).any (fun s =>
        decide ((s.expireOverdue (10 ^ 15)).1 = 0 ∧ (s.expireOverdue (10 ^ 15)).2.pendingCount = 1) &&
        ((s.expireOverdue (10 ^ 15)).2.tasks.lookup "tg_1").any fun e =>
          decide (e.task.status = .executing ∧ e.task.expiresAt < 10 ^ 15)) = true := by
    decide
  obtain ⟨s, hreach, htest⟩ := Machine.exists_reachable_of_exec hrun
  obtain ⟨hfacts, hleft⟩ := Bool.and_eq_true_iff.mp htest
  obtain ⟨hzero, hslot⟩ := of_decide_eq_true hfacts
  obtain ⟨e, he, hstuck⟩ := (Option.any_eq_true ..).mp hleft
  obtain ⟨hst, hlate⟩ := of_decide_eq_true hstuck
  refine ⟨s, hreach, hzero, hslot, fun hswept => ?_⟩
  rcases hswept.noneOverdue "tg_1" e he with hterm | hin
  · rw [hst] at hterm
    cases hterm
  · exact not_lt.mpr hin hlate

end

/-! ### Only terminal tasks are removed -/

namespace TaskStore

/-- Every stored id is still stored. -/
def Keeps (s s' : TaskStore) : Prop := ∀ id, s'.tasks.lookup id = none → s.tasks.lookup id = none

theorem Keeps.refl (s : TaskStore) : Keeps s s := fun _ h => h

theorem Keeps.of_tasks {s s' : TaskStore} (h : s'.tasks = s.tasks) : Keeps s s' := by
  intro id hnone
  rwa [h] at hnone

theorem Keeps.of_insert {s s' : TaskStore} {id : TaskId} {e : TaskEntry} (h : s'.tasks = s.tasks.insert id e) :
    Keeps s s' := by
  intro j hnone
  rw [h] at hnone
  by_cases hj : j = id
  · rw [hj, AList.lookup_insert] at hnone
    cases hnone
  · rwa [AList.lookup_insert_ne hj] at hnone

theorem Keeps.put (s : TaskStore) (id : TaskId) (e : TaskEntry) : Keeps s (s.put id e) := Keeps.of_insert rfl

theorem Keeps.becomeTerminal (s : TaskStore) (now : DateTime) (id : TaskId) (e : TaskEntry) :
    Keeps s (s.becomeTerminal now id e) := by
  intro j hnone
  by_cases hj : j = id
  · rw [hj, becomeTerminal_lookup] at hnone
    cases hnone
  · rwa [becomeTerminal_lookup_ne _ _ _ hj] at hnone

theorem Keeps.settle (s : TaskStore) (now : DateTime) (id : TaskId) (e : TaskEntry) (task : Task) :
    Keeps s (s.settle now id e task) := by
  unfold TaskStore.settle
  split
  · exact Keeps.becomeTerminal s now id _
  · exact Keeps.put s id _

/-- A sweep rewrites entries and removes none. -/
theorem Keeps.sweep {s s' : TaskStore} {rewrite : TaskEntry → TaskEntry}
    (h : ∀ id, s'.tasks.lookup id = (s.tasks.lookup id).map rewrite) : Keeps s s' := by
  intro id hnone
  rw [h id] at hnone
  exact Option.map_eq_none_iff.mp hnone

theorem Keeps.create [F64.Fmt] [Sha256] (s : TaskStore) (id : TaskId) (now : DateTime) (orig pre : ToolCallRequest)
    (principal : Principal) (ttl : Option Duration) (onTimeout : TimeoutAction) :
    Keeps s (s.create id now orig pre principal ttl onTimeout).2 := by
  unfold TaskStore.create
  split
  · exact Keeps.refl s
  · dsimp only
    split
    · exact Keeps.of_tasks (bounced_tasks s _)
    · split
      · exact Keeps.of_tasks (bounced_tasks s _)
      · rename_i task htask
        split
        · exact Keeps.of_tasks (bounced_tasks s _)
        · obtain ⟨-, rfl, -⟩ := Task.new_ok htask
          exact Keeps.of_insert (admitted_tasks s id task _)

theorem Keeps.transition (s : TaskStore) (now : DateTime) (id : TaskId) (newStatus : TaskStatus)
    (reason : Option String) : Keeps s (s.transition now id newStatus reason).2 := by
  unfold TaskStore.transition
  split
  · exact Keeps.refl s
  · split
    · exact Keeps.refl s
    · exact Keeps.settle s now id _ _

theorem Keeps.transitionIf (s : TaskStore) (now : DateTime) (id : TaskId) (expected newStatus : TaskStatus)
    (reason : Option String) : Keeps s (s.transitionIf now id expected newStatus reason).2 := by
  unfold TaskStore.transitionIf
  split
  · exact Keeps.refl s
  · split
    · exact Keeps.refl s
    · exact Keeps.settle s now id _ _

theorem Keeps.recordApproval (s : TaskStore) (now : DateTime) (id : TaskId) (decision : ApprovalDecision)
    (decidedBy : String) (validFor : Duration) : Keeps s (s.recordApproval now id decision decidedBy validFor).2 := by
  unfold TaskStore.recordApproval
  split
  · exact Keeps.refl s
  · split
    · exact Keeps.refl s
    · dsimp only
      split
      · exact Keeps.put s id _
      · exact Keeps.settle s now id _ _

theorem Keeps.complete (s : TaskStore) (now : DateTime) (id : TaskId) (result : ToolCallResult) :
    Keeps s (s.complete now id result).2 := by
  unfold TaskStore.complete
  split
  · exact Keeps.refl s
  · split
    · exact Keeps.refl s
    · dsimp only
      split
      · exact Keeps.put s id _
      · exact Keeps.becomeTerminal s now id _

theorem Keeps.fail (s : TaskStore) (now : DateTime) (id : TaskId) (failure : FailureInfo) :
    Keeps s (s.fail now id failure).2 := by
  unfold TaskStore.fail
  split
  · exact Keeps.refl s
  · split
    · exact Keeps.refl s
    · dsimp only
      split
      · exact Keeps.put s id _
      · exact Keeps.becomeTerminal s now id _

theorem Keeps.cancel (s : TaskStore) (now : DateTime) (id : TaskId) : Keeps s (s.cancel now id).2 := by
  unfold TaskStore.cancel
  split
  · exact Keeps.refl s
  · split
    · split_ifs <;> exact Keeps.refl s
    · split
      · exact Keeps.refl s
      · exact Keeps.becomeTerminal s now id _

theorem Keeps.recordAutoApproveResult (s : TaskStore) (now : DateTime) (id : TaskId) (result : ToolCallResult)
    (approval : ApprovalRecord) : Keeps s (s.recordAutoApproveResult now id result approval).2 := by
  unfold TaskStore.recordAutoApproveResult
  split
  · exact Keeps.refl s
  · exact Keeps.put s id _

theorem cleanup_fold_keeps {ids : List TaskId} {id : TaskId} (hid : id ∉ ids) (s : TaskStore) :
    (ids.foldl cleanupOne s).tasks.lookup id = s.tasks.lookup id := by
  induction ids generalizing s with
  | nil => rfl
  | cons k ids ih =>
    rw [List.foldl_cons, ih (List.not_mem_of_not_mem_cons hid)]
    cases he : s.tasks.lookup k with
    | none => rw [cleanupOne, he]
    | some e =>
      obtain ⟨index, hframe⟩ := cleanupOne_frame he
      rw [hframe, AList.lookup_erase_ne (List.ne_of_not_mem_cons hid)]

end TaskStore

/-- What `cleanup_terminal` removes is terminal. -/
theorem isTerminal_of_stale {s : TaskStore} (hs : WellKeyed s) {now : DateTime} {id : TaskId} {e : TaskEntry}
    (hid : id ∈ s.staleIds now) (he : s.tasks.lookup id = some e) : e.task.status.isTerminal = true := by
  obtain ⟨⟨k, e'⟩, hmem, hk⟩ := List.mem_map.mp hid
  obtain ⟨hin, hstale⟩ := List.mem_filter.mp hmem
  have hstored := Table.mem_entries_iff.mp hin
  obtain ⟨hown, hclosed⟩ := hs k e' hstored
  have hkid : k = id := hown.symm.trans hk
  subst hkid
  rw [hstored] at he
  cases he
  rw [← hclosed]
  dsimp only at hstale
  split at hstale
  · rename_i hat
    rw [hat]
    rfl
  · cases hstale

/-- An operation removes terminal tasks only. -/
theorem StoreOp.apply_removes [F64.Fmt] [Sha256] {s : TaskStore} {op : StoreOp} (hs : WellKeyed s) {id : TaskId}
    {e : TaskEntry} (he : s.tasks.lookup id = some e) (hnone : (op.apply s).tasks.lookup id = none) :
    e.task.status.isTerminal = true := by
  have hkept : ¬ Keeps s (op.apply s) := by
    intro hkeeps
    rw [hkeeps id hnone] at he
    cases he
  cases op with
  | cleanupTerminal now =>
    by_cases hid : id ∈ s.staleIds now
    · exact isTerminal_of_stale hs hid he
    · have hsame : (s.cleanupTerminal now).2.tasks.lookup id = s.tasks.lookup id := cleanup_fold_keeps hid s
      have hgone : (s.cleanupTerminal now).2.tasks.lookup id = none := hnone
      rw [hsame, he] at hgone
      cases hgone
  | create id now orig pre principal ttl onTimeout =>
    exact absurd (Keeps.create s id now orig pre principal ttl onTimeout) hkept
  | transition now id newStatus reason => exact absurd (Keeps.transition s now id newStatus reason) hkept
  | transitionIf now id expected newStatus reason =>
    exact absurd (Keeps.transitionIf s now id expected newStatus reason) hkept
  | recordApproval now id decision decidedBy validFor =>
    exact absurd (Keeps.recordApproval s now id decision decidedBy validFor) hkept
  | complete now id result => exact absurd (Keeps.complete s now id result) hkept
  | fail now id failure => exact absurd (Keeps.fail s now id failure) hkept
  | cancel now id => exact absurd (Keeps.cancel s now id) hkept
  | recordAutoApproveResult now id result approval =>
    exact absurd (Keeps.recordAutoApproveResult s now id result approval) hkept
  | expireOverdue now => exact absurd (Keeps.sweep (expireOverdue_lookup hs now)) hkept
  | failAllPending now reason => exact absurd (Keeps.sweep (failAllPending_lookup hs now reason)) hkept

/-! ### The shutdown sweep -/

/-- No stored task waits for a decision. -/
def NoneInGap (s : TaskStore) : Prop := ∀ id e, s.tasks.lookup id = some e → e.task.status ≠ .inputRequired

theorem NoneInGap.canFail {s : TaskStore} (hnone : NoneInGap s) {id : TaskId} {e : TaskEntry}
    (he : s.tasks.lookup id = some e) (hlive : e.task.status.isTerminal = false) :
    e.task.status.canTransitionTo .failed = true := by
  by_contra hcan
  exact hnone id e he (status_of_failed_gap hlive (Bool.not_eq_true _ ▸ hcan))

/-- Without a task in the gap, all tasks are terminal after the sweep. -/
theorem NoneInGap.terminal {s : TaskStore} (hnone : NoneInGap s) (hs : WellKeyed s) {now : DateTime} {reason : String}
    {id : TaskId} {e : TaskEntry} (he : (s.failAllPending now reason).2.tasks.lookup id = some e) :
    e.task.status.isTerminal = true := by
  rw [failAllPending_lookup hs] at he
  obtain ⟨e₀, he₀, rfl⟩ := Option.map_eq_some_iff.mp he
  cases hterm : e₀.task.status.isTerminal with
  | true =>
    rw [failedEntry, if_pos hterm]
    exact hterm
  | false =>
    obtain ⟨task, htask⟩ := Task.transition_of_can
      (t := { e₀.task with failure := some ⟨.serviceShutdown, reason, true⟩ }) now (some reason)
      (hnone.canFail he₀ hterm)
    rw [failedEntry_moved htask, (Task.transition_ok htask).2]
    rfl

/-- Without a task in the gap, the sweep counts the live tasks. -/
theorem NoneInGap.counted {s : TaskStore} (hnone : NoneInGap s) (hs : WellKeyed s) (now : DateTime) (reason : String) :
    (s.failAllPending now reason).1 = s.liveTasks := by
  rw [failAllPending_count hs]
  refine Table.total_congr fun e he => ?_
  cases hterm : e.2.task.status.isTerminal with
  | true =>
    have hcan : e.2.task.status.canTransitionTo .failed = false := by
      by_contra hcan
      rw [TaskStatus.canTransitionTo_not_terminal (Bool.not_eq_false _ ▸ hcan)] at hterm
      cases hterm
    rw [hcan, TaskEntry.live, if_pos hterm]
    rfl
  | false =>
    rw [hnone.canFail (Table.mem_entries_iff.mp he) hterm, TaskEntry.live, hterm]
    rfl

section

variable [F64.Fmt] [Sha256] {config : TaskStoreConfig}

/-- A waiter that has found its task pending has been notified by the time the task is removed. -/
def WaitState.GoneNotified (s : WaitState TaskStore) : Prop :=
  ∀ w p id seen, s.waiters.lookup w = some p → p.relies = some (id, seen) → s.store.tasks.lookup id = none →
    seen < s.handles id

/-- A store operation that removes a task removes a terminal one, whose waiters have been notified. -/
theorem WaitState.GoneNotified.store {s s' : WaitState TaskStore} {op : StoreOp}
    (hs : (waitMachine (storeModel config)).Reachable s) (hI : s.GoneNotified)
    (hstep : (waitMachine (storeModel config)).step s (.store op) = some s') : s'.GoneNotified := by
  obtain ⟨hreach, hawake⟩ := reachable_awake (storeModel_notifying config) hs
  simp only [waitMachine] at hstep
  split at hstep
  · obtain ⟨store, hop, rfl⟩ := Option.map_eq_some_iff.mp hstep
    intro w p id seen hw hrelies hnone
    have hring : (s.ring (storeModel config) store).handles id = s.handles id := by
      have hgone : ((storeModel config).view store).tasks.lookup id = none := hnone
      simp only [WaitState.ring, hgone, Option.map_none, Option.getD_none]
    rw [hring]
    cases he : s.store.tasks.lookup id with
    | none => exact hI w p id seen hw hrelies he
    | some e =>
      have happly : store = op.apply s.store := by
        simp only [storeModel, storeMachine] at hop
        split at hop
        · exact (Option.some.inj hop).symm
        · cases hop
      subst happly
      have hterm := StoreOp.apply_removes (reachable_wellKeyed hreach) he hnone
      rcases hawake.covered w p id seen e hw hrelies he hterm with hrung | hclosing
      · exact hrung
      · exact hclosing.elim
  · cases hstep

/-- A waiter only comes to rely on a task that is stored. -/
theorem WaitState.GoneNotified.run {s s' : WaitState TaskStore} {w : Nat} {late : Bool} (hI : s.GoneNotified)
    (hstep : (waitMachine (storeModel config)).step s (.run w late) = some s') : s'.GoneNotified := by
  simp only [waitMachine] at hstep
  split at hstep
  · cases hstep
  · rename_i p hp
    split at hstep
    · obtain ⟨p', hnext, rfl⟩ := Option.map_eq_some_iff.mp hstep
      intro u q j seen hu hrelies hnone
      rcases waiters_insert hu with ⟨-, rfl⟩ | hold
      · cases WaitPc.next_goes hnext with
        | live hlook =>
          cases hrelies
          have hgone : ((storeModel config).view s.store).tasks.lookup j = none := hnone
          rw [hgone] at hlook
          cases hlook
        | suspend => exact hI w _ j seen hp hrelies hnone
        | create | handle | woken | timeout | done | failed => cases hrelies
      · exact hI u q j seen hold hrelies hnone
    · cases hstep

theorem reachable_goneNotified {s : WaitState TaskStore} (h : (waitMachine (storeModel config)).Reachable s) :
    s.GoneNotified := by
  refine Machine.ReachableWhen.invariant (I := WaitState.GoneNotified) (fun w p id seen hw => by cases hw) ?_ h
  intro s a s' hs hI _ ha
  cases a with
  | store op => exact hI.store hs.reachable ha
  | wait w id =>
    simp only [waitMachine] at ha
    split at ha
    · cases ha
      intro u p j seen hu hrelies hnone
      rcases waiters_insert hu with ⟨-, rfl⟩ | hold
      · cases hrelies
      · exact hI u p j seen hold hrelies hnone
    · cases ha
  | run w late => exact hI.run ha

variable (config) in
/-- The store and its waiters after a shutdown sweep. -/
def afterShutdown (s : WaitState TaskStore) (now : DateTime) (reason : String) : WaitState TaskStore :=
  s.ring (storeModel config) (s.store.failAllPending now reason).2

/-- The call is a step of the machine that is always possible. -/
theorem afterShutdown_step (s : WaitState TaskStore) (now : DateTime) (reason : String) :
    (waitMachine (storeModel config)).step s (.store (.failAllPending now reason)) =
      some (afterShutdown config s now reason) := rfl

variable (config) in
/-- `fail_all_pending` has done all it says: no task is left pending, the counters are zero, whoever waits for a
task has been notified, and the number returned is that of the tasks that were pending. -/
structure ShutdownSwept (s : WaitState TaskStore) (now : DateTime) (reason : String) : Prop where
  noneLive : ∀ id e, (afterShutdown config s now reason).store.tasks.lookup id = some e →
    e.task.status.isTerminal = true
  pendingCount : (afterShutdown config s now reason).store.pendingCount = 0
  pendingBytes : (afterShutdown config s now reason).store.pendingBytes = 0
  notified : ∀ w p id seen, (afterShutdown config s now reason).waiters.lookup w = some p →
    p.relies = some (id, seen) → seen < (afterShutdown config s now reason).handles id
  counted : (s.store.failAllPending now reason).1 = s.store.liveTasks

/-- The shutdown sweep is complete exactly when no task waits for a decision. -/
theorem fail_all_pending_complete_iff {s : WaitState TaskStore}
    (h : (waitMachine (storeModel config)).Reachable s) (now : DateTime) (reason : String) :
    ShutdownSwept config s now reason ↔
      ∀ id e, s.store.tasks.lookup id = some e → e.task.status ≠ .inputRequired := by
  have hs : WellKeyed s.store := reachable_wellKeyed (reachable_awake (storeModel_notifying config) h).1
  constructor
  · intro hswept id e he hst
    -- the task stays in the gap, with the failure written into it
    have hafter : (s.store.failAllPending now reason).2.tasks.lookup id =
        some (failedEntry now ⟨.serviceShutdown, reason, true⟩ e) := by
      rw [failAllPending_lookup hs, he, Option.map_some]
    have hterm := hswept.noneLive id _ hafter
    rw [failedEntry_gap hst, hst] at hterm
    cases hterm
  · intro hnone
    have hgap : NoneInGap s.store := hnone
    have hleft : ∀ id e, (s.store.failAllPending now reason).2.tasks.lookup id = some e →
        e.task.status.isTerminal = true := fun id e he => hgap.terminal hs he
    have hreach' : (waitMachine (storeModel config)).Reachable (afterShutdown config s now reason) :=
      h.step (afterShutdown_step s now reason)
    obtain ⟨hstore, hawake⟩ := reachable_awake (storeModel_notifying config) hreach'
    have hacc := reachable_accounted hstore
    have hzero : ∀ e ∈ (afterShutdown config s now reason).store.tasks.entries, e.2.live = 0 := by
      intro e he
      rw [TaskEntry.live, if_pos (hleft e.1 e.2 (Table.mem_entries_iff.mp he))]
    refine ⟨hleft, ?_, ?_, fun w p id seen hw hrelies => ?_, hgap.counted hs now reason⟩
    · rw [hacc.count]
      exact Table.total_eq_zero hzero
    · rw [hacc.bytes]
      refine Table.total_eq_zero fun e he => ?_
      rw [TaskEntry.liveBytes, hzero e he, Nat.zero_mul]
    · cases he : (afterShutdown config s now reason).store.tasks.lookup id with
      | none => exact reachable_goneNotified hreach' w p id seen hw hrelies he
      | some e =>
        rcases hawake.covered w p id seen e hw hrelies he (hleft id e he) with hrung | hclosing
        · exact hrung
        · exact hclosing.elim

end

section

attribute [local instance] Sample.f64Fmt Sample.sha256

/-- A task that has just been created, with somebody suspended on it. -/
theorem fail_all_pending_complete_sample :
    ∃ s : WaitState TaskStore, (waitMachine (storeModel {})).Reachable s ∧ s.store.pendingCount = 1 ∧
      ShutdownSwept {} s 2 "shutdown" ∧ (s.store.failAllPending 2 "shutdown").1 = 1 := by
  have hrun : ((waitMachine (storeModel {})).exec (waitMachine (storeModel {})).init
      ([WaitAct.store (StoreOp.create "tg_1" 0 Sample.request Sample.request Sample.principal none .deny), .wait 0 "tg_1"] ++
        List.replicate 4 (WaitAct.run 0 false))).any (fun s => decide (s.store.pendingCount = 1 ∧
          (s.store.failAllPending 2 "shutdown").1 = 1) &&
          s.store.tasks.entries.all fun e => decide (e.2.task.status ≠ .inputRequired)) = true := by
    decide
  obtain ⟨s, hreach, htest⟩ := Machine.exists_reachable_of_exec hrun
  obtain ⟨hfacts, hnone⟩ := Bool.and_eq_true_iff.mp htest
  obtain ⟨hpending, hone⟩ := of_decide_eq_true hfacts
  refine ⟨s, hreach, hpending, (fail_all_pending_complete_iff hreach _ _).mpr fun id e he => ?_, hone⟩
  exact of_decide_eq_true (List.all_eq_true.mp hnone ⟨id, e⟩ (Table.mem_entries_iff.mpr he))

/-- A task waits for a decision and a caller for the task: the shutdown fails nothing, the task keeps its slot and
the caller sleeps on. -/
theorem fail_all_pending_skips_waiting :
    ∃ s : WaitState TaskStore, (waitMachine (storeModel {})).Reachable s ∧
      (s.store.failAllPending 2 "shutdown").1 = 0 ∧ (afterShutdown {} s 2 "shutdown").store.pendingCount = 1 ∧
      (afterShutdown {} s 2 "shutdown").handles "tg_1" = 0 ∧ ¬ ShutdownSwept {} s 2 "shutdown" := by
  have hrun : ((waitMachine (storeModel {})).exec (waitMachine (storeModel {})).init
      ([WaitAct.store (StoreOp.create "tg_1" 0 Sample.request Sample.request Sample.principal none .deny),
        .store (.transition 1 "tg_1" .inputRequired none), .wait 0 "tg_1"] ++
        List.replicate 3 (WaitAct.run 0 false))).any (fun s =>
          decide ((s.store.failAllPending 2 "shutdown").1 = 0 ∧
            (afterShutdown {} s 2 "shutdown").store.pendingCount = 1 ∧
            (afterShutdown {} s 2 "shutdown").handles "tg_1" = 0)) = true := by
    decide
  obtain ⟨s, hreach, htest⟩ := Machine.exists_reachable_of_exec hrun
  obtain ⟨hzero, hslot, hsilent⟩ := of_decide_eq_true htest
  refine ⟨s, hreach, hzero, hslot, hsilent, fun hswept => ?_⟩
  have hempty := hswept.pendingCount
  rw [hslot] at hempty
  cases hempty

end

end ThoughtGate
