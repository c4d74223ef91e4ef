import ThoughtGate.Approval.Scheduler

/-!
# The queue loses no task

Each task in `references` should stand in the queue once. `poll_next` takes the entry out of the queue first and puts it
back after several awaits, so the entry wanders: it is in the queue, or with one of the calls (`carries`). The invariant
is about this token: a task has at most one, and one if it is in `references`.

A call that is dropped while it carries a token loses it (`poll_dropped`), and the task is never polled again
(`lost_for_good`). In runs where that happens to no task in `references`, and where `submit` stores a reference only for
a task that has no token yet, every task in `references` has exactly one entry whenever no poll is in flight
(`queued_exactly_once`).
-/

namespace ThoughtGate

namespace PollQueue

theorem first_mem {q : PollQueue} {nextPollAt : Instant} {id : TaskId} (h : q.first = some (nextPollAt, id)) :
    toLex (nextPollAt, id) ∈ q := by
  unfold first at h
  cases hmin : q.min with
  | top =>
    rw [hmin] at h
    cases h
  | coe k =>
    rw [hmin] at h
    have hk : ofLex k = (nextPollAt, id) := Option.some.inj h
    have hkey : toLex (nextPollAt, id) = k := by rw [← hk, toLex_ofLex]
    rw [hkey]
    exact Finset.mem_of_min hmin

theorem entriesOf_erase {q : PollQueue} {nextPollAt : Instant} {id : TaskId} (h : toLex (nextPollAt, id) ∈ q) :
    entriesOf (q.erase (toLex (nextPollAt, id))) id + 1 = entriesOf q id := by
  unfold entriesOf
  rw [Finset.filter_erase]
  exact Finset.card_erase_add_one (by simp [h])

theorem entriesOf_erase_ne (q : PollQueue) (nextPollAt : Instant) {id id' : TaskId} (h : id' ≠ id) :
    entriesOf (q.erase (toLex (nextPollAt, id))) id' = entriesOf q id' := by
  unfold entriesOf
  rw [Finset.filter_erase, Finset.erase_eq_of_notMem]
  simp [h.symm]

theorem entriesOf_insert {q : PollQueue} (nextPollAt : Instant) {id : TaskId} (h : entriesOf q id = 0) :
    entriesOf (insert (toLex (nextPollAt, id)) q) id = 1 := by
  unfold entriesOf at h ⊢
  rw [Finset.card_eq_zero] at h
  simp [Finset.filter_insert, h]

theorem entriesOf_insert_ne (q : PollQueue) (nextPollAt : Instant) {id id' : TaskId} (h : id' ≠ id) :
    entriesOf (insert (toLex (nextPollAt, id)) q) id' = entriesOf q id' := by
  unfold entriesOf
  simp [Finset.filter_insert, h.symm]

end PollQueue

namespace SchedulerPc

/-- The task whose queue entry the call carries. -/
def carries : SchedulerPc → Option TaskId
  | .taken id | .checking id _ | .limiting id _ | .polling id _ | .unlisting id _ | .rescheduling id _ _
  | .requeueing id _ | .queueing id _ => some id
  | _ => none

/-- The call ends here without putting anything back: its future is dropped, or the next poll time overflows. -/
def abandons (p : SchedulerPc) : SchedulerInput → Bool
  | .drop => true
  | .clock now =>
    match p with
    | .rescheduling _ _ wait => (now.checkedAdd wait).isNone
    | _ => false
  | _ => false

/-- The task that a finished or running call carries. -/
def carried (p' : Option SchedulerPc) : Option TaskId := p'.bind carries

end SchedulerPc

open SchedulerPc

/-! ### What a step can do -/

/-- The steps, by what they do to the queue, to `references` and to what the call carries. -/
inductive SchedulerStep (s : SchedulerState) : SchedulerPc → SchedulerInput → SchedulerState → Option SchedulerPc → Prop
  | still {p : SchedulerPc} {i : SchedulerInput} {store : TaskStore} {p' : Option SchedulerPc} :
      carried p' = p.carries → (∀ id nextPollAt, p' ≠ some (.queueing id nextPollAt)) →
      SchedulerStep s p i { s with store } p'
  | popped {i : SchedulerInput} {nextPollAt : Instant} {id : TaskId} : toLex (nextPollAt, id) ∈ s.pending →
      SchedulerStep s .locking i { s with pending := s.pending.erase (toLex (nextPollAt, id)) } (some (.taken id))
  | untracked {i : SchedulerInput} {id : TaskId} : s.references.lookup id = none →
      SchedulerStep s (.taken id) i s (some .sleeping)
  | unlisted {p : SchedulerPc} {i : SchedulerInput} {id : TaskId} {why : Removal} {p' : Option SchedulerPc} :
      p.carries = some id ∨ p.carries = none → carried p' = none → SchedulerStep s p i (s.unlist id why) p'
  | relisted {i : SchedulerInput} {id : TaskId} {r r' : ApprovalReference} {wait : Duration} {nextPollAt : Instant} :
      SchedulerStep s (.rescheduling id r wait) i (s.list id r') (some (.requeueing id nextPollAt))
  | requeued {i : SchedulerInput} {id : TaskId} {nextPollAt : Instant} :
      SchedulerStep s (.requeueing id nextPollAt) i (s.enqueue nextPollAt id) none
  | abandoned {p : SchedulerPc} {i : SchedulerInput} : p.abandons i = true → SchedulerStep s p i s none
  | stored {i : SchedulerInput} {r : ApprovalReference} :
      SchedulerStep s (.storing r) i (s.list r.taskId r) (some (.queueing r.taskId r.nextPollAt))
  | queued {i : SchedulerInput} {id : TaskId} {nextPollAt : Instant} :
      SchedulerStep s (.queueing id nextPollAt) i
        { s.enqueue nextPollAt id with log := s.log ++ [SchedulerEvent.submitted id] } none

theorem carried_afterPoll (config : PollingConfig) (id : TaskId) (r : ApprovalReference)
    (answer : Except AdapterError (Option PollResult)) : (afterPoll config id r answer).carries = some id := by
  unfold afterPoll
  split
  · rfl
  · rfl
  · rfl
  · rfl
  · split <;> rfl

theorem afterPoll_ne_queueing (config : PollingConfig) (id : TaskId) (r : ApprovalReference)
    (answer : Except AdapterError (Option PollResult)) (id' : TaskId) (nextPollAt : Instant) :
    afterPoll config id r answer ≠ .queueing id' nextPollAt := by
  unfold afterPoll
  split
  · simp
  · simp [afterPoll.backoff]
  · simp
  · simp
  · split <;> simp [afterPoll.backoff]

theorem carried_afterUnlisting (id : TaskId) (why : Removal) : carried (afterUnlisting id why) = none := by
  cases why <;> rfl

section

variable [F64.Fmt] [Sha256]

theorem locking_next {config : PollingConfig} {s s' : SchedulerState} {i : SchedulerInput} {p' : Option SchedulerPc}
    (h : next config s .locking i = some (s', p')) : SchedulerStep s .locking i s' p' := by
  cases i with
  | clock now =>
    unfold next at h
    dsimp only at h
    cases hfirst : s.pending.first with
    | none =>
      rw [hfirst] at h
      cases h
      exact .still rfl (by simp)
    | some k =>
      rw [hfirst] at h
      dsimp only at h
      split at h
      · cases h
        exact .still rfl (by simp)
      · cases h
        exact .popped (PollQueue.first_mem hfirst)
  | drop =>
    cases h
    exact .abandoned rfl
  | _ => cases h

theorem checking_next {config : PollingConfig} {s s' : SchedulerState} {id : TaskId} {r : ApprovalReference}
    {i : SchedulerInput} {p' : Option SchedulerPc} (h : next config s (.checking id r) i = some (s', p')) :
    SchedulerStep s (.checking id r) i s' p' := by
  cases i with
  | utc now =>
    unfold next at h
    dsimp only at h
    split at h
    · cases h
      exact .still rfl (by simp)
    · split at h
      · cases h
        exact .still rfl (by simp)
      · split at h
        · cases h
          exact .still rfl (by simp)
        · cases h
          exact .still rfl (by simp)
  | _ => cases h

theorem rescheduling_next {config : PollingConfig} {s s' : SchedulerState} {id : TaskId} {r : ApprovalReference}
    {wait : Duration} {i : SchedulerInput} {p' : Option SchedulerPc}
    (h : next config s (.rescheduling id r wait) i = some (s', p')) :
    SchedulerStep s (.rescheduling id r wait) i s' p' := by
  cases i with
  | clock now =>
    unfold next at h
    dsimp only at h
    cases hadd : now.checkedAdd wait with
    | none =>
      rw [hadd] at h
      cases h
      exact .abandoned (by simp [abandons, hadd])
    | some nextPollAt =>
      rw [hadd] at h
      cases h
      exact .relisted
  | _ => cases h

/-- Taking references out from elsewhere: the calls of `cancel` and `drain_pending` carry nothing. -/
theorem removing_next {config : PollingConfig} {s s' : SchedulerState} {p : SchedulerPc} {i : SchedulerInput}
    {p' : Option SchedulerPc} (hp : (∃ id, p = .cancelling id) ∨ ∃ ids, p = .draining ids)
    (h : p.next config s i = some (s', p')) : SchedulerStep s p i s' p' := by
  rcases hp with ⟨id, rfl⟩ | ⟨ids, rfl⟩
  · cases i with
    | go =>
      unfold next at h
      dsimp only at h
      split at h
      · cases h
        exact .still rfl (by simp)
      · cases h
        exact .unlisted (Or.inr rfl) rfl
    | _ => cases h
  · cases ids with
    | nil =>
      cases i with
      | go =>
        cases h
        exact .still rfl (by simp)
      | _ => cases h
    | cons id ids =>
      cases i with
      | go =>
        unfold next at h
        dsimp only at h
        split at h
        · cases h
          exact .still rfl (by simp)
        · cases h
          exact .unlisted (Or.inr rfl) rfl
      | _ => cases h

theorem scheduler_next {config : PollingConfig} {s s' : SchedulerState} {p : SchedulerPc} {i : SchedulerInput}
    {p' : Option SchedulerPc} (h : p.next config s i = some (s', p')) : SchedulerStep s p i s' p' := by
  cases p with
  | locking => exact locking_next h
  -- the awaits between which nothing changes
  | napping _ | sleeping | limiting _ _ | throttled _ | notifying _ =>
    cases i with
    | go =>
      cases h
      exact .still rfl (by simp)
    | drop =>
      cases h
      exact .abandoned rfl
    | _ => cases h
  | taken id =>
    cases i with
    | go =>
      unfold next at h
      dsimp only at h
      cases hr : s.references.lookup id with
      | none =>
        rw [hr] at h
        cases h
        exact .untracked hr
      | some r =>
        rw [hr] at h
        cases h
        exact .still rfl (by simp)
    | _ => cases h
  | checking id r => exact checking_next h
  | polling id r =>
    cases i with
    | polled answer =>
      cases h
      refine .still (carried_afterPoll config id r answer) ?_
      intro id' nextPollAt heq
      exact afterPoll_ne_queueing config id r answer id' nextPollAt (Option.some.inj heq)
    | drop =>
      cases h
      exact .abandoned rfl
    | _ => cases h
  | unlisting id why =>
    cases i with
    | go =>
      cases h
      exact .unlisted (Or.inl rfl) (carried_afterUnlisting id why)
    | _ => cases h
  | expiring _ | recording _ _ =>
    cases i with
    | utc now =>
      cases h
      exact .still rfl (by simp)
    | _ => cases h
  | rescheduling id r wait => exact rescheduling_next h
  | requeueing id nextPollAt =>
    cases i with
    | go =>
      cases h
      exact .requeued
    | drop =>
      cases h
      exact .abandoned rfl
    | _ => cases h
  | submitting request =>
    cases i with
    | go =>
      unfold next at h
      dsimp only at h
      split at h
      · cases h
        exact .still rfl (by simp)
      · cases h
        exact .still rfl (by simp)
    | _ => cases h
  | posting request =>
    cases i with
    | posted answer =>
      cases answer with
      | error e =>
        cases h
        exact .still rfl (by simp)
      | ok r =>
        cases h
        exact .still rfl (by simp)
    | drop =>
      cases h
      exact .abandoned rfl
    | _ => cases h
  | storing r =>
    cases i with
    | go =>
      cases h
      exact .stored
    | _ => cases h
  | queueing id nextPollAt =>
    cases i with
    | go =>
      cases h
      exact .queued
    | drop =>
      cases h
      exact .abandoned rfl
    | _ => cases h
  | cancelling id => exact removing_next (Or.inl ⟨id, rfl⟩) h
  | drain | op _ =>
    cases i with
    | go =>
      cases h
      exact .still rfl (by simp)
    | _ => cases h
  | draining ids => exact removing_next (Or.inr ⟨ids, rfl⟩) h

end

/-! ### Tokens -/

/-- The condition on a step, checked in the state before it: a call that is given up carries no entry of a task in
`references`, and `submit` stores a reference only for a task that has no entry, in the queue or with a call. -/
def kept (s : ThreadState SchedulerState SchedulerPc) : ThreadAct SchedulerPc SchedulerInput → Bool
  | .spawn _ _ => true
  | .run t i =>
    match s.threads.lookup t with
    | none => true
    | some p =>
      (!p.abandons i || p.carries.all fun id => (s.shared.references.lookup id).isNone) &&
      match p with
      | .storing r =>
        s.shared.pending.entriesOf r.taskId == 0 && s.threads.entries.all fun e => e.2.carries != some r.taskId
      | _ => true

/-- One for a call that carries the task's entry. -/
def carriesOf (id : TaskId) (p : SchedulerPc) : Nat := if p.carries = some id then 1 else 0

theorem carriesOf_self {id : TaskId} {p : SchedulerPc} (h : p.carries = some id) : carriesOf id p = 1 := if_pos h

theorem carriesOf_other {id : TaskId} {p : SchedulerPc} (h : p.carries ≠ some id) : carriesOf id p = 0 := if_neg h

theorem weigh_carriesOf (id : TaskId) (p' : Option SchedulerPc) :
    Program.weigh (carriesOf id) p' = if carried p' = some id then 1 else 0 := by
  cases p' with
  | none => rfl
  | some p => rfl

/-- A task has at most one entry, in the queue or with a call (`n` calls carry it), and has one if it is in
`references`. -/
def OneToken (id : TaskId) (s : SchedulerState) (n : Nat) : Prop :=
  s.pending.entriesOf id + n ≤ 1 ∧ ((s.references.lookup id).isSome = true → s.pending.entriesOf id + n = 1)

theorem enqueue_token {id id₀ : TaskId} {q : PollQueue} {p : SchedulerPc} {nextPollAt : Instant}
    (hle : q.entriesOf id + carriesOf id p ≤ 1) (hp : p.carries = some id₀) :
    PollQueue.entriesOf (insert (toLex (nextPollAt, id₀)) q) id + 0 = q.entriesOf id + carriesOf id p := by
  by_cases hid : id₀ = id
  · subst hid
    have hcarries := carriesOf_self hp
    have hinsert : PollQueue.entriesOf (insert (toLex (nextPollAt, id₀)) q) id₀ = 1 :=
      PollQueue.entriesOf_insert nextPollAt (by omega)
    omega
  · have hother : carriesOf id p = 0 := carriesOf_other fun heq => hid (Option.some.inj (hp.symm.trans heq))
    have hinsert := PollQueue.entriesOf_insert_ne q nextPollAt (Ne.symm hid)
    omega

theorem pop_token {id id₀ : TaskId} {q : PollQueue} {nextPollAt : Instant} (hmem : toLex (nextPollAt, id₀) ∈ q) :
    PollQueue.entriesOf (q.erase (toLex (nextPollAt, id₀))) id + carriesOf id (.taken id₀) = q.entriesOf id := by
  by_cases hid : id₀ = id
  · subst hid
    rw [carriesOf_self rfl]
    exact PollQueue.entriesOf_erase hmem
  · have hother : carriesOf id (.taken id₀) = 0 := carriesOf_other fun heq => hid (Option.some.inj heq)
    rw [hother]
    exact PollQueue.entriesOf_erase_ne q nextPollAt (Ne.symm hid)

/-- A step from the point of view of one task. Its token stays, perhaps moved, and the task is in `references` only if it
was or if the token was with the call; or the task is out of `references` afterwards; or the call is given up; or it is
a `submit` that stores the reference. -/
theorem SchedulerStep.token {s s' : SchedulerState} {p : SchedulerPc} {i : SchedulerInput} {p' : Option SchedulerPc}
    (h : SchedulerStep s p i s' p') (id : TaskId) (hle : s.pending.entriesOf id + carriesOf id p ≤ 1) :
    (s'.pending.entriesOf id + Program.weigh (carriesOf id) p' = s.pending.entriesOf id + carriesOf id p ∧
      ((s'.references.lookup id).isSome = true → (s.references.lookup id).isSome = true ∨ carriesOf id p = 1)) ∨
    (s'.pending.entriesOf id + Program.weigh (carriesOf id) p' ≤ s.pending.entriesOf id + carriesOf id p ∧
      s'.references.lookup id = none) ∨
    (p.abandons i = true ∧ p.carries = some id ∧ s' = s ∧ p' = none) ∨
    (∃ r, p = .storing r ∧ r.taskId = id ∧ s'.pending = s.pending ∧ Program.weigh (carriesOf id) p' = 1) := by
  cases h with
  | still hcarried _ =>
    refine Or.inl ⟨?_, Or.inl⟩
    rw [weigh_carriesOf, hcarried]
    rfl
  | popped hmem =>
    exact Or.inl ⟨pop_token hmem, Or.inl⟩
  | untracked hnone =>
    rename_i id₀
    by_cases hid : id₀ = id
    · subst hid
      refine Or.inr (Or.inl ⟨?_, hnone⟩)
      simp [carriesOf, carries]
    · refine Or.inl ⟨?_, Or.inl⟩
      simp [carriesOf, carries, hid]
  | unlisted hcarries hcarried =>
    rename_i id₀ why
    have hgone : Program.weigh (carriesOf id) p' = 0 := by rw [weigh_carriesOf, hcarried]; rfl
    by_cases hid : id₀ = id
    · subst hid
      refine Or.inr (Or.inl ⟨?_, AList.lookup_erase _ _⟩)
      simp only [SchedulerState.unlist, hgone]
      omega
    · have hother : carriesOf id p = 0 := by
        apply carriesOf_other
        rcases hcarries with hc | hc
        · rw [hc]
          exact fun heq => hid (Option.some.inj heq)
        · rw [hc]
          exact fun heq => by cases heq
      refine Or.inl ⟨?_, ?_⟩
      · simp only [SchedulerState.unlist, hgone, hother]
      · intro hsome
        rw [SchedulerState.unlist, AList.lookup_erase_ne (Ne.symm hid)] at hsome
        exact Or.inl hsome
  | relisted =>
    rename_i id₀ r r' wait nextPollAt
    refine Or.inl ⟨rfl, ?_⟩
    intro hsome
    by_cases hid : id₀ = id
    · exact Or.inr (carriesOf_self (congrArg some hid))
    · rw [SchedulerState.list, AList.lookup_insert_ne (Ne.symm hid)] at hsome
      exact Or.inl hsome
  | requeued =>
    rename_i id₀ nextPollAt
    refine Or.inl ⟨?_, Or.inl⟩
    exact enqueue_token hle rfl
  | abandoned hgone =>
    by_cases hc : p.carries = some id
    · exact Or.inr (Or.inr (Or.inl ⟨hgone, hc, rfl, rfl⟩))
    · refine Or.inl ⟨?_, Or.inl⟩
      rw [carriesOf_other hc]
      rfl
  | stored =>
    rename_i r
    by_cases hid : r.taskId = id
    · refine Or.inr (Or.inr (Or.inr ⟨r, rfl, hid, rfl, ?_⟩))
      exact carriesOf_self (congrArg some hid)
    · refine Or.inl ⟨?_, ?_⟩
      · simp [carriesOf, carries, hid, SchedulerState.list]
      · intro hsome
        rw [SchedulerState.list, AList.lookup_insert_ne (Ne.symm hid)] at hsome
        exact Or.inl hsome
  | queued =>
    rename_i id₀ nextPollAt
    refine Or.inl ⟨?_, Or.inl⟩
    exact enqueue_token hle rfl

theorem OneToken.step {id : TaskId} {s s' : SchedulerState} {p : SchedulerPc} {i : SchedulerInput}
    {p' : Option SchedulerPc} {n : Nat} (h : OneToken id s (carriesOf id p + n)) (hstep : SchedulerStep s p i s' p')
    (hgiven : p.abandons i = true → p.carries = some id → s.references.lookup id = none)
    (hfresh : ∀ r, p = .storing r → r.taskId = id → s.pending.entriesOf id = 0 ∧ n = 0) :
    OneToken id s' (Program.weigh (carriesOf id) p' + n) := by
  obtain ⟨hle, hone⟩ := h
  rcases hstep.token id (by omega) with ⟨hsame, href⟩ | ⟨hless, hnone⟩ | ⟨hgone, hc, rfl, rfl⟩ | ⟨r, hp, hid, hq, hw⟩
  · refine ⟨by omega, ?_⟩
    intro hsome
    rcases href hsome with hsome' | hcarries
    · have := hone hsome'
      omega
    · omega
  · refine ⟨by omega, ?_⟩
    intro hsome
    rw [hnone] at hsome
    cases hsome
  · refine ⟨by simp only [Program.weigh_none]; omega, ?_⟩
    intro hsome
    rw [hgiven hgone hc] at hsome
    cases hsome
  · obtain ⟨hzero, hn⟩ := hfresh r hp hid
    have htotal : s'.pending.entriesOf id + (Program.weigh (carriesOf id) p' + n) = 1 := by
      rw [hq, hzero, hw, hn]
    exact ⟨htotal.le, fun _ => htotal⟩

theorem carriesOf_of_starts (id : TaskId) {p : SchedulerPc} (h : p.starts = true) : carriesOf id p = 0 := by
  cases p with
  | locking | submitting _ | cancelling _ | drain | op _ => rfl
  | _ => cases h

section

variable [F64.Fmt] [Sha256] {config : PollingConfig} {storeConfig : TaskStoreConfig}

/-- In a run whose steps are all `kept`, every task has at most one token, and one if it is in `references`. -/
theorem reachable_oneToken {s : ThreadState SchedulerState SchedulerPc}
    (h : (schedulerMachine config storeConfig).ReachableWhen (fun s a => kept s a = true) s) (id : TaskId) :
    OneToken id s.shared (Table.total (fun _ p => carriesOf id p) s.threads) := by
  refine Program.total_invariant (A := schedulerProgram config storeConfig) (R := OneToken id) (carriesOf id) ?_ ?_ ?_ h
  · refine ⟨Nat.zero_le 1, fun hsome => ?_⟩
    cases hsome
  · intro s threads p hstart
    exact carriesOf_of_starts id hstart
  · intro s t i p shared p' _ hkept hp hnext htoken
    simp only [kept, hp, Bool.and_eq_true, Bool.or_eq_true, Bool.not_eq_true'] at hkept
    obtain ⟨hgiven, hfresh⟩ := hkept
    refine htoken.step (scheduler_next hnext) ?_ ?_
    · intro hgone hc
      rw [hgone, hc] at hgiven
      simpa using hgiven
    · rintro r rfl rfl
      simp only [Bool.and_eq_true, beq_iff_eq, List.all_eq_true] at hfresh
      refine ⟨hfresh.1, Table.total_eq_zero ?_⟩
      intro e he
      have hmem : e ∈ s.threads.entries := (List.kerase_sublist t s.threads.entries).subset he
      exact carriesOf_other (by simpa using hfresh.2 e hmem)

/-! ### Who is in `references` -/

/-- The task is in `references`, or was taken out. -/
def Tracked (s : SchedulerState) (id : TaskId) : Prop :=
  (s.references.lookup id).isSome = true ∨ ∃ why, SchedulerEvent.removed id why ∈ s.log

omit [F64.Fmt] [Sha256] in
theorem Tracked.list {s : SchedulerState} {id : TaskId} (h : Tracked s id) (id' : TaskId) (r : ApprovalReference) :
    Tracked (s.list id' r) id := by
  rcases h with hsome | hremoved
  · refine Or.inl ?_
    by_cases hid : id = id'
    · subst hid
      simp [SchedulerState.list]
    · rwa [SchedulerState.list, AList.lookup_insert_ne hid]
  · exact Or.inr hremoved

omit [F64.Fmt] [Sha256] in
theorem Tracked.step {s s' : SchedulerState} {p : SchedulerPc} {i : SchedulerInput} {p' : Option SchedulerPc}
    (hstep : SchedulerStep s p i s' p') {id : TaskId} (h : Tracked s id) : Tracked s' id := by
  cases hstep with
  | still _ _ | popped _ | untracked _ | requeued | abandoned _ => exact h
  | relisted | stored => exact h.list _ _
  | queued =>
    rcases h with hsome | ⟨why, hmem⟩
    · exact Or.inl hsome
    · exact Or.inr ⟨why, List.mem_append_left _ hmem⟩
  | unlisted hcarries hcarried =>
    rename_i id₀ why
    rcases h with hsome | ⟨why', hmem⟩
    · by_cases hid : id = id₀
      · exact Or.inr ⟨why, by simp [SchedulerState.unlist, hid]⟩
      · exact Or.inl (by rwa [SchedulerState.unlist, AList.lookup_erase_ne hid])
    · exact Or.inr ⟨why', List.mem_append_left _ hmem⟩

/-- What is logged as submitted, or is about to be, is in `references` or was taken out. -/
def SubmitsTracked (s : ThreadState SchedulerState SchedulerPc) : Prop :=
  (∀ id, SchedulerEvent.submitted id ∈ s.shared.log → Tracked s.shared id) ∧
  ∀ t id nextPollAt, s.threads.lookup t = some (.queueing id nextPollAt) → Tracked s.shared id

theorem reachable_submitsTracked {s : ThreadState SchedulerState SchedulerPc}
    (h : (schedulerMachine config storeConfig).Reachable s) : SubmitsTracked s := by
  have hinit : SubmitsTracked (schedulerMachine config storeConfig).init := by
    refine ⟨?_, ?_⟩
    · intro id hmem
      cases hmem
    · intro t id nextPollAt hp
      cases hp
  refine Machine.Reachable.invariant hinit ?_ h
  intro s a s' hI ha
  obtain ⟨hlog, hthreads⟩ := hI
  rcases Program.step_cases ha with ⟨t, p, rfl, -, hstart, rfl⟩ | ⟨t, i, p, shared, p', rfl, hp, -, hnext, rfl⟩
  · refine ⟨hlog, ?_⟩
    intro u id nextPollAt hu
    by_cases hut : u = t
    · subst hut
      rw [AList.lookup_insert] at hu
      cases hu
      cases hstart
    · rw [AList.lookup_insert_ne hut] at hu
      exact hthreads u id nextPollAt hu
  · have hstep := scheduler_next hnext
    have hkeep : ∀ id, Tracked s.shared id → Tracked shared id := fun id htracked => htracked.step hstep
    refine ⟨?_, ?_⟩
    · intro id hmem
      by_cases hold : SchedulerEvent.submitted id ∈ s.shared.log
      · exact hkeep id (hlog id hold)
      · -- the event is new: the call was at `queueing`
        cases hstep with
        | still _ _ | popped _ | untracked _ | requeued | abandoned _ | relisted | stored => exact absurd hmem hold
        | unlisted _ _ =>
          simp only [SchedulerState.unlist, List.mem_append, List.mem_singleton] at hmem
          rcases hmem with hmem | hmem
          · exact absurd hmem hold
          · cases hmem
        | queued =>
          simp only [List.mem_append, List.mem_singleton] at hmem
          rcases hmem with hmem | hmem
          · exact absurd hmem hold
          · cases hmem
            exact hkeep _ (hthreads t _ _ hp)
    · intro u id nextPollAt hu
      rcases Program.settle_cases hu with ⟨rfl, rfl⟩ | ⟨-, hu⟩
      · cases hstep with
        | still hcarried hne => exact absurd rfl (hne id nextPollAt)
        | unlisted _ hcarried => cases hcarried
        | stored => exact Or.inl (by simp [SchedulerState.list])
      · exact hkeep id (hthreads u id nextPollAt hu)

omit [F64.Fmt] [Sha256] in
/-- Beside the polls only a `submit` between its two insertions carries a token. -/
theorem queueing_of_carries {p : SchedulerPc} {id : TaskId} (hpoll : p.isPoll = false) (hc : p.carries = some id) :
    ∃ nextPollAt, p = .queueing id nextPollAt := by
  cases p with
  | queueing id' nextPollAt =>
    cases hc
    exact ⟨nextPollAt, rfl⟩
  | submitting _ | throttled _ | posting _ | storing _ | cancelling _ | notifying _ | drain | draining _ | op _ => cases hc
  | _ => cases hpoll

/-- In a run whose steps are all `kept`: when no poll is in flight, every task in `references` whose `submit` is not
between its two insertions has exactly one entry in the queue. A submitted task that was not taken out of `references`
is there. -/
theorem queued_exactly_once {s : ThreadState SchedulerState SchedulerPc}
    (h : (schedulerMachine config storeConfig).ReachableWhen (fun s a => kept s a = true) s)
    (hidle : ∀ t p, s.threads.lookup t = some p → p.isPoll = false) :
    (∀ id, (s.shared.references.lookup id).isSome = true →
      (∀ t nextPollAt, s.threads.lookup t ≠ some (.queueing id nextPollAt)) → s.shared.pending.entriesOf id = 1) ∧
    (∀ id, .submitted id ∈ s.shared.log → (∀ why, .removed id why ∉ s.shared.log) →
      (s.shared.references.lookup id).isSome = true) := by
  refine ⟨?_, ?_⟩
  · intro id hsome hsubmit
    have hnone : Table.total (fun _ p => carriesOf id p) s.threads = 0 := by
      refine Table.total_eq_zero fun e he => carriesOf_other ?_
      have hlookup := Table.mem_entries_iff.mp he
      intro hc
      obtain ⟨nextPollAt, hpc⟩ := queueing_of_carries (hidle e.1 e.2 hlookup) hc
      rw [hpc] at hlookup
      exact hsubmit e.1 nextPollAt hlookup
    have htoken := (reachable_oneToken h id).2 hsome
    rw [hnone] at htoken
    exact htoken
  · intro id hmem hremoved
    rcases (reachable_submitsTracked h.reachable).1 id hmem with hsome | ⟨why, hwhy⟩
    · exact hsome
    · exact absurd hwhy (hremoved why)

/-! ### A lost task -/

/-- A task without a token gets none any more, unless it is submitted again: it is never polled. -/
theorem lost_for_good {s s' : ThreadState SchedulerState SchedulerPc} {id : TaskId}
    (h : (schedulerMachine config storeConfig).LeadsWhen
      (fun s a => ∀ t i r, a = .run t i → s.threads.lookup t = some (.storing r) → r.taskId ≠ id) s s')
    (hlost : s.shared.pending.entriesOf id + Table.total (fun _ p => carriesOf id p) s.threads = 0) :
    s'.shared.pending.entriesOf id + Table.total (fun _ p => carriesOf id p) s'.threads = 0 := by
  induction h with
  | refl => exact hlost
  | @tail s₁ s₂ _ hstep ih =>
    obtain ⟨a, hother, ha⟩ := hstep
    rcases Program.step_cases ha with ⟨t, p, rfl, hnone, hstart, rfl⟩ | ⟨t, i, p, shared, p', rfl, hp, -, hnext, rfl⟩
    · dsimp only
      rw [Table.total_insert_new _ _ hnone, carriesOf_of_starts id hstart]
      omega
    · have hle : carriesOf id p ≤ Table.total (fun _ p => carriesOf id p) s₁.threads :=
        Table.le_total (fun _ p => carriesOf id p) hp
      have hsettle := Program.total_settle (carriesOf id) hp p'
      dsimp only
      rcases (scheduler_next hnext).token id (by omega) with ⟨hsame, -⟩ | ⟨hless, -⟩ | ⟨-, hc, -⟩ | ⟨r, rfl, hid, -⟩
      · omega
      · omega
      · have hcarries := carriesOf_self hc
        omega
      · exact absurd hid (hother t i r rfl hp)

end

namespace Sample

def reference : ApprovalReference where
  taskId := "tg_1"
  externalId := "1700000000.000100"
  channel := "C1"
  postedAt := 0
  nextPollAt := 10
  pollCount := 0

def approvalRequest : ApprovalRequest where
  taskId := "tg_1"
  toolName := request.name
  toolArguments := request.arguments
  principal
  expiresAt := 600000000000
  createdAt := 0
  correlationId := "corr"
  redactFields := []

/-- The task `tg_1` is created, waits for input and is submitted. -/
def submitted : List (ThreadAct SchedulerPc SchedulerInput) :=
  [.spawn 0 (.op (.create "tg_1" 0 request request principal none .deny)), .run 0 .go,
   .spawn 0 (.op (.transition 1 "tg_1" .inputRequired none)), .run 0 .go,
   .spawn 0 (.submitting approvalRequest), .run 0 .go, .run 0 .go, .run 0 (.posted (.ok reference)), .run 0 .go, .run 0 .go]

/-- A poll takes the entry and waits for the limiter. -/
def polled : List (ThreadAct SchedulerPc SchedulerInput) :=
  [.spawn 1 .locking, .run 1 (.clock 20), .run 1 .go, .run 1 (.utc 20)]

/-- The adapter has no decision yet and the poll puts the entry back. -/
def rescheduled : List (ThreadAct SchedulerPc SchedulerInput) :=
  [.run 1 .go, .run 1 (.polled (.ok none)), .run 1 (.clock 30), .run 1 .go]

/-- No call is running, and the task waits for input, is in `references` and has so many entries. -/
def waiting (n : Nat) (s : ThreadState SchedulerState SchedulerPc) : Bool :=
  s.threads.entries.isEmpty && (s.shared.references.lookup "tg_1").isSome &&
    (s.shared.store.get "tg_1").toOption.any (fun task => task.status == .inputRequired) &&
    s.shared.pending.entriesOf "tg_1" == n

theorem facts_of_waiting {n : Nat} {s : ThreadState SchedulerState SchedulerPc} (h : waiting n s = true) :
    (∀ t, s.threads.lookup t = none) ∧ (s.shared.references.lookup "tg_1").isSome = true ∧
      (∃ task, s.shared.store.get "tg_1" = .ok task ∧ task.status = .inputRequired) ∧
      s.shared.pending.entriesOf "tg_1" = n := by
  simp only [waiting, Bool.and_eq_true, beq_iff_eq, and_assoc] at h
  obtain ⟨hempty, hlisted, hstatus, hentries⟩ := h
  refine ⟨fun t => ?_, hlisted, ?_, hentries⟩
  · rw [AList.lookup_eq_none]
    intro hmem
    have hmem' : t ∈ s.threads.entries.keys := hmem
    rw [List.isEmpty_iff.mp hempty] at hmem'
    cases hmem'
  · cases hget : s.shared.store.get "tg_1" with
    | error e =>
      rw [hget] at hstatus
      cases hstatus
    | ok task =>
      rw [hget] at hstatus
      exact ⟨task, rfl, beq_iff_eq.mp hstatus⟩

end Sample

section

attribute [local instance] Sample.f64Fmt Sample.sha256

/-- The tick of the expiration sweep drops a poll that waits for the limiter: the task is in `references`, waits for
its decision and has no entry in the queue. -/
theorem poll_dropped :
    ∃ s, (schedulerMachine {} {}).Reachable s ∧ (∀ t p, s.threads.lookup t = some p → p.isPoll = false) ∧
      (s.shared.references.lookup "tg_1").isSome = true ∧
      (∀ t nextPollAt, s.threads.lookup t ≠ some (.queueing "tg_1" nextPollAt)) ∧
      (∃ task, s.shared.store.get "tg_1" = .ok task ∧ task.status = .inputRequired) ∧
      s.shared.pending.entriesOf "tg_1" ≠ 1 := by
  have hrun : ((schedulerMachine {} {}).exec (schedulerMachine {} {}).init
      (Sample.submitted ++ Sample.polled ++ [ThreadAct.run 1 SchedulerInput.drop])).any (Sample.waiting 0) = true := by
    decide
  obtain ⟨s, hreach, hwait⟩ := Machine.exists_reachable_of_exec hrun
  obtain ⟨hnone, hlisted, hinput, hentries⟩ := Sample.facts_of_waiting hwait
  refine ⟨s, hreach, ?_, hlisted, ?_, hinput, by omega⟩
  · intro t p hp
    rw [hnone t] at hp
    cases hp
  · intro t nextPollAt hp
    rw [hnone t] at hp
    cases hp

theorem queued_exactly_once_sample :
    ∃ s, (schedulerMachine {} {}).ReachableWhen (fun s a => kept s a = true) s ∧
      (∀ t p, s.threads.lookup t = some p → p.isPoll = false) ∧ .submitted "tg_1" ∈ s.shared.log ∧
      (s.shared.references.lookup "tg_1").isSome = true ∧ s.shared.pending.entriesOf "tg_1" = 1 := by
  have hrun : ((schedulerMachine {} {}).execWhen kept (schedulerMachine {} {}).init
      (Sample.submitted ++ Sample.polled ++ Sample.rescheduled)).any
        (fun s => Sample.waiting 1 s && decide (s.shared.log = [.submitted "tg_1"])) = true := by
    decide
  obtain ⟨s, hreach, htest⟩ := Machine.exists_reachableWhen_of_execWhen hrun
  obtain ⟨hwait, hlog⟩ := Bool.and_eq_true_iff.mp htest
  have hlog' : s.shared.log = [.submitted "tg_1"] := of_decide_eq_true hlog
  obtain ⟨hnone, -, -, -⟩ := Sample.facts_of_waiting hwait
  have hidle : ∀ t p, s.threads.lookup t = some p → p.isPoll = false := by
    intro t p hp
    rw [hnone t] at hp
    cases hp
  obtain ⟨hqueued, hlisted⟩ := queued_exactly_once hreach hidle
  have hsome : (s.shared.references.lookup "tg_1").isSome = true := by
    refine hlisted "tg_1" (by simp [hlog']) ?_
    intro why hmem
    simp [hlog'] at hmem
  refine ⟨s, hreach, hidle, by simp [hlog'], hsome, hqueued "tg_1" hsome ?_⟩
  intro t nextPollAt hp
  rw [hnone t] at hp
  cases hp

end

end ThoughtGate
