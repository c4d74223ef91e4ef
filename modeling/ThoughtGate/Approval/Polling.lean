import ThoughtGate.Approval.Queue
import ThoughtGate.Approval.Slack

/-!
# Polling by the clock

The scheduler with the Slack adapter and a clock that does not go back. Three additions to the clock decide when a task is
polled: the first interval of `post_approval_request`, the interval of `reschedule_with_backoff` and the delay of a rate limit
in `poll_next`. Each panics where `i64` seconds end, and in `poll_next` the panic ends the task that polls. But for the times
the runs are those of the scheduler (`reachable_scheduler`).

What a rate limit asks for is kept in every run (`reachable_paced`): a task has one token, and while it waits its token is with
nothing that could poll it. That no addition overflows needs that the intervals and the delays fit (`polling_survives`).
-/

namespace ThoughtGate

/-- The duration can be added to the clock up to then. -/
def Instant.Fits (latest : Instant) (d : Duration) : Prop := latest + d < 2 ^ 63 * 1000000000

instance (latest : Instant) (d : Duration) : Decidable (latest.Fits d) := inferInstanceAs (Decidable (_ < _))

theorem Instant.Fits.checkedAdd {now latest : Instant} {d : Duration} (h : latest.Fits d) (hnow : now ≤ latest) :
    now.checkedAdd d = some (now + d) :=
  if_pos ((Int.add_le_add_right hnow _).trans_lt h)

/-- Later backoff intervals are those of the third. -/
theorem PollingConfig.backoffInterval_le (config : PollingConfig) (pollCount : Nat) :
    config.backoffInterval pollCount ≤ config.backoffInterval 3 := by
  have hpow : 2 ^ min pollCount 3 ≤ 2 ^ min 3 3 := Nat.pow_le_pow_right (by omega) (by omega)
  exact min_le_min_right _ (Nat.mul_le_mul_left _ hpow)

/-- What happened, and when. -/
inductive PollEvent where
  | submitted (id : TaskId)
  | polled (id : TaskId) (time : Instant)
  | limited (id : TaskId) (time : Instant) (retryAfter : Duration)
  | pollOverflowed
  | postOverflowed
deriving DecidableEq

/-- The scheduler, the last reading of the clock and what happened so far. -/
structure PollingState where
  scheduler : SchedulerState
  now : Instant
  events : List PollEvent

/-- What a call takes in from outside; the clock is read at the time of the step. -/
inductive PollingInput where
  | go
  | drop
  | clock
  | utc (now : DateTime)
  | polled (answer : Except AdapterError (Option PollResult))
  | posted (postedAt : DateTime) (answer : HttpAnswer SlackPostMessageResponse)

/-- The input as the scheduler takes it; a post is answered by the adapter. -/
def PollingInput.scheduler (time : Instant) : PollingInput → Option SchedulerInput
  | .go => some .go
  | .drop => some .drop
  | .clock => some (.clock time)
  | .utc now => some (.utc now)
  | .polled answer => some (.polled answer)
  | .posted .. => none

namespace PollingState

/-- What a step of the scheduler adds to the history. -/
def recorded (time : Instant) : SchedulerPc → SchedulerInput → List PollEvent
  | .submitting request, .go => [.submitted request.taskId]
  | .limiting id _, .go => [.polled id time]
  | .polling id _, .polled (.error (.rateLimited retryAfter)) => [.limited id time retryAfter]
  | .rescheduling _ _ wait, .clock now => if (now.checkedAdd wait).isNone then [.pollOverflowed] else []
  | _, _ => []

/-- The task that polls has panicked. -/
def ended (s : PollingState) : Bool := decide (.pollOverflowed ∈ s.events)

/-- `run` polls and drains, as long as it runs. -/
def starts (s : PollingState) : SchedulerPc → Bool
  | .locking | .drain => !s.ended
  | p => p.starts

section

variable [F64.Fmt] [Sha256]

/-- A step of the scheduler at a time. -/
def advance (config : PollingConfig) (s : PollingState) (time : Instant) (p : SchedulerPc) (j : SchedulerInput) :
    Option (PollingState × Option SchedulerPc) :=
  (p.next config s.scheduler j).map fun next =>
    ({ scheduler := next.1, now := time, events := s.events ++ recorded time p j }, next.2)

/-- One step of a call, at a time that is not before the last. -/
def next (config : PollingConfig) (slack : SlackConfig) (s : PollingState) (p : SchedulerPc) (i : Instant × PollingInput) :
    Option (PollingState × Option SchedulerPc) :=
  if s.now ≤ i.1 then
    match p, i.2 with
    | .posting request, .posted postedAt answer =>
      match SlackAdapter.postApprovalRequest slack request i.1 postedAt answer with
      | none => some ({ s with now := i.1, events := s.events ++ [PollEvent.postOverflowed] }, none)
      | some posted => s.advance config i.1 p (.posted posted)
    | _, input => (input.scheduler i.1).bind (s.advance config i.1 p)
  else none

end

end PollingState

/-- The scheduler and its callers, polling by a clock that begins somewhere. -/
def pollingProgram [F64.Fmt] [Sha256] (config : PollingConfig) (slack : SlackConfig) (storeConfig : TaskStoreConfig)
    (boot : Instant) : Program PollingState SchedulerPc (Instant × PollingInput) Unit where
  init := { scheduler := { store := .new storeConfig, pending := ∅, references := ∅, log := [] }, now := boot, events := [] }
  start s _ p := s.starts p
  next s p i := s.next config slack p i
  held _ := []
  wants _ := none

abbrev pollingMachine [F64.Fmt] [Sha256] (config : PollingConfig) (slack : SlackConfig) (storeConfig : TaskStoreConfig)
    (boot : Instant) :
    Machine (ThreadState PollingState SchedulerPc) (ThreadAct SchedulerPc (Instant × PollingInput)) :=
  (pollingProgram config slack storeConfig boot).machine

namespace SchedulerPc

/-- The task whose token the call holds: it is on the way to its first entry, or carries its entry. -/
def holds : SchedulerPc → Option TaskId
  | .throttled request | .posting request => some request.taskId
  | .storing r => some r.taskId
  | p => p.carries

/-- The call polls its task no more, or not before then. -/
def WaitsFor (due now : Instant) : SchedulerPc → Prop
  | .rescheduling _ _ wait => due ≤ now + wait
  | .requeueing _ nextPollAt => due ≤ nextPollAt
  | .unlisting _ _ => True
  | _ => False

/-- The task whose token a finished or running call holds. -/
def held (p' : Option SchedulerPc) : Option TaskId := p'.bind holds

theorem WaitsFor.mono {due now later : Instant} (hle : now ≤ later) {p : SchedulerPc} (h : p.WaitsFor due now) :
    p.WaitsFor due later := by
  cases p with
  | rescheduling id r wait => exact Int.le_trans h (Int.add_le_add_right hle _)
  | requeueing id nextPollAt => exact h
  | unlisting id why => trivial
  | _ => cases h

end SchedulerPc

open SchedulerPc

/-! ### What a step can do -/

/-- The steps of the scheduler at a time, by where they bring the token of a task. -/
inductive Passage (config : PollingConfig) (s : SchedulerState) (time : Instant) :
    SchedulerPc → SchedulerInput → SchedulerState → Option SchedulerPc → Prop
  | ended {p : SchedulerPc} {j : SchedulerInput} {s' : SchedulerState} {p' : Option SchedulerPc} :
      held p' = none → s'.pending = s.pending → Passage config s time p j s' p'
  | moved {p q : SchedulerPc} {j : SchedulerInput} {s' : SchedulerState} : q.holds = p.holds →
      (∀ due now, ¬ p.WaitsFor due now) → (∀ id r wait, q ≠ .rescheduling id r wait) → (∀ answer, j ≠ .polled answer) →
      s'.pending = s.pending → Passage config s time p j s' (some q)
  | answered {id : TaskId} {r : ApprovalReference} {answer : Except AdapterError (Option PollResult)} {s' : SchedulerState} :
      s'.pending = s.pending →
      Passage config s time (.polling id r) (.polled answer) s' (some (afterPoll config id r answer))
  | taken {id : TaskId} {nextPollAt : Instant} {j : SchedulerInput} {s' : SchedulerState} :
      toLex (nextPollAt, id) ∈ s.pending → nextPollAt ≤ time → s'.pending = s.pending.erase (toLex (nextPollAt, id)) →
      Passage config s time .locking j s' (some (.taken id))
  | submitted {request : ApprovalRequest} {s' : SchedulerState} : s'.pending = s.pending →
      Passage config s time (.submitting request) .go s' (some (.throttled request))
  | relisted {id : TaskId} {r : ApprovalReference} {wait : Duration} {j : SchedulerInput} {s' : SchedulerState} :
      s'.pending = s.pending → Passage config s time (.rescheduling id r wait) j s' (some (.requeueing id (time + wait)))
  | enqueued {p : SchedulerPc} {id : TaskId} {nextPollAt : Instant} {j : SchedulerInput} {s' : SchedulerState} :
      p = .requeueing id nextPollAt ∨ p = .queueing id nextPollAt →
      s'.pending = insert (toLex (nextPollAt, id)) s.pending → Passage config s time p j s' none

section

variable [F64.Fmt] [Sha256] {config : PollingConfig} {s s' : SchedulerState} {time : Instant} {j : SchedulerInput}
  {p' : Option SchedulerPc}

theorem locking_passage (hclock : ∀ now, j = .clock now → now = time) (h : next config s .locking j = some (s', p')) :
    Passage config s time .locking j s' p' := by
  cases j with
  | clock now =>
    obtain rfl := hclock now rfl
    unfold next at h
    dsimp only at h
    cases hfirst : s.pending.first with
    | none =>
      rw [hfirst] at h
      cases h
      exact .ended rfl rfl
    | some k =>
      rw [hfirst] at h
      dsimp only at h
      split at h
      · cases h
        exact .ended rfl rfl
      · next hdue =>
        cases h
        exact .taken (PollQueue.first_mem hfirst) (not_lt.mp hdue) rfl
  | drop =>
    cases h
    exact .ended rfl rfl
  | _ => cases h

theorem checking_passage {id : TaskId} {r : ApprovalReference} (h : next config s (.checking id r) j = some (s', p')) :
    Passage config s time (.checking id r) j s' p' := by
  have hearly : ∀ due now, ¬ (checking id r).WaitsFor due now := fun _ _ h => h
  cases j with
  | utc now =>
    unfold next at h
    dsimp only at h
    split at h
    · cases h
      exact .moved rfl hearly (by simp) (by simp) rfl
    · split at h
      · cases h
        exact .moved rfl hearly (by simp) (by simp) rfl
      · split at h
        · cases h
          exact .moved rfl hearly (by simp) (by simp) rfl
        · cases h
          exact .moved rfl hearly (by simp) (by simp) rfl
  | _ => cases h

theorem rescheduling_passage {id : TaskId} {r : ApprovalReference} {wait : Duration}
    (hclock : ∀ now, j = .clock now → now = time) (h : next config s (.rescheduling id r wait) j = some (s', p')) :
    Passage config s time (.rescheduling id r wait) j s' p' := by
  cases j with
  | clock now =>
    obtain rfl := hclock now rfl
    unfold next at h
    dsimp only at h
    cases hadd : now.checkedAdd wait with
    | none =>
      rw [hadd] at h
      cases h
      exact .ended rfl rfl
    | some nextPollAt =>
      rw [hadd] at h
      cases h
      rw [Instant.checkedAdd_eq_some hadd]
      exact .relisted rfl
  | _ => cases h

/-- The calls that hold no token and get none. -/
theorem other_passage {p : SchedulerPc} (hp : (∃ id, p = .cancelling id) ∨ p = .drain ∨ (∃ ids, p = .draining ids) ∨
    ∃ o, p = .op o) (h : p.next config s j = some (s', p')) : Passage config s time p j s' p' := by
  rcases hp with ⟨id, rfl⟩ | rfl | ⟨ids, rfl⟩ | ⟨o, rfl⟩
  · cases j with
    | go =>
      unfold next at h
      dsimp only at h
      split at h
      · cases h
        exact .ended rfl rfl
      · cases h
        exact .ended rfl rfl
    | _ => cases h
  · cases j with
    | go =>
      cases h
      exact .ended rfl rfl
    | _ => cases h
  · cases ids with
    | nil =>
      cases j with
      | go =>
        cases h
        exact .ended rfl rfl
      | _ => cases h
    | cons id ids =>
      cases j with
      | go =>
        unfold next at h
        dsimp only at h
        split at h
        · cases h
          exact .ended rfl rfl
        · cases h
          exact .ended rfl rfl
      | _ => cases h
  · cases j with
    | go =>
      cases h
      exact .ended rfl rfl
    | _ => cases h

/-- A post is answered with a reference of its task. -/
theorem scheduler_passage {p : SchedulerPc} (hclock : ∀ now, j = .clock now → now = time)
    (hposted : ∀ r, j = .posted (.ok r) → ∃ request, p = .posting request ∧ r.taskId = request.taskId)
    (h : p.next config s j = some (s', p')) : Passage config s time p j s' p' := by
  cases p with
  | locking => exact locking_passage hclock h
  | checking id r => exact checking_passage h
  | rescheduling id r wait => exact rescheduling_passage hclock h
  | cancelling id => exact other_passage (.inl ⟨id, rfl⟩) h
  | drain => exact other_passage (.inr (.inl rfl)) h
  | draining ids => exact other_passage (.inr (.inr (.inl ⟨ids, rfl⟩))) h
  | op o => exact other_passage (.inr (.inr (.inr ⟨o, rfl⟩))) h
  | napping _ | sleeping | notifying _ =>
    cases j with
    | go =>
      cases h
      exact .ended rfl rfl
    | drop =>
      cases h
      exact .ended rfl rfl
    | _ => cases h
  | limiting _ _ | throttled _ =>
    cases j with
    | go =>
      cases h
      exact .moved rfl (fun _ _ h => h) (by simp) (by simp) rfl
    | drop =>
      cases h
      exact .ended rfl rfl
    | _ => cases h
  | taken id =>
    cases j with
    | go =>
      unfold next at h
      dsimp only at h
      split at h
      · cases h
        exact .ended rfl rfl
      · cases h
        exact .moved rfl (fun _ _ h => h) (by simp) (by simp) rfl
    | _ => cases h
  | polling id r =>
    cases j with
    | polled answer =>
      cases h
      exact .answered rfl
    | drop =>
      cases h
      exact .ended rfl rfl
    | _ => cases h
  | unlisting id why =>
    cases j with
    | go =>
      cases h
      exact .ended (by cases why <;> rfl) rfl
    | _ => cases h
  | expiring _ | recording _ _ =>
    cases j with
    | utc now =>
      cases h
      exact .ended rfl rfl
    | _ => cases h
  | requeueing id nextPollAt =>
    cases j with
    | go =>
      cases h
      exact .enqueued (.inl rfl) rfl
    | drop =>
      cases h
      exact .ended rfl rfl
    | _ => cases h
  | submitting request =>
    cases j with
    | go =>
      unfold next at h
      dsimp only at h
      split at h
      · cases h
        exact .ended rfl rfl
      · cases h
        exact .submitted rfl
    | _ => cases h
  | posting request =>
    cases j with
    | posted answer =>
      cases answer with
      | error e =>
        cases h
        exact .ended rfl rfl
      | ok r =>
        cases h
        obtain ⟨request', hrequest, hid⟩ := hposted r rfl
        cases hrequest
        exact .moved (congrArg some hid) (fun _ _ h => h) (by simp) (by simp) rfl
    | drop =>
      cases h
      exact .ended rfl rfl
    | _ => cases h
  | storing r =>
    cases j with
    | go =>
      cases h
      exact .moved rfl (fun _ _ h => h) (by simp) (by simp) rfl
    | _ => cases h
  | queueing id nextPollAt =>
    cases j with
    | go =>
      cases h
      exact .enqueued (.inr rfl) rfl
    | drop =>
      cases h
      exact .ended rfl rfl
    | _ => cases h

end

/-- What a step adds to the history. -/
theorem PollingState.recorded_cases (time : Instant) (p : SchedulerPc) (j : SchedulerInput) :
    recorded time p j = [] ∨
    (∃ request, p = .submitting request ∧ recorded time p j = [.submitted request.taskId]) ∨
    (∃ id r, p = .limiting id r ∧ recorded time p j = [.polled id time]) ∨
    (∃ id r d, p = .polling id r ∧ j = .polled (.error (.rateLimited d)) ∧ recorded time p j = [.limited id time d]) ∨
    ∃ id r wait now, p = .rescheduling id r wait ∧ j = .clock now ∧ now.checkedAdd wait = none ∧
      recorded time p j = [.pollOverflowed] := by
  unfold recorded
  split
  · next request => exact .inr (.inl ⟨request, rfl, rfl⟩)
  · next id r => exact .inr (.inr (.inl ⟨id, r, rfl, rfl⟩))
  · next id r d => exact .inr (.inr (.inr (.inl ⟨id, r, d, rfl, rfl, rfl⟩)))
  · next id r wait now =>
    split
    · next hnone => exact .inr (.inr (.inr (.inr ⟨id, r, wait, now, rfl, rfl, Option.isNone_iff_eq_none.mp hnone, rfl⟩)))
    · exact .inl rfl
  · exact .inl rfl

section

variable [F64.Fmt] [Sha256] {config : PollingConfig} {slack : SlackConfig}

/-- A step by the clock is a step of the scheduler; where the addition of a post overflows, the call ends as if it were
dropped. -/
theorem PollingState.next_scheduler {s s' : PollingState} {p : SchedulerPc} {i : Instant × PollingInput}
    {p' : Option SchedulerPc} (h : s.next config slack p i = some (s', p')) :
    s.now ≤ i.1 ∧ s'.now = i.1 ∧ ∃ j, p.next config s.scheduler j = some (s'.scheduler, p') ∧
      (∀ now, j = .clock now → now = i.1) ∧ (∀ answer, j = .polled answer → i.2 = .polled answer) ∧
      (∀ r, j = .posted (.ok r) → ∃ request, p = .posting request ∧ r.taskId = request.taskId) ∧
      (s'.events = s.events ++ recorded i.1 p j ∨
        (∃ request, p = .posting request) ∧ s'.events = s.events ++ [PollEvent.postOverflowed] ∧
          i.1.checkedAdd slack.initialPollInterval = none) := by
  obtain ⟨time, input⟩ := i
  unfold PollingState.next at h
  split at h
  · next htime =>
    refine ⟨htime, ?_⟩
    dsimp only at h ⊢
    split at h
    · next request postedAt answer =>
      rcases SlackAdapter.postApprovalRequest_cases slack request time postedAt answer with
        ⟨hnone, hadd⟩ | ⟨posted, hposted, hid⟩
      · rw [hnone] at h
        cases h
        exact ⟨rfl, .drop, rfl, by simp, by simp, by simp, .inr ⟨⟨request, rfl⟩, rfl, hadd⟩⟩
      · rw [hposted] at h
        obtain ⟨⟨scheduler, q'⟩, hnext, heq⟩ := Option.map_eq_some_iff.mp h
        cases heq
        refine ⟨rfl, _, hnext, by simp, by simp, fun r hr => ?_, .inl rfl⟩
        exact ⟨request, rfl, hid r (SchedulerInput.posted.inj hr)⟩
    · obtain ⟨j, hj, hadvance⟩ := Option.bind_eq_some_iff.mp h
      obtain ⟨⟨scheduler, q'⟩, hnext, heq⟩ := Option.map_eq_some_iff.mp hadvance
      cases heq
      cases input with
      | posted => cases hj
      | _ =>
        cases hj
        exact ⟨rfl, _, hnext, by simp, by simp, by simp, .inl rfl⟩
  · cases h

theorem PollingState.next_cases {s s' : PollingState} {p : SchedulerPc} {i : Instant × PollingInput} {p' : Option SchedulerPc}
    (h : s.next config slack p i = some (s', p')) :
    s.now ≤ i.1 ∧ s'.now = i.1 ∧ ∃ j, Passage config s.scheduler i.1 p j s'.scheduler p' ∧
      (∀ now, j = .clock now → now = i.1) ∧ (∀ answer, j = .polled answer → i.2 = .polled answer) ∧
      (s'.events = s.events ++ recorded i.1 p j ∨
        (∃ request, p = .posting request) ∧ s'.events = s.events ++ [PollEvent.postOverflowed] ∧
          i.1.checkedAdd slack.initialPollInterval = none) := by
  obtain ⟨hle, hnow, j, hnext, hclock, hpolled, hposted, hevents⟩ := next_scheduler h
  exact ⟨hle, hnow, j, scheduler_passage hclock hposted hnext, hclock, hpolled, hevents⟩

/-- The runs by the clock are runs of the scheduler. -/
theorem reachable_scheduler {storeConfig : TaskStoreConfig} {boot : Instant} {s : ThreadState PollingState SchedulerPc}
    (h : (pollingMachine config slack storeConfig boot).Reachable s) :
    (schedulerMachine config storeConfig).Reachable ⟨s.shared.scheduler, s.threads⟩ := by
  induction h with
  | init => exact .init
  | @step s s' a _ _ ha ih =>
    rcases Program.step_cases ha with ⟨t, p, rfl, hnone, hstart, rfl⟩ | ⟨t, i, p, shared, p', rfl, hp, -, hnext, rfl⟩
    · have hstarts : p.starts = true := by
        cases p with
        | locking | drain => rfl
        | _ => exact hstart
      refine ih.step (l := .spawn t p) ?_
      exact if_pos ⟨hnone, hstarts⟩
    · obtain ⟨-, -, j, hscheduler, -⟩ := PollingState.next_scheduler hnext
      refine ih.step (l := .run t j) ?_
      have hready : (schedulerProgram config storeConfig).ready s.threads t p = true := rfl
      simp only [Program.machine, hp, hready, if_true]
      rw [show (schedulerProgram config storeConfig).next s.shared.scheduler p j = some (shared.scheduler, p') from hscheduler]

end

/-! ### Tokens -/

/-- One for a call that holds the task's token. -/
def tokenOf (id : TaskId) (p : SchedulerPc) : Nat := if p.holds = some id then 1 else 0

theorem tokenOf_self {id : TaskId} {p : SchedulerPc} (h : p.holds = some id) : tokenOf id p = 1 := if_pos h

theorem tokenOf_other {id : TaskId} {p : SchedulerPc} (h : p.holds ≠ some id) : tokenOf id p = 0 := if_neg h

theorem weigh_tokenOf (id : TaskId) (p' : Option SchedulerPc) :
    Program.weigh (tokenOf id) p' = if held p' = some id then 1 else 0 := by
  cases p' with
  | none => rfl
  | some p => rfl

theorem holds_of_starts {s : PollingState} {p : SchedulerPc} (h : s.starts p = true) : p.holds = none := by
  cases p with
  | locking | submitting _ | cancelling _ | drain | op _ => rfl
  | _ => cases h

/-- After a poll the call takes the task out, or waits as long as the adapter says, or a backoff interval. -/
theorem afterPoll_cases (config : PollingConfig) (id : TaskId) (r : ApprovalReference)
    (answer : Except AdapterError (Option PollResult)) :
    (∃ why, afterPoll config id r answer = .unlisting id why) ∨
    ∃ r' wait, afterPoll config id r answer = .rescheduling id r' wait ∧
      (answer = .error (.rateLimited wait) ∨ ∃ n, wait = config.backoffInterval n) := by
  have hbackoff : ∃ r' wait, afterPoll.backoff config id r = .rescheduling id r' wait ∧
      (answer = .error (.rateLimited wait) ∨ ∃ n, wait = config.backoffInterval n) := ⟨_, _, rfl, .inr ⟨_, rfl⟩⟩
  unfold afterPoll
  split
  · exact .inl ⟨_, rfl⟩
  · exact .inr hbackoff
  · exact .inr ⟨_, _, rfl, .inl rfl⟩
  · exact .inl ⟨_, rfl⟩
  · split
    · exact .inr hbackoff
    · exact .inl ⟨_, rfl⟩

theorem holds_afterPoll (config : PollingConfig) (id : TaskId) (r : ApprovalReference)
    (answer : Except AdapterError (Option PollResult)) : (afterPoll config id r answer).holds = some id := by
  rcases afterPoll_cases config id r answer with ⟨why, heq⟩ | ⟨r', wait, heq, -⟩
  · rw [heq]
    rfl
  · rw [heq]
    rfl

/-- Only a `submit` makes a token. -/
theorem Passage.token {config : PollingConfig} {s s' : SchedulerState} {time : Instant} {p : SchedulerPc} {j : SchedulerInput}
    {p' : Option SchedulerPc} (h : Passage config s time p j s' p') (id : TaskId)
    (hle : s.pending.entriesOf id + tokenOf id p ≤ 1) :
    s'.pending.entriesOf id + Program.weigh (tokenOf id) p' ≤ s.pending.entriesOf id + tokenOf id p ∨
    ∃ request, p = .submitting request ∧ j = .go ∧ request.taskId = id ∧ s'.pending = s.pending := by
  cases h with
  | ended hheld hpending =>
    left
    rw [weigh_tokenOf, hheld, hpending]
    exact Nat.add_le_add_left (Nat.zero_le _) _
  | moved hholds _ _ _ hpending =>
    left
    rw [hpending, Program.weigh_some, tokenOf, tokenOf, hholds]
  | @answered id₀ r answer s' hpending =>
    left
    rw [hpending, Program.weigh_some, tokenOf, tokenOf, holds_afterPoll]
    exact Nat.le_refl _
  | taken hmem _ hpending =>
    left
    rw [hpending]
    exact Nat.le_trans (Nat.le_of_eq (pop_token hmem)) (Nat.le_add_right _ _)
  | @submitted request s' hpending =>
    by_cases hid : request.taskId = id
    · exact .inr ⟨request, rfl, rfl, hid, hpending⟩
    · left
      have hother : tokenOf id (.throttled request) = 0 := tokenOf_other fun heq => hid (Option.some.inj heq)
      rw [hpending, Program.weigh_some, hother]
      exact Nat.add_le_add_left (Nat.zero_le _) _
  | relisted hpending =>
    left
    rw [hpending]
    exact Nat.le_refl _
  | @enqueued p id₀ nextPollAt j s' hp hpending =>
    left
    rw [hpending]
    rcases hp with rfl | rfl
    · exact (enqueue_token (p := .requeueing id₀ nextPollAt) hle rfl).le
    · exact (enqueue_token (p := .queueing id₀ nextPollAt) hle rfl).le

/-- The condition on a step, checked in the state before it: `submit` is called for a task once, by who has created it. -/
def submitsOnce (s : ThreadState PollingState SchedulerPc) : ThreadAct SchedulerPc (Instant × PollingInput) → Bool
  | .spawn _ _ => true
  | .run t _ =>
    match s.threads.lookup t with
    | some (.submitting request) => decide (.submitted request.taskId ∉ s.shared.events)
    | _ => true

theorem notMem_of_submitsOnce {s : ThreadState PollingState SchedulerPc} {t : Nat} {i : Instant × PollingInput}
    {request : ApprovalRequest} (h : submitsOnce s (.run t i) = true) (hp : s.threads.lookup t = some (.submitting request)) :
    .submitted request.taskId ∉ s.shared.events := by
  simpa only [submitsOnce, hp, decide_eq_true_eq] using h

/-- A task has at most one token, in the queue or with a call (`n` calls hold it), and none before it is submitted. -/
def OneHolder (id : TaskId) (s : PollingState) (n : Nat) : Prop :=
  s.scheduler.pending.entriesOf id + n ≤ 1 ∧ (.submitted id ∉ s.events → s.scheduler.pending.entriesOf id + n = 0)

/-- Who else has a token of the task: nobody. -/
theorem OneHolder.alone {s : ThreadState PollingState SchedulerPc} {id : TaskId} {t : Nat} {p : SchedulerPc}
    (h : OneHolder id s.shared (Table.total (fun _ p => tokenOf id p) s.threads)) (hp : s.threads.lookup t = some p)
    (hholds : p.holds = some id) :
    s.shared.scheduler.pending.entriesOf id = 0 ∧
      (∀ u q, u ≠ t → s.threads.lookup u = some q → q.holds ≠ some id) ∧ .submitted id ∈ s.shared.events := by
  obtain ⟨hle, hnone⟩ := h
  have hself := tokenOf_self hholds
  have hsplit := Table.total_erase (fun _ q => tokenOf id q) hp
  refine ⟨by omega, fun u q hu hq hq' => ?_, ?_⟩
  · have hrest : (s.threads.erase t).lookup u = some q := by rwa [AList.lookup_erase_ne hu]
    have hother := Table.le_total (fun _ q => tokenOf id q) hrest
    have hone := tokenOf_self hq'
    omega
  · by_contra hout
    have := hnone hout
    omega

section

variable [F64.Fmt] [Sha256] {config : PollingConfig} {slack : SlackConfig} {storeConfig : TaskStoreConfig}
  {boot : Instant}

theorem reachable_oneHolder {s : ThreadState PollingState SchedulerPc}
    (h : (pollingMachine config slack storeConfig boot).ReachableWhen (fun s a => submitsOnce s a = true) s) (id : TaskId) :
    OneHolder id s.shared (Table.total (fun _ p => tokenOf id p) s.threads) := by
  refine Program.total_invariant (A := pollingProgram config slack storeConfig boot) (R := OneHolder id) (tokenOf id) ?_ ?_ ?_ h
  · exact ⟨Nat.zero_le 1, fun _ => rfl⟩
  · intro s threads p hstart
    refine tokenOf_other fun heq => ?_
    rw [holds_of_starts hstart] at heq
    cases heq
  · intro s t i p shared p' _ honce hp hnext hholder
    obtain ⟨hle, hnone⟩ := hholder
    obtain ⟨-, -, j, hpassage, -, -, hevents⟩ := PollingState.next_cases hnext
    have hkeep : ∀ e, e ∉ shared.events → e ∉ s.shared.events := by
      intro e hout hin
      rcases hevents with heq | ⟨-, heq, -⟩ <;> exact hout (heq ▸ List.mem_append_left _ hin)
    rcases hpassage.token id (by omega) with hless | ⟨request, rfl, rfl, rfl, hpending⟩
    · refine ⟨by omega, fun hout => ?_⟩
      have := hnone (hkeep _ hout)
      omega
    · have hzero := hnone (notMem_of_submitsOnce honce hp)
      have hone : Program.weigh (tokenOf request.taskId) p' ≤ 1 := by
        rw [weigh_tokenOf]
        split <;> omega
      refine ⟨by rw [hpending]; omega, fun hout => absurd ?_ hout⟩
      rcases hevents with heq | ⟨⟨other, hother⟩, -⟩
      · rw [heq]
        exact List.mem_append_right _ List.mem_cons_self
      · cases hother

end

/-! ### Waiting -/

/-- The token of the task is with nothing that could poll it before then. -/
structure HeldBack (id : TaskId) (due : Instant) (s : ThreadState PollingState SchedulerPc) : Prop where
  entries : ∀ nextPollAt, toLex (nextPollAt, id) ∈ s.shared.scheduler.pending → due ≤ nextPollAt
  calls : ∀ t p, s.threads.lookup t = some p → p.holds = some id → p.WaitsFor due s.shared.now

section

variable {config : PollingConfig} {s s' : SchedulerState} {now time due : Instant} {p : SchedulerPc} {j : SchedulerInput}
  {p' : Option SchedulerPc} {id : TaskId}

/-- An entry is an old one, or that of a call which has waited. -/
theorem Passage.entry (h : Passage config s time p j s' p') {nextPollAt : Instant}
    (hmem : toLex (nextPollAt, id) ∈ s'.pending) :
    toLex (nextPollAt, id) ∈ s.pending ∨ p.holds = some id ∧ ∀ due now, p.WaitsFor due now → due ≤ nextPollAt := by
  cases h with
  | ended _ hpending => exact .inl (hpending ▸ hmem)
  | moved _ _ _ _ hpending => exact .inl (hpending ▸ hmem)
  | answered hpending => exact .inl (hpending ▸ hmem)
  | taken _ _ hpending => exact .inl (Finset.mem_of_mem_erase (hpending ▸ hmem))
  | submitted hpending => exact .inl (hpending ▸ hmem)
  | relisted hpending => exact .inl (hpending ▸ hmem)
  | @enqueued p id₀ at₀ j s' hp hpending =>
    rw [hpending, Finset.mem_insert] at hmem
    rcases hmem with heq | hold
    · obtain ⟨rfl, rfl⟩ := Prod.mk.inj (toLex.injective heq)
      rcases hp with rfl | rfl
      · exact .inr ⟨rfl, fun _ _ hwait => hwait⟩
      · exact .inr ⟨rfl, fun _ _ hwait => hwait.elim⟩
    · exact .inl hold

/-- While it is not yet then, a call that holds the token goes on waiting. -/
theorem Passage.waitsFor {q : SchedulerPc} (h : Passage config s time p j s' (some q)) (hq : q.holds = some id)
    (hnow : now ≤ time) (hlater : time < due) (hwait : p.holds = some id → p.WaitsFor due now)
    (hentries : ∀ nextPollAt, toLex (nextPollAt, id) ∈ s.pending → due ≤ nextPollAt)
    (hsubmit : ∀ request, p = .submitting request → request.taskId ≠ id) : q.WaitsFor due time := by
  cases h with
  | ended hheld _ =>
    have hheld : q.holds = none := hheld
    rw [hq] at hheld
    cases hheld
  | moved hholds hearly _ _ _ => exact absurd (hwait (hholds.symm.trans hq)) (hearly due now)
  | @answered id₀ r answer =>
    rw [holds_afterPoll] at hq
    exact (hwait hq).elim
  | @taken id₀ nextPollAt j s' hmem hdue =>
    cases hq
    exact absurd (hentries nextPollAt hmem) (not_le.mpr (hdue.trans_lt hlater))
  | submitted => exact absurd (Option.some.inj hq) (hsubmit _ rfl)
  | relisted => exact Int.le_trans (hwait hq) (Int.add_le_add_right hnow _)

theorem HeldBack.step {s : ThreadState PollingState SchedulerPc} {shared : PollingState} {t : Nat} (h : HeldBack id due s)
    (hp : s.threads.lookup t = some p) (hpassage : Passage config s.shared.scheduler shared.now p j shared.scheduler p')
    (hnow : s.shared.now ≤ shared.now) (hlater : shared.now < due)
    (hsubmit : ∀ request, p = .submitting request → request.taskId ≠ id) :
    HeldBack id due ⟨shared, Program.settle s.threads t p'⟩ := by
  refine ⟨fun nextPollAt hmem => ?_, fun u q hu hq => ?_⟩
  · rcases hpassage.entry hmem with hold | ⟨hholds, hentry⟩
    · exact h.entries nextPollAt hold
    · exact hentry _ _ (h.calls t p hp hholds)
  · rcases Program.settle_cases hu with ⟨rfl, rfl⟩ | ⟨-, hold⟩
    · exact hpassage.waitsFor hq hnow hlater (h.calls u p hp) h.entries hsubmit
    · exact (h.calls u q hold hq).mono hnow

end

/-- What comes later in the history does not poll a task that is limited. -/
def KeepsLimit (e f : PollEvent) : Prop :=
  ∀ id (time : Instant) (d : Duration) (later : Instant), e = .limited id time d → f = .polled id later → time + d ≤ later

/-- The rate limits of the history have been kept, and are kept by where the tokens are. -/
structure Paced (s : ThreadState PollingState SchedulerPc) : Prop where
  submitted : ∀ id (time : Instant) (d : Duration), .limited id time d ∈ s.shared.events → .submitted id ∈ s.shared.events
  waiting : ∀ id (time : Instant) (d : Duration), .limited id time d ∈ s.shared.events →
    time + d ≤ s.shared.now ∨ HeldBack id (time + d) s
  keepsLimit : s.shared.events.Pairwise KeepsLimit

/-- A task that has just been limited is held back. -/
theorem heldBack_of_limited {config : PollingConfig} {s : ThreadState PollingState SchedulerPc} {shared : PollingState}
    {t : Nat} {id : TaskId} {r : ApprovalReference} {d : Duration} {p' : Option SchedulerPc}
    (hholder : OneHolder id s.shared (Table.total (fun _ p => tokenOf id p) s.threads))
    (hp : s.threads.lookup t = some (.polling id r))
    (hpassage : Passage config s.shared.scheduler shared.now (.polling id r) (.polled (.error (.rateLimited d)))
      shared.scheduler p') : HeldBack id (shared.now + d) ⟨shared, Program.settle s.threads t p'⟩ := by
  obtain ⟨hentries, hothers, -⟩ := hholder.alone hp rfl
  have hpending : shared.scheduler.pending = s.shared.scheduler.pending := by
    cases hpassage with
    | ended _ hsame => exact hsame
    | moved _ _ _ hanswer _ => exact absurd rfl (hanswer _)
    | answered hsame => exact hsame
    | enqueued hne _ => rcases hne with hne | hne <;> cases hne
  refine ⟨fun nextPollAt hmem => ?_, fun u q hu hq => ?_⟩
  · rw [hpending] at hmem
    rw [PollQueue.entriesOf, Finset.card_eq_zero, Finset.filter_eq_empty_iff] at hentries
    exact absurd rfl (hentries hmem)
  · rcases Program.settle_cases hu with ⟨rfl, rfl⟩ | ⟨hne, hold⟩
    · cases hpassage with
      | ended hheld _ =>
        have hheld : q.holds = none := hheld
        rw [hq] at hheld
        cases hheld
      | moved _ _ _ hanswer _ => exact absurd rfl (hanswer _)
      | answered => exact Int.le_refl _
    · exact absurd hq (hothers u q hne hold)

/-- A history goes on with something. -/
theorem Paced.extend {s s' : ThreadState PollingState SchedulerPc} (h : Paced s) {new : List PollEvent}
    (hevents : s'.shared.events = s.shared.events ++ new) (hnew : new.Pairwise KeepsLimit)
    (hkept : ∀ id (time : Instant) (d : Duration), .limited id time d ∈ s.shared.events →
      time + d ≤ s'.shared.now ∨ HeldBack id (time + d) s')
    (hlimited : ∀ id (time : Instant) (d : Duration), .limited id time d ∈ new →
      .submitted id ∈ s.shared.events ∧ HeldBack id (time + d) s')
    (hpolled : ∀ id (later : Instant), .polled id later ∈ new → ∀ (time : Instant) (d : Duration),
      .limited id time d ∈ s.shared.events → time + d ≤ later) : Paced s' := by
  refine ⟨fun id time d hmem => ?_, fun id time d hmem => ?_, ?_⟩
  · rw [hevents] at hmem ⊢
    rcases List.mem_append.mp hmem with hold | hlast
    · exact List.mem_append_left _ (h.submitted id time d hold)
    · exact List.mem_append_left _ (hlimited id time d hlast).1
  · rw [hevents] at hmem
    rcases List.mem_append.mp hmem with hold | hlast
    · exact hkept id time d hold
    · exact .inr (hlimited id time d hlast).2
  · rw [hevents, List.pairwise_append]
    refine ⟨h.keepsLimit, hnew, ?_⟩
    rintro e he f hf id time d later rfl rfl
    exact hpolled id later hf time d he

/-- A call that starts holds no token. -/
theorem Paced.spawn {s : ThreadState PollingState SchedulerPc} {t : Nat} {p : SchedulerPc} (h : Paced s)
    (hstart : s.shared.starts p = true) : Paced { s with threads := s.threads.insert t p } := by
  refine ⟨h.submitted, fun id time d hmem => ?_, h.keepsLimit⟩
  refine (h.waiting id time d hmem).imp_right fun hback => ⟨hback.entries, fun u q hq hholds => ?_⟩
  by_cases hu : u = t
  · subst hu
    rw [AList.lookup_insert] at hq
    cases hq
    rw [holds_of_starts hstart] at hholds
    cases hholds
  · rw [AList.lookup_insert_ne hu] at hq
    exact hback.calls u q hq hholds

section

variable [F64.Fmt] [Sha256] {config : PollingConfig} {slack : SlackConfig} {storeConfig : TaskStoreConfig}
  {boot : Instant}

theorem Paced.step {s : ThreadState PollingState SchedulerPc} {shared : PollingState} {t : Nat} {i : Instant × PollingInput}
    {p : SchedulerPc} {p' : Option SchedulerPc} (h : Paced s) (honce : submitsOnce s (.run t i) = true)
    (hholder : ∀ id, OneHolder id s.shared (Table.total (fun _ p => tokenOf id p) s.threads))
    (hp : s.threads.lookup t = some p) (hnext : s.shared.next config slack p i = some (shared, p')) :
    Paced ⟨shared, Program.settle s.threads t p'⟩ := by
  obtain ⟨hle, hnow, j, hpassage, hclock, -, hevents⟩ := PollingState.next_cases hnext
  rw [← hnow] at hle hpassage hevents
  -- the limits of the history go on holding, whatever is added to it
  have hwaiting : ∀ id (time : Instant) (d : Duration), .limited id time d ∈ s.shared.events →
      time + d ≤ shared.now ∨ HeldBack id (time + d) ⟨shared, Program.settle s.threads t p'⟩ := by
    intro id time d hmem
    rcases le_or_gt (time + d) shared.now with hdue | hlater
    · exact .inl hdue
    · right
      have hback := (h.waiting id time d hmem).resolve_left (not_le.mpr (hle.trans_lt hlater))
      refine hback.step hp hpassage hle hlater fun request hrequest hid => ?_
      subst hrequest hid
      exact notMem_of_submitsOnce honce hp (h.submitted _ _ _ hmem)
  rcases hevents with hevents | ⟨-, hevents, -⟩
  · rcases PollingState.recorded_cases shared.now p j with hrec | ⟨request, rfl, hrec⟩ | ⟨id, r, rfl, hrec⟩ |
      ⟨id, r, d, rfl, rfl, hrec⟩ | ⟨id, r, wait, now, rfl, -, -, hrec⟩
    · rw [hrec] at hevents
      exact h.extend hevents .nil hwaiting (by simp) (by simp)
    · rw [hrec] at hevents
      exact h.extend hevents (List.pairwise_singleton _ _) hwaiting (by simp) (by simp)
    · rw [hrec] at hevents
      refine h.extend hevents (List.pairwise_singleton _ _) hwaiting (by simp) fun id' later hpolled time d hmem => ?_
      obtain ⟨rfl, rfl⟩ := PollEvent.polled.inj (List.mem_singleton.mp hpolled)
      -- the call that polls holds the token and does not wait, so the limit has passed
      rcases h.waiting id' time d hmem with hdue | hback
      · exact Int.le_trans hdue hle
      · exact (hback.calls t _ hp rfl).elim
    · rw [hrec] at hevents
      refine h.extend hevents (List.pairwise_singleton _ _) hwaiting (fun id' time d' hlimited => ?_) (by simp)
      obtain ⟨rfl, rfl, rfl⟩ := PollEvent.limited.inj (List.mem_singleton.mp hlimited)
      exact ⟨((hholder id').alone hp rfl).2.2, heldBack_of_limited (hholder id') hp hpassage⟩
    · rw [hrec] at hevents
      exact h.extend hevents (List.pairwise_singleton _ _) hwaiting (by simp) (by simp)
  · exact h.extend hevents (List.pairwise_singleton _ _) hwaiting (by simp) (by simp)

/-- Rate limits are kept in every run in which each task is submitted once. -/
theorem reachable_paced {s : ThreadState PollingState SchedulerPc}
    (h : (pollingMachine config slack storeConfig boot).ReachableWhen (fun s a => submitsOnce s a = true) s) : Paced s := by
  refine Machine.ReachableWhen.invariant ?_ ?_ h
  · exact ⟨by simp [pollingProgram, Program.machine], by simp [pollingProgram, Program.machine], .nil⟩
  · intro s a s' hs hpaced honce ha
    rcases Program.step_cases ha with ⟨t, p, rfl, -, hstart, rfl⟩ | ⟨t, i, p, shared, p', rfl, hp, -, hnext, rfl⟩
    · exact hpaced.spawn hstart
    · exact hpaced.step honce (fun id => reachable_oneHolder hs id) hp hnext

end

/-! ### What fits the clock -/

/-- The condition on a step: the clock has not passed the latest time, and the delay of a rate limit fits until then. -/
def withinClock (latest : Instant) : ThreadAct SchedulerPc (Instant × PollingInput) → Bool
  | .spawn _ _ => true
  | .run _ (time, .polled (.error (.rateLimited d))) => decide (time ≤ latest) && decide (latest.Fits d)
  | .run _ (time, _) => decide (time ≤ latest)

theorem withinClock_time {latest time : Instant} {t : Nat} {input : PollingInput}
    (h : withinClock latest (.run t (time, input)) = true) : time ≤ latest := by
  unfold withinClock at h
  split at h
  · next heq => cases heq
  · next heq =>
    cases heq
    exact of_decide_eq_true (Bool.and_eq_true_iff.mp h).1
  · next heq =>
    cases heq
    exact of_decide_eq_true h

theorem withinClock_fits {latest time : Instant} {t : Nat} {d : Duration}
    (h : withinClock latest (.run t (time, .polled (.error (.rateLimited d)))) = true) : latest.Fits d :=
  of_decide_eq_true (Bool.and_eq_true_iff.mp h).2

/-- No addition to the clock has overflowed, and none that is to come can. -/
structure InRange (latest : Instant) (s : ThreadState PollingState SchedulerPc) : Prop where
  polls : .pollOverflowed ∉ s.shared.events
  posts : .postOverflowed ∉ s.shared.events
  waits : ∀ t id r wait, s.threads.lookup t = some (.rescheduling id r wait) → latest.Fits wait

section

variable {config : PollingConfig} {s s' : SchedulerState} {time latest : Instant} {p : SchedulerPc} {j : SchedulerInput}

/-- How long a call waits was said by an answer to a poll, or is a backoff interval. -/
theorem Passage.fits {id : TaskId} {r : ApprovalReference} {wait : Duration}
    (h : Passage config s time p j s' (some (.rescheduling id r wait))) (hbackoff : latest.Fits (config.backoffInterval 3))
    (hanswer : ∀ d, j = .polled (.error (.rateLimited d)) → latest.Fits d) : latest.Fits wait := by
  generalize hq : some (SchedulerPc.rescheduling id r wait) = p' at h
  cases h with
  | ended hheld _ =>
    rw [← hq] at hheld
    cases hheld
  | moved _ _ hne _ _ => exact absurd (Option.some.inj hq).symm (hne id r wait)
  | @answered id₀ r₀ answer =>
    rcases afterPoll_cases config id₀ r₀ answer with ⟨why, heq⟩ | ⟨r', wait', heq, hwait⟩
    · rw [heq] at hq
      cases hq
    · rw [heq] at hq
      cases hq
      rcases hwait with rfl | ⟨n, rfl⟩
      · exact hanswer _ rfl
      · have hle : (config.backoffInterval n : Int) ≤ config.backoffInterval 3 := by exact_mod_cast config.backoffInterval_le n
        exact (Int.add_le_add_left hle latest).trans_lt hbackoff
  | _ => cases hq

end

section

variable [F64.Fmt] [Sha256] {config : PollingConfig} {slack : SlackConfig} {storeConfig : TaskStoreConfig}
  {boot latest : Instant}

theorem InRange.step {s : ThreadState PollingState SchedulerPc} {shared : PollingState} {t : Nat} {i : Instant × PollingInput}
    {p : SchedulerPc} {p' : Option SchedulerPc} (h : InRange latest s) (hfirst : latest.Fits slack.initialPollInterval)
    (hbackoff : latest.Fits (config.backoffInterval 3)) (hwithin : withinClock latest (.run t i) = true)
    (hp : s.threads.lookup t = some p) (hnext : s.shared.next config slack p i = some (shared, p')) :
    InRange latest ⟨shared, Program.settle s.threads t p'⟩ := by
  obtain ⟨time, input⟩ := i
  have htime := withinClock_time hwithin
  obtain ⟨-, -, j, hpassage, hclock, hinput, hevents⟩ := PollingState.next_cases hnext
  have hadded : .pollOverflowed ∉ shared.events ∧ .postOverflowed ∉ shared.events := by
    rcases hevents with hevents | ⟨-, -, hadd⟩
    · have hrecorded : .pollOverflowed ∉ PollingState.recorded time p j ∧ .postOverflowed ∉ PollingState.recorded time p j := by
        rcases PollingState.recorded_cases time p j with hrec | ⟨_, -, hrec⟩ | ⟨_, _, -, hrec⟩ | ⟨_, _, _, -, -, hrec⟩ |
          ⟨id, r, wait, now, rfl, rfl, hadd, -⟩
        · simp [hrec]
        · simp [hrec]
        · simp [hrec]
        · simp [hrec]
        · obtain rfl : now = time := hclock now rfl
          rw [(h.waits t id r wait hp).checkedAdd htime] at hadd
          cases hadd
      rw [hevents, List.mem_append, List.mem_append, not_or, not_or]
      exact ⟨⟨h.polls, hrecorded.1⟩, h.posts, hrecorded.2⟩
    · rw [hfirst.checkedAdd htime] at hadd
      cases hadd
  refine ⟨hadded.1, hadded.2, fun u id r wait hu => ?_⟩
  rcases Program.settle_cases hu with ⟨rfl, rfl⟩ | ⟨-, hold⟩
  · refine hpassage.fits hbackoff fun d hd => ?_
    obtain rfl : input = _ := hinput _ hd
    exact withinClock_fits hwithin
  · exact h.waits u id r wait hold

/-- While the intervals and the delays of the rate limits fit the clock, no addition overflows. -/
theorem reachable_inRange (hfirst : latest.Fits slack.initialPollInterval) (hbackoff : latest.Fits (config.backoffInterval 3))
    {s : ThreadState PollingState SchedulerPc}
    (h : (pollingMachine config slack storeConfig boot).ReachableWhen (fun _ a => withinClock latest a = true) s) :
    InRange latest s := by
  refine Machine.ReachableWhen.invariant ?_ ?_ h
  · refine ⟨by simp [pollingProgram, Program.machine], by simp [pollingProgram, Program.machine], fun t id r wait hp => ?_⟩
    cases hp
  · intro s a s' _ hrange hwithin ha
    rcases Program.step_cases ha with ⟨t, p, rfl, -, hstart, rfl⟩ | ⟨t, i, p, shared, p', rfl, hp, -, hnext, rfl⟩
    · refine ⟨hrange.polls, hrange.posts, fun u id r wait hu => ?_⟩
      by_cases hut : u = t
      · subst hut
        rw [AList.lookup_insert] at hu
        cases hu
        cases hstart
      · rw [AList.lookup_insert_ne hut] at hu
        exact hrange.waits u id r wait hu
    · exact hrange.step hfirst hbackoff hwithin hp hnext

end

/-- The task that polls is alive: no addition to the clock has overflowed. And no task has been polled before the delay of a
rate limit had passed. -/
structure PollingState.Survives (s : PollingState) : Prop where
  running : s.ended = false
  added : .pollOverflowed ∉ s.events ∧ .postOverflowed ∉ s.events
  keepsLimit : s.events.Pairwise KeepsLimit

/-- Polling goes on, whatever the adapter answers, as long as the intervals of the environment and the delays of the rate limits
can be added to the clock. -/
theorem polling_survives [F64.Fmt] [Sha256] {env : String → Option String} {slack : SlackConfig} {storeConfig : TaskStoreConfig}
    {boot latest : Instant} (hslack : SlackConfig.fromEnv env = .ok slack)
    (hfirst : latest.Fits (PollingConfig.fromEnv env).baseInterval)
    (hbackoff : latest.Fits ((PollingConfig.fromEnv env).backoffInterval 3)) {s : ThreadState PollingState SchedulerPc}
    (h : (pollingMachine (PollingConfig.fromEnv env) slack storeConfig boot).ReachableWhen
      (fun s a => (submitsOnce s a && withinClock latest a) = true) s) : s.shared.Survives := by
  have hpaced := reachable_paced (h.mono fun s a hok => (Bool.and_eq_true_iff.mp hok).1)
  rw [← SlackConfig.initialPollInterval_fromEnv hslack] at hfirst
  have hrange := reachable_inRange hfirst hbackoff (h.mono fun s a hok => (Bool.and_eq_true_iff.mp hok).2)
  exact ⟨decide_eq_false hrange.polls, ⟨hrange.polls, hrange.posts⟩, hpaced.keepsLimit⟩

namespace Sample

/-- Nothing is set but the token. -/
def pollingEnv (name : String) : Option String := if name = "THOUGHTGATE_SLACK_BOT_TOKEN" then some "xoxb-1" else none

def slackConfig : SlackConfig where
  botToken := "xoxb-1"
  channel := "#approvals"
  approveReaction := "+1"
  rejectReaction := "-1"
  apiTimeout := Duration.fromSecs 10
  initialPollInterval := Duration.fromSecs 5

theorem slackConfig_fromEnv : SlackConfig.fromEnv pollingEnv = .ok slackConfig := rfl

/-- So many seconds after the clock began. -/
def second (n : Nat) : Instant := Duration.fromSecs n

/-- The task `tg_1` is created, waits for input and is posted. -/
def posted : List (ThreadAct SchedulerPc (Instant × PollingInput)) :=
  [.spawn 0 (.op (.create "tg_1" 0 request request principal none .deny)), .run 0 (second 0, .go),
   .spawn 0 (.op (.transition 1 "tg_1" .inputRequired none)), .run 0 (second 0, .go),
   .spawn 0 (.submitting approvalRequest), .run 0 (second 0, .go), .run 0 (second 0, .go),
   .run 0 (second 0, .posted 0 (.body ⟨true, none, some "1700000000.000100", some "C1"⟩)),
   .run 0 (second 0, .go), .run 0 (second 0, .go)]

/-- A poll at that time. -/
def pollByClock (n : Nat) : List (ThreadAct SchedulerPc (Instant × PollingInput)) :=
  [.spawn 1 .locking, .run 1 (second n, .clock), .run 1 (second n, .go), .run 1 (second n, .utc 20), .run 1 (second n, .go)]

/-- The poll is answered with a rate limit, and the call reads the clock. -/
def limitedAt (n : Nat) (retryAfter : String) : List (ThreadAct SchedulerPc (Instant × PollingInput)) :=
  [.run 1 (second n, .polled (.error (SlackAdapter.handleRateLimit (some retryAfter)))), .run 1 (second n, .clock)]

end Sample

section

attribute [local instance] Sample.f64Fmt Sample.sha256

open Sample

/-- A delay of half a minute: the task is polled again when it has passed. -/
theorem polling_survives_sample :
    ∃ s, (pollingMachine (PollingConfig.fromEnv pollingEnv) slackConfig {} 0).ReachableWhen
        (fun s a => (submitsOnce s a && withinClock (second 100) a) = true) s ∧ s.shared.Survives ∧
      .limited "tg_1" (second 5) (Duration.fromSecs 30) ∈ s.shared.events ∧ .polled "tg_1" (second 35) ∈ s.shared.events := by
  have hrun : ((pollingMachine (PollingConfig.fromEnv pollingEnv) slackConfig {} 0).execWhen
      (fun s a => submitsOnce s a && withinClock (second 100) a)
      (pollingMachine (PollingConfig.fromEnv pollingEnv) slackConfig {} 0).init
      (posted ++ pollByClock 5 ++ limitedAt 5 "30" ++ [ThreadAct.run 1 (second 5, PollingInput.go)] ++ pollByClock 35)).any
        (fun s => decide (.limited "tg_1" (second 5) (Duration.fromSecs 30) ∈ s.shared.events ∧
          .polled "tg_1" (second 35) ∈ s.shared.events)) = true := by
    decide
  obtain ⟨s, hreach, htest⟩ := Machine.exists_reachableWhen_of_execWhen hrun
  exact ⟨s, hreach, polling_survives slackConfig_fromEnv (by decide) (by decide) hreach, of_decide_eq_true htest⟩

/-- A delay of as many seconds as a `u64` holds ends the task that polls. -/
theorem polling_ended :
    ∃ s, (pollingMachine (PollingConfig.fromEnv pollingEnv) slackConfig {} 0).ReachableWhen
        (fun s a => submitsOnce s a = true) s ∧ ¬ s.shared.Survives := by
  have hrun : ((pollingMachine (PollingConfig.fromEnv pollingEnv) slackConfig {} 0).execWhen submitsOnce
      (pollingMachine (PollingConfig.fromEnv pollingEnv) slackConfig {} 0).init
      (posted ++ pollByClock 5 ++ limitedAt 5 "18446744073709551615")).any (fun s => s.shared.ended) = true := by
    decide
  obtain ⟨s, hreach, hended⟩ := Machine.exists_reachableWhen_of_execWhen hrun
  refine ⟨s, hreach, fun h => ?_⟩
  rw [h.running] at hended
  cases hended

end

end ThoughtGate
