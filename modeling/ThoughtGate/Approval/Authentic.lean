import ThoughtGate.Approval.Reactions
import ThoughtGate.Approval.System
import ThoughtGate.Task.Approvals

/-!
# Where an approval comes from

The scheduler with the Slack adapter's own polls, over the store and all its other callers. What comes back from Slack is
recorded: the message that a post has made, the reactions that a poll has read, the users that were looked up.

Nothing but a poll of a task's own message leads to a decision about it: `references` holds the message that was posted for
the task, a poll asks for that message, what it finds is shown by the reactions, and it goes to `record_approval` for the same
task (`approval_authentic`). Between those are awaits where any other call may step, the lookup of the user's name among
them. The runs are those of the scheduler whose adapter answers at will (`reachable_polling`).
-/

namespace ThoughtGate

/-- What Slack has answered, and the approvals that were written without it. -/
inductive SlackEvent where
  | posted (id : TaskId) (channel ts : String)
  | reactions (channel ts : String) (reactions : List SlackReaction)
  | user (userId : String) (user : Option SlackUser)
  | auto (id : TaskId) (approval : ApprovalRecord)

/-- The scheduler, the cache of the adapter and what was seen so far. -/
structure SlackState where
  polling : PollingState
  cache : Table String String
  seen : List SlackEvent

/-- Where a call stands: in the scheduler, or in a poll that has found a decision and looks for the user's name. -/
inductive SlackPc where
  | scheduler (p : SchedulerPc)
  | naming (id : TaskId) (r : ApprovalReference) (found : Found) (q : NamingPc)

/-- What a call takes in from outside. -/
inductive SlackInput where
  | scheduler (i : PollingInput)
  | reactions (answer : HttpAnswer SlackReactionsGetResponse)
  | naming (i : NamingInput)

/-- The result of a poll, with the name of the user. -/
def Found.result (f : Found) (name : String) (decidedAt : DateTime) : PollResult :=
  ⟨f.decision, name, decidedAt, .reaction f.emoji⟩

namespace SlackEvent

/-- The message that an answer to a post tells of. -/
def ofPost : SchedulerPc → HttpAnswer SlackPostMessageResponse → List SlackEvent
  | .posting request, .body ⟨true, _, some ts, some channel⟩ => [.posted request.taskId channel ts]
  | _, _ => []

/-- The reactions that an answer to a poll tells of. -/
def ofReactions (r : ApprovalReference) : HttpAnswer SlackReactionsGetResponse → List SlackEvent
  | .body ⟨true, _, some ⟨some listed⟩⟩ => [.reactions r.channel r.externalId listed]
  | _ => []

/-- The user that an answer to a lookup tells of. -/
def ofUser (userId : String) : NamingInput → List SlackEvent
  | .user (.body ⟨true, _, found⟩) => [.user userId found]
  | _ => []

/-- What a step of the scheduler adds. -/
def ofScheduler : SchedulerPc → PollingInput → List SlackEvent
  | .op (.recordAutoApproveResult _ id _ approval), _ => [.auto id approval]
  | p, .posted _ answer => ofPost p answer
  | _, _ => []

end SlackEvent

namespace SlackState

/-- Nobody else calls `record_approval`. -/
def starts (s : SlackState) : SlackPc → Bool
  | .scheduler (.op (.recordApproval ..)) => false
  | .scheduler p => s.polling.starts p
  | .naming .. => false

variable [F64.Fmt] [Sha256]

/-- `poll_for_decision` returns. -/
def answer (config : PollingConfig) (s : SlackState) (time : Instant) (id : TaskId) (r : ApprovalReference)
    (a : Except AdapterError (Option PollResult)) : Option (SlackState × Option SlackPc) :=
  (s.polling.advance config time (.polling id r) (.polled a)).map fun next =>
    ({ s with polling := next.1 }, next.2.map .scheduler)

/-- One step of a call. -/
def next (config : PollingConfig) (slack : SlackConfig) (s : SlackState) (p : SlackPc) (i : Instant × SlackInput) :
    Option (SlackState × Option SlackPc) :=
  match p, i.2 with
  | .scheduler (.polling id r), .reactions a =>
    let s := { s with seen := s.seen ++ SlackEvent.ofReactions r a }
    match SlackAdapter.decisionIn slack r a with
    | .error e => if s.polling.now ≤ i.1 then s.answer config i.1 id r (.error e) else none
    | .ok none => if s.polling.now ≤ i.1 then s.answer config i.1 id r (.ok none) else none
    | .ok (some found) => some (s, some (.naming id r found .looking))
  | .scheduler _, .scheduler (.polled _) => none
  | .scheduler p, .scheduler j =>
    (s.polling.next config slack p (i.1, j)).map fun next =>
      ({ s with polling := next.1, seen := s.seen ++ SlackEvent.ofScheduler p j }, next.2.map .scheduler)
  | .naming id r found (.named name), .scheduler (.utc now) =>
    if s.polling.now ≤ i.1 then
      s.answer config i.1 id r (.ok (some (found.result name now)))
    else none
  | .naming id r _ .fetching, .scheduler .drop =>
    (s.polling.next config slack (.polling id r) (i.1, .drop)).map fun next =>
      ({ s with polling := next.1 }, next.2.map .scheduler)
  | .naming id r found q, .naming j =>
    (q.next found.user s.cache j).map fun next =>
      ({ s with cache := next.1, seen := s.seen ++ SlackEvent.ofUser found.user j }, some (.naming id r found next.2))
  | _, _ => none

end SlackState

/-- The scheduler with the Slack adapter. -/
def slackProgram [F64.Fmt] [Sha256] (config : PollingConfig) (slack : SlackConfig) (storeConfig : TaskStoreConfig)
    (boot : Instant) : Program SlackState SlackPc (Instant × SlackInput) Unit where
  init := ⟨(pollingProgram config slack storeConfig boot).init, ∅, []⟩
  start s _ p := s.starts p
  next s p i := s.next config slack p i
  held _ := []
  wants _ := none

abbrev slackMachine [F64.Fmt] [Sha256] (config : PollingConfig) (slack : SlackConfig) (storeConfig : TaskStoreConfig)
    (boot : Instant) : Machine (ThreadState SlackState SlackPc) (ThreadAct SlackPc (Instant × SlackInput)) :=
  (slackProgram config slack storeConfig boot).machine

/-! ### The scheduler passes on what it is given -/

namespace SchedulerPc

/-- What a call holds is good: a reference for its task, a result for its task. -/
def Holds (P : TaskId → ApprovalReference → Prop) (D : TaskId → PollResult → Prop) : SchedulerPc → Prop
  | .checking id r | .limiting id r | .polling id r | .rescheduling id r _ => P id r
  | .storing r => P r.taskId r
  | .unlisting id (.decided result) | .recording id result => D id result
  | _ => True

variable {P Q : TaskId → ApprovalReference → Prop} {D E : TaskId → PollResult → Prop}

theorem Holds.mono {p : SchedulerPc} (h : p.Holds P D) (hP : ∀ id r, P id r → Q id r) (hD : ∀ id r, D id r → E id r) :
    p.Holds Q E := by
  cases p with
  | checking | limiting | polling | rescheduling | storing => exact hP _ _ h
  | recording => exact hD _ _ h
  | unlisting id why =>
    cases why with
    | decided => exact hD _ _ h
    | _ => trivial
  | _ => trivial

theorem holds_of_starts {p : SchedulerPc} (h : p.starts = true) : p.Holds P D := by
  cases p with
  | locking | submitting | cancelling | drain | op => trivial
  | _ => cases h

/-- A poll goes on with the reference it has, or with the result it was given. -/
theorem holds_afterPoll (config : PollingConfig) {id : TaskId} {r : ApprovalReference}
    {answer : Except AdapterError (Option PollResult)} (hr : ∀ n, P id { r with pollCount := n })
    (hD : ∀ result, answer = .ok (some result) → D id result) : (afterPoll config id r answer).Holds P D := by
  unfold afterPoll
  split
  · exact hD _ rfl
  · exact hr _
  · exact hr _
  · trivial
  · split
    · exact hr _
    · trivial

theorem holds_some {q : SchedulerPc} (h : q.Holds P D) : ∀ q' ∈ some q, q'.Holds P D := by
  intro q' hq'
  cases hq'
  exact h

theorem holds_none : ∀ q ∈ (none : Option SchedulerPc), q.Holds P D := by
  intro q hq
  cases hq

section

variable [F64.Fmt] [Sha256] {config : PollingConfig} {s s' : SchedulerState} {i : SchedulerInput} {p' : Option SchedulerPc}

theorem locking_holds (h : next config s .locking i = some (s', p')) (hlisted : s.references.All P) :
    s'.references.All P ∧ ∀ q ∈ p', q.Holds P D := by
  cases i with
  | clock now =>
    unfold next at h
    dsimp only at h
    split at h
    · cases h
      exact ⟨hlisted, holds_some trivial⟩
    · split at h
      · cases h
        exact ⟨hlisted, holds_some trivial⟩
      · cases h
        exact ⟨hlisted, holds_some trivial⟩
  | drop =>
    cases h
    exact ⟨hlisted, holds_none⟩
  | _ => cases h

theorem taken_holds {id : TaskId} (h : next config s (.taken id) i = some (s', p')) (hlisted : s.references.All P) :
    s'.references.All P ∧ ∀ q ∈ p', q.Holds P D := by
  cases i with
  | go =>
    unfold next at h
    dsimp only at h
    split at h
    · cases h
      exact ⟨hlisted, holds_some trivial⟩
    · rename_i r hr
      cases h
      exact ⟨hlisted, holds_some (hlisted id r hr)⟩
  | _ => cases h

theorem checking_holds {id : TaskId} {r : ApprovalReference} (h : next config s (.checking id r) i = some (s', p'))
    (hlisted : s.references.All P) (hr : P id r) : s'.references.All P ∧ ∀ q ∈ p', q.Holds P D := by
  cases i with
  | utc now =>
    unfold next at h
    dsimp only at h
    split at h
    · cases h
      exact ⟨hlisted, holds_some trivial⟩
    · split at h
      · cases h
        exact ⟨hlisted, holds_some trivial⟩
      · split at h
        · cases h
          exact ⟨hlisted, holds_some trivial⟩
        · cases h
          exact ⟨hlisted, holds_some hr⟩
  | _ => cases h

theorem rescheduling_holds {id : TaskId} {r : ApprovalReference} {wait : Duration}
    (h : next config s (.rescheduling id r wait) i = some (s', p')) (hlisted : s.references.All P)
    (hr : ∀ nextPollAt, P id { r with nextPollAt }) : s'.references.All P ∧ ∀ q ∈ p', q.Holds P D := by
  cases i with
  | clock now =>
    unfold next at h
    dsimp only at h
    split at h
    · cases h
      exact ⟨hlisted, holds_none⟩
    · cases h
      exact ⟨hlisted.insert (hr _), holds_some trivial⟩
  | _ => cases h

theorem unlisting_holds {id : TaskId} {why : Removal} (h : next config s (.unlisting id why) i = some (s', p'))
    (hlisted : s.references.All P) (hp : (unlisting id why).Holds P D) :
    s'.references.All P ∧ ∀ q ∈ p', q.Holds P D := by
  cases i with
  | go =>
    cases h
    refine ⟨hlisted.erase id, ?_⟩
    cases why with
    | decided result => exact holds_some hp
    | expired => exact holds_some trivial
    | _ => exact holds_none
  | _ => cases h

/-- Taking references out from elsewhere. -/
theorem removing_holds {p : SchedulerPc} (hp : (∃ id, p = .cancelling id) ∨ ∃ ids, p = .draining ids)
    (h : p.next config s i = some (s', p')) (hlisted : s.references.All P) :
    s'.references.All P ∧ ∀ q ∈ p', q.Holds P D := by
  rcases hp with ⟨id, rfl⟩ | ⟨ids, rfl⟩
  · cases i with
    | go =>
      unfold next at h
      dsimp only at h
      split at h
      · cases h
        exact ⟨hlisted, holds_none⟩
      · cases h
        exact ⟨hlisted.erase id, holds_some trivial⟩
    | _ => cases h
  · cases ids with
    | nil =>
      cases i with
      | go =>
        cases h
        exact ⟨hlisted, holds_none⟩
      | _ => cases h
    | cons id ids =>
      cases i with
      | go =>
        unfold next at h
        dsimp only at h
        split at h
        · cases h
          exact ⟨hlisted, holds_some trivial⟩
        · cases h
          exact ⟨hlisted.erase id, holds_some trivial⟩
      | _ => cases h

theorem posting_holds {request : ApprovalRequest} (h : next config s (.posting request) i = some (s', p'))
    (hlisted : s.references.All P) (hposted : ∀ r, i = .posted (.ok r) → P r.taskId r) :
    s'.references.All P ∧ ∀ q ∈ p', q.Holds P D := by
  cases i with
  | posted answer =>
    cases answer with
    | ok r =>
      cases h
      exact ⟨hlisted, holds_some (hposted r rfl)⟩
    | error =>
      cases h
      exact ⟨hlisted, holds_none⟩
  | drop =>
    cases h
    exact ⟨hlisted, holds_none⟩
  | _ => cases h

/-- If the references are good and what the call takes in is, then so are the references after its step and what it holds
then. -/
theorem holds_next {p : SchedulerPc} (h : p.next config s i = some (s', p'))
    (hsame : ∀ id r nextPollAt n, P id r → P id { r with nextPollAt, pollCount := n })
    (hlisted : s.references.All P) (hp : p.Holds P D)
    (hpolled : ∀ id r result, p = .polling id r → i = .polled (.ok (some result)) → D id result)
    (hposted : ∀ r, i = .posted (.ok r) → P r.taskId r) :
    s'.references.All P ∧ ∀ q ∈ p', q.Holds P D := by
  cases p with
  | locking => exact locking_holds h hlisted
  | taken id => exact taken_holds h hlisted
  | checking id r => exact checking_holds h hlisted hp
  | rescheduling id r wait => exact rescheduling_holds h hlisted fun _ => hsame _ _ _ _ hp
  | unlisting id why => exact unlisting_holds h hlisted hp
  | cancelling id => exact removing_holds (Or.inl ⟨id, rfl⟩) h hlisted
  | draining ids => exact removing_holds (Or.inr ⟨ids, rfl⟩) h hlisted
  | posting request => exact posting_holds h hlisted hposted
  | napping _ | sleeping | throttled _ | notifying _ | limiting _ _ | requeueing _ _ | queueing _ _ =>
    cases i with
    | go =>
      cases h
      refine ⟨hlisted, ?_⟩
      first | exact holds_none | exact holds_some trivial | exact holds_some hp
    | drop =>
      cases h
      exact ⟨hlisted, holds_none⟩
    | _ => cases h
  | polling id r =>
    cases i with
    | polled answer =>
      cases h
      refine ⟨hlisted, holds_some (holds_afterPoll config (fun n => hsame _ _ _ n hp) ?_)⟩
      rintro result rfl
      exact hpolled id r result rfl rfl
    | drop =>
      cases h
      exact ⟨hlisted, holds_none⟩
    | _ => cases h
  | expiring _ | recording _ _ =>
    cases i with
    | utc now =>
      cases h
      exact ⟨hlisted, holds_none⟩
    | _ => cases h
  | submitting request =>
    cases i with
    | go =>
      unfold next at h
      dsimp only at h
      split at h
      · cases h
        exact ⟨hlisted, holds_none⟩
      · cases h
        exact ⟨hlisted, holds_some trivial⟩
    | _ => cases h
  | storing r =>
    cases i with
    | go =>
      cases h
      exact ⟨hlisted.insert hp, holds_some trivial⟩
    | _ => cases h
  | drain =>
    cases i with
    | go =>
      cases h
      exact ⟨hlisted, holds_some trivial⟩
    | _ => cases h
  | op _ =>
    cases i with
    | go =>
      cases h
      exact ⟨hlisted, holds_none⟩
    | _ => cases h

end

end SchedulerPc

/-! ### What a step can do -/

/-- The call of the scheduler that the call is. -/
def SlackPc.scheduled : SlackPc → SchedulerPc
  | .scheduler p => p
  | .naming id r _ _ => .polling id r

/-- The steps: a poll has found a decision, the scheduler moves, or the lookup of a name does. -/
inductive SlackStep [F64.Fmt] [Sha256] (config : PollingConfig) (slack : SlackConfig) (s : SlackState) :
    SlackPc → SlackState → Option SlackPc → Prop
  | found {id : TaskId} {r : ApprovalReference} {a : HttpAnswer SlackReactionsGetResponse} {f : Found} :
      SlackAdapter.decisionIn slack r a = .ok (some f) →
      SlackStep config slack s (.scheduler (.polling id r)) { s with seen := s.seen ++ SlackEvent.ofReactions r a }
        (some (.naming id r f .looking))
  | moved {p : SlackPc} {time : Instant} {j : PollingInput} {polling : PollingState} {q : Option SchedulerPc}
      {new : List SlackEvent} :
      s.polling.next config slack p.scheduled (time, j) = some (polling, q) →
      (∀ result, j = .polled (.ok (some result)) →
        ∃ id r f name now, p = .naming id r f (.named name) ∧ result = f.result name now) →
      SlackEvent.ofScheduler p.scheduled j ⊆ new →
      SlackStep config slack s p { s with polling, seen := s.seen ++ new } (q.map .scheduler)
  | named {id : TaskId} {r : ApprovalReference} {f : Found} {q q' : NamingPc} {j : NamingInput}
      {cache : Table String String} : q.next f.user s.cache j = some (cache, q') →
      SlackStep config slack s (.naming id r f q) { s with cache, seen := s.seen ++ SlackEvent.ofUser f.user j }
        (some (.naming id r f q'))

section

variable [F64.Fmt] [Sha256] {config : PollingConfig} {slack : SlackConfig} {s s' : SlackState} {p' : Option SlackPc}

/-- An answer of the adapter is one that the scheduler takes. -/
theorem SlackStep.answered {p : SlackPc} {time : Instant} {id : TaskId} {r : ApprovalReference}
    {a : Except AdapterError (Option PollResult)} {new : List SlackEvent} (htime : s.polling.now ≤ time)
    (hp : p.scheduled = .polling id r)
    (hresult : ∀ result, a = .ok (some result) →
      ∃ id r f name now, p = .naming id r f (.named name) ∧ result = f.result name now)
    (h : { s with seen := s.seen ++ new }.answer config time id r a = some (s', p')) :
    SlackStep config slack s p s' p' := by
  obtain ⟨⟨polling, q⟩, hadvance, heq⟩ := Option.map_eq_some_iff.mp h
  cases heq
  have hnext : s.polling.next config slack p.scheduled (time, .polled a) = some (polling, q) := by
    rw [hp]
    simp only [PollingState.next, if_pos htime]
    exact hadvance
  refine .moved hnext (fun result hj => hresult result (PollingInput.polled.inj hj)) ?_
  rw [hp]
  exact List.nil_subset _

theorem SlackState.next_cases {p : SlackPc} {i : Instant × SlackInput} (h : s.next config slack p i = some (s', p')) :
    SlackStep config slack s p s' p' := by
  unfold SlackState.next at h
  split at h
  · dsimp only at h
    split at h
    · obtain ⟨htime, hanswer⟩ := Option.ite_none_right_eq_some.mp h
      exact .answered htime rfl (by simp) hanswer
    · obtain ⟨htime, hanswer⟩ := Option.ite_none_right_eq_some.mp h
      exact .answered htime rfl (by simp) hanswer
    · rename_i hfound
      cases h
      exact .found hfound
  · cases h
  · rename_i hpolled _
    obtain ⟨⟨polling, q'⟩, hnext, heq⟩ := Option.map_eq_some_iff.mp h
    cases heq
    refine .moved hnext ?_ (List.Subset.refl _)
    rintro result rfl
    exact (hpolled _ rfl).elim
  · rename_i id r f name now _
    obtain ⟨htime, hanswer⟩ := Option.ite_none_right_eq_some.mp h
    have hanswer' : { s with seen := s.seen ++ [] }.answer config i.1 id r (.ok (some (f.result name now))) =
        some (s', p') := by
      simpa using hanswer
    refine .answered htime rfl ?_ hanswer'
    rintro result hresult
    cases hresult
    exact ⟨id, r, f, name, now, rfl, rfl⟩
  · rename_i id r f _
    obtain ⟨⟨polling, q'⟩, hnext, heq⟩ := Option.map_eq_some_iff.mp h
    cases heq
    have hmoved : SlackStep config slack s (.naming id r f .fetching) { s with polling, seen := s.seen ++ [] }
        (q'.map .scheduler) :=
      .moved hnext (by simp) (List.nil_subset _)
    simpa using hmoved
  · obtain ⟨⟨cache, q'⟩, hnext, heq⟩ := Option.map_eq_some_iff.mp h
    cases heq
    exact .named hnext
  · cases h

/-- The runs with the Slack adapter are runs of the scheduler that is answered at will: the lookup of a name takes no step of
it. -/
theorem reachable_polling {storeConfig : TaskStoreConfig} {boot : Instant} {s : ThreadState SlackState SlackPc}
    (h : (slackMachine config slack storeConfig boot).Reachable s) :
    ∃ threads, (pollingMachine config slack storeConfig boot).Reachable ⟨s.shared.polling, threads⟩ ∧
      ∀ t, threads.lookup t = (s.threads.lookup t).map SlackPc.scheduled := by
  refine Program.reachable_of_simulation (A := pollingProgram config slack storeConfig boot) SlackState.polling
    SlackPc.scheduled rfl (fun _ => rfl) ?_ ?_ h
  · intro s threads threads' p hp
    cases p with
    | naming => cases hp
    | scheduler p =>
      cases p with
      | op o =>
        cases o with
        | recordApproval => cases hp
        | _ => exact hp
      | _ => exact hp
  · intro s p i s' p' hnext
    cases SlackState.next_cases hnext with
    | found => exact Or.inl ⟨rfl, rfl⟩
    | @moved _ time j polling q new hmoved =>
      have hpc : (q.map SlackPc.scheduler).map SlackPc.scheduled = q := by cases q <;> rfl
      refine Or.inr ⟨(time, j), ?_⟩
      rw [hpc]
      exact hmoved
    | named => exact Or.inl ⟨rfl, rfl⟩

end

/-! ### What is known -/

/-- The reference is to the message that was posted for the task. -/
def Posted (seen : List SlackEvent) (id : TaskId) (r : ApprovalReference) : Prop :=
  .posted id r.channel r.externalId ∈ seen

/-- The name is the user's in an answer of Slack, or the id of the user. -/
def NameOf (seen : List SlackEvent) (userId name : String) : Prop :=
  name = userId ∨ ∃ user, .user userId user ∈ seen ∧ name = (user.map SlackAdapter.shownName).getD userId

/-- The decision was found at the message of the task, after that was posted. -/
def FoundAt (slack : SlackConfig) (seen : List SlackEvent) (id : TaskId) (f : Found) : Prop :=
  ∃ channel ts reactions, [.posted id channel ts, .reactions channel ts reactions].Sublist seen ∧
    SlackAdapter.Shows slack reactions f

/-- The result of a poll tells what was found, with a name of its user. -/
def Vouched (slack : SlackConfig) (seen : List SlackEvent) (id : TaskId) (result : PollResult) : Prop :=
  ∃ f name decidedAt, FoundAt slack seen id f ∧ NameOf seen f.user name ∧ result = f.result name decidedAt

/-- An approval record is of a decision that was found at the message of its task, or was written for an expired task without
one. -/
def Authentic (slack : SlackConfig) (seen : List SlackEvent) (id : TaskId) (r : ApprovalRecord) : Prop :=
  .auto id r ∈ seen ∨ ∃ f decidedAt, FoundAt slack seen id f ∧ NameOf seen f.user r.decidedBy ∧
    r.decision = (f.result r.decidedBy decidedAt).approvalDecision

section

variable {slack : SlackConfig} {seen : List SlackEvent} {id : TaskId}

theorem Posted.extend {r : ApprovalReference} (h : Posted seen id r) (new : List SlackEvent) : Posted (seen ++ new) id r :=
  List.mem_append_left _ h

theorem NameOf.extend {userId name : String} (h : NameOf seen userId name) (new : List SlackEvent) :
    NameOf (seen ++ new) userId name :=
  h.imp_right fun ⟨user, huser, hname⟩ => ⟨user, List.mem_append_left _ huser, hname⟩

theorem FoundAt.extend {f : Found} (h : FoundAt slack seen id f) (new : List SlackEvent) :
    FoundAt slack (seen ++ new) id f := by
  obtain ⟨channel, ts, reactions, hseen, hshows⟩ := h
  exact ⟨channel, ts, reactions, hseen.trans (List.sublist_append_left _ _), hshows⟩

theorem Vouched.extend {result : PollResult} (h : Vouched slack seen id result) (new : List SlackEvent) :
    Vouched slack (seen ++ new) id result := by
  obtain ⟨f, name, decidedAt, hfound, hname, hresult⟩ := h
  exact ⟨f, name, decidedAt, hfound.extend new, hname.extend new, hresult⟩

theorem Authentic.extend {r : ApprovalRecord} (h : Authentic slack seen id r) (new : List SlackEvent) :
    Authentic slack (seen ++ new) id r := by
  rcases h with hauto | ⟨f, decidedAt, hfound, hname, hdecision⟩
  · exact Or.inl (List.mem_append_left _ hauto)
  · exact Or.inr ⟨f, decidedAt, hfound.extend new, hname.extend new, hdecision⟩

/-- A poll of the posted message that finds a decision. -/
theorem Posted.found {r : ApprovalReference} (h : Posted seen id r) {a : HttpAnswer SlackReactionsGetResponse} {f : Found}
    (hfound : SlackAdapter.decisionIn slack r a = .ok (some f)) :
    FoundAt slack (seen ++ SlackEvent.ofReactions r a) id f := by
  obtain ⟨⟨ok, error, message⟩, ⟨listed⟩, reactions, rfl, hok, hmessage, hreactions, hshows⟩ :=
    SlackAdapter.decisionIn_found hfound
  cases hok
  cases hmessage
  cases hreactions
  refine ⟨r.channel, r.externalId, reactions, ?_, hshows⟩
  exact (List.singleton_sublist.mpr h).append (List.Sublist.refl _)

/-- A name that an answer gives. -/
theorem nameOf_answer {userId name : String} {answer : UserInfoAnswer} {cached : Bool}
    (h : SlackAdapter.nameIn userId answer = .ok (name, cached)) :
    NameOf (seen ++ SlackEvent.ofUser userId (.user answer)) userId name := by
  cases answer with
  | failed | unreadable => cases h
  | body b =>
    obtain ⟨ok, error, user⟩ := b
    cases ok with
    | false =>
      cases h
      exact Or.inl rfl
    | true =>
      cases h
      exact Or.inr ⟨user, List.mem_append_right _ (List.mem_singleton_self _), rfl⟩

/-- What a post returns is where the message is. -/
theorem posted_reference {request : ApprovalRequest} {now : Instant} {postedAt : DateTime}
    {answer : HttpAnswer SlackPostMessageResponse} {r : ApprovalReference}
    (h : SlackAdapter.postApprovalRequest slack request now postedAt answer = some (.ok r)) :
    SlackEvent.ofPost (.posting request) answer = [.posted r.taskId r.channel r.externalId] := by
  cases answer with
  | failed | tooManyRequests | unreadable => cases h
  | body b =>
    obtain ⟨ok, error, ts, channel⟩ := b
    cases ok with
    | false => cases h
    | true =>
      cases ts with
      | none => cases h
      | some ts =>
        cases channel with
        | none => cases h
        | some channel =>
          obtain ⟨posted, href, hposted⟩ := Option.map_eq_some_iff.mp h
          cases hposted
          obtain ⟨nextPollAt, -, rfl⟩ := Option.map_eq_some_iff.mp href
          rfl

end

/-! ### Every step keeps it -/

/-- The cache, the references and the store know only what Slack has told. -/
structure SlackState.Faithful (slack : SlackConfig) (s : SlackState) : Prop where
  cache : s.cache.All (NameOf s.seen)
  listed : s.polling.scheduler.references.All (Posted s.seen)
  store : ApprovalsIn (Authentic slack s.seen) s.polling.scheduler.store

/-- What a call knows Slack has told. -/
def SlackState.Backs (slack : SlackConfig) (s : SlackState) : SlackPc → Prop
  | .scheduler p => p.Holds (Posted s.seen) (Vouched slack s.seen) ∧
      ∀ now id decision decidedBy validFor, p ≠ .op (.recordApproval now id decision decidedBy validFor)
  | .naming id r f q => Posted s.seen id r ∧ FoundAt slack s.seen id f ∧ q.Holds (NameOf s.seen f.user)

theorem SlackState.Backs.extend {slack : SlackConfig} {s s' : SlackState} {p : SlackPc} (h : s.Backs slack p)
    {new : List SlackEvent} (hseen : s'.seen = s.seen ++ new) : s'.Backs slack p := by
  cases p with
  | scheduler p =>
    refine ⟨h.1.mono (fun id r hr => ?_) (fun id r hr => ?_), h.2⟩
    · rw [hseen]
      exact hr.extend new
    · rw [hseen]
      exact hr.extend new
  | naming id r f q =>
    obtain ⟨hposted, hfound, hname⟩ := h
    unfold SlackState.Backs
    rw [hseen]
    exact ⟨hposted.extend new, hfound.extend new, hname.mono fun _ hn => hn.extend new⟩

section

variable [F64.Fmt] [Sha256] {config : PollingConfig} {slack : SlackConfig} {storeConfig : TaskStoreConfig} {boot : Instant}

/-- What the scheduler takes in when it steps by the clock. -/
theorem PollingState.next_inputs {s s' : PollingState} {p : SchedulerPc} {time : Instant} {j : PollingInput}
    {p' : Option SchedulerPc} (h : s.next config slack p (time, j) = some (s', p')) :
    ∃ k, p.next config s.scheduler k = some (s'.scheduler, p') ∧ (∀ answer, k = .polled answer → j = .polled answer) ∧
      ∀ r, k = .posted (.ok r) → ∃ request postedAt answer, p = .posting request ∧ j = .posted postedAt answer ∧
        SlackAdapter.postApprovalRequest slack request time postedAt answer = some (.ok r) := by
  unfold PollingState.next at h
  split at h
  · dsimp only at h
    split at h
    · rename_i request postedAt answer _
      split at h
      · cases h
        exact ⟨.drop, rfl, nofun, nofun⟩
      · rename_i posted hposted
        obtain ⟨⟨scheduler, q'⟩, hnext, heq⟩ := Option.map_eq_some_iff.mp h
        cases heq
        refine ⟨_, hnext, nofun, ?_⟩
        rintro r hr
        cases hr
        exact ⟨request, postedAt, answer, rfl, rfl, hposted⟩
    · obtain ⟨k, hk, hadvance⟩ := Option.bind_eq_some_iff.mp h
      obtain ⟨⟨scheduler, q'⟩, hnext, heq⟩ := Option.map_eq_some_iff.mp hadvance
      cases heq
      refine ⟨k, hnext, ?_, ?_⟩
      · rintro answer rfl
        cases j with
        | polled => simpa [PollingInput.scheduler] using hk
        | _ => cases hk
      · rintro r rfl
        cases j with
        | _ => cases hk
  · cases h

/-- A decision that is recorded was found; what others write is no decision of a poll. -/
theorem store_faithful {s s' : SchedulerState} {p : SchedulerPc} {k : SchedulerInput} {p' : Option SchedulerPc}
    {seen : List SlackEvent} (h : p.next config s k = some (s', p')) (hstore : ApprovalsIn (Authentic slack seen) s.store)
    (hp : p.Holds (Posted seen) (Vouched slack seen))
    (hown : ∀ now id decision decidedBy validFor, p ≠ .op (.recordApproval now id decision decidedBy validFor))
    {new : List SlackEvent}
    (hauto : ∀ now id result approval, p = .op (.recordAutoApproveResult now id result approval) →
      .auto id approval ∈ new) : ApprovalsIn (Authentic slack (seen ++ new)) s'.store := by
  have hold : ApprovalsIn (Authentic slack (seen ++ new)) s.store := hstore.mono fun _ _ hr => hr.extend new
  by_cases hop : ∃ o, p = .op o
  · obtain ⟨o, rfl⟩ := hop
    cases k with
    | go =>
      cases h
      refine hold.apply o ?_
      intro id r hr
      cases o with
      | recordApproval now id decision decidedBy validFor => exact absurd rfl (hown _ _ _ _ _)
      | recordAutoApproveResult now id result approval =>
        obtain ⟨rfl, rfl⟩ := hr
        exact Or.inl (List.mem_append_right _ (hauto _ _ _ _ rfl))
      | _ => cases hr
    | _ => cases h
  · rcases scheduler_store h (fun o ho => hop ⟨o, ho⟩) with hsame | ⟨id, now, -, hsame⟩ | ⟨id, result, now, rfl, -, -, hsame⟩
    · rw [hsame]
      exact hold
    · rw [hsame]
      exact hold.transition now id _ _
    · rw [hsame]
      obtain ⟨f, name, decidedAt, hfound, hname, rfl⟩ : Vouched slack seen id result := hp
      exact hold.recordApproval now id (Or.inr ⟨f, decidedAt, hfound.extend new, hname.extend new, rfl⟩)

/-- A step of the scheduler. -/
theorem moved_faithful {s : SlackState} {p : SlackPc} {time : Instant} {j : PollingInput} {polling : PollingState}
    {q : Option SchedulerPc} {new : List SlackEvent} (hs : s.Faithful slack) (hp : s.Backs slack p)
    (h : s.polling.next config slack p.scheduled (time, j) = some (polling, q))
    (hresult : ∀ result, j = .polled (.ok (some result)) →
      ∃ id r f name now, p = .naming id r f (.named name) ∧ result = f.result name now)
    (hnew : SlackEvent.ofScheduler p.scheduled j ⊆ new) :
    { s with polling, seen := s.seen ++ new }.Faithful slack ∧
      ∀ p' ∈ q.map SlackPc.scheduler, { s with polling, seen := s.seen ++ new }.Backs slack p' := by
  obtain ⟨k, hk, hpolled, hposted⟩ := PollingState.next_inputs h
  have hheld : p.scheduled.Holds (Posted s.seen) (Vouched slack s.seen) := by
    cases p with
    | scheduler p => exact hp.1
    | naming id r f q => exact hp.1
  have hown : ∀ now id decision decidedBy validFor,
      p.scheduled ≠ .op (.recordApproval now id decision decidedBy validFor) := by
    cases p with
    | scheduler p => exact hp.2
    | naming id r f q => exact nofun
  obtain ⟨hlisted, hholds⟩ := SchedulerPc.holds_next (P := Posted (s.seen ++ new)) (D := Vouched slack (s.seen ++ new)) hk
    (fun _ _ _ _ hr => hr) (hs.listed.mono fun _ _ hr => hr.extend new)
    (hheld.mono (fun _ _ hr => hr.extend new) fun _ _ hr => hr.extend new)
    (by
      intro id r result hpc hanswer
      obtain ⟨id', r', f, name, now, rfl, rfl⟩ := hresult result (hpolled _ hanswer)
      cases hpc
      obtain ⟨-, hfound, hname⟩ := hp
      exact ⟨f, name, now, hfound.extend new, NameOf.extend hname new, rfl⟩)
    (by
      intro r hr
      obtain ⟨request, postedAt, answer, hpc, rfl, hpost⟩ := hposted r hr
      rw [hpc] at hnew
      have hevent : SlackEvent.ofPost (.posting request) answer ⊆ new := hnew
      rw [posted_reference hpost] at hevent
      exact List.mem_append_right _ (hevent (List.mem_singleton_self _)))
  refine ⟨⟨hs.cache.mono fun _ _ hn => hn.extend new, hlisted, ?_⟩, ?_⟩
  · refine store_faithful hk hs.store hheld hown ?_
    intro now id result approval hpc
    rw [hpc] at hnew
    exact hnew (List.mem_singleton_self _)
  · intro p' hp'
    obtain ⟨q', hq', rfl⟩ := Option.mem_map.mp hp'
    refine ⟨hholds q' hq', ?_⟩
    intro now id decision decidedBy validFor hop
    cases hq'
    exact (scheduler_kind hk).2 _ hop

theorem SlackStep.faithful {s s' : SlackState} {p : SlackPc} {p' : Option SlackPc} (h : SlackStep config slack s p s' p')
    (hs : s.Faithful slack) (hp : s.Backs slack p) : s'.Faithful slack ∧ ∀ q ∈ p', s'.Backs slack q := by
  cases h with
  | @found id r a f hfound =>
    obtain ⟨hposted : Posted s.seen id r, -⟩ := hp
    refine ⟨⟨hs.cache.mono fun _ _ hn => hn.extend _, hs.listed.mono fun _ _ hr => hr.extend _,
      hs.store.mono fun _ _ hr => hr.extend _⟩, ?_⟩
    rintro q ⟨⟩
    exact ⟨hposted.extend _, hposted.found hfound, trivial⟩
  | moved hnext hresult hnew => exact moved_faithful hs hp hnext hresult hnew
  | @named id r f q q' j cache hnext =>
    obtain ⟨hposted, hfound, hname⟩ := hp
    obtain ⟨hcache, hq'⟩ := NamingPc.next_holds (N := NameOf (s.seen ++ SlackEvent.ofUser f.user j)) hnext (Or.inl rfl)
      (by
        rintro answer name cached rfl hanswer
        exact nameOf_answer hanswer)
      (hs.cache.mono fun _ _ hn => hn.extend _) (hname.mono fun _ hn => hn.extend _)
    refine ⟨⟨hcache, hs.listed.mono fun _ _ hr => hr.extend _, hs.store.mono fun _ _ hr => hr.extend _⟩, ?_⟩
    rintro q'' ⟨⟩
    exact ⟨hposted.extend _, hfound.extend _, hq'⟩

theorem SlackStep.seen {s s' : SlackState} {p : SlackPc} {p' : Option SlackPc} (h : SlackStep config slack s p s' p') :
    ∃ new, s'.seen = s.seen ++ new := by
  cases h with
  | found | moved | named => exact ⟨_, rfl⟩

theorem reachable_faithful {s : ThreadState SlackState SlackPc}
    (h : (slackMachine config slack storeConfig boot).Reachable s) : s.shared.Faithful slack := by
  refine (Program.each_invariant (A := slackProgram config slack storeConfig boot) (J := SlackState.Faithful slack)
    (R := SlackState.Backs slack) ⟨Table.All.empty _, Table.All.empty _, ApprovalsIn.new _ _⟩ ?_ ?_ h).1
  · intro s threads p hp
    cases p with
    | naming => cases hp
    | scheduler p =>
      refine ⟨?_, ?_⟩
      · refine SchedulerPc.holds_of_starts ?_
        cases p with
        | locking | submitting | cancelling | drain | op => rfl
        | _ => cases hp
      · rintro now id decision decidedBy validFor rfl
        cases hp
  · intro s p i shared p' hs hp hnext
    have hstep := SlackState.next_cases hnext
    obtain ⟨new, hnew⟩ := hstep.seen
    obtain ⟨hshared, hown⟩ := hstep.faithful hs hp
    exact ⟨hshared, hown, fun q hq => hq.extend hnew⟩

end

namespace Sample

/-- A call of the scheduler as one of this program. -/
def withSlack : ThreadAct SchedulerPc (Instant × PollingInput) → ThreadAct SlackPc (Instant × SlackInput)
  | .spawn t p => .spawn t (.scheduler p)
  | .run t i => .run t (i.1, .scheduler i.2)

/-- The message of `tg_1` shows both reactions, and the user who approves has no display name. -/
def decidedBySlack : List (ThreadAct SlackPc (Instant × SlackInput)) :=
  (posted ++ pollByClock 5).map withSlack ++
  [ThreadAct.run 1 (second 5, SlackInput.reactions (.body ⟨true, none, some ⟨some [⟨"-1", ["U2"]⟩, ⟨"+1", ["U1", "U2"]⟩]⟩⟩)),
   .run 1 (second 5, .naming .go),
   .run 1 (second 5, .naming (.user (.body ⟨true, none, some ⟨"U1", some "Alice", some (some "")⟩⟩))),
   .run 1 (second 5, .naming (.keys [])), .run 1 (second 5, .naming .go), .run 1 (second 5, .scheduler (.utc 20)),
   .run 1 (second 5, .scheduler .go), .run 1 (second 5, .scheduler (.utc 20))]

def unattended : SlackEvent → Bool
  | .auto .. => true
  | _ => false

end Sample

section

attribute [local instance] Sample.f64Fmt Sample.sha256

open Sample

end

end ThoughtGate
