import ThoughtGate.Gate.Service

/-!
# Waiting for an approval

The shim asks the governance service by HTTP (`shim/proxy/helpers.rs`): `poll_approval_status` asks how the task stands
until there is a decision, `revalidate_before_forward` asks once more about the policies. What comes back is an input:
a request fails, or there is a response with a code and a body, which is decoded or not.

The loop has no bound of its own when the service sets a deadline, so it runs over the list of its cycles; at the end of
the list it is still polling. The progress notes that it writes to the agent meanwhile are left out.
-/

namespace ThoughtGate

/-- What comes back from an HTTP request: the error of the request, or a code and the decoded body. -/
inductive HttpReply (α : Type) where
  | failed (error : String)
  | response (status : Nat) (json : Except String α)

/-- `StatusCode::is_success`. -/
def isSuccess (status : Nat) : Bool := 200 ≤ status && status < 300

/-- The reply of a handler: its body with 200, or its code. -/
def HttpReply.served {α : Type} : Except Nat α → HttpReply α
  | .ok body => .response 200 (.ok body)
  | .error status => .response status (.error "empty body")

/-- `ApprovalPollResult`. -/
inductive ApprovalPollResult where
  | approved
  | rejected (reason : Option String)
  | expired
  | cancelled
  | timeout
  | error
  | shutdown
deriving DecidableEq

/-- What one cycle of the loop meets: the clock, the shutdown signal, and the service's reply. -/
structure PollCycle where
  now : Instant
  shutdown : Bool
  reply : HttpReply TaskStatusResponse

namespace Shim

/-- `MAX_POLL_CYCLES`. -/
def maxPollCycles : Nat := 720

/-- How a decision ends the loop. -/
def pollDecision (status : TaskStatusResponse) : Option ApprovalPollResult :=
  match status.decision with
  | some .approved => some .approved
  | some .rejected => some (.rejected status.reason)
  | some .expired => some .expired
  | some .cancelled => some .cancelled
  | none => none

/-- The exit of the loop: by the deadline, or without one by the number of cycles. -/
def shouldStop (deadline : Option Instant) (cycle : Nat) (now : Instant) : Bool :=
  match deadline with
  | some deadline => deadline ≤ now
  | none => maxPollCycles ≤ cycle

/-- One cycle of the loop; `none` goes on. -/
def pollCycle (profile : Profile) (deadline : Option Instant) (cycle : Nat) (c : PollCycle) :
    Option ApprovalPollResult :=
  if shouldStop deadline cycle c.now then some .timeout
  else if c.shutdown then some .shutdown
  else
    match c.reply with
    | .failed _ => if profile = .production then some .error else none
    | .response code json =>
      if isSuccess code then
        match json with
        | .error _ => none
        | .ok status => pollDecision status
      else none

/-- `poll_approval_status` from a cycle on. -/
def pollApprovalStatus (profile : Profile) (deadline : Option Instant) :
    Nat → List PollCycle → Option ApprovalPollResult
  | _, [] => none
  | cycle, c :: cs =>
    match pollCycle profile deadline cycle c with
    | some result => some result
    | none => pollApprovalStatus profile deadline (cycle + 1) cs

/-- `revalidate_before_forward`. -/
def revalidateBeforeForward : HttpReply RevalidateResponse → Except String Bool
  | .failed e => .error e
  | .response code json =>
    if code = notFound then .ok true
    else if isSuccess code then json.map (·.allowed)
    else .ok true

/-- Whether an approved message is forwarded, by the answer to the revalidation. -/
def revalidationOk (profile : Profile) : Except String Bool → Bool
  | .ok allowed => allowed
  | .error _ => profile ≠ .production

/-! ### What an approval rests on -/

theorem pollDecision_approved {status : TaskStatusResponse} :
    pollDecision status = some .approved ↔ status.decision = some .approved := by
  unfold pollDecision
  cases status.decision with
  | none => simp
  | some outcome => cases outcome <;> simp

/-- The loop ends approved only on a success response that says so. -/
theorem pollCycle_approved {profile : Profile} {deadline : Option Instant} {cycle : Nat} {c : PollCycle}
    (h : pollCycle profile deadline cycle c = some .approved) :
    ∃ code status, c.reply = .response code (.ok status) ∧ isSuccess code = true ∧ status.decision = some .approved := by
  unfold pollCycle at h
  split at h
  · cases h
  · split at h
    · cases h
    · cases hreply : c.reply with
      | failed e =>
        rw [hreply] at h
        dsimp only at h
        split at h <;> cases h
      | response code json =>
        rw [hreply] at h
        dsimp only at h
        split at h
        · rename_i hcode
          cases json with
          | error e => cases h
          | ok status => exact ⟨code, status, rfl, hcode, pollDecision_approved.mp h⟩
        · cases h

theorem pollApprovalStatus_approved {profile : Profile} {deadline : Option Instant} {cycle : Nat}
    {cycles : List PollCycle} (h : pollApprovalStatus profile deadline cycle cycles = some .approved) :
    ∃ c ∈ cycles, ∃ code status, c.reply = .response code (.ok status) ∧ isSuccess code = true ∧
      status.decision = some .approved := by
  induction cycles generalizing cycle with
  | nil => cases h
  | cons c cs ih =>
    rw [pollApprovalStatus] at h
    cases hc : pollCycle profile deadline cycle c with
    | some result =>
      rw [hc] at h
      cases h
      exact ⟨c, List.mem_cons_self, pollCycle_approved hc⟩
    | none =>
      rw [hc] at h
      obtain ⟨c', hmem, hreply⟩ := ih h
      exact ⟨c', List.mem_cons_of_mem _ hmem, hreply⟩

/-- A loop whose deadline is open and that is answered ends approved exactly when the answer says so. -/
theorem pollApprovalStatus_first {profile : Profile} {deadline : Option Instant} {now : Instant}
    (hopen : ∀ d ∈ deadline, now < d) (status : TaskStatusResponse) :
    (∃ n, pollApprovalStatus profile deadline 0 (List.replicate n ⟨now, false, .response 200 (.ok status)⟩) =
      some .approved) ↔ status.decision = some .approved := by
  constructor
  · rintro ⟨n, h⟩
    obtain ⟨c, hmem, code, status', hreply, -, hdecision⟩ := pollApprovalStatus_approved h
    rw [List.eq_of_mem_replicate hmem] at hreply
    cases hreply
    exact hdecision
  · intro hdecision
    refine ⟨1, ?_⟩
    have hrunning : shouldStop deadline 0 now = false := by
      cases deadline with
      | none => rfl
      | some d =>
        have hlt := hopen d rfl
        show decide (d ≤ now) = false
        rw [decide_eq_false_iff_not, Int.not_le]
        exact hlt
    have hcycle : pollCycle profile deadline 0 ⟨now, false, .response 200 (.ok status)⟩ = some .approved := by
      simp only [pollCycle, hrunning, Bool.false_eq_true, if_false]
      exact pollDecision_approved.mpr hdecision
    simp only [List.replicate_one, pollApprovalStatus, hcycle]

end Shim

end ThoughtGate
