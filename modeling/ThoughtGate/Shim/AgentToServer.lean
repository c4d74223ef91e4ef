import ThoughtGate.Shim.Message
import ThoughtGate.Shim.Polling

/-!
# From the agent to the server

`agent_to_server` of `shim/proxy/agent_to_server.rs`: a line from the agent is read, asked about, and written to the
child's stdin or answered. `handleLine` is one round of the loop, for any behaviour of the governance service on its three
calls (`LineEnv`); `agentToServer` is the loop. An error of a pipe ends the loop, as the end of the list does.

In production the loop does not fail closed at one place: a revalidation that answers with anything but a success is taken
for a permission (`revalidation_outage_forwards`). With this put in, every write is accounted for
(`written_is_permitted`).
-/

namespace ThoughtGate

/-- What the agent is told instead: `format_deny_response`, `format_error_response` and
`format_timeout_tool_response`. -/
inductive AgentReply where
  | denied (id : JsonRpcId) (policyId : Option String)
  | error (id : JsonRpcId) (e : ThoughtGateError)
  | timedOut (id : JsonRpcId) (toolName : String)

/-- What the governance service does while a line is handled, and the clock when the polling starts. -/
structure LineEnv where
  evaluate : HttpReply EvaluateResponse
  pollStart : Instant
  cycles : List PollCycle
  revalidate : HttpReply RevalidateResponse

/-- What becomes of a line. -/
inductive LineOutcome where
  /-- It is not a message, or is a smuggled one. -/
  | skipped
  /-- It passes through without a question. -/
  | passed (bytes : ByteArray)
  /-- It is written, and its key and method are put into `pending.outbound`. -/
  | forwarded (bytes : ByteArray) (tracked : Option (String × String))
  | replied (reply : Option AgentReply)
  /-- The polling has not ended. -/
  | polling
  /-- The shutdown came while polling. -/
  | stopped

/-- What is written to the child's stdin. -/
def LineOutcome.written : LineOutcome → Option ByteArray
  | .passed bytes | .forwarded bytes _ => some bytes
  | _ => none

namespace Shim

/-- `extract_tool_name`. -/
def extractToolName (params : Option Value) : Option String := (params.bind (·.get "name")).bind Value.asStr

/-- The response to the question, or in development what is made up in its place; the HTTP code is not looked at. -/
def evaluated (profile : Profile) : HttpReply EvaluateResponse → Option EvaluateResponse
  | .response _ (.ok response) => some response
  | _ => if profile = .production then none else some { decision := .forward }

section

variable [F64.Fmt] [Propagator]

/-- The bytes that are forwarded: the line itself, or the message rebuilt without its trace context. -/
def forwardBytes (raw : ByteArray) (msg : StdioMessage) : ByteArray :=
  let context := extractContextFromMeta msg.params
  if context.hadTraceContext then (rebuildMessageWithParams msg.kind context.strippedParams).toUTF8 else raw

/-- The key under which a forwarded message is tracked. -/
def outboundKey (id : JsonRpcId) : String := (idValue id).toJson

/-- The message is written and tracked. -/
def forward (raw : ByteArray) (msg : StdioMessage) : LineOutcome :=
  .forwarded (forwardBytes raw msg) (msg.kind.id.map fun id => (outboundKey id, msg.kind.method))

/-- What follows a `PendingApproval`. -/
def awaitApproval (profile : Profile) (raw : ByteArray) (msg : StdioMessage) (env : LineEnv)
    (response : EvaluateResponse) : LineOutcome :=
  match response.taskId with
  | none => .replied (msg.kind.id.map fun id => .denied id none)
  | some taskId =>
    let tool := (extractToolName msg.params).getD ""
    let deadline := response.timeoutSecs.map fun secs => env.pollStart + Duration.fromSecs secs
    -- a shutdown that came with the response is seen in the first cycle
    let cycles := env.cycles.map fun c => { c with shutdown := c.shutdown || response.shutdown }
    match pollApprovalStatus profile deadline 0 cycles with
    | none => .polling
    | some .approved =>
      if revalidationOk profile (revalidateBeforeForward env.revalidate) then forward raw msg
      else .replied (msg.kind.id.map fun id => .error id (.policyDrift tool taskId))
    | some (.rejected _) => .replied (msg.kind.id.map fun id => .error id (.approvalRejected tool none none))
    | some .expired => .replied (msg.kind.id.map fun id => .error id (.taskExpired taskId))
    | some .cancelled => .replied (msg.kind.id.map fun id => .error id (.taskCancelled taskId))
    | some .timeout =>
      .replied (msg.kind.id.map fun id => .timedOut id ((extractToolName msg.params).getD "unknown"))
    | some .error => .replied (msg.kind.id.map fun id => .error id (.serviceUnavailable "Approval poll failed"))
    | some .shutdown => .stopped

/-- A message: what becomes of it, and whether the service asked for a shutdown. -/
def handleMessage (profile : Profile) (raw : ByteArray) (msg : StdioMessage) (env : LineEnv) : LineOutcome × Bool :=
  if isPassthrough msg.kind.method then (.passed raw, false)
  else
    match evaluated profile env.evaluate with
    | none => (.replied (msg.kind.id.map fun id => .denied id none), false)
    | some response =>
      match response.decision with
      | .forward => (forward raw msg, response.shutdown)
      | .deny => (.replied (msg.kind.id.map fun id => .denied id response.policyId), response.shutdown)
      | .pendingApproval => (awaitApproval profile raw msg env response, response.shutdown)

variable [JsonText]

/-- The message of a line, if it is one. -/
def readMessage (profile : Profile) (raw : ByteArray) : Option StdioMessage :=
  if maxMessageBytes < raw.size then none
  else
    match String.fromUTF8? raw with
    | none => none
    | some line =>
      if (Text.trim line).isEmpty then none
      else
        match parseStdioMessage line with
        | .error _ => none
        | .ok msg => if detectSmuggling raw && profile = .production then none else some msg

/-- One round of the loop. -/
def handleLine (profile : Profile) (raw : ByteArray) (env : LineEnv) : LineOutcome × Bool :=
  match readMessage profile raw with
  | none => (.skipped, false)
  | some msg => handleMessage profile raw msg env

/-- `agent_to_server`: what becomes of the lines until the loop ends. -/
def agentToServer (profile : Profile) : List (ByteArray × LineEnv) → List LineOutcome
  | [] => []
  | (raw, env) :: lines =>
    match handleLine profile raw env with
    | (.polling, _) => [.polling]
    | (.stopped, _) => [.stopped]
    | (outcome, true) => [outcome]
    | (outcome, false) => outcome :: agentToServer profile lines

/-- Everything that is written to the child's stdin. -/
def childStdin (profile : Profile) (lines : List (ByteArray × LineEnv)) : List ByteArray :=
  (agentToServer profile lines).filterMap LineOutcome.written

end

/-! ### What a write rests on -/

/-- The revalidation did not stand in the way: it was answered with something else than a success, or with a success
that allows the message. -/
def NotRefused (reply : HttpReply RevalidateResponse) : Prop :=
  ∃ code json, reply = .response code json ∧ (isSuccess code = true → ∃ body, json = .ok body ∧ body.allowed = true)

/-- The revalidation was answered with a success that allows the message. -/
def AllowedBySuccess (reply : HttpReply RevalidateResponse) : Prop :=
  ∃ code body, reply = .response code (.ok body) ∧ isSuccess code = true ∧ body.allowed = true

/-- What the service said about a message that may be forwarded: `Forward`, or `PendingApproval` and then `Approved`, and
a revalidation as required. -/
def Granted (revalidated : HttpReply RevalidateResponse → Prop) (env : LineEnv) : Prop :=
  ∃ code response, env.evaluate = .response code (.ok response) ∧
    (response.decision = .forward ∨
      (response.decision = .pendingApproval ∧ response.taskId.isSome = true ∧
        (∃ c ∈ env.cycles, ∃ code status, c.reply = .response code (.ok status) ∧ isSuccess code = true ∧
          status.decision = some .approved) ∧
        revalidated env.revalidate))

theorem notRefused_of_ok {reply : HttpReply RevalidateResponse}
    (h : revalidationOk .production (revalidateBeforeForward reply) = true) : NotRefused reply := by
  cases reply with
  | failed e => cases h
  | response code json =>
    refine ⟨code, json, rfl, fun hsuccess => ?_⟩
    have hfound : code ≠ notFound := by
      rintro rfl
      cases hsuccess
    rw [revalidateBeforeForward, if_neg hfound, if_pos hsuccess] at h
    cases json with
    | error e => cases h
    | ok body => exact ⟨body, rfl, h⟩

theorem evaluated_production {reply : HttpReply EvaluateResponse} {response : EvaluateResponse}
    (h : evaluated .production reply = some response) : ∃ code, reply = .response code (.ok response) := by
  unfold evaluated at h
  split at h
  · cases h
    exact ⟨_, rfl⟩
  · cases h

section

variable [F64.Fmt] [Propagator]

/-- After a `PendingApproval` only an approval that the revalidation does not refuse leads to a write. -/
theorem awaitApproval_written {raw : ByteArray} {msg : StdioMessage} {env : LineEnv} {response : EvaluateResponse}
    {bytes : ByteArray} (h : (awaitApproval .production raw msg env response).written = some bytes) :
    bytes = forwardBytes raw msg ∧ response.taskId.isSome = true ∧
      (∃ c ∈ env.cycles, ∃ code status, c.reply = .response code (.ok status) ∧ isSuccess code = true ∧
        status.decision = some .approved) ∧
      NotRefused env.revalidate := by
  unfold awaitApproval at h
  cases htask : response.taskId with
  | none =>
    rw [htask] at h
    cases h
  | some taskId =>
    rw [htask] at h
    dsimp only at h
    split at h
    · cases h
    · rename_i happroved
      split at h
      · rename_i hok
        cases h
        obtain ⟨c, hc, code, status, hreply, hcode, hdecision⟩ := pollApprovalStatus_approved happroved
        obtain ⟨c₀, hc₀, rfl⟩ := List.mem_map.mp hc
        exact ⟨rfl, rfl, ⟨c₀, hc₀, code, status, hreply, hcode, hdecision⟩, notRefused_of_ok hok⟩
      · cases h
    all_goals cases h

theorem handleMessage_written {raw : ByteArray} {msg : StdioMessage} {env : LineEnv} {bytes : ByteArray}
    (h : (handleMessage .production raw msg env).1.written = some bytes) :
    (bytes = raw ∧ isPassthrough msg.kind.method = true) ∨ (bytes = forwardBytes raw msg ∧ Granted NotRefused env) := by
  unfold handleMessage at h
  split at h
  · rename_i hpass
    cases h
    exact Or.inl ⟨rfl, hpass⟩
  · cases hresponse : evaluated .production env.evaluate with
    | none =>
      rw [hresponse] at h
      cases h
    | some response =>
      rw [hresponse] at h
      obtain ⟨code, hreply⟩ := evaluated_production hresponse
      dsimp only at h
      cases hdecision : response.decision with
      | forward =>
        rw [hdecision] at h
        cases h
        exact Or.inr ⟨rfl, code, response, hreply, Or.inl hdecision⟩
      | deny =>
        rw [hdecision] at h
        cases h
      | pendingApproval =>
        rw [hdecision] at h
        obtain ⟨rfl, htask, happroved, hrevalidated⟩ := awaitApproval_written h
        exact Or.inr ⟨rfl, code, response, hreply, Or.inr ⟨hdecision, htask, happroved, hrevalidated⟩⟩

variable [JsonText]

/-- The loop does nothing but its rounds. -/
theorem agentToServer_mem {profile : Profile} {lines : List (ByteArray × LineEnv)} {outcome : LineOutcome}
    (h : outcome ∈ agentToServer profile lines) :
    ∃ raw env, (raw, env) ∈ lines ∧ (handleLine profile raw env).1 = outcome := by
  induction lines with
  | nil => cases h
  | cons line lines ih =>
    obtain ⟨raw, env⟩ := line
    have hround : outcome = (handleLine profile raw env).1 ∨ outcome ∈ agentToServer profile lines := by
      rw [agentToServer] at h
      split at h
      all_goals
        rename_i hline
        rw [hline]
      · exact Or.inl (List.mem_singleton.mp h)
      · exact Or.inl (List.mem_singleton.mp h)
      · exact Or.inl (List.mem_singleton.mp h)
      · exact List.mem_cons.mp h
    rcases hround with rfl | hrest
    · exact ⟨raw, env, List.mem_cons_self, rfl⟩
    · obtain ⟨raw', env', hmem, hline⟩ := ih hrest
      exact ⟨raw', env', List.mem_cons_of_mem _ hmem, hline⟩

/-- In production, for all lines and any behaviour of the service, what is written to the child is a line whose method
passes through, or the message of one that the service granted without a refusal at its revalidation. -/
theorem written_is_permitted {lines : List (ByteArray × LineEnv)} {bytes : ByteArray}
    (h : bytes ∈ childStdin .production lines) :
    ∃ raw env msg, (raw, env) ∈ lines ∧ readMessage .production raw = some msg ∧
      ((bytes = raw ∧ isPassthrough msg.kind.method = true) ∨
        (bytes = forwardBytes raw msg ∧ Granted NotRefused env)) := by
  obtain ⟨outcome, houtcome, hwritten⟩ := List.mem_filterMap.mp h
  obtain ⟨raw, env, hmem, rfl⟩ := agentToServer_mem houtcome
  unfold handleLine at hwritten
  cases hread : readMessage .production raw with
  | none =>
    rw [hread] at hwritten
    cases hwritten
  | some msg =>
    rw [hread] at hwritten
    exact ⟨raw, env, msg, hmem, hread, handleMessage_written hwritten⟩

end

end Shim

section

attribute [local instance] Sample.f64Fmt Sample.propagator

namespace Sample

def readCallMessage : Value :=
  .object [("jsonrpc", .string "2.0"), ("id", .number (.posInt 1)), ("method", .string "tools/call"),
    ("params", .object [("name", .string "read")])]

/-- The agent's line with a call of `read`. -/
def readCallLine : ByteArray := (readCallMessage.toJson ++ "\n").toUTF8

/-- The call needs an approval and gets it; then the revalidation answers as given. -/
def approvedThen (revalidate : HttpReply RevalidateResponse) : LineEnv where
  evaluate := .response 200 (.ok { decision := .pendingApproval, taskId := some "tg_1" })
  pollStart := 0
  cycles := [⟨0, false, .response 200 (.ok ⟨"tg_1", .executing, some .approved, none⟩)⟩]
  revalidate

/-- The endpoint is out of order. -/
def revalidationOutage : LineEnv := approvedThen (.response 500 (.error "internal server error"))

end Sample

/-- A parser that knows the sample line. -/
@[reducible] def Sample.lineText : JsonText := Sample.jsonTextOf [Sample.readCallMessage]

attribute [local instance] Sample.lineText

/-- The line is written, and its message is not one that passes without a question. -/
theorem Sample.revalidationOutage_written :
    Shim.childStdin .production [(readCallLine, revalidationOutage)] = [readCallLine] ∧
      (Shim.readMessage .production readCallLine).all (fun msg => !Shim.isPassthrough msg.kind.method) = true := by
  decide +kernel

/-- In production an approved call is written although its revalidation failed with 500: no success said that it is
allowed. -/
theorem revalidation_outage_forwards :
    Sample.readCallLine ∈ Shim.childStdin .production [(Sample.readCallLine, Sample.revalidationOutage)] ∧
      ¬ ∃ raw env msg, (raw, env) ∈ [(Sample.readCallLine, Sample.revalidationOutage)] ∧
        Shim.readMessage .production raw = some msg ∧
        (Shim.isPassthrough msg.kind.method = true ∨ Shim.Granted Shim.AllowedBySuccess env) := by
  obtain ⟨hwritten, hmethod⟩ := Sample.revalidationOutage_written
  refine ⟨by rw [hwritten]; exact List.mem_singleton_self _, ?_⟩
  rintro ⟨raw, env, msg, hmem, hread, hpass | ⟨code, response, hreply, hforward | ⟨-, -, -, hallowed⟩⟩⟩
  all_goals
    cases List.mem_singleton.mp hmem
  · rw [hread] at hmethod
    simp [hpass] at hmethod
  · cases hreply
    cases hforward
  · obtain ⟨code', body, hbody, -⟩ := hallowed
    cases hbody

theorem written_is_permitted_sample :
    ∃ raw env msg, (raw, env) ∈ [(Sample.readCallLine, Sample.revalidationOutage)] ∧
      Shim.readMessage .production raw = some msg ∧
      ((Sample.readCallLine = raw ∧ Shim.isPassthrough msg.kind.method = true) ∨
        (Sample.readCallLine = Shim.forwardBytes raw msg ∧ Shim.Granted Shim.NotRefused env)) :=
  Shim.written_is_permitted (by rw [Sample.revalidationOutage_written.1]; exact List.mem_singleton_self _)

end

end ThoughtGate
