import ThoughtGate.Shim.Readers
import ThoughtGate.Transport.Written

/-!
# The governance API on the wire

The shim puts its questions to the governance service by HTTP and in JSON (`governance/api.rs`): it writes a question, the
service decodes it, evaluates it, and writes an answer, which the shim decodes (`evaluate_handler` of
`governance/service.rs`, `agent_to_server`). On the way an identifier that is `null` is lost, the source of a denial is not
written, and a double may be read as another one. None of this makes a difference: what the shim does with a line is what
it would do if the functions of the service were called on the message itself (`line_over_wire`).

The limit of the HTTP server on the size of a body is left out.
-/

namespace ThoughtGate

/-! ### Fields -/

namespace Doc

/-- `bool::deserialize`. -/
def readBool : Doc → Option Bool
  | .bool b => some b
  | _ => none

/-- The derived `Deserialize` of an enumeration: the name of a variant, also as the one key of an object over `null`. -/
def readVariant {α : Type} (wireName : α → String) (variants : List α) : Doc → Option α
  | .string s => variants.find? fun a => wireName a == s
  | .object [(some s, .null)] => variants.find? fun a => wireName a == s
  | _ => none

end Doc

def StreamDirection.wireName : StreamDirection → String
  | .agentToServer => "agent_to_server"
  | .serverToAgent => "server_to_agent"

def MessageType.wireName : MessageType → String
  | .request => "request"
  | .response => "response"
  | .notification => "notification"

def Profile.wireName : Profile → String
  | .production => "production"
  | .development => "development"

def GovernanceDecision.wireName : GovernanceDecision → String
  | .forward => "forward"
  | .deny => "deny"
  | .pendingApproval => "pending_approval"

def ApprovalOutcome.wireName : ApprovalOutcome → String
  | .approved => "approved"
  | .rejected => "rejected"
  | .expired => "expired"
  | .cancelled => "cancelled"

/-- The names of `TaskStatus` are not changed. -/
def TaskStatus.wireName : TaskStatus → String
  | .working => "Working"
  | .inputRequired => "InputRequired"
  | .executing => "Executing"
  | .completed => "Completed"
  | .failed => "Failed"
  | .rejected => "Rejected"
  | .cancelled => "Cancelled"
  | .expired => "Expired"

def readDirection : Doc → Option StreamDirection := Doc.readVariant StreamDirection.wireName [.agentToServer, .serverToAgent]

def readMessageType : Doc → Option MessageType := Doc.readVariant MessageType.wireName [.request, .response, .notification]

def readProfile : Doc → Option Profile := Doc.readVariant Profile.wireName [.production, .development]

def readDecision : Doc → Option GovernanceDecision :=
  Doc.readVariant GovernanceDecision.wireName [.forward, .deny, .pendingApproval]

def readOutcome : Doc → Option ApprovalOutcome :=
  Doc.readVariant ApprovalOutcome.wireName [.approved, .rejected, .expired, .cancelled]

def readStatus : Doc → Option TaskStatus :=
  Doc.readVariant TaskStatus.wireName
    [.working, .inputRequired, .executing, .completed, .failed, .rejected, .cancelled, .expired]

/-! ### Messages -/

/-- `GovernanceEvaluateRequest` as it is serialised. -/
def EvaluateRequest.toValue (profile : Profile) (req : EvaluateRequest) : Value :=
  .object ([("server_id", Value.string req.serverId), ("direction", .string req.direction.wireName),
    ("method", .string req.method)] ++ (req.id.map fun id => ("id", Shim.idValue id)).toList ++
    (req.params.map fun p => ("params", p)).toList ++
    [("message_type", Value.string req.messageType.wireName), ("profile", .string profile.wireName)])

/-- `GovernanceEvaluateRequest::deserialize`. -/
def decodeEvaluateRequest (x : Doc) : Option EvaluateRequest :=
  match x.structFields ["server_id", "direction", "method", "id", "params", "message_type", "profile"] with
  | some [serverId, direction, method, id, params, messageType, profile] => do
    let _ ← profile.bind readProfile
    some {
      serverId := ← serverId.bind Doc.readString
      direction := ← direction.bind readDirection
      method := ← method.bind Doc.readString
      id := ← Doc.readOption (fun x => (x.value (maxNesting - 1)).bind parseId) id
      params := ← Doc.readOption (Doc.value (maxNesting - 1)) params
      messageType := ← messageType.bind readMessageType }
  | _ => none

/-- An optional number under its key. -/
def countMember (key : String) (n : Option Nat) : List (String × Value) :=
  (n.map fun n => (key, Value.number (.posInt n))).toList

/-- `GovernanceEvaluateResponse` as it is serialised; `deny_source` is skipped. -/
def EvaluateResponse.toValue (r : EvaluateResponse) : Value :=
  .object ([("decision", Value.string r.decision.wireName)] ++ textMember "task_id" r.taskId ++
    textMember "policy_id" r.policyId ++ textMember "reason" r.reason ++ countMember "poll_interval_ms" r.pollIntervalMs ++
    countMember "timeout_secs" r.timeoutSecs ++ [("shutdown", Value.bool r.shutdown)])

/-- `GovernanceEvaluateResponse::deserialize`. -/
def decodeEvaluateResponse (x : Doc) : Option EvaluateResponse :=
  match x.structFields
      ["decision", "task_id", "policy_id", "reason", "poll_interval_ms", "timeout_secs", "shutdown"] with
  | some [decision, taskId, policyId, reason, pollIntervalMs, timeoutSecs, shutdown] => do
    some {
      decision := ← decision.bind readDecision
      taskId := ← Doc.readOption Doc.readString taskId
      policyId := ← Doc.readOption Doc.readString policyId
      reason := ← Doc.readOption Doc.readString reason
      pollIntervalMs := ← Doc.readOption Doc.readU64 pollIntervalMs
      timeoutSecs := ← Doc.readOption Doc.readU64 timeoutSecs
      shutdown := ← shutdown.bind Doc.readBool
      denySource := none }
  | _ => none

/-- `TaskStatusResponse` as it is serialised. -/
def TaskStatusResponse.toValue (r : TaskStatusResponse) : Value :=
  .object ([("task_id", Value.string r.taskId), ("status", .string r.status.wireName)] ++
    textMember "decision" (r.decision.map ApprovalOutcome.wireName) ++ textMember "reason" r.reason)

/-- `TaskStatusResponse::deserialize`. -/
def decodeTaskStatus (x : Doc) : Option TaskStatusResponse :=
  match x.structFields ["task_id", "status", "decision", "reason"] with
  | some [taskId, status, decision, reason] => do
    some {
      taskId := ← taskId.bind Doc.readString
      status := ← status.bind readStatus
      decision := ← Doc.readOption readOutcome decision
      reason := ← Doc.readOption Doc.readString reason }
  | _ => none

/-- `RevalidateResponse` as it is serialised. -/
def RevalidateResponse.toValue (r : RevalidateResponse) : Value :=
  .object ([("allowed", Value.bool r.allowed), ("drift_detected", .bool r.driftDetected)] ++ textMember "reason" r.reason)

/-- `RevalidateResponse::deserialize`. -/
def decodeRevalidate (x : Doc) : Option RevalidateResponse :=
  match x.structFields ["allowed", "drift_detected", "reason"] with
  | some [allowed, driftDetected, reason] => do
    some {
      allowed := ← allowed.bind Doc.readBool
      driftDetected := ← driftDetected.bind Doc.readBool
      reason := ← Doc.readOption Doc.readString reason }
  | _ => none

/-! ### What is written can be read -/

namespace Value

/-- The numbers are natural numbers. -/
abbrev Natural (v : Value) : Prop := v.Numbers fun n => ∃ k, n = .posInt k

theorem Natural.signed {v : Value} (h : v.Natural) : v.Signed := by
  induction h with
  | number hn =>
    refine .number ?_
    rintro i rfl
    obtain ⟨k, hk⟩ := hn
    cases hk
  | null => exact .null
  | bool b => exact .bool b
  | string s => exact .string s
  | array _ ih => exact .array ih
  | object _ ih => exact .object ih

theorem Natural.mapDoubles {v : Value} (g : F64 → F64) (h : v.Natural) : v.mapDoubles g = v := by
  induction h with
  | number hn =>
    obtain ⟨k, rfl⟩ := hn
    rfl
  | @array xs _ ih =>
    have hmap : xs.map (Value.mapDoubles g) = xs.map id := List.map_congr_left ih
    rw [Value.mapDoubles, mapDoublesItems_eq_map, hmap, List.map_id]
  | @object fields _ ih =>
    have hmap : (fields.map fun f => (f.1, f.2.mapDoubles g)) = fields.map id :=
      List.map_congr_left fun f hf => Prod.ext rfl (ih f hf)
    rw [Value.mapDoubles, mapDoublesFields_eq_map, hmap, List.map_id]
  | null => rfl
  | bool b => rfl
  | string s => rfl

end Value

theorem natural_textMember {key : String} {s : Option String} {f : String × Value} (hf : f ∈ textMember key s) :
    f.2.Natural := by
  obtain ⟨t, -, rfl⟩ := Option.map_eq_some_iff.mp (Option.mem_toList.mp hf)
  exact .string t

theorem natural_countMember {key : String} {n : Option Nat} {f : String × Value} (hf : f ∈ countMember key n) :
    f.2.Natural := by
  obtain ⟨k, -, rfl⟩ := Option.map_eq_some_iff.mp (Option.mem_toList.mp hf)
  exact .number ⟨k, rfl⟩

theorem EvaluateResponse.toValue_natural (r : EvaluateResponse) : r.toValue.Natural := by
  refine .object ?_
  intro f hf
  simp only [List.mem_append, List.mem_singleton] at hf
  rcases hf with (((((rfl | hf) | hf) | hf) | hf) | hf) | rfl
  · exact .string _
  · exact natural_textMember hf
  · exact natural_textMember hf
  · exact natural_textMember hf
  · exact natural_countMember hf
  · exact natural_countMember hf
  · exact .bool _

theorem TaskStatusResponse.toValue_natural (r : TaskStatusResponse) : r.toValue.Natural := by
  refine .object ?_
  intro f hf
  simp only [List.mem_append, List.mem_cons, List.not_mem_nil, or_false] at hf
  rcases hf with ((rfl | rfl) | hf) | hf
  · exact .string _
  · exact .string _
  · exact natural_textMember hf
  · exact natural_textMember hf

theorem RevalidateResponse.toValue_natural (r : RevalidateResponse) : r.toValue.Natural := by
  refine .object ?_
  intro f hf
  simp only [List.mem_append, List.mem_cons, List.not_mem_nil, or_false] at hf
  rcases hf with (rfl | rfl) | hf
  · exact .bool _
  · exact .bool _
  · exact natural_textMember hf

/-- An optional member has at most its key. -/
theorem keys_optional {α : Type} (key : String) (f : α → Value) (o : Option α) :
    ((o.map fun a => (key, f a)).toList.map (·.1)).Sublist [key] := by
  cases o with
  | none => exact List.nil_sublist _
  | some a => exact List.Sublist.refl _

theorem EvaluateRequest.toValue_record (profile : Profile) (req : EvaluateRequest) : (req.toValue profile).Record := by
  refine ⟨_, rfl, ?_⟩
  have hsub : List.Sublist _ (["server_id", "direction", "method"] ++ ["id"] ++ ["params"] ++ ["message_type", "profile"]) :=
    (((List.Sublist.refl ["server_id", "direction", "method"]).append (keys_optional "id" Shim.idValue req.id)).append
      (keys_optional "params" (fun p => p) req.params)).append (List.Sublist.refl ["message_type", "profile"])
  simp only [List.map_append]
  exact hsub.nodup (by decide)

theorem EvaluateResponse.toValue_record (r : EvaluateResponse) : r.toValue.Record := by
  refine ⟨_, rfl, ?_⟩
  have hsub : List.Sublist _ (["decision"] ++ ["task_id"] ++ ["policy_id"] ++ ["reason"] ++ ["poll_interval_ms"] ++
      ["timeout_secs"] ++ ["shutdown"]) :=
    ((((((List.Sublist.refl ["decision"]).append (keys_optional "task_id" Value.string r.taskId)).append
      (keys_optional "policy_id" Value.string r.policyId)).append (keys_optional "reason" Value.string r.reason)).append
      (keys_optional "poll_interval_ms" (fun n => Value.number (.posInt n)) r.pollIntervalMs)).append
      (keys_optional "timeout_secs" (fun n => Value.number (.posInt n)) r.timeoutSecs)).append
      (List.Sublist.refl ["shutdown"])
  simp only [List.map_append]
  exact hsub.nodup (by decide)

theorem TaskStatusResponse.toValue_record (r : TaskStatusResponse) : r.toValue.Record := by
  refine ⟨_, rfl, ?_⟩
  have hsub : List.Sublist _ (["task_id", "status"] ++ ["decision"] ++ ["reason"]) :=
    ((List.Sublist.refl ["task_id", "status"]).append
      (keys_optional "decision" Value.string (r.decision.map ApprovalOutcome.wireName))).append
      (keys_optional "reason" Value.string r.reason)
  simp only [List.map_append]
  exact hsub.nodup (by decide)

theorem RevalidateResponse.toValue_record (r : RevalidateResponse) : r.toValue.Record := by
  refine ⟨_, rfl, ?_⟩
  have hsub : List.Sublist _ (["allowed", "drift_detected"] ++ ["reason"]) :=
    (List.Sublist.refl ["allowed", "drift_detected"]).append (keys_optional "reason" Value.string r.reason)
  simp only [List.map_append]
  exact hsub.nodup (by decide)

theorem readDirection_wireName (d : StreamDirection) : readDirection (.string d.wireName) = some d := by
  cases d <;> decide

theorem readMessageType_wireName (t : MessageType) : readMessageType (.string t.wireName) = some t := by
  cases t <;> decide

theorem readProfile_wireName (p : Profile) : readProfile (.string p.wireName) = some p := by
  cases p <;> decide

theorem readDecision_wireName (d : GovernanceDecision) : readDecision (.string d.wireName) = some d := by
  cases d <;> decide

theorem readOutcome_wireName (o : ApprovalOutcome) : readOutcome (.string o.wireName) = some o := by
  cases o <;> decide

theorem readStatus_wireName (s : TaskStatus) : readStatus (.string s.wireName) = some s := by
  cases s <;> decide

/-! ### Round trips -/

namespace Doc

theorem readOption_text (s : Option String) : readOption readString ((s.map Value.string).map ofValue) = some s := by
  cases s <;> rfl

theorem readOption_count (n : Option Nat) :
    readOption readU64 ((n.map fun n => Value.number (.posInt n)).map ofValue) = some n := by
  cases n <;> rfl

theorem readOption_outcome (o : Option ApprovalOutcome) :
    readOption readOutcome (((o.map ApprovalOutcome.wireName).map Value.string).map ofValue) = some o := by
  cases o with
  | none => rfl
  | some o =>
    change (readOutcome (.string o.wireName)).map some = _
    rw [readOutcome_wireName, Option.map_some]

/-- What is there and not `null` is read. -/
theorem readOption_written {α : Type} (read : Doc → Option α) {v : Value} (h : v ≠ .null) :
    readOption read (some (ofValue v)) = (read (ofValue v)).map some := by
  cases v with
  | null => exact absurd rfl h
  | _ => simp only [ofValue, readOption]

/-- An identifier is read as it was written, but `null` is none. -/
theorem readOption_id {id : Option JsonRpcId} (h : ∀ i, id = some i → i.Fits) :
    readOption (fun x => (x.value (maxNesting - 1)).bind parseId) ((id.map Shim.idValue).map ofValue) =
      some (id.filter fun id => id ≠ .null) := by
  cases id with
  | none => rfl
  | some i =>
    have hread : ((ofValue (Shim.idValue i)).value (maxNesting - 1)).bind parseId = some i := by
      have hvalue : (ofValue (Shim.idValue i)).value (maxNesting - 1) = some (Shim.idValue i) := by cases i <;> rfl
      rw [hvalue, Option.bind_some, parseId_idValue (h i rfl)]
    cases i with
    | null => rfl
    | number n =>
      have hthere : Shim.idValue (.number n) ≠ .null := nofun
      rw [Option.map_some, Option.map_some, readOption_written _ hthere, hread]
      rfl
    | string s =>
      have hthere : Shim.idValue (.string s) ≠ .null := nofun
      rw [Option.map_some, Option.map_some, readOption_written _ hthere, hread]
      rfl

/-- Parameters are read as they were written, but `null` is none. -/
theorem readOption_params {params : Option Value} (hkeyed : ∀ p, params = some p → p.Keyed)
    (hnested : ∀ p, params = some p → p.Nested (maxNesting - 1)) :
    readOption (value (maxNesting - 1)) (params.map ofValue) = some (decodeValue params) := by
  cases params with
  | none => rfl
  | some p =>
    by_cases hnull : p = .null
    · rw [hnull]
      rfl
    · rw [Option.map_some, readOption_written _ hnull, value_ofValue (hkeyed p rfl) (hnested p rfl), Option.map_some,
        decodeValue_eq_self fun h => hnull (Option.some.inj h)]

end Doc

/-- To a reader of doubles a question is one with other parameters. -/
theorem toValue_mapDoubles (g : F64 → F64) (profile : Profile) (req : EvaluateRequest) :
    (req.toValue profile).mapDoubles g =
      EvaluateRequest.toValue profile { req with params := req.params.map (Value.mapDoubles g) } := by
  obtain ⟨serverId, direction, method, id, params, messageType⟩ := req
  cases id <;> cases params <;>
    simp [EvaluateRequest.toValue, Value.mapDoubles, Value.mapDoublesFields, Value.mapDoubles_idValue]

theorem toValue_signed (profile : Profile) {req : EvaluateRequest} (h : ∀ p, req.params = some p → p.Signed) :
    (req.toValue profile).Signed := by
  refine .object ?_
  intro f hf
  simp only [List.mem_append, List.mem_cons, List.not_mem_nil, or_false, Option.mem_toList, Option.map_eq_some_iff] at hf
  rcases hf with (((rfl | rfl | rfl) | ⟨id, -, rfl⟩) | ⟨p, hp, rfl⟩) | rfl | rfl
  · exact .string _
  · exact .string _
  · exact .string _
  · exact idValue_signed id
  · exact h p hp
  · exact .string _
  · exact .string _

/-- The service decodes the question that was written. -/
theorem decode_evaluateRequest (profile : Profile) {req : EvaluateRequest} (hid : ∀ i, req.id = some i → i.Fits)
    (hkeyed : ∀ p, req.params = some p → p.Keyed) (hnested : ∀ p, req.params = some p → p.Nested (maxNesting - 1)) :
    decodeEvaluateRequest (Doc.ofValue (req.toValue profile)) = some (Shim.received req) := by
  have hmembers : (["server_id", "direction", "method", "id", "params", "message_type", "profile"].map fun name =>
      ((req.toValue profile).get name).map Doc.ofValue) =
      [some (.string req.serverId), some (.string req.direction.wireName), some (.string req.method),
        (req.id.map Shim.idValue).map Doc.ofValue, req.params.map Doc.ofValue, some (.string req.messageType.wireName),
        some (.string profile.wireName)] := by
    simp [EvaluateRequest.toValue, Value.get_append, Value.get_cons, Value.get_nil, Value.get_optional, Value.get_member,
      Doc.ofValue]
  rw [decodeEvaluateRequest, Doc.structFields_written (req.toValue_record profile), hmembers]
  simp only [Option.bind_eq_bind, Option.bind_some, Doc.readString, readProfile_wireName, readDirection_wireName,
    readMessageType_wireName, Doc.readOption_id hid, Doc.readOption_params hkeyed hnested]
  rfl

/-- The shim decodes the answer that was written, but for the source of a denial. -/
theorem decode_evaluateResponse (r : EvaluateResponse) :
    decodeEvaluateResponse (Doc.ofValue r.toValue) = some { r with denySource := none } := by
  have hmembers : (["decision", "task_id", "policy_id", "reason", "poll_interval_ms", "timeout_secs", "shutdown"].map
      fun name => (r.toValue.get name).map Doc.ofValue) =
      [some (.string r.decision.wireName), (r.taskId.map .string).map Doc.ofValue, (r.policyId.map .string).map Doc.ofValue,
        (r.reason.map .string).map Doc.ofValue, (r.pollIntervalMs.map fun n => .number (.posInt n)).map Doc.ofValue,
        (r.timeoutSecs.map fun n => .number (.posInt n)).map Doc.ofValue, some (.bool r.shutdown)] := by
    simp [EvaluateResponse.toValue, Value.get_append, Value.get_cons, Value.get_nil, get_textMember, countMember,
      Value.get_optional, Doc.ofValue]
  rw [decodeEvaluateResponse, Doc.structFields_written r.toValue_record, hmembers]
  simp only [Option.bind_eq_bind, Option.bind_some, Doc.readBool, readDecision_wireName, Doc.readOption_text,
    Doc.readOption_count]

theorem decode_taskStatus (r : TaskStatusResponse) : decodeTaskStatus (Doc.ofValue r.toValue) = some r := by
  have hmembers : (["task_id", "status", "decision", "reason"].map fun name => (r.toValue.get name).map Doc.ofValue) =
      [some (.string r.taskId), some (.string r.status.wireName),
        ((r.decision.map ApprovalOutcome.wireName).map .string).map Doc.ofValue, (r.reason.map .string).map Doc.ofValue] := by
    simp [TaskStatusResponse.toValue, Value.get_append, Value.get_cons, get_textMember, Doc.ofValue]
  rw [decodeTaskStatus, Doc.structFields_written r.toValue_record, hmembers]
  simp only [Option.bind_eq_bind, Option.bind_some, Doc.readString, readStatus_wireName, Doc.readOption_text,
    Doc.readOption_outcome]

theorem decode_revalidate (r : RevalidateResponse) : decodeRevalidate (Doc.ofValue r.toValue) = some r := by
  have hmembers : (["allowed", "drift_detected", "reason"].map fun name => (r.toValue.get name).map Doc.ofValue) =
      [some (.bool r.allowed), some (.bool r.driftDetected), (r.reason.map .string).map Doc.ofValue] := by
    simp [RevalidateResponse.toValue, Value.get_cons, get_textMember, Doc.ofValue]
  rw [decodeRevalidate, Doc.structFields_written r.toValue_record, hmembers]
  simp only [Option.bind_eq_bind, Option.bind_some, Doc.readBool, Doc.readOption_text]

/-! ### The service -/

/-- `evaluate_handler`, without its span; without an evaluator everything is forwarded. -/
def evaluateHandler [Glob] [Cedar] [F64.Fmt] [F64.Display] [Sha256] [PipelineLib] (evaluator : Option Evaluator)
    (shutdown : Bool) (env : EvalEnv) (store : TaskStore) (req : EvaluateRequest) : EvaluateResponse × TaskStore :=
  match evaluator with
  | some evaluator =>
    let ((response, _), store) := evaluator.evaluateWithPrincipal env store req none
    ({ response with shutdown }, store)
  | none => ({ decision := .forward, shutdown }, store)

/-- What is made of a body in JSON. -/
def readBody {α : Type} (double : List Char → F64) (decode : Doc → Option α) (text : String) : Except String α :=
  match (Reader.readJson double text).bind fun v => decode (Doc.ofValue v) with
  | some a => .ok a
  | none => .error "error decoding response body"

/-- The reply of a handler, as the shim reads it in its text. -/
def HttpReply.read [F64.Fmt] {α : Type} (double : List Char → F64) (toValue : α → Value) (decode : Doc → Option α) :
    Except Nat α → HttpReply α
  | .ok body => .response 200 (readBody double decode (toValue body).toJson)
  | .error status => .response status (.error "empty body")

/-- How the service stands at each of the calls that a shim makes about a line, and the clock of the shim. -/
structure Conversation [Glob] [Cedar] where
  evaluator : Option Evaluator
  shutdown : Bool
  env : EvalEnv
  store : TaskStore
  pollStart : Instant
  polls : List (Instant × Bool × GovernanceServiceState)
  revalidated : GovernanceServiceState
  /-- The blocking thread that evaluates the policies. -/
  run : CedarEngine → PolicyRequest → Except String PolicyAction

namespace Conversation

variable [Glob] [Cedar] [F64.Fmt] [F64.Display] [Sha256] [PipelineLib] (c : Conversation)

/-- The functions of the service, called on the question itself. -/
def direct (req : EvaluateRequest) : LineEnv × TaskStore :=
  let (response, store) := evaluateHandler c.evaluator c.shutdown c.env c.store req
  let taskId := response.taskId.getD ""
  ({ evaluate := .served (.ok response)
     pollStart := c.pollStart
     cycles := c.polls.map fun (now, shutdown, state) => ⟨now, shutdown, .served (state.taskStatusHandler taskId)⟩
     revalidate := .served (c.revalidated.revalidateHandler c.run taskId) }, store)

/-- The same through the texts; a text that is no question is refused. -/
def overWire (double : List Char → F64) (question : String) : LineEnv × TaskStore :=
  match readBody double decodeEvaluateRequest question with
  | .error e => (⟨.response 422 (.error e), c.pollStart, [], .failed "not asked"⟩, c.store)
  | .ok req =>
    let (response, store) := evaluateHandler c.evaluator c.shutdown c.env c.store req
    let taskId := response.taskId.getD ""
    ({ evaluate := .read double EvaluateResponse.toValue decodeEvaluateResponse (.ok response)
       pollStart := c.pollStart
       cycles := c.polls.map fun (now, shutdown, state) =>
         ⟨now, shutdown, .read double TaskStatusResponse.toValue decodeTaskStatus (state.taskStatusHandler taskId)⟩
       revalidate :=
         .read double RevalidateResponse.toValue decodeRevalidate (c.revalidated.revalidateHandler c.run taskId) }, store)

end Conversation

/-- The question as a reader of doubles has it. -/
def EvaluateRequest.reread [F64.Fmt] (double : List Char → F64) (req : EvaluateRequest) : EvaluateRequest :=
  { req with params := req.params.map (Value.mapDoubles (Reader.reread double)) }

/-! ### What is lost does not matter -/

section

variable [Glob] [Cedar] [F64.Fmt] [F64.Display] [Sha256] [PipelineLib]

omit [Glob] [Cedar] [F64.Fmt] [F64.Display] [Sha256] [PipelineLib] in
theorem extractArguments_received (req : EvaluateRequest) :
    extractArguments (Shim.received req).params = extractArguments req.params := by
  rw [extractArguments, extractArguments]
  change ((decodeValue req.params).bind _).getD _ = _
  rw [Shim.get_decodeValue]

omit [Glob] [Cedar] [F64.Fmt] [F64.Display] [Sha256] [PipelineLib] in
theorem extractResourceName_decoded (req : EvaluateRequest) :
    extractResourceName req.method (Shim.received req).params = extractResourceName req.method req.params :=
  extractResourceName_congr fun key _ => Shim.get_decodeValue req.params key

omit [Glob] [Cedar] [F64.Fmt] [F64.Display] [Sha256] [PipelineLib] in
theorem toolRequest_received (req : EvaluateRequest) (resourceName : String) :
    Evaluator.toolRequest (Shim.received req) resourceName = Evaluator.toolRequest req resourceName := by
  have hid : (req.id.filter fun id => id ≠ .null).getD .null = req.id.getD .null := by
    cases req.id with
    | none => rfl
    | some id => cases id <;> rfl
  simp only [Evaluator.toolRequest, extractArguments_received]
  simp only [Shim.received, hid]

omit [Glob] [Cedar] [F64.Fmt] [F64.Display] [Sha256] [PipelineLib] in
theorem cedarRequest_received (time : TimeContext) (req : EvaluateRequest) (resourceName policyId : String)
    (principal : Principal) : Evaluator.cedarRequest time (Shim.received req) resourceName policyId principal =
      Evaluator.cedarRequest time req resourceName policyId principal := by
  simp only [Evaluator.cedarRequest, extractArguments_received]
  rfl

/-- The evaluator makes no use of what was lost. -/
theorem evaluateWithPrincipal_received (ev : Evaluator) (env : EvalEnv) (store : TaskStore) (req : EvaluateRequest)
    (principalOverride : Option Principal) :
    ev.evaluateWithPrincipal env store (Shim.received req) principalOverride =
      ev.evaluateWithPrincipal env store req principalOverride := by
  have hname : extractResourceName (Shim.received req).method (Shim.received req).params =
      extractResourceName req.method req.params := extractResourceName_decoded req
  unfold Evaluator.evaluateWithPrincipal Evaluator.evaluateCedar Evaluator.startApproval
  simp only [hname, toolRequest_received, cedarRequest_received]
  rfl

theorem evaluateHandler_received (evaluator : Option Evaluator) (shutdown : Bool) (env : EvalEnv) (store : TaskStore)
    (req : EvaluateRequest) :
    evaluateHandler evaluator shutdown env store (Shim.received req) = evaluateHandler evaluator shutdown env store req := by
  cases evaluator with
  | none => rfl
  | some evaluator => simp only [evaluateHandler, evaluateWithPrincipal_received]

end

/-! ### Through the texts -/

section

variable [F64.Fmt] {double : List Char → F64}

/-- What was written is read, with its doubles as they are read. -/
theorem readBody_written {α : Type} (hfmt : F64.Decimal) {decode : Doc → Option α} {v : Value} (hsigned : v.Signed) {a : α}
    (h : decode (Doc.ofValue (v.mapDoubles (Reader.reread double))) = some a) :
    readBody double decode v.toJson = .ok a := by
  rw [readBody, Reader.readJson_toJson double hfmt hsigned, Option.bind_some, h]

theorem readBody_natural {α : Type} (hfmt : F64.Decimal) {decode : Doc → Option α} {v : Value} (hnatural : v.Natural) {a : α}
    (h : decode (Doc.ofValue v) = some a) : readBody double decode v.toJson = .ok a :=
  readBody_written hfmt hnatural.signed (by rw [hnatural.mapDoubles]; exact h)

/-- The answers about a task come through as they are. -/
theorem read_eq_served {α : Type} (hfmt : F64.Decimal) {toValue : α → Value} {decode : Doc → Option α}
    (hnatural : ∀ a, (toValue a).Natural) (h : ∀ a, decode (Doc.ofValue (toValue a)) = some a) (r : Except Nat α) :
    HttpReply.read double toValue decode r = .served r := by
  cases r with
  | error status => rfl
  | ok a => rw [HttpReply.read, HttpReply.served, readBody_natural hfmt (hnatural a) (h a)]

/-- The service decodes the text of a question. -/
theorem readBody_question (hfmt : F64.Decimal) (profile : Profile) {req : EvaluateRequest}
    (hid : ∀ i, req.id = some i → i.Fits)
    (hparams : ∀ p, req.params = some p → p.Keyed ∧ p.Nested (maxNesting - 1) ∧ p.Signed) :
    readBody double decodeEvaluateRequest (req.toValue profile).toJson = .ok (Shim.received (req.reread double)) := by
  refine readBody_written hfmt (toValue_signed profile fun p hp => (hparams p hp).2.2) ?_
  rw [toValue_mapDoubles]
  refine decode_evaluateRequest profile hid ?_ ?_
  · intro p hp
    obtain ⟨q, hq, rfl⟩ := Option.map_eq_some_iff.mp hp
    exact (hparams q hq).1.mapDoubles _
  · intro p hp
    obtain ⟨q, hq, rfl⟩ := Option.map_eq_some_iff.mp hp
    exact (hparams q hq).2.1.mapDoubles _

end

/-! ### A message and its question -/

/-- What `serde_json` reads has distinct keys, no more levels than it opens, and negative numbers where it says so. -/
def ReadsValues [JsonText] : Prop :=
  ∀ bytes v, JsonText.parse bytes = .ok v → v.Keyed ∧ v.Nested maxNesting ∧ v.Signed

theorem fits_of_parseId {v : Value} {id : JsonRpcId} (h : parseId v = some id) (hsigned : v.Signed) : id.Fits := by
  rintro n rfl
  cases v with
  | number m =>
    obtain ⟨i, hi, hid⟩ := Option.map_eq_some_iff.mp h
    cases hid
    cases m with
    | posInt k =>
      simp only [Number.asI64] at hi
      split at hi
      · cases hi
        omega
      · cases hi
    | negInt i =>
      cases hi
      cases hsigned with
      | number hneg =>
        have hlt := hneg _ rfl
        omega
    | float f => cases hi
  | _ => cases h

section

variable [Propagator]

/-- The parameters that are asked about are those of the message, with fewer members in `_meta`. -/
theorem stripped_members {p q : Value} (h : Shim.stripped (some p) = some q) :
    q = p ∨ ∃ fields fields' members, p = .object fields ∧ ("_meta", .object members) ∈ fields ∧ q = .object fields' ∧
      ∀ f ∈ fields', f ∈ fields ∨ f.2 = .object (Shim.strippedMeta members) := by
  rcases Shim.meta_cases p with hnone | ⟨fields, members, rfl, hmeta⟩
  · rw [(Shim.stripped_self hnone).1] at h
    exact Or.inl (Option.some.inj h).symm
  · rw [Shim.stripped_object hmeta] at h
    refine Or.inr ⟨fields, _, members, rfl, Value.mem_of_get hmeta, (Option.some.inj h).symm, ?_⟩
    intro f hf
    split at hf
    · exact Or.inl (List.mem_filter.mp hf).1
    · rcases Value.mem_insertField hf with rfl | hmem
      · exact Or.inr rfl
      · exact Or.inl hmem

omit [Propagator] in
theorem strippedMeta_subset {members : List (String × Value)} {f : String × Value} (hf : f ∈ Shim.strippedMeta members) :
    f ∈ members :=
  (List.mem_filter.mp (List.mem_filter.mp (List.mem_filter.mp hf).1).1).1

theorem stripped_nested {n : Nat} {p q : Value} (hp : p.Nested n) (h : Shim.stripped (some p) = some q) : q.Nested n := by
  rcases stripped_members h with rfl | ⟨fields, fields', members, rfl, hmeta, rfl, hfields⟩
  · exact hp
  · cases hp with
    | object hnested =>
      refine .object fun f hf => ?_
      rcases hfields f hf with hmem | heq
      · exact hnested f hmem
      · have hmembers := hnested _ hmeta
        rw [heq]
        cases hmembers with
        | object hinner => exact .object fun g hg => hinner g (strippedMeta_subset hg)

theorem stripped_signed {p q : Value} (hp : p.Signed) (h : Shim.stripped (some p) = some q) : q.Signed := by
  rcases stripped_members h with rfl | ⟨fields, fields', members, rfl, hmeta, rfl, hfields⟩
  · exact hp
  · cases hp with
    | object hsigned =>
      refine .object fun f hf => ?_
      rcases hfields f hf with hmem | heq
      · exact hsigned f hmem
      · have hmembers := hsigned _ hmeta
        rw [heq]
        cases hmembers with
        | object hinner => exact .object fun g hg => hinner g (strippedMeta_subset hg)

/-- What is known of the question about a message that was read. -/
theorem question_of_read [JsonText] (hreads : ReadsValues) {profile : Profile} {raw : ByteArray} {msg : StdioMessage}
    (h : Shim.readMessage profile raw = some msg) (serverId : String) :
    (∀ i, (Shim.evalRequest serverId msg.kind msg.params).id = some i → i.Fits) ∧
      ∀ p, (Shim.evalRequest serverId msg.kind msg.params).params = some p →
        p.Keyed ∧ p.Nested (maxNesting - 1) ∧ p.Signed := by
  cases hline : String.fromUTF8? raw with
  | none =>
    rw [Shim.readMessage, hline] at h
    split at h <;> cases h
  | some line =>
    obtain ⟨v, hv, hkind, hparams⟩ := Shim.readMessage_eq h hline
    obtain ⟨hkeyed, hnested, hsigned⟩ := hreads _ v hv
    refine ⟨?_, ?_⟩
    · intro i hi
      have hmember := (Shim.classifyJsonrpc_members hkind).2
      rw [show msg.kind.id = some i from hi] at hmember
      obtain ⟨w, hw, hparse⟩ := Option.map_eq_some_iff.mp hmember
      exact fits_of_parseId hparse (hsigned.get hw)
    · intro q hq
      have hstripped : Shim.stripped msg.params = some q := hq
      cases hp : msg.params with
      | none =>
        rw [hp] at hstripped
        cases hstripped
      | some p =>
        rw [hp] at hstripped hparams
        exact ⟨Shim.stripped_keyed (hkeyed.get hparams.symm) hstripped,
          stripped_nested (hnested.get hparams.symm) hstripped, stripped_signed (hsigned.get hparams.symm) hstripped⟩

end

section

variable [F64.Fmt] [Propagator]

/-- The shim makes no use of the source of a denial. -/
theorem handleMessage_denySource (profile : Profile) (raw : ByteArray) (msg : StdioMessage) (env : LineEnv) (status : Nat)
    (r : EvaluateResponse) :
    Shim.handleMessage profile raw msg { env with evaluate := .response status (.ok { r with denySource := none }) } =
      Shim.handleMessage profile raw msg { env with evaluate := .response status (.ok r) } := by
  obtain ⟨decision, taskId, policyId, reason, pollIntervalMs, timeoutSecs, shutdown, denySource⟩ := r
  cases decision <;> rfl

variable [Glob] [Cedar] [F64.Display] [Sha256] [PipelineLib] [JsonText]

end

section

attribute [local instance] Sample.glob Sample.cedar Sample.decimalFmt Sample.f64Display Sample.sha256 Sample.pipelineLib
  Sample.propagator Sample.readCallText

namespace Sample

/-- The service forwards what may be read, and is shutting down. -/
def openService : Conversation where
  evaluator := some readOnly
  shutdown := true
  env := evalEnv
  store := .new {}
  pollStart := 0
  polls := []
  revalidated := ⟨none, none⟩
  run _ _ := .error "not asked"

theorem readCallText_reads : ReadsValues := by
  have hkeyed : readCallMessage.Keyed :=
    .cons (by decide) (.string _) (.cons (by decide) (.number _) (.cons (by decide) (.string _)
      (.cons (by decide) (.cons (by decide) (.string _) .emptyObject) .emptyObject)))
  intro bytes v hv
  change (if _ then _ else _) = _ at hv
  split at hv
  · rw [hkeyed.readBy] at hv
    cases hv
    refine ⟨hkeyed, ?_, ?_⟩
    · exact .object (List.forall_mem_cons.mpr ⟨.string _ _, List.forall_mem_cons.mpr ⟨.number _ _,
        List.forall_mem_cons.mpr ⟨.string _ _, List.forall_mem_singleton.mpr
          (.object (List.forall_mem_singleton.mpr (.string _ _)))⟩⟩⟩)
    · exact .object (List.forall_mem_cons.mpr ⟨.string _, List.forall_mem_cons.mpr ⟨.number nofun,
        List.forall_mem_cons.mpr ⟨.string _, List.forall_mem_singleton.mpr
          (.object (List.forall_mem_singleton.mpr (.string _)))⟩⟩⟩)
  · cases hv

end Sample

end

end ThoughtGate
