import ThoughtGate.Proxy.Routing
import ThoughtGate.Shim.Message

/-!
# Responses

What the proxy writes: `to_jsonrpc_error` of `error/mod.rs` with its error object, and the response around it
(`transport/jsonrpc.rs`). A response always shows an identifier, `null` where it has none (`JsonRpcResponse.toValue_id`).
-/

namespace ThoughtGate

namespace ThoughtGateError

/-- `to_jsonrpc_code`. -/
def toJsonrpcCode : ThoughtGateError → Int
  | .parseError _ => -32700
  | .invalidRequest _ => -32600
  | .invalidParams _ => -32602
  | .internalError _ => -32603
  | .upstreamConnectionFailed _ _ => -32000
  | .upstreamTimeout _ _ => -32001
  | .upstreamError _ _ => -32002
  | .policyDenied _ _ _ => -32003
  | .taskNotFound _ => -32602
  | .taskExpired _ => -32005
  | .taskCancelled _ => -32006
  | .taskResultNotReady _ => -32020
  | .approvalRejected _ _ _ => -32007
  | .approvalTimeout _ _ _ => -32008
  | .policyDrift _ _ => -32011
  | .transformDrift _ _ => -32012
  | .rateLimited _ => -32009
  | .serviceUnavailable _ => -32013
  | .governanceRuleDenied _ _ => -32014
  | .toolNotExposed _ _ => -32015
  | .taskRequired _ _ => -32600

/-- `error_type_name`. -/
def errorTypeName : ThoughtGateError → String
  | .parseError _ => "parse_error"
  | .invalidRequest _ => "invalid_request"
  | .invalidParams _ => "invalid_params"
  | .upstreamConnectionFailed _ _ => "upstream_connection_failed"
  | .upstreamTimeout _ _ => "upstream_timeout"
  | .upstreamError _ _ => "upstream_error"
  | .toolNotExposed _ _ => "tool_not_exposed"
  | .governanceRuleDenied _ _ => "governance_rule_denied"
  | .policyDenied _ _ _ => "policy_denied"
  | .taskNotFound _ => "task_not_found"
  | .taskExpired _ => "task_expired"
  | .taskCancelled _ => "task_cancelled"
  | .taskResultNotReady _ => "task_result_not_ready"
  | .approvalRejected _ _ _ => "approval_rejected"
  | .approvalTimeout _ _ _ => "approval_timeout"
  | .policyDrift _ _ => "policy_drift"
  | .transformDrift _ _ => "transform_drift"
  | .rateLimited _ => "rate_limited"
  | .serviceUnavailable _ => "service_unavailable"
  | .internalError _ => "internal_error"
  | .taskRequired _ _ => "task_required"

/-- `retry_after`. -/
def retryAfter : ThoughtGateError → Option Nat
  | .rateLimited retryAfterSecs => retryAfterSecs
  | _ => none

/-- `gate`. -/
def gate : ThoughtGateError → Option String
  | .toolNotExposed _ _ => some "visibility"
  | .governanceRuleDenied _ _ => some "governance"
  | .policyDenied _ _ _ => some "policy"
  | .approvalRejected _ _ _ | .approvalTimeout _ _ _ => some "approval"
  | .policyDrift _ _ | .transformDrift _ _ => some "policy"
  | _ => none

/-- `tool`. -/
def tool : ThoughtGateError → Option String
  | .toolNotExposed tool _ | .governanceRuleDenied tool _ | .policyDenied tool _ _ | .approvalRejected tool _ _
  | .approvalTimeout tool _ _ | .policyDrift tool _ | .transformDrift tool _ | .taskRequired tool _ => some tool
  | _ => none

/-- `safe_details`: what a client may be told. -/
def safeDetails : ThoughtGateError → Option String
  | .toolNotExposed _ _ | .governanceRuleDenied _ _ => none
  | .policyDenied _ _ _ | .policyDrift _ _ | .transformDrift _ _ => none
  | .approvalRejected _ rejectedBy _ => rejectedBy.map fun by_ => "Rejected by: " ++ by_
  | .approvalTimeout _ secs _ => some ("Timeout after " ++ toString secs ++ "s")
  | .upstreamConnectionFailed _ _ => none
  | .upstreamTimeout _ secs => some ("Timeout after " ++ toString secs ++ "s")
  | .upstreamError code _ => some ("Upstream error code: " ++ toString code)
  | .taskNotFound _ => none
  | .taskExpired id => some ("Task " ++ id ++ " expired")
  | .taskCancelled _ => none
  | .taskResultNotReady id => some ("Task " ++ id ++ " result pending")
  | .rateLimited retryAfterSecs => retryAfterSecs.map fun secs => "Retry after " ++ toString secs ++ "s"
  | .serviceUnavailable reason => some reason
  | .parseError details | .invalidRequest details | .invalidParams details => some details
  | .taskRequired _ hint => some hint
  | .internalError _ => none

/-- `to_jsonrpc_error`, as it is serialised: members that are not there are left out. -/
def toJsonrpcError (e : ThoughtGateError) (correlationId : String) : Value :=
  let text (key : String) (s : Option String) : List (String × Value) := (s.map fun s => (key, Value.string s)).toList
  .object [
    ("code", .number (.negInt e.toJsonrpcCode)),
    ("message", .string e.display),
    ("data", .object (
      [("correlation_id", Value.string correlationId)] ++ text "gate" e.gate ++ text "tool" e.tool ++
        text "details" e.safeDetails ++ [("error_type", Value.string e.errorTypeName)] ++
        (e.retryAfter.map fun secs => ("retry_after", Value.number (.posInt secs))).toList))]

/-- Every code is negative, so that it is written as one. -/
theorem toJsonrpcCode_neg (e : ThoughtGateError) : e.toJsonrpcCode < 0 := by
  cases e <;> simp [toJsonrpcCode]

/-- An error of a gate names the tool that was called. -/
theorem tool_of_gate {e : ThoughtGateError} (h : e.gate.isSome = true) : e.tool.isSome = true := by
  cases e <;> first | rfl | cases h

/-- What the rules and the policies say is not told. -/
theorem safeDetails_of_gate {e : ThoughtGateError} {gate : String} (h : e.gate = some gate) (hgate : gate ≠ "approval") :
    e.safeDetails = none := by
  cases e <;> first | rfl | cases h <;> exact absurd rfl hgate

end ThoughtGateError

namespace JsonRpcResponse

/-- `JsonRpcResponse::error`. -/
def failure (id : Option JsonRpcId) (error : Value) : JsonRpcResponse := ⟨id, none, some error⟩

/-- The identifier that is written. -/
def shownId (r : JsonRpcResponse) : JsonRpcId := r.id.getD .null

/-- The response as it is serialised. -/
def toValue (r : JsonRpcResponse) : Value :=
  .object (
    [("jsonrpc", Value.string "2.0"), ("id", Shim.idValue r.shownId)] ++ (r.result.map fun v => ("result", v)).toList ++
      (r.error.map fun v => ("error", v)).toList)

theorem toValue_id (r : JsonRpcResponse) : r.toValue.get "id" = some (Shim.idValue r.shownId) := by
  simp [toValue, Value.get]

end JsonRpcResponse

/-- The upstream answers under the identifier of the request, where it has one. -/
def UpstreamForwarder.Echoes (upstream : UpstreamForwarder) : Prop :=
  ∀ request response, request.id.isSome = true → upstream request = .ok response →
    response.shownId = request.id.getD .null

end ThoughtGate
