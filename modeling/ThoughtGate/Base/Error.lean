import Mathlib.Data.Int.Notation

/-!
# Errors

`ThoughtGateError` of `error/mod.rs` with its texts.
-/

namespace ThoughtGate

inductive ThoughtGateError where
  | parseError (details : String)
  | invalidRequest (details : String)
  | invalidParams (details : String)
  | upstreamConnectionFailed (url reason : String)
  | upstreamTimeout (url : String) (timeoutSecs : Nat)
  | upstreamError (code : Int) (message : String)
  | toolNotExposed (tool sourceId : String)
  | governanceRuleDenied (tool : String) (rule : Option String)
  | policyDenied (tool : String) (policyId reason : Option String)
  | taskNotFound (taskId : String)
  | taskExpired (taskId : String)
  | taskCancelled (taskId : String)
  | taskResultNotReady (taskId : String)
  | approvalRejected (tool : String) (rejectedBy workflow : Option String)
  | approvalTimeout (tool : String) (timeoutSecs : Nat) (workflow : Option String)
  | taskRequired (tool hint : String)
  | policyDrift (tool taskId : String)
  | transformDrift (tool taskId : String)
  | rateLimited (retryAfterSecs : Option Nat)
  | serviceUnavailable (reason : String)
  | internalError (correlationId : String)
deriving DecidableEq

/-- `to_string`. -/
def ThoughtGateError.display : ThoughtGateError → String
  | .parseError details => "Invalid JSON: " ++ details
  | .invalidRequest details => "Invalid JSON-RPC request: " ++ details
  | .invalidParams details => "Invalid parameters: " ++ details
  | .upstreamConnectionFailed _ _ => "Cannot connect to MCP server"
  | .upstreamTimeout _ _ => "MCP server did not respond in time"
  | .upstreamError _ message => "MCP server error: " ++ message
  | .toolNotExposed tool _ => "Tool '" ++ tool ++ "' is not available"
  | .governanceRuleDenied tool _ => "Tool '" ++ tool ++ "' is denied by governance rules"
  | .policyDenied tool _ _ => "Policy denied access to tool '" ++ tool ++ "'"
  | .taskNotFound id => "Task '" ++ id ++ "' not found"
  | .taskExpired id => "Task '" ++ id ++ "' has expired"
  | .taskCancelled id => "Task '" ++ id ++ "' was cancelled"
  | .taskResultNotReady id => "Task '" ++ id ++ "' result not ready"
  | .approvalRejected tool _ _ => "Approval rejected for tool '" ++ tool ++ "'"
  | .approvalTimeout tool secs _ => "Approval timeout for tool '" ++ tool ++ "' after " ++ toString secs ++ "s"
  | .taskRequired tool _ => "Task metadata required for tool '" ++ tool ++ "'"
  | .policyDrift tool _ => "Policy changed since approval for tool '" ++ tool ++ "'"
  | .transformDrift tool _ => "Request transform changed since approval for tool '" ++ tool ++ "'"
  | .rateLimited none => "Too many requests. Retry after None seconds"
  | .rateLimited (some secs) => "Too many requests. Retry after Some(" ++ toString secs ++ ") seconds"
  | .serviceUnavailable _ => "Service temporarily unavailable"
  | .internalError correlationId => "Internal error. Reference: " ++ correlationId

end ThoughtGate
