import ThoughtGate.Task.Types

/-!
# Approval adapters

The types of `governance/approval/mod.rs`: what is posted to an external system for a human to decide, the reference
that is polled for the decision, and the answers of an adapter.
-/

namespace ThoughtGate

/-- `ApprovalRequest`, without the span context. -/
structure ApprovalRequest where
  taskId : TaskId
  toolName : String
  toolArguments : Value
  principal : Principal
  expiresAt : DateTime
  createdAt : DateTime
  correlationId : String
  redactFields : List String

/-- `ApprovalReference`, without the trace context. -/
structure ApprovalReference where
  taskId : TaskId
  externalId : String
  channel : String
  postedAt : DateTime
  nextPollAt : Instant
  pollCount : Nat
deriving DecidableEq

inductive PollDecision where
  | approved
  | rejected
deriving DecidableEq

inductive DecisionMethod where
  | reaction (emoji : String)
  | reply (text : String)
deriving DecidableEq

/-- `description`. The preview is cut by characters, the dots depend on the number of bytes. -/
def DecisionMethod.description : DecisionMethod → String
  | .reaction emoji => ":" ++ emoji ++ ": reaction"
  | .reply text =>
    let preview := String.ofList (text.toList.take 30)
    if 30 < text.utf8ByteSize then "reply \"" ++ preview ++ "...\"" else "reply \"" ++ preview ++ "\""

structure PollResult where
  decision : PollDecision
  decidedBy : String
  decidedAt : DateTime
  method : DecisionMethod
deriving DecidableEq

/-- The decision as the task layer records it. -/
def PollResult.approvalDecision (r : PollResult) : ApprovalDecision :=
  match r.decision with
  | .approved => .approved
  | .rejected => .rejected (some ("Rejected via " ++ r.method.description ++ " by " ++ r.decidedBy))

inductive AdapterError where
  | postFailed (reason : String) (retriable : Bool)
  | pollFailed (reason : String) (retriable : Bool)
  | rateLimited (retryAfter : Duration)
  | invalidToken
  | channelNotFound (channel : String)
  | messageNotFound (ts : String)
deriving DecidableEq

def AdapterError.isRetriable : AdapterError → Bool
  | .postFailed _ retriable | .pollFailed _ retriable => retriable
  | .rateLimited _ => true
  | .invalidToken | .channelNotFound _ | .messageNotFound _ => false

/-- `PollingConfig`; the rate limit is met by waiting, which takes no time here. -/
structure PollingConfig where
  baseInterval : Duration := Duration.fromSecs 5
  maxInterval : Duration := Duration.fromSecs 30
  maxConcurrent : Nat := 100
  approvalValidFor : Duration := Duration.fromSecs 60

/-- `backoff_interval`; the cap makes the saturation of the product invisible. -/
def PollingConfig.backoffInterval (config : PollingConfig) (pollCount : Nat) : Duration :=
  min (config.baseInterval * 2 ^ min pollCount 3) config.maxInterval

end ThoughtGate
